import Mathlib.Data.List.Basic
import Mathlib.Algebra.Order.Ring.Nat

/-! Positional numerals over any alphabet: writing a number digit by digit, the last one first, and reading
a text of digits from the left. -/

namespace Numeral

variable {α : Type*}

/-- The digits of a number, the last one first, of which there are at most `fuel`. -/
def digits (base : Nat) (digit : Nat → α) : Nat → Nat → List α
  | 0, _ => []
  | fuel + 1, n => digit (n % base) :: if n / base = 0 then [] else digits base digit fuel (n / base)

/-- The number a text stands for, read on from `start`. -/
def value (base : Nat) (val : α → Nat) (start : Nat) (text : List α) : Nat :=
  text.foldl (fun v char => v * base + val char) start

variable {base : Nat} {digit : Nat → α} {val : α → Nat}

theorem value_append (start : Nat) (front back : List α) :
    value base val start (front ++ back) = value base val (value base val start front) back := by
  simp [value]

theorem le_value (val : α → Nat) (positive : 0 < base) (start : Nat) (text : List α) : start ≤ value base val start text := by
  induction text generalizing start with
  | nil => exact Nat.le_refl start
  | cons char rest ih =>
    calc start ≤ start * base + val char := Nat.le_add_right_of_le (Nat.le_mul_of_pos_right start positive)
      _ ≤ value base val start (char :: rest) := ih _

/-- As many digits give a smaller number than the power of the base. -/
theorem value_lt {text : List α} (below : ∀ char ∈ text, val char < base) : value base val 0 text < base ^ text.length := by
  suffices ∀ start, value base val start text < (start + 1) * base ^ text.length by simpa using this 0
  induction text with
  | nil => intro start; simp [value]
  | cons char rest ih =>
    intro start
    have first := below char (by simp)
    calc value base val start (char :: rest) < (start * base + val char + 1) * base ^ rest.length :=
          ih (fun char member => below char (by simp [member])) _
      _ ≤ ((start + 1) * base) * base ^ rest.length := Nat.mul_le_mul_right _ (by rw [Nat.succ_mul]; omega)
      _ = (start + 1) * base ^ (rest.length + 1) := by rw [Nat.pow_succ', Nat.mul_assoc]

theorem digits_ne_nil (fuel n : Nat) : digits base digit (fuel + 1) n ≠ [] := by
  simp [digits]

theorem length_digits_le (fuel n : Nat) : (digits base digit fuel n).length ≤ fuel := by
  induction fuel generalizing n with
  | zero => exact Nat.le_refl 0
  | succ fuel ih =>
    rw [digits, List.length_cons]
    split
    · exact Nat.le_add_left 1 fuel
    · exact Nat.add_le_add_right (ih _) 1

theorem mem_digits (positive : 0 < base) {fuel n : Nat} {char : α} (member : char ∈ digits base digit fuel n) :
    ∃ d < base, char = digit d := by
  induction fuel generalizing n with
  | zero => cases member
  | succ fuel ih =>
    rw [digits] at member
    rcases List.mem_cons.mp member with same | member
    · exact ⟨n % base, Nat.mod_lt n positive, same⟩
    · split at member
      · cases member
      · exact ih member

/-- The digit that is written last is not zero. -/
theorem getLast_digits (large : 1 < base) {fuel n : Nat} (positive : n ≠ 0) (fits : n < base ^ (fuel + 1)) :
    ∃ d, d ≠ 0 ∧ d < base ∧ (digits base digit (fuel + 1) n).getLast? = some (digit d) := by
  induction fuel generalizing n with
  | zero =>
    have small : n < base := by simpa using fits
    refine ⟨n, positive, small, ?_⟩
    rw [digits, Nat.mod_eq_of_lt small, if_pos (Nat.div_eq_of_lt small)]
    rfl
  | succ fuel ih =>
    rw [digits]
    by_cases last : n / base = 0
    · have small : n < base := Nat.lt_of_div_eq_zero (by omega) last
      refine ⟨n, positive, small, ?_⟩
      rw [Nat.mod_eq_of_lt small, if_pos last]
      rfl
    · obtain ⟨d, nonzero, below, found⟩ := ih last (Nat.div_lt_of_lt_mul (by rwa [Nat.pow_succ'] at fits))
      refine ⟨d, nonzero, below, ?_⟩
      rw [if_neg last, List.getLast?_cons_of_ne_nil (digits_ne_nil _ _), found]

theorem value_digits (large : 1 < base) (inverse : ∀ d < base, val (digit d) = d) {fuel n : Nat}
    (fits : n < base ^ fuel) : value base val 0 (digits base digit fuel n).reverse = n := by
  induction fuel generalizing n with
  | zero =>
    have : n = 0 := by simpa using fits
    simp [digits, value, this]
  | succ fuel ih =>
    have last := inverse (n % base) (Nat.mod_lt n (by omega))
    rw [digits, List.reverse_cons, value_append]
    split
    next small =>
      have : n % base = n := Nat.mod_eq_of_lt (Nat.lt_of_div_eq_zero (by omega) small)
      rw [this] at last
      simp [value, last, this]
    next =>
      rw [ih (Nat.div_lt_of_lt_mul (by rwa [Nat.pow_succ'] at fits))]
      simp only [value, List.foldl_cons, List.foldl_nil, last]
      exact Nat.div_add_mod' n base

end Numeral
