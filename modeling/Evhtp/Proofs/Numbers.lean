import Evhtp.Msgparser
import Evhtp.Lib.Numeral

/-! The numbers of a message: decimal lengths and hexadecimal chunk sizes, as the parser reads them. -/

namespace Evhtp

def Decimal (text : Bytes) (n : Nat) : Prop :=
  text ≠ [] ∧ (∀ byte ∈ text, isDigit byte = true) ∧ Numeral.value 10 digitVal 0 text = n

instance (text : Bytes) (n : Nat) : Decidable (Decimal text n) :=
  inferInstanceAs (Decidable (_ ∧ _ ∧ _))

theorem digitVal_lt {byte : UInt8} (digit : isDigit byte = true) : digitVal byte < 10 := by
  simp only [isDigit, Bool.and_eq_true, decide_eq_true_eq, UInt8.le_iff_toNat_le] at digit
  have : byte.toNat ≤ 57 := digit.2
  rw [digitVal]
  omega

theorem digitChar_digitVal {byte : UInt8} (digit : isDigit byte = true) : digitChar (digitVal byte) = byte := by
  simp only [isDigit, Bool.and_eq_true, decide_eq_true_eq, UInt8.le_iff_toNat_le] at digit
  have : 48 ≤ byte.toNat := digit.1
  rw [digitChar, digitVal, show 48 + (byte.toNat - 48) = byte.toNat by omega, UInt8.ofNat_toNat]

theorem digitChar_digit {n : Nat} (small : n < 10) : isDigit (digitChar n) = true ∧ digitVal (digitChar n) = n := by
  decide +revert

theorem digitChar_zero {n : Nat} (small : n < 10) : digitChar n = 48 ↔ n = 0 := by
  decide +revert

theorem parseU64Loop_iff {v n : Nat} (small : v < 2 ^ 64) (text : Bytes) : parseU64Loop v text = some n ↔
    (∀ byte ∈ text, isDigit byte = true) ∧ Numeral.value 10 digitVal v text = n ∧ n < 2 ^ 64 := by
  induction text generalizing v with
  | nil =>
    simp only [parseU64Loop, Option.some.injEq, Numeral.value, List.foldl_nil]
    constructor
    · rintro rfl
      exact ⟨by simp, rfl, small⟩
    · exact fun held => held.2.1
  | cons byte rest ih =>
    have read : Numeral.value 10 digitVal v (byte :: rest) = Numeral.value 10 digitVal (v * 10 + digitVal byte) rest := rfl
    rw [parseU64Loop]
    by_cases digit : isDigit byte = true
    · have bound := digitVal_lt digit
      by_cases large : v > (2 ^ 64 - 1 - digitVal byte) / 10
      · rw [if_pos (.inr large)]
        have gone : 2 ^ 64 ≤ v * 10 + digitVal byte := by omega
        have := Numeral.le_value digitVal (show 0 < 10 by decide) (v * 10 + digitVal byte) rest
        constructor
        · intro impossible
          cases impossible
        · rintro ⟨-, value, below⟩
          omega
      · rw [if_neg (by simp [digit]; omega), ih (by omega), read]
        simp [digit]
    · rw [if_pos (.inl (by simpa using digit))]
      simp [digit]

theorem parseU64_iff {text : Bytes} {n : Nat} : parseU64 text = some n ↔ Decimal text n ∧ n < 2 ^ 64 := by
  rw [parseU64]
  split
  next none => simp [Decimal, none]
  next some => simp [Decimal, some, parseU64Loop_iff, and_assoc]

def hexDigitVal (byte : UInt8) : Nat := (hexval byte).getD 0

theorem hexval_lt {byte : UInt8} {d : Nat} (digit : hexval byte = some d) : d < 16 := by
  have all : ∀ i : Fin 256, ∀ d ∈ hexval (UInt8.ofNat i), d < 16 := by decide +kernel
  have this := all ⟨byte.toNat, byte.toNat_lt⟩
  rw [UInt8.ofNat_toNat] at this
  exact this d digit

/-- At most fifteen digits are read up to where they end, and none of them is lost. -/
theorem chunkDigits_hex {k v : Nat} {text rest : Bytes} (hex : ∀ byte ∈ text, (hexval byte).isSome = true)
    (stops : ∀ byte, rest.head? = some byte → hexval byte = none) (short : k + text.length ≤ 15) (small : v < 16 ^ k) :
    chunkDigits k v (text ++ rest) = some (k + text.length, Numeral.value 16 hexDigitVal v text, rest) := by
  induction text generalizing k v with
  | nil =>
    cases rest with
    | nil => rfl
    | cons byte rest =>
      rw [List.nil_append, chunkDigits, stops byte rfl]
      rfl
  | cons byte text ih =>
    obtain ⟨d, digit⟩ := Option.isSome_iff_exists.mp (hex byte (by simp))
    have below := hexval_lt digit
    have read : Numeral.value 16 hexDigitVal v (byte :: text) = Numeral.value 16 hexDigitVal (v * 16 + d) text := by
      simp [Numeral.value, hexDigitVal, digit]
    rw [List.length_cons] at short
    have small' : v * 16 + d < 16 ^ (k + 1) := by
      rw [Nat.pow_succ]
      omega
    have fits : 16 ^ (k + 1) ≤ 2 ^ 64 := by
      calc 16 ^ (k + 1) ≤ 16 ^ 15 := Nat.pow_le_pow_right (by decide) (by omega)
        _ ≤ 2 ^ 64 := by decide
    have shifted : (v <<< 4 ||| d) % 2 ^ 64 = v * 16 + d := by
      rw [← Nat.shiftLeft_add_eq_or_of_lt (show d < 2 ^ 4 from below), Nat.shiftLeft_eq]
      exact Nat.mod_eq_of_lt (by omega)
    rw [List.cons_append, chunkDigits, digit]
    dsimp only
    rw [if_neg (by omega), shifted, ih (fun byte member => hex byte (by simp [member])) (by omega) small', read,
      List.length_cons, Nat.add_assoc, Nat.add_comm 1]

theorem chunkExtension_blanks {blanks extension : Bytes} (blank : ∀ byte ∈ blanks, isBlank byte = true)
    (marked : extension = [] ∨ extension.head? = some 59) : chunkExtension (blanks ++ extension) = true := by
  induction blanks with
  | nil =>
    rcases marked with rfl | first
    · rfl
    · obtain ⟨rest, rfl⟩ := List.head?_eq_some_iff.mp first
      rfl
  | cons byte blanks ih =>
    rw [List.cons_append, chunkExtension, if_pos (blank byte (by simp)), ih fun byte member => blank byte (by simp [member])]
    exact ite_self _

theorem parseChunkSize_line {digits blanks extension : Bytes} (hex : ∀ byte ∈ digits, (hexval byte).isSome = true)
    (count : 1 ≤ digits.length ∧ digits.length ≤ 15) (blank : ∀ byte ∈ blanks, isBlank byte = true)
    (marked : extension = [] ∨ extension.head? = some 59) :
    parseChunkSize (digits ++ (blanks ++ extension)) = some (Numeral.value 16 hexDigitVal 0 digits) := by
  have stops : ∀ byte, (blanks ++ extension).head? = some byte → hexval byte = none := by
    intro byte first
    cases blanks with
    | nil =>
      rcases marked with rfl | marked
      · cases first
      · cases marked.symm.trans first
        rfl
    | cons other blanks =>
      cases first
      have := blank byte (by simp)
      simp only [isBlank, Bool.or_eq_true, beq_iff_eq] at this
      rcases this with rfl | rfl <;> rfl
  have read : chunkDigits 0 0 (digits ++ (blanks ++ extension)) =
      some (digits.length, Numeral.value 16 hexDigitVal 0 digits, blanks ++ extension) := by
    rw [chunkDigits_hex hex stops (by omega) (by decide), Nat.zero_add]
  have some : digits.length ≠ 0 := by omega
  simp only [parseChunkSize, read, if_neg some, chunkExtension_blanks blank marked, if_true]

end Evhtp
