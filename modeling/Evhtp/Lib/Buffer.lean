import Mathlib.Data.List.Basic

/-! Buffers of a fixed size. A write outside of a buffer has no result, so a computation that has one has stayed
inside. -/

namespace Buffer

universe u
variable {α : Type u}

def write (buffer : List α) (index : Nat) (value : α) : Option (List α) :=
  if index < buffer.length then some (buffer.set index value) else none

/-- Values that are written one behind the other. -/
def copy (buffer : List α) (index : Nat) : List α → Option (List α)
  | [] => some buffer
  | value :: values => (write buffer index value).bind fun buffer => copy buffer (index + 1) values

theorem write_append (front rest : List α) (old value : α) :
    write (front ++ old :: rest) front.length value = some (front ++ value :: rest) := by
  unfold write
  rw [if_pos (by simp), List.set_append_right _ _ (Nat.le_refl _), Nat.sub_self, List.set_cons_zero]

theorem copy_values_append (buffer : List α) (index : Nat) (first second : List α) :
    copy buffer index (first ++ second) = (copy buffer index first).bind fun buffer => copy buffer (index + first.length) second := by
  induction first generalizing buffer index with
  | nil => rfl
  | cons value first ih =>
    rw [List.cons_append, copy, copy, Option.bind_assoc]
    congr 1
    funext buffer
    rw [ih, List.length_cons, Nat.add_right_comm]
    rfl

/-- A copy has a result if the last of its writes is inside. -/
theorem copy_isSome_iff {buffer values : List α} {index : Nat} (some : values ≠ []) :
    (copy buffer index values).isSome ↔ index + values.length ≤ buffer.length := by
  induction values generalizing buffer index with
  | nil => exact absurd rfl some
  | cons value values ih =>
    rw [copy, write, List.length_cons]
    by_cases inside : index < buffer.length
    · rw [if_pos inside, Option.bind_some]
      by_cases last : values = []
      · subst last
        simpa [copy, Nat.succ_le_iff] using inside
      · rw [ih last, List.length_set]
        omega
    · rw [if_neg inside]
      simp
      omega

theorem copy_append (front : List α) {room values : List α} (fits : values.length ≤ room.length) :
    copy (front ++ room) front.length values = some (front ++ (values ++ room.drop values.length)) := by
  induction values generalizing front room with
  | nil => rfl
  | cons value values ih =>
    cases room with
    | nil => cases fits
    | cons old room =>
      have next := ih (front ++ [value]) (Nat.le_of_succ_le_succ fits)
      rw [List.length_append, List.append_assoc, List.append_assoc] at next
      rw [copy, write_append]
      exact next

end Buffer
