import Mathlib.Data.List.Basic
import Mathlib.Data.List.Nodup

/-! The links of a list: the pairs of items that follow each other. In a list without repetition an item has
one link to the item after it and one from the item before it. -/

namespace Links

variable {α : Type*}

def Adjacent (items : List α) (first second : α) : Prop := [first, second] <:+: items

variable {items : List α} {first second third item : α}

theorem Adjacent.left_mem (linked : Adjacent items first second) : first ∈ items :=
  List.IsInfix.mem (by simp) linked

theorem Adjacent.right_mem (linked : Adjacent items first second) : second ∈ items :=
  List.IsInfix.mem (by simp) linked

theorem not_adjacent_singleton : ¬Adjacent [item] first second := by
  intro linked
  exact absurd (List.IsInfix.length_le linked) (by simp)

theorem adjacent_cons : Adjacent (item :: items) first second ↔
    (item = first ∧ items.head? = some second) ∨ Adjacent items first second := by
  unfold Adjacent
  rw [List.infix_cons_iff]
  cases items with
  | nil => simp
  | cons next rest => simp [List.cons_prefix_cons, eq_comm]

theorem adjacent_concat : Adjacent (items ++ [item]) first second ↔
    Adjacent items first second ∨ (items.getLast? = some first ∧ second = item) := by
  induction items with
  | nil =>
    have none : ¬Adjacent [item] first second := not_adjacent_singleton
    have nil : ¬Adjacent [] first second := fun linked => absurd linked.left_mem (by simp)
    simp [none, nil]
  | cons next rest ih =>
    rw [List.cons_append, adjacent_cons, ih, adjacent_cons]
    cases rest with
    | nil => simp [Adjacent]; grind
    | cons => simp; grind

theorem Adjacent.right_unique (distinct : items.Nodup) (linked : Adjacent items first second)
    (other : Adjacent items first third) : second = third := by
  induction items with
  | nil => exact absurd linked.left_mem (by simp)
  | cons item rest ih =>
    obtain ⟨absent, distinct⟩ := List.nodup_cons.mp distinct
    rcases adjacent_cons.mp linked with ⟨rfl, here⟩ | linked
    · rcases adjacent_cons.mp other with ⟨_, there⟩ | other
      · exact Option.some.inj (here.symm.trans there)
      · exact absurd other.left_mem absent
    · rcases adjacent_cons.mp other with ⟨rfl, _⟩ | other
      · exact absurd linked.left_mem absent
      · exact ih distinct linked other

theorem Adjacent.ne_last (distinct : items.Nodup) (linked : Adjacent items first second) :
    items.getLast? ≠ some first := by
  induction items with
  | nil => exact nofun
  | cons item rest ih =>
    obtain ⟨absent, distinct⟩ := List.nodup_cons.mp distinct
    rcases adjacent_cons.mp linked with ⟨rfl, next⟩ | linked
    · cases rest with
      | nil => cases next
      | cons next others =>
        intro last
        rw [List.getLast?_cons_cons] at last
        exact absent (List.mem_of_getLast? last)
    · cases rest with
      | nil => exact absurd linked.left_mem (by simp)
      | cons next others => simpa using ih distinct linked

/-- A list that goes on after its first item has a link from it. -/
theorem adjacent_of_ne_singleton (start : items.head? = some first) (more : items ≠ [first]) :
    ∃ second, Adjacent items first second := by
  cases items with
  | nil => cases start
  | cons item rest =>
    cases start
    cases rest with
    | nil => exact absurd rfl more
    | cons next others => exact ⟨next, adjacent_cons.mpr (.inl ⟨rfl, rfl⟩)⟩

theorem eq_singleton (distinct : items.Nodup) (start : items.head? = some item) (last : items.getLast? = some item) :
    items = [item] := by
  by_contra more
  obtain ⟨second, linked⟩ := adjacent_of_ne_singleton start more
  exact linked.ne_last distinct last

end Links
