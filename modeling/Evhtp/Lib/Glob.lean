import Mathlib.Computability.Language
import Mathlib.Order.CompletePartialOrder

/-! Patterns with wildcards, over any alphabet. A letter stands for itself and `none` for any word. -/

namespace Glob

universe u
variable {α : Type u}

/-- The words that one place of a pattern stands for. -/
def place : Option α → Language α
  | none => (Set.univ : Set (List α))
  | some letter => ({[letter]} : Set (List α))

def language (pattern : List (Option α)) : Language α := (pattern.map place).prod

theorem mem_language_nil {word : List α} : word ∈ language [] ↔ word = [] := Iff.rfl

theorem mem_language_some {letter : α} {pattern : List (Option α)} {word : List α} :
    word ∈ language (some letter :: pattern) ↔ ∃ rest ∈ language pattern, word = letter :: rest := by
  change word ∈ place (some letter) * language pattern ↔ _
  rw [Language.mem_mul]
  constructor
  · rintro ⟨_, rfl, rest, member, rfl⟩
    exact ⟨rest, member, rfl⟩
  · rintro ⟨rest, member, rfl⟩
    exact ⟨[letter], rfl, rest, member, rfl⟩

theorem mem_language_none {pattern : List (Option α)} {word : List α} :
    word ∈ language (none :: pattern) ↔ ∃ rest ∈ language pattern, rest <:+ word := by
  change word ∈ place none * language pattern ↔ _
  rw [Language.mem_mul]
  constructor
  · rintro ⟨front, -, rest, member, rfl⟩
    exact ⟨rest, member, front, rfl⟩
  · rintro ⟨rest, member, front, rfl⟩
    exact ⟨front, trivial, rest, member, rfl⟩

/-- A second wildcard adds nothing. -/
theorem language_none_none (pattern : List (Option α)) : language (none :: none :: pattern) = language (none :: pattern) := by
  ext word
  rw [mem_language_none]
  constructor
  · rintro ⟨rest, member, suffix⟩
    obtain ⟨last, member, suffix'⟩ := mem_language_none.mp member
    exact mem_language_none.mpr ⟨last, member, suffix'.trans suffix⟩
  · intro member
    exact ⟨word, member, List.suffix_refl word⟩

theorem nil_mem_language {pattern : List (Option α)} : [] ∈ language pattern ↔ ∀ place ∈ pattern, place = none := by
  induction pattern with
  | nil => simp [mem_language_nil]
  | cons place pattern ih =>
    cases place with
    | none => simp [mem_language_none, ih]
    | some letter => simp [mem_language_some]

end Glob
