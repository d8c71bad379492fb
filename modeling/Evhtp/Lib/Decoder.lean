import Mathlib.Logic.Relation
import Mathlib.Data.List.Basic

/-! Incremental decoders. A decoder takes one step at a time on the input at hand and says how much of
it the step used; no step means that it waits for more input. A coherent decoder does not look past
what it uses, except that a step that used everything may go on into input that follows. -/

namespace Decoder

variable {S β : Type*}

/-- The state after a step and the number of items it used. -/
abbrev Step (S β : Type*) := S → List β → Option (S × Nat)

def Next (step : Step S β) (before after : S × List β) : Prop :=
  ∃ state used, step before.1 before.2 = some (state, used) ∧ after = (state, before.2.drop used)

def Normal (step : Step S β) (config : S × List β) : Prop := step config.1 config.2 = none

abbrev Steps (step : Step S β) : S × List β → S × List β → Prop := Relation.ReflTransGen (Next step)

/-- What a step that used all of its input does when `more` follows: it goes on with the step the
state it reached would take on `more`. -/
def fused (step : Step S β) (after : S × Nat) (more : List β) : S × Nat :=
  match step after.1 more with
  | none => after
  | some (state, used) => (state, after.2 + used)

structure Coherent (step : Step S β) (valid failed : S → Prop) : Prop where
  keeps : ∀ {state input after}, valid state → step state input = some after → valid after.1
  within : ∀ {state input after}, valid state → step state input = some after → after.2 ≤ input.length
  stuck : ∀ {state} input, failed state → step state input = none
  extend : ∀ {state input after} more, valid state → step state input = some after → ¬failed after.1 →
    step state (input ++ more) = some after ∨
      (after.2 = input.length ∧ step state (input ++ more) = some (fused step after more))

variable {step : Step S β}

theorem next_right_unique : Relator.RightUnique (Next step) := by
  rintro before first second ⟨state, used, taken, rfl⟩ ⟨state', used', taken', rfl⟩
  rw [taken] at taken'
  cases taken'
  rfl

theorem Normal.steps_eq {config after : S × List β} (normal : Normal step config)
    (steps : Steps step config after) : after = config := by
  rcases Relation.ReflTransGen.cases_head steps with same | ⟨_, ⟨_, _, taken, _⟩, _⟩
  · exact same.symm
  · rw [normal] at taken
    cases taken

theorem steps_after_next {before middle last : S × List β} (next : Next step before middle)
    (steps : Steps step before last) (normal : Normal step last) : Steps step middle last := by
  rcases Relation.ReflTransGen.cases_head steps with same | ⟨other, first, rest⟩
  · obtain ⟨_, _, taken, _⟩ := next
    rw [same, normal] at taken
    cases taken
  · rw [next_right_unique next first]
    exact rest

/-- Whatever a decoder goes through is on the way to the configuration in which it waits. -/
theorem steps_to_normal {before middle last : S × List β} (steps : Steps step before last)
    (path : Steps step before middle) (normal : Normal step last) : Steps step middle last := by
  rcases Relation.ReflTransGen.total_of_right_unique next_right_unique steps path with rest | rest
  · rw [normal.steps_eq rest]
  · exact rest

/-- A decoder reaches at most one configuration in which it waits. -/
theorem normal_unique {before first second : S × List β} (one : Steps step before first)
    (two : Steps step before second) (normal : Normal step first) (normal' : Normal step second) :
    first = second :=
  normal'.steps_eq (steps_to_normal one two normal)

namespace Coherent

variable {valid failed : S → Prop} (coherent : Coherent step valid failed)
include coherent

theorem not_failed {before after : S × List β} (steps : Steps step before after)
    (accepted : ¬failed after.1) : ¬failed before.1 := by
  rcases Relation.ReflTransGen.cases_head steps with same | ⟨_, ⟨_, _, taken, _⟩, _⟩
  · rwa [same]
  · intro failure
    rw [coherent.stuck _ failure] at taken
    cases taken

/-- Input that arrives later is decoded as if it had been there from the start. -/
theorem feed {before middle last : S × List β} (more : List β) (start : valid before.1)
    (steps : Steps step before middle) (accepted : ¬failed middle.1)
    (rest : Steps step (middle.1, middle.2 ++ more) last) (normal : Normal step last) :
    Steps step (before.1, before.2 ++ more) last := by
  induction steps using Relation.ReflTransGen.head_induction_on with
  | refl => exact rest
  | head next steps ih =>
    obtain ⟨state, used, taken, rfl⟩ := next
    have later := ih (coherent.keeps start taken)
    have bound := coherent.within start taken
    have sound := coherent.not_failed steps accepted
    rcases coherent.extend more start taken sound with same | ⟨all, joined⟩
    · refine .head ⟨state, used, same, ?_⟩ later
      simp only [List.drop_append_of_le_length bound]
    · simp only at all
      subst all
      simp only [List.drop_length, List.nil_append] at later
      unfold fused at joined
      cases taken' : step state more with
      | none =>
        rw [taken'] at joined
        refine .head ⟨_, _, joined, ?_⟩ later
        simp
      | some after =>
        rw [taken'] at joined
        refine .head ⟨_, _, joined, rfl⟩ ?_
        rw [List.drop_length_add_append]
        exact steps_after_next ⟨after.1, after.2, taken', rfl⟩ later normal

end Coherent

end Decoder
