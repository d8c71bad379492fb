import Mathlib.Data.List.Basic

/-! A computation that can stop for several reasons follows one that either has a result or has none: it stops for the one
reason that stands for no result, and for no other. -/

namespace Follows

universe u v w
variable {ε : Type u} {α β : Type v} {α' β' : Type v} {ι : Type w}

/-- The outcomes belong together. -/
def Result (stop : ε) (related : α → β → Prop) (concrete : Except ε α) (abstract : Option β) : Prop :=
  match abstract with
  | none => concrete = .error stop
  | some b => ∃ a, concrete = .ok a ∧ related a b

variable {stop : ε} {related : α → β → Prop} {related' : α' → β' → Prop}

theorem Result.bind {concrete : Except ε α} {abstract : Option β} {next : α → Except ε α'} {next' : β → Option β'}
    (follows : Result stop related concrete abstract) (further : ∀ a b, related a b → Result stop related' (next a) (next' b)) :
    Result stop related' (concrete >>= next) (abstract.bind next') := by
  cases abstract with
  | none =>
    obtain rfl : concrete = .error stop := follows
    exact rfl
  | some b =>
    obtain ⟨a, rfl, holds⟩ := follows
    exact further a b holds

theorem Result.foldlM {step : α → ι → Except ε α} {step' : β → ι → Option β} (inputs : List ι)
    (turn : ∀ a b, related a b → ∀ i ∈ inputs, Result stop related (step a i) (step' b i)) {a : α} {b : β} (holds : related a b) :
    Result stop related (inputs.foldlM step a) (inputs.foldlM step' b) := by
  induction inputs generalizing a b with
  | nil => exact ⟨a, rfl, holds⟩
  | cons i inputs ih =>
    refine (turn a b holds i (List.mem_cons_self ..)).bind fun a b holds => ?_
    exact ih (fun a b holds i member => turn a b holds i (List.mem_cons_of_mem _ member)) holds

end Follows
