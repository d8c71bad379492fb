import Mathlib.Data.List.Basic

/-! Systems that take one step at a time. A step is chosen from outside, by a scheduler or an environment, and
may be refused; what holds at the start and is kept by every step holds in every state that is reached. -/

namespace Runs

universe u v w
variable {σ : Type u} {ε : Type v}

/-- The states that steps lead to, each of them allowed where it is taken. -/
inductive Reaches (step : σ → ε → Option σ) (allowed : σ → ε → Prop) (start : σ) : σ → Prop
  | start : Reaches step allowed start start
  | step {state after : σ} {event : ε} : Reaches step allowed start state → allowed state event →
      step state event = some after → Reaches step allowed start after

variable {step : σ → ε → Option σ} {allowed : σ → ε → Prop} {start state : σ}

theorem Reaches.invariant {holds : σ → Prop} (reached : Reaches step allowed start state) (initially : holds start)
    (kept : ∀ {state after event}, holds state → allowed state event → step state event = some after → holds after) :
    holds state := by
  induction reached with
  | start => exact initially
  | step _ permitted taken ih => exact kept ih permitted taken

theorem Reaches.trans {after : σ} (first : Reaches step allowed start state) (second : Reaches step allowed state after) :
    Reaches step allowed start after := by
  induction second with
  | start => exact first
  | step _ permitted taken ih => exact .step ih permitted taken

/-- Where every step that is not the last one leaves less to do, there is a run to the goal. -/
theorem Reaches.exists_of_rank {ι : Type w} {holds : σ → ι → Prop} {goal : ι → Prop} (rank : ι → Nat)
    (progress : ∀ {state index}, holds state index → goal index ∨ ∃ event after next, allowed state event ∧
      step state event = some after ∧ holds after next ∧ rank next < rank index)
    {index : ι} (initially : holds state index) :
    ∃ after last, Reaches step allowed state after ∧ holds after last ∧ goal last := by
  induction left : rank index using Nat.strongRecOn generalizing state index with
  | ind n ih =>
    rcases progress initially with done | ⟨event, after, next, permitted, taken, holds, less⟩
    · exact ⟨state, index, .start, initially, done⟩
    · obtain ⟨last, final, reached, rest⟩ := ih (rank next) (left ▸ less) holds rfl
      exact ⟨last, final, (Reaches.step .start permitted taken).trans reached, rest⟩

/-- The goal comes, whichever of the allowed steps are taken: until then there is a step, and steps do not go on forever. -/
inductive Inevitable (step : σ → ε → Option σ) (allowed : σ → ε → Prop) (goal : σ → Prop) : σ → Prop
  | now {state : σ} : goal state → Inevitable step allowed goal state
  | later {state : σ} : (∃ event after, allowed state event ∧ step state event = some after) →
      (∀ {event after}, allowed state event → step state event = some after → Inevitable step allowed goal after) →
      Inevitable step allowed goal state

/-- Where every step leaves less to do and none is missing before the goal, the goal is inevitable. -/
theorem Inevitable.of_rank {holds goal : σ → Prop} (rank : σ → Nat)
    (moves : ∀ {state}, holds state → goal state ∨ ∃ event after, allowed state event ∧ step state event = some after)
    (lowers : ∀ {state event after}, holds state → allowed state event → step state event = some after →
      holds after ∧ rank after < rank state)
    (initially : holds state) : Inevitable step allowed goal state := by
  induction left : rank state using Nat.strongRecOn generalizing state with
  | ind n ih =>
    rcases moves initially with done | able
    · exact .now done
    · refine .later able fun permitted taken => ?_
      obtain ⟨kept, less⟩ := lowers initially permitted taken
      exact ih _ (left ▸ less) kept rfl

/-- Steps that are taken one after the other. -/
def run (step : σ → ε → Option σ) (allowed : σ → ε → Prop) [∀ state event, Decidable (allowed state event)]
    (state : σ) : List ε → Option σ
  | [] => some state
  | event :: rest => if allowed state event then (step state event).bind (run step allowed · rest) else none

theorem Reaches.run {permitted : σ → ε → Prop} [∀ state event, Decidable (permitted state event)] {events : List ε}
    {after : σ} (reached : Reaches step allowed start state)
    (implies : ∀ state event, permitted state event → allowed state event)
    (taken : Runs.run step permitted state events = some after) : Reaches step allowed start after := by
  induction events generalizing state with
  | nil =>
    cases taken
    exact reached
  | cons event rest ih =>
    unfold Runs.run at taken
    split at taken
    next within =>
      obtain ⟨middle, first, others⟩ := Option.bind_eq_some_iff.mp taken
      exact ih (.step reached (implies state event within) first) others
    next => cases taken

theorem Reaches.of_run [∀ state event, Decidable (allowed state event)] {events : List ε}
    (taken : Runs.run step allowed start events = some state) : Reaches step allowed start state :=
  .run .start (fun _ _ permitted => permitted) taken

end Runs
