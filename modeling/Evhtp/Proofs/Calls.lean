import Evhtp.Proofs.Turns

/-! Calling the parser again and again on what is left of the input, resuming it whenever a hook has
paused it. However often the hooks pause, the calls make the same turns. -/

namespace Evhtp

structure Fed (σ : Type) where
  p : Htparser
  user : σ
  left : Bytes

def htparserResume (p : Htparser) : Htparser := { p with toParser := p.toParser.resume }

def Scan.resume {σ : Type} (s : Scan σ) : Scan σ := { s with p := s.p.resume }

def Fed.scan {σ : Type} (fed : Fed σ) : Scan σ := ⟨fed.p.toParser, fed.user⟩

theorem Parser.resume_of_running {p : Parser} (running : p.flags.paused = false) : p.resume = p := by
  cases p
  simp_all [Parser.resume, ← running]

theorem Scan.resume_of_running {σ : Type} {s : Scan σ} (running : s.p.flags.paused = false) : s.resume = s := by
  unfold Scan.resume
  rw [Parser.resume_of_running running]

theorem Parser.Sane.resume {p : Parser} (sane : p.Sane) : p.resume.Sane :=
  ⟨sane.framed, sane.pending, sane.chunk⟩

section
variable [Htstring] {σ : Type} (H : Hooks σ)

def Fed.call (fed : Fed σ) : Fed σ :=
  let result := htparserRun H fed.p fed.user fed.left
  ⟨htparserResume result.1, result.2.1, fed.left.drop result.2.2⟩

def Fed.calls : Nat → Fed σ → Fed σ
  | 0, fed => fed
  | count + 1, fed => Fed.calls count (fed.call H)

def resumedTurn (s : Scan σ) (data : Bytes) : Option (Scan σ × Nat) :=
  (turn H s data).map fun after => (after.1.resume, after.2)

/-- What a turn makes less of. A message takes at least a byte, which pays for beginning and for
reporting it. -/
def potential (config : Scan σ × Bytes) : Nat :=
  3 * config.2.length +
    match config.1.p.state with
    | .complete => 3
    | .start => 2
    | .headLine | .headers | .body | .trailers => 1
    | .error => 0

theorem resumedTurn_next {s after : Scan σ} {data rest : Bytes}
    (next : Decoder.Next (turn H) (s, data) (after, rest)) :
    Decoder.Next (resumedTurn H) (s, data) (after.resume, rest) := by
  obtain ⟨state, used, taken, same⟩ := next
  cases same
  exact ⟨_, used, by simp only [resumedTurn, taken, Option.map_some], rfl⟩

theorem potential_turn {s : Scan σ} {data : Bytes} {after : Scan σ × Nat} (sane : s.p.Sane)
    (taken : turn H s data = some after) : potential (after.1, data.drop after.2) < potential (s, data) := by
  obtain ⟨within, stuck⟩ := turn_used H sane taken
  have alive := turn_alive taken
  unfold potential
  dsimp only
  rw [List.length_drop]
  by_cases none : after.2 = 0
  · rcases stuck none with done | ⟨start, line⟩ | failed
    · have state : after.1.p.state = .start ∨ after.1.p.state = .error := by
        simp only [turn, done, Option.some.injEq] at taken
        rw [← taken]
        unfold finishMessage
        rw [hook_state]
        split <;> simp [Parser.finish]
      rcases state with state | state <;> simp [done, state, none]
    · simp [start, line, none]
    · cases state : s.p.state <;> simp_all
  · cases state : s.p.state <;> cases state' : after.1.p.state <;> simp_all <;> omega

/-- What every turn keeps, resuming included, holds at the end of any number of them. -/
theorem HookInvariant.resumed {I : Parser → σ → Prop} (invariant : HookInvariant H I)
    (resumes : ∀ {p s}, I p s → I p.resume s) {before after : Scan σ × Bytes}
    (running : before.1.p.flags.paused = false) (held : I before.1.p before.1.user)
    (steps : Decoder.Steps (resumedTurn H) before after) : I after.1.p after.1.user := by
  suffices both : after.1.p.flags.paused = false ∧ I after.1.p after.1.user from both.2
  induction steps with
  | refl => exact ⟨running, held⟩
  | tail _ next ih =>
    obtain ⟨state, used, taken, rfl⟩ := next
    rw [resumedTurn, Option.map_eq_some_iff] at taken
    obtain ⟨result, turned, same⟩ := taken
    cases same
    exact ⟨rfl, resumes (invariant.turn ih.2 ih.1 turned)⟩

theorem path_resumed {before after : Scan σ × Bytes} (running : before.1.p.flags.paused = false)
    (path : Relation.ReflTransGen (Within H) before after) :
    Decoder.Steps (resumedTurn H) before (after.1.resume, after.2) := by
  induction path with
  | refl =>
    rw [Scan.resume_of_running running]
  | tail _ within ih =>
    obtain ⟨running', _, next⟩ := within
    rw [Scan.resume_of_running running'] at ih
    exact ih.tail (resumedTurn_next H next)

theorem path_potential {before after : Scan σ × Bytes} (sane : before.1.p.Sane)
    (path : Relation.ReflTransGen (Within H) before after) : after = before ∨ potential after < potential before := by
  induction path with
  | refl => exact .inl rfl
  | tail path within ih =>
    obtain ⟨running, _, state, used, taken, rfl⟩ := within
    have less := potential_turn H (path_sane H sane path) taken
    rcases ih with same | before
    · rw [← same]
      exact .inr less
    · exact .inr (less.trans before)

/-- A call makes turns that are there to be made, and makes none only if the parser waits. -/
theorem call_steps {fed : Fed σ} (sane : fed.p.Sane) (running : fed.p.flags.paused = false) :
    (fed.call H).p.Sane ∧
      Decoder.Steps (resumedTurn H) (fed.scan, fed.left) ((fed.call H).scan, (fed.call H).left) ∧
      (Decoder.Normal (resumedTurn H) (fed.scan, fed.left) ∨
        potential ((fed.call H).scan, (fed.call H).left) < potential (fed.scan, fed.left)) := by
  obtain ⟨_, last, path, ended⟩ := run_spec (s := fed.scan) H sane fed.left
  have outcome : ((fed.call H).scan, (fed.call H).left) =
      ((runLoop H (runFuel fed.left) fed.left fed.scan).1.resume,
        fed.left.drop (runLoop H (runFuel fed.left) fed.left fed.scan).2) := rfl
  have parser : (fed.call H).p.toParser = (runLoop H (runFuel fed.left) fed.left fed.scan).1.p.resume := rfl
  rw [outcome, parser]
  generalize runLoop H (runFuel fed.left) fed.left fed.scan = result at *
  obtain ⟨after, used⟩ := result
  have sane' := path_sane H sane path
  have steps := path_resumed H running path
  have less := path_potential H sane path
  dsimp only at *
  have stops : Ended H last (fed.left.drop used) last → (last.p.state = .error ∨ last.p.flags.paused = true ∨
      turn H last (fed.left.drop used) = none) → last.p.resume.Sane ∧
      Decoder.Steps (resumedTurn H) (fed.scan, fed.left) (last.resume, fed.left.drop used) ∧
      (Decoder.Normal (resumedTurn H) (fed.scan, fed.left) ∨
        potential (last.resume, fed.left.drop used) < potential (fed.scan, fed.left)) := by
    intro _ reason
    refine ⟨sane'.resume, steps, ?_⟩
    rcases less with same | less
    · left
      obtain ⟨rfl, rest⟩ := Prod.mk.inj same
      have none : turn H fed.scan fed.left = none := by
        rcases reason with failed | paused | none
        · simp only [turn, failed]
        · exact absurd (running.symm.trans paused) (by simp)
        · rwa [rest] at none
      simp only [Decoder.Normal, resumedTurn, none, Option.map_none]
    · exact .inr less
  cases ended with
  | completed done paused =>
    have taken : turn H last (fed.left.drop used) = some (finishMessage H last, 0) := by simp only [turn, done]
    have finish : Decoder.Next (turn H) (last, fed.left.drop used) (finishMessage H last, fed.left.drop used) :=
      ⟨_, 0, taken, rfl⟩
    rw [Scan.resume_of_running paused] at steps
    refine ⟨(turn_sane H sane' paused taken).resume, steps.tail (resumedTurn_next H finish), .inr ?_⟩
    have last_less := potential_turn H sane' taken
    rcases less with same | less
    · rw [← same]
      exact last_less
    · exact last_less.trans less
  | failed failed => exact stops (.failed failed) (.inl failed)
  | paused paused => exact stops (.paused paused) (.inr (.inl paused))
  | waiting none => exact stops (.waiting none) (.inr (.inr none))

theorem calls_steps (fed : Fed σ) (sane : fed.p.Sane) (running : fed.p.flags.paused = false) (count : Nat) :
    Decoder.Steps (resumedTurn H) (fed.scan, fed.left)
        ((fed.calls H count).scan, (fed.calls H count).left) ∧
      (potential (fed.scan, fed.left) < count →
        Decoder.Normal (resumedTurn H) ((fed.calls H count).scan, (fed.calls H count).left)) := by
  induction count generalizing fed with
  | zero => exact ⟨.refl, fun enough => by omega⟩
  | succ count ih =>
    obtain ⟨sane', steps, progress⟩ := call_steps H sane running
    obtain ⟨more, waits⟩ := ih (fed.call H) sane' rfl
    refine ⟨steps.trans more, fun enough => ?_⟩
    rcases progress with normal | less
    · rw [Fed.calls, normal.steps_eq (steps.trans more)]
      exact normal
    · exact waits (by omega)

theorem failed_normal {s : Scan σ} {data : Bytes} (failed : s.p.state = .error) :
    Decoder.Normal (resumedTurn H) (s, data) := by
  simp only [Decoder.Normal, resumedTurn, turn, failed, Option.map_none]

theorem idle_normal {s : Scan σ} (idle : s.p.state = .start) : Decoder.Normal (resumedTurn H) (s, []) := by
  simp only [Decoder.Normal, resumedTurn, turn, idle, turnStart, Option.map_none]

theorem calls_outcome (fed : Fed σ) (sane : fed.p.Sane) (running : fed.p.flags.paused = false) {count : Nat}
    (enough : potential (fed.scan, fed.left) < count) {last : Scan σ × Bytes}
    (path : Decoder.Steps (resumedTurn H) (fed.scan, fed.left) last) (stuck : Decoder.Normal (resumedTurn H) last) :
    ((fed.calls H count).scan, (fed.calls H count).left) = last := by
  obtain ⟨steps, waits⟩ := calls_steps H fed sane running count
  exact Decoder.normal_unique steps path (waits enough) stuck

end

end Evhtp
