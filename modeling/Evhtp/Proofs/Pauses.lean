import Evhtp.Proofs.Masking

/-! Pausing the parser makes no difference to what it does. A driver that resumes it after each paused run
and goes on with the bytes that are left sees the events, the parser and the bytes of runs that are never
paused. -/

namespace Evhtp

/-- Hooks that return 0. What else they do to the parser may depend on the events so far and on all of the
parser except on whether it is paused. -/
structure Listener where
  present : HookName → Bool
  react : List HookEvent → HookEvent → Parser → HookReply
  accepts : ∀ history event p, (react history event p).rc = 0

/-- The hooks of a listener that pause the parser at the invocations `pauses` says. -/
def Listener.hooks (l : Listener) (pauses : List HookEvent → HookEvent → Bool) : Hooks (List HookEvent) where
  present := l.present
  call event p events := ({ l.react events event p.resume with pause := pauses events event }, events ++ [event])

def never (_ : List HookEvent) (_ : HookEvent) : Bool := false

theorem Listener.blind (l : Listener) (pauses : List HookEvent → HookEvent → Bool) : (l.hooks pauses).Blind id :=
  fun _ _ _ => rfl

def Fed.view {σ : Type} (fed : Fed σ) : Scan σ × Bytes := (fed.scan, fed.left)

section
variable [Htstring] {σ : Type} {H : Hooks σ}

/-- Run the parser, and as long as the run ends paused, resume it and run it on the bytes that are left. -/
def Fed.whilePaused (H : Hooks σ) : Nat → Fed σ → Fed σ
  | 0, fed => fed
  | count + 1, fed =>
    if (htparserRun H fed.p fed.user fed.left).1.flags.paused then whilePaused H count (fed.call H) else fed.call H

theorem Fed.call_view {first second : Fed σ} (same : first.view = second.view) :
    (first.call H).view = (second.call H).view := by
  obtain ⟨scan, left⟩ := Prod.mk.inj same
  have run : runLoop H (runFuel first.left) first.left first.scan = runLoop H (runFuel second.left) second.left second.scan := by
    rw [scan, left]
  change ((runLoop H (runFuel first.left) first.left first.scan).1.resume,
    first.left.drop (runLoop H (runFuel first.left) first.left first.scan).2) = _
  rw [run, left]
  rfl

theorem Fed.calls_view (count : Nat) {first second : Fed σ} (same : first.view = second.view) :
    (first.calls H count).view = (second.calls H count).view := by
  induction count generalizing first second with
  | zero => exact same
  | succ count ih => exact ih (call_view same)

variable (blind : H.Blind id)
include blind

theorem unpaused_turn {s : Scan σ} (data : Bytes) (running : s.p.flags.paused = false) :
    turn H.unpaused s data = (turn H s data).map fun after => (after.1.resume, after.2) := by
  have same := turn_mask blind s data rfl fun _ => rfl
  rwa [show s.mask id = s.resume from rfl, Scan.resume_of_running running] at same

/-- With a parser that is resumed after each turn, the hooks that pause it make the turns of those that do not. -/
theorem resumedTurn_unpaused {s : Scan σ} (data : Bytes) (running : s.p.flags.paused = false) :
    resumedTurn H.unpaused s data = resumedTurn H s data := by
  unfold resumedTurn
  rw [unpaused_turn blind data running, Option.map_map]
  rfl

theorem resumedTurn_steps {before after : Scan σ × Bytes} (running : before.1.p.flags.paused = false)
    (steps : Decoder.Steps (resumedTurn H) before after) :
    Decoder.Steps (resumedTurn H.unpaused) before after ∧ after.1.p.flags.paused = false := by
  induction steps with
  | refl => exact ⟨.refl, running⟩
  | tail _ next ih =>
    obtain ⟨state, used, taken, rfl⟩ := next
    have taken' := (resumedTurn_unpaused blind _ ih.2).trans taken
    refine ⟨ih.1.tail ⟨state, used, taken', rfl⟩, ?_⟩
    obtain ⟨result, _, same⟩ := Option.map_eq_some_iff.mp taken
    rw [← congrArg Prod.fst same]
    rfl

/-- Enough calls come to the same end with the pauses and without them. -/
theorem calls_unpaused (fed : Fed σ) (sane : fed.p.Sane) (running : fed.p.flags.paused = false) {count count' : Nat}
    (enough : potential fed.view < count) (enough' : potential fed.view < count') :
    (fed.calls H count).view = (fed.calls H.unpaused count').view := by
  obtain ⟨steps, waits⟩ := calls_steps H fed sane running count
  obtain ⟨steps', running'⟩ := resumedTurn_steps blind running steps
  have stuck := (resumedTurn_unpaused blind _ running').trans (waits enough)
  exact (calls_outcome H.unpaused fed sane running enough' steps' stuck).symm

end

/-- Where a run of hooks that never pause ends: the turns of one message, and its completion. -/
def Halts [Htstring] {σ : Type} (H : Hooks σ) (before after : Scan σ × Bytes) : Prop :=
  ∃ last, Relation.ReflTransGen (Within H) before (last, after.2) ∧ last.p.flags.paused = false ∧
    Ended H last after.2 after.1

section
variable [Htstring] {σ : Type} {H : Hooks σ}

theorem within_right_unique : Relator.RightUnique (Within H) := fun _ _ _ first second =>
  Decoder.next_right_unique first.2.2 second.2.2

theorem Ended.last {last after : Scan σ} {rest : Bytes} {next : Scan σ × Bytes} (ended : Ended H last rest after)
    (running : last.p.flags.paused = false) (within : Within H (last, rest) next) : False := by
  obtain ⟨_, notDone, state, used, taken, _⟩ := within
  cases ended with
  | completed done _ => exact notDone done
  | failed failed => simp [turn, failed] at taken
  | paused paused => exact absurd (running.symm.trans paused) (by simp)
  | waiting none => exact absurd (none.symm.trans taken) (by simp)

theorem Ended.unique {last first second : Scan σ} {rest : Bytes} (running : last.p.flags.paused = false)
    (one : Ended H last rest first) (two : Ended H last rest second) : first = second := by
  have same : ∀ {after}, Ended H last rest after → last.p.state ≠ .complete → after = last := by
    intro after ended other
    cases ended with
    | completed done _ => exact absurd done other
    | failed _ | paused _ | waiting _ => rfl
  have finished : ∀ {after}, Ended H last rest after → last.p.state = .complete → after = finishMessage H last := by
    intro after ended done
    cases ended with
    | completed _ _ => rfl
    | failed failed => exact absurd (done.symm.trans failed) (by simp)
    | paused paused => exact absurd (running.symm.trans paused) (by simp)
    | waiting none => simp [turn, done] at none
  by_cases done : last.p.state = .complete
  · rw [finished one done, finished two done]
  · rw [same one done, same two done]

theorem Halts.unique {before first second : Scan σ × Bytes} (one : Halts H before first) (two : Halts H before second) :
    first = second := by
  obtain ⟨last, path, running, ended⟩ := one
  obtain ⟨last', path', running', ended'⟩ := two
  have same : (last, first.2) = (last', second.2) := by
    rcases Relation.ReflTransGen.total_of_right_unique within_right_unique path path' with rest | rest
    · rcases Relation.ReflTransGen.cases_head rest with same | ⟨_, within, _⟩
      · exact same
      · exact (ended.last running within).elim
    · rcases Relation.ReflTransGen.cases_head rest with same | ⟨_, within, _⟩
      · exact same.symm
      · exact (ended'.last running' within).elim
  obtain ⟨rfl, rest⟩ := Prod.mk.inj same
  rw [← rest] at ended'
  exact Prod.ext (ended.unique running ended') rest

theorem run_ended (fed : Fed σ) (sane : fed.p.Sane) :
    ∃ last after used, Relation.ReflTransGen (Within H) fed.view (last, fed.left.drop used) ∧
      Ended H last (fed.left.drop used) after ∧ (fed.call H).view = (after.resume, fed.left.drop used) ∧
      (htparserRun H fed.p fed.user fed.left).1.toParser = after.p := by
  have enough : fed.left.length + fed.scan.p.state.rank < runFuel fed.left := by
    cases fed.scan.p.state <;> simp [ParserState.rank, runFuel]
  obtain ⟨_, last, path, ended⟩ := runLoop_spec (s := fed.scan) H sane enough
  exact ⟨last, _, _, path, ended, rfl, rfl⟩

variable (blind : H.Blind id)
include blind

theorem unpaused_within {s after : Scan σ} {data rest : Bytes} (within : Within H (s, data) (after, rest)) :
    Within H.unpaused (s, data) (after.resume, rest) := by
  obtain ⟨running, notDone, state, used, taken, same⟩ := within
  cases same
  refine ⟨running, notDone, after.resume, used, ?_, rfl⟩
  rw [unpaused_turn blind data running, taken]
  rfl

theorem unpaused_path {before after : Scan σ × Bytes} (running : before.1.p.flags.paused = false)
    (path : Relation.ReflTransGen (Within H) before after) :
    Relation.ReflTransGen (Within H.unpaused) before (after.1.resume, after.2) := by
  induction path with
  | refl => rw [Scan.resume_of_running running]
  | tail _ within ih =>
    rw [Scan.resume_of_running within.1] at ih
    exact ih.tail (unpaused_within blind within)

omit [Htstring] in
theorem unpaused_finish {last : Scan σ} (running : last.p.flags.paused = false) :
    finishMessage H.unpaused last = (finishMessage H last).resume := by
  have same := finishMessage_mask blind last
  rwa [show last.mask id = last.resume from rfl, Scan.resume_of_running running] at same

theorem unpaused_ended {last after : Scan σ} {rest : Bytes} (ended : Ended H last rest after)
    (stops : after.p.flags.paused = false ∨ last.p.state = .complete ∧ last.p.flags.paused = false) :
    Ended H.unpaused last.resume rest after.resume ∧ last.p.flags.paused = false := by
  cases ended with
  | completed done running =>
    refine ⟨?_, running⟩
    rw [← unpaused_finish blind running, Scan.resume_of_running running]
    exact .completed done running
  | failed failed =>
    have running := stops.resolve_right fun done => absurd (done.1.symm.trans failed) (by simp)
    exact ⟨.failed failed, running⟩
  | paused paused =>
    rcases stops with running | ⟨_, running⟩ <;> exact absurd (running.symm.trans paused) (by simp)
  | waiting none =>
    have running : last.p.flags.paused = false := stops.elim id And.right
    refine ⟨.waiting ?_, running⟩
    rw [Scan.resume_of_running running, unpaused_turn blind rest running, none]
    rfl

/-- The call without pauses ends where a call that is not paused ends, or one that has completed its message. -/
theorem call_halts {fed : Fed σ} (running : fed.p.flags.paused = false) {last after : Scan σ} {rest : Bytes}
    (path : Relation.ReflTransGen (Within H) fed.view (last, rest)) (ended : Ended H last rest after)
    (stops : after.p.flags.paused = false ∨ last.p.state = .complete ∧ last.p.flags.paused = false) :
    Halts H.unpaused fed.view (after.resume, rest) := by
  obtain ⟨ended', _⟩ := unpaused_ended blind ended stops
  exact ⟨last.resume, unpaused_path blind running path, rfl, ended'⟩

theorem unpaused_halts {fed : Fed σ} (sane : fed.p.Sane) (running : fed.p.flags.paused = false) :
    Halts H.unpaused fed.view (fed.call H.unpaused).view := by
  obtain ⟨last, after, used, path, ended, view, parser⟩ := run_ended (H := H.unpaused) fed sane
  have blind' : H.unpaused.Blind id := fun event p s => by simp only [Hooks.unpaused, blind event p s]
  have quiet : ∀ event p s, (H.unpaused.call event p s).1.pause = false := fun _ _ _ => rfl
  have running' : (runLoop H.unpaused (runFuel fed.left) fed.left fed.scan).1.p.flags.paused = false :=
    (HookInvariant.running quiet).runLoop _ _ running
  rw [view]
  refine call_halts blind' running path ended (.inl ?_)
  rw [← parser]
  exact running'

/-- A run and a run of the same hooks without pauses end alike, or the first was paused on the way or while it
reported the message. -/
theorem run_unpaused {fed : Fed σ} (sane : fed.p.Sane) (running : fed.p.flags.paused = false) :
    ((htparserRun H fed.p fed.user fed.left).1.flags.paused = false →
        (fed.call H).view = (fed.call H.unpaused).view) ∧
      ((htparserRun H fed.p fed.user fed.left).1.flags.paused = true →
        Relation.ReflTransGen (Within H.unpaused) fed.view (fed.call H).view ∨
          (fed.call H).view = (fed.call H.unpaused).view ∧ ∃ p s, (H.call ⟨.onMsgComplete, []⟩ p s).1.pause = true) := by
  obtain ⟨last, after, used, path, ended, view, parser⟩ := run_ended (H := H) fed sane
  have stops : after.p.flags.paused = false ∨ last.p.state = .complete ∧ last.p.flags.paused = false →
      (fed.call H).view = (fed.call H.unpaused).view := fun stops => by
    rw [view]
    exact (call_halts blind running path ended stops).unique (unpaused_halts blind sane running)
  rw [show (htparserRun H fed.p fed.user fed.left).1.flags = after.p.flags from congrArg Parser.flags parser]
  refine ⟨fun unpaused => stops (.inl unpaused), fun paused => ?_⟩
  have path' := unpaused_path blind running path
  cases ended with
  | completed done calm =>
    refine .inr ⟨stops (.inr ⟨done, calm⟩), ?_⟩
    by_contra quiet
    push Not at quiet
    have kept : (finishMessage H last).p.flags.paused = false := by
      unfold finishMessage hook
      split
      · have := quiet last.p.finish last.user
        by_cases accepted : (H.call ⟨.onMsgComplete, []⟩ last.p.finish last.user).1.rc = 0 <;>
          simp_all [Parser.replied, Parser.fail, Parser.finish]
      · exact calm
    exact absurd (kept.symm.trans paused) (by simp)
  | failed _ | paused _ | waiting _ =>
    rw [view]
    exact .inl path'

omit blind in
theorem run_progress {fed : Fed σ} (sane : fed.p.Sane) (running : fed.p.flags.paused = false)
    (paused : (htparserRun H fed.p fed.user fed.left).1.flags.paused = true) :
    potential (fed.call H).view < potential fed.view := by
  obtain ⟨_, _, progress⟩ := call_steps H sane running
  refine progress.resolve_left fun normal => ?_
  have stuck : turn H fed.scan fed.left = none := Option.map_eq_none_iff.mp normal
  obtain ⟨last, after, used, path, ended, _, parser⟩ := run_ended (H := H) fed sane
  have here : last = fed.scan := by
    rcases Relation.ReflTransGen.cases_head path with same | ⟨_, ⟨_, _, _, _, taken, _⟩, _⟩
    · exact (congrArg Prod.fst same).symm
    · exact absurd (stuck.symm.trans taken) (by simp)
  have calm : after.p.flags.paused = false := by
    cases ended with
    | completed done _ => simp [turn, here ▸ done] at stuck
    | failed _ | paused _ | waiting _ => exact here ▸ running
  rw [← parser] at calm
  exact absurd (calm.symm.trans paused) (by simp)

theorem whilePaused_runs (count : Nat) (fed : Fed σ) (sane : fed.p.Sane) (running : fed.p.flags.paused = false)
    (enough : potential fed.view < count) :
    ∃ runs, 0 < runs ∧ (fed.whilePaused H count).view = (fed.calls H.unpaused runs).view ∧
      ((∀ p s, (H.call ⟨.onMsgComplete, []⟩ p s).1.pause = false) → runs = 1) := by
  induction count generalizing fed with
  | zero => omega
  | succ count ih =>
    obtain ⟨ends, pauses⟩ := run_unpaused blind sane running
    rw [Fed.whilePaused]
    split
    · next paused =>
      obtain ⟨sane', _, _⟩ := call_steps H sane running
      have less : potential (fed.call H).view < count := by
        have := run_progress sane running paused
        omega
      obtain ⟨runs, positive, same, single⟩ := ih (fed.call H) sane' rfl less
      rcases pauses paused with path | ⟨complete, p, s, reported⟩
      · refine ⟨runs, positive, same.trans ?_, single⟩
        obtain ⟨runs, rfl⟩ : ∃ rest, runs = rest + 1 := ⟨runs - 1, by omega⟩
        refine Fed.calls_view runs ?_
        obtain ⟨last, rest, calm, ended⟩ := unpaused_halts blind sane' rfl
        exact Halts.unique ⟨last, path.trans rest, calm, ended⟩ (unpaused_halts blind sane running)
      · refine ⟨runs + 1, by omega, same.trans (Fed.calls_view runs complete), fun quiet => ?_⟩
        exact absurd ((quiet p s).symm.trans reported) (by simp)
    · next unpaused => exact ⟨1, by omega, ends (by simpa using unpaused), fun _ => rfl⟩

end

/-- Pausing is transparent. Driven over the whole input, runs that are paused and resumed fire the events of runs that
are never paused and leave their parser and their bytes. A driver that stops at the first run that is not paused has
done what some number of runs without pauses do, and just one unless the report of a complete message was paused. -/
theorem pausing_transparent [Htstring] (l : Listener) (pauses : List HookEvent → HookEvent → Bool) (config : Http1config)
    (type : HtpType) (input : Bytes) {count count' : Nat} (enough : 3 * input.length + 2 < count)
    (enough' : 3 * input.length + 2 < count') :
    let start : Fed (List HookEvent) := ⟨htparserInit (htparserNew config) type, [], input⟩
    (start.calls (l.hooks pauses) count).view = (start.calls (l.hooks never) count').view ∧
      ∃ runs, 0 < runs ∧ (start.whilePaused (l.hooks pauses) count).view = (start.calls (l.hooks never) runs).view ∧
        ((∀ history, pauses history ⟨.onMsgComplete, []⟩ = false) → runs = 1) := by
  intro start
  have sane : start.p.Sane := (htparserInit_between _ _).sane
  have bound : potential start.view = 3 * input.length + 2 := rfl
  refine ⟨calls_unpaused (l.blind pauses) start sane rfl (by omega) (by omega), ?_⟩
  obtain ⟨runs, positive, same, single⟩ := whilePaused_runs (l.blind pauses) count start sane rfl (by omega)
  exact ⟨runs, positive, same, fun quiet => single fun _ history => quiet history⟩

theorem HookReply.rc_default : ({} : HookReply).rc = 0 := rfl

def plainListener : Listener where
  present _ := true
  react _ _ _ := {}
  accepts _ _ _ := HookReply.rc_default

theorem pausing_transparent_post :
    let _ := Plain.htstring
    let input := ascii "POST / HTTP/1.1\r\nContent-Length: 3\r\n\r\nabcGET / HTTP/1.1\r\n\r\n"
    let start : Fed (List HookEvent) := ⟨htparserInit (htparserNew defaultConfig) .request, [], input⟩
    3 * input.length + 2 < 200 ∧
      (start.calls (plainListener.hooks fun _ _ => true) 200).view = (start.calls (plainListener.hooks never) 200).view ∧
      ∃ runs, 0 < runs ∧
        (start.whilePaused (plainListener.hooks fun _ _ => true) 200).view =
          (start.calls (plainListener.hooks never) runs).view ∧
        ((∀ history, (fun _ _ => true : List HookEvent → HookEvent → Bool) history ⟨.onMsgComplete, []⟩ = false) →
          runs = 1) := by
  intro _ input start
  have enough : 3 * input.length + 2 < 200 := by decide
  exact ⟨enough, pausing_transparent plainListener (fun _ _ => true) defaultConfig .request input enough enough⟩

end Evhtp
