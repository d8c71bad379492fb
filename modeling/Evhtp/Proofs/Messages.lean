import Evhtp.Proofs.Coherence
import Evhtp.Proofs.HookTrace
import Evhtp.Proofs.Pauses

/-! The messages of one connection are parsed independently: nothing of a message that was read to its end
is left in the parser when the first byte of the next one arrives. -/

namespace Evhtp

/-- Hooks that return 0 and neither pause the parser nor skip a body. What they do besides that depends on
the event and the parser they find. -/
structure Bystander where
  present : HookName → Bool
  react : HookEvent → Parser → HookReply
  accepts : ∀ event p, (react event p).rc = 0
  running : ∀ event p, (react event p).pause = false
  keeps : ∀ event p, (react event p).skipBody = false

def Bystander.hooks (b : Bystander) : Hooks (Unit × List Fired) :=
  Hooks.logged { present := b.present, call := fun event p _ => (b.react event p, ()) }

section
variable (b : Bystander)

theorem Bystander.quiet : ∀ event p s, (b.hooks.call event p s).1.pause = false := by
  intro event p s
  simp only [Bystander.hooks, Hooks.logged]
  split
  · exact b.running event p
  · rfl

theorem Bystander.rules (past : List Fired) : HookRules b.hooks b.hooks fun _ s t => s.2 = past ++ t.2 := by
  refine .of_calls fun name data p s t held => ?_
  have state := hook_state b.hooks name data ⟨p, s⟩
  by_cases present : b.present name = true
  · refine ⟨?_, ?_, ?_, state⟩ <;> simp [hook, Bystander.hooks, Hooks.logged, present, held]
  · refine ⟨?_, ?_, ?_, state⟩ <;> simp [hook, Bystander.hooks, Hooks.logged, present, held]

/-- No message has been reported complete since `past`, or the last one was and nothing followed it. -/
def Reported (past : List Fired) (stage : Stage) (p : Parser) (s : Unit × List Fired) : Prop :=
  p.state = .error ∨ stage = .done ∧ p.state = .start ∨
    ∃ fired, s.2 = past ++ fired ∧ ∀ f ∈ fired, f.name ≠ .onMsgComplete

theorem Bystander.reported (past : List Fired) : StagedInvariant b.hooks (Reported past) := by
  have called : ∀ {stage stage' p s} name data, name ≠ .onMsgComplete → Reported past stage p s → stage ≠ .done →
      Reported past stage' (hook b.hooks name data ⟨p, s⟩).2.p (hook b.hooks name data ⟨p, s⟩).2.user := by
    intro stage stage' p s name data other held inside
    obtain ⟨reply, user, same⟩ := hook_logged
      (H := { present := b.present, call := fun event p _ => (b.react event p, ()) }) name data ⟨p, s⟩
    rcases held with failed | ⟨done, _⟩ | ⟨fired, log, none⟩
    · left
      rw [hook_state]
      split
      · exact failed
      · rfl
    · exact absurd done inside
    · refine .inr (.inr ⟨fired ++ [⟨⟨name, data⟩, p, reply.rc⟩], ?_, ?_⟩)
      · rw [Bystander.hooks, same, ← List.append_assoc, ← log]
      · exact List.forall_mem_append.mpr ⟨none, List.forall_mem_singleton.mpr other⟩
  exact {
    silent := by
      intro stage p p' s held silent
      rcases held with failed | ⟨done, start⟩ | rest
      · exact .inl (silent.error_stays failed)
      · rcases silent.start_or_error start with same | failed
        · exact .inr (.inl ⟨done, same⟩)
        · exact .inl failed
      · exact .inr (.inr rest)
    failed := fun _ failed => .inl failed
    status := by
      intro p s _ _ held
      rcases held with failed | ⟨done, _⟩ | rest
      · exact .inl failed
      · cases done
      · exact .inr (.inr rest)
    begins := by
      intro p s here _ held
      have held : Reported past .idle p.begin s := by
        rcases held with failed | ⟨done, _⟩ | rest
        · exact absurd (here.symm.trans failed) (by simp)
        · cases done
        · exact .inr (.inr rest)
      exact called .onMsgBegin [] (by simp) held (by simp)
    host := fun value _ _ held => called .hostname value (by simp) (by exact held) (by simp)
    completes := by
      intro p s _ _ _
      have state := hook_state b.hooks .onMsgComplete [] ⟨p.finish, s⟩
      by_cases ok : (hook b.hooks .onMsgComplete [] ⟨p.finish, s⟩).1 = true
      · rw [if_pos ok] at state
        exact .inr (.inl ⟨rfl, state⟩)
      · rw [if_neg ok] at state
        exact .inl state
    calls := by
      intro p s name data fires held
      have other : name ≠ .onMsgComplete := by
        rintro rfl
        exact fires
      exact called name data other held (by cases name <;> simp [HookName.before]) }

end

/-- A path that is between messages in the end has only skipped empty lines. -/
theorem path_start [Htstring] {σ : Type} {H : Hooks σ} {before after : Scan σ × Bytes} (sane : before.1.p.Sane)
    (path : Relation.ReflTransGen (Within H) before after) (start : after.1.p.state = .start) :
    before.1.p.state = .start ∧ after.1.user = before.1.user := by
  induction path with
  | refl => exact ⟨start, rfl⟩
  | @tail middle last path within ih =>
    obtain ⟨paused, notDone, state, used, taken, rfl⟩ := within
    by_cases here : middle.1.p.state = .start
    · obtain ⟨begun, same⟩ := ih here
      refine ⟨begun, ?_⟩
      obtain ⟨scan, data⟩ := middle
      dsimp only at here taken start
      rcases turn_start here taken with ⟨byte, skipped⟩ | begins
      · cases skipped
        exact same
      · cases begins
        have place := hook_state H .onMsgBegin [] ⟨scan.p.begin, scan.user⟩
        rw [show (hook H .onMsgBegin [] ⟨scan.p.begin, scan.user⟩).2.p.state = .start from start] at place
        split at place <;> cases place
    · exact absurd start (turn_underway H ⟨path_sane H sane path, here⟩ notDone paused taken).begun

section
variable [Htstring] (b : Bystander) {σ : Type} {H : Hooks σ} {before after : Scan σ × Bytes}

theorem report_ends {type : HtpType} {fed : Fed (Unit × List Fired)} (traced : Traced type fed.scan) (clean : (fed.call b.hooks).p.error = .none) {fired : List Fired}
    (log : (fed.call b.hooks).user.2 = fed.user.2 ++ fired) (reported : ∃ f ∈ fired, f.name = .onMsgComplete) :
    (fed.call b.hooks).p.state = .start ∧ (fed.call b.hooks).p.emptyLines = 0 := by
  obtain ⟨last, after, used, path, ended, view, parser⟩ := run_ended (H := b.hooks) fed traced.sane
  have user : (fed.call b.hooks).user = after.user := congrArg (fun view => view.1.user) view
  have same : (fed.call b.hooks).p.toParser = after.p.resume := congrArg (fun view => view.1.p) view
  have traced' : Traced type after := by
    have reached := path_traced traced path
    cases ended with
    | completed done paused =>
      have taken : turn b.hooks last (fed.left.drop used) = some (finishMessage b.hooks last, 0) := by simp only [turn, done]
      exact turn_traced reached paused taken
    | failed _ | paused _ | waiting _ => exact reached
  have alive : after.p.state ≠ .error := by
    have none : after.p.error = .none := (congrArg Parser.error same).symm.trans clean
    exact traced'.error.mp none
  have start : after.p.state = .start := by
    have begun : Reported fed.user.2 fed.scan.p.state.stage fed.scan.p fed.scan.user := .inr (.inr ⟨[], by simp [Fed.scan], by simp⟩)
    have done := (b.reported fed.user.2).runLoop (runFuel fed.left) fed.left (s := fed.scan) begun
    have place : ∀ {stage}, Reported fed.user.2 stage (runLoop b.hooks (runFuel fed.left) fed.left fed.scan).1.p
        (runLoop b.hooks (runFuel fed.left) fed.left fed.scan).1.user → after.p.state = .start := by
      rintro stage (failed | ⟨_, start⟩ | ⟨fired', log', none⟩)
      · exact absurd ((congrArg Parser.state parser).symm.trans failed) alive
      · exact (congrArg Parser.state parser).symm.trans start
      · have equal : fired = fired' := List.append_cancel_left (log.symm.trans log')
        obtain ⟨f, member, name⟩ := reported
        exact absurd name (none f (equal ▸ member))
    exact done.elim place place
  refine ⟨(congrArg Parser.state same :).trans start, (congrArg Parser.emptyLines same :).trans ?_⟩
  change after.p.emptyLines = 0
  have stays : after = last → False := by
    rintro rfl
    obtain ⟨_, unchanged⟩ := path_start traced.sane path start
    rw [user, unchanged] at log
    have none : fired = [] := List.append_cancel_left (log.symm.trans (List.append_nil _).symm)
    obtain ⟨f, member, _⟩ := reported
    simp [none] at member
  cases ended with
  | completed done _ =>
    have kept := (Emits.hook (H := { present := b.present, call := fun event p _ => (b.react event p, ()) })
      .onMsgComplete [] ⟨last.p.finish, last.user⟩).settled.emptyLines
    exact kept.trans ((path_traced traced path).blank (by simp [done]) (by simp [done]))
  | failed _ | paused _ | waiting _ => exact (stays rfl).elim

/-- Hooks that never pause make the same turns whether the parser is resumed after them or not. -/
theorem resumedTurn_quiet (quiet : ∀ event p s, (H.call event p s).1.pause = false) {s : Scan σ}
    (data : Bytes) (running : s.p.flags.paused = false) : resumedTurn H s data = turn H s data := by
  unfold resumedTurn
  cases taken : turn H s data with
  | none => rfl
  | some after =>
    have running' := (HookInvariant.running quiet).turn running running taken
    rw [Option.map_some, Scan.resume_of_running running']

theorem quiet_steps (quiet : ∀ event p s, (H.call event p s).1.pause = false)
    (running : before.1.p.flags.paused = false) :
    Decoder.Steps (resumedTurn H) before after ↔ Decoder.Steps (turn H) before after := by
  constructor
  · intro steps
    suffices both : Decoder.Steps (turn H) before after ∧ after.1.p.flags.paused = false from both.1
    induction steps with
    | refl => exact ⟨.refl, running⟩
    | tail _ next ih =>
      obtain ⟨state, used, taken, rfl⟩ := next
      rw [resumedTurn_quiet quiet _ ih.2] at taken
      exact ⟨ih.1.tail ⟨state, used, taken, rfl⟩, (HookInvariant.running quiet).turn ih.2 ih.2 taken⟩
  · intro steps
    suffices both : Decoder.Steps (resumedTurn H) before after ∧ after.1.p.flags.paused = false from both.1
    induction steps with
    | refl => exact ⟨.refl, running⟩
    | tail _ next ih =>
      obtain ⟨state, used, taken, rfl⟩ := next
      refine ⟨ih.1.tail ⟨state, used, ?_, rfl⟩, (HookInvariant.running quiet).turn ih.2 ih.2 taken⟩
      rw [resumedTurn_quiet quiet _ ih.2, taken]

/-- Turns that end between messages with nothing left are made as well when more bytes follow. -/
theorem steps_append (more : Bytes) (sane : before.1.p.Sane)
    (quiet : ∀ event p s, (H.call event p s).1.pause = false) (running : before.1.p.flags.paused = false)
    (steps : Decoder.Steps (turn H) before after) (start : after.1.p.state = .start) (all : after.2 = []) :
    Decoder.Steps (turn H) (before.1, before.2 ++ more) (after.1, more) := by
  induction steps using Relation.ReflTransGen.head_induction_on with
  | refl =>
    rw [all]
    exact .refl
  | @head before middle next rest ih =>
    obtain ⟨state, used, taken, rfl⟩ := next
    have sane' := turn_sane H sane running taken
    have running' := (HookInvariant.running quiet).turn running running taken
    have within := (turn_used H sane taken).1
    have alive : state.p.state ≠ .error := by
      intro failed
      have stuck : Decoder.Normal (turn H) (state, before.2.drop used) := by simp only [Decoder.Normal, turn, failed]
      rw [stuck.steps_eq rest, failed] at start
      cases start
    have later := ih sane' running'
    rcases turn_append more sane taken alive with same | ⟨full, body⟩
    · refine .head ⟨state, used, same, ?_⟩ later
      simp only [List.drop_append_of_le_length within]
    · have stuck : Decoder.Normal (turn H) (state, before.2.drop used) := by
        dsimp only at full body
        simp only [Decoder.Normal, turn, body, full, List.drop_length, turnBody, if_true]
      rw [stuck.steps_eq rest] at start
      exact absurd (body.symm.trans start) (by simp)

/-- Two parsers that do the same from here on: they are equal, or between messages, or both have failed. -/
def Twins (p q : Parser) : Prop :=
  p = q ∨ p.error = q.error ∧ (p.state = .error ∧ q.state = .error ∨
    p.state = .start ∧ q.state = .start ∧ p.config = q.config ∧ p.type = q.type ∧ p.emptyLines = q.emptyLines)

omit [Htstring] in
theorem skipByte_twins {p q : Parser} (byte : UInt8) (error : p.error = q.error) (start : p.state = .start)
    (start' : q.state = .start) (config : p.config = q.config) (type : p.type = q.type)
    (emptyLines : p.emptyLines = q.emptyLines) : Twins (skipByte p byte).2 (skipByte q byte).2 := by
  unfold skipByte
  dsimp only
  rw [config, emptyLines]
  split
  · split
    · exact .inr ⟨rfl, .inl ⟨rfl, rfl⟩⟩
    · exact .inr ⟨error, .inr ⟨start, start', rfl, type, rfl⟩⟩
  · exact .inr ⟨error, .inr ⟨start, start', config, type, emptyLines⟩⟩

/-- The scans of two runs that differ in what was recorded before. -/
structure SameFrom (past : List Fired) (s t : Scan (Unit × List Fired)) : Prop where
  twins : Twins s.p t.p
  log : s.user.2 = past ++ t.user.2
  running : s.p.flags.paused = false ∧ t.p.flags.paused = false

theorem SameFrom.turn {past : List Fired} {s t : Scan (Unit × List Fired)} (same : SameFrom past s t) (data : Bytes) :
    (turn b.hooks t data = none → turn b.hooks s data = none) ∧
      ∀ after, turn b.hooks t data = some after →
        ∃ after', turn b.hooks s data = some after' ∧ after'.2 = after.2 ∧ SameFrom past after'.1 after.1 := by
  have kept : ∀ {s : Scan (Unit × List Fired)} {after}, s.p.flags.paused = false → Evhtp.turn b.hooks s data = some after →
      after.1.p.flags.paused = false := fun running taken =>
    (HookInvariant.running b.quiet).turn running running taken
  obtain ⟨p, s⟩ := s
  obtain ⟨q, t⟩ := t
  obtain ⟨twins, log, running, running'⟩ := same
  dsimp only at twins log running running'
  rcases twins with rfl | ⟨error, ⟨failed, failed'⟩ | ⟨start, start', config, type, emptyLines⟩⟩
  · refine ⟨fun none => ?_, fun after taken => ?_⟩
    · by_contra other
      obtain ⟨after, taken⟩ := Option.ne_none_iff_exists'.mp other
      obtain ⟨after', taken', _⟩ := (b.rules past).turn log running taken
      exact absurd (none.symm.trans taken') (by simp)
    · obtain ⟨after', taken', alike⟩ := (b.rules past).symm.turn log running taken
      exact ⟨after', taken', alike.used.symm, .inl alike.parser.symm, alike.held, kept running taken', kept running taken⟩
  · simp [Evhtp.turn, failed, failed']
  · cases data with
    | nil => simp [Evhtp.turn, start, start', turnStart]
    | cons byte rest =>
      simp only [Evhtp.turn, start, start', turnStart] at kept ⊢
      split
      · refine ⟨by simp, fun after taken => ⟨_, rfl, ?_⟩⟩
        cases taken
        have paused : ∀ r : Parser, (skipByte r byte).2.flags.paused = r.flags.paused := fun r =>
          (skipByte_checked r byte).silent.paused
        exact ⟨rfl, skipByte_twins byte error start start' config type emptyLines, log,
          (paused p).trans running, (paused q).trans running'⟩
      · refine ⟨by simp, fun after taken => ⟨_, rfl, ?_⟩⟩
        cases taken
        have begins : p.begin = q.begin := by
          simp only [Parser.begin, messageReset, config, type, running, running']
        have agree := (b.rules past).begins start' running' log
        have calm : ∀ user, (hook b.hooks .onMsgBegin [] ⟨q.begin, user⟩).2.p.flags.paused = false := fun user =>
          (HookInvariant.running b.quiet).begins (s := user) start' running' running'
        refine ⟨rfl, ?_, ?_, ?_⟩
        · rw [beginMessage, beginMessage, begins]
          exact .inl agree.parser
        · rw [beginMessage, beginMessage, begins]
          exact agree.held
        · rw [beginMessage, beginMessage, begins]
          exact ⟨calm s, calm t⟩

theorem SameFrom.steps {past : List Fired} {s t : Scan (Unit × List Fired)} {data : Bytes}
    {after : Scan (Unit × List Fired) × Bytes} (same : SameFrom past s t) (steps : Decoder.Steps (Evhtp.turn b.hooks) (t, data) after)
    (normal : Decoder.Normal (Evhtp.turn b.hooks) after) :
    ∃ last, Decoder.Steps (Evhtp.turn b.hooks) (s, data) (last, after.2) ∧
      Decoder.Normal (Evhtp.turn b.hooks) (last, after.2) ∧ SameFrom past last after.1 := by
  generalize before : (t, data) = config at steps
  induction steps using Relation.ReflTransGen.head_induction_on generalizing s t data with
  | refl =>
    subst before
    exact ⟨s, .refl, (same.turn b data).1 normal, same⟩
  | head next _ ih =>
    obtain ⟨state, used, taken, rfl⟩ := next
    subst before
    obtain ⟨after', taken', count, same'⟩ := (same.turn b data).2 _ taken
    obtain ⟨last, steps, stuck, reached⟩ := ih same' rfl
    refine ⟨last, .head ⟨after'.1, after'.2, taken', ?_⟩ steps, stuck, reached⟩
    rw [show after'.2 = used from count]

def freshFed (config : Http1config) (type : HtpType) (data : Bytes) : Fed (Unit × List Fired) :=
  ⟨htparserInit (htparserNew config) type, ((), []), data⟩

/-- A fresh parser consumes `m` completely and without an error, and reports a message complete at its last byte. -/
structure Completes (config : Http1config) (type : HtpType) (m : Bytes) (runs : Nat) : Prop where
  some : ((freshFed config type m).calls b.hooks runs).left ≠ []
  all : (((freshFed config type m).calls b.hooks runs).call b.hooks).left = []
  reported : ∃ fired, (((freshFed config type m).calls b.hooks runs).call b.hooks).user.2 =
    ((freshFed config type m).calls b.hooks runs).user.2 ++ fired ∧ ∃ f ∈ fired, f.name = .onMsgComplete
  clean : (((freshFed config type m).calls b.hooks runs).call b.hooks).p.error = .none

theorem Fed.calls_call (H : Hooks σ) (count : Nat) (fed : Fed σ) :
    (fed.calls H count).call H = fed.calls H (count + 1) := by
  induction count generalizing fed with
  | zero => rfl
  | succ count ih => exact ih (fed.call H)

theorem Fed.calls_running (H : Hooks σ) (count : Nat) {fed : Fed σ} (running : fed.p.flags.paused = false) :
    (fed.calls H count).p.flags.paused = false := by
  induction count generalizing fed with
  | zero => exact running
  | succ count ih => exact ih rfl

theorem calls_traced {type : HtpType} (count : Nat) {fed : Fed (σ × List Fired)}
    (traced : Traced type fed.scan) : Traced type (fed.calls H.logged count).scan := by
  induction count generalizing fed with
  | zero => exact traced
  | succ count ih =>
    have ran : Traced type (runLoop H.logged (runFuel fed.left) fed.left fed.scan).1 := run_traced traced
    exact ih (ran.silent ran.sane.resume rfl rfl rfl rfl fun _ => rfl)

/-- The events of `m ++ s` are those of `m` followed by those a fresh parser gives for `s`, and so are the error and
the bytes that are left. -/
theorem messages_independent (config : Http1config) (type : HtpType) {m : Bytes} {runs : Nat}
    (ends : Completes b config type m runs) (s : Bytes) {count : Nat} (enough : 3 * (m ++ s).length + 2 < count) :
    let whole := (freshFed config type (m ++ s)).calls b.hooks count
    let first := (freshFed config type m).calls b.hooks count
    let second := (freshFed config type s).calls b.hooks count
    whole.user.2 = first.user.2 ++ second.user.2 ∧ whole.p.error = second.p.error ∧ whole.left = second.left := by
  intro whole first second
  have sane : ∀ data, (freshFed config type data).p.Sane := fun _ => (htparserInit_between _ _).sane
  have bound : ∀ data, potential (freshFed config type data).view = 3 * data.length + 2 := fun _ => rfl
  rw [List.length_append] at enough
  have traced : ∀ count, Traced type ((freshFed config type m).calls b.hooks count).scan := fun count =>
    calls_traced count (init_traced _ _ _)
  obtain ⟨fired, log, reported⟩ := ends.reported
  obtain ⟨start, lines⟩ := report_ends b (traced runs) ends.clean log reported
  have clean := ends.clean
  have all := ends.all
  rw [Fed.calls_call] at clean start lines all
  have kind := (traced (runs + 1)).kind
  have running := Fed.calls_running b.hooks (runs + 1) (rfl : (freshFed config type m).p.flags.paused = false)
  have steps := (calls_steps b.hooks (freshFed config type m) (sane m) rfl (runs + 1)).1
  have same : ((freshFed config type m).calls b.hooks (runs + 1)).p.config = config :=
    (HookInvariant.config b.hooks config).resumed b.hooks (fun held => held) rfl rfl steps
  generalize (freshFed config type m).calls b.hooks (runs + 1) = ended at *
  have stuck : Decoder.Normal (resumedTurn b.hooks) (ended.scan, ended.left) := by
    rw [all]
    exact idle_normal b.hooks start
  have few : potential (freshFed config type m).view < count := by
    rw [bound]
    omega
  have once := calls_outcome b.hooks (freshFed config type m) (sane m) rfl few steps stuck
  rw [quiet_steps b.quiet rfl] at steps
  have further := steps_append s (sane m) b.quiet rfl steps start all
  have fresh : SameFrom ended.user.2 ended.scan (freshFed config type s).scan :=
    ⟨.inr ⟨clean, .inr ⟨start, rfl, same, kind, lines⟩⟩, (List.append_nil _).symm, running, rfl⟩
  obtain ⟨rest, waits⟩ := calls_steps b.hooks (freshFed config type s) (sane s) rfl count
  have few' : potential (freshFed config type s).view < count := by
    rw [bound]
    omega
  have waits := waits few'
  have calm := Fed.calls_running b.hooks count (rfl : (freshFed config type s).p.flags.paused = false)
  rw [quiet_steps b.quiet rfl] at rest
  rw [Decoder.Normal, resumedTurn_quiet b.quiet _ calm] at waits
  obtain ⟨last, path, normal, reached⟩ := fresh.steps b rest waits
  have enough' : potential (freshFed config type (m ++ s)).view < count := by
    rw [bound, List.length_append]
    omega
  have outcome := calls_outcome b.hooks (freshFed config type (m ++ s)) (sane _) rfl enough'
    ((quiet_steps b.quiet rfl).mpr (further.trans path))
    ((resumedTurn_quiet b.quiet _ reached.running.1).trans normal)
  have user : whole.user = last.user := congrArg (fun view => view.1.user) outcome
  have parser : whole.p.toParser = last.p := congrArg (fun view => view.1.p) outcome
  have user' : first.user = ended.user := congrArg (fun view => view.1.user) once
  refine ⟨?_, ?_, congrArg Prod.snd outcome⟩
  · rw [user, user']
    exact reached.log
  · refine (congrArg Parser.error parser :).trans ?_
    rcases reached.twins with equal | ⟨error, _⟩
    · exact congrArg Parser.error equal
    · exact error

end

def plainBystander : Bystander where
  present _ := true
  react _ _ := {}
  accepts _ _ := rfl
  running _ _ := rfl
  keeps _ _ := rfl

theorem messages_independent_pair :
    let _ := Plain.htstring
    let m := ascii "POST / HTTP/1.1\r\nContent-Length: 3\r\n\r\nabc"
    let s := ascii "GET / HTTP/1.1\r\n\r\n"
    Completes plainBystander defaultConfig .request m 0 ∧
      ((freshFed defaultConfig .request (m ++ s)).calls plainBystander.hooks 200).user.2 =
        ((freshFed defaultConfig .request m).calls plainBystander.hooks 200).user.2 ++
          ((freshFed defaultConfig .request s).calls plainBystander.hooks 200).user.2 ∧
      ((freshFed defaultConfig .request (m ++ s)).calls plainBystander.hooks 200).p.error =
        ((freshFed defaultConfig .request s).calls plainBystander.hooks 200).p.error ∧
      ((freshFed defaultConfig .request (m ++ s)).calls plainBystander.hooks 200).left =
        ((freshFed defaultConfig .request s).calls plainBystander.hooks 200).left := by
  intro _ m s
  have ends : Completes plainBystander defaultConfig .request m 0 := by
    refine ⟨by decide, by decide +kernel, ⟨_, (List.nil_append _).symm, ?_⟩, by decide +kernel⟩
    decide +kernel
  exact ⟨ends, messages_independent plainBystander defaultConfig .request ends s (by decide)⟩

end Evhtp
