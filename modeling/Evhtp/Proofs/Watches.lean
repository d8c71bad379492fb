import Evhtp.Lib.Runs
import Evhtp.Proofs.LineRules
import Evhtp.Proofs.Representation

/-! Calls on a parser, one after the other, under watch. A watch is told of every hook that is due with what it replied,
and of every other call; it makes no difference to the parser or to its hooks. -/

namespace Evhtp

inductive DirectCall where
  | pause
  | resume
  | setSkipBody
  | reset
  | init (type : HtpType)
  deriving DecidableEq, Repr

def DirectCall.apply (p : Htparser) : DirectCall → Htparser
  | .pause => { p with toParser := p.toParser.pause }
  | .resume => { p with toParser := p.toParser.resume }
  | .setSkipBody => { p with toParser := p.toParser.setSkipBody }
  | .reset => htparserReset p
  | .init type => htparserInit p type

/-- The calls on a parser. Those that may invoke hooks come with hooks of their own. -/
inductive ParserCall (σ : Type) where
  | run (H : Hooks σ) (data : Bytes)
  | runEof (H : Hooks σ)
  | direct (call : DirectCall)

/-- What a watch makes of a hook and its reply, if it is set, and of a call on a parser. -/
structure Watch (τ : Type) where
  hook : HookEvent → Option HookReply → τ → τ
  call : Parser → DirectCall → τ → τ

structure Watched (σ τ : Type) where
  p : Htparser
  user : σ
  seen : τ

section
variable {σ τ : Type}

def Hooks.watchedBy (H : Hooks σ) (w : Watch τ) : Hooks (σ × τ) where
  present _ := true
  call event p s :=
    if H.present event.name then
      let result := H.call event p s.1
      (result.1, (result.2, w.hook event (some result.1) s.2))
    else ({}, (s.1, w.hook event none s.2))

variable (w : Watch τ)

def Watched.step [Htstring] (s : Watched σ τ) : ParserCall σ → Option (Watched σ τ)
  | .run H data =>
    let result := htparserRun H s.p s.user data
    some ⟨result.1, result.2.1, (htparserRun (H.watchedBy w) s.p (s.user, s.seen) data).2.1.2⟩
  | .runEof H =>
    let result := htparserRunEof H s.p s.user
    some ⟨result.1, result.2, (htparserRunEof (H.watchedBy w) s.p (s.user, s.seen)).2.2⟩
  | .direct call => some ⟨call.apply s.p, s.user, w.call s.p.toParser call s.seen⟩

variable {w}

theorem hook_watched_cases (H : Hooks σ) (w : Watch τ) (name : HookName) (data : Bytes) (s : Scan (σ × τ)) :
    hook (H.watchedBy w) name data s = (true, ⟨s.p, (s.user.1, w.hook ⟨name, data⟩ none s.user.2)⟩) ∨
      ∃ reply user, H.present name = true ∧ H.call ⟨name, data⟩ s.p s.user.1 = (reply, user) ∧
        hook (H.watchedBy w) name data s =
          (reply.rc == 0, ⟨s.p.replied reply, (user, w.hook ⟨name, data⟩ (some reply) s.user.2)⟩) := by
  by_cases present : H.present name = true
  · refine .inr ⟨_, _, present, rfl, ?_⟩
    simp [hook, Hooks.watchedBy, present]
  · refine .inl ?_
    simp [hook, Hooks.watchedBy, present, Parser.replied]

/-- The watch makes no difference to what is watched. -/
theorem hook_watched (H : Hooks σ) (w : Watch τ) (name : HookName) (data : Bytes) (p : Parser) (record : σ × τ) :
    hook H name data ⟨p, record.1⟩ =
      ((hook (H.watchedBy w) name data ⟨p, record⟩).1,
        ⟨(hook (H.watchedBy w) name data ⟨p, record⟩).2.p, (hook (H.watchedBy w) name data ⟨p, record⟩).2.user.1⟩) := by
  by_cases present : H.present name = true
  · simp [hook, Hooks.watchedBy, present]
  · simp [hook, Hooks.watchedBy, present, Parser.replied]

theorem htparserRunEof_watched (H : Hooks σ) (w : Watch τ) (p : Htparser) (record : σ × τ) :
    htparserRunEof H p record.1 =
      ((htparserRunEof (H.watchedBy w) p record).1, (htparserRunEof (H.watchedBy w) p record).2.1) := by
  unfold htparserRunEof
  split
  · rw [hook_watched H w _ _ _ record]
  · rfl

theorem Parser.replied_flags (p : Parser) (reply : HookReply) :
    (p.replied reply).flags.paused = (p.flags.paused || reply.pause) ∧
      (p.replied reply).flags.skipBody = (p.flags.skipBody || reply.skipBody) := by
  unfold Parser.replied
  dsimp only
  split <;> exact ⟨rfl, rfl⟩

variable [Htstring]

theorem htparserRun_watched (H : Hooks σ) (w : Watch τ) (p : Htparser) (record : σ × τ) (data : Bytes) :
    htparserRun H p record.1 data =
      ((htparserRun (H.watchedBy w) p record data).1, (htparserRun (H.watchedBy w) p record data).2.1.1,
        (htparserRun (H.watchedBy w) p record data).2.2) := by
  have rules : HookRules H (H.watchedBy w) fun _ user record => record.1 = user := .of_record (hook_watched H w)
  obtain ⟨used, parser, held⟩ := rules.runLoop (runFuel data) data (p := p.toParser) (t := record) rfl
  unfold htparserRun
  dsimp only
  rw [used, parser, held]

theorem DirectCall.reachable {p : Htparser} (reached : p.Reachable) (call : DirectCall) : (call.apply p).Reachable := by
  cases call with
  | pause => exact .pause reached
  | resume => exact .resume reached
  | setSkipBody => exact .setSkipBody reached
  | reset => exact .reset reached
  | init type => exact .init p type

/-- What every turn of an allowed run, every allowed end of the input and every other allowed call keep. -/
structure WatchRules (w : Watch τ) (allowed : Watched σ τ → ParserCall σ → Prop) (I : Parser → τ → Prop) : Prop where
  turn : ∀ {s : Watched σ τ} {H data}, allowed s (.run H data) → ∀ {scan : Scan (σ × τ)} {rest after}, scan.p.Consistent →
    I scan.p scan.user.2 → scan.p.flags.paused = false → turn (H.watchedBy w) scan rest = some after →
    I after.1.p after.1.user.2
  eof : ∀ {s : Watched σ τ} {H}, allowed s (.runEof H) → I s.p.toParser s.seen → s.p.state = .body → s.p.body = .identity →
    let result := (hook (H.watchedBy w) .onMsgComplete [] ⟨{ s.p.toParser with state := .start }, (s.user, s.seen)⟩).2
    I result.p result.user.2
  direct : ∀ {s : Watched σ τ} {call}, allowed s (.direct call) → I s.p.toParser s.seen →
    I (call.apply s.p).toParser (w.call s.p.toParser call s.seen)

variable {allowed : Watched σ τ → ParserCall σ → Prop} {I : Parser → τ → Prop}

theorem WatchRules.step (rules : WatchRules w allowed I) {s after : Watched σ τ} {call : ParserCall σ}
    (held : s.p.Reachable ∧ I s.p.toParser s.seen) (permitted : allowed s call) (taken : s.step w call = some after) :
    after.p.Reachable ∧ I after.p.toParser after.seen := by
  obtain ⟨reached, held⟩ := held
  cases call with
  | run H data =>
    cases taken
    refine ⟨.run _ _ _ reached, ?_⟩
    rw [htparserRun_watched H w s.p (s.user, s.seen)]
    have kept := run_keeps (H.watchedBy w) (I := fun scan => scan.p.Consistent ∧ I scan.p scan.user.2)
      (fun held running taken => ⟨turn_consistent held.1 running taken, rules.turn permitted held.1 held.2 running taken⟩)
      (s := ⟨s.p.toParser, (s.user, s.seen)⟩) reached.consistent.toSane data ⟨reached.consistent, held⟩
    exact kept.2
  | runEof H =>
    cases taken
    refine ⟨.runEof _ _ reached, ?_⟩
    rw [htparserRunEof_watched H w s.p (s.user, s.seen)]
    unfold htparserRunEof
    split
    · next ends => exact rules.eof permitted held ends.1 ends.2
    · exact held
  | direct call =>
    cases taken
    exact ⟨call.reachable reached, rules.direct permitted held⟩

theorem WatchRules.reaches (rules : WatchRules w allowed I) {start s : Watched σ τ} (reached : start.p.Reachable)
    (initially : I start.p.toParser start.seen) (calls : Runs.Reaches (Watched.step w) allowed start s) :
    s.p.Reachable ∧ I s.p.toParser s.seen := by
  induction calls with
  | start => exact ⟨reached, initially⟩
  | step _ permitted taken ih => exact rules.step ih permitted taken

end

end Evhtp
