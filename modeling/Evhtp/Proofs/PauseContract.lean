import Evhtp.Proofs.Watches

/-! The contract of `htparser_pause`: after a hook has called it, no hook is invoked before `htparser_resume`. The parser
looks at the pause between two lines and between two pieces of a body; the hooks of one line are called one after the
other, and the end of the input does not look at it at all. -/

namespace Evhtp

/-- Whether a hook has called `htparser_pause`, with no `htparser_resume` since then, and whether a hook was ever
invoked in this time. -/
structure Rest where
  asleep : Bool := false
  disturbed : Bool := false
  deriving DecidableEq, Repr

def restWatch : Watch Rest where
  hook _ reply rest := ⟨rest.asleep || reply.any (·.pause), rest.disturbed || (rest.asleep && reply.isSome)⟩
  call _ call rest :=
    match call with
    | .resume => { rest with asleep := false }
    | _ => rest

/-- No hook that others may follow for the same line pauses the parser, unless it fails the message. -/
def Hooks.PausesLast {σ : Type} (H : Hooks σ) : Prop :=
  ∀ event p user, H.present event.name = true → event.name.hurried = true → (H.call event p user).1.pause = true →
    (H.call event p user).1.rc ≠ 0

/-- The calls that respect a pause: hooks that do, no end of input in a body that it would complete, and no fresh start. -/
def RespectsPause {σ : Type} (s : Watched σ Rest) : ParserCall σ → Prop
  | .run H _ => H.PausesLast
  | .runEof _ => s.p.flags.paused = true → ¬(s.p.state = .body ∧ s.p.body = .identity)
  | .direct .reset | .direct (.init _) => s.p.flags.paused = false
  | .direct _ => True

/-- No hook was disturbed, and a hook that paused the parser finds it paused. -/
structure Restful (p : Parser) (rest : Rest) : Prop where
  undisturbed : rest.disturbed = false
  asleep : rest.asleep = true → p.flags.paused = true

theorem Restful.of_paused {p p' : Parser} {rest : Rest} (held : Restful p rest) (same : p'.flags.paused = p.flags.paused) :
    Restful p' rest :=
  ⟨held.undisturbed, fun asleep => same.trans (held.asleep asleep)⟩

section
variable {σ : Type} {H : Hooks σ} {s : Scan (σ × Rest)}

structure Alert (s : Scan (σ × Rest)) : Prop where
  restful : Restful s.p s.user.2
  running : s.p.flags.paused = false

theorem Alert.of_paused {p : Parser} (held : Alert s) (same : p.flags.paused = s.p.flags.paused) : Alert { s with p } :=
  ⟨held.restful.of_paused same, same.trans held.running⟩

theorem Alert.hook (alert : Alert s) (name : HookName) (data : Bytes) :
    Restful (hook (H.watchedBy restWatch) name data s).2.p (hook (H.watchedBy restWatch) name data s).2.user.2 := by
  have awake : s.user.2.asleep = false := by
    by_contra asleep
    exact nomatch alert.running.symm.trans (alert.restful.asleep (by simpa using asleep))
  rcases hook_watched_cases H restWatch name data s with absent | ⟨reply, user, -, -, called⟩
  · rw [absent]
    refine ⟨?_, fun asleep => ?_⟩
    · simp [restWatch, alert.restful.undisturbed]
    · simp [restWatch, awake] at asleep
  · rw [called]
    refine ⟨?_, fun asleep => ?_⟩
    · simp [restWatch, alert.restful.undisturbed, awake]
    · have pauses : reply.pause = true := by simpa [restWatch, awake] using asleep
      rw [(Parser.replied_flags s.p reply).1, pauses, Bool.or_true]

theorem Alert.hurry (alert : Alert s) (last : H.PausesLast) {name : HookName} (hurried : name.hurried = true) (data : Bytes)
    (ok : (Evhtp.hook (H.watchedBy restWatch) name data s).1 = true) : Alert (Evhtp.hook (H.watchedBy restWatch) name data s).2 := by
  refine ⟨alert.hook name data, ?_⟩
  rcases hook_watched_cases H restWatch name data s with absent | ⟨reply, user, present, call, called⟩
  · rw [absent]
    exact alert.running
  · rw [called] at ok ⊢
    have unpaused : reply.pause = false := by
      by_contra pauses
      have failed := last ⟨name, data⟩ s.p s.user.1 present hurried
      rw [call] at failed
      exact failed (by simpa using pauses) (by simpa using ok)
    rw [(Parser.replied_flags s.p reply).1, alert.running, unpaused]
    rfl

theorem Hooks.PausesLast.lineRules (last : H.PausesLast) :
    LineRules (H.watchedBy restWatch) Alert fun s => Restful s.p s.user.2 where
  ends alert := alert.restful
  quiet alert same := alert.of_paused same.paused
  settled held same := held.of_paused same.paused
  hurries data hurried alert := ⟨alert.hook _ data, alert.hurry last hurried data⟩
  closes data _ alert := alert.hook _ data

theorem Alert.endHead (alert : Alert s) :
    Restful (endHead (H.watchedBy restWatch) s).p (endHead (H.watchedBy restWatch) s).user.2 := by
  have framed := (framing_sameFlags s.p).paused
  unfold Evhtp.endHead
  split
  · have there : Alert { s with p := (framing s.p).2.headDone } := alert.of_paused framed
    have hooked := there.hook (H := H) .onHdrsComplete []
    unfold skipIfAsked
    split
    · exact hooked.of_paused rfl
    · exact hooked
  · exact alert.restful.of_paused framed

theorem Alert.turn [Htstring] (alert : Alert s) (last : H.PausesLast) {data : Bytes} {after : Scan (σ × Rest) × Nat}
    (taken : turn (H.watchedBy restWatch) s data = some after) : Restful after.1.p after.1.user.2 := by
  have fresh : ∀ {p : Parser} name, p.flags.paused = s.p.flags.paused →
      Restful (Evhtp.hook (H.watchedBy restWatch) name [] { s with p }).2.p
        (Evhtp.hook (H.watchedBy restWatch) name [] { s with p }).2.user.2 :=
    fun name same => (alert.of_paused same).hook name []
  by_cases start : s.p.state = .start
  · rcases turn_start start taken with ⟨byte, rfl⟩ | rfl
    · exact alert.restful.of_paused (skipByte_sameFlags _ _).paused
    · exact fresh _ rfl
  · by_cases done : s.p.state = .complete
    · simp only [Evhtp.turn, done] at taken
      cases taken
      exact fresh _ rfl
    · rcases last.lineRules.turn alert start done taken with held | ⟨-, ended⟩
      · exact held
      · rw [ended]
        exact alert.endHead

end

theorem restful_rules [Htstring] (σ : Type) : WatchRules restWatch (RespectsPause (σ := σ)) Restful where
  turn last _ _ _ _ held running taken := Alert.turn ⟨held, running⟩ last taken
  eof := by
    intro s H respects held body identity
    have running : s.p.flags.paused = false := by
      by_contra paused
      exact respects (by simpa using paused) ⟨body, identity⟩
    have alert : Alert ⟨{ s.p.toParser with state := .start }, (s.user, s.seen)⟩ := ⟨held.of_paused rfl, running⟩
    exact alert.hook .onMsgComplete []
  direct := by
    intro s call respects held
    have awake : s.p.flags.paused = false → s.seen.asleep = true → False :=
      fun running asleep => nomatch running.symm.trans (held.asleep asleep)
    cases call with
    | pause => exact ⟨held.undisturbed, fun _ => rfl⟩
    | resume => exact ⟨held.undisturbed, nofun⟩
    | setSkipBody => exact ⟨held.undisturbed, held.asleep⟩
    | reset => exact ⟨held.undisturbed, fun asleep => (awake respects asleep).elim⟩
    | init type => exact ⟨held.undisturbed, fun asleep => (awake respects asleep).elim⟩

/-- In all calls that respect it, no hook is invoked between the hook that paused the parser and `htparser_resume`. -/
theorem pause_stops_hooks [Htstring] {σ : Type} {p : Htparser} (reached : p.Reachable) (user : σ) {s : Watched σ Rest}
    (calls : Runs.Reaches (Watched.step restWatch) RespectsPause ⟨p, user, {}⟩ s) : s.seen.disturbed = false :=
  ((restful_rules σ).reaches reached ⟨rfl, Bool.noConfusion⟩ calls).2.undisturbed

section
attribute [local instance] Plain.htstring

def pausingAt (name : HookName) : Hooks Unit where
  present _ := true
  call event _ _ := ({ pause := event.name == name }, ())

def restingParser (type : HtpType) : Watched Unit Rest := ⟨htparserInit (htparserNew defaultConfig) type, (), {}⟩

/-- A request is paused at the end of its head, and left alone by another run. -/
theorem pause_stops_hooks_head :
    ∃ first second, (restingParser .request).step restWatch
        (.run (pausingAt .onHdrsComplete) (ascii "GET / HTTP/1.1\r\n\r\n")) = some first ∧
      first.step restWatch (.run (pausingAt .onHdrsComplete) []) = some second ∧ second.seen.asleep = true ∧
      second.seen.disturbed = false := by
  have last : (pausingAt .onHdrsComplete).PausesLast := by
    intro event _ _ _ hurried pauses
    have name : event.name = .onHdrsComplete := by simpa [pausingAt] using pauses
    rw [name] at hurried
    cases hurried
  obtain ⟨first, run⟩ : ∃ first, (restingParser .request).step restWatch
      (.run (pausingAt .onHdrsComplete) (ascii "GET / HTTP/1.1\r\n\r\n")) = some first := ⟨_, rfl⟩
  obtain ⟨second, again⟩ : ∃ second, first.step restWatch (.run (pausingAt .onHdrsComplete) []) = some second := ⟨_, rfl⟩
  have once : Runs.Reaches (Watched.step restWatch) RespectsPause (restingParser .request) first :=
    .step .start (by exact last) run
  have calls : Runs.Reaches (Watched.step restWatch) RespectsPause (restingParser .request) second :=
    .step once (by exact last) again
  refine ⟨first, second, run, again, ?_, pause_stops_hooks (.init _ _) () calls⟩
  cases run
  cases again
  decide +kernel

/-- The hooks for the target and the head follow a pause at the path, and the end of the input completes a message
that was paused. -/
theorem pause_overrun :
    ((restingParser .request).step restWatch (.run (pausingAt .path) (ascii "GET / HTTP/1.1\r\n"))).map Watched.seen =
        some ⟨true, true⟩ ∧
      (((restingParser .response).step restWatch (.run (pausingAt .body) (ascii "HTTP/1.0 200 OK\r\n\r\nx"))).bind
        fun s => s.step restWatch (.runEof (pausingAt .body))).map Watched.seen = some ⟨true, true⟩ := by
  decide +kernel

end

end Evhtp
