import Evhtp.Proofs.Fragmentation
import Evhtp.Proofs.HookTrace

/-! The representation invariant of the parser: its state, its error, the way its body is framed and the bytes it
still waits for agree with each other, whatever calls are made and whatever the hooks return. -/

namespace Evhtp

/-- The fields of a parser agree with each other. -/
structure Parser.Consistent (p : Parser) : Prop extends p.Sane where
  error : p.error ≠ .none ↔ p.state = .error
  trailers : p.state = .trailers → p.body = .chunked

/-- The parsers that calls lead to from one that was initialised; each call comes with hooks of its own. -/
inductive Htparser.Reachable [Htstring] : Htparser → Prop
  | init (p : Htparser) (type : HtpType) : Reachable (htparserInit p type)
  | run {σ : Type} (H : Hooks σ) (user : σ) (data : Bytes) {p : Htparser} (before : Reachable p) :
      Reachable (htparserRun H p user data).1
  | runEof {σ : Type} (H : Hooks σ) (user : σ) {p : Htparser} (before : Reachable p) :
      Reachable (htparserRunEof H p user).1
  | pause {p : Htparser} (before : Reachable p) : Reachable { p with toParser := p.toParser.pause }
  | resume {p : Htparser} (before : Reachable p) : Reachable { p with toParser := p.toParser.resume }
  | setSkipBody {p : Htparser} (before : Reachable p) : Reachable { p with toParser := p.toParser.setSkipBody }
  | reset {p : Htparser} (before : Reachable p) : Reachable (htparserReset p)

section
variable {σ : Type} {H : Hooks σ}

/-- Hooks that keep a record of their own besides what `H` works on make no difference to the parser. -/
theorem HookRules.of_record {τ : Type} {H : Hooks σ} {H' : Hooks (σ × τ)}
    (same : ∀ name data p record,
      hook H name data ⟨p, record.1⟩ =
        ((hook H' name data ⟨p, record⟩).1, ⟨(hook H' name data ⟨p, record⟩).2.p, (hook H' name data ⟨p, record⟩).2.user.1⟩)) :
    HookRules H H' fun _ user record => record.1 = user := by
  refine .of_calls ?_
  rintro name data p _ record rfl
  have state := hook_state H name data ⟨p, record.1⟩
  refine ⟨?_, ?_, ?_, state⟩ <;> rw [same]

theorem logged_rules (H : Hooks σ) : HookRules H H.logged fun _ user record => record.1 = user := by
  refine .of_record fun name data p record => ?_
  by_cases present : H.present name = true
  · simp [hook, Hooks.logged, present]
  · simp [hook, Hooks.logged, present, Parser.replied]

theorem hook_body (name : HookName) (data : Bytes) (s : Scan σ) : (hook H name data s).2.p.body = s.p.body := by
  obtain ⟨reply, _, replied⟩ := hook_replied H name data s
  rw [replied, Parser.replied_body]

theorem Parser.Consistent.of_state {p : Parser} (clean : p.error = .none)
    (elsewhere : p.state ≠ .body ∧ p.state ≠ .trailers ∧ p.state ≠ .error) : p.Consistent :=
  ⟨.of_state elsewhere.1, ⟨fun failed => absurd clean failed, fun failed => absurd failed elsewhere.2.2⟩,
    fun trailers => absurd trailers elsewhere.2.1⟩

theorem hook_error {name : HookName} {data : Bytes} {s : Scan σ} (error : s.p.error ≠ .none ↔ s.p.state = .error) :
    (hook H name data s).2.p.error ≠ .none ↔ (hook H name data s).2.p.state = .error := by
  obtain ⟨reply, _, replied⟩ := hook_replied H name data s
  rw [replied]
  by_cases accepted : reply.rc = 0
  · simpa [Parser.replied, accepted] using error
  · simp [Parser.replied, accepted, Parser.fail]

theorem hook_consistent {name : HookName} {data : Bytes} {s : Scan σ} (start : s.p.state = .start)
    (clean : s.p.error = .none) : (hook H name data s).2.p.Consistent := by
  have place := hook_state_or_error H name data s
  rw [start] at place
  refine ⟨.of_state ?_, hook_error (by simp [start, clean]), fun trailers => ?_⟩
  · rcases place with place | place <;> simp [place]
  · rcases place with place | place <;> cases place.symm.trans trailers

theorem parseBody_trailers {data : Bytes} {s : Scan σ} (here : s.p.state = .body)
    (trailers : (parseBody H data s).1.p.state = .trailers) : (parseBody H data s).1.p.body = .chunked := by
  have delimited : (parseDelimited H data s).1.p.state ≠ .trailers := by
    unfold parseDelimited
    dsimp only
    have kept : ∀ result : Bool × Scan σ, result.2.p.state ≠ .trailers → ∀ n, (countDelimited n result).p.state ≠ .trailers := by
      intro result elsewhere n
      unfold countDelimited
      split
      · dsimp only
        split
        · simp
        · exact elsewhere
      · exact elsewhere
    apply kept
    split
    · rw [hook_state, here]
      split <;> simp
    · simp [here]
  have hooked : ∀ name data' (s' : Scan σ), s'.p.body = .chunked → (hook H name data' s').2.p.body = .chunked :=
    fun name data' s' chunked => (hook_body name data' s').trans chunked
  revert trailers
  unfold parseBody
  split
  · exact fun trailers => absurd trailers delimited
  · exact fun trailers => absurd trailers delimited
  · next chunked =>
    intro trailers
    split
    · unfold parseSizeLine
      split
      · exact chunked
      · exact chunked
      · split
        · exact chunked
        · dsimp only
          split
          · exact hooked _ _ _ chunked
          · exact hooked _ _ _ chunked
    · unfold parseChunkData countChunk
      dsimp only
      split
      · exact hooked _ _ _ chunked
      · exact hooked _ _ _ chunked
    · unfold parseChunkEnd
      split
      · split <;> exact chunked
      · exact chunked
      · split
        · exact chunked
        · exact hooked _ _ _ chunked
  · nofun

/-- A head leads to a body or to the end of the message. -/
theorem endHead_elsewhere (s : Scan σ) : (endHead H s).p.state ≠ .trailers := by
  unfold endHead
  split
  · have place : (framing s.p).2.headDone.state ≠ .trailers := by
      unfold Parser.headDone
      dsimp only
      split <;> simp
    unfold skipIfAsked
    split
    · simp
    · rw [hook_state]
      split
      · exact place
      · simp
  · next failed =>
    rw [(framing_checked s.p).state, if_neg failed]
    simp

variable [Htstring]
variable {s : Scan σ} {data : Bytes} {after : Scan σ × Nat}

theorem parseHeader_trailer (line : Bytes) (s : Scan σ) : (parseHeader H line true s).2.p.body = s.p.body := by
  unfold parseHeader
  dsimp only
  split
  · rfl
  · split
    · rfl
    · simp only [andThen, if_true]
      split
      · rw [hook_body, hook_body]
      · exact hook_body _ _ _

theorem parseHeadLine_early (line : Bytes) (here : s.p.state = .headLine ∨ s.p.state = .headers)
    (paused : s.p.flags.paused = false) :
    (s.p.state = .headers ∧ parseHeadLine H line s = endHead H s) ∨ (parseHeadLine H line s).p.state = .headers ∨
      (parseHeadLine H line s).p.state = .error := by
  unfold parseHeadLine
  dsimp only
  split
  · next atLine =>
    have reached := ((rules_any H).staged.parseStartLine line (s := s.user) rfl atLine).state
    split
    · exact .inr (hook_state_or_error H _ _ _)
    · next failed =>
      rw [if_neg failed] at reached
      exact .inr (.inr reached)
  · next notLine =>
    have inHeaders := here.resolve_left notLine
    split
    · rw [if_neg (by simp [inHeaders])]
      exact .inl ⟨inHeaders, rfl⟩
    · split
      · exact .inr (.inr rfl)
      · have reached := ((rules_any H).staged.parseHeader (p := s.p.countHeader)
          line (s.p.state == .trailers) (s := s.user) rfl (by simp [inHeaders, Parser.countHeader]) paused).state
        rw [reached]
        split
        · exact .inr (.inl inHeaders)
        · exact .inr (.inr rfl)

theorem parseHeadLine_trailers {line : Bytes} (here : s.p.state.inHead = true)
    (paused : s.p.flags.paused = false) (framed : s.p.state = .trailers → s.p.body = .chunked)
    (trailers : (parseHeadLine H line s).p.state = .trailers) : (parseHeadLine H line s).p.body = .chunked := by
  by_cases place : s.p.state = .trailers
  · have chunked := framed place
    unfold parseHeadLine
    rw [if_neg (by simp [place])]
    split
    · exact chunked
    · split
      · exact chunked
      · rw [place]
        exact (parseHeader_trailer line _).trans chunked
  · have atHead : s.p.state = .headLine ∨ s.p.state = .headers := by
      simpa [ParserState.inHead, place] using here
    rcases parseHeadLine_early (H := H) line atHead paused with ⟨-, ended⟩ | early | failed
    · rw [ended] at trailers
      exact absurd trailers (endHead_elsewhere s)
    · cases early.symm.trans trailers
    · cases failed.symm.trans trailers

theorem turn_trailers (paused : s.p.flags.paused = false)
    (framed : s.p.state = .trailers → s.p.body = .chunked) (taken : turn H s data = some after)
    (trailers : after.1.p.state = .trailers) : after.1.p.body = .chunked := by
  cases turn_cases H taken with
  | @skips byte _ here =>
    exfalso
    rw [(skipByte_checked s.p byte).state, here] at trailers
    split at trailers <;> cases trailers
  | begins =>
    exfalso
    unfold beginMessage at trailers
    rw [hook_state] at trailers
    split at trailers <;> cases trailers
  | tooLong => cases trailers
  | line here => exact parseHeadLine_trailers here paused framed trailers
  | body here => exact parseBody_trailers here trailers
  | finishes =>
    exfalso
    unfold finishMessage at trailers
    rw [hook_state] at trailers
    split at trailers <;> cases trailers

theorem start_error (start : s.p.state = .start)
    (clean : s.p.error = .none) (taken : turn H s data = some after) :
    after.1.p.error ≠ .none ↔ after.1.p.state = .error := by
  rcases turn_start start taken with ⟨byte, rfl⟩ | rfl
  · unfold skipByte
    dsimp only
    split
    · split
      · simp [Parser.fail]
      · simp [clean, start]
    · simp [clean, start]
  · exact hook_error (by simp [Parser.begin, messageReset])

theorem turn_error (paused : s.p.flags.paused = false)
    (error : s.p.error ≠ .none ↔ s.p.state = .error) (taken : turn H s data = some after) :
    after.1.p.error ≠ .none ↔ after.1.p.state = .error := by
  have alive := turn_alive taken
  have clean : s.p.error = .none := by
    by_contra recorded
    exact alive (error.mp recorded)
  obtain ⟨after', taken', same⟩ := (logged_rules H).turn (t := (s.user, [])) rfl paused taken
  rw [same.parser]
  by_cases start : s.p.state = .start
  · exact start_error (s := ⟨s.p, (s.user, [])⟩) start clean taken'
  · obtain ⟨_, _, _, _, passed, failed⟩ := (turn_moves (s := ⟨s.p, (s.user, [])⟩) start clean taken').fired
    exact ⟨fun recorded => by_contra fun good => recorded (passed good).1, fun bad => (failed bad).1⟩

theorem turn_consistent (consistent : s.p.Consistent)
    (paused : s.p.flags.paused = false) (taken : turn H s data = some after) : after.1.p.Consistent :=
  ⟨turn_sane H consistent.toSane paused taken, turn_error paused consistent.error taken,
    turn_trailers paused consistent.trailers taken⟩

theorem run_consistent (consistent : s.p.Consistent) (data : Bytes) :
    (runLoop H (runFuel data) data s).1.p.Consistent :=
  run_keeps H (I := fun s => s.p.Consistent) turn_consistent consistent.toSane data consistent

theorem Htparser.Reachable.consistent {p : Htparser} (reached : p.Reachable) : p.Consistent := by
  induction reached with
  | init p type => exact .of_state rfl (by simp [htparserInit, messageReset])
  | run H user data _ ih => exact run_consistent (s := ⟨_, user⟩) ih data
  | runEof H user _ ih =>
    unfold htparserRunEof
    split
    · next here =>
      refine hook_consistent rfl ?_
      by_contra recorded
      cases here.1.symm.trans (ih.error.mp recorded)
    · exact ih
  | pause _ ih => exact ⟨⟨ih.framed, ih.pending, ih.chunk⟩, ih.error, ih.trailers⟩
  | resume _ ih => exact ⟨⟨ih.framed, ih.pending, ih.chunk⟩, ih.error, ih.trailers⟩
  | setSkipBody _ ih => exact ⟨⟨ih.framed, ih.pending, ih.chunk⟩, ih.error, ih.trailers⟩
  | reset _ => exact .of_state rfl (by simp [htparserReset, messageReset])

theorem run_failed (H : Hooks σ) {p : Htparser} (failed : p.state = .error) (user : σ) (data : Bytes) :
    htparserRun H p user data = ({ p with bytesRead := 0 }, user, 0) := by
  have still : runLoop H (runFuel data) data ⟨p.toParser, user⟩ = (⟨p.toParser, user⟩, 0) := by
    unfold runFuel runLoop
    exact if_pos (.inl failed)
  unfold htparserRun
  rw [still]
  simp

end

/-- Whatever calls were made: the fields agree, a run reads no more than it is given and counts what it reads, and a
parser that has failed does nothing. -/
theorem parser_representation [Htstring] {p : Htparser} (reached : p.Reachable) :
    p.Consistent ∧
      (∀ {σ : Type} (H : Hooks σ) (user : σ) (data : Bytes),
        (htparserRun H p user data).2.2 ≤ data.length ∧
          (htparserRun H p user data).1.totalBytesRead =
            p.totalBytesRead + UInt64.ofNat (htparserRun H p user data).2.2) ∧
      (p.state = .error → ∀ {σ : Type} (H : Hooks σ) (user : σ),
        (∀ data, htparserRun H p user data = ({ p with bytesRead := 0 }, user, 0)) ∧ htparserRunEof H p user = (p, user)) := by
  have consistent := reached.consistent
  refine ⟨consistent, fun H user data => ⟨?_, rfl⟩, fun failed _ H user => ⟨run_failed H failed user, ?_⟩⟩
  · exact (run_spec (s := ⟨p.toParser, user⟩) H consistent.toSane data).within
  · unfold htparserRunEof
    rw [if_neg (by simp [failed])]

section
attribute [local instance] Plain.htstring

def failedParser : Htparser :=
  (htparserRun recorder.hooks (htparserInit (htparserNew defaultConfig) .request) [] (ascii "hello\r\n")).1

theorem parser_representation_failed :
    failedParser.state = .error ∧ failedParser.error = .invalMethod ∧ failedParser.Consistent ∧
      htparserRun recorder.hooks failedParser [] (ascii "GET / HTTP/1.1\r\n\r\n") =
        ({ failedParser with bytesRead := 0 }, [], 0) := by
  have failed : failedParser.state = .error ∧ failedParser.error = .invalMethod := by decide +kernel
  have reached : failedParser.Reachable := .run _ _ _ (.init _ _)
  obtain ⟨consistent, _, stuck⟩ := parser_representation reached
  exact ⟨failed.1, failed.2, consistent, (stuck failed.1 recorder.hooks []).1 _⟩

end

end Evhtp
