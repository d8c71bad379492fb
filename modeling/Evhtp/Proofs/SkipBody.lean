import Evhtp.Proofs.Watches

/-! `htparser_set_skip_body`. The flag is cleared when a message begins and when it is complete, so that what a hook of
a message asks for applies to this message and to no other; what is asked for between two messages is lost. -/

namespace Evhtp

/-- Whether the body of the message at hand, or of the next one, is to be skipped; whether the message is in its head;
and whether a hook for a body was ever called that was to be skipped. -/
structure Skip where
  asked : Bool := false
  inHead : Bool := false
  wronged : Bool := false
  deriving DecidableEq, Repr

def skipWatch : Watch Skip where
  hook event reply skip :=
    let asks := reply.any (·.skipBody)
    match event.name with
    | .onMsgBegin => ⟨skip.asked || asks, true, skip.wronged⟩
    | .onHdrsComplete => ⟨skip.asked || asks, false, skip.wronged⟩
    | .onMsgComplete => ⟨asks, false, skip.wronged⟩
    | _ =>
      if skip.inHead then ⟨skip.asked || asks, true, skip.wronged⟩
      else ⟨skip.asked, false, skip.wronged || (skip.asked && reply.isSome)⟩
  call p call skip :=
    match call with
    | .setSkipBody => if p.state = .start ∨ p.state = .headLine ∨ p.state = .headers then { skip with asked := true } else skip
    | .reset => { skip with inHead := false }
    | .init _ => ⟨false, false, skip.wronged⟩
    | .pause | .resume => skip

/-- The hook that completes a message does not ask for the body of the next one to be skipped. -/
def Hooks.AsksInTime {σ : Type} (H : Hooks σ) : Prop :=
  ∀ event p user, event.name = .onMsgComplete → H.present .onMsgComplete = true → (H.call event p user).1.skipBody = false

/-- The calls that ask for nothing between two messages. -/
def AsksWithin {σ : Type} (s : Watched σ Skip) : ParserCall σ → Prop
  | .run H _ | .runEof H => H.AsksInTime
  | .direct .setSkipBody => s.p.state ≠ .start
  | .direct .reset => s.p.flags.skipBody = false
  | .direct _ => True

/-- The flag says what was asked for, and no body was read that was to be skipped. -/
structure Heeds (p : Parser) (skip : Skip) : Prop where
  fair : skip.wronged = false
  flag : skip.asked = true → p.flags.skipBody = true
  between : p.state = .start → skip.asked = false ∧ skip.inHead = false
  head : p.state = .headLine ∨ p.state = .headers → skip.inHead = true ∧ skip.asked = p.flags.skipBody
  body : p.state = .body ∨ p.state = .trailers → skip.inHead = false ∧ skip.asked = false
  complete : p.state = .complete → skip.inHead = false

def ParserState.late : ParserState → Bool
  | .body | .trailers | .complete | .error => true
  | .start | .headLine | .headers => false

section
variable {σ : Type} {H : Hooks σ} {s : Scan σ} {data : Bytes} {after : Scan σ × Nat}

theorem hook_late {name : HookName} (late : s.p.state.late = true) : (hook H name data s).2.p.state.late = true := by
  rcases hook_state_or_error H name data s with same | failed
  · rw [same]
    exact late
  · rw [failed]
    rfl

theorem parseDelimited_late (late : s.p.state.late = true) : (parseDelimited H data s).1.p.state.late = true := by
  have counted : ∀ {result : Bool × Scan σ} n, result.2.p.state.late = true → (countDelimited n result).p.state.late = true := by
    intro result n late
    unfold countDelimited
    split
    · dsimp only
      split
      · rfl
      · exact late
    · exact late
  apply counted
  split
  · exact hook_late late
  · exact late

theorem parseBody_late (late : s.p.state.late = true) : (parseBody H data s).1.p.state.late = true := by
  unfold parseBody
  split
  · exact parseDelimited_late late
  · exact parseDelimited_late late
  · split
    · unfold parseSizeLine
      split
      · exact late
      · rfl
      · split
        · rfl
        · dsimp only
          split
          · exact hook_late rfl
          · exact hook_late late
    · have hooked : (hook H .body (data.take (s.p.chunkPiece data)) s).2.p.state.late = true := hook_late late
      unfold parseChunkData countChunk
      dsimp only
      split <;> exact hooked
    · unfold parseChunkEnd
      split
      · split
        · exact late
        · rfl
      · rfl
      · split
        · rfl
        · exact hook_late late
  · rfl

variable [Htstring]

theorem parseHeadLine_late {line : Bytes} (here : s.p.state = .trailers) (paused : s.p.flags.paused = false) :
    (parseHeadLine H line s).p.state.late = true := by
  unfold parseHeadLine
  rw [if_neg (by simp [here])]
  split
  · rfl
  · split
    · rfl
    · have reached := ((rules_any H).staged.parseHeader (p := s.p.countHeader)
        line (s.p.state == .trailers) (s := s.user) rfl (by simp [here, Parser.countHeader]) paused).state
      rw [reached]
      split
      · simp [Parser.countHeader, here, ParserState.late]
      · rfl

theorem turn_early (here : s.p.state = .headLine ∨ s.p.state = .headers)
    (running : s.p.flags.paused = false) (taken : turn H s data = some after) :
    after.1 = endHead H s ∨ after.1.p.state = .headers ∨ after.1.p.state = .error := by
  have head : s.p.state.inHead = true := by rcases here with here | here <;> rw [here] <;> rfl
  rw [turn_head H head] at taken
  cases turnHead_cases H head taken with
  | tooLong => exact .inr (.inr rfl)
  | line => exact (parseHeadLine_early _ here running).imp_left And.right
  | _ => simp_all

theorem turn_late (here : s.p.state = .body ∨ s.p.state = .trailers)
    (running : s.p.flags.paused = false) (taken : turn H s data = some after) : after.1.p.state.late = true := by
  cases turn_cases H taken with
  | tooLong => rfl
  | line head =>
    have there : s.p.state = .trailers := here.resolve_left fun body => by simp [body, ParserState.inHead] at head
    exact parseHeadLine_late there running
  | body here => exact parseBody_late (by rw [here]; rfl)
  | _ => simp_all

end

section
variable {σ : Type} {H : Hooks σ} {s : Scan (σ × Skip)} {inHead : Bool}

structure Fair (inHead : Bool) (s : Scan (σ × Skip)) : Prop where
  fair : s.user.2.wronged = false
  place : s.user.2.inHead = inHead
  asked : s.user.2.asked = (inHead && s.p.flags.skipBody)

theorem Fair.of_flags (fair : Fair inHead s) {p : Parser} (same : p.flags.skipBody = s.p.flags.skipBody) :
    Fair inHead { s with p } :=
  ⟨fair.fair, fair.place, by rw [same]; exact fair.asked⟩

theorem skipWatch_hook {name : HookName} (inner : name.hurried = true ∨ name.closing = true) (data : Bytes)
    (reply : Option HookReply) (skip : Skip) : skipWatch.hook ⟨name, data⟩ reply skip =
      if skip.inHead then ⟨skip.asked || reply.any (·.skipBody), true, skip.wronged⟩
      else ⟨skip.asked, false, skip.wronged || (skip.asked && reply.isSome)⟩ := by
  cases name with
  | onMsgBegin | onHdrsComplete | onMsgComplete => simp [HookName.hurried, HookName.closing] at inner
  | _ => rfl

theorem Fair.hook (fair : Fair inHead s) {name : HookName} (inner : name.hurried = true ∨ name.closing = true) (data : Bytes) :
    Fair inHead (hook (H.watchedBy skipWatch) name data s).2 := by
  rcases hook_watched_cases H skipWatch name data s with absent | ⟨reply, user, -, -, called⟩
  · rw [absent, skipWatch_hook inner]
    cases inHead <;> constructor <;> simp [fair.place, fair.fair, fair.asked]
  · rw [called, skipWatch_hook inner]
    have flags := (Parser.replied_flags s.p reply).2
    cases inHead <;> constructor <;> simp [fair.place, fair.fair, fair.asked, flags]

theorem fair_lineRules (H : Hooks σ) (inHead : Bool) : LineRules (H.watchedBy skipWatch) (Fair inHead) (Fair inHead) where
  ends fair := fair
  quiet fair same := fair.of_flags same.skipBody
  settled fair same := fair.of_flags same.skipBody
  hurries data hurried fair := ⟨fair.hook (.inl hurried) data, fun _ => fair.hook (.inl hurried) data⟩
  closes data closing fair := fair.hook (.inr closing) data

theorem Heeds.of_error {p : Parser} {skip : Skip} (fair : skip.wronged = false)
    (flag : skip.asked = true → p.flags.skipBody = true) (failed : p.state = .error) : Heeds p skip := by
  constructor <;> simp_all

theorem Fair.head (fair : Fair true s) (here : s.p.state = .headLine ∨ s.p.state = .headers ∨ s.p.state = .error) :
    Heeds s.p s.user.2 := by
  have asked : s.user.2.asked = s.p.flags.skipBody := by simpa using fair.asked
  refine ⟨fair.fair, fun asks => asked.symm.trans asks, fun start => ?_, fun _ => ⟨fair.place, asked⟩, fun body => ?_,
    fun complete => ?_⟩
  · simp [start] at here
  · rcases body with body | trailers
    · simp [body] at here
    · simp [trailers] at here
  · simp [complete] at here

theorem Fair.late (fair : Fair false s) (late : s.p.state.late = true) : Heeds s.p s.user.2 := by
  have asked : s.user.2.asked = false := by simpa using fair.asked
  refine ⟨fair.fair, fun asks => (nomatch asked.symm.trans asks), fun start => ?_, fun head => ?_,
    fun _ => ⟨fair.place, asked⟩, fun _ => fair.place⟩
  · simp [start, ParserState.late] at late
  · rcases head with line | headers
    · simp [line, ParserState.late] at late
    · simp [headers, ParserState.late] at late

/-- The hook for a complete head: the flag now says what was asked for. -/
theorem Fair.headHook (fair : Fair true s) :
    (Evhtp.hook (H.watchedBy skipWatch) .onHdrsComplete [] s).2.user.2 =
      ⟨(Evhtp.hook (H.watchedBy skipWatch) .onHdrsComplete [] s).2.p.flags.skipBody, false, false⟩ := by
  have asked : s.user.2.asked = s.p.flags.skipBody := by simpa using fair.asked
  rcases hook_watched_cases H skipWatch .onHdrsComplete [] s with absent | ⟨reply, user, -, -, called⟩
  · rw [absent]
    simp [skipWatch, asked, fair.fair]
  · rw [called, (Parser.replied_flags s.p reply).2]
    simp [skipWatch, asked, fair.fair]

theorem Fair.endHead (fair : Fair true s) :
    Heeds (endHead (H.watchedBy skipWatch) s).p (endHead (H.watchedBy skipWatch) s).user.2 := by
  have same := (framing_sameFlags s.p).skipBody
  unfold Evhtp.endHead
  split
  · have framed : Fair true { s with p := (framing s.p).2.headDone } := fair.of_flags same
    have seen := framed.headHook (H := H)
    have place := hook_state (H.watchedBy skipWatch) .onHdrsComplete [] { s with p := (framing s.p).2.headDone }
    revert seen place
    generalize Evhtp.hook (H.watchedBy skipWatch) .onHdrsComplete [] { s with p := (framing s.p).2.headDone } = result
    intro seen place
    unfold skipIfAsked
    split
    · next asks => constructor <;> simp [seen, asks.2]
    · next other =>
      by_cases ok : result.1 = true
      · have unasked : result.2.p.flags.skipBody = false := by simpa [ok] using other
        refine Fair.late ⟨by rw [seen], by rw [seen], by rw [seen]; exact unasked⟩ ?_
        rw [place, if_pos ok]
        unfold Parser.headDone
        dsimp only
        split <;> rfl
      · rw [if_neg ok] at place
        exact .of_error (by rw [seen]) (by rw [seen]; exact id) place
  · next failed =>
    have place := (framing_checked s.p).state
    rw [if_neg failed] at place
    have asked : s.user.2.asked = s.p.flags.skipBody := by simpa using fair.asked
    exact .of_error fair.fair (fun asks => same.trans (asked.symm.trans asks)) place

theorem Heeds.begin (heeds : Heeds s.p s.user.2) (start : s.p.state = .start) :
    Heeds (beginMessage (H.watchedBy skipWatch) s).p (beginMessage (H.watchedBy skipWatch) s).user.2 := by
  obtain ⟨asked, -⟩ := heeds.between start
  have place := hook_state_or_error (H.watchedBy skipWatch) .onMsgBegin [] { s with p := s.p.begin }
  refine Fair.head ?_ (place.imp_right .inr)
  unfold beginMessage
  rcases hook_watched_cases H skipWatch .onMsgBegin [] { s with p := s.p.begin } with absent | ⟨reply, user, -, -, called⟩
  · rw [absent]
    constructor <;> simp [skipWatch, heeds.fair, asked, Parser.begin, messageReset]
  · rw [called]
    have flags : (s.p.begin.replied reply).flags.skipBody = reply.skipBody := (Parser.replied_flags s.p.begin reply).2
    constructor <;> simp [skipWatch, heeds.fair, asked, flags]

theorem heeds_complete {p : Parser} {user : σ × Skip} (inTime : H.AsksInTime) (fair : user.2.wronged = false)
    (start : p.state = .start) :
    Heeds (Evhtp.hook (H.watchedBy skipWatch) .onMsgComplete [] ⟨p, user⟩).2.p
      (Evhtp.hook (H.watchedBy skipWatch) .onMsgComplete [] ⟨p, user⟩).2.user.2 := by
  have place := hook_state_or_error (H.watchedBy skipWatch) .onMsgComplete [] ⟨p, user⟩
  have seen : (Evhtp.hook (H.watchedBy skipWatch) .onMsgComplete [] ⟨p, user⟩).2.user.2 = ⟨false, false, false⟩ := by
    rcases hook_watched_cases H skipWatch .onMsgComplete [] ⟨p, user⟩ with absent | ⟨reply, _, present, call, called⟩
    · rw [absent]
      simp [skipWatch, fair]
    · have quiet := inTime ⟨.onMsgComplete, []⟩ p user.1 rfl present
      rw [call] at quiet
      rw [called]
      simpa [skipWatch, fair] using quiet
  rw [seen]
  rw [start] at place
  rcases place with place | place <;> constructor <;> simp [place]

theorem Heeds.turn [Htstring] (heeds : Heeds s.p s.user.2) (inTime : H.AsksInTime) (running : s.p.flags.paused = false)
    {data : Bytes} {after : Scan (σ × Skip) × Nat} (taken : turn (H.watchedBy skipWatch) s data = some after) :
    Heeds after.1.p after.1.user.2 := by
  by_cases start : s.p.state = .start
  · obtain ⟨asked, outside⟩ := heeds.between start
    rcases turn_start start taken with ⟨byte, rfl⟩ | rfl
    · have place := (skipByte_checked s.p byte).state
      rw [start] at place
      refine ⟨heeds.fair, fun asks => ?_, fun _ => ⟨asked, outside⟩, fun head => ?_,
        fun body => ⟨outside, asked⟩, fun _ => outside⟩
      · cases asked.symm.trans asks
      · split at place <;> simp [place] at head
    · exact heeds.begin start
  · by_cases done : s.p.state = .complete
    · simp only [Evhtp.turn, done] at taken
      cases taken
      exact heeds_complete inTime heeds.fair rfl
    · by_cases here : s.p.state = .headLine ∨ s.p.state = .headers
      · obtain ⟨place, asked⟩ := heeds.head here
        have fair : Fair true s := ⟨heeds.fair, place, by simpa using asked⟩
        rcases turn_early here running taken with ended | there
        · rw [ended]
          exact fair.endHead
        · rcases (fair_lineRules H true).turn fair start done taken with held | ⟨-, ended⟩
          · exact held.head (.inr there)
          · rw [ended]
            exact fair.endHead
      · have alive := turn_alive taken
        have later : s.p.state = .body ∨ s.p.state = .trailers := by
          cases place : s.p.state <;> simp_all
        obtain ⟨outside, unasked⟩ := heeds.body later
        have fair : Fair false s := ⟨heeds.fair, outside, unasked⟩
        rcases (fair_lineRules H false).turn fair start done taken with held | ⟨headers, -⟩
        · exact held.late (turn_late later running taken)
        · exact absurd (.inr headers) here

end

theorem heeds_rules [Htstring] (σ : Type) : WatchRules skipWatch (AsksWithin (σ := σ)) Heeds where
  turn inTime _ _ _ _ heeds running taken := heeds.turn inTime running taken
  eof inTime heeds _ _ := heeds_complete inTime heeds.fair rfl
  direct := by
    intro s call within heeds
    cases call with
    | pause | resume => exact ⟨heeds.fair, heeds.flag, heeds.between, heeds.head, heeds.body, heeds.complete⟩
    | setSkipBody =>
      change s.p.state ≠ .start at within
      by_cases here : s.p.state = .headLine ∨ s.p.state = .headers
      · have told : skipWatch.call s.p.toParser .setSkipBody s.seen = { s.seen with asked := true } := if_pos (.inr here)
        obtain ⟨place, -⟩ := heeds.head here
        rw [told]
        refine ⟨heeds.fair, fun _ => rfl, fun start => absurd start within, fun _ => ⟨place, rfl⟩, fun body => ?_,
          heeds.complete⟩
        exact nomatch place.symm.trans (heeds.body body).1
      · have told : skipWatch.call s.p.toParser .setSkipBody s.seen = s.seen := if_neg (by simp [within, here])
        rw [told]
        exact ⟨heeds.fair, fun _ => rfl, heeds.between, fun head => absurd head here, heeds.body, heeds.complete⟩
    | reset =>
      have unasked : s.seen.asked = false := by
        by_contra asks
        exact nomatch within.symm.trans (heeds.flag (by simpa using asks))
      constructor <;> simp [skipWatch, DirectCall.apply, htparserReset, messageReset, heeds.fair, unasked]
    | init type => constructor <;> simp [skipWatch, DirectCall.apply, htparserInit, messageReset, heeds.fair]

theorem skipByte_setSkipBody (p : Parser) (byte : UInt8) :
    skipByte p.setSkipBody byte = ((skipByte p byte).1, (skipByte p byte).2.setSkipBody) := by
  by_cases counts : byte = LF ∧ p.config.maxEmptyLineCount ≠ 0
  · by_cases many : p.config.maxEmptyLineCount ≤ p.emptyLines + 1
    · simp [skipByte, Parser.setSkipBody, Parser.fail, counts, many]
    · simp [skipByte, Parser.setSkipBody, counts, many]
  · simp [skipByte, Parser.setSkipBody, counts]

theorem skipEmptyLines_setSkipBody (p : Parser) (data : Bytes) :
    skipEmptyLines p.setSkipBody data =
      (((skipEmptyLines p data).1.1, (skipEmptyLines p data).1.2.setSkipBody), (skipEmptyLines p data).2) := by
  induction data generalizing p with
  | nil => rfl
  | cons byte rest ih =>
    unfold skipEmptyLines
    rw [skipByte_setSkipBody]
    split
    · dsimp only
      split
      · rw [ih]
      · rfl
    · rfl

section
variable [Htstring] {σ : Type} {p : Htparser}

theorem run_reports (H : Hooks σ) (sane : p.Sane) (user : σ) (data : Bytes)
    (complete : (htparserRun H p user data).1.state = .complete) : (htparserRun H p user data).1.flags.paused = true := by
  obtain ⟨_, last, path, ended⟩ := run_spec H (s := ⟨p.toParser, user⟩) sane data
  unfold htparserRun at complete ⊢
  generalize runLoop H (runFuel data) data ⟨p.toParser, user⟩ = result at *
  obtain ⟨after, used⟩ := result
  cases ended with
  | completed done paused =>
    have place := hook_state_or_error H .onMsgComplete [] { last with p := last.p.finish }
    rcases place with place | place <;> cases complete.symm.trans place
  | failed failed => cases complete.symm.trans failed
  | paused paused => exact paused
  | waiting none =>
    change after.p.state = .complete at complete
    simp [turn, complete] at none

theorem complete_reports (H : Hooks σ) (complete : p.state = .complete) (running : p.flags.paused = false) (user : σ)
    (data : Bytes) :
    (htparserRun H.logged p (user, []) data).2.1.2.map Fired.name = [.onMsgComplete] ∧
      (htparserRun H.logged p (user, []) data).2.2 = 0 := by
  have turn : runLoop H.logged (runFuel data) data ⟨p.toParser, (user, [])⟩ =
      (finishMessage H.logged ⟨p.toParser, (user, [])⟩, 0) := by
    unfold runFuel runLoop
    simp [complete, running]
  obtain ⟨reply, user', called⟩ := hook_logged (H := H) .onMsgComplete [] ⟨p.toParser.finish, (user, [])⟩
  unfold htparserRun
  rw [turn]
  unfold finishMessage
  rw [called]
  exact ⟨rfl, rfl⟩

/-- What is asked for between two messages makes no difference to what the hooks are called for. -/
theorem run_setSkipBody (H : Hooks σ) (start : p.state = .start) (user : σ) (data : Bytes) :
    (htparserRun H (DirectCall.setSkipBody.apply p) user data).2 = (htparserRun H p user data).2 := by
  have skipped := skipEmptyLines_setSkipBody p.toParser data
  have begun : ∀ (q : Parser), beginMessage H ⟨q.setSkipBody, user⟩ = beginMessage H ⟨q, user⟩ := fun _ => rfl
  have loop : (runLoop H (runFuel data) data ⟨p.toParser.setSkipBody, user⟩).2 = (runLoop H (runFuel data) data ⟨p.toParser, user⟩).2 ∧
      (runLoop H (runFuel data) data ⟨p.toParser.setSkipBody, user⟩).1.user =
        (runLoop H (runFuel data) data ⟨p.toParser, user⟩).1.user := by
    have asked : p.toParser.setSkipBody.state = .start := start
    have flags : p.toParser.setSkipBody.flags.paused = p.flags.paused := rfl
    unfold runFuel runLoop
    dsimp only
    rw [asked, start, skipped, flags]
    dsimp only
    split
    · exact ⟨rfl, rfl⟩
    · split
      · exact ⟨rfl, rfl⟩
      · rw [begun]
        exact ⟨rfl, rfl⟩
  exact Prod.ext loop.2 loop.1

end

/-- In every run in which nothing is asked for between two messages, the body of a message is skipped if a hook of its
head, or a call while it is read, asks for it; the next message is framed by its own head. -/
theorem skip_body_heeded [Htstring] {σ : Type} (p : Htparser) (type : HtpType) (user : σ) {s : Watched σ Skip}
    (calls : Runs.Reaches (Watched.step skipWatch) AsksWithin ⟨htparserInit p type, user, {}⟩ s) :
    s.seen.wronged = false ∧
      (s.p.state = .headLine ∨ s.p.state = .headers → s.p.flags.skipBody = s.seen.asked) ∧
      (s.seen.asked = true → s.seen.inHead = false → s.p.state = .complete ∨ s.p.state = .error) ∧
      (s.p.state = .start → s.seen.asked = false) ∧
      ∀ {τ : Type} (H : Hooks τ) (user : τ) (data : Bytes),
        ((htparserRun H s.p user data).1.state = .complete → (htparserRun H s.p user data).1.flags.paused = true) ∧
        (s.p.state = .complete → s.p.flags.paused = false →
          (htparserRun H.logged s.p (user, []) data).2.1.2.map Fired.name = [.onMsgComplete] ∧
            (htparserRun H.logged s.p (user, []) data).2.2 = 0) ∧
        (s.p.state = .start →
          (htparserRun H (DirectCall.setSkipBody.apply s.p) user data).2 = (htparserRun H s.p user data).2) := by
  have initially : Heeds (htparserInit p type).toParser {} := by
    constructor <;> simp [htparserInit, messageReset]
  obtain ⟨reached, heeds⟩ := (heeds_rules σ).reaches (.init p type) initially calls
  refine ⟨heeds.fair, fun here => (heeds.head here).2.symm, fun asks outside => ?_, fun start => (heeds.between start).1,
    fun H user data => ⟨run_reports H reached.consistent.toSane user data,
      fun complete running => complete_reports H complete running user data, fun start => run_setSkipBody H start user data⟩⟩
  cases place : s.p.state with
  | complete => exact .inl rfl
  | error => exact .inr rfl
  | start => cases asks.symm.trans (heeds.between place).1
  | headLine => cases outside.symm.trans (heeds.head (.inl place)).1
  | headers => cases outside.symm.trans (heeds.head (.inr place)).1
  | body => cases asks.symm.trans (heeds.body (.inl place)).2
  | trailers => cases asks.symm.trans (heeds.body (.inr place)).2

section
attribute [local instance] Plain.htstring

def skippingAt (name : Option HookName) : Hooks Unit where
  present _ := true
  call event _ _ := ({ skipBody := some event.name == name }, ())

def skippingParser : Watched Unit Skip := ⟨htparserInit (htparserNew defaultConfig) .response, (), {}⟩

/-- The head of a response to a `HEAD` request, and the one that follows it. -/
def headResponse : Bytes := ascii "HTTP/1.1 200 OK\r\nContent-Length: 1\r\n\r\n"

theorem skip_body_heeded_head :
    ∃ first, skippingParser.step skipWatch (.run (skippingAt (some .onHdrsComplete)) headResponse) = some first ∧
      first.p.state = .start ∧ first.seen.asked = false ∧ first.seen.wronged = false := by
  have inTime : (skippingAt (some .onHdrsComplete)).AsksInTime := by
    intro event _ _ name _
    simp [skippingAt, name]
  obtain ⟨first, run⟩ : ∃ first, skippingParser.step skipWatch
      (.run (skippingAt (some .onHdrsComplete)) headResponse) = some first := ⟨_, rfl⟩
  have calls : Runs.Reaches (Watched.step skipWatch) AsksWithin skippingParser first := .step .start (by exact inTime) run
  obtain ⟨fair, -, -, between, -⟩ := skip_body_heeded _ _ _ calls
  have start : first.p.state = .start := by
    cases run
    decide +kernel
  exact ⟨first, run, start, between start, fair⟩

/-- The body is to be skipped, by a call before the run, and is read nevertheless. -/
theorem skip_body_lost :
    ((skippingParser.step skipWatch (.direct .setSkipBody)).bind fun asked =>
      asked.step skipWatch (.run (skippingAt none) (headResponse ++ ascii "x"))).map Watched.seen =
        some ⟨false, false, true⟩ := by
  decide +kernel

end

end Evhtp
