import Evhtp.Msgparser

/-! Proof rules for the parser's hooks. A relation between the parser and the states of two sets of
hooks holds across a whole run once every hook keeps it and it does not depend on what the parser
changes silently between two hooks. It may depend on how far the hooks of a message have got. With one
set of hooks this is an invariant rule. -/

namespace Evhtp

/-- The order in which the parser goes through a message, apart from the hooks that begin and end it. -/
def ParserState.leads : ParserState → ParserState → Bool
  | .headLine, .headers | .headers, .body | .headers, .complete => true
  | .body, .trailers | .body, .complete | .trailers, .complete => true
  | _, .error => true
  | _, _ => false

theorem ParserState.leads_error (state : ParserState) : state.leads .error = true := by
  cases state <;> rfl

/-- What the parser changes on its own, between two hooks. -/
structure Silent (p p' : Parser) : Prop where
  config : p'.config = p.config
  type : p'.type = p.type
  paused : p'.flags.paused = p.flags.paused
  haveHost : p'.flags.haveHost = p.flags.haveHost
  state : p'.state = p.state ∨ p.state.leads p'.state = true
  error : p'.error = p.error ∨ p'.state = .error

theorem Silent.error_stays {p p' : Parser} (silent : Silent p p') (failed : p.state = .error) : p'.state = .error := by
  rcases silent.state with same | leads
  · exact same.trans failed
  · rw [failed] at leads
    cases here : p'.state <;> simp [here, ParserState.leads] at leads ⊢

theorem Silent.start_or_error {p p' : Parser} (silent : Silent p p') (start : p.state = .start) :
    p'.state = .start ∨ p'.state = .error := by
  rcases silent.state with same | leads
  · exact .inl (same.trans start)
  · rw [start] at leads
    cases here : p'.state <;> simp [here, ParserState.leads] at leads ⊢

/-- Where in a message a hook can fire. The three hooks left out have rules of their own, since the
parser resets what it knows about the message just before it fires them. -/
def Fires (p : Parser) : HookName → Prop
  | .method | .scheme | .host | .port | .path | .args | .uri => p.state = .headLine
  | .onHdrsBegin => p.state = .headers
  | .hdrKey => (p.state = .headers ∨ p.state = .trailers) ∧ p.flags.paused = false
  | .hdrVal => p.state = .headers ∨ p.state = .trailers
  | .onHdrsComplete => (p.state = .body ∨ p.state = .complete) ∧ p.flags.paused = false
  | .onNewChunk | .onChunkComplete | .body => p.state = .body ∧ p.flags.paused = false
  | .onChunksComplete => p.state = .trailers ∧ p.flags.paused = false
  | .onMsgBegin | .hostname | .onMsgComplete => False

/-- How far the hooks of a message have got. -/
inductive Stage where
  | idle | line | target | value | done
  deriving DecidableEq, Repr

def HookName.before : HookName → Stage
  | .args | .uri | .onHdrsBegin => .target
  | .hdrVal => .value
  | _ => .line

def HookName.after : HookName → Stage
  | .path | .args | .uri => .target
  | .hdrKey => .value
  | _ => .line

def ParserState.stage : ParserState → Stage
  | .start => .idle
  | _ => .line

section
variable {σ τ : Type} {p : Parser} {s : σ} {t : τ}

/-- Two results of one hook or parsing function: both succeed, in `state`, or both fail. -/
structure Agree (R : Parser → σ → τ → Prop) (state : ParserState)
    (first : Bool × Scan σ) (second : Bool × Scan τ) : Prop where
  ok : first.1 = second.1
  parser : first.2.p = second.2.p
  held : R first.2.p first.2.user second.2.user
  state : first.2.p.state = if first.1 then state else .error

structure StagedRules (H : Hooks σ) (H' : Hooks τ) (R : Stage → Parser → σ → τ → Prop) : Prop where
  silent : ∀ {stage p p' s t}, R stage p s t → Silent p p' → R stage p' s t
  failed : ∀ {stage stage' p s t}, R stage p s t → p.state = .error → R stage' p s t
  status : ∀ {p s t}, p.type = .response → p.state = .headLine → R .line p s t → R .target p s t
  begins : ∀ {p s t}, p.state = .start → p.flags.paused = false → R .idle p s t →
    Agree (R .line) .headLine (hook H .onMsgBegin [] ⟨p.begin, s⟩) (hook H' .onMsgBegin [] ⟨p.begin, t⟩)
  host : ∀ {p s t} value, p.state = .headers → p.flags.haveHost = false → R .value p s t →
    Agree (R .value) .headers (hook H .hostname value ⟨p.sawHost, s⟩) (hook H' .hostname value ⟨p.sawHost, t⟩)
  completes : ∀ {p s t}, p.state = .complete → p.flags.paused = false → R .line p s t →
    Agree (R .done) .start (hook H .onMsgComplete [] ⟨p.finish, s⟩) (hook H' .onMsgComplete [] ⟨p.finish, t⟩)
  calls : ∀ {p s t} name data, Fires p name → R name.before p s t →
    Agree (R name.after) p.state (hook H name data ⟨p, s⟩) (hook H' name data ⟨p, t⟩)

structure HookRules (H : Hooks σ) (H' : Hooks τ) (R : Parser → σ → τ → Prop) : Prop where
  silent : ∀ {p p' s t}, R p s t → Silent p p' → R p' s t
  begins : ∀ {p s t}, p.state = .start → p.flags.paused = false → R p s t →
    Agree R .headLine (hook H .onMsgBegin [] ⟨p.begin, s⟩) (hook H' .onMsgBegin [] ⟨p.begin, t⟩)
  host : ∀ {p s t} value, p.state = .headers → p.flags.haveHost = false → R p s t →
    Agree R .headers (hook H .hostname value ⟨p.sawHost, s⟩) (hook H' .hostname value ⟨p.sawHost, t⟩)
  completes : ∀ {p s t}, p.state = .complete → p.flags.paused = false → R p s t →
    Agree R .start (hook H .onMsgComplete [] ⟨p.finish, s⟩) (hook H' .onMsgComplete [] ⟨p.finish, t⟩)
  calls : ∀ {p s t} name data, Fires p name → R p s t →
    Agree R p.state (hook H name data ⟨p, s⟩) (hook H' name data ⟨p, t⟩)

theorem HookRules.staged {H : Hooks σ} {H' : Hooks τ} {R : Parser → σ → τ → Prop} (rules : HookRules H H' R) :
    StagedRules H H' fun _ => R where
  silent := rules.silent
  failed held _ := held
  status _ _ held := held
  begins := rules.begins
  host := rules.host
  completes := rules.completes
  calls := rules.calls

/-- The rules for a relation between what the hooks keep. -/
theorem HookRules.of_calls {H : Hooks σ} {H' : Hooks τ} {R : σ → τ → Prop} (same : ∀ name data p {s t}, R s t →
    Agree (fun _ => R) p.state (hook H name data ⟨p, s⟩) (hook H' name data ⟨p, t⟩)) : HookRules H H' fun _ => R where
  silent held _ := held
  begins {p _ _} _ _ held := same .onMsgBegin [] p.begin held
  host {p _ _} value here _ held := here ▸ same .hostname value p.sawHost held
  completes {p _ _} _ _ held := same .onMsgComplete [] p.finish held
  calls {p _ _} name data _ held := same name data p held

structure SameTurn (R : Parser → σ → τ → Prop) (first : Scan σ × Nat) (second : Scan τ × Nat) : Prop where
  used : first.2 = second.2
  parser : first.1.p = second.1.p
  held : R first.1.p first.1.user second.1.user

/-- A hook reaches the parser only through what it replies; an absent one replies nothing. -/
theorem hook_replied (H : Hooks σ) (name : HookName) (data : Bytes) (s : Scan σ) :
    ∃ reply : HookReply, (hook H name data s).1 = (reply.rc == 0) ∧
      (hook H name data s).2.p = s.p.replied reply := by
  unfold hook
  split
  · exact ⟨_, rfl, rfl⟩
  · exact ⟨{}, rfl, by simp [Parser.replied]⟩

theorem hook_state (H : Hooks σ) (name : HookName) (data : Bytes) (s : Scan σ) :
    (hook H name data s).2.p.state = if (hook H name data s).1 then s.p.state else .error := by
  obtain ⟨reply, ok, replied⟩ := hook_replied H name data s
  rw [ok, replied]
  by_cases accepted : reply.rc = 0 <;> simp [Parser.replied, Parser.fail, accepted]

theorem hook_state_or_error (H : Hooks σ) (name : HookName) (data : Bytes) (s : Scan σ) :
    (hook H name data s).2.p.state = s.p.state ∨ (hook H name data s).2.p.state = .error := by
  rw [hook_state]
  split
  · exact .inl rfl
  · exact .inr rfl

theorem Silent.refl (p : Parser) : Silent p p := ⟨rfl, rfl, rfl, rfl, .inl rfl, .inl rfl⟩

theorem Silent.fail (p : Parser) (error : ParseError) : Silent p (p.fail error) :=
  ⟨rfl, rfl, rfl, rfl, .inr (ParserState.leads_error p.state), .inr rfl⟩

theorem noteConnection_keeps [Htstring] (flags : ParserFlags) (value : Bytes) :
    (noteConnection flags value).paused = flags.paused ∧ (noteConnection flags value).haveHost = flags.haveHost := by
  unfold noteConnection
  refine List.foldlRecOn _ _ (motive := fun (seen : ParserFlags) =>
    seen.paused = flags.paused ∧ seen.haveHost = flags.haveHost) ?_ ?_
  · exact ⟨rfl, rfl⟩
  · intro seen kept token _
    unfold noteToken
    split
    · exact kept
    · split <;> exact kept

theorem noteTransferEncoding_keeps [Htstring] (flags : ParserFlags) (value : Bytes) :
    (noteTransferEncoding flags value).paused = flags.paused ∧
      (noteTransferEncoding flags value).haveHost = flags.haveHost := by
  unfold noteTransferEncoding
  refine List.foldlRecOn _ _ (motive := fun (seen : ParserFlags) =>
    seen.paused = flags.paused ∧ seen.haveHost = flags.haveHost) ?_ ?_
  · exact ⟨rfl, rfl⟩
  · intro seen kept coding _
    unfold noteCoding
    split <;> exact kept

theorem noteContentType_keeps [Htstring] (flags : ParserFlags) (name value : Bytes) :
    (noteContentType flags name value).paused = flags.paused ∧
      (noteContentType flags name value).haveHost = flags.haveHost := by
  unfold noteContentType
  split <;> exact ⟨rfl, rfl⟩

structure Checked (p : Parser) (result : Bool × Parser) : Prop where
  silent : Silent p result.2
  state : result.2.state = if result.1 then p.state else .error

theorem Checked.error_eq {result : Bool × Parser} (checked : Checked p result) (ok : result.1 = true)
    (alive : p.state ≠ .error) : result.2.error = p.error := by
  have stays := checked.state
  rw [if_pos ok] at stays
  exact checked.silent.error.resolve_right fun failed => alive (stays.symm.trans failed)

theorem Checked.trans {first second : Bool × Parser} (one : Checked p first) (ok : first.1 = true)
    (two : Checked first.2 second) : Checked p second := by
  have stays : first.2.state = p.state := by rw [one.state, if_pos ok]
  refine ⟨⟨two.silent.config.trans one.silent.config, two.silent.type.trans one.silent.type,
    two.silent.paused.trans one.silent.paused, two.silent.haveHost.trans one.silent.haveHost, ?_, ?_⟩, ?_⟩
  · rw [← stays]
    exact two.silent.state
  · rcases two.silent.error with same | failed
    · rcases one.silent.error with same' | failed'
      · exact .inl (same.trans same')
      · refine .inr ?_
        rw [two.state, failed']
        exact ite_self _
    · exact .inr failed
  · rw [two.state, stays]

theorem noteLengths_keeps (any : Bool) (p : Parser) (elements : List Bytes) :
    Checked p (noteLengths any p elements) := by
  have failed : Checked p (false, p.fail .invalHdr) := ⟨.fail p _, rfl⟩
  induction elements generalizing any p with
  | nil =>
    unfold noteLengths
    split
    · exact ⟨.refl p, rfl⟩
    · exact failed
  | cons element rest ih =>
    unfold noteLengths
    split
    · exact failed
    · next n _ =>
      split
      · exact failed
      · have noted : Checked p (true, { p with origContentLen := n, flags := { p.flags with haveCl := true } }) :=
          ⟨⟨rfl, rfl, rfl, rfl, .inl rfl, .inl rfl⟩, rfl⟩
        exact noted.trans rfl (ih true _ ⟨.fail _ _, rfl⟩)

theorem setFlags_checked {flags : ParserFlags}
    (kept : flags.paused = p.flags.paused ∧ flags.haveHost = p.flags.haveHost) :
    Checked p (true, p.setFlags flags) :=
  ⟨⟨rfl, rfl, kept.1, kept.2, .inl rfl, .inl rfl⟩, rfl⟩

theorem noteField_checked [Htstring] (name value : Bytes) (p : Parser) : Checked p (noteField name value p) := by
  have same : Checked p (true, p) := ⟨.refl p, rfl⟩
  unfold noteField
  split
  · split
    · exact setFlags_checked (noteConnection_keeps p.flags value)
    · exact same
  · exact setFlags_checked (noteContentType_keeps p.flags name value)
  · split
    · exact noteLengths_keeps false p (Htstring.elements value)
    · exact same
  · split
    · exact setFlags_checked (noteTransferEncoding_keeps p.flags value)
    · exact same
  · exact same

theorem framing_checked (p : Parser) : Checked p (framing p) := by
  have failed : Checked p (false, p.fail .invalHdr) := ⟨.fail p _, rfl⟩
  have framed : ∀ body, Checked p
      (true, { p with body, contentLen := if body = .length then p.origContentLen else 0, chunk := .size }) :=
    fun body => ⟨⟨rfl, rfl, rfl, rfl, .inl rfl, .inl rfl⟩, rfl⟩
  unfold framing
  dsimp only
  split
  · exact framed _
  · split
    · exact framed _
    · split
      · split
        · exact failed
        · split
          · exact failed
          · exact framed _
      · split
        · exact framed _
        · split <;> exact framed _

theorem skipByte_checked (p : Parser) (byte : UInt8) : Checked p (skipByte p byte) := by
  unfold skipByte
  dsimp only
  split
  · split
    · exact ⟨⟨rfl, rfl, rfl, rfl, .inr (ParserState.leads_error p.state), .inr rfl⟩, rfl⟩
    · exact ⟨⟨rfl, rfl, rfl, rfl, .inl rfl, .inl rfl⟩, rfl⟩
  · exact ⟨.refl p, rfl⟩

theorem skipEmptyLines_checked (p : Parser) (data : Bytes) : Checked p (skipEmptyLines p data).1 := by
  induction data generalizing p with
  | nil => exact ⟨.refl p, rfl⟩
  | cons byte rest ih =>
    unfold skipEmptyLines
    split
    · dsimp only
      split
      · next ok => exact (skipByte_checked p byte).trans ok (ih _)
      · exact skipByte_checked p byte
    · exact ⟨.refl p, rfl⟩

theorem SameTurn.intro {R : Parser → σ → τ → Prop} (held : R p s t) (used : Nat) :
    SameTurn R (⟨p, s⟩, used) (⟨p, t⟩, used) := ⟨rfl, rfl, held⟩

variable {H : Hooks σ} {H' : Hooks τ} {R : Parser → σ → τ → Prop}

theorem Agree.turn {state first second} (agree : Agree R state first second) (used : Nat) :
    SameTurn R (first.2, used) (second.2, used) := ⟨rfl, agree.parser, agree.held⟩

theorem Agree.done (held : R p s t) : Agree R p.state (true, ⟨p, s⟩) (true, ⟨p, t⟩) :=
  ⟨rfl, rfl, held, rfl⟩

theorem Agree.elim {state first second} (agree : Agree R state first second) :
    ∃ ok p s t, first = (ok, ⟨p, s⟩) ∧ second = (ok, ⟨p, t⟩) ∧ R p s t ∧
      p.state = if ok then state else .error := by
  obtain ⟨ok, ⟨p, s⟩⟩ := first
  obtain ⟨ok', ⟨p', t⟩⟩ := second
  obtain ⟨same, parser, held, reached⟩ := agree
  cases same
  cases parser
  exact ⟨ok, p, s, t, rfl, rfl, held, reached⟩

theorem SameTurn.elim {first second} (same : SameTurn R first second) :
    ∃ p s t used, first = (⟨p, s⟩, used) ∧ second = (⟨p, t⟩, used) ∧ R p s t := by
  obtain ⟨⟨p, s⟩, used⟩ := first
  obtain ⟨⟨p', t⟩, used'⟩ := second
  obtain ⟨count, parser, held⟩ := same
  cases count
  cases parser
  exact ⟨p, s, t, used, rfl, rfl, held⟩

namespace StagedRules

variable {R : Stage → Parser → σ → τ → Prop} (rules : StagedRules H H' R)
include rules

theorem fail {stage stage' : Stage} (held : R stage p s t) (error : ParseError)
    (state : ParserState) : Agree (R stage') state (Scan.fail ⟨p, s⟩ error) (Scan.fail ⟨p, t⟩ error) :=
  ⟨rfl, rfl, rules.failed (rules.silent held (.fail p error)) rfl, rfl⟩

theorem called (name : HookName) (data : Bytes) {state : ParserState}
    (held : R name.before p s t) (here : p.state = state) (fires : Fires p name) :
    Agree (R name.after) state (hook H name data ⟨p, s⟩) (hook H' name data ⟨p, t⟩) :=
  here ▸ rules.calls name data fires held

theorem andThen {stage stage' : Stage} {state : ParserState} {first : Bool × Scan σ} {second : Bool × Scan τ}
    {next : Scan σ → Bool × Scan σ} {next' : Scan τ → Bool × Scan τ} (agree : Agree (R stage) state first second)
    (rest : ∀ p s t, R stage p s t → p.state = state → Agree (R stage') state (next ⟨p, s⟩) (next' ⟨p, t⟩)) :
    Agree (R stage') state (Evhtp.andThen first next) (Evhtp.andThen second next') := by
  obtain ⟨ok, p, s, t, rfl, rfl, held, reached⟩ := agree.elim
  unfold Evhtp.andThen
  cases ok with
  | true => simpa using rest p s t held reached
  | false => exact ⟨rfl, rfl, rules.failed held reached, reached⟩

variable {p : Parser} {s : σ} {t : τ}

theorem setScheme {stage : Stage} (held : R stage p s t) (scheme : HtpScheme) : R stage { p with scheme } s t :=
  rules.silent held ⟨rfl, rfl, rfl, rfl, .inl rfl, .inl rfl⟩

theorem emitHostPort (uri : ParsedUri) (held : R .line p s t) (here : p.state = .headLine) :
    Agree (R .line) .headLine (emitHostPort H uri ⟨p, s⟩) (emitHostPort H' uri ⟨p, t⟩) := by
  refine rules.andThen (rules.called .host uri.host held here here) fun p s t held here => ?_
  have stay : Agree (R .line) .headLine (true, ⟨p, s⟩) (true, ⟨p, t⟩) := here ▸ .done held
  split
  · split
    · exact rules.called .port _ held here here
    · exact stay
  · exact stay

theorem emitOriginForm (target : Bytes) (held : R .line p s t) (here : p.state = .headLine) :
    Agree (R .target) .headLine (emitOriginForm H target ⟨p, s⟩) (emitOriginForm H' target ⟨p, t⟩) := by
  unfold Evhtp.emitOriginForm
  dsimp only [Scan.setScheme]
  refine rules.andThen (rules.called .path _ (rules.setScheme held .none) here here) fun p s t held here => ?_
  refine rules.andThen (?_ : Agree (R .target) .headLine _ _) fun p s t held here => rules.called .uri _ held here here
  split
  · exact here ▸ .done held
  · exact rules.called .args _ held here here

theorem parseStatusLine (line : Bytes) (held : R .line p s t) (here : p.state = .headLine)
    (response : p.type = .response) :
    Agree (R .target) .headLine (parseStatusLine line (⟨p, s⟩ : Scan σ)) (parseStatusLine line (⟨p, t⟩ : Scan τ)) := by
  have held := rules.status response here held
  unfold Evhtp.parseStatusLine
  split
  · exact rules.fail held _ _
  · split
    · exact rules.fail held _ _
    · next major minor _ =>
      have known : R .target { p with major, minor } s t := rules.silent held ⟨rfl, rfl, rfl, rfl, .inl rfl, .inl rfl⟩
      dsimp only
      split
      · split
        · next d1 d2 d3 _ _ _ =>
          have known' : R .target { p with major, minor, status := digitVal d1 * 100 + digitVal d2 * 10 + digitVal d3 } s t :=
            rules.silent known ⟨rfl, rfl, rfl, rfl, .inl rfl, .inl rfl⟩
          split
          · exact rules.fail known' _ _
          · exact ⟨rfl, rfl, known', here⟩
        · exact rules.fail known _ _
      · exact rules.fail known _ _

theorem skipIfAsked {state : ParserState} {first : Bool × Scan σ} {second : Bool × Scan τ}
    (place : state = .body ∨ state = .complete) (agree : Agree (R .line) state first second) :
    SameTurn (R .line) (skipIfAsked first, 0) (skipIfAsked second, 0) := by
  obtain ⟨ok, p, s, t, rfl, rfl, held, reached⟩ := agree.elim
  unfold Evhtp.skipIfAsked
  dsimp only
  split
  · next asked =>
    rw [if_pos asked.1] at reached
    have skipped : R .line { p with body := .none, state := .complete } s t := by
      refine rules.silent held ⟨rfl, rfl, rfl, rfl, ?_, .inl rfl⟩
      rcases place with rfl | rfl <;> rw [reached] <;> simp [ParserState.leads]
    exact .intro skipped 0
  · exact .intro held 0

theorem endHead (held : R .line p s t) (here : p.state = .headers) (paused : p.flags.paused = false) :
    SameTurn (R .line) (endHead H ⟨p, s⟩, 0) (endHead H' ⟨p, t⟩, 0) := by
  have checked := framing_checked p
  have held' := rules.silent held checked.silent
  unfold Evhtp.endHead
  dsimp only
  split
  · next ok =>
    have stays : (framing p).2.state = .headers := by
      rw [checked.state, if_pos ok, here]
    have place : (framing p).2.headDone.state = .body ∨ (framing p).2.headDone.state = .complete := by
      unfold Parser.headDone
      dsimp only
      split <;> simp
    have moved : R .line (framing p).2.headDone s t := by
      refine rules.silent held' ⟨rfl, rfl, rfl, rfl, .inr ?_, .inl rfl⟩
      rcases place with state | state <;> rw [state, stays] <;> rfl
    refine rules.skipIfAsked place (rules.called .onHdrsComplete [] moved rfl ⟨place, ?_⟩)
    exact checked.silent.paused.trans paused
  · exact .intro held' 0

theorem countDelimited (n : Nat) {first : Bool × Scan σ} {second : Bool × Scan τ} (agree : Agree (R .line) .body first second) :
    SameTurn (R .line) (countDelimited n first, n) (countDelimited n second, n) := by
  obtain ⟨ok, p, s, t, rfl, rfl, held, reached⟩ := agree.elim
  unfold Evhtp.countDelimited
  dsimp only
  split
  · next accepted =>
    rw [if_pos accepted.1] at reached
    have counted : R .line { p with
        contentLen := p.contentLen - n
        state := if p.contentLen - n = 0 then .complete else p.state } s t := by
      refine rules.silent held ⟨rfl, rfl, rfl, rfl, ?_, .inl rfl⟩
      simp only [reached]
      split <;> simp [ParserState.leads]
    exact .intro counted n
  · exact .intro held n

theorem parseDelimited (data : Bytes) (held : R .line p s t) (here : p.state = .body)
    (paused : p.flags.paused = false) :
    SameTurn (R .line) (parseDelimited H data ⟨p, s⟩) (parseDelimited H' data ⟨p, t⟩) := by
  refine rules.countDelimited (p.delimitedPiece data) ?_
  dsimp only
  split
  · exact rules.called .body _ held here ⟨here, paused⟩
  · exact here ▸ .done held

theorem parseSizeLine (data : Bytes) (held : R .line p s t) (here : p.state = .body) (paused : p.flags.paused = false) :
    SameTurn (R .line) (parseSizeLine H data ⟨p, s⟩) (parseSizeLine H' data ⟨p, t⟩) := by
  unfold Evhtp.parseSizeLine
  dsimp only
  split
  · exact .intro held 0
  · exact (rules.fail held .tooBig .error).turn 0
  · next used _ =>
    split
    · exact (rules.fail held .invalChunkSz .error).turn used
    · next size _ =>
      split
      · have moved : R .line { p with state := .trailers, headerCount := 0 } s t :=
          rules.silent held ⟨rfl, rfl, rfl, rfl, .inr (by rw [here]; rfl), .inl rfl⟩
        exact (rules.called .onChunksComplete [] moved rfl ⟨rfl, paused⟩).turn used
      · have moved : R .line { p with contentLen := size, origContentLen := size, chunk := .data } s t :=
          rules.silent held ⟨rfl, rfl, rfl, rfl, .inl rfl, .inl rfl⟩
        exact (rules.called .onNewChunk [] moved here ⟨here, paused⟩).turn used

theorem parseChunkData (data : Bytes) (held : R .line p s t) (here : p.state = .body) (paused : p.flags.paused = false) :
    SameTurn (R .line) (parseChunkData H data ⟨p, s⟩) (parseChunkData H' data ⟨p, t⟩) := by
  unfold Evhtp.parseChunkData
  dsimp only
  generalize p.chunkPiece data = n
  obtain ⟨ok, q, s', t', first, second, held', reached⟩ :=
    (rules.called .body (data.take n) held here ⟨here, paused⟩).elim
  rw [first, second]
  unfold Evhtp.countChunk
  dsimp only
  split
  · have counted : R .line { q with
        contentLen := q.contentLen - n
        chunk := if q.contentLen - n = 0 then .dataEnd else q.chunk } s' t' :=
      rules.silent held' ⟨rfl, rfl, rfl, rfl, .inl rfl, .inl rfl⟩
    exact .intro counted n
  · exact .intro held' n

theorem parseChunkEnd (data : Bytes) (held : R .line p s t) (here : p.state = .body) (paused : p.flags.paused = false) :
    SameTurn (R .line) (parseChunkEnd H data ⟨p, s⟩) (parseChunkEnd H' data ⟨p, t⟩) := by
  have refused : SameTurn (R .line) ((Scan.fail ⟨p, s⟩ .invalChunk).2, 0) ((Scan.fail ⟨p, t⟩ .invalChunk).2, 0) :=
    (rules.fail held .invalChunk .error).turn 0
  unfold Evhtp.parseChunkEnd
  dsimp only
  split
  · split
    · exact .intro held 0
    · exact refused
  · exact refused
  · next used _ =>
    split
    · exact refused
    · have moved : R .line { p with chunk := .size } s t :=
        rules.silent held ⟨rfl, rfl, rfl, rfl, .inl rfl, .inl rfl⟩
      exact (rules.called .onChunkComplete [] moved here ⟨here, paused⟩).turn used

theorem parseBody (data : Bytes) (held : R .line p s t) (here : p.state = .body) (paused : p.flags.paused = false) :
    SameTurn (R .line) (parseBody H data ⟨p, s⟩) (parseBody H' data ⟨p, t⟩) := by
  unfold Evhtp.parseBody
  dsimp only
  split
  · exact rules.parseDelimited data held here paused
  · exact rules.parseDelimited data held here paused
  · split
    · exact rules.parseSizeLine data held here paused
    · exact rules.parseChunkData data held here paused
    · exact rules.parseChunkEnd data held here paused
  · have moved : R .line { p with state := .complete } s t :=
      rules.silent held ⟨rfl, rfl, rfl, rfl, .inr (by rw [here]; rfl), .inl rfl⟩
    exact .intro moved 0

variable [Htstring]

theorem emitAbsoluteForm (target : Bytes) (uri : ParsedUri) (held : R .line p s t) (here : p.state = .headLine) :
    Agree (R .target) .headLine (emitAbsoluteForm H target uri ⟨p, s⟩) (emitAbsoluteForm H' target uri ⟨p, t⟩) := by
  have known := rules.setScheme held (schemeFrom uri.scheme)
  unfold Evhtp.emitAbsoluteForm
  dsimp only
  split
  · exact rules.fail known _ _
  · refine rules.andThen (rules.called .scheme _ known here here) fun p s t held here => ?_
    refine rules.andThen (rules.emitHostPort uri held here) fun p s t held here => ?_
    refine rules.andThen (rules.called .path _ held here here) fun p s t held here => ?_
    refine rules.andThen (?_ : Agree (R .target) .headLine _ _) fun p s t held here => rules.called .uri _ held here here
    split
    · exact rules.called .args _ held here here
    · exact here ▸ .done held

theorem emitTarget (target : Bytes) (held : R .line p s t) (here : p.state = .headLine) :
    Agree (R .target) .headLine (emitTarget H target ⟨p, s⟩) (emitTarget H' target ⟨p, t⟩) := by
  unfold Evhtp.emitTarget
  split
  · exact rules.emitOriginForm target held here
  · split
    · exact rules.andThen (rules.called .path _ (rules.setScheme held .none) here here)
        fun p s t held here => rules.called .uri _ held here here
    · dsimp only
      split
      · exact rules.fail held _ _
      · split
        · refine rules.andThen (rules.emitHostPort _ (rules.setScheme held .none) here) fun p s t held here => ?_
          exact rules.andThen (rules.called .path _ held here here)
            fun p s t held here => rules.called .uri _ held here here
        · exact rules.emitAbsoluteForm target _ held here

theorem parseRequestLine (line : Bytes) (held : R .line p s t) (here : p.state = .headLine) :
    Agree (R .target) .headLine (parseRequestLine H line ⟨p, s⟩) (parseRequestLine H' line ⟨p, t⟩) := by
  have known : R .line { p with method := methodFrom (nextToken line).1 } s t :=
    rules.silent held ⟨rfl, rfl, rfl, rfl, .inl rfl, .inl rfl⟩
  unfold Evhtp.parseRequestLine
  dsimp only
  split
  · exact rules.fail known _ _
  · split
    · exact rules.fail known _ _
    · split
      · exact rules.fail known _ _
      · refine rules.andThen (rules.called .method _ ?_ here here)
          fun p s t held here => rules.emitTarget _ held here
        exact rules.silent known ⟨rfl, rfl, rfl, rfl, .inl rfl, .inl rfl⟩

theorem noteHeader (name value : Bytes) (held : R .value p s t) (here : p.state = .headers) :
    Agree (R .value) .headers (noteHeader H name value ⟨p, s⟩) (noteHeader H' name value ⟨p, t⟩) := by
  unfold Evhtp.noteHeader
  split
  · split
    · next fresh => exact rules.host value here fresh.1 held
    · exact here ▸ .done held
  · have noted := noteField_checked name value p
    exact ⟨rfl, rfl, rules.silent held noted.silent, noted.state.trans (here ▸ rfl)⟩

theorem parseHeader (line : Bytes) (trailer : Bool) (held : R .line p s t)
    (here : p.state = if trailer then .trailers else .headers) (paused : p.flags.paused = false) :
    Agree (R .line) p.state (parseHeader H line trailer ⟨p, s⟩) (parseHeader H' line trailer ⟨p, t⟩) := by
  unfold Evhtp.parseHeader
  dsimp only
  have place : p.state = .headers ∨ p.state = .trailers := by
    rw [here]
    cases trailer <;> simp
  split
  · exact rules.fail held _ _
  · split
    · exact rules.fail held _ _
    · refine rules.andThen (rules.called .hdrKey _ held rfl ⟨place, paused⟩) fun q s t held same => ?_
      refine rules.andThen (?_ : Agree (R .value) p.state _ _) fun q s t held same =>
        rules.called .hdrVal _ held same (by simpa only [Fires, same])
      cases trailer with
      | true => exact same ▸ .done held
      | false =>
        rw [if_neg (by simp)] at here
        rw [here] at same ⊢
        exact rules.noteHeader _ _ held same

theorem parseStartLine (line : Bytes) (held : R .line p s t) (here : p.state = .headLine) :
    Agree (R .target) .headLine (parseStartLine H line ⟨p, s⟩) (parseStartLine H' line ⟨p, t⟩) := by
  unfold Evhtp.parseStartLine
  dsimp only
  split
  · exact rules.parseRequestLine line held here
  · next response => exact rules.parseStatusLine line held here response

theorem parseHeadLine (line : Bytes) (held : R .line p s t) (here : p.state.inHead = true)
    (paused : p.flags.paused = false) :
    SameTurn (R .line) (parseHeadLine H line ⟨p, s⟩, 0) (parseHeadLine H' line ⟨p, t⟩, 0) := by
  unfold Evhtp.parseHeadLine
  dsimp only
  split
  · next atLine =>
    have agree := rules.parseStartLine line held atLine
    obtain ⟨ok, q, s', t', first, second, held', reached⟩ := agree.elim
    rw [first, second]
    cases ok with
    | false => exact .intro (rules.failed held' reached) 0
    | true =>
      have moved : R .target { q with state := .headers } s' t' := by
        refine rules.silent held' ⟨rfl, rfl, rfl, rfl, .inr ?_, .inl rfl⟩
        rw [reached]
        rfl
      exact (rules.called .onHdrsBegin [] moved rfl rfl).turn 0
  · split
    · split
      · next atEnd =>
        have moved : R .line { p with state := .complete } s t := by
          refine rules.silent held ⟨rfl, rfl, rfl, rfl, .inr ?_, .inl rfl⟩
          rw [atEnd]
          rfl
        exact .intro moved 0
      · next notLine _ notEnd =>
        refine rules.endHead held ?_ paused
        simpa [ParserState.inHead, notLine, notEnd] using here
    · split
      · exact (rules.fail held .tooBig .error).turn 0
      · next notLine _ _ =>
        have counted : R .line p.countHeader s t :=
          rules.silent held ⟨rfl, rfl, rfl, rfl, .inl rfl, .inl rfl⟩
        refine (rules.parseHeader line _ counted ?_ paused).turn 0
        change p.state = _
        rcases (by simpa [ParserState.inHead, notLine] using here : p.state = .headers ∨ p.state = .trailers)
          with atHeaders | atTrailers
        · simp [atHeaders]
        · simp [atTrailers]

theorem parseHeadLoop (fuel : Nat) (data : Bytes) (held : R .line p s t) :
    SameTurn (R .line) (parseHeadLoop H fuel data ⟨p, s⟩) (parseHeadLoop H' fuel data ⟨p, t⟩) := by
  induction fuel generalizing data p s t with
  | zero => exact .intro held 0
  | succ fuel ih =>
    unfold Evhtp.parseHeadLoop
    dsimp only
    split
    · next ready =>
      split
      · exact .intro held 0
      · exact (rules.fail held .tooBig .error).turn 0
      · next content used _ =>
        obtain ⟨q, s', t', _, first, second, held'⟩ := (rules.parseHeadLine content held ready.1 ready.2).elim
        rw [Prod.mk.injEq] at first second
        rw [first.1, second.1]
        have later := ih (data.drop used) held'
        exact ⟨by rw [later.used], later.parser, later.held⟩
    · exact .intro held 0

omit [Htstring] in
theorem underway : StagedRules H H' fun stage p s t =>
    R stage p s t ∧ (stage ≠ .idle → stage ≠ .done → p.state ≠ .start) := by
  have inside : ∀ name : HookName, name.before ≠ .idle ∧ name.before ≠ .done := by
    intro name
    cases name <;> simp [HookName.before]
  have reached : ∀ {stage state} {first : Bool × Scan σ} {second : Bool × Scan τ}, Agree (R stage) state first second →
      state ≠ .start → Agree (fun p s t => R stage p s t ∧ (stage ≠ .idle → stage ≠ .done → p.state ≠ .start))
        state first second := by
    intro stage state first second agree elsewhere
    refine ⟨agree.ok, agree.parser, ⟨agree.held, fun _ _ => ?_⟩, agree.state⟩
    rw [agree.state]
    split
    · exact elsewhere
    · simp
  exact {
    silent := by
      intro stage p p' s t held silent
      refine ⟨rules.silent held.1 silent, fun notIdle notDone start => ?_⟩
      have before := held.2 notIdle notDone
      rcases silent.state with same | leads
      · exact before (same.symm.trans start)
      · rw [start] at leads
        cases state : p.state <;> simp [state, ParserState.leads] at leads
    failed := fun held failed => ⟨rules.failed held.1 failed, fun _ _ => by simp [failed]⟩
    status := fun response here held => ⟨rules.status response here held.1, fun _ _ => by simp [here]⟩
    begins := fun here paused held => reached (rules.begins here paused held.1) (by simp)
    host := fun value here fresh held => reached (rules.host value here fresh held.1) (by simp)
    completes := fun here paused held => by
      have agree := rules.completes here paused held.1
      exact ⟨agree.ok, agree.parser, ⟨agree.held, fun _ notDone => absurd rfl notDone⟩, agree.state⟩
    calls := fun name data fires held =>
      reached (rules.calls name data fires held.1) (held.2 (inside name).1 (inside name).2) }

/-- After a run the message is underway, none has begun, or it was reported. -/
theorem runLoop (fuel : Nat) (data : Bytes) (held : R p.state.stage p s t) :
    SameTurn (fun p s t => R p.state.stage p s t ∨ R .done p s t)
      (runLoop H fuel data ⟨p, s⟩) (runLoop H' fuel data ⟨p, t⟩) := by
  suffices under : ∀ {Q : Stage → Parser → σ → τ → Prop}, StagedRules H H' Q →
      (∀ {p s t}, Q .line p s t → p.state ≠ .start) → ∀ {p s t}, Q p.state.stage p s t →
        SameTurn (fun p s t => Q p.state.stage p s t ∨ Q .done p s t)
          (Evhtp.runLoop H fuel data ⟨p, s⟩) (Evhtp.runLoop H' fuel data ⟨p, t⟩) by
    have held' : R p.state.stage p s t ∧ (p.state.stage ≠ .idle → p.state.stage ≠ .done → p.state ≠ .start) := by
      refine ⟨held, fun notIdle _ start => ?_⟩
      rw [start] at notIdle
      exact notIdle rfl
    have same := under rules.underway (fun held => held.2 (by simp) (by simp)) held'
    exact ⟨same.used, same.parser, same.held.imp And.left And.left⟩
  clear held rules
  intro Q rules begun p s t held
  have stage : ∀ {q : Parser} {s' : σ} {t' : τ}, Q .line q s' t' → Q q.state.stage q s' t' := by
    intro q s' t' held
    have := begun held
    cases state : q.state <;> simp_all [ParserState.stage]
  induction fuel generalizing data p s t with
  | zero => exact .intro (.inl held) 0
  | succ fuel ih =>
    have advance : ∀ {turn : Scan σ × Nat} {turn' : Scan τ × Nat}, SameTurn (Q .line) turn turn' →
        SameTurn (fun p s t => Q p.state.stage p s t ∨ Q .done p s t)
          (if turn.2 = 0 ∧ turn.1.p.state.needsData then turn
            else ((Evhtp.runLoop H fuel (data.drop turn.2) turn.1).1,
              turn.2 + (Evhtp.runLoop H fuel (data.drop turn.2) turn.1).2))
          (if turn'.2 = 0 ∧ turn'.1.p.state.needsData then turn'
            else ((Evhtp.runLoop H' fuel (data.drop turn'.2) turn'.1).1,
              turn'.2 + (Evhtp.runLoop H' fuel (data.drop turn'.2) turn'.1).2)) := by
      intro turn turn' same
      obtain ⟨q, s', t', used, rfl, rfl, held'⟩ := same.elim
      dsimp only
      split
      · exact .intro (.inl (stage held')) used
      · have later := ih (data.drop used) (stage held')
        exact ⟨by rw [later.used], later.parser, later.held⟩
    unfold Evhtp.runLoop
    dsimp only
    split
    · exact .intro (.inl held) 0
    · next runs =>
      have paused : p.flags.paused = false := by simpa using fun flag => runs (.inr flag)
      split
      · next here =>
        rw [here] at held
        have checked := skipEmptyLines_checked p data
        have skipped : Q .idle (skipEmptyLines p data).1.2 s t := rules.silent held checked.silent
        split
        · refine .intro (.inl ?_) _
          by_cases ok : (skipEmptyLines p data).1.1 = true
          · rwa [checked.state, if_pos ok, here]
          · exact rules.failed skipped (by rw [checked.state, if_neg ok])
        · next more =>
          have atStart : (skipEmptyLines p data).1.2.state = .start := by
            rw [checked.state, if_pos (by simpa using fun many => more (.inl many)), here]
          obtain ⟨q, s', t', _, first, second, held'⟩ :=
            ((rules.begins atStart (checked.silent.paused.trans paused) skipped).turn 0).elim
          rw [Prod.mk.injEq] at first second
          unfold beginMessage
          rw [first.1, second.1]
          have later := ih (data.drop (skipEmptyLines p data).2) (stage held')
          exact ⟨by rw [later.used], later.parser, later.held⟩
      · next here => exact advance (rules.parseHeadLoop _ data (by rwa [here] at held))
      · next here => exact advance (rules.parseHeadLoop _ data (by rwa [here] at held))
      · next here => exact advance (rules.parseHeadLoop _ data (by rwa [here] at held))
      · next here =>
        split
        · exact .intro (.inl held) 0
        · exact advance (rules.parseBody data (by rwa [here] at held) here paused)
      · next here =>
        rw [here] at held
        have same := (rules.completes here paused held).turn 0
        exact ⟨same.used, same.parser, .inr same.held⟩
      · exact .intro (.inl held) 0

end StagedRules

theorem runLoop_stopped [Htstring] (H : Hooks σ) (fuel : Nat) (data : Bytes) {s : Scan σ} (stops : s.p.state = .error ∨ s.p.flags.paused = true) :
    runLoop H fuel data s = (s, 0) := by
  cases fuel with
  | zero => rfl
  | succ fuel =>
    unfold runLoop
    exact if_pos stops

theorem HookRules.runLoop [Htstring] (rules : HookRules H H' R) (fuel : Nat) (data : Bytes)
    (held : R p s t) : SameTurn R (runLoop H fuel data ⟨p, s⟩) (runLoop H' fuel data ⟨p, t⟩) := by
  have same := rules.staged.runLoop fuel data held
  exact ⟨same.used, same.parser, same.held.elim id id⟩

theorem Agree.symm {state first second} (agree : Agree R state first second) :
    Agree (fun p t s => R p s t) state second first :=
  ⟨agree.ok.symm, agree.parser.symm, agree.parser ▸ agree.held, by rw [← agree.parser, ← agree.ok, agree.state]⟩

theorem HookRules.symm (rules : HookRules H H' R) : HookRules H' H fun p t s => R p s t where
  silent held silent := rules.silent held silent
  begins here paused held := (rules.begins here paused held).symm
  host value here fresh held := (rules.host value here fresh held).symm
  completes here paused held := (rules.completes here paused held).symm
  calls name data fires held := (rules.calls name data fires held).symm

/-- An invariant of the parser and the hooks' state, for one set of hooks and each stage of a message. -/
structure StagedInvariant (H : Hooks σ) (I : Stage → Parser → σ → Prop) : Prop where
  silent : ∀ {stage p p' s}, I stage p s → Silent p p' → I stage p' s
  failed : ∀ {stage stage' p s}, I stage p s → p.state = .error → I stage' p s
  status : ∀ {p s}, p.type = .response → p.state = .headLine → I .line p s → I .target p s
  begins : ∀ {p s}, p.state = .start → p.flags.paused = false → I .idle p s →
    I .line (hook H .onMsgBegin [] ⟨p.begin, s⟩).2.p (hook H .onMsgBegin [] ⟨p.begin, s⟩).2.user
  host : ∀ {p s} value, p.state = .headers → p.flags.haveHost = false → I .value p s →
    I .value (hook H .hostname value ⟨p.sawHost, s⟩).2.p (hook H .hostname value ⟨p.sawHost, s⟩).2.user
  completes : ∀ {p s}, p.state = .complete → p.flags.paused = false → I .line p s →
    I .done (hook H .onMsgComplete [] ⟨p.finish, s⟩).2.p (hook H .onMsgComplete [] ⟨p.finish, s⟩).2.user
  calls : ∀ {p s} name data, Fires p name → I name.before p s →
    I name.after (hook H name data ⟨p, s⟩).2.p (hook H name data ⟨p, s⟩).2.user

theorem StagedInvariant.rules {I : Stage → Parser → σ → Prop} (invariant : StagedInvariant H I) :
    StagedRules H H fun stage p s t => s = t ∧ I stage p s where
  silent held silent := ⟨held.1, invariant.silent held.2 silent⟩
  failed held failed := ⟨held.1, invariant.failed held.2 failed⟩
  status response here held := ⟨held.1, invariant.status response here held.2⟩
  begins here paused held := by
    obtain ⟨rfl, held⟩ := held
    exact ⟨rfl, rfl, ⟨rfl, invariant.begins here paused held⟩, hook_state H _ _ _⟩
  host value here fresh held := by
    obtain ⟨rfl, held⟩ := held
    exact ⟨rfl, rfl, ⟨rfl, invariant.host value here fresh held⟩, (hook_state H _ _ _).trans (here ▸ rfl)⟩
  completes here paused held := by
    obtain ⟨rfl, held⟩ := held
    exact ⟨rfl, rfl, ⟨rfl, invariant.completes here paused held⟩, hook_state H _ _ _⟩
  calls name data fires held := by
    obtain ⟨rfl, held⟩ := held
    exact ⟨rfl, rfl, ⟨rfl, invariant.calls name data fires held⟩, hook_state H _ _ _⟩

/-- What every hook keeps, and no silent change of the parser breaks, holds after a run. -/
theorem StagedInvariant.runLoop [Htstring] {I : Stage → Parser → σ → Prop} (invariant : StagedInvariant H I)
    (fuel : Nat) (data : Bytes) {s : Scan σ} (held : I s.p.state.stage s.p s.user) :
    I (runLoop H fuel data s).1.p.state.stage (runLoop H fuel data s).1.p (runLoop H fuel data s).1.user ∨
      I .done (runLoop H fuel data s).1.p (runLoop H fuel data s).1.user :=
  (invariant.rules.runLoop fuel data ⟨rfl, held⟩).held.imp And.right And.right

theorem ParserState.stage_of_ne_start {state : ParserState} (inside : state ≠ .start) : state.stage = .line := by
  cases state with
  | start => exact absurd rfl inside
  | headLine | headers | body | trailers | complete | error => rfl

/-- A run begins and ends between two messages or within one, unless it ends with a message. -/
theorem StagedInvariant.runs [Htstring] {I : Stage → Parser → σ → Prop} (invariant : StagedInvariant H I) (fuel : Nat)
    (data : Bytes) {s : Scan σ} (idle : s.p.state = .start → I .idle s.p s.user) (line : s.p.state ≠ .start → I .line s.p s.user) :
    ((Evhtp.runLoop H fuel data s).1.p.state = .start ∧
        I .idle (Evhtp.runLoop H fuel data s).1.p (Evhtp.runLoop H fuel data s).1.user) ∨
      ((Evhtp.runLoop H fuel data s).1.p.state ≠ .start ∧
        I .line (Evhtp.runLoop H fuel data s).1.p (Evhtp.runLoop H fuel data s).1.user) ∨
      I .done (Evhtp.runLoop H fuel data s).1.p (Evhtp.runLoop H fuel data s).1.user := by
  have held : I s.p.state.stage s.p s.user := by
    by_cases start : s.p.state = .start
    · exact start ▸ idle start
    · exact ParserState.stage_of_ne_start start ▸ line start
  rcases invariant.runLoop fuel data held with known | gone
  · by_cases start : (Evhtp.runLoop H fuel data s).1.p.state = .start
    · rw [start] at known
      exact .inl ⟨start, known⟩
    · rw [ParserState.stage_of_ne_start start] at known
      exact .inr (.inl ⟨start, known⟩)
  · exact .inr (.inr gone)

structure HookInvariant (H : Hooks σ) (I : Parser → σ → Prop) : Prop where
  silent : ∀ {p p' s}, I p s → Silent p p' → I p' s
  begins : ∀ {p s}, p.state = .start → p.flags.paused = false → I p s →
    I (hook H .onMsgBegin [] ⟨p.begin, s⟩).2.p (hook H .onMsgBegin [] ⟨p.begin, s⟩).2.user
  host : ∀ {p s} value, p.state = .headers → p.flags.haveHost = false → I p s →
    I (hook H .hostname value ⟨p.sawHost, s⟩).2.p (hook H .hostname value ⟨p.sawHost, s⟩).2.user
  completes : ∀ {p s}, p.state = .complete → p.flags.paused = false → I p s →
    I (hook H .onMsgComplete [] ⟨p.finish, s⟩).2.p (hook H .onMsgComplete [] ⟨p.finish, s⟩).2.user
  calls : ∀ {p s} name data, Fires p name → I p s →
    I (hook H name data ⟨p, s⟩).2.p (hook H name data ⟨p, s⟩).2.user

theorem HookInvariant.staged {I : Parser → σ → Prop} (invariant : HookInvariant H I) : StagedInvariant H fun _ => I where
  silent := invariant.silent
  failed held _ := held
  status _ _ held := held
  begins := invariant.begins
  host := invariant.host
  completes := invariant.completes
  calls := invariant.calls

theorem HookInvariant.rules {I : Parser → σ → Prop} (invariant : HookInvariant H I) :
    HookRules H H fun p s t => s = t ∧ I p s where
  silent held silent := ⟨held.1, invariant.silent held.2 silent⟩
  begins := invariant.staged.rules.begins
  host := invariant.staged.rules.host
  completes := invariant.staged.rules.completes
  calls := invariant.staged.rules.calls

theorem HookInvariant.runLoop [Htstring] {I : Parser → σ → Prop} (invariant : HookInvariant H I)
    (fuel : Nat) (data : Bytes) {s : Scan σ} (held : I s.p s.user) :
    I (runLoop H fuel data s).1.p (runLoop H fuel data s).1.user :=
  (invariant.staged.runLoop fuel data held).elim id id

theorem hook_config (H : Hooks σ) (name : HookName) (data : Bytes) (s : Scan σ) :
    (hook H name data s).2.p.config = s.p.config := by
  obtain ⟨reply, _, replied⟩ := hook_replied H name data s
  rw [replied]
  unfold Parser.replied
  dsimp only
  split <;> rfl

theorem HookInvariant.config (H : Hooks σ) (config : Http1config) : HookInvariant H fun p _ => p.config = config where
  silent same silent := silent.config.trans same
  begins _ _ same := (hook_config H _ _ _).trans same
  host _ _ _ same := (hook_config H _ _ _).trans same
  completes _ _ same := (hook_config H _ _ _).trans same
  calls _ _ _ same := (hook_config H _ _ _).trans same

theorem HookInvariant.running (quiet : ∀ event p s, (H.call event p s).1.pause = false) :
    HookInvariant H fun p _ => p.flags.paused = false := by
  have kept : ∀ name data (s : Scan σ), s.p.flags.paused = false → (hook H name data s).2.p.flags.paused = false := by
    intro name data s running
    unfold hook
    split
    · by_cases accepted : (H.call ⟨name, data⟩ s.p s.user).1.rc = 0 <;>
        simp [Parser.replied, Parser.fail, accepted, quiet, running]
    · exact running
  exact {
    silent := fun running silent => silent.paused.trans running
    begins := fun _ _ running => kept _ _ _ running
    host := fun _ _ _ running => kept _ _ _ running
    completes := fun _ _ running => kept _ _ _ running
    calls := fun _ _ _ running => kept _ _ _ running }

end

end Evhtp
