import Evhtp.Lib.Decoder
import Evhtp.Proofs.HookRules

/-! The parser as an incremental decoder. A turn is the smallest piece of work a run is made of: one
line of a head, one piece of a body, one byte between messages. A run is a path of turns that ends
where the parser fails, is paused, completes a message or waits for more bytes. -/

namespace Evhtp

section
variable [Htstring] {σ : Type} (H : Hooks σ)

def turnHead (s : Scan σ) (data : Bytes) : Option (Scan σ × Nat) :=
  match takeLine s.p.config.maxLineLength data with
  | .incomplete => none
  | .tooLong => some ((s.fail .tooBig).2, 0)
  | .line content used => some (parseHeadLine H content s, used)

def turnBody (s : Scan σ) (data : Bytes) : Option (Scan σ × Nat) :=
  if data = [] then none
  else if (parseBody H data s).2 = 0 ∧ (parseBody H data s).1.p.state = .body then none
  else some (parseBody H data s)

def turnStart (s : Scan σ) : Bytes → Option (Scan σ × Nat)
  | [] => none
  | byte :: _ =>
    if byte = CR ∨ byte = LF then some ({ s with p := (skipByte s.p byte).2 }, 1)
    else some (beginMessage H s, 0)

def turn (s : Scan σ) (data : Bytes) : Option (Scan σ × Nat) :=
  match s.p.state with
  | .start => turnStart H s data
  | .headLine | .headers | .trailers => turnHead H s data
  | .body => turnBody H s data
  | .complete => some (finishMessage H s, 0)
  | .error => none

inductive TurnTo (s : Scan σ) (data : Bytes) : Scan σ × Nat → Prop
  | skips {byte : UInt8} {rest : Bytes} : s.p.state = .start → data = byte :: rest → byte = CR ∨ byte = LF →
      TurnTo s data ({ s with p := (skipByte s.p byte).2 }, 1)
  | begins {byte : UInt8} {rest : Bytes} : s.p.state = .start → data = byte :: rest → ¬(byte = CR ∨ byte = LF) →
      TurnTo s data (beginMessage H s, 0)
  | tooLong : s.p.state.inHead = true → takeLine s.p.config.maxLineLength data = .tooLong →
      TurnTo s data ((s.fail .tooBig).2, 0)
  | line {content : Bytes} {used : Nat} : s.p.state.inHead = true →
      takeLine s.p.config.maxLineLength data = .line content used → TurnTo s data (parseHeadLine H content s, used)
  | body : s.p.state = .body → data ≠ [] →
      ¬((parseBody H data s).2 = 0 ∧ (parseBody H data s).1.p.state = .body) → TurnTo s data (parseBody H data s)
  | finishes : s.p.state = .complete → TurnTo s data (finishMessage H s, 0)

theorem turnHead_cases {s : Scan σ} {data : Bytes} {after : Scan σ × Nat} (here : s.p.state.inHead = true)
    (taken : turnHead H s data = some after) : TurnTo H s data after := by
  unfold turnHead at taken
  split at taken
  · cases taken
  · next long => cases taken; exact .tooLong here long
  · next found => cases taken; exact .line here found

theorem turn_cases {s : Scan σ} {data : Bytes} {after : Scan σ × Nat} (taken : turn H s data = some after) :
    TurnTo H s data after := by
  unfold turn at taken
  split at taken
  all_goals try rename_i here
  · unfold turnStart at taken
    split at taken
    · cases taken
    · split at taken
      · next blank => cases taken; exact .skips here rfl blank
      · next text => cases taken; exact .begins here rfl text
  · exact turnHead_cases H (by rw [here]; rfl) taken
  · exact turnHead_cases H (by rw [here]; rfl) taken
  · exact turnHead_cases H (by rw [here]; rfl) taken
  · unfold turnBody at taken
    split at taken
    · cases taken
    · next more =>
      split at taken
      · cases taken
      · next moved => cases taken; exact .body here more moved
  · cases taken
    exact .finishes here
  · cases taken

variable {H} in
theorem turn_alive {s : Scan σ} {data : Bytes} {after : Scan σ × Nat} (taken : turn H s data = some after) :
    s.p.state ≠ .error := by
  intro failed
  simp [turn, failed] at taken

variable {H} in
theorem turn_start {s : Scan σ} {data : Bytes} {after : Scan σ × Nat} (here : s.p.state = .start)
    (taken : turn H s data = some after) :
    (∃ byte, after = ({ s with p := (skipByte s.p byte).2 }, 1)) ∨ after = (beginMessage H s, 0) := by
  simp only [turn, here] at taken
  unfold turnStart at taken
  split at taken
  · cases taken
  · split at taken
    · exact .inl ⟨_, (Option.some.inj taken).symm⟩
    · exact .inr (Option.some.inj taken).symm

/-- A body that is being read has bytes to wait for. -/
structure Parser.Sane (p : Parser) : Prop where
  framed : p.state = .body → p.body ≠ .none
  pending : p.state = .body → p.body = .length → 0 < p.contentLen
  chunk : p.state = .body → p.body = .chunked → p.chunk = .data → 0 < p.contentLen

structure Parser.Underway (p : Parser) : Prop extends p.Sane where
  begun : p.state ≠ .start

structure Parser.Between (p : Parser) : Prop where
  sane : p.Sane
  running : p.flags.paused = false
  reported : p.state ≠ .complete

/-- A turn inside a run: the parser is not paused and the message is not complete yet. -/
def Within (before after : Scan σ × Bytes) : Prop :=
  before.1.p.flags.paused = false ∧ before.1.p.state ≠ .complete ∧ Decoder.Next (turn H) before after

/-- Where a run that has made its turns up to `last` ends, and in what. -/
inductive Ended (last : Scan σ) (rest : Bytes) : Scan σ → Prop
  | completed : last.p.state = .complete → last.p.flags.paused = false → Ended last rest (finishMessage H last)
  | failed : last.p.state = .error → Ended last rest last
  | paused : last.p.flags.paused = true → Ended last rest last
  | waiting : turn H last rest = none → Ended last rest last

/-- What the loop of `parse_head` comes to. -/
inductive HeadLoop : Bytes → Scan σ → Scan σ × Nat → Prop
  | leaves {data s} (stops : ¬(s.p.state.inHead = true ∧ s.p.flags.paused = false)) : HeadLoop data s (s, 0)
  | incomplete {data s} (enters : s.p.state.inHead = true ∧ s.p.flags.paused = false)
      (none : takeLine s.p.config.maxLineLength data = .incomplete) : HeadLoop data s (s, 0)
  | tooLong {data s} (enters : s.p.state.inHead = true ∧ s.p.flags.paused = false)
      (long : takeLine s.p.config.maxLineLength data = .tooLong) : HeadLoop data s ((s.fail .tooBig).2, 0)
  | line {data s content used rest} (enters : s.p.state.inHead = true ∧ s.p.flags.paused = false)
      (taken : takeLine s.p.config.maxLineLength data = .line content used)
      (more : HeadLoop (data.drop used) (parseHeadLine H content s) rest) : HeadLoop data s (rest.1, used + rest.2)

/-- A piece of a message inside the loop of `htparser_run`. -/
inductive Piece (data : Bytes) (s : Scan σ) : Scan σ × Nat → Prop
  | head {turn} (here : s.p.state.inHead = true) (loop : HeadLoop H data s turn) : Piece data s turn
  | body (here : s.p.state = .body) (some : data ≠ []) : Piece data s (parseBody H data s)

/-- What the loop of `htparser_run` comes to. -/
inductive RunLoop : Bytes → Scan σ → Scan σ × Nat → Prop
  | leaves {data s} (stops : s.p.state = .error ∨ s.p.flags.paused = true) : RunLoop data s (s, 0)
  | blank {data s} (runs : s.p.flags.paused = false) (here : s.p.state = .start)
      (stops : (skipEmptyLines s.p data).1.1 = false ∨ data.length ≤ (skipEmptyLines s.p data).2) :
      RunLoop data s (⟨(skipEmptyLines s.p data).1.2, s.user⟩, (skipEmptyLines s.p data).2)
  | begins {data s rest} (runs : s.p.flags.paused = false) (here : s.p.state = .start)
      (text : ¬((skipEmptyLines s.p data).1.1 = false ∨ data.length ≤ (skipEmptyLines s.p data).2))
      (more : RunLoop (data.drop (skipEmptyLines s.p data).2) (beginMessage H ⟨(skipEmptyLines s.p data).1.2, s.user⟩) rest) :
      RunLoop data s (rest.1, (skipEmptyLines s.p data).2 + rest.2)
  | empty {s} (runs : s.p.flags.paused = false) (here : s.p.state = .body) : RunLoop [] s (s, 0)
  | completes {data s} (runs : s.p.flags.paused = false) (here : s.p.state = .complete) :
      RunLoop data s (finishMessage H s, 0)
  | waits {data s turn} (runs : s.p.flags.paused = false) (piece : Piece H data s turn)
      (none : turn.2 = 0 ∧ turn.1.p.state.needsData = true) : RunLoop data s turn
  | goes {data s turn rest} (runs : s.p.flags.paused = false) (piece : Piece H data s turn)
      (some : ¬(turn.2 = 0 ∧ turn.1.p.state.needsData = true)) (more : RunLoop (data.drop turn.2) turn.1 rest) :
      RunLoop data s (rest.1, turn.2 + rest.2)

structure RunSpec (s : Scan σ) (data : Bytes) (result : Scan σ × Nat) : Prop where
  within : result.2 ≤ data.length
  path : ∃ last, Relation.ReflTransGen (Within H) (s, data) (last, data.drop result.2) ∧
    Ended H last (data.drop result.2) result.1

end

theorem skipEmptyLines_next {p : Parser} {data : Bytes} (ok : (skipEmptyLines p data).1.1 = true)
    (more : (skipEmptyLines p data).2 < data.length) :
    ∃ byte rest, data.drop (skipEmptyLines p data).2 = byte :: rest ∧ ¬(byte = CR ∨ byte = LF) := by
  induction data generalizing p with
  | nil => simp [skipEmptyLines] at more
  | cons byte rest ih =>
    unfold skipEmptyLines at ok more ⊢
    by_cases blank : byte = CR ∨ byte = LF
    · by_cases accepted : (skipByte p byte).1 = true
      · simp only [blank, accepted, if_true] at ok more ⊢
        exact ih ok (by simpa using more)
      · simp [blank, accepted] at ok
    · exact ⟨byte, rest, by simp [blank], blank⟩

theorem takeLine_append {max : Nat} {data content : Bytes} {used : Nat} (more : Bytes)
    (taken : takeLine max data = .line content used) : takeLine max (data ++ more) = .line content used := by
  unfold takeLine at taken ⊢
  dsimp only at taken ⊢
  split at taken
  · split at taken <;> cases taken
  · next short =>
    have same : (data ++ more).takeWhile (· != LF) = data.takeWhile (· != LF) := by
      rw [List.takeWhile_append, if_neg short]
    have longer : ¬(data.takeWhile (· != LF)).length = (data ++ more).length := by
      have := (List.takeWhile_prefix (l := data) (· != LF)).length_le
      rw [List.length_append]
      omega
    rw [same, if_neg longer]
    exact taken

theorem takeLine_used {max : Nat} {data content : Bytes} {used : Nat}
    (taken : takeLine max data = .line content used) : 0 < used ∧ used ≤ data.length := by
  unfold takeLine at taken
  dsimp only at taken
  split at taken
  · split at taken <;> cases taken
  · split at taken
    · cases taken
    · next short _ =>
      cases taken
      have := (List.takeWhile_prefix (l := data) (· != LF)).length_le
      omega

section
variable {σ : Type} (H : Hooks σ)
variable {s : Scan σ} {p : Parser} {data : Bytes}

theorem Parser.Sane.of_state (elsewhere : p.state ≠ .body) : p.Sane :=
  ⟨fun body => absurd body elsewhere, fun body => absurd body elsewhere, fun body => absurd body elsewhere⟩

theorem htparserInit_between (p : Htparser) (type : HtpType) : (htparserInit p type).Between :=
  ⟨.of_state (by simp [htparserInit, messageReset]), rfl, by simp [htparserInit, messageReset]⟩

theorem Parser.Underway.of_state (elsewhere : p.state ≠ .body ∧ p.state ≠ .start) : p.Underway :=
  ⟨.of_state elsewhere.1, elsewhere.2⟩

@[simp]
theorem Parser.replied_body (p : Parser) (reply : HookReply) : (p.replied reply).body = p.body := by
  unfold Parser.replied
  dsimp only
  split <;> rfl

@[simp]
theorem Parser.replied_contentLen (p : Parser) (reply : HookReply) :
    (p.replied reply).contentLen = p.contentLen := by
  unfold Parser.replied
  dsimp only
  split <;> rfl

theorem Parser.Sane.replied (sane : p.Sane) (reply : HookReply) : (p.replied reply).Sane := by
  by_cases accepted : reply.rc = 0
  · obtain ⟨framed, pending, chunk⟩ := sane
    constructor <;> simpa [Parser.replied, accepted]
  · exact .of_state (by simp [Parser.replied, accepted, Parser.fail])

theorem hook_sane {name : HookName} (sane : s.p.Sane) : (hook H name data s).2.p.Sane := by
  obtain ⟨reply, _, replied⟩ := hook_replied H name data s
  rw [replied]
  exact sane.replied reply

theorem hook_underway {name : HookName} (underway : s.p.Underway) : (hook H name data s).2.p.Underway := by
  refine ⟨hook_sane H underway.toSane, ?_⟩
  rw [hook_state]
  split
  · exact underway.begun
  · simp

/-- The rules with nothing to keep: what any hooks leave of the parser's state. -/
theorem rules_any : HookRules H H fun _ s t => s = t where
  silent held _ := held
  begins _ _ held := by
    cases held
    exact ⟨rfl, rfl, rfl, hook_state H _ _ _⟩
  host _ here _ held := by
    cases held
    exact ⟨rfl, rfl, rfl, (hook_state H _ _ _).trans (here ▸ rfl)⟩
  completes _ _ held := by
    cases held
    exact ⟨rfl, rfl, rfl, hook_state H _ _ _⟩
  calls _ _ _ held := by
    cases held
    exact ⟨rfl, rfl, rfl, hook_state H _ _ _⟩

theorem framing_sane (ok : (framing p).1 = true) :
    ((framing p).2.body = .length → 0 < (framing p).2.contentLen) ∧ (framing p).2.chunk = .size := by
  unfold framing at ok ⊢
  dsimp only at ok ⊢
  grind

theorem endHead_underway (s : Scan σ) : (endHead H s).p.Underway := by
  unfold endHead
  split
  · next ok =>
    have framed := framing_sane ok
    have done : (framing s.p).2.headDone.Underway := by
      refine ⟨⟨fun body none => ?_, fun _ => framed.1, fun _ _ data => ?_⟩, ?_⟩
      · have none : (framing s.p).2.body = .none := none
        simp [Parser.headDone, none] at body
      · exact absurd (framed.2.symm.trans data) (by simp)
      · unfold Parser.headDone
        dsimp only
        split <;> simp
    unfold skipIfAsked
    split
    · exact .of_state (by simp)
    · exact hook_underway H done
  · next failed =>
    refine .of_state ?_
    rw [(framing_checked s.p).state, if_neg failed]
    simp

theorem countDelimited_underway (n : Nat) {result : Bool × Scan σ} (underway : result.2.p.Underway) :
    (countDelimited n result).p.Underway := by
  unfold countDelimited
  split
  · next delimited =>
    by_cases left : result.2.p.contentLen - n = 0
    · exact .of_state (by simp [left])
    · refine ⟨⟨fun _ => by simp [delimited], fun _ _ => Nat.pos_of_ne_zero left, fun _ chunked => ?_⟩, ?_⟩
      · exact absurd (delimited.2.symm.trans chunked) (by simp)
      · simpa [left] using underway.begun
  · exact underway

theorem parseDelimited_underway (data : Bytes) (underway : s.p.Underway) :
    (parseDelimited H data s).1.p.Underway := by
  refine countDelimited_underway _ ?_
  split
  · exact hook_underway H underway
  · exact underway

theorem parseSizeLine_underway (data : Bytes) (chunked : s.p.body = .chunked) (underway : s.p.Underway) :
    (parseSizeLine H data s).1.p.Underway := by
  unfold parseSizeLine
  split
  · exact underway
  · exact .of_state (by simp [Scan.fail, Parser.fail])
  · split
    · exact .of_state (by simp [Scan.fail, Parser.fail])
    · next size _ =>
      dsimp only
      split
      · exact hook_underway H (.of_state (by simp))
      · next positive =>
        exact hook_underway H ⟨⟨fun _ => by simp [chunked], fun _ length => by simp [chunked] at length,
          fun _ _ _ => Nat.pos_of_ne_zero positive⟩, underway.begun⟩

theorem parseChunkData_underway (data : Bytes) (chunked : s.p.body = .chunked)
    (underway : s.p.Underway) : (parseChunkData H data s).1.p.Underway := by
  unfold parseChunkData
  dsimp only
  generalize s.p.chunkPiece data = n
  have kept : (hook H .body (data.take n) s).2.p.Underway := hook_underway H underway
  obtain ⟨reply, _, replied⟩ := hook_replied H .body (data.take n) s
  have chunked' : (hook H .body (data.take n) s).2.p.body = .chunked := by
    rw [replied, Parser.replied_body, chunked]
  generalize hook H .body (data.take n) s = result at kept chunked'
  unfold countChunk
  split
  · refine ⟨⟨fun _ => by simp [chunked'], fun _ length => by simp [chunked'] at length, fun _ _ more => ?_⟩, kept.begun⟩
    dsimp only at more ⊢
    split at more
    · cases more
    · next left => exact Nat.pos_of_ne_zero left
  · exact kept

theorem parseChunkEnd_underway (data : Bytes) (chunked : s.p.body = .chunked) (underway : s.p.Underway) :
    (parseChunkEnd H data s).1.p.Underway := by
  have refused : (s.fail .invalChunk).2.p.Underway := .of_state (by simp [Scan.fail, Parser.fail])
  unfold parseChunkEnd
  split
  · split
    · exact underway
    · exact refused
  · exact refused
  · split
    · exact refused
    · exact hook_underway H ⟨⟨fun _ => by simp [chunked], fun _ length => by simp [chunked] at length,
        fun _ _ data => by cases data⟩, underway.begun⟩

theorem parseBody_underway (data : Bytes) (underway : s.p.Underway) : (parseBody H data s).1.p.Underway := by
  unfold parseBody
  split
  · exact parseDelimited_underway H data underway
  · exact parseDelimited_underway H data underway
  · next chunked =>
    split
    · exact parseSizeLine_underway H data chunked underway
    · exact parseChunkData_underway H data chunked underway
    · exact parseChunkEnd_underway H data chunked underway
  · exact .of_state (by simp)

theorem parseBody_used (sane : s.p.Sane) (here : s.p.state = .body) (some : data ≠ []) :
    (parseBody H data s).2 ≤ data.length ∧
      ((parseBody H data s).2 = 0 → (parseBody H data s).1 = s ∨ (parseBody H data s).1.p.state = .error) := by
  have positive := List.length_pos_iff.mpr some
  unfold parseBody
  split
  · next length =>
    have pending := sane.pending here length
    unfold parseDelimited Parser.delimitedPiece
    dsimp only
    split <;> omega
  · next identity =>
    unfold parseDelimited Parser.delimitedPiece
    dsimp only
    rw [if_neg (by simp [identity])]
    omega
  · next chunked =>
    split
    · unfold parseSizeLine
      split
      · exact ⟨Nat.zero_le _, fun _ => .inl rfl⟩
      · exact ⟨Nat.zero_le _, fun _ => .inr rfl⟩
      · next taken =>
        have bounds := takeLine_used taken
        split
        · exact ⟨bounds.2, fun none => by simp_all⟩
        · dsimp only
          split <;> exact ⟨bounds.2, fun none => by simp_all⟩
    · next more =>
      have pending := sane.chunk here chunked more
      unfold parseChunkData Parser.chunkPiece
      dsimp only
      split <;> omega
    · unfold parseChunkEnd
      split
      · split
        · exact ⟨Nat.zero_le _, fun _ => .inl rfl⟩
        · exact ⟨Nat.zero_le _, fun _ => .inr rfl⟩
      · exact ⟨Nat.zero_le _, fun _ => .inr rfl⟩
      · next taken =>
        have bounds := takeLine_used taken
        split
        · exact ⟨Nat.zero_le _, fun _ => .inr rfl⟩
        · exact ⟨bounds.2, fun none => by simp_all⟩
  · next none => exact absurd none (sane.framed here)

variable [Htstring]
variable {s : Scan σ} {data : Bytes} {after : Scan σ × Nat}

theorem parseHeadLine_underway (line : Bytes) (here : s.p.state.inHead = true)
    (paused : s.p.flags.paused = false) : (parseHeadLine H line s).p.Underway := by
  have outside : s.p.state ≠ .body ∧ s.p.state ≠ .start := by
    constructor <;> intro state <;> simp [state, ParserState.inHead] at here
  unfold parseHeadLine
  dsimp only
  split
  · next atLine =>
    have reached := ((rules_any H).staged.parseStartLine line (s := s.user) rfl atLine).state
    split
    · exact hook_underway H (.of_state (by simp))
    · next failed =>
      rw [if_neg failed] at reached
      exact .of_state (by simp [reached])
  · split
    · split
      · exact .of_state (by simp)
      · exact endHead_underway H s
    · split
      · exact .of_state (by simp [Scan.fail, Parser.fail])
      · next notLine _ _ =>
        have place : s.p.state = if (s.p.state == .trailers) = true then .trailers else .headers := by
          split
          · simp_all
          · simp_all [ParserState.inHead]
        have reached := ((rules_any H).staged.parseHeader (p := s.p.countHeader)
          line (s.p.state == .trailers) (s := s.user) rfl place paused).state
        refine .of_state ?_
        rw [reached]
        split
        · exact outside
        · simp

theorem turn_used (sane : s.p.Sane)
    (taken : turn H s data = some after) :
    after.2 ≤ data.length ∧ (after.2 = 0 → s.p.state = .complete ∨
      s.p.state = .start ∧ after.1.p.state = .headLine ∨ after.1.p.state = .error) := by
  cases turn_cases H taken with
  | skips here shape => simp [shape]
  | begins here =>
    refine ⟨Nat.zero_le _, fun _ => .inr ?_⟩
    unfold beginMessage
    rw [hook_state]
    split
    · exact .inl ⟨here, rfl⟩
    · exact .inr rfl
  | tooLong => exact ⟨Nat.zero_le _, fun _ => .inr (.inr rfl)⟩
  | line _ found =>
    have bounds := takeLine_used found
    exact ⟨bounds.2, fun none => by simp_all⟩
  | body here more moved =>
    have used := parseBody_used H sane here more
    refine ⟨used.1, fun none => .inr (.inr ?_)⟩
    rcases used.2 none with same | failed
    · exact absurd ⟨none, by rw [same, here]⟩ moved
    · exact failed
  | finishes here => exact ⟨Nat.zero_le _, fun _ => .inl here⟩

theorem turn_underway (underway : s.p.Underway)
    (notDone : s.p.state ≠ .complete) (paused : s.p.flags.paused = false) (taken : turn H s data = some after) :
    after.1.p.Underway := by
  cases turn_cases H taken with
  | skips here => exact absurd here underway.begun
  | begins here => exact absurd here underway.begun
  | tooLong => exact .of_state (by simp [Scan.fail, Parser.fail])
  | line here => exact parseHeadLine_underway H _ here paused
  | body => exact parseBody_underway H data underway
  | finishes here => exact absurd here notDone

theorem turn_sane (sane : s.p.Sane)
    (paused : s.p.flags.paused = false) (taken : turn H s data = some after) : after.1.p.Sane := by
  cases turn_cases H taken with
  | @skips byte _ here =>
    refine .of_state ?_
    dsimp only
    rw [(skipByte_checked s.p byte).state, here]
    split <;> simp
  | begins => exact hook_sane H (.of_state (by simp [Parser.begin]))
  | tooLong => exact .of_state (by simp [Scan.fail, Parser.fail])
  | line here => exact (parseHeadLine_underway H _ here paused).toSane
  | body here => exact (parseBody_underway H data ⟨sane, by simp [here]⟩).toSane
  | finishes => exact hook_sane H (.of_state (by simp [Parser.finish]))

theorem path_keeps {I : Scan σ → Prop}
    (kept : ∀ {s data after}, I s → s.p.flags.paused = false → turn H s data = some after → I after.1)
    {before after : Scan σ × Bytes} (held : I before.1) (path : Relation.ReflTransGen (Within H) before after) :
    I after.1 := by
  induction path with
  | refl => exact held
  | tail _ within ih =>
    obtain ⟨paused, _, state, used, taken, rfl⟩ := within
    exact kept ih paused taken

theorem path_sane {before after : Scan σ × Bytes} (sane : before.1.p.Sane)
    (path : Relation.ReflTransGen (Within H) before after) : after.1.p.Sane :=
  path_keeps H (I := fun s => s.p.Sane) (turn_sane H) sane path

theorem path_underway {before after : Scan σ × Bytes} (underway : before.1.p.Underway)
    (path : Relation.ReflTransGen (Within H) before after) : after.1.p.Underway := by
  induction path with
  | refl => exact underway
  | tail _ within ih =>
    obtain ⟨paused, notDone, state, used, taken, rfl⟩ := within
    exact turn_underway H ih notDone paused taken

theorem skipEmptyLines_path (user : σ) (data : Bytes) (here : p.state = .start)
    (paused : p.flags.paused = false) :
    (skipEmptyLines p data).2 ≤ data.length ∧
      Relation.ReflTransGen (Within H) (⟨p, user⟩, data)
        (⟨(skipEmptyLines p data).1.2, user⟩, data.drop (skipEmptyLines p data).2) := by
  induction data generalizing p with
  | nil => exact ⟨Nat.le_refl _, .refl⟩
  | cons byte rest ih =>
    unfold skipEmptyLines
    split
    · next blank =>
      have checked := skipByte_checked p byte
      have first : Within H (⟨p, user⟩, byte :: rest) (⟨(skipByte p byte).2, user⟩, rest) := by
        refine ⟨paused, by simp [here], _, 1, ?_, rfl⟩
        simp [turn, here, turnStart, blank]
      dsimp only
      split
      · next ok =>
        have stays : (skipByte p byte).2.state = .start := by rw [checked.state, if_pos ok, here]
        have later := ih stays (checked.silent.paused.trans paused)
        exact ⟨Nat.succ_le_succ later.1, .head first later.2⟩
      · exact ⟨by simp, .single first⟩
    · exact ⟨Nat.zero_le _, .refl⟩

theorem turn_head (here : s.p.state.inHead = true) (data : Bytes) :
    turn H s data = turnHead H s data := by
  unfold turn
  cases state : s.p.state <;> simp_all [ParserState.inHead]

theorem parseHeadLoop_ends {fuel : Nat} (enough : data.length < fuel) :
    HeadLoop H data s (parseHeadLoop H fuel data s) := by
  induction fuel generalizing data s with
  | zero => omega
  | succ fuel ih =>
    unfold parseHeadLoop
    split
    · next enters =>
      split
      · next none => exact .incomplete enters none
      · next long => exact .tooLong enters long
      · next taken =>
        have bounds := takeLine_used taken
        refine .line enters taken (ih ?_)
        rw [List.length_drop]
        omega
    · next stops => exact .leaves stops

/-- The lines of a head that one call takes; it takes none only if it waits or fails. -/
theorem HeadLoop.path {turn : Scan σ × Nat} (loop : HeadLoop H data s turn) :
    turn.2 ≤ data.length ∧ Relation.ReflTransGen (Within H) (s, data) (turn.1, data.drop turn.2) ∧
      (s.p.state.inHead = true ∧ s.p.flags.paused = false → turn.2 = 0 →
        turn.1 = s ∧ Evhtp.turn H s data = none ∨ turn.1.p.state = .error) := by
  have undone {s : Scan σ} (here : s.p.state.inHead = true) : s.p.state ≠ .complete := by
    intro state
    simp [state, ParserState.inHead] at here
  induction loop with
  | leaves stops => exact ⟨Nat.zero_le _, .refl, fun enters => absurd enters stops⟩
  | incomplete enters none =>
    refine ⟨Nat.zero_le _, .refl, fun _ _ => .inl ⟨rfl, ?_⟩⟩
    rw [turn_head H enters.1, turnHead, none]
  | @tooLong data s enters long =>
    have failed : Within H (s, data) ((s.fail .tooBig).2, data) :=
      ⟨enters.2, undone enters.1, _, 0, by simp only [turn_head H enters.1, turnHead, long], rfl⟩
    exact ⟨Nat.zero_le _, .single failed, fun _ _ => .inr rfl⟩
  | @line data s content used rest enters taken _ ih =>
    have bounds := takeLine_used taken
    have first : Within H (s, data) (parseHeadLine H content s, data.drop used) :=
      ⟨enters.2, undone enters.1, _, used, by simp only [turn_head H enters.1, turnHead, taken], rfl⟩
    obtain ⟨within, path, _⟩ := ih
    rw [List.length_drop] at within
    rw [List.drop_drop] at path
    exact ⟨by dsimp only; omega, .head first path, fun _ none => by dsimp only at none; omega⟩

/-- A piece of a message is a path of turns; it takes nothing only if it waits or fails. -/
theorem Piece.path {turn : Scan σ × Nat} (piece : Piece H data s turn) (sane : s.p.Sane)
    (running : s.p.flags.paused = false) :
    turn.2 ≤ data.length ∧ Relation.ReflTransGen (Within H) (s, data) (turn.1, data.drop turn.2) ∧
      turn.1.p.Underway ∧
      (turn.2 = 0 → turn.1 = s ∧ Evhtp.turn H s data = none ∨ turn.1.p.state = .error) := by
  cases piece with
  | head here loop =>
    have begun : s.p.state ≠ .start := fun state => by simp [state, ParserState.inHead] at here
    obtain ⟨within, path, stuck⟩ := loop.path H
    exact ⟨within, path, path_underway H ⟨sane, begun⟩ path, stuck ⟨here, running⟩⟩
  | body here some =>
    have turns : Evhtp.turn H s data = turnBody H s data := by simp only [Evhtp.turn, here]
    have used := parseBody_used H sane here some
    refine ⟨used.1, ?_, parseBody_underway H data ⟨sane, by simp [here]⟩, fun none => ?_⟩
    · by_cases stays : (parseBody H data s).2 = 0 ∧ (parseBody H data s).1.p.state = .body
      · rcases used.2 stays.1 with same | failed
        · rw [same, stays.1, List.drop_zero]
        · exact absurd (stays.2.symm.trans failed) (by simp)
      · exact .single ⟨running, by simp [here], _, _, by simp only [turns, turnBody, some, stays, if_false], rfl⟩
    · refine (used.2 none).imp_left fun same => ⟨same, ?_⟩
      rw [turns, turnBody, if_neg some, if_pos ⟨none, by rw [same, here]⟩]

/-- How many more turns of the run loop a state can lead to without consuming a byte. -/
def ParserState.rank : ParserState → Nat
  | .start => 3
  | .headLine | .headers | .body | .trailers => 2
  | .complete => 1
  | .error => 0

theorem RunSpec.behind {middle : Scan σ} {used : Nat} {result : Scan σ × Nat}
    (bound : used ≤ data.length)
    (path : Relation.ReflTransGen (Within H) (s, data) (middle, data.drop used))
    (later : RunSpec H middle (data.drop used) result) : RunSpec H s data (result.1, used + result.2) := by
  obtain ⟨within, last, rest, ended⟩ := later
  rw [List.length_drop] at within
  rw [List.drop_drop] at rest ended
  exact ⟨by dsimp only; omega, last, path.trans rest, ended⟩

omit [Htstring] in
theorem piece_decreases {turn : Scan σ × Nat} (rank : s.p.state.rank = 2)
    (within : turn.2 ≤ data.length) (underway : turn.1.p.Underway)
    (stuck : turn.2 = 0 → turn.1 = s ∨ turn.1.p.state = .error)
    (moves : ¬(turn.2 = 0 ∧ turn.1.p.state.needsData = true)) :
    (data.drop turn.2).length + turn.1.p.state.rank < data.length + s.p.state.rank := by
  rw [List.length_drop]
  by_cases none : turn.2 = 0
  · rcases stuck none with same | failed
    · rw [same] at moves
      cases state : s.p.state <;> simp_all [ParserState.needsData, ParserState.inHead, ParserState.rank]
    · have : turn.1.p.state.rank = 0 := by rw [failed]; rfl
      omega
  · have : turn.1.p.state.rank ≤ 2 := by
      have := underway.begun
      cases state : turn.1.p.state <;> simp_all [ParserState.rank]
    omega

theorem runLoop_ends {fuel : Nat} (sane : s.p.Sane)
    (enough : data.length + s.p.state.rank < fuel) : RunLoop H data s (runLoop H fuel data s) := by
  induction fuel generalizing data s with
  | zero => omega
  | succ fuel ih =>
    unfold runLoop
    dsimp only
    split
    · next stops => exact .leaves stops
    · next runs =>
      have running : s.p.flags.paused = false := by simpa using fun flag => runs (.inr flag)
      have advance : ∀ turn : Scan σ × Nat, Piece H data s turn → s.p.state.rank = 2 →
          RunLoop H data s
            (if turn.2 = 0 ∧ turn.1.p.state.needsData then turn
              else ((runLoop H fuel (data.drop turn.2) turn.1).1,
                turn.2 + (runLoop H fuel (data.drop turn.2) turn.1).2)) := by
        intro turn piece rank
        obtain ⟨within, _, underway, stuck⟩ := piece.path H sane running
        split
        · next none => exact .waits running piece none
        · next moves =>
          have less := piece_decreases rank within underway (fun none => (stuck none).imp_left And.left) moves
          exact .goes running piece moves (ih underway.toSane (by omega))
      have head : s.p.state.inHead = true → s.p.state.rank = 2 → _ := fun here =>
        advance (parseHead H data s) (.head here (parseHeadLoop_ends H (Nat.lt_succ_self data.length)))
      split
      · next here =>
        split
        · next stops => exact .blank running here stops
        · next text =>
          have sane' : (beginMessage H ⟨(skipEmptyLines s.p data).1.2, s.user⟩).p.Sane :=
            hook_sane H (.of_state (by simp [Parser.begin]))
          refine .begins running here text (ih sane' ?_)
          have rank : (beginMessage H ⟨(skipEmptyLines s.p data).1.2, s.user⟩).p.state.rank ≤ 2 := by
            unfold beginMessage
            rw [hook_state]
            split <;> simp [Parser.begin, ParserState.rank]
          rw [here] at enough
          simp only [ParserState.rank] at enough
          rw [List.length_drop]
          omega
      · next here => exact head (by rw [here]; rfl) (by rw [here]; rfl)
      · next here => exact head (by rw [here]; rfl) (by rw [here]; rfl)
      · next here => exact head (by rw [here]; rfl) (by rw [here]; rfl)
      · next here =>
        split
        · next none =>
          subst none
          exact .empty running here
        · next some => exact advance _ (.body here some) (by rw [here]; rfl)
      · next here => exact .completes running here
      · next here => exact absurd (.inl here) runs

theorem RunLoop.spec {result : Scan σ × Nat} (loop : RunLoop H data s result)
    (sane : s.p.Sane) : RunSpec H s data result := by
  induction loop with
  | @leaves data s stops =>
    refine ⟨Nat.zero_le _, s, .refl, ?_⟩
    rcases stops with failed | paused
    · exact .failed failed
    · exact .paused paused
  | @blank data s running here stops =>
    have path := skipEmptyLines_path H s.user data here running
    have checked := skipEmptyLines_checked s.p data
    refine ⟨path.1, _, path.2, ?_⟩
    by_cases ok : (skipEmptyLines s.p data).1.1 = true
    · refine .waiting ?_
      have consumed : data.length ≤ (skipEmptyLines s.p data).2 := by simpa [ok] using stops
      simp only [turn, checked.state, ok, if_true, here, List.drop_eq_nil_of_le consumed, turnStart]
    · refine .failed ?_
      simp [checked.state, ok]
  | @begins data s rest running here text _ ih =>
    have path := skipEmptyLines_path H s.user data here running
    have checked := skipEmptyLines_checked s.p data
    have ok : (skipEmptyLines s.p data).1.1 = true := by simpa using fun many => text (.inl many)
    have left : (skipEmptyLines s.p data).2 < data.length := by simpa using fun none => text (.inr none)
    obtain ⟨byte, rest, front, text⟩ := skipEmptyLines_next ok left
    have stays : (skipEmptyLines s.p data).1.2.state = .start := by rw [checked.state, if_pos ok, here]
    have begins : Within H (⟨(skipEmptyLines s.p data).1.2, s.user⟩, data.drop (skipEmptyLines s.p data).2)
        (beginMessage H ⟨(skipEmptyLines s.p data).1.2, s.user⟩, data.drop (skipEmptyLines s.p data).2) := by
      refine ⟨checked.silent.paused.trans running, by simp [stays], _, 0, ?_, rfl⟩
      simp only [turn, stays, front, turnStart, text, if_false]
    exact .behind H path.1 (path.2.tail begins) (ih (hook_sane H (.of_state (by simp [Parser.begin]))))
  | @empty s running here =>
    refine ⟨Nat.zero_le _, s, .refl, .waiting ?_⟩
    simp only [turn, here, turnBody, List.drop_nil, if_true]
  | @completes data s running here => exact ⟨Nat.zero_le _, s, .refl, .completed here running⟩
  | @waits data s turn running piece none =>
    obtain ⟨within, path, _, stuck⟩ := piece.path H sane running
    rcases stuck none.1 with ⟨same, waits⟩ | failed
    · refine ⟨within, turn.1, path, .waiting ?_⟩
      rw [same, none.1]
      exact waits
    · simp [failed, ParserState.needsData, ParserState.inHead] at none
  | @goes data s turn rest running piece _ _ ih =>
    obtain ⟨within, path, underway, _⟩ := piece.path H sane running
    exact .behind H within path (ih underway.toSane)

theorem runLoop_spec {fuel : Nat} (sane : s.p.Sane)
    (enough : data.length + s.p.state.rank < fuel) : RunSpec H s data (runLoop H fuel data s) :=
  (runLoop_ends H sane enough).spec H sane

theorem run_spec (sane : s.p.Sane) (data : Bytes) : RunSpec H s data (runLoop H (runFuel data) data s) := by
  refine runLoop_spec H sane ?_
  cases s.p.state <;> simp [ParserState.rank, runFuel]

theorem run_keeps {I : Scan σ → Prop}
    (kept : ∀ {s data after}, I s → s.p.flags.paused = false → turn H s data = some after → I after.1)
    (sane : s.p.Sane) (data : Bytes) (held : I s) : I (runLoop H (runFuel data) data s).1 := by
  obtain ⟨_, last, path, ended⟩ := run_spec H sane data
  generalize runLoop H (runFuel data) data s = result at *
  obtain ⟨after, used⟩ := result
  have reached := path_keeps H kept held path
  cases ended with
  | completed done paused =>
    have taken : turn H last (data.drop used) = some (finishMessage H last, 0) := by simp only [turn, done]
    have finished : I (finishMessage H last) := kept reached paused taken
    exact finished
  | failed _ | paused _ | waiting _ => exact reached

/-- Without consuming a byte a run at most begins a message or fails. -/
theorem path_used {before after : Scan σ × Bytes} (sane : before.1.p.Sane)
    (path : Relation.ReflTransGen (Within H) before after) :
    after.2.length ≤ before.2.length ∧ (after.2.length = before.2.length →
      after.1 = before.1 ∨ after.1.p.state = .headLine ∨ after.1.p.state = .error) := by
  induction path with
  | refl => exact ⟨Nat.le_refl _, fun _ => .inl rfl⟩
  | tail path within ih =>
    obtain ⟨_, notDone, state, used, taken, rfl⟩ := within
    have bound := turn_used H (path_sane H sane path) taken
    dsimp only at bound ⊢
    rw [List.length_drop]
    refine ⟨by omega, fun same => .inr ?_⟩
    rcases bound.2 (by omega) with done | ⟨_, line⟩ | failed
    · exact absurd done notDone
    · exact .inl line
    · exact .inr failed

theorem path_steps {before after : Scan σ × Bytes} (path : Relation.ReflTransGen (Within H) before after) :
    Decoder.Steps (turn H) before after := Relation.ReflTransGen.mono (fun _ _ within => within.2.2) _ _ path

end

section
variable [Htstring] {σ τ : Type} {H : Hooks σ} {H' : Hooks τ} {R : Parser → σ → τ → Prop}

theorem HookRules.turn (rules : HookRules H H' R) {p : Parser} {s : σ} {t : τ} {data : Bytes} {after : Scan σ × Nat}
    (held : R p s t) (paused : p.flags.paused = false) (taken : turn H ⟨p, s⟩ data = some after) :
    ∃ after', Evhtp.turn H' ⟨p, t⟩ data = some after' ∧ SameTurn R after after' := by
  cases turn_cases H taken with
  | skips here shape blank =>
    refine ⟨_, ?_, .intro (rules.silent held (skipByte_checked p _).silent) 1⟩
    simp [Evhtp.turn, show p.state = .start from here, shape, turnStart, blank]
  | begins here shape text =>
    refine ⟨(beginMessage H' ⟨p, t⟩, 0), ?_, (rules.begins here paused held).turn 0⟩
    simp [Evhtp.turn, show p.state = .start from here, shape, turnStart, text]
  | tooLong here long =>
    refine ⟨_, ?_, .intro (rules.silent held (.fail p .tooBig)) 0⟩
    rw [turn_head H' here, turnHead, long]
    rfl
  | @line content used here found =>
    have same := rules.staged.parseHeadLine content held here paused
    refine ⟨(parseHeadLine H' content ⟨p, t⟩, used), ?_, rfl, same.parser, same.held⟩
    rw [turn_head H' here, turnHead, found]
  | body here more moves =>
    obtain ⟨q, s', t', used, first, second, held'⟩ := (rules.staged.parseBody data held here paused).elim
    rw [first] at moves ⊢
    refine ⟨_, ?_, .intro held' used⟩
    simp only [Evhtp.turn, show p.state = .body from here, turnBody, if_neg more, second, if_neg moves]
  | finishes here =>
    refine ⟨(finishMessage H' ⟨p, t⟩, 0), ?_, (rules.completes here paused held).turn 0⟩
    simp only [Evhtp.turn, show p.state = .complete from here]

theorem HookInvariant.turn {I : Parser → σ → Prop} (invariant : HookInvariant H I) {s : Scan σ} {data : Bytes}
    {after : Scan σ × Nat} (held : I s.p s.user) (paused : s.p.flags.paused = false)
    (taken : turn H s data = some after) : I after.1.p after.1.user := by
  obtain ⟨_, _, same⟩ := invariant.rules.turn ⟨rfl, held⟩ paused taken
  exact same.held.2

theorem HookInvariant.path {I : Parser → σ → Prop} (invariant : HookInvariant H I) {before after : Scan σ × Bytes}
    (held : I before.1.p before.1.user) (path : Relation.ReflTransGen (Within H) before after) :
    I after.1.p after.1.user :=
  path_keeps H (I := fun s => I s.p s.user) invariant.turn held path

/-- A run of hooks that never pause, as steps of the decoder. It ends where the parser waits, or with a message. -/
theorem runLoop_steps (quiet : ∀ event p s, (H.call event p s).1.pause = false) {s : Scan σ} (data : Bytes)
    (between : s.p.Between) :
    let result := runLoop H (runFuel data) data s
    result.1.p.Between ∧ result.2 ≤ data.length ∧ Decoder.Steps (turn H) (s, data) (result.1, data.drop result.2) ∧
      (result.2 = 0 → Decoder.Normal (turn H) (result.1, data)) := by
  have running := (HookInvariant.running quiet).runLoop (runFuel data) data between.running
  obtain ⟨within, last, path, ended⟩ := run_spec H between.sane data
  dsimp only
  generalize runLoop H (runFuel data) data s = result at *
  have sane := path_sane H between.sane path
  have steps := path_steps H path
  obtain ⟨after, used⟩ := result
  dsimp only at *
  have waits : turn H after (data.drop used) = none → after = last →
      after.p.Between ∧ used ≤ data.length ∧ Decoder.Steps (turn H) (s, data) (after, data.drop used) ∧
        (used = 0 → Decoder.Normal (turn H) (after, data)) := by
    rintro none rfl
    refine ⟨⟨sane, running, fun done => ?_⟩, within, steps, fun zero => ?_⟩
    · simp [turn, done] at none
    · rw [zero] at none
      exact none
  cases ended with
  | completed done _ =>
    have finish : Decoder.Next (turn H) (last, data.drop used) (finishMessage H last, data.drop used) :=
      ⟨_, 0, by simp only [turn, done], rfl⟩
    have state : (finishMessage H last).p.state = .start ∨ (finishMessage H last).p.state = .error := by
      unfold finishMessage
      rw [hook_state]
      split <;> simp [Parser.finish]
    refine ⟨⟨.of_state ?_, running, ?_⟩, within, steps.tail finish, fun zero => ?_⟩
    · rcases state with state | state <;> simp [state]
    · rcases state with state | state <;> simp [state]
    · rw [zero] at path
      rcases (path_used H between.sane path).2 rfl with same | line | failed
      · have same : last = s := same
        exact absurd (same ▸ done) between.reported
      · exact absurd (done.symm.trans line) (by simp)
      · exact absurd (done.symm.trans failed) (by simp)
  | failed failed => exact waits (by simp only [turn, failed]) rfl
  | paused paused => exact absurd (running.symm.trans paused) (by simp)
  | waiting none => exact waits none rfl

end

end Evhtp
