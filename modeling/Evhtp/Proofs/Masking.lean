import Evhtp.Proofs.Calls

/-! A turn of the parser looks neither at whether it is paused nor, once a message has begun, at the empty
lines before it. Hooks that do not look at them either cannot tell a paused parser from one that runs. -/

namespace Evhtp

/-- The same parser, running, with the count of empty lines put through `count`. -/
def Parser.mask (count : Nat → Nat) (p : Parser) : Parser :=
  { p with emptyLines := count p.emptyLines, flags := { p.flags with paused := false } }

section
variable {σ : Type} (count : Nat → Nat)

def Scan.mask (s : Scan σ) : Scan σ := { s with p := s.p.mask count }

def maskResult (result : Bool × Scan σ) : Bool × Scan σ := (result.1, result.2.mask count)

def Hooks.unpaused (H : Hooks σ) : Hooks σ where
  present := H.present
  call event p s := ({ (H.call event p s).1 with pause := false }, (H.call event p s).2)

/-- Hooks that do not look at what is masked. -/
def Hooks.Blind (H : Hooks σ) : Prop := ∀ event p s, H.call event (p.mask count) s = H.call event p s

variable {count} {H : Hooks σ} (blind : H.Blind count)

theorem Parser.mask_replied (p : Parser) (reply : HookReply) :
    (p.mask count).replied { reply with pause := false } = (p.replied reply).mask count := by
  unfold Parser.replied
  dsimp only
  split <;> rfl

theorem andThen_mask {first : Bool × Scan σ} {next next' : Scan σ → Bool × Scan σ}
    (same : ∀ s, next' (s.mask count) = maskResult count (next s)) :
    andThen (maskResult count first) next' = maskResult count (andThen first next) := by
  unfold andThen
  cases ok : first.1 with
  | true => simpa [maskResult, ok] using same first.2
  | false => simp [maskResult, ok]

section
include blind

theorem hook_mask (name : HookName) (data : Bytes) (s : Scan σ) :
    hook H.unpaused name data (s.mask count) = maskResult count (hook H name data s) := by
  unfold hook
  by_cases present : H.present name = true
  · simp only [Hooks.unpaused, present, if_true, Scan.mask, blind ⟨name, data⟩ s.p s.user, Parser.mask_replied]
    rfl
  · simp only [Hooks.unpaused, present]
    rfl

theorem emitHostPort_mask (uri : ParsedUri) (s : Scan σ) :
    emitHostPort H.unpaused uri (s.mask count) = maskResult count (emitHostPort H uri s) := by
  unfold emitHostPort
  rw [hook_mask blind]
  refine andThen_mask fun s => ?_
  split
  · split
    · exact hook_mask blind _ _ s
    · rfl
  · rfl

theorem emitOriginForm_mask (target : Bytes) (s : Scan σ) :
    emitOriginForm H.unpaused target (s.mask count) = maskResult count (emitOriginForm H target s) := by
  unfold emitOriginForm
  dsimp only
  rw [show (s.mask count).setScheme .none = (s.setScheme .none).mask count from rfl, hook_mask blind]
  refine andThen_mask fun s => ?_
  split
  · rw [show (true, s.mask count) = maskResult count (true, s) from rfl]
    exact andThen_mask fun s => hook_mask blind _ _ s
  · rw [hook_mask blind]
    exact andThen_mask fun s => hook_mask blind _ _ s

end

theorem parseStatusLine_mask (line : Bytes) (s : Scan σ) :
    parseStatusLine line (s.mask count) = maskResult count (parseStatusLine line s) := by
  unfold parseStatusLine
  dsimp only
  repeat' split
  all_goals rfl

theorem noteLengths_mask (any : Bool) (p : Parser) (elements : List Bytes) :
    noteLengths any (p.mask count) elements =
      ((noteLengths any p elements).1, (noteLengths any p elements).2.mask count) := by
  induction elements generalizing any p with
  | nil =>
    unfold noteLengths
    split <;> rfl
  | cons element rest ih =>
    unfold noteLengths
    split
    · rfl
    · next n _ =>
      by_cases differ : p.flags.haveCl = true ∧ n ≠ p.origContentLen
      · rw [if_pos differ]
        exact if_pos differ
      · rw [if_neg differ]
        refine (if_neg differ).trans ?_
        exact ih true { p with origContentLen := n, flags := { p.flags with haveCl := true } }

theorem framing_mask (p : Parser) : framing (p.mask count) = ((framing p).1, (framing p).2.mask count) := by
  change _ = (fun result : Bool × Parser => (result.1, result.2.mask count)) (framing p)
  unfold framing
  simp only [apply_ite (fun result : Bool × Parser => (result.1, result.2.mask count))]
  rfl

theorem skipByte_mask (p : Parser) (byte : UInt8) :
    skipByte (p.mask id) byte = ((skipByte p byte).1, (skipByte p byte).2.mask id) := by
  change _ = (fun result : Bool × Parser => (result.1, result.2.mask id)) (skipByte p byte)
  unfold skipByte
  simp only [apply_ite (fun result : Bool × Parser => (result.1, result.2.mask id))]
  rfl

theorem countDelimited_mask (n : Nat) (result : Bool × Scan σ) :
    countDelimited n (maskResult count result) = (countDelimited n result).mask count := by
  unfold countDelimited
  rw [apply_ite (Scan.mask count)]
  rfl

theorem countChunk_mask (n : Nat) (result : Bool × Scan σ) :
    countChunk n (maskResult count result) = (countChunk n result).mask count := by
  unfold countChunk
  rw [apply_ite (Scan.mask count)]
  rfl

theorem skipIfAsked_mask (result : Bool × Scan σ) :
    skipIfAsked (maskResult count result) = (skipIfAsked result).mask count := by
  unfold skipIfAsked
  rw [apply_ite (Scan.mask count)]
  rfl

def maskTurn (count : Nat → Nat) (result : Scan σ × Nat) : Scan σ × Nat := (result.1.mask count, result.2)

section
include blind

theorem endHead_mask (s : Scan σ) : endHead H.unpaused (s.mask count) = (endHead H s).mask count := by
  unfold endHead
  rw [show (s.mask count).p = s.p.mask count from rfl, framing_mask]
  split
  · rw [← skipIfAsked_mask, ← hook_mask blind]
    rfl
  · rfl

theorem parseDelimited_mask (data : Bytes) (s : Scan σ) :
    parseDelimited H.unpaused data (s.mask count) = maskTurn count (parseDelimited H data s) := by
  refine Prod.ext (.trans ?_ (countDelimited_mask _ _)) rfl
  refine congrArg (countDelimited (s.p.delimitedPiece data)) ?_
  rw [show (s.mask count).p.delimitedPiece data = s.p.delimitedPiece data from rfl]
  split
  · exact hook_mask blind _ _ s
  · rfl

theorem parseSizeLine_mask (data : Bytes) (s : Scan σ) :
    parseSizeLine H.unpaused data (s.mask count) = maskTurn count (parseSizeLine H data s) := by
  unfold parseSizeLine
  dsimp only [Scan.mask, Parser.mask]
  split
  · rfl
  · rfl
  · split
    · rfl
    · next size _ =>
      split
      · exact congrArg (fun result : Bool × Scan σ => (result.2, _))
          (hook_mask blind .onChunksComplete [] ⟨{ s.p with state := .trailers, headerCount := 0 }, s.user⟩)
      · exact congrArg (fun result : Bool × Scan σ => (result.2, _))
          (hook_mask blind .onNewChunk []
            ⟨{ s.p with contentLen := size, origContentLen := size, chunk := .data }, s.user⟩)

theorem parseChunkData_mask (data : Bytes) (s : Scan σ) :
    parseChunkData H.unpaused data (s.mask count) = maskTurn count (parseChunkData H data s) := by
  unfold parseChunkData
  dsimp only [maskTurn]
  rw [← countChunk_mask, ← hook_mask blind]
  rfl

theorem parseChunkEnd_mask (data : Bytes) (s : Scan σ) :
    parseChunkEnd H.unpaused data (s.mask count) = maskTurn count (parseChunkEnd H data s) := by
  unfold parseChunkEnd
  dsimp only [Scan.mask, Parser.mask]
  split
  · split <;> rfl
  · rfl
  · split
    · rfl
    · exact congrArg (fun result : Bool × Scan σ => (result.2, _))
        (hook_mask blind .onChunkComplete [] ⟨{ s.p with chunk := .size }, s.user⟩)

theorem parseBody_mask (data : Bytes) (s : Scan σ) :
    parseBody H.unpaused data (s.mask count) = maskTurn count (parseBody H data s) := by
  unfold parseBody
  rw [show (s.mask count).p.body = s.p.body from rfl, show (s.mask count).p.chunk = s.p.chunk from rfl]
  split
  · exact parseDelimited_mask blind data s
  · exact parseDelimited_mask blind data s
  · split
    · exact parseSizeLine_mask blind data s
    · exact parseChunkData_mask blind data s
    · exact parseChunkEnd_mask blind data s
  · rfl

theorem beginMessage_mask (zero : count 0 = 0) (s : Scan σ) :
    beginMessage H.unpaused (s.mask count) = (beginMessage H s).mask count := by
  have same : (s.mask count).p.begin = s.p.begin.mask count := by
    simp only [Parser.begin, messageReset, Parser.mask, Scan.mask, zero]
  unfold beginMessage
  rw [same]
  exact congrArg Prod.snd (hook_mask blind .onMsgBegin [] ⟨s.p.begin, s.user⟩)

theorem finishMessage_mask (s : Scan σ) : finishMessage H.unpaused (s.mask count) = (finishMessage H s).mask count :=
  congrArg Prod.snd (hook_mask blind .onMsgComplete [] ⟨s.p.finish, s.user⟩)

end

section
variable [Htstring]

def ParserFlags.running (flags : ParserFlags) : ParserFlags := { flags with paused := false }

theorem noteConnection_mask (flags : ParserFlags) (value : Bytes) :
    noteConnection flags.running value = (noteConnection flags value).running := by
  refine List.foldl_hom ParserFlags.running fun seen token => ?_
  unfold noteToken
  repeat' split
  all_goals rfl

theorem noteTransferEncoding_mask (flags : ParserFlags) (value : Bytes) :
    noteTransferEncoding flags.running value = (noteTransferEncoding flags value).running := by
  change (Htstring.elements value).foldl noteCoding (ParserFlags.running { flags with haveTe := true }) = _
  refine List.foldl_hom ParserFlags.running fun seen coding => ?_
  unfold noteCoding
  split <;> rfl

theorem noteContentType_mask (flags : ParserFlags) (name value : Bytes) :
    noteContentType flags.running name value = (noteContentType flags name value).running := by
  unfold noteContentType
  rw [apply_ite ParserFlags.running]
  rfl

theorem noteField_mask (name value : Bytes) (p : Parser) :
    noteField name value (p.mask count) = ((noteField name value p).1, (noteField name value p).2.mask count) := by
  have flags : ∀ {one two : ParserFlags}, one = two.running →
      (true, (p.mask count).setFlags one) = (true, (p.setFlags two).mask count) := by
    rintro _ two rfl
    rfl
  unfold noteField
  split
  · split
    · exact flags (noteConnection_mask p.flags value)
    · rfl
  · exact flags (noteContentType_mask p.flags name value)
  · split
    · exact noteLengths_mask false p _
    · rfl
  · split
    · exact flags (noteTransferEncoding_mask p.flags value)
    · rfl
  · rfl

include blind

theorem emitAbsoluteForm_mask (target : Bytes) (uri : ParsedUri) (s : Scan σ) :
    emitAbsoluteForm H.unpaused target uri (s.mask count) = maskResult count (emitAbsoluteForm H target uri s) := by
  unfold emitAbsoluteForm
  dsimp only
  split
  · rfl
  · rw [show (s.mask count).setScheme (schemeFrom uri.scheme) = (s.setScheme (schemeFrom uri.scheme)).mask count from rfl,
      hook_mask blind]
    refine andThen_mask fun s => ?_
    rw [emitHostPort_mask blind]
    refine andThen_mask fun s => ?_
    rw [hook_mask blind]
    refine andThen_mask fun s => ?_
    split
    · rw [hook_mask blind]
      exact andThen_mask fun s => hook_mask blind _ _ s
    · rw [show (true, s.mask count) = maskResult count (true, s) from rfl]
      exact andThen_mask fun s => hook_mask blind _ _ s

theorem emitTarget_mask (target : Bytes) (s : Scan σ) :
    emitTarget H.unpaused target (s.mask count) = maskResult count (emitTarget H target s) := by
  have plain : (s.mask count).setScheme .none = (s.setScheme .none).mask count := rfl
  unfold emitTarget
  split
  · exact emitOriginForm_mask blind target s
  · split
    · rw [plain, hook_mask blind]
      exact andThen_mask fun s => hook_mask blind _ _ s
    · rw [show (s.mask count).p.method = s.p.method from rfl]
      dsimp only
      split
      · rfl
      · split
        · rw [plain, emitHostPort_mask blind]
          refine andThen_mask fun s => ?_
          rw [hook_mask blind]
          exact andThen_mask fun s => hook_mask blind _ _ s
        · exact emitAbsoluteForm_mask blind target _ s

theorem parseRequestLine_mask (line : Bytes) (s : Scan σ) :
    parseRequestLine H.unpaused line (s.mask count) = maskResult count (parseRequestLine H line s) := by
  unfold parseRequestLine
  dsimp only
  split
  · rfl
  · split
    · rfl
    · split
      · rfl
      · next major minor _ =>
        refine .trans ?_ (andThen_mask fun s => emitTarget_mask blind _ s)
        exact congrArg (andThen · _) (hook_mask blind .method _
          ⟨{ s.p with method := methodFrom (nextToken line).1, major, minor }, s.user⟩)

theorem noteHeader_mask (name value : Bytes) (s : Scan σ) :
    noteHeader H.unpaused name value (s.mask count) = maskResult count (noteHeader H name value s) := by
  unfold noteHeader
  rw [show (s.mask count).p.flags.haveHost = s.p.flags.haveHost from rfl]
  split
  · split
    · exact hook_mask blind .hostname value ⟨s.p.sawHost, s.user⟩
    · rfl
  · dsimp only
    rw [show (s.mask count).p = s.p.mask count from rfl, noteField_mask]
    rfl

theorem parseHeader_mask (line : Bytes) (trailer : Bool) (s : Scan σ) :
    parseHeader H.unpaused line trailer (s.mask count) = maskResult count (parseHeader H line trailer s) := by
  unfold parseHeader
  dsimp only
  split
  · rfl
  · split
    · rfl
    · rw [hook_mask blind]
      refine andThen_mask fun s => ?_
      cases trailer with
      | true =>
        rw [if_pos rfl, if_pos rfl, show (true, s.mask count) = maskResult count (true, s) from rfl]
        exact andThen_mask fun s => hook_mask blind _ _ s
      | false =>
        rw [if_neg (by simp), if_neg (by simp), noteHeader_mask blind]
        exact andThen_mask fun s => hook_mask blind _ _ s

theorem parseHeadLine_mask (line : Bytes) (s : Scan σ) :
    parseHeadLine H.unpaused line (s.mask count) = (parseHeadLine H line s).mask count := by
  have start : parseStartLine H.unpaused line (s.mask count) = maskResult count (parseStartLine H line s) := by
    unfold parseStartLine
    rw [show (s.mask count).p.type = s.p.type from rfl]
    split
    · exact parseRequestLine_mask blind line s
    · exact parseStatusLine_mask line s
  unfold parseHeadLine
  rw [show (s.mask count).p.state = s.p.state from rfl]
  split
  · dsimp only
    rw [start, show (maskResult count (parseStartLine H line s)).1 = (parseStartLine H line s).1 from rfl]
    split
    · exact congrArg Prod.snd (hook_mask blind .onHdrsBegin []
        ⟨{ (parseStartLine H line s).2.p with state := .headers }, (parseStartLine H line s).2.user⟩)
    · rfl
  · split
    · split
      · rfl
      · exact endHead_mask blind s
    · rw [show (s.mask count).p.config = s.p.config from rfl,
        show (s.mask count).p.headerCount = s.p.headerCount from rfl]
      split
      · rfl
      · exact congrArg Prod.snd (parseHeader_mask blind line _ ⟨s.p.countHeader, s.user⟩)

theorem turn_mask (s : Scan σ) (data : Bytes) (zero : count 0 = 0) (counted : s.p.state = .start → count = id) :
    turn H.unpaused (s.mask count) data = (turn H s data).map (maskTurn count) := by
  have head : turnHead H.unpaused (s.mask count) data = (turnHead H s data).map (maskTurn count) := by
    unfold turnHead
    rw [show (s.mask count).p.config = s.p.config from rfl]
    split
    · rfl
    · rfl
    · next content used _ => exact congrArg (fun scan => some (scan, used)) (parseHeadLine_mask blind content s)
  unfold turn
  rw [show (s.mask count).p.state = s.p.state from rfl]
  split
  · next here =>
    cases counted here
    cases data with
    | nil => rfl
    | cons byte rest =>
      dsimp only [turnStart]
      split
      · exact congrArg (fun result : Bool × Parser => some ((⟨result.2, s.user⟩ : Scan σ), 1)) (skipByte_mask s.p byte)
      · exact congrArg (fun scan => some (scan, 0)) (beginMessage_mask blind rfl s)
  · exact head
  · exact head
  · exact head
  · unfold turnBody
    rw [parseBody_mask blind]
    split
    · rfl
    · rw [show (maskTurn count (parseBody H data s)).1.p.state = (parseBody H data s).1.p.state from rfl,
        show (maskTurn count (parseBody H data s)).2 = (parseBody H data s).2 from rfl]
      split <;> rfl
  · exact congrArg (fun scan => some (scan, 0)) (finishMessage_mask blind s)
  · rfl

end

end

end Evhtp
