import Evhtp.Proofs.Masking

/-! Message heads as bytes: a start line, header fields and the empty line. For hooks that pay attention
but leave the parser alone, apart from pausing it, what a field does to the parser does not depend on
them, and the empty line shows the hook for a complete head the parser as it is then framed. -/

namespace Evhtp

inductive LineEnd where
  | crlf | lf
  deriving DecidableEq, Repr

def LineEnd.bytes : LineEnd → Bytes
  | .crlf => [CR, LF]
  | .lf => [LF]

def Unbroken (content : Bytes) : Prop := ∀ byte ∈ content, byte ≠ CR ∧ byte ≠ LF

def Trimmed (text : Bytes) : Prop :=
  (∀ byte, text.head? = some byte → isBlank byte = false) ∧
    ∀ byte, text.getLast? = some byte → isBlank byte = false

instance (content : Bytes) : Decidable (Unbroken content) :=
  List.decidableBAll _ content

instance (text : Bytes) : Decidable (Trimmed text) :=
  @instDecidableAnd _ _ (Option.decidableForallMem text.head?) (Option.decidableForallMem text.getLast?)

structure Field where
  name : Bytes
  before : Bytes := [SP]
  value : Bytes
  after : Bytes := []
  ending : LineEnd := .crlf
  named : name ≠ []
  token : COLON ∉ name
  unbroken : Unbroken name ∧ Unbroken value
  trimmed : Trimmed name ∧ Trimmed value
  blank : ∀ byte ∈ before ++ after, isBlank byte = true

theorem space_blank : ∀ byte ∈ [SP] ++ [], isBlank byte = true := by
  decide +kernel

def Field.line (field : Field) : Bytes :=
  field.name ++ COLON :: (field.before ++ field.value ++ field.after)

def Field.bytes (field : Field) : Bytes := field.line ++ field.ending.bytes

structure Head where
  startLine : Bytes
  ending : LineEnd := .crlf
  fields : List Field
  empty : LineEnd := .crlf
  some : startLine ≠ []
  unbroken : Unbroken startLine

def fieldBytes (fields : List Field) : Bytes := fields.flatMap Field.bytes

def Head.bytes (head : Head) : Bytes :=
  head.startLine ++ head.ending.bytes ++ (fieldBytes head.fields ++ head.empty.bytes)

structure Head.Within (head : Head) (config : Http1config) : Prop where
  startLine : config.maxLineLength = 0 ∨ head.startLine.length ≤ config.maxLineLength
  lines : ∀ field ∈ head.fields, config.maxLineLength = 0 ∨ field.line.length ≤ config.maxLineLength
  count : config.maxHeaderCount = 0 ∨ head.fields.length ≤ config.maxHeaderCount

/-- Hooks that return 0 and leave the parser alone; they may pause it. -/
def Hooks.Attentive {σ : Type} (H : Hooks σ) : Prop := ∀ event p s, ∃ pause, (H.call event p s).1 = { pause }

def silentHooks : Hooks Unit where
  present _ := false
  call _ _ s := ({}, s)

theorem silentHooks_attentive : silentHooks.Attentive := fun _ _ _ => ⟨false, rfl⟩

theorem takeWhile_append_stop {α : Type} {keep : α → Bool} {front : List α} {stop : α} {rest : List α}
    (kept : ∀ item ∈ front, keep item = true) (stops : keep stop = false) :
    (front ++ stop :: rest).takeWhile keep = front ∧ (front ++ stop :: rest).dropWhile keep = stop :: rest := by
  rw [List.takeWhile_append_of_pos kept, List.dropWhile_append_of_pos kept]
  simp [stops]

theorem Unbroken.isBlank {content : Bytes} (blank : ∀ byte ∈ content, isBlank byte = true) : Unbroken content := by
  intro byte member
  have := blank byte member
  constructor <;> rintro rfl <;> simp [Evhtp.isBlank, CR, LF, SP, HTAB] at this

section
variable {max : Nat} {data more : Bytes}

theorem takeWhile_noLf (noLf : LF ∉ data) : data.takeWhile (· != LF) = data := by
  apply List.takeWhile_eq_self_iff.mpr
  intro byte member
  simpa using fun same : byte = LF => noLf (same ▸ member)

theorem takeLine_lf (noLf : LF ∉ data) :
    takeLine max (data ++ LF :: more) =
      if max ≠ 0 ∧ (stripCr data).length > max then .tooLong else .line (stripCr data) (data.length + 1) := by
  have raw : (data ++ LF :: more).takeWhile (· != LF) = data := by
    rw [List.takeWhile_append, takeWhile_noLf noLf, if_pos rfl]
    simp
  have longer : ¬ data.length = (data ++ LF :: more).length := by simp
  rw [takeLine, raw, if_neg longer]

theorem stripCr_plain {text : Bytes} (plain : text.getLast? ≠ some CR) : stripCr text = text := if_neg plain

theorem stripCr_concat (text : Bytes) : stripCr (text ++ [CR]) = text := by simp [stripCr]

theorem takeLine_ended {content : Bytes} (ending : LineEnd) (rest : Bytes) (noLf : LF ∉ content) {seen : Bytes}
    (read : seen = stripCr (content ++ ending.bytes.dropLast)) (fits : max = 0 ∨ seen.length ≤ max) :
    takeLine max (content ++ ending.bytes ++ rest) = .line seen (content ++ ending.bytes).length := by
  have different : LF ≠ CR := by decide
  have noLf' : LF ∉ content ++ ending.bytes.dropLast := by
    cases ending <;> simp [LineEnd.bytes, noLf, different]
  have bytes : content ++ ending.bytes ++ rest = (content ++ ending.bytes.dropLast) ++ LF :: rest := by
    cases ending <;> simp [LineEnd.bytes]
  have short : ¬(max ≠ 0 ∧ seen.length > max) := by omega
  rw [bytes, takeLine_lf noLf', ← read, if_neg short]
  cases ending <;> simp [LineEnd.bytes]

theorem takeLine_content {content : Bytes} (ending : LineEnd) (rest : Bytes) (unbroken : Unbroken content)
    (fits : max = 0 ∨ content.length ≤ max) :
    takeLine max (content ++ ending.bytes ++ rest) = .line content (content.length + ending.bytes.length) := by
  rw [← List.length_append]
  refine takeLine_ended ending rest (fun member => (unbroken LF member).2 rfl) ?_ fits
  cases ending with
  | crlf => exact (stripCr_concat content).symm
  | lf =>
    rw [show content ++ LineEnd.lf.bytes.dropLast = content from List.append_nil content]
    exact (stripCr_plain fun last => (unbroken CR (List.mem_of_getLast? last)).1 rfl).symm

end

theorem dropWhile_trimmed {text : Bytes} (first : ∀ byte, text.head? = some byte → isBlank byte = false) :
    text.dropWhile isBlank = text := by
  cases text with
  | nil => rfl
  | cons byte rest => simp [first byte rfl]

theorem trimBlanks_padded {before text after : Bytes} (trimmed : Trimmed text)
    (blank : ∀ byte ∈ before ++ after, isBlank byte = true) : trimBlanks (before ++ text ++ after) = text := by
  have left : ∀ byte ∈ before, isBlank byte = true := fun byte member => blank byte (by simp [member])
  have right : ∀ byte ∈ after.reverse, isBlank byte = true := fun byte member => blank byte (by simp_all)
  unfold trimBlanks
  rw [List.append_assoc, List.dropWhile_append_of_pos left]
  by_cases none : text = []
  · subst none
    have gone : after.dropWhile isBlank = [] := by
      rw [List.dropWhile_eq_nil_iff]
      exact fun byte member => blank byte (by simp [member])
    simp [gone]
  · have front : (text ++ after).dropWhile isBlank = text ++ after := by
      refine dropWhile_trimmed fun byte found => trimmed.1 byte ?_
      rwa [List.head?_append_of_ne_nil _ none] at found
    rw [front]
    unfold List.rdropWhile
    rw [List.reverse_append, List.dropWhile_append_of_pos right, dropWhile_trimmed, List.reverse_reverse]
    intro byte found
    rw [List.head?_reverse] at found
    exact trimmed.2 byte found

namespace Field

variable (field : Field)

theorem line_unbroken : Unbroken field.line := by
  intro byte member
  have before : Unbroken field.before := .isBlank fun byte member => field.blank byte (by simp [member])
  have after : Unbroken field.after := .isBlank fun byte member => field.blank byte (by simp [member])
  simp only [Field.line, List.mem_append, List.mem_cons] at member
  rcases member with member | rfl | (member | member) | member
  · exact field.unbroken.1 byte member
  · simp [CR, LF, COLON]
  · exact before byte member
  · exact field.unbroken.2 byte member
  · exact after byte member

theorem line_name : field.line.takeWhile (· != COLON) = field.name ∧
    field.line.dropWhile (· != COLON) = COLON :: (field.before ++ field.value ++ field.after) := by
  refine takeWhile_append_stop (fun byte member => ?_) (by simp)
  have : byte ≠ COLON := fun same => field.token (same ▸ member)
  simpa using this

theorem line_wellFormed : field.line ≠ [] ∧
    ¬(field.line.head?.any isBlank ∨ field.name = [] ∨ field.name.getLast?.any isBlank) := by
  refine ⟨by simp [Field.line], ?_⟩
  rintro (blank | none | blank)
  · rw [Field.line, List.head?_append_of_ne_nil _ field.named] at blank
    obtain ⟨byte, found, blank⟩ := (Option.any_eq_true _ _).mp blank
    rw [field.trimmed.1.1 byte found] at blank
    cases blank
  · exact field.named none
  · obtain ⟨byte, found, blank⟩ := (Option.any_eq_true _ _).mp blank
    rw [field.trimmed.1.2 byte found] at blank
    cases blank

end Field

theorem Hooks.Attentive.hook {σ : Type} {H : Hooks σ} (attentive : H.Attentive) (name : HookName) (data : Bytes)
    (s : Scan σ) : (hook H name data s).1 = true ∧ (hook H name data s).2.p.resume = s.p.resume := by
  unfold Evhtp.hook
  split
  · obtain ⟨pause, reply⟩ := attentive ⟨name, data⟩ s.p s.user
    simp [reply, Parser.replied, Parser.resume]
  · exact ⟨rfl, rfl⟩

section
variable [Htstring] {σ : Type} {H : Hooks σ} {s : Scan σ} {U : σ → Prop} {p : Parser}

theorem noteField_resume (name value : Bytes) (p : Parser) :
    noteField name value p.resume = ((noteField name value p).1, (noteField name value p).2.resume) := by
  have masked : noteField name value (p.mask id) = ((noteField name value p).1, (noteField name value p).2.mask id) :=
    noteField_mask name value p
  exact masked

def Parser.takeField (p : Parser) (name value : Bytes) : Bool × Parser :=
  if name.length = 4 then
    (true, if p.flags.haveHost = false ∧ Htstring.equalsi name (ascii "Host") then p.countHeader.sawHost
      else p.countHeader)
  else noteField name value p.countHeader

def Parser.takeFields (p : Parser) : List Field → Bool × Parser
  | [] => (true, p)
  | field :: fields =>
    let taken := p.takeField field.name field.value
    if taken.1 then taken.2.takeFields fields else taken

/-- A field changes what is known of the framing, and nothing else. -/
def FieldOnly (p q : Parser) : Prop :=
  q = { p with origContentLen := q.origContentLen, flags := q.flags, error := q.error, state := q.state }

omit [Htstring] in
theorem noteLengths_only (any : Bool) (p : Parser) (elements : List Bytes) : FieldOnly p (noteLengths any p elements).2 := by
  induction elements generalizing any p with
  | nil =>
    unfold noteLengths
    split <;> rfl
  | cons element rest ih =>
    unfold noteLengths
    split
    · rfl
    · split
      · rfl
      · exact ih true _

theorem noteField_only (name value : Bytes) (p : Parser) : FieldOnly p (noteField name value p).2 := by
  unfold noteField
  split
  · split <;> rfl
  · rfl
  · split
    · exact noteLengths_only false p _
    · rfl
  · split <;> rfl
  · rfl

theorem noteField_skipBody (name value : Bytes) (p : Parser) :
    (noteField name value p).2.flags.skipBody = p.flags.skipBody := by
  have lengths : ∀ any (p : Parser) elements, (noteLengths any p elements).2.flags.skipBody = p.flags.skipBody := by
    intro any p elements
    induction elements generalizing any p with
    | nil =>
      rw [noteLengths]
      split <;> rfl
    | cons element rest ih =>
      rw [noteLengths]
      split
      · rfl
      · split
        · rfl
        · exact ih true _
  have tokens : (noteConnection p.flags value).skipBody = p.flags.skipBody := by
    refine List.foldlRecOn _ _ (motive := fun (seen : ParserFlags) => seen.skipBody = p.flags.skipBody) rfl ?_
    intro seen kept token _
    rw [noteToken]
    split
    · exact kept
    · split <;> exact kept
  have codings : (noteTransferEncoding p.flags value).skipBody = p.flags.skipBody := by
    refine List.foldlRecOn _ _ (motive := fun (seen : ParserFlags) => seen.skipBody = p.flags.skipBody) rfl ?_
    intro seen kept coding _
    rw [noteCoding]
    split <;> exact kept
  rw [noteField]
  split
  · split
    · exact tokens
    · rfl
  · simp only [Parser.setFlags, noteContentType]
    split <;> rfl
  · split
    · exact lengths false p _
    · rfl
  · split
    · exact codings
    · rfl
  · rfl

omit [Htstring] in
theorem framing_skipBody (p : Parser) : (framing p).2.flags.skipBody = p.flags.skipBody := by
  unfold framing
  dsimp only
  repeat' split
  all_goals rfl

structure FieldTaken (p : Parser) (taken : Bool × Parser) : Prop where
  state : taken.2.state = if taken.1 then p.state else .error
  config : taken.2.config = p.config
  error : taken.1 = true → taken.2.error = p.error
  paused : taken.2.flags.paused = p.flags.paused
  skipBody : taken.2.flags.skipBody = p.flags.skipBody
  count : taken.2.headerCount = p.headerCount + 1

theorem takeField_taken (name value : Bytes) (here : p.state = .headers) :
    FieldTaken p (p.takeField name value) := by
  unfold Parser.takeField
  split
  · split <;> exact ⟨rfl, rfl, fun _ => rfl, rfl, rfl, rfl⟩
  · have checked := noteField_checked name value p.countHeader
    exact ⟨checked.state, checked.silent.config, fun ok => checked.error_eq ok (by simp [Parser.countHeader, here]),
      checked.silent.paused, noteField_skipBody name value _, (congrArg Parser.headerCount (noteField_only name value _) :)⟩

theorem takeField_method (p : Parser) (name value : Bytes) : (p.takeField name value).2.method = p.method := by
  unfold Parser.takeField
  split
  · split <;> rfl
  · exact (congrArg Parser.method (noteField_only name value p.countHeader) :)

theorem takeFields_method (p : Parser) (fields : List Field) : (p.takeFields fields).2.method = p.method := by
  induction fields generalizing p with
  | nil => rfl
  | cons field fields ih =>
    unfold Parser.takeFields
    dsimp only
    split
    · exact (ih _).trans (takeField_method p field.name field.value)
    · exact takeField_method p field.name field.value

omit [Htstring] in
theorem framing_method (p : Parser) : (framing p).2.method = p.method := by
  unfold framing
  dsimp only
  repeat' split
  all_goals rfl

theorem line_turn (H : Hooks σ) {content : Bytes} (ending : LineEnd) (rest : Bytes)
    (here : s.p.state.inHead = true) (unbroken : Unbroken content)
    (fits : s.p.config.maxLineLength = 0 ∨ content.length ≤ s.p.config.maxLineLength) :
    Decoder.Next (resumedTurn H) (s, content ++ ending.bytes ++ rest) ((parseHeadLine H content s).resume, rest) := by
  refine ⟨(parseHeadLine H content s).resume, (content ++ ending.bytes).length, ?_, ?_⟩
  · rw [resumedTurn, turn_head H here, turnHead, takeLine_content ending rest unbroken fits]
    simp
  · rw [List.drop_left]

/-- A property of the hooks' state that only the hook for a complete head can end. -/
def Hooks.Keeps (H : Hooks σ) (U : σ → Prop) : Prop :=
  ∀ event p s, event.name ≠ .onHdrsComplete → U s → U (H.call event p s).2

omit [Htstring] in
theorem Hooks.Keeps.hook (keeps : H.Keeps U) {name : HookName} (data : Bytes)
    (other : name ≠ .onHdrsComplete) (held : U s.user) : U (hook H name data s).2.user := by
  unfold Evhtp.hook
  split
  · exact keeps _ _ _ other held
  · exact held

omit [Htstring] in
theorem andThen_keeps {first : Bool × Scan σ} {next : Scan σ → Bool × Scan σ}
    (held : U first.2.user) (rest : ∀ s, U s.user → U (next s).2.user) : U (andThen first next).2.user := by
  unfold andThen
  split
  · exact rest _ held
  · exact held

theorem parseHeader_keeps (keeps : H.Keeps U) (line : Bytes) (trailer : Bool)
    (held : U s.user) : U (parseHeader H line trailer s).2.user := by
  unfold parseHeader
  dsimp only
  split
  · exact held
  · split
    · exact held
    · refine andThen_keeps (keeps.hook _ (by simp) held) fun s held => ?_
      refine andThen_keeps ?_ fun s held => keeps.hook _ (by simp) held
      split
      · exact held
      · unfold noteHeader
        split
        · split
          · exact keeps.hook _ (by simp) held
          · exact held
        · exact held

variable (attentive : H.Attentive)
include attentive

theorem noteHeader_attentive (name value : Bytes)
    (same : s.p.resume = p.countHeader) :
    (noteHeader H name value s).1 = (p.takeField name value).1 ∧
      (noteHeader H name value s).2.p.resume = (p.takeField name value).2 := by
  unfold noteHeader Parser.takeField
  dsimp only
  have fresh : (s.p.flags.haveHost = false ∧ Htstring.equalsi name (ascii "Host") = true) ↔
      (p.flags.haveHost = false ∧ Htstring.equalsi name (ascii "Host") = true) := by
    rw [show s.p.flags.haveHost = p.flags.haveHost from congrArg (fun p => p.flags.haveHost) same]
  split
  · split
    · next first =>
      rw [if_pos (fresh.mp first)]
      have called := attentive.hook .hostname value { s with p := s.p.sawHost }
      refine ⟨called.1, called.2.trans ?_⟩
      exact congrArg Parser.sawHost same
    · next later =>
      rw [if_neg fun first => later (fresh.mpr first)]
      exact ⟨rfl, same⟩
  · have noted := noteField_resume name value s.p
    rw [same] at noted
    rw [noted]
    exact ⟨rfl, rfl⟩

theorem parseHeader_attentive (field : Field)
    (same : s.p.resume = p.countHeader) :
    (parseHeader H field.line false s).1 = (p.takeField field.name field.value).1 ∧
      (parseHeader H field.line false s).2.p.resume = (p.takeField field.name field.value).2 := by
  have key := attentive.hook .hdrKey field.name s
  have noted := noteHeader_attentive attentive field.name field.value (key.2.trans same)
  unfold parseHeader
  rw [field.line_name.1, field.line_name.2]
  dsimp only
  rw [if_neg field.line_wellFormed.2, trimBlanks_padded field.trimmed.2 field.blank]
  simp only [andThen, key.1, if_true, Bool.false_eq_true, if_false]
  split
  · next ok =>
    have value := attentive.hook .hdrVal field.value (noteHeader H field.name field.value (hook H .hdrKey field.name s).2).2
    exact ⟨value.1.trans (ok.symm.trans noted.1), value.2.trans noted.2⟩
  · exact noted

theorem field_turn (field : Field) (rest : Bytes) (here : s.p.state = .headers)
    (running : s.p.flags.paused = false)
    (line : s.p.config.maxLineLength = 0 ∨ field.line.length ≤ s.p.config.maxLineLength)
    (count : s.p.config.maxHeaderCount = 0 ∨ s.p.headerCount < s.p.config.maxHeaderCount) :
    Decoder.Next (resumedTurn H) (s, field.bytes ++ rest)
      (⟨(s.p.takeField field.name field.value).2,
        (parseHeader H field.line false { s with p := s.p.countHeader }).2.user⟩, rest) := by
  have parsed : parseHeadLine H field.line s = (parseHeader H field.line false { s with p := s.p.countHeader }).2 := by
    have notFull : ¬(s.p.config.maxHeaderCount ≠ 0 ∧ s.p.headerCount ≥ s.p.config.maxHeaderCount) := by omega
    rw [parseHeadLine, if_neg (by simp [here]), if_neg field.line_wellFormed.1, if_neg notFull, here]
    rfl
  have counted : s.p.countHeader.resume = s.p.countHeader := Parser.resume_of_running running
  have effect := (parseHeader_attentive attentive field (s := { s with p := s.p.countHeader }) counted).2
  rw [← effect, ← parsed]
  exact line_turn H field.ending rest (by simp [here, ParserState.inHead]) field.line_unbroken line

/-- The fields of a head, one turn each, up to the first that fails the message. -/
theorem fields_path (fields : List Field) (rest : Bytes) (here : s.p.state = .headers)
    (running : s.p.flags.paused = false)
    (lines : ∀ field ∈ fields, s.p.config.maxLineLength = 0 ∨ field.line.length ≤ s.p.config.maxLineLength)
    (count : s.p.config.maxHeaderCount = 0 ∨ s.p.headerCount + fields.length ≤ s.p.config.maxHeaderCount) :
    ∃ user rest', (∀ U, H.Keeps U → U s.user → U user) ∧
      Decoder.Steps (resumedTurn H) (s, fieldBytes fields ++ rest) (⟨(s.p.takeFields fields).2, user⟩, rest') ∧
      (s.p.takeFields fields).2.state = (if (s.p.takeFields fields).1 then .headers else .error) ∧
      (s.p.takeFields fields).2.flags.paused = false ∧
      (s.p.takeFields fields).2.flags.skipBody = s.p.flags.skipBody ∧
      ((s.p.takeFields fields).1 = true → rest' = rest ∧ (s.p.takeFields fields).2.error = s.p.error) := by
  induction fields generalizing s with
  | nil => exact ⟨s.user, rest, fun _ _ held => held, .refl, here, running, rfl, fun _ => ⟨rfl, rfl⟩⟩
  | cons field fields ih =>
    have next := field_turn attentive field (fieldBytes fields ++ rest) here running
      (lines field (by simp)) (by rw [List.length_cons] at count; omega)
    have kept : ∀ U, H.Keeps U → U s.user → U (parseHeader H field.line false { s with p := s.p.countHeader }).2.user :=
      fun U keeps held => parseHeader_keeps keeps field.line false held
    generalize (parseHeader H field.line false { s with p := s.p.countHeader }).2.user = user at next kept
    have bytes : fieldBytes (field :: fields) ++ rest = field.bytes ++ (fieldBytes fields ++ rest) := by
      simp [fieldBytes]
    rw [bytes]
    have taken := takeField_taken field.name field.value here
    unfold Parser.takeFields
    dsimp only
    by_cases ok : (s.p.takeField field.name field.value).1 = true
    · rw [if_pos ok]
      have reached := taken.state
      rw [if_pos ok, here] at reached
      obtain ⟨user', rest', kept', steps, state, running', skipBody, left⟩ :=
        ih (s := ⟨(s.p.takeField field.name field.value).2, user⟩) reached (taken.paused.trans running)
          (fun field member => by rw [taken.config]; exact lines field (by simp [member]))
          (by
            dsimp only
            rw [List.length_cons] at count
            rw [taken.config, taken.count]
            omega)
      refine ⟨user', rest', fun U keeps held => kept' U keeps (kept U keeps held), .head next steps, state, running',
        skipBody.trans taken.skipBody, fun accepted => ⟨(left accepted).1, (left accepted).2.trans (taken.error ok)⟩⟩
    · rw [if_neg ok]
      exact ⟨user, _, kept, .single next, by simp [taken.state, ok], taken.paused.trans running,
        taken.skipBody, fun accepted => absurd accepted ok⟩

theorem end_turn (ending : LineEnd) (rest : Bytes) (here : s.p.state = .headers)
    (running : s.p.flags.paused = false) (reads : s.p.flags.skipBody = false) :
    Decoder.Next (resumedTurn H) (s, ending.bytes ++ rest)
      (if (framing s.p).1 then
        ⟨(framing s.p).2.headDone, (hook H .onHdrsComplete [] ⟨(framing s.p).2.headDone, s.user⟩).2.user⟩
      else ⟨(framing s.p).2, s.user⟩, rest) := by
  have parsed : parseHeadLine H [] s = endHead H s := by
    rw [parseHeadLine, if_neg (by simp [here]), if_pos rfl, if_neg (by simp [here])]
  have checked := framing_checked s.p
  have stopped : (framing s.p).2.resume = (framing s.p).2 :=
    Parser.resume_of_running (checked.silent.paused.trans running)
  have ended : (endHead H s).resume = if (framing s.p).1 then
      ⟨(framing s.p).2.headDone, (hook H .onHdrsComplete [] ⟨(framing s.p).2.headDone, s.user⟩).2.user⟩
      else ⟨(framing s.p).2, s.user⟩ := by
    unfold endHead
    split
    · next ok =>
      have called := attentive.hook .onHdrsComplete [] { s with p := (framing s.p).2.headDone }
      have skip : (hook H .onHdrsComplete [] { s with p := (framing s.p).2.headDone }).2.p.flags.skipBody = false := by
        have same := congrArg (fun p => p.flags.skipBody) called.2
        exact same.trans (framing_skipBody s.p ▸ reads)
      rw [skipIfAsked, if_neg (by simp [skip]), Scan.resume, called.2]
      exact congrArg (fun p => Scan.mk p _) (congrArg Parser.headDone stopped)
    · rw [Scan.resume, stopped]
  have next : Decoder.Next (resumedTurn H) (s, [] ++ ending.bytes ++ rest) ((parseHeadLine H [] s).resume, rest) :=
    line_turn H ending rest (by simp [here, ParserState.inHead]) (fun _ member => by cases member)
      (.inr (Nat.zero_le _))
  rwa [parsed, ended] at next

end

end Evhtp
