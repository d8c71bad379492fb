import Evhtp.Proofs.ResponseFraming
import Evhtp.Proofs.BodySections

/-! Responses that arrive in pieces. A parser that was given some bytes of a response is at one of its places: before
it, at a line of its head, in its body or at its end. Each turn on the bytes that are there takes it to another
place, and it waits only while bytes of the response are missing. -/

namespace Evhtp

/-- A response: its status line is the first line of its head. -/
structure Response where
  line : StatusLine
  head : Head
  body : Bytes
  starts : head.startLine = line.bytes

def Response.bytes (response : Response) : Bytes := response.head.bytes ++ response.body

/-- A head within the limits of the configuration, however its lines are cut: while its LF is missing, the CR of a
line counts. -/
structure Head.Roomy (head : Head) (config : Http1config) : Prop where
  startLine : config.maxLineLength = 0 ∨ head.startLine.length < config.maxLineLength
  lines : ∀ field ∈ head.fields, config.maxLineLength = 0 ∨ field.line.length < config.maxLineLength
  count : config.maxHeaderCount = 0 ∨ head.fields.length ≤ config.maxHeaderCount

theorem LineEnd.bytes_dropLast (ending : LineEnd) : ending.bytes.dropLast = [] ∨ ending.bytes.dropLast = [CR] := by
  cases ending
  · exact .inr rfl
  · exact .inl rfl

theorem LineEnd.bytes_ne_nil (ending : LineEnd) : ending.bytes ≠ [] := by
  cases ending <;> simp [LineEnd.bytes]

theorem takeLine_awaits {max : Nat} {content left missing : Bytes} (ending : LineEnd) (unbroken : Unbroken content)
    (fits : max = 0 ∨ content.length < max) (same : content ++ ending.bytes = left ++ missing) (some : missing ≠ []) :
    takeLine max left = .incomplete := by
  have front : left <+: content ++ ending.bytes.dropLast := by
    rw [← List.dropLast_append_of_ne_nil ending.bytes_ne_nil, same, List.dropLast_append_of_ne_nil some]
    exact List.prefix_append _ _
  have short : left.length ≤ content.length + 1 := by
    have := front.length_le
    rcases ending.bytes_dropLast with rest | rest <;> simp [rest] at this <;> omega
  have noLf : ∀ byte ∈ left, (byte != LF) = true := by
    intro byte member
    rcases List.mem_append.mp (front.subset member) with inside | inside
    · simpa using (unbroken byte inside).2
    · rcases ending.bytes_dropLast with rest | rest <;> simp_all [CR, LF]
  have all : left.takeWhile (· != LF) = left := List.takeWhile_eq_self_iff.mpr noLf
  rw [takeLine, all, if_pos rfl, if_neg (by omega)]

theorem line_arrives {max : Nat} {content left more rest : Bytes} (ending : LineEnd) (unbroken : Unbroken content)
    (fits : max = 0 ∨ content.length < max) (same : left ++ more = content ++ ending.bytes ++ rest) :
    (takeLine max left = .incomplete ∧ more ≠ []) ∨
      ∃ left', left = content ++ ending.bytes ++ left' ∧ left' ++ more = rest ∧
        takeLine max left = .line content (content ++ ending.bytes).length := by
  rcases List.append_eq_append_iff.mp same with ⟨missing, front, after⟩ | ⟨left', rfl, after⟩
  · by_cases whole : missing = []
    · subst whole
      rw [List.append_nil] at front
      have taken := takeLine_content ending [] unbroken (fits.imp_right Nat.le_of_lt)
      refine .inr ⟨[], by rw [List.append_nil, front], after, ?_⟩
      rw [← front, List.length_append]
      rwa [List.append_nil] at taken
    · refine .inl ⟨takeLine_awaits ending unbroken fits front whole, ?_⟩
      rw [after]
      simp [whole]
  · have taken := takeLine_content ending left' unbroken (fits.imp_right Nat.le_of_lt)
    exact .inr ⟨left', rfl, after.symm, by rw [taken, List.length_append]⟩

section
variable [Htstring] {p : Parser} {fields : List Field}

theorem takeFields_append {done todo : List Field} (taken : (p.takeFields (done ++ todo)).1 = true) :
    (p.takeFields done).1 = true ∧ p.takeFields (done ++ todo) = (p.takeFields done).2.takeFields todo := by
  induction done generalizing p with
  | nil => exact ⟨rfl, rfl⟩
  | cons field done ih =>
    simp only [List.cons_append, Parser.takeFields] at taken ⊢
    by_cases ok : (p.takeField field.name field.value).1 = true
    · rw [if_pos ok] at taken ⊢
      rw [if_pos ok]
      exact ih taken
    · rw [if_neg ok] at taken
      exact absurd taken ok

structure FieldsTaken (p q : Parser) (count : Nat) : Prop where
  state : q.state = .headers
  config : q.config = p.config
  error : q.error = p.error
  paused : q.flags.paused = p.flags.paused
  skipBody : q.flags.skipBody = p.flags.skipBody
  count : q.headerCount = p.headerCount + count

theorem takeFields_taken (here : p.state = .headers)
    (taken : (p.takeFields fields).1 = true) : FieldsTaken p (p.takeFields fields).2 fields.length := by
  induction fields generalizing p with
  | nil => exact ⟨here, rfl, rfl, rfl, rfl, rfl⟩
  | cons field fields ih =>
    have step := takeField_taken field.name field.value here
    simp only [Parser.takeFields] at taken ⊢
    by_cases ok : (p.takeField field.name field.value).1 = true
    · rw [if_pos ok] at taken ⊢
      have state := step.state
      rw [if_pos ok, here] at state
      have rest := ih state taken
      refine ⟨rest.state, rest.config.trans step.config, rest.error.trans (step.error ok),
        rest.paused.trans step.paused, rest.skipBody.trans step.skipBody, ?_⟩
      rw [rest.count, step.count, List.length_cons]
      omega
    · rw [if_neg ok] at taken
      exact absurd taken ok

theorem takeFields_haveHost (compares : ComparesAscii)
    (taken : (p.takeFields fields).1 = true) :
    (p.takeFields fields).2.flags.haveHost = (p.flags.haveHost || fields.any (·.isNamed "Host")) := by
  induction fields generalizing p with
  | nil => simp [Parser.takeFields]
  | cons field fields ih =>
    have step : (p.takeField field.name field.value).2.flags.haveHost =
        (p.flags.haveHost || field.isNamed "Host") := by
      have named : Htstring.equalsi field.name (ascii "Host") = field.isNamed "Host" := compares.equalsi _ _
      rw [Parser.takeField]
      split
      · rw [named]
        cases known : p.flags.haveHost <;> cases host : field.isNamed "Host" <;>
          simp [Parser.sawHost, Parser.setFlags, Parser.countHeader, known]
      · next length =>
        have other : field.isNamed "Host" = false := by
          rw [← Bool.not_eq_true]
          exact fun same => length (sameText_length same)
        rw [other, Bool.or_false]
        exact (noteField_checked field.name field.value p.countHeader).silent.haveHost
    simp only [Parser.takeFields] at taken ⊢
    by_cases ok : (p.takeField field.name field.value).1 = true
    · rw [if_pos ok] at taken ⊢
      rw [ih taken, step, List.any_cons, Bool.or_assoc]
    · rw [if_neg ok] at taken
      exact absurd taken ok

end

/-- Hooks that take a response in as it comes, and know what they were told of its fields, `Seen`, or of the field at
hand too, `Named`. They may ask for the body to be skipped, and give up, `Stopped`, at a Host. -/
structure Reader {σ : Type} (H : Hooks σ) (skip : Bool) (Seen : List Field → σ → Prop)
    (Named : List Field → Field → σ → Prop) (Stopped : σ → Prop) : Prop where
  begins : ∀ {p user}, Seen [] user → ∃ user', hook H .onMsgBegin [] ⟨p, user⟩ = (true, ⟨p, user'⟩) ∧ Seen [] user'
  headers : ∀ {p user}, Seen [] user → ∃ user', hook H .onHdrsBegin [] ⟨p, user⟩ = (true, ⟨p, user'⟩) ∧ Seen [] user'
  key : ∀ {p user fields} (field : Field), Seen fields user →
    ∃ user', hook H .hdrKey field.name ⟨p, user⟩ = (true, ⟨p, user'⟩) ∧ Named fields field user'
  host : ∀ {p user fields field}, Named fields field user →
    ∃ user', hook H .hostname field.value ⟨p, user⟩ = (false, ⟨p.fail .user, user'⟩) ∧ Stopped user'
  value : ∀ {p user fields field}, Named fields field user →
    ∃ user', hook H .hdrVal field.value ⟨p, user⟩ = (true, ⟨p, user'⟩) ∧ Seen (fields ++ [field]) user'
  complete : ∀ {p user fields}, Seen fields user →
    ∃ user', hook H .onHdrsComplete [] ⟨p, user⟩ = (true, ⟨p.replied { skipBody := skip }, user'⟩) ∧ Seen fields user'
  body : ∀ {p user fields} (data : Bytes), Seen fields user →
    ∃ user', hook H .body data ⟨p, user⟩ = (true, ⟨p, user'⟩) ∧ Seen fields user'

def Parser.statusRead (p : Parser) (line : StatusLine) : Parser :=
  { p.begin with major := line.major, minor := line.minor, status := line.code, state := .headers }

def Parser.bodyRead (p : Parser) (count : Nat) : Parser :=
  { p with
    contentLen := p.contentLen - count
    state := if p.contentLen - count = 0 then .complete else p.state }

/-- A parser in the body of a response, with so many bytes to come, or at its end. -/
inductive BodyPlace (p : Parser) : Bytes → Prop
  | within {rest : Bytes} (here : p.state = .body) (mode : p.body = .length) (length : p.contentLen = rest.length)
      (some : rest ≠ []) : BodyPlace p rest
  | complete (here : p.state = .complete) : BodyPlace p []

theorem BodyPlace.at_end {p : Parser} {rest : Bytes} (place : BodyPlace p rest) (done : p.state = .complete) :
    rest = [] := by
  cases place with
  | within here => cases here.symm.trans done
  | complete => rfl

structure Readable [Htstring] (start : Parser) (response : Response) (skip : Bool) : Prop where
  here : start.state = .start
  running : start.flags.paused = false
  type : start.type = .response
  roomy : response.head.Roomy start.config
  taken : ((start.statusRead response.line).takeFields response.head.fields).1 = true
  framed : (framing ((start.statusRead response.line).takeFields response.head.fields).2).1 = true
  body : BodyPlace (if skip then
      { (framing ((start.statusRead response.line).takeFields response.head.fields).2).2.headDone with
        body := .none, state := .complete }
    else (framing ((start.statusRead response.line).takeFields response.head.fields).2).2.headDone) response.body

/-- The places of a response, and the bytes that follow each of them. -/
inductive ResponsePlace [Htstring] {σ : Type} (Seen : List Field → σ → Prop) (Stopped : σ → Prop) (start : Parser)
    (response : Response) (later : Bytes) : Scan σ → Bytes → Prop
  | idle {user} (seen : Seen [] user) :
      ResponsePlace Seen Stopped start response later ⟨start, user⟩ (response.bytes ++ later)
  | begun {user} (seen : Seen [] user) :
      ResponsePlace Seen Stopped start response later ⟨start.begin, user⟩ (response.bytes ++ later)
  | headers {user done todo} (split : response.head.fields = done ++ todo)
      (noHost : done.any (·.isNamed "Host") = false) (seen : Seen done user) :
      ResponsePlace Seen Stopped start response later ⟨((start.statusRead response.line).takeFields done).2, user⟩
        (fieldBytes todo ++ (response.head.empty.bytes ++ (response.body ++ later)))
  | body {p user rest} (running : p.flags.paused = false) (sound : p.error = .none) (place : BodyPlace p rest)
      (noHost : response.head.fields.any (·.isNamed "Host") = false) (seen : Seen response.head.fields user) :
      ResponsePlace Seen Stopped start response later ⟨p, user⟩ (rest ++ later)
  | stopped {p user rest} (failed : p.state = .error) (host : response.head.fields.any (·.isNamed "Host") = true)
      (stopped : Stopped user) : ResponsePlace Seen Stopped start response later ⟨p, user⟩ rest

/-- On the bytes that are there a turn leads to another place, or it waits because bytes are missing. -/
def MovesOn [Htstring] {σ : Type} (H : Hooks σ) (Seen : List Field → σ → Prop) (Stopped : σ → Prop) (start : Parser)
    (response : Response) (later : Bytes) (s : Scan σ) (left more : Bytes) : Prop :=
  (turn H s left = none ∧ more ≠ []) ∨ ∃ after used, turn H s left = some (after, used) ∧
    ResponsePlace Seen Stopped start response later after (left.drop used ++ more)

section
variable [Htstring] {σ : Type} {H : Hooks σ} {skip : Bool} {Seen : List Field → σ → Prop}
  {Named : List Field → Field → σ → Prop} {Stopped : σ → Prop} (reader : Reader H skip Seen Named Stopped)
include reader

theorem Reader.parseHeader (compares : ComparesAscii) {p : Parser} {user : σ} {fields : List Field} (field : Field)
    (seen : Seen fields user) (fresh : p.flags.haveHost = false)
    (taken : (p.takeField field.name field.value).1 = true) :
    (field.isNamed "Host" = false ∧ ∃ user', Evhtp.parseHeader H field.line false ⟨p.countHeader, user⟩ =
        (true, ⟨(p.takeField field.name field.value).2, user'⟩) ∧ Seen (fields ++ [field]) user') ∨
      (field.isNamed "Host" = true ∧ ∃ user', Evhtp.parseHeader H field.line false ⟨p.countHeader, user⟩ =
        (false, ⟨p.countHeader.sawHost.fail .user, user'⟩) ∧ Stopped user') := by
  obtain ⟨named, keyed, known⟩ := reader.key (p := p.countHeader) field seen
  have equal : Htstring.equalsi field.name (ascii "Host") = field.isNamed "Host" := compares.equalsi _ _
  rw [Evhtp.parseHeader, field.line_name.1, field.line_name.2]
  dsimp only
  rw [if_neg field.line_wellFormed.2, trimBlanks_padded field.trimmed.2 field.blank]
  simp only [andThen, keyed, if_true, Bool.false_eq_true, if_false]
  cases host : field.isNamed "Host" with
  | true =>
    obtain ⟨user', called, stopped⟩ := reader.host (p := p.countHeader.sawHost) known
    have noted : noteHeader H field.name field.value ⟨p.countHeader, named⟩ =
        (false, ⟨p.countHeader.sawHost.fail .user, user'⟩) := by
      have length : field.name.length = 4 := sameText_length host
      rw [noteHeader, if_pos length]
      exact (if_pos ⟨fresh, equal.trans host⟩).trans called
    refine .inr ⟨rfl, user', ?_, stopped⟩
    simp only [noted, Bool.false_eq_true, if_false]
  | false =>
    have noted : noteHeader H field.name field.value ⟨p.countHeader, named⟩ =
        (true, ⟨(p.takeField field.name field.value).2, named⟩) := by
      have other : ¬(p.flags.haveHost = false ∧ Htstring.equalsi field.name (ascii "Host") = true) := by
        simp [equal, host]
      rw [Parser.takeField] at taken ⊢
      rw [noteHeader, if_neg other]
      split
      · exact if_neg other
      · next length =>
        rw [if_neg length] at taken
        dsimp only
        rw [taken]
    obtain ⟨user', valued, seen'⟩ := reader.value (p := (p.takeField field.name field.value).2) known
    refine .inl ⟨rfl, user', ?_, seen'⟩
    simp only [noted, if_true, valued]

variable {start : Parser} {response : Response} (readable : Readable start response skip) {later left more : Bytes}
  {user : σ}
include readable

theorem Reader.idle_turn (seen : Seen [] user) (bytes : left ++ more = response.bytes ++ later) :
    MovesOn H Seen Stopped start response later ⟨start, user⟩ left more := by
  obtain ⟨byte, tail, line⟩ := List.exists_cons_of_ne_nil response.head.some
  cases left with
  | nil =>
    refine .inl ⟨by simp only [turn, readable.here, turnStart], ?_⟩
    rw [List.nil_append] at bytes
    rw [bytes]
    simp [Response.bytes, Head.bytes, line]
  | cons first left =>
    have same : first = byte := by
      rw [Response.bytes, Head.bytes, line] at bytes
      exact (List.cons.inj bytes).1
    have text : ¬(first = CR ∨ first = LF) := by
      have := response.head.unbroken byte (by simp [line])
      rw [same]
      tauto
    obtain ⟨user', called, seen'⟩ := reader.begins (p := start.begin) seen
    refine .inr ⟨⟨start.begin, user'⟩, 0, ?_, ?_⟩
    · simp only [turn, readable.here, turnStart, text, if_false, beginMessage, called]
    · rw [List.drop_zero, bytes]
      exact .begun seen'

theorem Reader.begun_turn (seen : Seen [] user) (bytes : left ++ more = response.bytes ++ later) :
    MovesOn H Seen Stopped start response later ⟨start.begin, user⟩ left more := by
  have bytes : left ++ more = response.head.startLine ++ response.head.ending.bytes ++
      (fieldBytes response.head.fields ++ (response.head.empty.bytes ++ (response.body ++ later))) := by
    rw [bytes]
    simp [Response.bytes, Head.bytes]
  have fits : start.begin.config.maxLineLength = 0 ∨
      response.head.startLine.length < start.begin.config.maxLineLength := readable.roomy.startLine
  have unfolded : turn H ⟨start.begin, user⟩ left = turnHead H ⟨start.begin, user⟩ left := rfl
  rw [MovesOn, unfolded, turnHead]
  rcases line_arrives response.head.ending response.head.unbroken fits bytes with
    ⟨waits, missing⟩ | ⟨left', rfl, rest, taken⟩
  · rw [waits]
    exact .inl ⟨rfl, missing⟩
  · obtain ⟨user', called, seen'⟩ := reader.headers (p := start.statusRead response.line) seen
    have parsed : parseHeadLine H response.head.startLine ⟨start.begin, user⟩ =
        ⟨start.statusRead response.line, user'⟩ := by
      have type : start.begin.type = .response := readable.type
      have here : (⟨start.begin, user⟩ : Scan σ).p.state = .headLine := rfl
      rw [parseHeadLine, if_pos here, parseStartLine]
      dsimp only
      rw [type, response.starts]
      dsimp only
      rw [parseStatusLine_bytes]
      dsimp only
      rw [if_pos rfl]
      exact congrArg Prod.snd called
    rw [taken]
    refine .inr ⟨_, _, rfl, ?_⟩
    rw [parsed, List.drop_left, rest]
    have place : ResponsePlace Seen Stopped start response later
        ⟨((start.statusRead response.line).takeFields []).2, user'⟩
        (fieldBytes response.head.fields ++ (response.head.empty.bytes ++ (response.body ++ later))) :=
      .headers rfl rfl seen'
    exact place

omit reader in
theorem Readable.among {done todo : List Field} (split : response.head.fields = done ++ todo) :
    FieldsTaken (start.statusRead response.line) ((start.statusRead response.line).takeFields done).2 done.length ∧
      (start.statusRead response.line).takeFields response.head.fields =
        ((start.statusRead response.line).takeFields done).2.takeFields todo := by
  have taken := readable.taken
  rw [split] at taken ⊢
  obtain ⟨first, rest⟩ := takeFields_append taken
  exact ⟨takeFields_taken rfl first, rest⟩

theorem Reader.field_turn (compares : ComparesAscii) {done todo : List Field} {field : Field}
    (split : response.head.fields = done ++ field :: todo) (noHost : done.any (·.isNamed "Host") = false)
    (seen : Seen done user)
    (bytes : left ++ more = fieldBytes (field :: todo) ++ (response.head.empty.bytes ++ (response.body ++ later))) :
    MovesOn H Seen Stopped start response later ⟨((start.statusRead response.line).takeFields done).2, user⟩
      left more := by
  obtain ⟨among, rest⟩ := readable.among split
  obtain ⟨first, -⟩ := takeFields_append (split ▸ readable.taken)
  have hosts := takeFields_haveHost compares first
  have next : ((start.statusRead response.line).takeFields (done ++ [field])).2 =
      (((start.statusRead response.line).takeFields done).2.takeField field.name field.value).2 ∧
      (((start.statusRead response.line).takeFields done).2.takeField field.name field.value).1 = true := by
    have taken := readable.taken
    rw [split, List.append_cons] at taken
    have step := (takeFields_append (takeFields_append taken).1)
    have ok := (takeFields_append taken).1
    rw [step.2, Parser.takeFields] at ok ⊢
    split at ok
    · next accepted =>
      rw [if_pos accepted]
      exact ⟨rfl, accepted⟩
    · next refused => exact absurd ok refused
  have room : ¬(((start.statusRead response.line).takeFields done).2.config.maxHeaderCount ≠ 0 ∧
      ((start.statusRead response.line).takeFields done).2.headerCount ≥
        ((start.statusRead response.line).takeFields done).2.config.maxHeaderCount) := by
    have fits := readable.roomy.count
    have count : ((start.statusRead response.line).takeFields done).2.headerCount = done.length := by
      rw [among.count]
      exact Nat.zero_add _
    have config : ((start.statusRead response.line).takeFields done).2.config = start.config := among.config
    rw [count, config]
    rw [split, List.length_append, List.length_cons] at fits
    omega
  have fits : ((start.statusRead response.line).takeFields done).2.config.maxLineLength = 0 ∨
      field.line.length < ((start.statusRead response.line).takeFields done).2.config.maxLineLength := by
    rw [among.config]
    exact readable.roomy.lines field (by simp [split])
  have bytes : left ++ more = field.line ++ field.ending.bytes ++
      (fieldBytes todo ++ (response.head.empty.bytes ++ (response.body ++ later))) := by
    rw [bytes]
    simp [fieldBytes, Field.bytes]
  have state := among.state
  generalize ((start.statusRead response.line).takeFields done).2 = p at *
  have unfolded : turn H ⟨p, user⟩ left = turnHead H ⟨p, user⟩ left := by simp only [turn, state]
  rw [MovesOn, unfolded, turnHead]
  rcases line_arrives field.ending field.line_unbroken fits bytes with ⟨waits, missing⟩ | ⟨left', rfl, rest, taken⟩
  · rw [waits]
    exact .inl ⟨rfl, missing⟩
  · have line : parseHeadLine H field.line ⟨p, user⟩ =
        (Evhtp.parseHeader H field.line false ⟨p.countHeader, user⟩).2 := by
      have trailer : (p.state == .trailers) = false := by simp [state]
      rw [parseHeadLine, if_neg (by simp [state]), if_neg field.line_wellFormed.1, if_neg room, trailer]
    rw [taken]
    refine .inr ⟨_, _, rfl, ?_⟩
    rw [line, List.drop_left, rest]
    rcases reader.parseHeader compares field seen (hosts.trans noHost) next.2 with
      ⟨other, user', parsed, seen'⟩ | ⟨host, user', parsed, stopped⟩
    · rw [parsed, ← next.1]
      exact .headers (by rw [split, List.append_cons]) (by simp [noHost, other]) seen'
    · rw [parsed]
      exact .stopped rfl (by simp [split, host]) stopped

theorem Reader.end_turn (noHost : response.head.fields.any (·.isNamed "Host") = false)
    (seen : Seen response.head.fields user)
    (bytes : left ++ more = response.head.empty.bytes ++ (response.body ++ later)) :
    MovesOn H Seen Stopped start response later
      ⟨((start.statusRead response.line).takeFields response.head.fields).2, user⟩ left more := by
  have among := takeFields_taken rfl readable.taken
  have framed := readable.framed
  have place := readable.body
  have reads : ((start.statusRead response.line).takeFields response.head.fields).2.flags.skipBody = false :=
    among.skipBody
  have running : ((start.statusRead response.line).takeFields response.head.fields).2.flags.paused = false :=
    among.paused.trans readable.running
  have sound : ((start.statusRead response.line).takeFields response.head.fields).2.error = .none := among.error
  have state := among.state
  generalize ((start.statusRead response.line).takeFields response.head.fields).2 = p at *
  have checked := framing_checked p
  have quiet : (framing p).2.flags.paused = false := checked.silent.paused.trans running
  have kept : (framing p).2.error = .none := (checked.error_eq framed (by simp [state])).trans sound
  have asked : (framing p).2.flags.skipBody = false := (framing_skipBody p).trans reads
  have unfolded : turn H ⟨p, user⟩ left = turnHead H ⟨p, user⟩ left := by simp only [turn, state]
  rw [MovesOn, unfolded, turnHead]
  have unbroken : Unbroken [] := List.forall_mem_nil _
  rcases line_arrives response.head.empty unbroken (Nat.eq_zero_or_pos p.config.maxLineLength) bytes with
    ⟨waits, missing⟩ | ⟨left', rfl, rest, taken⟩
  · rw [waits]
    exact .inl ⟨rfl, missing⟩
  · obtain ⟨user', called, seen'⟩ := reader.complete (p := (framing p).2.headDone) seen
    rw [taken]
    refine .inr ⟨_, _, rfl, ?_⟩
    rw [List.drop_left, rest, parseHeadLine, if_neg (by simp [state]), if_pos rfl, if_neg (by simp [state]),
      endHead, if_pos framed, called, skipIfAsked]
    cases skip with
    | false =>
      rw [if_neg (by simp [Parser.replied, Parser.headDone, asked])]
      have same : (framing p).2.headDone.replied { skipBody := false } = (framing p).2.headDone := by
        simp [Parser.replied]
      rw [same]
      exact .body quiet kept place noHost seen'
    | true =>
      rw [if_pos (by simp [Parser.replied]), place.at_end rfl]
      refine .body ?_ ?_ (.complete rfl) noHost seen'
      · simpa [Parser.replied, Parser.headDone] using quiet
      · simpa [Parser.replied, Parser.headDone] using kept

omit readable [Htstring] in
theorem Reader.parseBody {p : Parser} {fields : List Field} (seen : Seen fields user) (mode : p.body = .length)
    (pending : 0 < p.contentLen) (some : left ≠ []) :
    ∃ user', Evhtp.parseBody H left ⟨p, user⟩ =
      (⟨p.bodyRead (min left.length p.contentLen), user'⟩, min left.length p.contentLen) ∧ Seen fields user' := by
  have length := List.length_pos_iff.mpr some
  have piece : p.delimitedPiece left = min left.length p.contentLen := by
    rw [Parser.delimitedPiece]
    by_cases longer : left.length > p.contentLen
    · rw [if_pos ⟨mode, longer⟩]
      omega
    · rw [if_neg (fun both => longer both.2)]
      omega
  obtain ⟨user', called, seen'⟩ := reader.body (p := p) (left.take (min left.length p.contentLen)) seen
  refine ⟨user', ?_, seen'⟩
  simp only [Evhtp.parseBody, mode, parseDelimited, piece]
  rw [if_pos (by omega), called, countDelimited, if_pos ⟨rfl, mode⟩]
  rfl

omit readable in
theorem Reader.body_turn {p : Parser} {rest : Bytes} (running : p.flags.paused = false) (sound : p.error = .none)
    (here : p.state = .body) (mode : p.body = .length) (length : p.contentLen = rest.length) (some : rest ≠ [])
    (noHost : response.head.fields.any (·.isNamed "Host") = false) (seen : Seen response.head.fields user)
    (bytes : left ++ more = rest ++ later) :
    MovesOn H Seen Stopped start response later ⟨p, user⟩ left more := by
  by_cases empty : left = []
  · subst empty
    refine .inl ⟨by simp only [turn, here, turnBody, if_true], ?_⟩
    rintro rfl
    exact some (List.append_eq_nil_iff.mp bytes.symm).1
  · have pending := List.length_pos_iff.mpr some
    have positive := List.length_pos_iff.mpr empty
    obtain ⟨user', parsed, seen'⟩ := reader.parseBody seen mode (length ▸ pending) empty
    rw [length] at parsed
    refine .inr ⟨⟨p.bodyRead (min left.length rest.length), user'⟩, min left.length rest.length, ?_, ?_⟩
    · have progress : ¬(min left.length rest.length = 0 ∧
          (p.bodyRead (min left.length rest.length)).state = .body) := by omega
      simp only [turn, here, turnBody, if_neg empty, parsed, if_neg progress]
    · rcases List.append_eq_append_iff.mp bytes with ⟨missing, rfl, after⟩ | ⟨left', rfl, after⟩
      · have all : min left.length (left ++ missing).length = left.length := by
          rw [List.length_append]
          omega
        have left_over : p.contentLen - left.length = missing.length := by
          rw [length, List.length_append]
          omega
        rw [all, List.drop_length, List.nil_append, after]
        refine .body running sound ?_ noHost seen'
        by_cases whole : missing = []
        · rw [whole] at left_over ⊢
          exact .complete (if_pos left_over)
        · refine .within ?_ mode left_over whole
          refine (if_neg ?_).trans here
          rw [left_over]
          simpa using whole
      · have all : min (rest ++ left').length rest.length = rest.length := by
          rw [List.length_append]
          omega
        rw [all, List.drop_left, ← after]
        refine .body (p := p.bodyRead rest.length) running sound (.complete (if_pos ?_)) noHost seen'
        omega

/-- At each place but the last a turn leads to another place, unless bytes are missing. -/
theorem Reader.turn (compares : ComparesAscii) {s : Scan σ}
    (place : ResponsePlace Seen Stopped start response later s (left ++ more))
    (undone : s.p.state ≠ .complete ∧ s.p.state ≠ .error) :
    MovesOn H Seen Stopped start response later s left more := by
  generalize bytes : left ++ more = rest at place
  cases place with
  | idle seen => exact reader.idle_turn readable seen bytes
  | begun seen => exact reader.begun_turn readable seen bytes
  | @headers user done todo split noHost seen =>
    cases todo with
    | nil =>
      obtain rfl : done = response.head.fields := by rw [split, List.append_nil]
      exact reader.end_turn readable noHost seen bytes
    | cons field todo => exact reader.field_turn readable compares split noHost seen bytes
  | body running sound place noHost seen =>
    cases place with
    | within here mode length some => exact reader.body_turn running sound here mode length some noHost seen bytes
    | complete here => exact absurd here undone.1
  | stopped failed => exact absurd failed undone.2

omit reader in
theorem Readable.sound (sound : start.error = .none) {s : Scan σ} {rest : Bytes}
    (place : ResponsePlace Seen Stopped start response later s rest) (alive : s.p.state ≠ .error) :
    s.p.flags.paused = false ∧ s.p.error = .none ∧ s.p.Sane := by
  cases place with
  | idle => exact ⟨readable.running, sound, .of_state (by simp [readable.here])⟩
  | begun => exact ⟨readable.running, rfl, .of_state nofun⟩
  | headers split =>
    obtain ⟨among, -⟩ := readable.among split
    exact ⟨among.paused.trans readable.running, among.error, .of_state (by simp [among.state])⟩
  | body running sound place =>
    cases place with
    | within here mode length some =>
      refine ⟨running, sound, by simp [mode], fun _ _ => ?_, by simp [mode]⟩
      rw [length]
      exact List.length_pos_iff.mpr some
    | complete here => exact ⟨running, sound, .of_state (by simp [here])⟩
  | stopped failed => exact absurd failed alive

omit reader readable in
theorem ResponsePlace.seen {s : Scan σ} {rest : Bytes} (place : ResponsePlace Seen Stopped start response later s rest)
    (alive : s.p.state ≠ .error) : ∃ fields, Seen fields s.user := by
  cases place with
  | idle seen | begun seen | headers _ _ seen | body _ _ _ _ seen => exact ⟨_, seen⟩
  | stopped failed => exact absurd failed alive

omit reader in
theorem Readable.gaveUp {s : Scan σ} {rest : Bytes} (place : ResponsePlace Seen Stopped start response later s rest)
    (failed : s.p.state = .error) : response.head.fields.any (·.isNamed "Host") = true ∧ Stopped s.user := by
  cases place with
  | idle => cases readable.here.symm.trans failed
  | begun => cases failed
  | headers split => cases (readable.among split).1.state.symm.trans failed
  | body _ _ place =>
    cases place with
    | within here | complete here => cases here.symm.trans failed
  | stopped _ host stopped => exact ⟨host, stopped⟩

/-- What a run on the bytes that are there comes to. -/
inductive Outcome [Htstring] {σ : Type} (H : Hooks σ) (Seen : List Field → σ → Prop) (Stopped : σ → Prop)
    (start : Parser) (response : Response) (later more : Bytes) : Scan σ → Bytes → Prop
  | waits {s left} (missing : more ≠ []) (place : ResponsePlace Seen Stopped start response later s (left ++ more))
      (alive : s.p.state ≠ .error) : Outcome H Seen Stopped start response later more s left
  | stopped {s left} (host : response.head.fields.any (·.isNamed "Host") = true) (stopped : Stopped s.user) :
      Outcome H Seen Stopped start response later more s left
  | completed {p user left} (done : p.state = .complete) (running : p.flags.paused = false) (sound : p.error = .none)
      (noHost : response.head.fields.any (·.isNamed "Host") = false) (seen : Seen response.head.fields user)
      (rest : left ++ more = later) :
      Outcome H Seen Stopped start response later more (finishMessage H ⟨p, user⟩) left

theorem Reader.run (compares : ComparesAscii) (sound : start.error = .none) {s : Scan σ}
    (place : ResponsePlace Seen Stopped start response later s (left ++ more)) (alive : s.p.state ≠ .error) :
    Outcome H Seen Stopped start response later more (runLoop H (runFuel left) left s).1
      (left.drop (runLoop H (runFuel left) left s).2) := by
  obtain ⟨-, last, path, ended⟩ := run_spec H (readable.sound sound place alive).2.2 left
  generalize runLoop H (runFuel left) left s = result at *
  have reached : ∀ {config : Scan σ × Bytes}, Relation.ReflTransGen (Within H) (s, left) config →
      ResponsePlace Seen Stopped start response later config.1 (config.2 ++ more) := by
    intro config path
    induction path with
    | refl => exact place
    | @tail before _ _ within ih =>
      obtain ⟨-, undone, state, used, taken, rfl⟩ := within
      have working := turn_alive taken
      rcases reader.turn readable compares ih ⟨undone, working⟩ with ⟨waits, -⟩ | ⟨after, used', moved, place⟩
      · cases waits.symm.trans taken
      · cases moved.symm.trans taken
        exact place
  have place' := reached path
  obtain ⟨result, used⟩ := result
  dsimp only at *
  by_cases failed : last.p.state = .error
  · have same : result = last := by
      cases ended with
      | completed done => cases done.symm.trans failed
      | failed | paused | waiting => rfl
    rw [same]
    obtain ⟨host, stopped⟩ := readable.gaveUp place' failed
    exact .stopped host stopped
  · obtain ⟨running, -, -⟩ := readable.sound sound place' failed
    cases ended with
    | completed done =>
      obtain ⟨p, user⟩ := last
      generalize bytes : left.drop used ++ more = rest at place'
      cases place' with
      | idle => cases readable.here.symm.trans done
      | begun => cases done
      | headers split => cases (readable.among split).1.state.symm.trans done
      | body running sound place noHost seen =>
        rw [place.at_end done] at bytes
        exact .completed done running sound noHost seen bytes
      | stopped failed => cases done.symm.trans failed
    | failed here => exact absurd here failed
    | paused paused => cases running.symm.trans paused
    | waiting waits =>
      have undone : last.p.state ≠ .complete := by
        intro done
        simp [Evhtp.turn, done] at waits
      rcases reader.turn readable compares place' ⟨undone, failed⟩ with ⟨-, missing⟩ | ⟨after, used', moved, -⟩
      · exact .waits missing place' failed
      · cases waits.symm.trans moved

end

end Evhtp
