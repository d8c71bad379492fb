import Evhtp.Proofs.HeadSays
import Evhtp.Proofs.RequestFraming

/-! The framing of responses. Where neither Transfer-Encoding nor Content-Length ends the body, the end of
the connection should: the parser decides that by the version and keep-alive alone, and so disagrees with
its own keep-alive rule on responses that ask for the connection to be closed. -/

namespace Evhtp

def StatusLine.bodyless (line : StatusLine) : Bool :=
  decide (line.code < 200) || line.code == 204 || line.code == 304

theorem StatusLine.bodyless_iff {line : StatusLine} {status : Nat} (same : status = line.code) :
    line.bodyless = true ↔ status < 200 ∨ status = 204 ∨ status = 304 := by
  simp [StatusLine.bodyless, same, or_assoc]

section
variable [Htstring] {line : StatusLine} {start p : Parser} {fields : List Field}

/-- The rules for the body of a response, of which the last refers to the parser's keep-alive rule. -/
inductive ResponseFramed (line : StatusLine) (fields : List Field) (seen : Parser) : Prop
  | bodyless (status : line.bodyless = true) (none : seen.body = .none)
  | chunked {known : List Bytes} {last : Bytes} (status : line.bodyless = false)
      (codings : elementsOf "Transfer-Encoding" fields = known ++ [last]) (final : sameText last "chunked" = true)
      (chunked : seen.body = .chunked)
  | identity (status : line.bodyless = false) (coding : fields.any (·.isNamed "Transfer-Encoding") = true)
      (other : ∀ coding ∈ elementsOf "Transfer-Encoding" fields, sameText coding "chunked" = false)
      (identity : seen.body = .identity)
  | length {n : Nat} (status : line.bodyless = false)
      (noCoding : fields.any (·.isNamed "Transfer-Encoding") = false)
      (length : fields.any (·.isNamed "Content-Length") = true) (agree : LengthsAgree fields n)
      (body : seen.body = if n = 0 then .none else .length) (content : seen.contentLen = n)
  | unframed (status : line.bodyless = false)
      (noCoding : fields.any (·.isNamed "Transfer-Encoding") = false)
      (noLength : fields.any (·.isNamed "Content-Length") = false)
      (body : seen.body = if seen.shouldKeepAlive then .none else .identity)

/-- A response whose body only the end of the connection ends, which asks for that end and would otherwise keep it
alive. -/
def ClosesUnframed (line : StatusLine) (fields : List Field) : Prop :=
  line.bodyless = false ∧ fields.any (·.isNamed "Transfer-Encoding") = false ∧
    fields.any (·.isNamed "Content-Length") = false ∧
    (elementsOf "Connection" fields).any (sameText · "close") = true ∧
    (11 ≤ line.major * 10 + line.minor ∨ (elementsOf "Connection" fields).any (sameText · "keep-alive") = true)

theorem Says.shouldKeepAlive (said : Says start fields p) :
    p.shouldKeepAlive = (!(elementsOf "Connection" fields).any (sameText · "close") &&
      (decide (start.major * 10 + start.minor ≥ 11) || (elementsOf "Connection" fields).any (sameText · "keep-alive"))) := by
  rw [Parser.shouldKeepAlive, said.tokens.close, said.tokens.keepAlive, said.version.1, said.version.2]
  split
  next close => rw [close]; rfl
  next other => simp [other]

omit [Htstring] in
theorem framing_keepAlive (p : Parser) : (framing p).2.headDone.shouldKeepAlive = p.shouldKeepAlive := by
  rw [framing]
  dsimp only
  repeat' split
  all_goals rfl

section
variable {start p : Parser} {fields : List Field} (said : Says start fields p) (response : start.type = .response)
  (read : start.flags.skipBody = false) {line : StatusLine} (status : start.status = line.code)
  (bodied : line.bodyless = false)
include said response read status bodied

theorem Says.mayHave :
    p.type = .response ∧ p.flags.skipBody = false ∧ ¬(p.status < 200 ∨ p.status = 204 ∨ p.status = 304) := by
  refine ⟨said.type.trans response, said.skipBody.trans read, ?_⟩
  simp [← StatusLine.bodyless_iff (said.status.trans status), bodied]

theorem Says.framing_length (noCoding : fields.any (·.isNamed "Transfer-Encoding") = false)
    (length : fields.any (·.isNamed "Content-Length") = true) :
    framing p = (true, { p with
      body := if p.origContentLen = 0 then .none else .length, contentLen := p.origContentLen, chunk := .size }) := by
  obtain ⟨type, skip, mayHave⟩ := said.mayHave response read status bodied
  have te : p.flags.haveTe = false := said.haveTe.trans noCoding
  have cl : p.flags.haveCl = true := said.haveCl.trans length
  by_cases zero : p.origContentLen = 0 <;> simp [framing, type, skip, mayHave, te, cl, zero]

/-- With neither, only an old version without keep-alive is read until the connection ends. -/
theorem Says.framing_unframed (noCoding : fields.any (·.isNamed "Transfer-Encoding") = false)
    (noLength : fields.any (·.isNamed "Content-Length") = false) :
    framing p = (true, { p with
      body := if p.major * 10 + p.minor < 11 ∧ p.flags.connKeepAlive = false then .identity else .none
      contentLen := 0, chunk := .size }) := by
  obtain ⟨type, skip, mayHave⟩ := said.mayHave response read status bodied
  have te : p.flags.haveTe = false := said.haveTe.trans noCoding
  have cl : p.flags.haveCl = false := said.haveCl.trans noLength
  by_cases old : p.major * 10 + p.minor < 11 ∧ p.flags.connKeepAlive = false <;>
    simp [framing, type, skip, mayHave, te, cl, old]

end

theorem Says.framing_bodyless (said : Says start fields p)
    (response : start.type = .response) (read : start.flags.skipBody = false)
    (status : start.status = line.code) (bodyless : line.bodyless = true) :
    framing p = (true, { p with body := .none, contentLen := 0, chunk := .size }) := by
  have type : p.type = .response := said.type.trans response
  have skip : p.flags.skipBody = false := said.skipBody.trans read
  simp [framing, type, skip, (StatusLine.bodyless_iff (said.status.trans status)).mp bodyless]

/-- The part of the rules the parser follows: a response that a status, a coding or a length frames. -/
theorem Says.framing_explicit (said : Says start fields p)
    (response : start.type = .response) (read : start.flags.skipBody = false)
    (status : start.status = line.code) (accepted : (framing p).1 = true)
    (explicit : line.bodyless = true ∨ p.flags.haveTe = true ∨ p.flags.haveCl = true) :
    ResponseFramed line fields (framing p).2.headDone := by
  have type : p.type = .response := said.type.trans response
  have skip : p.flags.skipBody = false := said.skipBody.trans read
  have noBody := StatusLine.bodyless_iff (said.status.trans status)
  cases bodyless : line.bodyless with
  | true =>
    have result := said.framing_bodyless response read status bodyless
    exact .bodyless bodyless (by rw [result]; rfl)
  | false =>
    have bodied : ¬(p.status < 200 ∨ p.status = 204 ∨ p.status = 304) := by simp [← noBody, bodyless]
    cases te : p.flags.haveTe with
    | true =>
      have present : fields.any (·.isNamed "Transfer-Encoding") = true := said.haveTe.symm.trans te
      have good : p.flags.teBad = false := by
        by_contra bad
        rw [Bool.not_eq_false] at bad
        simp [framing, type, skip, bodied, te, bad] at accepted
      cases coded : p.flags.chunked with
      | true =>
        have result : framing p = (true, { p with body := .chunked, contentLen := 0, chunk := .size }) := by
          simp [framing, type, skip, bodied, te, good, coded]
        obtain ⟨known, last, codings, final⟩ := said.codings.last_chunked good coded
        exact .chunked bodyless codings final (by rw [result]; rfl)
      | false =>
        have result : framing p = (true, { p with body := .identity, contentLen := 0, chunk := .size }) := by
          simp [framing, type, skip, bodied, te, good, coded]
        refine .identity bodyless present (fun coding member => ?_) (by rw [result]; rfl)
        have none := said.codings.chunked.symm.trans coded
        rw [List.any_eq_false] at none
        simpa using none coding member
    | false =>
      have cl : p.flags.haveCl = true := by simpa [bodyless, te] using explicit
      have noCoding := said.haveTe.symm.trans te
      have length := said.haveCl.symm.trans cl
      have result := said.framing_length response read status bodyless noCoding length
      exact .length bodyless noCoding length said.lengths (by rw [result]; rfl) (by rw [result]; rfl)

theorem Says.framing_response (said : Says start fields p)
    (response : start.type = .response) (read : start.flags.skipBody = false)
    (status : start.status = line.code) (version : start.major = line.major ∧ start.minor = line.minor)
    (accepted : (framing p).1 = true) :
    ResponseFramed line fields (framing p).2.headDone ↔ ¬ClosesUnframed line fields := by
  by_cases explicit : line.bodyless = true ∨ p.flags.haveTe = true ∨ p.flags.haveCl = true
  · refine iff_of_true (said.framing_explicit response read status accepted explicit) ?_
    rintro ⟨bodied, noCoding, noLength, -⟩
    rw [← said.haveTe] at noCoding
    rw [← said.haveCl] at noLength
    simp [bodied, noCoding, noLength] at explicit
  · simp only [not_or, Bool.not_eq_true] at explicit
    obtain ⟨bodied, te, cl⟩ := explicit
    have noCoding : fields.any (·.isNamed "Transfer-Encoding") = false := said.haveTe.symm.trans te
    have noLength : fields.any (·.isNamed "Content-Length") = false := said.haveCl.symm.trans cl
    have body : (framing p).2.headDone.body =
        if p.major * 10 + p.minor < 11 ∧ p.flags.connKeepAlive = false then .identity else .none := by
      rw [said.framing_unframed response read status bodied noCoding noLength]
      rfl
    have alive := (framing_keepAlive p).trans said.shouldKeepAlive
    rw [said.version.1, said.version.2, version.1, version.2, said.tokens.keepAlive] at body
    rw [version.1, version.2] at alive
    constructor
    · rintro framed ⟨-, -, -, close, kept⟩
      have closing : (framing p).2.headDone.shouldKeepAlive = false := by simp [alive, close]
      have none : (framing p).2.headDone.body = .none := by
        rw [body, if_neg]
        rintro ⟨old, notKept⟩
        simp [notKept] at kept
        omega
      cases framed with
      | bodyless status => simp [bodied] at status
      | chunked _ codings => simp [elementsOf_absent noCoding] at codings
      | identity _ coding => simp [noCoding] at coding
      | length _ _ length => simp [noLength] at length
      | unframed _ _ _ body' => simp [none, closing] at body'
    · intro open'
      refine .unframed bodied noCoding noLength ?_
      rw [body, alive]
      by_cases close : (elementsOf "Connection" fields).any (sameText · "close") = true
      · have old : ¬(11 ≤ line.major * 10 + line.minor ∨
            (elementsOf "Connection" fields).any (sameText · "keep-alive") = true) :=
          fun kept => open' ⟨bodied, noCoding, noLength, close, kept⟩
        rw [not_or, Bool.not_eq_true] at old
        simp [close, old.2, show line.major * 10 + line.minor < 11 by omega]
      · by_cases old : line.major * 10 + line.minor < 11 <;>
          cases kept : (elementsOf "Connection" fields).any (sameText · "keep-alive") <;>
          simp [close, old, show (11 ≤ line.major * 10 + line.minor) = ¬(line.major * 10 + line.minor < 11) by simp]

end

section
variable [Htstring] {σ : Type} {H : Hooks σ} (compares : ComparesAscii) (attentive : H.Attentive)
include compares attentive

/-- Every response head that is reported complete is framed by the rules unless it closes the connection that alone
could end its body. -/
theorem response_framing {head : Head} {p : Htparser} (user : σ) (here : p.state = .start)
    (running : p.flags.paused = false) (response : p.type = .response) (within : head.Within p.config)
    {count : Nat} (enough : 3 * head.bytes.length + 2 < count) {seen : Parser}
    (reported : (Fed.calls H.watched count ⟨p, (user, []), head.bytes⟩).user.2 = [seen]) :
    ∃ line : StatusLine, line.bytes = head.startLine ∧
      (ResponseFramed line head.fields seen ↔ ¬ClosesUnframed line head.fields) := by
  obtain ⟨q, ok, only, -, -, line, complete, failed⟩ := head_outcome attentive user here running within enough
  have said := takeFields_says compares (Says.begin only) head.fields
  rw [List.nil_append] at said
  have type : q.type = .response := (congrArg Parser.type only :).trans response
  have read : q.flags.skipBody = false := (congrArg (fun p => p.flags.skipBody) only :)
  have alive : ¬(ok = true → q.headFraming head.fields = none) := by
    intro none
    rw [(failed none).1] at reported
    cases reported
  obtain ⟨rfl, framed⟩ := Classical.not_imp.mp alive
  obtain ⟨line, bytes, status, version⟩ := line response
  refine ⟨line, bytes, ?_⟩
  obtain ⟨framed, found⟩ := Option.ne_none_iff_exists'.mp framed
  have same : framed = seen := by
    have := (complete framed rfl found).1.symm.trans reported
    simpa using this
  rw [Parser.headFraming, Option.ite_none_right_eq_some] at found
  obtain ⟨⟨taken, accepted⟩, done⟩ := found
  rw [if_pos taken] at said
  rw [← same, ← Option.some.inj done]
  exact said.framing_response type read status version accepted

end

section
attribute [local instance] Plain.htstring

def plainOk : StatusLine where
  major := 1
  minor := 1
  code := 200
  reason := some (ascii "OK")
  version := by decide
  digits := by decide

def responseHead (fields : List Field) : Head where
  startLine := plainOk.bytes
  fields := fields
  some := by decide
  unbroken := by decide

def connectionClose : Field where
  name := ascii "Connection"
  value := ascii "close"
  named := by decide
  token := by decide
  unbroken := by decide
  trimmed := by decide
  blank := space_blank

def contentLengthFive : Field where
  name := ascii "Content-Length"
  value := ascii "5"
  named := by decide
  token := by decide
  unbroken := by decide
  trimmed := by decide
  blank := space_blank

def freshResponse (fields : List Field) : Fed (Unit × List Parser) :=
  ⟨htparserInit (htparserNew defaultConfig) .response, ((), []), (responseHead fields).bytes⟩

/-- The response asks for the connection to be closed, and its body is cut to nothing. -/
theorem response_framing_closing :
    ∃ seen, (Fed.calls silentHooks.watched 200 (freshResponse [connectionClose])).user.2 = [seen] ∧
      seen.shouldKeepAlive = false ∧ ¬ResponseFramed plainOk [connectionClose] seen := by
  have run : (Fed.calls silentHooks.watched 200 (freshResponse [connectionClose])).user.2.map
      (fun seen => (seen.body, seen.shouldKeepAlive)) = [(.none, false)] := by decide +kernel
  obtain ⟨seen, reported, same⟩ := List.map_eq_singleton_iff.mp run
  obtain ⟨body, alive⟩ := Prod.mk.inj same
  refine ⟨seen, reported, alive, fun framed => ?_⟩
  have bodied : plainOk.bodyless = false := by decide
  have noCoding : [connectionClose].any (·.isNamed "Transfer-Encoding") = false := by decide
  have noLength : [connectionClose].any (·.isNamed "Content-Length") = false := by decide
  cases framed with
  | bodyless status => simp [bodied] at status
  | chunked _ codings => simp [elementsOf_absent noCoding] at codings
  | identity _ coding => simp [noCoding] at coding
  | length _ _ length => simp [noLength] at length
  | unframed _ _ _ body' => simp [body, alive] at body'

theorem response_framing_length :
    ∃ seen, (Fed.calls silentHooks.watched 300 (freshResponse [connectionClose, contentLengthFive])).user.2 = [seen] ∧
      ∃ line : StatusLine, line.bytes = plainOk.bytes ∧
        (ResponseFramed line [connectionClose, contentLengthFive] seen ↔
          ¬ClosesUnframed line [connectionClose, contentLengthFive]) := by
  have run : (Fed.calls silentHooks.watched 300 (freshResponse [connectionClose, contentLengthFive])).user.2.length = 1 := by
    decide +kernel
  obtain ⟨seen, reported⟩ := List.length_eq_one_iff.mp run
  have within : (responseHead [connectionClose, contentLengthFive]).Within defaultConfig :=
    ⟨by decide, by decide, by decide⟩
  have enough : 3 * (responseHead [connectionClose, contentLengthFive]).bytes.length + 2 < 300 := by decide
  refine ⟨seen, reported, ?_⟩
  rw [freshResponse] at reported
  exact (response_framing Plain.comparesAscii silentHooks_attentive () rfl rfl rfl within enough reported)

end

end Evhtp
