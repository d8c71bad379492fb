import Evhtp.Proofs.HeadSays
import Evhtp.Proofs.Numbers

/-! The framing of requests. Where the body of a request ends is decided by its fields in one way or not
at all: there is no head that two readers of the rules below could frame differently. -/

namespace Evhtp

section
variable [Htstring]

/-- The rules, for the fields of a request: the mode of its body, and its length. -/
inductive RequestFramed (fields : List Field) : BodyMode → Nat → Prop
  | none (noLength : fields.any (·.isNamed "Content-Length") = false)
      (noCoding : fields.any (·.isNamed "Transfer-Encoding") = false) : RequestFramed fields .none 0
  | length {n : Nat} (noCoding : fields.any (·.isNamed "Transfer-Encoding") = false)
      (length : fields.any (·.isNamed "Content-Length") = true)
      (agree : ∀ field ∈ fields, field.isNamed "Content-Length" = true →
        Htstring.elements field.value ≠ [] ∧ ∀ element ∈ Htstring.elements field.value, Decimal element n)
      (small : n < 2 ^ 64) : RequestFramed fields (if n = 0 then .none else .length) n
  | chunked {known : List Bytes} {last : Bytes} (noLength : fields.any (·.isNamed "Content-Length") = false)
      (codings : elementsOf "Transfer-Encoding" fields = known ++ [last])
      (all : ∀ coding ∈ known, knownCoding coding = true) (final : sameText last "chunked" = true) :
      RequestFramed fields .chunked 0

theorem RequestFramed.unique {fields : List Field} {body body' : BodyMode} {n n' : Nat}
    (first : RequestFramed fields body n) (second : RequestFramed fields body' n') : body = body' ∧ n = n' := by
  have coded : ∀ {known : List Bytes} {last : Bytes}, elementsOf "Transfer-Encoding" fields = known ++ [last] →
      fields.any (·.isNamed "Transfer-Encoding") = false → False := by
    intro known last codings absent
    rw [elementsOf_absent absent] at codings
    simp at codings
  cases first with
  | none noLength noCoding =>
    cases second with
    | none => exact ⟨rfl, rfl⟩
    | length _ length => simp [noLength] at length
    | chunked _ codings => exact (coded codings noCoding).elim
  | length noCoding length agree =>
    cases second with
    | none noLength => simp [noLength] at length
    | length _ _ agree' =>
      obtain ⟨field, member, named⟩ := List.any_eq_true.mp length
      obtain ⟨element, inside⟩ := List.exists_mem_of_ne_nil _ (agree field member named).1
      have value := ((agree field member named).2 element inside).2.2
      have value' := ((agree' field member named).2 element inside).2.2
      rw [value] at value'
      subst value'
      exact ⟨rfl, rfl⟩
    | chunked _ codings => exact (coded codings noCoding).elim
  | chunked noLength codings =>
    cases second with
    | none _ noCoding => exact (coded codings noCoding).elim
    | length noCoding => exact (coded codings noCoding).elim
    | chunked => exact ⟨rfl, rfl⟩

theorem RequestFramed.lengths {fields : List Field} {body : BodyMode} {n : Nat} (framed : RequestFramed fields body n) :
    LengthsAgree fields n := by
  have absent : fields.any (·.isNamed "Content-Length") = false → LengthsAgree fields n := by
    intro none field member named
    rw [List.any_eq_false] at none
    exact absurd named (none field member)
  cases framed with
  | none noLength => exact absent noLength
  | length _ _ agree small =>
    intro field member named
    exact ⟨(agree field member named).1,
      fun element inside => parseU64_iff.mpr ⟨(agree field member named).2 element inside, small⟩⟩
  | chunked noLength => exact absent noLength

omit [Htstring] in
theorem knownCoding_not_chunked {coding : Bytes} (known : knownCoding coding = true) :
    sameText coding "chunked" = false := by
  simp only [knownCoding, sameText, Bool.or_eq_true, beq_iff_eq] at known
  rcases known with ((same | same) | same) | same <;> rw [sameText, same] <;> decide

omit [Htstring] in
/-- The codings flags say whether the codings are known ones and a final chunked. -/
theorem CodingsSeen.chunked_last {codings : List Bytes} {flags : ParserFlags} (seen : CodingsSeen codings flags) :
    (flags.teBad = false ∧ flags.chunked = true ∧ flags.teUnknown = false) ↔
      ∃ known last, codings = known ++ [last] ∧ (∀ coding ∈ known, knownCoding coding = true) ∧
        sameText last "chunked" = true := by
  rw [seen.teBad, seen.chunked, seen.teUnknown]
  rcases codings.eq_nil_or_concat' with rfl | ⟨front, last, rfl⟩
  · simp
  · rw [List.dropLast_concat]
    constructor
    · rintro ⟨bad, chunked, unknown⟩
      have final : sameText last "chunked" = true := by simpa [bad] using chunked
      refine ⟨front, last, rfl, fun coding member => ?_, final⟩
      rw [List.any_eq_false] at bad unknown
      have notChunked := bad coding member
      have notUnknown := unknown coding (List.mem_append_left _ member)
      simpa [notChunked] using notUnknown
    · rintro ⟨known, last', same, all, final⟩
      obtain ⟨rfl, ends⟩ := List.append_inj' same rfl
      obtain rfl : last = last' := by simpa using ends
      refine ⟨?_, by simp [final], ?_⟩
      · rw [List.any_eq_false]
        intro coding member
        simp [knownCoding_not_chunked (all coding member)]
      · rw [List.any_eq_false]
        intro coding member
        rcases List.mem_append.mp member with member | member
        · simp [all coding member]
        · simp [List.mem_singleton.mp member, final]

theorem Says.framing_request {start p : Parser} {fields : List Field} (said : Says start fields p)
    (request : start.type = .request) (read : start.flags.skipBody = false) :
    if (framing p).1 then RequestFramed fields (framing p).2.body (framing p).2.contentLen
    else ¬∃ body n, RequestFramed fields body n := by
  have type : p.type = .request := said.type.trans request
  have skip : p.flags.skipBody = false := said.skipBody.trans read
  have known := said.codings.chunked_last
  by_cases te : p.flags.haveTe = true
  · have present : fields.any (·.isNamed "Transfer-Encoding") = true := said.haveTe.symm.trans te
    by_cases good : (p.flags.teBad = false ∧ p.flags.chunked = true ∧ p.flags.teUnknown = false) ∧ p.flags.haveCl = false
    · obtain ⟨codings, noLength⟩ := good
      have result : framing p = (true, { p with body := .chunked, contentLen := 0, chunk := .size }) := by
        simp [framing, type, skip, te, codings, noLength]
      rw [if_pos (congrArg Prod.fst result), result]
      obtain ⟨front, last, same, all, final⟩ := known.mp codings
      exact .chunked (said.haveCl.symm.trans noLength) same all final
    · have failed : (framing p).1 = false := by
        by_cases bad : p.flags.teBad = true
        · simp [framing, type, skip, te, bad]
        · have other : p.flags.chunked = false ∨ p.flags.teUnknown = true ∨ p.flags.haveCl = true := by
            revert good bad
            cases p.flags.chunked <;> cases p.flags.teUnknown <;> cases p.flags.haveCl <;> simp
          simp [framing, type, skip, te, bad, other]
      rw [if_neg (by simp [failed])]
      rintro ⟨body, n, framed⟩
      cases framed with
      | none _ noCoding => simp [present] at noCoding
      | length noCoding => simp [present] at noCoding
      | chunked noLength codings all final =>
        exact good ⟨known.mpr ⟨_, _, codings, all, final⟩, said.haveCl.trans noLength⟩
  · rw [Bool.not_eq_true] at te
    have absent : fields.any (·.isNamed "Transfer-Encoding") = false := said.haveTe.symm.trans te
    by_cases cl : p.flags.haveCl = true
    · have present : fields.any (·.isNamed "Content-Length") = true := said.haveCl.symm.trans cl
      have agree : ∀ field ∈ fields, field.isNamed "Content-Length" = true → Htstring.elements field.value ≠ [] ∧
          ∀ element ∈ Htstring.elements field.value, Decimal element p.origContentLen := by
        intro field member named
        obtain ⟨some, all⟩ := said.lengths field member named
        exact ⟨some, fun element inside => (parseU64_iff.mp (all element inside)).1⟩
      have small : p.origContentLen < 2 ^ 64 := by
        obtain ⟨field, member, named⟩ := List.any_eq_true.mp present
        obtain ⟨element, inside⟩ := List.exists_mem_of_ne_nil _ (said.lengths field member named).1
        exact (parseU64_iff.mp ((said.lengths field member named).2 element inside)).2
      have result : framing p = (true, { p with
          body := if p.origContentLen = 0 then .none else .length, contentLen := p.origContentLen, chunk := .size }) := by
        by_cases zero : p.origContentLen = 0 <;> simp [framing, type, skip, te, cl, zero]
      rw [if_pos (congrArg Prod.fst result), result]
      exact .length absent present agree small
    · rw [Bool.not_eq_true] at cl
      have result : framing p = (true, { p with body := .none, contentLen := 0, chunk := .size }) := by
        simp [framing, type, skip, te, cl]
      rw [if_pos (congrArg Prod.fst result), result]
      exact .none (said.haveCl.symm.trans cl) absent

/-- What a head adds up to is what the rules say, and nothing where they say nothing. -/
theorem Parser.headFraming_request (compares : ComparesAscii) {q : Parser} (said : Says q [] q) (request : q.type = .request)
    (read : q.flags.skipBody = false) (fields : List Field) :
    (∃ framed, q.headFraming fields = some framed ∧ RequestFramed fields framed.body framed.contentLen) ∨
      (q.headFraming fields = none ∧ ¬∃ body n, RequestFramed fields body n) := by
  have said := takeFields_says compares said fields
  rw [List.nil_append] at said
  rw [Parser.headFraming]
  split at said
  next taken =>
    have framed := said.framing_request request read
    split at framed
    next ok =>
      exact .inl ⟨(framing (q.takeFields fields).2).2.headDone, by simp only [taken, ok, and_self, if_true], framed⟩
    next bad => exact .inr ⟨by simp [bad], framed⟩
  next contradicts =>
    refine .inr ⟨by simp [contradicts], ?_⟩
    rintro ⟨body, n, framed⟩
    exact said ⟨n, framed.lengths⟩

theorem RequestFramed.headFraming {fields : List Field} {body : BodyMode} {n : Nat} (rule : RequestFramed fields body n)
    (compares : ComparesAscii) {q : Parser} (said : Says q [] q) (request : q.type = .request)
    (read : q.flags.skipBody = false) :
    ∃ framed, q.headFraming fields = some framed ∧ framed.body = body ∧ framed.contentLen = n := by
  rcases Parser.headFraming_request compares said request read fields with ⟨framed, found, follows⟩ | ⟨-, unframed⟩
  · exact ⟨framed, found, follows.unique rule⟩
  · exact absurd ⟨body, n, rule⟩ unframed

end

section
variable [Htstring] {σ : Type} {H : Hooks σ} (compares : ComparesAscii) (attentive : H.Attentive)
include compares attentive

/-- A request head within the limits is reported complete exactly when the rules frame it, with the mode and the
length they give; any other head ends in an error. -/
theorem request_framing {head : Head} {p : Htparser} (user : σ) (here : p.state = .start)
    (running : p.flags.paused = false) (request : p.type = .request) (within : head.Within p.config)
    (accepted : requestLineOk head.startLine = true) {count : Nat} (enough : 3 * head.bytes.length + 2 < count) :
    (∀ body n, RequestFramed head.fields body n →
      ∃ seen, (Fed.calls H.watched count ⟨p, (user, []), head.bytes⟩).user.2 = [seen] ∧
        seen.body = body ∧ seen.contentLen = n ∧
        (Fed.calls H.watched count ⟨p, (user, []), head.bytes⟩).p.error = .none) ∧
    ((¬∃ body n, RequestFramed head.fields body n) →
      (Fed.calls H.watched count ⟨p, (user, []), head.bytes⟩).user.2 = [] ∧
        (Fed.calls H.watched count ⟨p, (user, []), head.bytes⟩).p.state = .error) := by
  obtain ⟨q, ok, only, -, line, -, reported, failed⟩ := head_outcome attentive user here running within enough
  obtain rfl : ok = true := (line request).trans accepted
  have type : q.type = .request := (congrArg Parser.type only :).trans request
  have read : q.flags.skipBody = false := (congrArg (fun p => p.flags.skipBody) only :)
  have outcome := Parser.headFraming_request compares (Says.begin only) type read head.fields
  rcases outcome with ⟨framed, found, follows⟩ | ⟨none, unframed⟩
  · obtain ⟨seen, error⟩ := reported framed rfl found
    refine ⟨fun body n rule => ?_, fun unframed => absurd ⟨_, _, follows⟩ unframed⟩
    obtain ⟨body', length⟩ := follows.unique rule
    exact ⟨framed, seen, body', length, error⟩
  · exact ⟨fun body n rule => absurd ⟨body, n, rule⟩ unframed, fun _ => failed fun _ => none⟩

end

section
attribute [local instance] Plain.htstring

def gzippedUpload : Head where
  startLine := ascii "POST /upload HTTP/1.1"
  fields := [
    { name := ascii "Host", value := ascii "a", named := by decide, token := by decide, unbroken := by decide
      trimmed := by decide, blank := space_blank },
    { name := ascii "transfer-encoding", value := ascii "gzip, Chunked", named := by decide, token := by decide
      unbroken := by decide, trimmed := by decide, blank := space_blank }]
  some := by decide
  unbroken := by decide

theorem request_framing_gzipped :
    ∃ seen, (Fed.calls silentHooks.watched 300
        ⟨htparserInit (htparserNew defaultConfig) .request, ((), []), gzippedUpload.bytes⟩).user.2 = [seen] ∧
      seen.body = .chunked ∧ seen.contentLen = 0 ∧
      (Fed.calls silentHooks.watched 300
        ⟨htparserInit (htparserNew defaultConfig) .request, ((), []), gzippedUpload.bytes⟩).p.error = .none := by
  have within : gzippedUpload.Within defaultConfig := ⟨by decide, by decide, by decide⟩
  have codings : elementsOf "Transfer-Encoding" gzippedUpload.fields = [ascii "gzip"] ++ [ascii "Chunked"] := by
    decide
  have framed : RequestFramed gzippedUpload.fields .chunked 0 :=
    .chunked (by decide) codings (by decide) (by decide)
  have enough : 3 * gzippedUpload.bytes.length + 2 < 300 := by decide
  have accepted : requestLineOk gzippedUpload.startLine = true := by decide
  exact (request_framing Plain.comparesAscii silentHooks_attentive () rfl rfl rfl within accepted enough).1 _ _ framed

end

end Evhtp
