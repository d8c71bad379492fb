import Evhtp.Proofs.Head

/-! What the fields of a head say about the framing of its message, and that the parser's flags keep
exactly that: over any number of fields, in any order and interleaved with any others. -/

namespace Evhtp

def sameText (bytes : Bytes) (text : String) : Bool := bytes.map toLower == (ascii text).map toLower

def Field.isNamed (field : Field) (text : String) : Bool := sameText field.name text

def knownCoding (coding : Bytes) : Bool :=
  sameText coding "gzip" || sameText coding "deflate" || sameText coding "compress" || sameText coding "x-gzip"

section
variable [Htstring]
  {flags : ParserFlags} {codings : List Bytes} {field : Field} {fields : List Field} {start p q : Parser} {n : Nat}

def elementsOf (text : String) (fields : List Field) : List Bytes :=
  (fields.filter (·.isNamed text)).flatMap fun field => Htstring.elements field.value

/-- Every Content-Length field has an element, and all of them are one number. -/
def LengthsAgree (fields : List Field) (n : Nat) : Prop :=
  ∀ field ∈ fields, field.isNamed "Content-Length" = true →
    Htstring.elements field.value ≠ [] ∧ ∀ element ∈ Htstring.elements field.value, parseU64 element = some n

structure CodingsSeen (codings : List Bytes) (flags : ParserFlags) : Prop where
  chunked : flags.chunked = codings.any (sameText · "chunked")
  teBad : flags.teBad = codings.dropLast.any (sameText · "chunked")
  teUnknown : flags.teUnknown = codings.any fun coding => !sameText coding "chunked" && !knownCoding coding

structure TokensSeen (tokens : List Bytes) (flags : ParserFlags) : Prop where
  close : flags.connClose = tokens.any (sameText · "close")
  keepAlive : flags.connKeepAlive = tokens.any (sameText · "keep-alive")

/-- The parser after the fields, for one that was `start` before them. -/
structure Says (start : Parser) (fields : List Field) (p : Parser) : Prop where
  type : p.type = start.type
  status : p.status = start.status
  version : p.major = start.major ∧ p.minor = start.minor
  skipBody : p.flags.skipBody = start.flags.skipBody
  haveTe : p.flags.haveTe = fields.any (·.isNamed "Transfer-Encoding")
  codings : CodingsSeen (elementsOf "Transfer-Encoding" fields) p.flags
  haveCl : p.flags.haveCl = fields.any (·.isNamed "Content-Length")
  lengths : LengthsAgree fields p.origContentLen
  tokens : TokensSeen (elementsOf "Connection" fields) p.flags

omit [Htstring] in
theorem CodingsSeen.last_chunked (seen : CodingsSeen codings flags)
    (good : flags.teBad = false) (chunked : flags.chunked = true) :
    ∃ known last, codings = known ++ [last] ∧ sameText last "chunked" = true := by
  rw [seen.teBad] at good
  rw [seen.chunked] at chunked
  rcases codings.eq_nil_or_concat' with rfl | ⟨front, last, rfl⟩
  · cases chunked
  · rw [List.dropLast_concat] at good
    exact ⟨front, last, rfl, by simpa [good] using chunked⟩

theorem elementsOf_append (text : String) (fields : List Field) (field : Field) :
    elementsOf text (fields ++ [field]) =
      elementsOf text fields ++ if field.isNamed text then Htstring.elements field.value else [] := by
  by_cases named : field.isNamed text = true <;> simp [elementsOf, named]

theorem ComparesAscii.equalsi (compares : ComparesAscii) (bytes : Bytes) (text : String) :
    Htstring.equalsi bytes (ascii text) = sameText bytes text := by
  rw [Bool.eq_iff_iff, compares, sameText, beq_iff_eq]

theorem ComparesAscii.isKnownCoding (compares : ComparesAscii) (coding : Bytes) :
    isKnownCoding coding = knownCoding coding := by
  simp only [Evhtp.isKnownCoding, knownCoding, compares.equalsi]

omit [Htstring] in
theorem sameText_length {bytes : Bytes} {text : String} (same : sameText bytes text = true) :
    bytes.length = (ascii text).length := by
  have lengths := congrArg List.length (beq_iff_eq.mp same)
  simpa using lengths

omit [Htstring] in
theorem ascii_lengths : (ascii "Transfer-Encoding").length = 17 ∧ (ascii "Content-Length").length = 14 ∧
    (ascii "Connection").length = 10 := by decide

section
variable (compares : ComparesAscii)
include compares

theorem takeField_transferEncoding (p : Parser) (named : field.isNamed "Transfer-Encoding" = true) :
    p.takeField field.name field.value =
      (true, p.countHeader.setFlags (noteTransferEncoding p.flags field.value)) := by
  have length := (sameText_length named).trans ascii_lengths.1
  have same := (compares.equalsi field.name "Transfer-Encoding").trans named
  simp [Parser.takeField, noteField, length, same, Parser.countHeader]

theorem takeField_contentLength (p : Parser) (named : field.isNamed "Content-Length" = true) :
    p.takeField field.name field.value = noteContentLength p.countHeader field.value := by
  have length := (sameText_length named).trans ascii_lengths.2.1
  have same := (compares.equalsi field.name "Content-Length").trans named
  simp [Parser.takeField, noteField, length, same]

theorem takeField_connection (p : Parser) (named : field.isNamed "Connection" = true) :
    p.takeField field.name field.value = (true, p.countHeader.setFlags (noteConnection p.flags field.value)) := by
  have length := (sameText_length named).trans ascii_lengths.2.2
  have same := (compares.equalsi field.name "Connection").trans named
  simp [Parser.takeField, noteField, length, same, Parser.countHeader]

/-- Any other field is accepted, and only the flags of Host and Content-Type may change. -/
theorem takeField_other (p : Parser) (te : field.isNamed "Transfer-Encoding" = false)
    (cl : field.isNamed "Content-Length" = false) (conn : field.isNamed "Connection" = false) :
    ∃ haveHost haveCt multipart, p.takeField field.name field.value =
      (true, p.countHeader.setFlags { p.flags with haveHost, haveCt, multipart }) := by
  have notTe := (compares.equalsi field.name "Transfer-Encoding").trans te
  have notCl := (compares.equalsi field.name "Content-Length").trans cl
  have notConn := (compares.equalsi field.name "Connection").trans conn
  rw [Parser.takeField]
  split
  · split
    · exact ⟨true, p.flags.haveCt, p.flags.multipart, rfl⟩
    · exact ⟨p.flags.haveHost, p.flags.haveCt, p.flags.multipart, rfl⟩
  · have plain : ∃ haveHost haveCt multipart, (true, p.countHeader) =
        (true, p.countHeader.setFlags { p.flags with haveHost, haveCt, multipart }) :=
      ⟨p.flags.haveHost, p.flags.haveCt, p.flags.multipart, rfl⟩
    rw [noteField]
    split
    · rwa [if_neg (by simp [notConn])]
    · rw [noteContentType]
      split
      · exact ⟨p.flags.haveHost, _, _, rfl⟩
      · exact plain
    · rwa [if_neg (by simp [notCl])]
    · rwa [if_neg (by simp [notTe])]
    · exact plain

theorem noteCoding_seen (seen : CodingsSeen codings flags)
    (coding : Bytes) : CodingsSeen (codings ++ [coding]) (noteCoding flags coding) := by
  have bad : (flags.teBad || flags.chunked) = codings.any (sameText · "chunked") := by
    rw [seen.teBad, seen.chunked]
    rcases codings.eq_nil_or_concat with rfl | ⟨front, last, rfl⟩
    · rfl
    · cases front.any (sameText · "chunked") <;> simp_all
  rw [noteCoding, compares.equalsi, compares.isKnownCoding]
  split
  next same => exact ⟨by simp [same], by simpa using bad, by simp [seen.teUnknown, same]⟩
  next other => exact ⟨by simp [seen.chunked, other], by simpa using bad, by simp [seen.teUnknown, other]⟩

theorem noteTransferEncoding_seen (seen : CodingsSeen codings flags)
    (value : Bytes) : ∃ chunked teBad teUnknown,
      noteTransferEncoding flags value = { flags with haveTe := true, chunked, teBad, teUnknown } ∧
        CodingsSeen (codings ++ Htstring.elements value) (noteTransferEncoding flags value) := by
  rw [noteTransferEncoding]
  generalize Htstring.elements value = elements
  have start : CodingsSeen codings { flags with haveTe := true } := ⟨seen.chunked, seen.teBad, seen.teUnknown⟩
  have shape : ∃ chunked teBad teUnknown, ({ flags with haveTe := true } : ParserFlags) =
      { flags with haveTe := true, chunked, teBad, teUnknown } := ⟨_, _, _, rfl⟩
  generalize { flags with haveTe := true } = before at start shape
  clear seen
  induction elements generalizing codings before with
  | nil =>
    obtain ⟨chunked, teBad, teUnknown, same⟩ := shape
    exact ⟨chunked, teBad, teUnknown, same, by simpa using start⟩
  | cons coding rest ih =>
    have next := noteCoding_seen compares start coding
    obtain ⟨chunked, teBad, teUnknown, same⟩ := shape
    rw [List.append_cons]
    apply ih _ next
    rw [same, noteCoding]
    split <;> exact ⟨_, _, _, rfl⟩

theorem noteToken_seen {tokens : List Bytes} (seen : TokensSeen tokens flags)
    (token : Bytes) : TokensSeen (tokens ++ [token]) (noteToken flags token) := by
  rw [noteToken, compares.equalsi, compares.equalsi]
  split
  next close =>
    have other : sameText token "keep-alive" = false := by
      rw [sameText, beq_iff_eq] at close
      rw [sameText, close]
      decide
    exact ⟨by simp [close], by simp [seen.keepAlive, other]⟩
  next open' =>
    split
    next keep => exact ⟨by simp [seen.close, open'], by simp [keep]⟩
    next other => exact ⟨by simp [seen.close, open'], by simp [seen.keepAlive, other]⟩

theorem noteConnection_seen {tokens : List Bytes} (seen : TokensSeen tokens flags)
    (value : Bytes) : ∃ connClose connKeepAlive,
      noteConnection flags value = { flags with connClose, connKeepAlive } ∧
        TokensSeen (tokens ++ Htstring.elements value) (noteConnection flags value) := by
  rw [noteConnection]
  generalize Htstring.elements value = elements
  suffices run : ∀ now, TokensSeen tokens now → (∃ connClose connKeepAlive, now = { flags with connClose, connKeepAlive }) →
      ∃ connClose connKeepAlive, elements.foldl noteToken now = { flags with connClose, connKeepAlive } ∧
        TokensSeen (tokens ++ elements) (elements.foldl noteToken now) from run flags seen ⟨_, _, rfl⟩
  clear seen
  induction elements generalizing tokens with
  | nil =>
    rintro now seen ⟨connClose, connKeepAlive, same⟩
    exact ⟨connClose, connKeepAlive, same, by simpa using seen⟩
  | cons token rest ih =>
    rintro now seen ⟨connClose, connKeepAlive, same⟩
    rw [List.append_cons]
    apply ih _ (noteToken_seen compares seen token)
    rw [same, noteToken]
    split
    · exact ⟨_, _, rfl⟩
    · split <;> exact ⟨_, _, rfl⟩

end

omit [Htstring] in
/-- Content-Length elements that agree are kept as the length; the first that does not is an error. -/
theorem noteLengths_agree (any : Bool) (p : Parser) (elements : List Bytes) :
    if (noteLengths any p elements).1 then
      (any = true ∨ elements ≠ []) ∧ ∃ n, (p.flags.haveCl = true ∨ elements = [] → n = p.origContentLen) ∧
        (∀ element ∈ elements, parseU64 element = some n) ∧
        (noteLengths any p elements).2 =
          { p with origContentLen := n, flags := { p.flags with haveCl := p.flags.haveCl || !elements.isEmpty } }
    else (any = false ∧ elements = []) ∨
      ¬∃ n, (p.flags.haveCl = true → n = p.origContentLen) ∧ ∀ element ∈ elements, parseU64 element = some n := by
  induction elements generalizing any p with
  | nil => cases any <;> simp [noteLengths]
  | cons element rest ih =>
    rw [noteLengths]
    cases parsed : parseU64 element with
    | none => simp [parsed]
    | some n =>
      by_cases other : p.flags.haveCl = true ∧ n ≠ p.origContentLen
      · simp only [if_pos other, Bool.false_eq_true, if_false]
        right
        rintro ⟨m, kept, all⟩
        have same : n = m := by simpa [parsed] using all element (by simp)
        exact other.2 (same.trans (kept other.1))
      · simp only [if_neg other]
        have := ih true { p with origContentLen := n, flags := { p.flags with haveCl := true } }
        split at this
        next ok =>
          rw [if_pos ok]
          obtain ⟨_, m, kept, all, result⟩ := this
          obtain rfl : m = n := kept (.inl rfl)
          refine ⟨.inr (by simp), m, ?_, ?_, ?_⟩
          · rintro (have' | impossible)
            · by_contra different
              exact other ⟨have', different⟩
            · cases impossible
          · simpa [parsed] using all
          · simpa using result
        next failed =>
          rw [if_neg failed]
          right
          rintro ⟨m, kept, all⟩
          have same : n = m := by simpa [parsed] using all element (by simp)
          rcases this with impossible | none
          · cases impossible.1
          · exact none ⟨m, fun _ => same.symm, fun element member => all element (by simp [member])⟩

theorem LengthsAgree.append :
    LengthsAgree (fields ++ [field]) n ↔ LengthsAgree fields n ∧ (field.isNamed "Content-Length" = true →
      Htstring.elements field.value ≠ [] ∧ ∀ element ∈ Htstring.elements field.value, parseU64 element = some n) := by
  unfold LengthsAgree
  rw [List.forall_mem_append, List.forall_mem_singleton]

omit [Htstring] in
theorem Field.isNamed_exclusive {first second : String} (named : field.isNamed first = true)
    (differ : (ascii first).length ≠ (ascii second).length) : field.isNamed second = false := by
  by_contra same
  rw [Bool.not_eq_false] at same
  exact differ ((sameText_length named).symm.trans (sameText_length same))

/-- A length that has been seen is the one number all Content-Length fields agree on. -/
theorem Says.length_unique (said : Says start fields p)
    (haveCl : p.flags.haveCl = true) (agree : LengthsAgree fields n) : n = p.origContentLen := by
  rw [said.haveCl, List.any_eq_true] at haveCl
  obtain ⟨field, member, named⟩ := haveCl
  obtain ⟨element, inside⟩ := List.exists_mem_of_ne_nil _ (agree field member named).1
  have first := (agree field member named).2 element inside
  have second := (said.lengths field member named).2 element inside
  simpa [first] using second

variable (compares : ComparesAscii)
include compares

/-- One more field: it is taken, and the parser then knows what it said, or its lengths contradict. -/
theorem takeField_says (said : Says start fields p) (field : Field) :
    if (p.takeField field.name field.value).1 then
      Says start (fields ++ [field]) (p.takeField field.name field.value).2
    else ¬∃ n, LengthsAgree (fields ++ [field]) n := by
  have sameCodings : ∀ {flags : ParserFlags}, field.isNamed "Transfer-Encoding" = false →
      CodingsSeen (elementsOf "Transfer-Encoding" fields) flags →
      CodingsSeen (elementsOf "Transfer-Encoding" (fields ++ [field])) flags := by
    intro flags other seen
    simpa [elementsOf_append, other] using seen
  have sameTokens : ∀ {flags : ParserFlags}, field.isNamed "Connection" = false →
      TokensSeen (elementsOf "Connection" fields) flags →
      TokensSeen (elementsOf "Connection" (fields ++ [field])) flags := by
    intro flags other seen
    simpa [elementsOf_append, other] using seen
  have sameLengths : field.isNamed "Content-Length" = false → LengthsAgree (fields ++ [field]) p.origContentLen :=
    fun other => LengthsAgree.append.mpr ⟨said.lengths, fun named => by simp [other] at named⟩
  by_cases te : field.isNamed "Transfer-Encoding" = true
  · have notCl : field.isNamed "Content-Length" = false := Field.isNamed_exclusive te (by decide)
    have notConn : field.isNamed "Connection" = false := Field.isNamed_exclusive te (by decide)
    obtain ⟨chunked, teBad, teUnknown, flags, seen⟩ :=
      noteTransferEncoding_seen compares said.codings field.value
    rw [takeField_transferEncoding compares p te, if_pos rfl]
    rw [flags] at seen ⊢
    refine ⟨said.type, said.status, said.version, said.skipBody, ?_, ?_, ?_, sameLengths notCl,
      sameTokens notConn ⟨said.tokens.close, said.tokens.keepAlive⟩⟩
    · simp [Parser.setFlags, te]
    · rw [elementsOf_append, if_pos te]
      exact seen
    · simp [Parser.setFlags, said.haveCl, notCl]
  rw [Bool.not_eq_true] at te
  by_cases cl : field.isNamed "Content-Length" = true
  · have notConn : field.isNamed "Connection" = false := Field.isNamed_exclusive cl (by decide)
    rw [takeField_contentLength compares p cl, noteContentLength]
    have agree := noteLengths_agree false p.countHeader (Htstring.elements field.value)
    split at agree
    next ok =>
      obtain ⟨some, n, kept, all, result⟩ := agree
      have some : Htstring.elements field.value ≠ [] := some.resolve_left (by simp)
      rw [if_pos ok, result]
      refine ⟨said.type, said.status, said.version, said.skipBody, ?_, ?_, ?_, ?_, ?_⟩
      · simp [Parser.countHeader, said.haveTe, te]
      · exact sameCodings te ⟨said.codings.chunked, said.codings.teBad, said.codings.teUnknown⟩
      · simp [Parser.countHeader, cl, some]
      · refine LengthsAgree.append.mpr ⟨?_, fun _ => ⟨some, all⟩⟩
        intro earlier member named
        have haveCl : p.flags.haveCl = true := by
          rw [said.haveCl, List.any_eq_true]
          exact ⟨earlier, member, named⟩
        rw [kept (.inl haveCl)]
        exact said.lengths earlier member named
      · exact sameTokens notConn ⟨said.tokens.close, said.tokens.keepAlive⟩
    next failed =>
      rw [if_neg failed]
      rintro ⟨n, agree'⟩
      obtain ⟨earlier, last⟩ := LengthsAgree.append.mp agree'
      rcases agree with none | none
      · exact (last cl).1 none.2
      · exact none ⟨n, fun haveCl => said.length_unique haveCl earlier, (last cl).2⟩
  rw [Bool.not_eq_true] at cl
  by_cases conn : field.isNamed "Connection" = true
  · obtain ⟨connClose, connKeepAlive, flags, seen⟩ := noteConnection_seen compares said.tokens field.value
    rw [takeField_connection compares p conn, if_pos rfl]
    rw [flags] at seen ⊢
    refine ⟨said.type, said.status, said.version, said.skipBody, ?_, ?_, ?_, sameLengths cl, ?_⟩
    · simp [Parser.setFlags, said.haveTe, te]
    · exact sameCodings te ⟨said.codings.chunked, said.codings.teBad, said.codings.teUnknown⟩
    · simp [Parser.setFlags, said.haveCl, cl]
    · rw [elementsOf_append, if_pos conn]
      exact seen
  rw [Bool.not_eq_true] at conn
  obtain ⟨haveHost, haveCt, multipart, result⟩ := takeField_other compares p te cl conn
  rw [result, if_pos rfl]
  refine ⟨said.type, said.status, said.version, said.skipBody, ?_, ?_, ?_, sameLengths cl, ?_⟩
  · simp [Parser.setFlags, said.haveTe, te]
  · exact sameCodings te ⟨said.codings.chunked, said.codings.teBad, said.codings.teUnknown⟩
  · simp [Parser.setFlags, said.haveCl, cl]
  · exact sameTokens conn ⟨said.tokens.close, said.tokens.keepAlive⟩

theorem takeFields_says {seen : List Field} (said : Says start seen p) (fields : List Field) :
    if (p.takeFields fields).1 then Says start (seen ++ fields) (p.takeFields fields).2
    else ¬∃ n, LengthsAgree (seen ++ fields) n := by
  induction fields generalizing seen p with
  | nil => simpa [Parser.takeFields] using said
  | cons field rest ih =>
    have step := takeField_says compares said field
    rw [Parser.takeFields]
    split at step
    next ok =>
      simp only [if_pos ok]
      rw [List.append_cons]
      exact ih step
    next failed =>
      simp only [if_neg failed]
      rintro ⟨n, agree⟩
      refine step ⟨n, fun earlier member => agree earlier ?_⟩
      rw [List.append_cons]
      exact List.mem_append_left _ member

theorem takeFields_agree (said : Says q [] q)
    (agree : LengthsAgree fields n) : (q.takeFields fields).1 = true ∧ Says q fields (q.takeFields fields).2 := by
  have outcome := takeFields_says compares said fields
  rw [List.nil_append] at outcome
  split at outcome
  next taken => exact ⟨taken, outcome⟩
  next => exact absurd ⟨n, agree⟩ outcome

omit compares in
theorem Says.begin (only : StartOnly p.begin q) : Says q [] q where
  type := rfl
  status := rfl
  version := ⟨rfl, rfl⟩
  skipBody := rfl
  haveTe := (congrArg (fun p => p.flags.haveTe) only :)
  codings := ⟨(congrArg (fun p => p.flags.chunked) only :), (congrArg (fun p => p.flags.teBad) only :),
    (congrArg (fun p => p.flags.teUnknown) only :)⟩
  haveCl := (congrArg (fun p => p.flags.haveCl) only :)
  lengths := fun _ member => (by cases member)
  tokens := ⟨(congrArg (fun p => p.flags.connClose) only :), (congrArg (fun p => p.flags.connKeepAlive) only :)⟩

omit compares in
theorem elementsOf_absent {text : String} (absent : fields.any (·.isNamed text) = false) : elementsOf text fields = [] := by
  have none : fields.filter (·.isNamed text) = [] := by
    rw [List.filter_eq_nil_iff]
    simpa using absent
  rw [elementsOf, none]
  rfl

end

end Evhtp
