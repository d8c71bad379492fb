import Evhtp.Proofs.ReplyHeaders

/-! Replies read back. The length a reply announces is the length of its body, except that the reply to a
multipart request, and one after a chunked reply was begun, announce no body and send it all the same. -/

namespace Evhtp

def ListsNumbers [Htstring] : Prop :=
  ∀ text n, Decimal text n → Htstring.elements text = [text]

structure ReplyReady (request : Request) (p : Parser) (code : Nat) : Prop where
  proto : request.proto = .proto11
  version : request.proto = htpProtocol p.major p.minor ∧ p.major ≤ 9 ∧ p.minor ≤ 9
  status : 200 ≤ code ∧ code ≤ 599 ∧ code ≠ 204 ∧ code ≠ 304
  wellFormed : ∀ kv ∈ request.headersOut, kv.WellFormed
  unframed : ∀ kv ∈ request.headersOut, sameText kv.key "Content-Length" = false ∧
    sameText kv.key "Transfer-Encoding" = false ∧ sameText kv.key "Connection" = false
  sized : request.bufferOut.length < 2 ^ 64

def announced (request : Request) (multipart : Bool) : Bytes :=
  if request.flags.chunked ∨ multipart then [] else request.bufferOut

section
variable {request : Request} {p : Parser} {code : Nat} (ready : ReplyReady request p code)
include ready

theorem ReplyReady.digits : (1 ≤ p.major ∧ p.major ≤ 9 ∧ p.minor ≤ 9) ∧ 11 ≤ p.major * 10 + p.minor ∧
    100 ≤ code ∧ code ≤ 999 := by
  obtain ⟨version, major, minor⟩ := ready.version
  have := ready.status
  rw [ready.proto, htpProtocol] at version
  split at version
  next => cases version
  next =>
    split at version
    next later => omega
    next => cases version

theorem ReplyReady.absent : evhtpKvFind request.headersOut (ascii "Content-Length") = none := by
  rw [evhtpKvFind, Option.map_eq_none_iff, List.find?_eq_none]
  intro kv member same
  have := matchHeaderKey_contentLength (ready.wellFormed kv member).unbroken.1 same
  rw [(ready.unframed kv member).1] at this
  cases this

theorem ReplyReady.added_wellFormed (multipart : Bool) :
    ∀ kv ∈ request.headersOut ++ addedHeaders request multipart, kv.WellFormed := by
  intro kv member
  rcases List.mem_append.mp member with member | member
  · exact ready.wellFormed kv member
  · rcases addedHeaders_mem member with rfl | rfl | ⟨-, rfl⟩
    · exact ⟨by decide, by decide, by decide, by decide⟩
    · exact ⟨by decide, by decide, by decide, by decide⟩
    · have small : (if multipart then 0 else request.bufferOut.length) < 2 ^ 64 := by
        have := ready.sized
        split <;> omega
      exact lengthHeader_wellFormed small

theorem ReplyReady.sent : (evhtpSendReply request p code).1.1.headersOut =
      request.headersOut ++ addedHeaders request p.flags.multipart ∧
    (evhtpSendReply request p code).2 =
      replyHead (request.headersOut ++ addedHeaders request p.flags.multipart) p code ++ request.bufferOut := by
  have added := replyHeaders_added
    { request with flags := { request.flags with finished := true }, status := code }
    p.flags.multipart ready.proto ready.absent
  have parser : ∀ kvs, replyParser (Request.addHeaders
      { request with flags := { request.flags with finished := true }, status := code } kvs) p = p := by
    intro kvs
    simp only [replyParser, Request.addHeaders, ready.proto]
  simp only [evhtpSendReply, createReply, added, parser]
  exact ⟨rfl, rfl⟩

variable [Htstring]

variable (compares : ComparesAscii) (lists : ListsNumbers)
include compares lists

theorem ReplyReady.framing_eq {q : Parser} {line : StatusLine} (said : Says q [] q) (response : q.type = .response)
    (reading : q.flags.skipBody = false) (status : q.status = line.code)
    (version : q.major = p.major ∧ q.minor = p.minor) (code' : line.code = code)
    (wellFormed : ∀ kv ∈ request.headersOut ++ addedHeaders request p.flags.multipart, kv.WellFormed) :
    (q.takeFields (headerFields _ wellFormed)).1 = true ∧ (q.takeFields (headerFields _ wellFormed)).2.status = code ∧
      framing (q.takeFields (headerFields _ wellFormed)).2 = (true, { (q.takeFields (headerFields _ wellFormed)).2 with
        body := if announced request p.flags.multipart = [] then .none else .length
        contentLen := (announced request p.flags.multipart).length, chunk := .size }) := by
  have bodied : line.bodyless = false := by
    have := ready.status
    rw [← Bool.not_eq_true, StatusLine.bodyless_iff rfl, code']
    omega
  have noCoding : (headerFields _ wellFormed).any (·.isNamed "Transfer-Encoding") = false := by
    rw [headerFields_any, List.any_eq_false]
    intro kv member
    rw [Bool.not_eq_true]
    rcases List.mem_append.mp member with member | member
    · exact (ready.unframed kv member).2.1
    · rcases addedHeaders_mem member with rfl | rfl | ⟨-, rfl⟩
      · decide
      · decide
      · exact show sameText (ascii "Content-Length") "Transfer-Encoding" = false by decide
  have unnamed : ∀ kv ∈ request.headersOut ++ addedHeaders request p.flags.multipart,
      sameText kv.key "Content-Length" = true →
        request.flags.chunked = false ∧ kv = lengthHeader (if p.flags.multipart then 0 else request.bufferOut.length) := by
    intro kv member named
    rcases List.mem_append.mp member with member | member
    · rw [(ready.unframed kv member).1] at named
      cases named
    · rcases addedHeaders_mem member with rfl | rfl | added
      · exact absurd named (by decide)
      · exact absurd named (by decide)
      · exact added
  cases chunked : request.flags.chunked with
  | true =>
    have none : announced request p.flags.multipart = [] := by simp [announced, chunked]
    have noLength : (headerFields _ wellFormed).any (·.isNamed "Content-Length") = false := by
      rw [headerFields_any, List.any_eq_false]
      intro kv member named
      have := (unnamed kv member named).1
      rw [chunked] at this
      cases this
    have agree : LengthsAgree (headerFields _ wellFormed) 0 := by
      intro field member named
      rw [List.any_eq_false] at noLength
      exact absurd named (noLength field member)
    obtain ⟨taken, said⟩ := takeFields_agree compares said agree
    refine ⟨taken, said.status.trans (status.trans code'), ?_⟩
    have recent : ¬((q.takeFields (headerFields _ wellFormed)).2.major * 10 +
        (q.takeFields (headerFields _ wellFormed)).2.minor < 11 ∧
        (q.takeFields (headerFields _ wellFormed)).2.flags.connKeepAlive = false) := by
      have := ready.digits.2.1
      rw [said.version.1, said.version.2, version.1, version.2]
      omega
    rw [said.framing_unframed response reading status bodied noCoding noLength, if_neg recent, none]
    rfl
  | false =>
    have value : (announced request p.flags.multipart).length =
        if p.flags.multipart then 0 else request.bufferOut.length := by
      cases multipart : p.flags.multipart <;> simp [announced, chunked]
    have small : (announced request p.flags.multipart).length < 2 ^ 64 := by
      have := ready.sized
      rw [value]
      split <;> omega
    have length : (headerFields _ wellFormed).any (·.isNamed "Content-Length") = true := by
      rw [headerFields_any, List.any_eq_true]
      exact ⟨_, List.mem_append_right _ (addedHeaders_length p.flags.multipart chunked),
        show sameText (ascii "Content-Length") "Content-Length" = true by decide⟩
    have agree : LengthsAgree (headerFields _ wellFormed) (announced request p.flags.multipart).length := by
      intro field member named
      obtain ⟨kv, inside, name, val⟩ := headerFields_mem wellFormed member
      have same := (unnamed kv inside (name ▸ named)).2
      rw [← value] at same
      have decimal := evhtpModpSizetoa_decimal small
      rw [val, same, show (lengthHeader _).val = evhtpModpSizetoa _ from rfl, lists _ _ decimal]
      refine ⟨by simp, fun element inside => ?_⟩
      rw [List.mem_singleton.mp inside]
      exact parseU64_iff.mpr ⟨decimal, small⟩
    obtain ⟨taken, said⟩ := takeFields_agree compares said agree
    refine ⟨taken, said.status.trans (status.trans code'), ?_⟩
    have known := said.length_unique (said.haveCl.trans length) agree
    rw [said.framing_length response reading status bodied noCoding length]
    simp only [← List.length_eq_zero_iff, known]

theorem ReplyReady.framed {q : Parser} {line : StatusLine} (said : Says q [] q) (response : q.type = .response)
    (reading : q.flags.skipBody = false) (status : q.status = line.code)
    (version : q.major = p.major ∧ q.minor = p.minor) (code' : line.code = code)
    (wellFormed : ∀ kv ∈ request.headersOut ++ addedHeaders request p.flags.multipart, kv.WellFormed) :
    ∃ framed, q.headFraming (headerFields _ wellFormed) = some framed ∧ framed.status = code ∧
      if announced request p.flags.multipart = [] then framed.state = .complete
      else framed.state = .body ∧ framed.body = .length ∧
        framed.contentLen = (announced request p.flags.multipart).length := by
  obtain ⟨taken, kept, result⟩ := ready.framing_eq compares lists said response reading status version code' wellFormed
  have found : q.headFraming (headerFields _ wellFormed) =
      some (framing (q.takeFields (headerFields _ wellFormed)).2).2.headDone := by
    simp only [Parser.headFraming]
    rw [if_pos ⟨taken, congrArg Prod.fst result⟩]
  generalize q.takeFields (headerFields _ wellFormed) = after at taken kept result found
  refine ⟨(framing after.2).2.headDone, found, ?_, ?_⟩
  · rw [result]
    exact kept
  · rw [result]
    split <;> simp [Parser.headDone, *]

theorem ReplyReady.read {start : Parser} (here : start.state = .start) (running : start.flags.paused = false)
    (response : start.type = .response) (unlimited : start.config.maxLineLength = 0 ∧ start.config.maxHeaderCount = 0) :
    ∃ q user rest, announced request p.flags.multipart ++ rest = request.bufferOut ∧
      (rest = [] ∨ announced request p.flags.multipart = []) ∧
      q.state = .start ∧ q.flags.paused = false ∧ q.error = .none ∧
      user.messages = [⟨code, request.headersOut ++ addedHeaders request p.flags.multipart,
        announced request p.flags.multipart⟩] ∧
      Decoder.Steps (resumedTurn collector) (⟨start, {}⟩, (evhtpSendReply request p code).2) (⟨q, user⟩, rest) := by
  obtain ⟨version, -, digits⟩ := ready.digits
  have wellFormed := ready.added_wellFormed p.flags.multipart
  have within : (replyLines (replyStatusLine p code version digits)
      (StatusLine.bytes_unbroken _ rfl (statusCodeToStr_unbroken code)) _ wellFormed).Within start.config :=
    ⟨.inl unlimited.1, fun _ _ => .inl unlimited.1, .inl unlimited.2⟩
  obtain ⟨q, only, status, major, minor, reads⟩ :=
    head_collected rfl here running response within request.bufferOut
  have reading : q.flags.skipBody = false := (congrArg (fun p => p.flags.skipBody) only :)
  obtain ⟨framed, found, kept, place⟩ := ready.framed compares lists (Says.begin only)
    ((congrArg Parser.type only :).trans response) reading status ⟨major, minor⟩ rfl wellFormed
  obtain ⟨quiet, error, key, head⟩ := reads framed found
  have collected : (replyLines (replyStatusLine p code version digits)
      (StatusLine.bytes_unbroken _ rfl (statusCodeToStr_unbroken code)) _ wellFormed).fields.map Field.kv =
      request.headersOut ++ addedHeaders request p.flags.multipart := headerFields_kv wellFormed
  rw [collected] at head
  rw [ready.sent.2, ← replyLines_bytes p code version digits _ wellFormed]
  split at place
  next none =>
    have done := complete_collected { key, headers := request.headersOut ++ addedHeaders request p.flags.multipart }
      request.bufferOut place quiet
    refine ⟨framed.finish, _, request.bufferOut, by rw [none, List.nil_append], .inr none, rfl, quiet, error, ?_,
      head.tail done⟩
    simp [none, kept]
  next some =>
    have whole : announced request p.flags.multipart = request.bufferOut := by
      rw [announced] at some ⊢
      split at some
      next => exact absurd rfl some
      next plain => exact if_neg plain
    obtain ⟨state, mode, length⟩ := place
    rw [whole] at some length ⊢
    obtain ⟨q', complete, quiet', status', error', next⟩ := length_collected
      { key, headers := request.headersOut ++ addedHeaders request p.flags.multipart } state mode length some quiet
    have done := complete_collected { key, headers := request.headersOut ++ addedHeaders request p.flags.multipart
                                      body := [] ++ request.bufferOut } [] complete quiet'
    refine ⟨q'.finish, _, [], List.append_nil _, .inl rfl, rfl, quiet', error'.trans error, ?_,
      (head.tail next).tail done⟩
    simp [status', kept]

/-- A reply to an HTTP/1.1 request is read back as one message, with nothing left, exactly when its body is empty or
is announced: when neither the request was a multipart one nor a chunked reply had been begun. -/
theorem reply_round_trip {start : Htparser} (unlimited : start.config.maxLineLength = 0 ∧ start.config.maxHeaderCount = 0)
    {count : Nat} (enough : 3 * (evhtpSendReply request p code).2.length + 2 < count) :
    ∃ added, (evhtpSendReply request p code).1.1.headersOut = request.headersOut ++ added ∧
      (((Fed.calls collector count
          ⟨htparserInit start .response, {}, (evhtpSendReply request p code).2⟩).user.messages =
            [⟨code, request.headersOut ++ added, request.bufferOut⟩] ∧
        (Fed.calls collector count ⟨htparserInit start .response, {}, (evhtpSendReply request p code).2⟩).left = [] ∧
        (Fed.calls collector count ⟨htparserInit start .response, {}, (evhtpSendReply request p code).2⟩).p.error =
          .none) ↔
      request.bufferOut = [] ∨ (p.flags.multipart = false ∧ request.flags.chunked = false)) := by
  refine ⟨addedHeaders request p.flags.multipart, ready.sent.1, ?_⟩
  have begun : (htparserInit start .response).toParser.state = .start := rfl
  obtain ⟨q, user, rest, parts, one, state, quiet, error, messages, path⟩ :=
    ready.read compares lists begun rfl rfl unlimited
  obtain ⟨steps, waits⟩ := calls_steps collector ⟨htparserInit start .response, {}, (evhtpSendReply request p code).2⟩
    (.of_state (by simp [begun])) rfl count
  have normal := waits (by simpa [potential, Fed.scan, begun] using enough)
  generalize Fed.calls collector count _ = final at *
  have covered : request.bufferOut = [] ∨ (p.flags.multipart = false ∧ request.flags.chunked = false) ↔
      announced request p.flags.multipart = request.bufferOut := by
    rw [announced]
    cases p.flags.multipart <;> cases request.flags.chunked <;> simp [eq_comm]
  rw [covered]
  constructor
  · rintro ⟨read, -⟩
    have grown := (collected_grows quiet (Decoder.steps_to_normal steps path normal)).1
    have first : final.scan.user.messages =
        [⟨code, request.headersOut ++ addedHeaders request p.flags.multipart, request.bufferOut⟩] := read
    rw [messages, first] at grown
    have same := grown.eq_of_length rfl
    simpa using same
  · intro whole
    have none : rest = [] := by
      rw [whole] at parts
      simpa using parts
    rw [none] at path
    have same := Decoder.normal_unique steps path normal (idle_normal collector state)
    have scan : final.scan = ⟨q, user⟩ := congrArg Prod.fst same
    refine ⟨?_, congrArg Prod.snd same, ?_⟩
    · exact (congrArg (fun s => s.user.messages) scan).trans (whole ▸ messages)
    · exact (congrArg (fun s => s.p.error) scan).trans error

end

section
attribute [local instance] Plain.htstring

theorem Plain.listsNumbers : ListsNumbers := by
  intro text n decimal
  have plain : ∀ byte ∈ text, byte ≠ 44 ∧ byte ≠ 59 ∧ byte ≠ 61 := by
    intro byte member
    have digit := decimal.2.1 byte member
    refine ⟨?_, ?_, ?_⟩ <;> rintro rfl <;> simp [isDigit] at digit
  have whole : text.splitOn 44 = [text] := List.splitOn_eq_singleton fun comma => (plain 44 comma).1 rfl
  have name : text.takeWhile (fun byte => byte != 59 && byte != 61) = text := by
    rw [List.takeWhile_eq_self_iff]
    intro byte member
    simp [plain byte member]
  have trimmed : trimBlanks text = text := by
    simpa using @trimBlanks_padded [] text [] decimal.trimmed (by simp)
  simp [Htstring.elements, Plain.elements, whole, name, trimmed, decimal.1]

def parserAfter (request : String) : Parser :=
  (htparserRun silentHooks (htparserInit (htparserNew defaultConfig) .request) () (ascii request)).1.toParser

def okReply : Request where
  proto := .proto11
  flags := { keepalive := true }
  bufferOut := ascii "hi"

theorem okReply_ready {p : Parser} (version : p.major = 1 ∧ p.minor = 1) : ReplyReady okReply p 200 := by
  refine ⟨rfl, ?_, by decide, fun kv member => ?_, fun kv member => ?_, by decide⟩
  · rw [version.1, version.2]
    decide
  · cases member
  · cases member

def okSent (request : String) : (Request × Parser) × Bytes := evhtpSendReply okReply (parserAfter request) 200

def okRead (request : String) : Fed Collected :=
  Fed.calls collector 400 ⟨htparserInit (htparserNew unlimitedConfig) .response, {}, (okSent request).2⟩

def multipartPost : String := "POST / HTTP/1.1\r\nContent-Type: multipart/form-data\r\nContent-Length: 0\r\n\r\n"

/-- The reply to a multipart request announces an empty body, and its body is left over. -/
theorem reply_round_trip_multipart :
    ReplyReady okReply (parserAfter multipartPost) 200 ∧
      (okRead multipartPost).user.messages = [⟨200, (okSent multipartPost).1.1.headersOut, []⟩] ∧
      (okRead multipartPost).left = okReply.bufferOut ∧
      ¬((okRead multipartPost).user.messages =
          [⟨200, (okSent multipartPost).1.1.headersOut, okReply.bufferOut⟩] ∧
        (okRead multipartPost).left = [] ∧ (okRead multipartPost).p.error = .none) :=
  ⟨okReply_ready (by decide +kernel), by decide +kernel⟩

def plainGet : String := "GET / HTTP/1.1\r\n\r\n"

theorem reply_round_trip_get :
    ∃ added, (okSent plainGet).1.1.headersOut = okReply.headersOut ++ added ∧
      (((okRead plainGet).user.messages = [⟨200, okReply.headersOut ++ added, okReply.bufferOut⟩] ∧
        (okRead plainGet).left = [] ∧ (okRead plainGet).p.error = .none) ↔
      okReply.bufferOut = [] ∨ ((parserAfter plainGet).flags.multipart = false ∧ okReply.flags.chunked = false)) := by
  have ready : ReplyReady okReply (parserAfter plainGet) 200 := okReply_ready (by decide +kernel)
  have enough : 3 * (evhtpSendReply okReply (parserAfter plainGet) 200).2.length + 2 < 400 := by decide +kernel
  rw [okRead, okSent]
  exact reply_round_trip ready Plain.comparesAscii Plain.listsNumbers ⟨rfl, rfl⟩ enough

end

end Evhtp
