import Evhtp.Client
import Evhtp.Proofs.RequestFraming
import Evhtp.Proofs.ReplyRoundTrip

/-! Requests read back. What the client writes is what the parser of requests reads, with one exception: the two
tables of methods spell one method differently. -/

namespace Evhtp

structure RequestMessage where
  method : HtpMethod
  path : Bytes
  args : Option Bytes
  uri : Bytes
  headers : List Kv
  body : Bytes
  deriving DecidableEq, Repr

structure CollectedRequests where
  path : Bytes := []
  args : Option Bytes := none
  uri : Bytes := []
  key : Bytes := []
  headers : List Kv := []
  body : Bytes := []
  messages : List RequestMessage := []
  deriving DecidableEq, Repr

def collectRequest (event : HookEvent) (p : Parser) (s : CollectedRequests) : CollectedRequests :=
  match event.name with
  | .onMsgBegin => { messages := s.messages }
  | .path => { s with path := event.data }
  | .args => { s with args := some event.data }
  | .uri => { s with uri := event.data }
  | .hdrKey => { s with key := event.data }
  | .hdrVal => { s with headers := s.headers ++ [⟨s.key, event.data⟩] }
  | .body => { s with body := s.body ++ event.data }
  | .onMsgComplete =>
    { s with messages := s.messages ++ [⟨p.method, s.path, s.args, s.uri, s.headers, s.body⟩] }
  | _ => s

def requestCollector : Hooks CollectedRequests where
  present _ := true
  call event p s := ({}, collectRequest event p s)

theorem requestCollector_notes : requestCollector.Notes collectRequest := ⟨fun _ => rfl, fun _ _ _ => rfl⟩

def CollectedRequests.addField (s : CollectedRequests) (field : Field) : CollectedRequests :=
  { s with key := field.name, headers := s.headers ++ [field.kv] }

theorem collectRequest_fields : NotesFields collectRequest CollectedRequests.addField :=
  ⟨fun _ _ _ => rfl, fun _ _ _ _ => rfl⟩

theorem foldl_addRequestField (fields : List Field) (s : CollectedRequests) :
    ∃ key, fields.foldl CollectedRequests.addField s = { s with key, headers := s.headers ++ fields.map Field.kv } := by
  induction fields generalizing s with
  | nil => exact ⟨s.key, by simp⟩
  | cons field fields ih =>
    obtain ⟨key, same⟩ := ih (s.addField field)
    exact ⟨key, by rw [List.foldl_cons, same]; simp [CollectedRequests.addField]⟩

/-- Its target is a C string in origin form, and the application leaves the framing to `evhtp_make_request`. -/
structure RequestReady (request : Request) (meth : HtpMethod) (uri : Bytes) : Prop where
  known : meth ≠ .UNKNOWN
  origin : uri.head? = some 47
  terminated : 0 ∉ uri
  spaceless : SP ∉ uri
  unbroken : Unbroken uri
  wellFormed : ∀ kv ∈ request.headersOut, kv.WellFormed
  unframed : ∀ kv ∈ request.headersOut,
    sameText kv.key "Content-Length" = false ∧ sameText kv.key "Transfer-Encoding" = false
  sized : request.bufferOut.length < 2 ^ 64

def requestLength (request : Request) : List Kv :=
  if request.bufferOut = [] then [] else [lengthHeader request.bufferOut.length]

def protoMinor : EvhtpProto → Nat
  | .proto10 => 0
  | .proto11 | .invalid | .proto20 => 1

/-- The two tables of methods agree, but for one spelling. -/
theorem methodFrom_methodstr (meth : HtpMethod) :
    methodFrom (htparserGetMethodstrM meth) = if meth = .PROPPATCH then .UNKNOWN else meth := by
  cases meth <;> decide

theorem methodstr_text (meth : HtpMethod) :
    htparserGetMethodstrM meth ≠ [] ∧ SP ∉ htparserGetMethodstrM meth ∧ Unbroken (htparserGetMethodstrM meth) := by
  cases meth <;> decide

section
variable {request : Request} {meth : HtpMethod} {uri : Bytes} (ready : RequestReady request meth uri)
include ready

theorem RequestReady.absent : evhtpKvFind request.headersOut (ascii "content-length") = none := by
  rw [evhtpKvFind, Option.map_eq_none_iff, List.find?_eq_none]
  intro kv member same
  have folded : (ascii "content-length").map (· ||| 0x20) = (ascii "Content-Length").map (· ||| 0x20) := by decide
  have length : (ascii "content-length").length = (ascii "Content-Length").length := by decide
  rw [matchHeaderKey, folded, length] at same
  have := matchHeaderKey_contentLength (ready.wellFormed kv member).unbroken.1 same
  rw [(ready.unframed kv member).1] at this
  cases this

theorem RequestReady.added_wellFormed : ∀ kv ∈ request.headersOut ++ requestLength request, kv.WellFormed := by
  intro kv member
  rcases List.mem_append.mp member with member | member
  · exact ready.wellFormed kv member
  · rw [requestLength] at member
    split at member
    · cases member
    · rw [List.mem_singleton.mp member]
      exact lengthHeader_wellFormed ready.sized

theorem RequestReady.line_unbroken :
    Unbroken (requestLine (htparserGetMethodstrM meth) uri 1 (protoMinor request.proto)) := by
  have version : Unbroken (versionBytes 1 (protoMinor request.proto)) := by cases request.proto <;> decide
  intro byte member
  have space : SP ≠ CR ∧ SP ≠ LF := by decide
  simp only [requestLine, List.mem_append, List.mem_cons] at member
  rcases member with member | rfl | member | rfl | member
  · exact (methodstr_text meth).2.2 byte member
  · exact space
  · exact ready.unbroken byte member
  · exact space
  · exact version byte member

def RequestReady.head : Head where
  startLine := requestLine (htparserGetMethodstrM meth) uri 1 (protoMinor request.proto)
  fields := headerFields _ ready.added_wellFormed
  some := by simp [requestLine]
  unbroken := ready.line_unbroken

theorem RequestReady.sent : (evhtpMakeRequest request meth uri).2 = ready.head.startLine ++ ready.head.ending.bytes ++
    (fieldBytes ready.head.fields ++ (ready.head.empty.bytes ++ request.bufferOut)) := by
  have added : addRequestLength { request with method := meth } =
      { request with method := meth, headersOut := request.headersOut ++ requestLength request } := by
    rw [addRequestLength, requestLength]
    split
    next some => rw [if_neg some.1]; rfl
    next none =>
      have empty : request.bufferOut = [] := by
        by_contra some
        exact none ⟨some, ready.absent⟩
      rw [if_pos empty, List.append_nil]
  have whole : cString uri = uri := by
    rw [cString, List.takeWhile_eq_self_iff]
    intro byte member
    apply bne_iff_ne.mpr
    rintro rfl
    exact ready.terminated member
  have version : ascii " HTTP/" ++ protoText request.proto = SP :: versionBytes 1 (protoMinor request.proto) := by
    cases request.proto <;> decide
  have space : ascii " " = [SP] := rfl
  simp only [evhtpMakeRequest, added, whole, RequestReady.head, headerFields_bytes, requestLine, space,
    LineEnd.bytes]
  simp [version, crlf]

variable [Htstring]

theorem RequestReady.start_collected (spelled : meth ≠ .PROPPATCH) {p : Parser} (here : p.state = .start)
    (running : p.flags.paused = false) (type : p.type = .request) (unlimited : p.config.maxLineLength = 0) (rest : Bytes) :
    ∃ q, StartOnly p.begin q ∧ q.state = .headers ∧ q.flags.paused = false ∧ q.error = .none ∧ q.method = meth ∧
      Decoder.Steps (resumedTurn requestCollector)
        (⟨p, {}⟩, ready.head.startLine ++ ready.head.ending.bytes ++ rest)
        (⟨q, { path := uri.takeWhile (· != 63), args := (uri.dropWhile (· != 63)).tail?, uri }⟩, rest) := by
  have method : methodFrom (htparserGetMethodstrM meth) = meth := by rw [methodFrom_methodstr, if_neg spelled]
  have begins := begin_turn requestCollector ready.head.ending (s := ⟨p, {}⟩) rest ready.head.some ready.head.unbroken here
  have begun : (beginMessage requestCollector (⟨p, {}⟩ : Scan CollectedRequests)).resume = ⟨p.begin, {}⟩ := by
    rw [beginMessage, requestCollector_notes.hook]
    exact congrArg (Scan.mk · _) (Parser.resume_of_running running)
  rw [begun] at begins
  have next := line_turn requestCollector ready.head.ending (s := ⟨p.begin, {}⟩) rest rfl ready.head.unbroken
    (.inl unlimited)
  let q : Parser := { p.begin with
    method := meth, major := 1, minor := protoMinor request.proto, scheme := .none, state := .headers }
  have parsed : parseHeadLine requestCollector ready.head.startLine ⟨p.begin, {}⟩ =
      ⟨q, { path := uri.takeWhile (· != 63), args := (uri.dropWhile (· != 63)).tail?, uri }⟩ := by
    have line : parseRequestLine requestCollector ready.head.startLine ⟨p.begin, {}⟩ = (true, ⟨{ q with state := .headLine },
        { path := uri.takeWhile (· != 63), args := (uri.dropWhile (· != 63)).tail?, uri }⟩) := by
      have known : methodFrom (htparserGetMethodstrM meth) ≠ .UNKNOWN := by rw [method]; exact ready.known
      have nonempty : uri ≠ [] := by
        rintro rfl
        cases ready.origin
      refine (parseRequestLine_requestLine known ⟨(methodstr_text meth).2.1, ready.spaceless⟩
        ⟨(methodstr_text meth).1, nonempty⟩ (by cases request.proto <;> decide) _).trans ?_
      simp only [requestCollector_notes.hook, andThen, if_true, emitTarget, ready.origin, emitOriginForm, method]
      cases uri.dropWhile (· != 63) with
      | nil => rfl
      | cons mark args => rfl
    have start : parseStartLine requestCollector ready.head.startLine ⟨p.begin, {}⟩ =
        parseRequestLine requestCollector ready.head.startLine ⟨p.begin, {}⟩ := by
      have same : p.begin.type = .request := type
      simp only [parseStartLine, same]
    have first : (⟨p.begin, {}⟩ : Scan CollectedRequests).p.state = .headLine := rfl
    rw [parseHeadLine, if_pos first, start, line]
    exact congrArg Prod.snd (requestCollector_notes.hook .onHdrsBegin [] _)
  have stopped : q.flags.paused = false := running
  have resumed : q.resume = q := Parser.resume_of_running stopped
  rw [parsed, Scan.resume, resumed] at next
  exact ⟨q, rfl, rfl, stopped, rfl, rfl, .head begins (.single next)⟩

theorem RequestReady.framed (lists : ListsNumbers) : RequestFramed ready.head.fields
    (if request.bufferOut.length = 0 then .none else .length) request.bufferOut.length := by
  have noCoding : ready.head.fields.any (·.isNamed "Transfer-Encoding") = false := by
    refine (headerFields_any _ _).trans ?_
    rw [List.any_eq_false]
    intro kv member
    rw [Bool.not_eq_true]
    rcases List.mem_append.mp member with member | member
    · exact (ready.unframed kv member).2
    · rw [requestLength] at member
      split at member
      · cases member
      · rw [List.mem_singleton.mp member]
        exact show sameText (ascii "Content-Length") "Transfer-Encoding" = false by decide
  by_cases empty : request.bufferOut = []
  · have noLength : ready.head.fields.any (·.isNamed "Content-Length") = false := by
      refine (headerFields_any _ _).trans ?_
      rw [List.any_eq_false]
      intro kv member
      rw [requestLength, if_pos empty, List.append_nil] at member
      rw [(ready.unframed kv member).1]
      exact Bool.false_ne_true
    rw [empty]
    exact .none noLength noCoding
  · have added : requestLength request = [lengthHeader request.bufferOut.length] := if_neg empty
    have length : ready.head.fields.any (·.isNamed "Content-Length") = true := by
      refine (headerFields_any _ _).trans ?_
      rw [List.any_eq_true]
      refine ⟨lengthHeader request.bufferOut.length, List.mem_append_right _ ?_, ?_⟩
      · rw [added]
        exact List.mem_singleton_self _
      · exact show sameText (ascii "Content-Length") "Content-Length" = true by decide
    refine .length noCoding length (fun field member named => ?_) ready.sized
    have decimal := evhtpModpSizetoa_decimal ready.sized
    obtain ⟨kv, inside, name, val⟩ := headerFields_mem ready.added_wellFormed member
    have same : kv = lengthHeader request.bufferOut.length := by
      rcases List.mem_append.mp inside with inside | inside
      · have other := (ready.unframed kv inside).1
        rw [Field.isNamed, name, other] at named
        cases named
      · rw [added] at inside
        exact List.mem_singleton.mp inside
    rw [val, same, show (lengthHeader request.bufferOut.length).val = evhtpModpSizetoa _ from rfl, lists _ _ decimal]
    refine ⟨by simp, fun element inside => ?_⟩
    rw [List.mem_singleton.mp inside]
    exact decimal

omit ready in
theorem body_collected {framed : Parser} (user : CollectedRequests) {body : Bytes}
    (waits : if body = [] then framed.state = .complete
      else framed.state = .body ∧ framed.body = .length ∧ framed.contentLen = body.length)
    (running : framed.flags.paused = false) :
    ∃ q, q.state = .start ∧ q.error = framed.error ∧
      Decoder.Steps (resumedTurn requestCollector) (⟨framed, user⟩, body) (⟨q, { user with
        body := user.body ++ body
        messages := user.messages ++
          [⟨framed.method, user.path, user.args, user.uri, user.headers, user.body ++ body⟩] }⟩, []) := by
  split at waits
  next empty =>
    have done := complete_noted requestCollector_notes user [] waits running
    refine ⟨framed.finish, rfl, rfl, ?_⟩
    rw [empty, List.append_nil]
    exact .single done
  next some =>
    obtain ⟨here, mode, length⟩ := waits
    have arrived := length_next here mode length some (requestCollector_notes.hook .body body ⟨framed, user⟩) running
    have complete : ({ framed with contentLen := 0, state := .complete } : Parser).state = .complete := rfl
    exact ⟨({ framed with contentLen := 0, state := .complete } : Parser).finish, rfl, rfl,
      .head arrived (.single (complete_noted requestCollector_notes _ [] complete running))⟩

theorem RequestReady.read (compares : ComparesAscii) (lists : ListsNumbers) (spelled : meth ≠ .PROPPATCH) {p : Parser}
    (here : p.state = .start) (running : p.flags.paused = false) (type : p.type = .request)
    (unlimited : p.config.maxLineLength = 0 ∧ p.config.maxHeaderCount = 0) :
    ∃ q user, q.state = .start ∧ q.error = .none ∧
      user.messages = [⟨meth, uri.takeWhile (· != 63), (uri.dropWhile (· != 63)).tail?, uri,
        request.headersOut ++ requestLength request, request.bufferOut⟩] ∧
      Decoder.Steps (resumedTurn requestCollector) (⟨p, {}⟩, (evhtpMakeRequest request meth uri).2) (⟨q, user⟩, []) := by
  obtain ⟨q, only, state, quiet, error, method, start⟩ := ready.start_collected spelled here running type unlimited.1
    (fieldBytes ready.head.fields ++ (ready.head.empty.bytes ++ request.bufferOut))
  have within : ready.head.Within p.config := ⟨.inl unlimited.1, fun _ _ => .inl unlimited.1, .inl unlimited.2⟩
  have reading : q.flags.skipBody = false := (congrArg (fun p => p.flags.skipBody) only :)
  obtain ⟨framed, found, mode, length⟩ := (ready.framed lists).headFraming compares (Says.begin only)
    ((congrArg Parser.type only :).trans type) reading
  obtain ⟨quiet', error', fields⟩ := headEnd_noted requestCollector_notes collectRequest_fields
    { path := uri.takeWhile (· != 63), args := (uri.dropWhile (· != 63)).tail?, uri } only state quiet within found
    request.bufferOut
  obtain ⟨kept, place⟩ := Parser.headFraming_done found
  obtain ⟨key, collected⟩ := foldl_addRequestField ready.head.fields
    { path := uri.takeWhile (· != 63), args := (uri.dropWhile (· != 63)).tail?, uri }
  have headers : ready.head.fields.map Field.kv = request.headersOut ++ requestLength request :=
    headerFields_kv ready.added_wellFormed
  rw [collected, headers] at fields
  rw [ready.sent]
  have waits : if request.bufferOut = [] then framed.state = .complete
      else framed.state = .body ∧ framed.body = .length ∧ framed.contentLen = request.bufferOut.length := by
    rw [place, mode, length]
    by_cases empty : request.bufferOut = []
    · simp [empty]
    · simp [empty]
  obtain ⟨last, idle, error'', done⟩ := body_collected
    { path := uri.takeWhile (· != 63), args := (uri.dropWhile (· != 63)).tail?, uri, key
      headers := [] ++ (request.headersOut ++ requestLength request) } waits quiet'
  refine ⟨last, _, idle, error''.trans (error'.trans error), ?_, (start.trans fields).trans done⟩
  simp [kept, method]

/-- A method that the reader does not know. -/
theorem RequestReady.misspelled (spelled : meth = .PROPPATCH) {p : Parser} (here : p.state = .start)
    (running : p.flags.paused = false) (type : p.type = .request) (unlimited : p.config.maxLineLength = 0) :
    ∃ q user rest, q.state = .error ∧ user.messages = [] ∧
      Decoder.Steps (resumedTurn requestCollector) (⟨p, {}⟩, (evhtpMakeRequest request meth uri).2) (⟨q, user⟩, rest) := by
  obtain ⟨q, user, ok, kept, path, -, -, state, -, request', -⟩ :=
    start_path requestCollector_notes.attentive ready.head.ending (s := ⟨p, {}⟩)
      (fieldBytes ready.head.fields ++ (ready.head.empty.bytes ++ request.bufferOut))
      ready.head.some ready.head.unbroken here running (.inl unlimited)
  have refused : ok = false := by
    have first : (nextToken ready.head.startLine).1 = htparserGetMethodstrM meth :=
      congrArg Prod.fst (nextToken_word (methodstr_text meth).2.1 _ (methodstr_text meth).1)
    have unknown : methodFrom (nextToken ready.head.startLine).1 = .UNKNOWN := by
      rw [first, methodFrom_methodstr, if_pos spelled]
    rw [request' type]
    simp [requestLineOk, unknown]
  have none : user.messages = [] := by
    refine kept (·.messages = []) (fun event p s starts same => ?_) rfl
    rcases event with ⟨name, data⟩
    cases name <;> simp_all [requestCollector, collectRequest, HookName.inStart]
  rw [ready.sent]
  rw [refused] at state
  exact ⟨q, user, _, state, none, path⟩

/-- What `evhtp_make_request` writes is read back as one request, with nothing left, exactly if the method is not the
one that the table of the writer misspells. -/
theorem request_round_trip (compares : ComparesAscii) (lists : ListsNumbers) {start : Htparser}
    (unlimited : start.config.maxLineLength = 0 ∧ start.config.maxHeaderCount = 0)
    {count : Nat} (enough : 3 * (evhtpMakeRequest request meth uri).2.length + 2 < count) :
    ((Fed.calls requestCollector count
        ⟨htparserInit start .request, {}, (evhtpMakeRequest request meth uri).2⟩).user.messages =
          [⟨meth, uri.takeWhile (· != 63), (uri.dropWhile (· != 63)).tail?, uri,
            request.headersOut ++ requestLength request, request.bufferOut⟩] ∧
      (Fed.calls requestCollector count
        ⟨htparserInit start .request, {}, (evhtpMakeRequest request meth uri).2⟩).left = [] ∧
      (Fed.calls requestCollector count
        ⟨htparserInit start .request, {}, (evhtpMakeRequest request meth uri).2⟩).p.error = .none) ↔
    meth ≠ .PROPPATCH := by
  have begun : (htparserInit start .request).toParser.state = .start := rfl
  have sane : (htparserInit start .request).Sane := .of_state (by simp [begun])
  have enough : potential (σ := CollectedRequests)
      (⟨(htparserInit start .request).toParser, {}⟩, (evhtpMakeRequest request meth uri).2) < count := by
    simpa [potential, begun] using enough
  have ends := @calls_outcome _ _ requestCollector
    ⟨htparserInit start .request, {}, (evhtpMakeRequest request meth uri).2⟩ sane rfl count enough
  generalize Fed.calls requestCollector count _ = final at *
  constructor
  · rintro ⟨read, -⟩ spelled
    obtain ⟨q, user, rest, failed, none, path⟩ := ready.misspelled spelled begun rfl rfl unlimited.1
    have same := ends path (failed_normal _ failed)
    have empty : final.user.messages = [] := (congrArg (fun last => last.1.user.messages) same).trans none
    cases read.symm.trans empty
  · intro spelled
    obtain ⟨q, user, state, error, read, path⟩ := ready.read compares lists spelled begun rfl rfl unlimited
    have same := ends path (idle_normal _ state)
    refine ⟨?_, congrArg Prod.snd same, ?_⟩
    · exact (congrArg (fun last => last.1.user.messages) same).trans read
    · exact (congrArg (fun last => last.1.p.error) same).trans error

end

section
attribute [local instance] Plain.htstring

def someRequest : Request where
  proto := .proto11
  headersOut := [⟨ascii "Accept", ascii "*/*"⟩]
  bufferOut := ascii "hi"

theorem someRequest_ready {meth : HtpMethod} (known : meth ≠ .UNKNOWN) : RequestReady someRequest meth (ascii "/a?b=1") where
  known := known
  origin := by decide
  terminated := by decide
  spaceless := by decide
  unbroken := by decide
  wellFormed kv member := by
    rw [List.mem_singleton.mp member]
    exact ⟨by decide, by decide, by decide, by decide⟩
  unframed kv member := by
    rw [List.mem_singleton.mp member]
    decide
  sized := by decide

def readSome (meth : HtpMethod) : Fed CollectedRequests :=
  Fed.calls requestCollector 300 ⟨htparserInit (htparserNew unlimitedConfig) .request, {},
    (evhtpMakeRequest someRequest meth (ascii "/a?b=1")).2⟩

def someRead (meth : HtpMethod) : RequestMessage :=
  ⟨meth, ascii "/a", some (ascii "b=1"), ascii "/a?b=1", [⟨ascii "Accept", ascii "*/*"⟩, lengthHeader 2], ascii "hi"⟩

theorem request_round_trip_propfind : (readSome .PROPFIND).user.messages = [someRead .PROPFIND] ∧
    (readSome .PROPFIND).left = [] ∧ (readSome .PROPFIND).p.error = .none := by
  have ready : RequestReady someRequest .PROPFIND (ascii "/a?b=1") := someRequest_ready (by decide)
  have enough : 3 * (evhtpMakeRequest someRequest .PROPFIND (ascii "/a?b=1")).2.length + 2 < 300 := by decide +kernel
  have unlimited : (htparserNew unlimitedConfig).config.maxLineLength = 0 ∧
      (htparserNew unlimitedConfig).config.maxHeaderCount = 0 := ⟨rfl, rfl⟩
  exact (request_round_trip ready Plain.comparesAscii Plain.listsNumbers unlimited enough).mpr (by decide)

/-- The other method of its kind is refused. -/
theorem request_round_trip_proppatch : RequestReady someRequest .PROPPATCH (ascii "/a?b=1") ∧
    (readSome .PROPPATCH).user.messages = [] ∧ (readSome .PROPPATCH).p.error = .invalMethod ∧
      ¬((readSome .PROPPATCH).user.messages = [someRead .PROPPATCH] ∧
        (readSome .PROPPATCH).left = [] ∧ (readSome .PROPPATCH).p.error = .none) :=
  ⟨someRequest_ready (by decide), by decide +kernel⟩

end

end Evhtp
