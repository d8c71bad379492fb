import Evhtp.Proofs.Actions
import Evhtp.Proofs.BodySections
import Evhtp.Proofs.H2Calls
import Evhtp.Proofs.Targets

/-! Bodies of forms. A body becomes the query of a request that has none; whether it does should depend on the body
and its type only, but of a chunked body the parser remembers the size of the last chunk where it remembers the
length of any other one. -/

namespace Evhtp

structure FormParts where
  query : Option (List NullKv)
  queryRaw : Option Bytes
  hasQueryBody : Bool
  deriving DecidableEq, Repr

def Uri.form (uri : Uri) : FormParts := ⟨uri.query, uri.queryRaw, uri.hasQueryBody⟩

def Request.form (request : Request) : FormParts := request.requireUri.form

def isForm (type : Option Bytes) : Bool :=
  type.any fun type => (type.take 33).map toLower == ascii "application/x-www-form-urlencoded"

/-- The parts of a request after a body that was, or was not, taken for its query. -/
def formAfter (uri : Uri) (body : Bytes) (used : Bool) : FormParts :=
  if used then ⟨evhtpParseQuery body, some body, true⟩ else uri.form

/-- A request with its URI and content type, of whose body some has arrived. -/
structure Request.Holds (uri : Uri) (type : Option Bytes) (data : Bytes) (request : Request) : Prop where
  uri : request.uri = some uri
  content : evhtpHeaderFind request.headersIn (ascii "content-type") = type
  body : request.bufferIn = data

/-- A connection that has received some of a body, and may receive so much more. -/
structure Conn.Holds (uri : Uri) (type : Option Bytes) (data : Bytes) (left : Nat) (conn : Conn) : Prop where
  request : ∃ request, conn.request = some request ∧ request.Holds uri type data
  running : conn.flags.paused = false
  scratch : conn.scratch = []
  room : conn.maxBodySize = 0 ∨ conn.bodyBytesRead + left < conn.maxBodySize

section
variable {site : Site} {cached : Nat → Option Request} {uri : Uri} {type : Option Bytes} {data : Bytes} {left : Nat}
  {conn : Conn}

theorem hook_accepted_by {name : HookName} {p : Parser} {conn' : Conn}
    (present : (requestPsets site (bareEnv cached)).present name = true)
    (called : (requestPsets site (bareEnv cached)).call ⟨name, data⟩ p conn = (hookReply 0 p, conn')) :
    hook (requestPsets site (bareEnv cached)) name data ⟨p, conn⟩ = (true, ⟨p, conn'⟩) := by
  simp only [hook, present, if_true, called, Parser.replied_hookReply]
  rfl

theorem Conn.Holds.hookBody {piece : Bytes} (holds : conn.Holds uri type data (piece.length + left)) (p : Parser) :
    ∃ conn', hook (requestPsets site (bareEnv cached)) .body piece ⟨p, conn⟩ = (true, ⟨p, conn'⟩) ∧
      conn'.Holds uri type (data ++ piece) left := by
  obtain ⟨request, here, held⟩ := holds.request
  have room := holds.room
  have within : ¬(conn.maxBodySize > 0 ∧ conn.bodyBytesRead + piece.length ≥ conn.maxBodySize) := by omega
  let request' : Request := { request.receive piece.length with
    status := resOk, bufferIn := request.bufferIn ++ (conn.scratch ++ piece) }
  have called : parseBodyHook (bareEnv cached) piece p conn = (hookReply 0 p, { conn with
      request := some request'
      bodies := conn.bodies ++ [request.piece piece.length false]
      scratch := []
      clock := conn.clock + 1
      bodyBytesRead := conn.bodyBytesRead + piece.length }) := by
    simp only [parseBodyHook, withRequest, here, if_neg within]
    rfl
  refine ⟨_, hook_accepted_by rfl called, ⟨request', rfl, held.uri, held.content, ?_⟩, holds.running, rfl, ?_⟩
  · change request.bufferIn ++ (conn.scratch ++ piece) = data ++ piece
    rw [holds.scratch, held.body, List.nil_append]
  · dsimp only
    omega

theorem Conn.Holds.hookChunk {name : HookName} (holds : conn.Holds uri type data left) (p : Parser)
    (ofChunk : name = .onNewChunk ∨ name = .onChunkComplete ∨ name = .onChunksComplete) :
    ∃ conn', hook (requestPsets site (bareEnv cached)) name [] ⟨p, conn⟩ = (true, ⟨p, conn'⟩) ∧
      conn'.Holds uri type data left := by
  obtain ⟨request, here, held⟩ := holds.request
  have called (hook : AppHook) : parseChunkHook (bareEnv cached) hook p conn =
      (hookReply 0 p, { conn with request := some (request.setStatus resOk), clock := conn.clock + 1 }) := by
    simp only [parseChunkHook, withRequest, here]
    simp only [appStatus, runApp, bareEnv, runActions, Conn.setStatus, here]
    rfl
  have after : ({ conn with request := some (request.setStatus resOk), clock := conn.clock + 1 } : Conn).Holds uri type data left :=
    ⟨⟨_, rfl, held.uri, held.content, held.body⟩, holds.running, holds.scratch, holds.room⟩
  rcases ofChunk with rfl | rfl | rfl
  · exact ⟨_, hook_accepted_by rfl (called (.newChunk p.origContentLen)), after⟩
  · exact ⟨_, hook_accepted_by rfl (called .chunkFini), after⟩
  · exact ⟨_, hook_accepted_by rfl (called .chunksFini), after⟩

theorem shouldParseQueryBody_holds {request : Request} (held : request.Holds uri type data) (p : Parser) :
    shouldParseQueryBody request p =
      (uri.query.isNone && p.origContentLen != 0 && p.origContentLen == data.length && isForm type) := by
  unfold shouldParseQueryBody isForm
  rw [held.uri, held.content, held.body]
  cases type <;> rfl

theorem queryFromBody_form {request : Request} (held : request.Holds uri type data) :
    (queryFromBody request).form = ⟨evhtpParseQuery data, some data, true⟩ := by
  unfold queryFromBody
  rw [held.uri, held.body]
  rfl

theorem dispatch_bare (cached : Nat → Option Request) (p : Parser) (conn : Conn) (request : Request) :
    ∃ conn', dispatch (bareEnv cached) p conn request = (p, conn') ∧ conn'.request = conn.request ∧
      conn'.flags.paused = conn.flags.paused := by
  unfold dispatch
  split
  · exact ⟨conn, rfl, rfl, rfl⟩
  · exact ⟨_, rfl, rfl, rfl⟩

theorem Conn.Holds.hookComplete (holds : conn.Holds uri type data left) (p : Parser) :
    ∃ conn', hook (requestPsets site (bareEnv cached)) .onMsgComplete [] ⟨p, conn⟩ = (true, ⟨p, conn'⟩) ∧
      conn'.request.map Request.form = some (formAfter uri data
        (uri.query.isNone && p.origContentLen != 0 && p.origContentLen == data.length && isForm type)) := by
  obtain ⟨request, here, held⟩ := holds.request
  let request' := if shouldParseQueryBody request p then queryFromBody request else request
  have form : request'.form = formAfter uri data
      (uri.query.isNone && p.origContentLen != 0 && p.origContentLen == data.length && isForm type) := by
    rw [← shouldParseQueryBody_holds held p, formAfter]
    dsimp only [request']
    split
    · exact queryFromBody_form held
    · simp only [Request.form, Request.requireUri, held.uri, Option.getD_some]
  obtain ⟨conn', dispatched, there, running⟩ := dispatch_bare cached p (conn.setRequest request') request'
  have called : parseFini (bareEnv cached) p conn = (hookReply 0 p, conn') := by
    have stopped : conn'.flags.paused = false := running.trans holds.running
    simp only [parseFini, holds.running, here, Bool.false_eq_true, if_false]
    change (hookReply (if (dispatch (bareEnv cached) p (conn.setRequest request') request').2.flags.paused then -1 else 0)
      (dispatch (bareEnv cached) p (conn.setRequest request') request').1,
        (dispatch (bareEnv cached) p (conn.setRequest request') request').2) = _
    rw [dispatched, stopped]
    rfl
  refine ⟨conn', hook_accepted_by rfl called, ?_⟩
  rw [there, ← form]
  rfl

end

structure SentChunk where
  line : Bytes
  data : Bytes
  unbroken : Unbroken line
  sized : parseChunkSize line = some data.length
  some : data ≠ []

def SentChunk.bytes (chunk : SentChunk) : Bytes := chunk.line ++ crlf ++ (chunk.data ++ crlf)

structure LastLine where
  line : Bytes
  unbroken : Unbroken line
  zero : parseChunkSize line = some 0

def chunkedBody (chunks : List SentChunk) (last : LastLine) : Bytes :=
  chunks.flatMap SentChunk.bytes ++ (last.line ++ crlf ++ crlf)

def lastSize (before : Nat) : List SentChunk → Nat
  | [] => before
  | chunk :: chunks => lastSize chunk.data.length chunks

theorem lastSize_le (before : Nat) {chunks : List SentChunk} (some : chunks ≠ []) :
    lastSize before chunks ≤ (chunks.flatMap SentChunk.data).length := by
  induction chunks generalizing before with
  | nil => exact absurd rfl some
  | cons chunk chunks ih =>
    rw [lastSize, List.flatMap_cons, List.length_append]
    cases chunks with
    | nil => exact Nat.le_add_right _ _
    | cons next others => exact (ih _ nofun).trans (Nat.le_add_left _ _)

/-- The last chunk is all of the body if it is the only one. -/
theorem lastSize_whole (chunks : List SentChunk) :
    (lastSize 0 chunks ≠ 0 ∧ lastSize 0 chunks = (chunks.flatMap SentChunk.data).length) ↔ chunks.length = 1 := by
  match chunks with
  | [] => exact ⟨fun whole => absurd rfl whole.1, nofun⟩
  | [chunk] =>
    refine ⟨fun _ => rfl, fun _ => ⟨fun zero => chunk.some (List.length_eq_zero_iff.mp zero), ?_⟩⟩
    simp [lastSize]
  | first :: next :: others =>
    refine ⟨fun whole => ?_, nofun⟩
    have positive : 0 < first.data.length := List.length_pos_iff.mpr first.some
    have smaller := lastSize_le first.data.length (List.cons_ne_nil next others)
    rw [List.flatMap_cons, List.length_append] at whole
    have same : lastSize first.data.length (next :: others) = first.data.length + _ := whole.2
    omega

section
variable [Htstring] {site : Site} {cached : Nat → Option Request} {uri : Uri} {type : Option Bytes} {p : Parser}
  {conn : Conn} {data : Bytes} {left : Nat} {start : Htparser}

theorem AtChunk.chunk_steps (ready : AtChunk p) (chunk : SentChunk)
    (fits : p.config.maxLineLength = 0 ∨ chunk.line.length ≤ p.config.maxLineLength)
    (holds : conn.Holds uri type data (chunk.data.length + left)) (rest : Bytes) :
    ∃ conn', conn'.Holds uri type (data ++ chunk.data) left ∧
      Decoder.Steps (resumedTurn (requestPsets site (bareEnv cached))) (⟨p, conn⟩, chunk.bytes ++ rest)
        (⟨p.chunkAt .size 0 chunk.data.length, conn'⟩, rest) := by
  obtain ⟨opened, opens, held⟩ := holds.hookChunk (p.chunkAt .data chunk.data.length chunk.data.length) (.inl rfl)
  obtain ⟨filled, fills, held⟩ := held.hookBody (p.chunkAt .data chunk.data.length chunk.data.length)
  obtain ⟨closed, closes, held⟩ := held.hookChunk (p.chunkAt .size 0 chunk.data.length) (.inr (.inl rfl))
  have bytes : chunk.bytes ++ rest = chunk.line ++ crlf ++ (chunk.data ++ (crlf ++ rest)) := by simp [SentChunk.bytes]
  rw [bytes]
  refine ⟨closed, held, .head (ready.size_next _ chunk.unbroken fits chunk.sized ?_ opens)
    (.head (ready.data_next _ _ chunk.some fills) (.single (ready.end_next _ _ closes)))⟩
  exact fun zero => chunk.some (List.length_eq_zero_iff.mp zero)

theorem AtChunk.chunks_steps (chunks : List SentChunk) {p : Parser} (ready : AtChunk p)
    (fits : ∀ chunk ∈ chunks, p.config.maxLineLength = 0 ∨ chunk.line.length ≤ p.config.maxLineLength)
    (holds : conn.Holds uri type data ((chunks.flatMap SentChunk.data).length + left)) (rest : Bytes) :
    ∃ q conn', AtChunk q ∧ q.config = p.config ∧ q.origContentLen = lastSize p.origContentLen chunks ∧
      conn'.Holds uri type (data ++ chunks.flatMap SentChunk.data) left ∧
      Decoder.Steps (resumedTurn (requestPsets site (bareEnv cached))) (⟨p, conn⟩, chunks.flatMap SentChunk.bytes ++ rest)
        (⟨q, conn'⟩, rest) := by
  induction chunks generalizing p data conn with
  | nil =>
    refine ⟨p, conn, ready, rfl, rfl, ?_, .refl⟩
    simpa using holds
  | cons chunk chunks ih =>
    have split : (chunk :: chunks).flatMap SentChunk.data = chunk.data ++ chunks.flatMap SentChunk.data := List.flatMap_cons
    rw [split, List.length_append, Nat.add_assoc] at holds
    obtain ⟨middle, held, first⟩ := ready.chunk_steps chunk (fits chunk List.mem_cons_self) holds
      (chunks.flatMap SentChunk.bytes ++ rest)
    obtain ⟨q, conn', ready', config, size, held, others⟩ := ih (ready.chunkAt chunk.data.length)
      (fun other member => fits other (List.mem_cons_of_mem _ member)) held
    refine ⟨q, conn', ready', config, ?_, ?_, ?_⟩
    · exact size
    · rwa [split, ← List.append_assoc]
    · rw [List.flatMap_cons, List.append_assoc]
      exact first.trans others

theorem complete_form (here : p.state = .complete) (running : p.flags.paused = false)
    (holds : conn.Holds uri type data left) :
    ∃ q conn', q.state = .start ∧ conn'.request.map Request.form = some (formAfter uri data
        (uri.query.isNone && p.origContentLen != 0 && p.origContentLen == data.length && isForm type)) ∧
      Decoder.Next (resumedTurn (requestPsets site (bareEnv cached))) (⟨p, conn⟩, []) (⟨q, conn'⟩, []) := by
  obtain ⟨conn', called, form⟩ := holds.hookComplete p.finish
  exact ⟨p.finish, conn', rfl, form, complete_next [] here called running⟩

def readForm (site : Site) (cached : Nat → Option Request) (p : Htparser) (conn : Conn) (bytes : Bytes) : Option FormParts :=
  (Fed.calls (requestPsets site (bareEnv cached)) (3 * bytes.length + 4) ⟨p, conn, bytes⟩).user.request.map Request.form

theorem readForm_eq {conn' : Conn} {bytes : Bytes} {q : Parser} (sane : start.Sane)
    (running : start.flags.paused = false) (state : q.state = .start)
    (steps : Decoder.Steps (resumedTurn (requestPsets site (bareEnv cached))) (⟨start.toParser, conn⟩, bytes) (⟨q, conn'⟩, [])) :
    readForm site cached start conn bytes = conn'.request.map Request.form := by
  have enough : potential ((⟨start, conn, bytes⟩ : Fed Conn).scan, bytes) < 3 * bytes.length + 4 := by
    unfold potential
    dsimp only
    split <;> omega
  have final := calls_outcome _ ⟨start, conn, bytes⟩ sane running enough steps (idle_normal _ state)
  exact congrArg (fun last => last.1.user.request.map Request.form) final

@[mk_iff]
structure Parser.ExpectsLength (size : Nat) (p : Parser) : Prop where
  running : p.flags.paused = false
  remembered : p.origContentLen = size
  framed : if size = 0 then p.state = .complete else p.state = .body ∧ p.body = .length ∧ p.contentLen = size

@[mk_iff]
structure Parser.ExpectsChunks (chunks : List SentChunk) (last : LastLine) (p : Parser) : Prop where
  ready : AtChunk p
  remembered : p.origContentLen = 0
  fits : ∀ chunk ∈ chunks, p.config.maxLineLength = 0 ∨ chunk.line.length ≤ p.config.maxLineLength
  ends : p.config.maxLineLength = 0 ∨ last.line.length ≤ p.config.maxLineLength

theorem length_form {body : Bytes} (expects : start.ExpectsLength body.length)
    (holds : conn.Holds uri type [] body.length) :
    readForm site cached start conn body =
      some (formAfter uri body (uri.query.isNone && body != [] && isForm type)) := by
  have framed := expects.framed
  by_cases empty : body = []
  · subst empty
    have here : start.state = .complete := framed
    obtain ⟨q, conn', state, form, next⟩ := complete_form here expects.running holds
    rw [readForm_eq (.of_state (by rw [here]; exact nofun)) expects.running state (.single next), form, expects.remembered]
    simp
  · have length : body.length ≠ 0 := fun zero => empty (List.length_eq_zero_iff.mp zero)
    rw [if_neg length] at framed
    obtain ⟨here, mode, left⟩ := framed
    have sane : start.Sane := by
      refine ⟨fun _ => ?_, fun _ _ => ?_, fun _ chunked => ?_⟩
      · rw [mode]
        exact nofun
      · omega
      · cases mode.symm.trans chunked
    have due : conn.Holds uri type [] (body.length + 0) := holds
    obtain ⟨filled, fills, held⟩ := due.hookBody start.toParser
    have arrived := length_next here mode left empty fills expects.running
    obtain ⟨q, conn', state, form, next⟩ :=
      complete_form (p := { start.toParser with contentLen := 0, state := .complete }) rfl expects.running held
    rw [readForm_eq sane expects.running state (.head arrived (.single next)), form]
    have remembered : start.origContentLen = body.length := expects.remembered
    have long : (body.length != 0) = true := bne_iff_ne.mpr length
    have nonempty : (body != []) = true := bne_iff_ne.mpr empty
    simp [remembered, long, nonempty]

theorem chunked_form {chunks : List SentChunk} {last : LastLine}
    (expects : start.ExpectsChunks chunks last) (holds : conn.Holds uri type [] (chunks.flatMap SentChunk.data).length) :
    readForm site cached start conn (chunkedBody chunks last) =
      some (formAfter uri (chunks.flatMap SentChunk.data) (uri.query.isNone && chunks.length == 1 && isForm type)) := by
  have ready := expects.ready
  have sane : start.Sane := by
    refine ⟨fun _ => ?_, fun _ impossible => ?_, fun _ _ impossible => ?_⟩
    · rw [ready.body]
      exact nofun
    · cases ready.body.symm.trans impossible
    · cases ready.chunk.symm.trans impossible
  have due : conn.Holds uri type [] ((chunks.flatMap SentChunk.data).length + 0) := holds
  obtain ⟨q, filled, ready', config, size, held, path⟩ := ready.chunks_steps chunks expects.fits due
    (last.line ++ crlf ++ crlf)
  obtain ⟨closed, closes, held⟩ := held.hookChunk q.atTrailers (.inr (.inr rfl))
  have ends : q.config.maxLineLength = 0 ∨ last.line.length ≤ q.config.maxLineLength := by
    rw [config]
    exact expects.ends
  have zero := ready'.zero_next crlf last.unbroken ends last.zero closes
  obtain ⟨q', conn', state, form, done⟩ :=
    complete_form (p := { q.atTrailers with state := .complete }) rfl ready'.running held
  have steps : Decoder.Steps (resumedTurn (requestPsets site (bareEnv cached)))
      (⟨start.toParser, conn⟩, chunkedBody chunks last) (⟨q', conn'⟩, []) :=
    path.trans (.head zero (.head (AtChunk.trailers_next ready'.running) (.single done)))
  rw [readForm_eq sane ready.running state steps, form]
  have remembered : q.origContentLen = lastSize 0 chunks := by rw [size, expects.remembered]
  have whole : (lastSize 0 chunks != 0 && lastSize 0 chunks == (chunks.flatMap SentChunk.data).length) =
      (chunks.length == 1) := by
    rw [Bool.eq_iff_iff]
    simpa using lastSize_whole chunks
  change some (formAfter uri _ (uri.query.isNone && q.origContentLen != 0 &&
    q.origContentLen == (chunks.flatMap SentChunk.data).length && isForm type)) = _
  rw [remembered, Bool.and_assoc (uri.query.isNone), whole]
  rfl

end

/-- What the head of a request announced, chunks or a length, is expected at its end. -/
theorem framing_expects {p : Parser} (request : p.type = .request) (running : p.flags.paused = false)
    (clean : p.error = .none) (unasked : p.flags.skipBody = false) (framed : (framing p).1 = true) :
    if p.flags.haveTe then AtChunk (framing p).2.headDone
    else p.flags.haveCl = true → (framing p).2.headDone.ExpectsLength p.origContentLen := by
  split
  · next coded =>
    have known : p.flags.teBad = false ∧ p.flags.chunked = true ∧ p.flags.teUnknown = false ∧ p.flags.haveCl = false := by
      unfold framing at framed
      grind
    obtain ⟨bad, chunked, unknown, length⟩ := known
    constructor <;> simp [framing, Parser.headDone, request, unasked, coded, bad, chunked, unknown, length, running, clean]
  · next uncoded =>
    intro sized
    constructor <;> by_cases empty : p.origContentLen = 0 <;>
      simp [framing, Parser.headDone, request, unasked, uncoded, sized, running, empty]

/-- A body as it arrives over HTTP/2: DATA frames, each of them in pieces; the last one ends the stream. -/
def dataFrames (id : Nat) (frames : List (List Bytes)) (last : List Bytes) : List H2Event :=
  frames.flatMap (fun pieces => pieces.map (.dataChunk id) ++ [.frame (.data id false)]) ++
    (last.map (.dataChunk id) ++ [.frame (.data id true)])

/-- A stream that has received some of a body, and may receive so much more. -/
structure Session.Holds (id : Nat) (uri : Uri) (type : Option Bytes) (data : Bytes) (left : Nat) (s : Session) : Prop where
  request : ∃ request, s.conn.streams id = ⟨some request, true⟩ ∧ request.Holds uri type data ∧ request.flags.finished = false
  scratch : s.conn.scratch = []
  room : s.conn.maxBodySize = 0 ∨ s.conn.bodyBytesRead + left < s.conn.maxBodySize
  phase : s.phase id = .body
  live : id ∉ s.conn.resets

section
variable (site : Site) (cached : Nat → Option Request) {id : Nat} {uri : Uri} {type : Option Bytes} {data : Bytes}
  {left : Nat} {s : Session}

theorem Session.Holds.stepped (holds : s.Holds id uri type data left) {event : H2Event} {phase : Phase} {c : H2Conn}
    (delivers : event.delivers = some id) (advances : event.advance id .body = some phase)
    (run : event.run site (bareH2Env cached) s.conn = (0, c)) :
    s.step site (bareH2Env cached) event = some ⟨c, fun other => if other = id then phase else s.phase other⟩ := by
  have live : ¬event.delivers.any (· ∈ s.conn.resets) = true := by
    rw [delivers]
    simpa using holds.live
  have about : event.stream = some id := by
    unfold H2Event.stream
    split
    · cases delivers
    · exact delivers
  simp only [Session.step, live, Bool.false_eq_true, if_false, about, holds.phase, advances, run, if_true]

theorem Session.Holds.piece {piece : Bytes} (holds : s.Holds id uri type data (piece.length + left)) :
    ∃ after, s.step site (bareH2Env cached) (.dataChunk id piece) = some after ∧
      after.Holds id uri type (data ++ piece) left := by
  obtain ⟨request, stream, held, unfinished⟩ := holds.request
  have room := holds.room
  have within : ¬(s.conn.maxBodySize > 0 ∧ s.conn.bodyBytesRead + piece.length ≥ s.conn.maxBodySize) := by omega
  let request' : Request := { request with status := resOk, bufferIn := request.bufferIn ++ (s.conn.scratch ++ piece) }
  have run : ∃ c, onDataChunkRecv (bareH2Env cached) id piece s.conn = (0, c) ∧ c.streams id = ⟨some request', true⟩ ∧
      c.scratch = [] ∧ c.maxBodySize = s.conn.maxBodySize ∧ c.bodyBytesRead = s.conn.bodyBytesRead + piece.length ∧
      c.resets = s.conn.resets := by
    simp only [onDataChunkRecv, userData_of stream, unfinished, Bool.false_eq_true, if_false, if_neg within]
    refine ⟨_, rfl, ?_, rfl, rfl, rfl, rfl⟩
    simp [H2Conn.hookBody, H2Conn.call, bareH2Env, H2Conn.store, runH2Actions, H2Conn.takeScratch, H2Conn.onRequest,
      H2Conn.modify, stream, request', Request.setStatus]
  obtain ⟨c, run, there, scratch, limit, count, resets⟩ := run
  refine ⟨_, holds.stepped site cached rfl (if_pos rfl) run, ⟨request', there, ⟨held.uri, held.content, ?_⟩, unfinished⟩, scratch, ?_,
    if_pos rfl, ?_⟩
  · change request.bufferIn ++ (s.conn.scratch ++ piece) = data ++ piece
    rw [holds.scratch, held.body, List.nil_append]
  · rw [limit, count]
    omega
  · rw [resets]
    exact holds.live

theorem Session.Holds.frame (holds : s.Holds id uri type data left) :
    ∃ after, s.step site (bareH2Env cached) (.frame (.data id false)) = some after ∧ after.Holds id uri type data left :=
  ⟨_, holds.stepped site cached rfl (if_pos rfl) rfl, holds.request, holds.scratch, holds.room, if_pos rfl, holds.live⟩

theorem h2ShouldParseQueryBody_holds {request : Request} (held : request.Holds uri type data) :
    h2ShouldParseQueryBody request = (uri.query.isNone && data != [] && isForm type) := by
  unfold h2ShouldParseQueryBody isForm
  rw [held.uri, held.content, held.body]
  cases type <;> rfl

theorem h2Dispatch_bare (cached : Nat → Option Request) (id : Nat) (c : H2Conn) :
    (h2Dispatch (bareH2Env cached) id c).streams = c.streams := by
  unfold h2Dispatch
  split
  · rfl
  · split
    · rfl
    · rfl

theorem Session.Holds.lastFrame (holds : s.Holds id uri type data left) :
    ∃ after, s.step site (bareH2Env cached) (.frame (.data id true)) = some after ∧
      (after.conn.streams id).request.map Request.form =
        some (formAfter uri data (uri.query.isNone && data != [] && isForm type)) := by
  obtain ⟨request, stream, held, unfinished⟩ := holds.request
  have ended : request.endStream.Holds uri type data := ⟨held.uri, held.content, held.body⟩
  let request' := if h2ShouldParseQueryBody request.endStream then queryFromBody request.endStream else request.endStream
  have form : request'.form = formAfter uri data (uri.query.isNone && data != [] && isForm type) := by
    rw [← h2ShouldParseQueryBody_holds ended, formAfter]
    dsimp only [request']
    split
    · exact queryFromBody_form ended
    · simp only [Request.form, Request.requireUri, ended.uri, Option.getD_some]
  have run : ∃ c, handleH2DataFrame (bareH2Env cached) id true s.conn = (0, c) ∧ (c.streams id).request = some request' := by
    simp only [handleH2DataFrame, if_true, userData_of stream, unfinished, Bool.false_eq_true, if_false]
    refine ⟨_, rfl, ?_⟩
    rw [h2Dispatch_bare]
    simp [H2Conn.onRequest, H2Conn.modify, stream, request']
  obtain ⟨c, run, there⟩ := run
  refine ⟨_, holds.stepped site cached rfl (if_pos rfl) run, ?_⟩
  rw [there, ← form]
  rfl

theorem Session.Holds.pieces (pieces : List Bytes) (holds : s.Holds id uri type data (pieces.flatten.length + left))
    (events : List H2Event) :
    ∃ after : Session, s.steps site (bareH2Env cached) (pieces.map (.dataChunk id) ++ events) =
        after.steps site (bareH2Env cached) events ∧
      after.Holds id uri type (data ++ pieces.flatten) left := by
  induction pieces generalizing s data with
  | nil =>
    refine ⟨s, rfl, ?_⟩
    simpa using holds
  | cons piece pieces ih =>
    rw [List.flatten_cons, List.length_append, Nat.add_assoc] at holds
    obtain ⟨next, taken, held⟩ := holds.piece site cached
    obtain ⟨after, others, held⟩ := ih held
    refine ⟨after, ?_, ?_⟩
    · rw [← others, List.map_cons, List.cons_append, Session.steps, taken, Option.bind_some]
    · rwa [List.flatten_cons, ← List.append_assoc]

theorem Session.Holds.frames (frames : List (List Bytes))
    (holds : s.Holds id uri type data (frames.flatten.flatten.length + left)) (events : List H2Event) :
    ∃ after : Session, s.steps site (bareH2Env cached)
          (frames.flatMap (fun pieces => pieces.map (.dataChunk id) ++ [.frame (.data id false)]) ++ events) =
        after.steps site (bareH2Env cached) events ∧
      after.Holds id uri type (data ++ frames.flatten.flatten) left := by
  induction frames generalizing s data with
  | nil =>
    refine ⟨s, rfl, ?_⟩
    simpa using holds
  | cons pieces frames ih =>
    rw [List.flatten_cons, List.flatten_append, List.length_append, Nat.add_assoc] at holds
    rw [List.flatMap_cons, List.append_assoc, List.append_assoc]
    obtain ⟨filled, arrived, held⟩ := holds.pieces site cached pieces ([.frame (.data id false)] ++ _)
    obtain ⟨next, taken, held⟩ := held.frame site cached
    obtain ⟨after, others, held⟩ := ih held
    refine ⟨after, ?_, ?_⟩
    · rw [arrived, ← others, List.singleton_append, Session.steps, taken, Option.bind_some]
    · rwa [List.flatten_cons, List.flatten_append, ← List.append_assoc]

/-- The body of a request over HTTP/2 as it is read by an application without hooks: what its query is then. -/
def h2Form (site : Site) (cached : Nat → Option Request) (id : Nat) (frames : List (List Bytes)) (last : List Bytes)
    (s : Session) : Option FormParts :=
  (s.steps site (bareH2Env cached) (dataFrames id frames last)).bind fun after =>
    (after.conn.streams id).request.map Request.form

theorem h2Form_eq (frames : List (List Bytes)) (last : List Bytes) {body : Bytes}
    (whole : frames.flatten.flatten ++ last.flatten = body) (holds : s.Holds id uri type [] body.length) :
    h2Form site cached id frames last s = some (formAfter uri body (uri.query.isNone && body != [] && isForm type)) := by
  subst whole
  have due : s.Holds id uri type [] (frames.flatten.flatten.length + (last.flatten.length + 0)) := by
    rwa [Nat.add_zero, ← List.length_append]
  obtain ⟨before, most, held⟩ := due.frames site cached frames (last.map (.dataChunk id) ++ [.frame (.data id true)])
  obtain ⟨filled, arrived, held⟩ := held.pieces site cached last [.frame (.data id true)]
  obtain ⟨after, taken, form⟩ := held.lastFrame site cached
  rw [h2Form, dataFrames, most, arrived, Session.steps, taken]
  exact form

end

/-- The body of a form became the query, or not: the two are different. -/
theorem formAfter_inj {uri uri' : Uri} {body : Bytes} (queryless : uri.form = ⟨none, none, false⟩)
    (queryless' : uri'.form = ⟨none, none, false⟩) {used used' : Bool} :
    formAfter uri body used = formAfter uri' body used' ↔ used = used' := by
  unfold formAfter
  rw [queryless, queryless']
  cases used <;> cases used' <;> simp

/-- The body becomes the query alike with its length given, over HTTP/2 in any frames, and in chunks, unless it is a
form in more than one chunk. -/
theorem form_framings_agree [Htstring] (site : Site) (cached : Nat → Option Request) {uri uri' uri'' : Uri} {type : Option Bytes}
    (queryless : ∀ any ∈ [uri, uri', uri''], any.form = ⟨none, none, false⟩) (body : Bytes)
    {sized : Htparser} {sizedConn : Conn} (length : sized.ExpectsLength body.length)
    (sizedHolds : sizedConn.Holds uri type [] body.length)
    {chunks : List SentChunk} {last : LastLine} (sent : chunks.flatMap SentChunk.data = body)
    {chunked : Htparser} {chunkedConn : Conn} (announced : chunked.ExpectsChunks chunks last)
    (chunkedHolds : chunkedConn.Holds uri' type [] body.length)
    {frames : List (List Bytes)} {lastFrame : List Bytes} (framed : frames.flatten.flatten ++ lastFrame.flatten = body)
    {id : Nat} {session : Session} (streamHolds : session.Holds id uri'' type [] body.length) :
    (readForm site cached sized sizedConn body = readForm site cached chunked chunkedConn (chunkedBody chunks last) ∧
        readForm site cached sized sizedConn body = h2Form site cached id frames lastFrame session) ↔
      (isForm type = true → chunks.length ≤ 1) := by
  simp only [List.forall_mem_cons, List.not_mem_nil, false_imp_iff, implies_true, and_true] at queryless
  obtain ⟨first, second, third⟩ := queryless
  have empty {uri : Uri} (queryless : uri.form = ⟨none, none, false⟩) : uri.query = none := congrArg FormParts.query queryless
  have stream := h2Form_eq site cached frames lastFrame framed streamHolds
  have known : readForm site cached sized sizedConn body = _ := length_form length sizedHolds
  have pieces : readForm site cached chunked chunkedConn (chunkedBody chunks last) = _ :=
    chunked_form announced (by rwa [sent])
  have some : body ≠ [] ↔ chunks ≠ [] := by
    rw [← sent, ne_eq, List.flatMap_eq_nil_iff]
    refine ⟨fun some none => some ?_, fun some none => ?_⟩
    · rw [none]
      exact nofun
    · obtain ⟨chunk, member⟩ := List.exists_mem_of_ne_nil chunks some
      exact chunk.some (none chunk member)
  rw [known, pieces, stream, sent, empty first, empty second, empty third]
  simp only [Option.some.injEq, formAfter_inj first second, formAfter_inj first third, Option.isNone_none, Bool.true_and, and_true]
  cases isForm type with
  | false => simp
  | true =>
    match chunks with
    | [] => simpa using some
    | [chunk] => simpa using some
    | first :: next :: others => simpa using some

section
attribute [local instance] Plain.htstring

def formType : Bytes := ascii "application/x-www-form-urlencoded"

def wholeChunk : SentChunk := ⟨ascii "3", ascii "a=1", by decide, by decide, by decide⟩

def zeroLine : LastLine := ⟨ascii "0", by decide, by decide⟩

def formUpload (framing : String) : Bytes :=
  ascii ("POST / HTTP/1.1\r\nContent-Type: application/x-www-form-urlencoded\r\n" ++ framing)

def formUri (scheme : HtpScheme) : Uri where
  scheme := scheme
  path := some { pathNew (ascii "/") with matchedEoff := 1, matchStart := some (ascii "/" ++ [0]), matchEnd := some [0, 0] }

/-- The connection and its parser when the head of a form was read. -/
def formHead (framing : String) : Fed Conn :=
  Fed.calls (requestPsets bareSite (bareEnv fun _ => none)) 1
    ⟨htparserInit (htparserNew defaultConfig) .request, {}, formUpload (framing ++ "\r\n\r\n")⟩

def readUpload (framing : String) (body : Bytes) : Option FormParts :=
  readForm bareSite (fun _ => none) (formHead framing).p (formHead framing).user body

def formStream : List H2Event :=
  headOf 1 "POST" [("content-type", "application/x-www-form-urlencoded")] ++ [.frame (.headers 1 true false)]

theorem formHead_holds (framing : String) (left : Nat)
    (read : (formHead framing).user.request.map (fun request =>
      (request.uri, evhtpHeaderFind request.headersIn (ascii "content-type"), request.bufferIn)) =
        some (some (formUri .none), some formType, []) ∧ (formHead framing).user.flags.paused = false ∧
      (formHead framing).user.scratch = [] ∧ (formHead framing).user.maxBodySize = 0) :
    (formHead framing).user.Holds (formUri .none) (some formType) [] left := by
  obtain ⟨read, rest⟩ := read
  obtain ⟨request, here, read⟩ := Option.map_eq_some_iff.mp read
  obtain ⟨uri, read⟩ := Prod.mk.inj read
  obtain ⟨content, body⟩ := Prod.mk.inj read
  exact ⟨⟨request, here, uri, content, body⟩, rest.1, rest.2.1, .inl rest.2.2⟩

theorem form_framings_agree_whole :
    ∃ session, ({} : Session).steps bareSite (bareH2Env fun _ => none) formStream = some session ∧
      readUpload "Content-Length: 3" (ascii "a=1") = readUpload "Transfer-Encoding: chunked" (chunkedBody [wholeChunk] zeroLine) ∧
      readUpload "Content-Length: 3" (ascii "a=1") =
        h2Form bareSite (fun _ => none) 1 [[ascii "a"], [ascii "="]] [ascii "1"] session := by
  have run : ((({} : Session).steps bareSite (bareH2Env fun _ => none) formStream).map fun s =>
      ((s.conn.streams 1).attached, s.conn.scratch, s.conn.maxBodySize, s.phase 1, s.conn.resets)) = some (true, [], 0, .body, []) := by
    decide +kernel
  have read : ((({} : Session).steps bareSite (bareH2Env fun _ => none) formStream).bind fun s => (s.conn.streams 1).request).map
      (fun request => (request.uri, evhtpHeaderFind request.headersIn (ascii "content-type"), request.bufferIn,
        request.flags.finished)) = some (some (formUri .https), some formType, [], false) := by
    decide +kernel
  obtain ⟨session, taken, run⟩ := Option.map_eq_some_iff.mp run
  rw [taken] at read
  obtain ⟨request, here, read⟩ := Option.map_eq_some_iff.mp read
  simp only [Prod.mk.injEq] at run read
  obtain ⟨attached, scratch, unlimited, phase, resets⟩ := run
  obtain ⟨uri, content, body, open_⟩ := read
  refine ⟨session, taken, (form_framings_agree bareSite (fun _ => none) ?_ (ascii "a=1") ?_ (formHead_holds _ 3 ?_) rfl ?_
    (formHead_holds _ 3 ?_) rfl ⟨⟨request, ?_, ⟨uri, content, body⟩, open_⟩, scratch, .inl unlimited, phase, ?_⟩).mpr
    (fun _ => le_refl 1)⟩
  · decide
  · rw [Parser.expectsLength_iff]
    decide +kernel
  · decide +kernel
  · rw [Parser.expectsChunks_iff, atChunk_iff]
    decide +kernel
  · decide +kernel
  · exact congrArg₂ Stream.mk here attached
  · rw [resets]
    exact List.not_mem_nil

/-- The same form with its length given, and in two chunks. -/
theorem form_framings_differ :
    readForm bareSite (fun _ => none) (htparserInit (htparserNew defaultConfig) .request) {}
        (formUpload "Content-Length: 3\r\n\r\na=1") ≠
      readForm bareSite (fun _ => none) (htparserInit (htparserNew defaultConfig) .request) {}
        (formUpload "Transfer-Encoding: chunked\r\n\r\n2\r\na=\r\n1\r\n1\r\n0\r\n\r\n") := by
  decide +kernel

end

end Evhtp
