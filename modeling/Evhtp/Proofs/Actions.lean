import Evhtp.Events

/-! What the calls of an application change. They add to a reply, send it, pause and resume; what was read
of the request, where it was routed to and what was dispatched stay as they are. -/

namespace Evhtp

/-- The same request after calls of the application: its reply has moved on. -/
structure Request.Follows (before after : Request) : Prop where
  method : after.method = before.method
  proto : after.proto = before.proto
  headersIn : after.headersIn = before.headersIn
  bufferIn : after.bufferIn = before.bufferIn
  uri : after.uri = before.uri
  htp : after.htp = before.htp
  cb : after.cb = before.cb
  cbarg : after.cbarg = before.cbarg
  began : after.began = before.began
  host : after.host = before.host
  received : after.received = before.received
  keepalive : after.flags.keepalive = before.flags.keepalive
  finished : before.flags.finished = true → after.flags.finished = true

theorem Request.Follows.reply (request : Request) {status : Nat} {flags : ReqFlags} {headersOut : List Kv} {bufferOut : Bytes}
    (keepalive : flags.keepalive = request.flags.keepalive)
    (finished : request.flags.finished = true → flags.finished = true) :
    request.Follows { request with status, flags, headersOut, bufferOut } :=
  ⟨rfl, rfl, rfl, rfl, rfl, rfl, rfl, rfl, rfl, rfl, rfl, keepalive, finished⟩

theorem Request.Follows.refl (request : Request) : request.Follows request :=
  .reply request rfl id

theorem Request.Follows.trans {first second third : Request} (one : first.Follows second) (two : second.Follows third) :
    first.Follows third :=
  ⟨two.method.trans one.method, two.proto.trans one.proto, two.headersIn.trans one.headersIn,
    two.bufferIn.trans one.bufferIn, two.uri.trans one.uri, two.htp.trans one.htp, two.cb.trans one.cb,
    two.cbarg.trans one.cbarg, two.began.trans one.began, two.host.trans one.host, two.received.trans one.received,
    two.keepalive.trans one.keepalive, fun finished => two.finished (one.finished finished)⟩

/-- A parser whose version the reply functions may have set. -/
def SameParser (before after : Parser) : Prop := ∃ major minor, after = { before with major, minor }

theorem SameParser.refl (p : Parser) : SameParser p p := ⟨p.major, p.minor, rfl⟩

theorem SameParser.trans {first second third : Parser} (one : SameParser first second) (two : SameParser second third) :
    SameParser first third := by
  obtain ⟨_, _, rfl⟩ := one
  obtain ⟨major, minor, rfl⟩ := two
  exact ⟨major, minor, rfl⟩

theorem createReply_follows (request : Request) (p : Parser) (code : Nat) :
    request.Follows (createReply request p code).1.1 ∧ SameParser p (createReply request p code).1.2 := by
  obtain ⟨headersOut, same⟩ := replyHeaders_only { request with status := code } p.flags.multipart
  simp only [createReply, same]
  refine ⟨.reply request rfl id, ?_⟩
  rw [replyParser]
  split
  · exact .refl p
  · exact .refl p
  · exact ⟨1, 0, rfl⟩
  · exact ⟨1, 0, rfl⟩

/-- What a connection has counted and recorded stays the same. -/
structure Conn.SameRecords (before after : Conn) : Prop where
  sni : after.sni = before.sni
  dispatched : after.dispatched = before.dispatched
  bodies : after.bodies = before.bodies
  maxBodySize : after.maxBodySize = before.maxBodySize
  bodyBytesRead : after.bodyBytesRead = before.bodyBytesRead
  numRequests : after.numRequests = before.numRequests

theorem Conn.SameRecords.trans {first second third : Conn} (one : first.SameRecords second) (two : second.SameRecords third) :
    first.SameRecords third :=
  ⟨two.sni.trans one.sni, two.dispatched.trans one.dispatched, two.bodies.trans one.bodies,
    two.maxBodySize.trans one.maxBodySize, two.bodyBytesRead.trans one.bodyBytesRead, two.numRequests.trans one.numRequests⟩

structure Conn.Follows (before after : Conn) : Prop extends before.SameRecords after where
  htp : after.htp = before.htp
  waiting : after.flags.waiting = before.flags.waiting
  freeConn : after.flags.freeConn = before.flags.freeConn
  output : before.output ≠ [] → after.output ≠ []
  absent : before.request = none → after.request = none
  request : ∀ request, before.request = some request → ∃ request', after.request = some request' ∧ request.Follows request'

theorem Conn.Follows.refl (conn : Conn) : conn.Follows conn :=
  ⟨⟨rfl, rfl, rfl, rfl, rfl, rfl⟩, rfl, rfl, rfl, id, id, fun request here => ⟨request, here, .refl request⟩⟩

theorem Conn.Follows.trans {first second third : Conn} (one : first.Follows second) (two : second.Follows third) :
    first.Follows third := by
  refine ⟨one.toSameRecords.trans two.toSameRecords, two.htp.trans one.htp, two.waiting.trans one.waiting,
    two.freeConn.trans one.freeConn, fun some => two.output (one.output some), fun none => two.absent (one.absent none),
    fun request here => ?_⟩
  obtain ⟨middle, there, first⟩ := one.request request here
  obtain ⟨last, found, second⟩ := two.request middle there
  exact ⟨last, found, first.trans second⟩

theorem Conn.setStatus_follows (conn : Conn) (status : Nat) : conn.Follows (conn.setStatus status) := by
  refine ⟨⟨rfl, rfl, rfl, rfl, rfl, rfl⟩, rfl, rfl, rfl, id, fun none => ?_, fun request here => ?_⟩
  · rw [Conn.setStatus, none]
    rfl
  · refine ⟨request.setStatus status, ?_, .reply request rfl id⟩
    rw [Conn.setStatus, here]
    rfl

theorem evhtpConnectionPause_follows (conn : Conn) : conn.Follows (evhtpConnectionPause conn) := by
  rw [evhtpConnectionPause]
  split
  · exact .refl conn
  · exact ⟨⟨rfl, rfl, rfl, rfl, rfl, rfl⟩, rfl, rfl, rfl, id, id, fun request here => ⟨request, here, .refl request⟩⟩

theorem evhtpConnectionResume_follows (conn : Conn) : conn.Follows (evhtpConnectionResume conn) := by
  rw [evhtpConnectionResume]
  split
  · exact ⟨⟨rfl, rfl, rfl, rfl, rfl, rfl⟩, rfl, rfl, rfl, id, id, fun request here => ⟨request, here, .refl request⟩⟩
  · exact .refl conn

section
variable {conn : Conn} {request : Request}

theorem Conn.follows_of_request (here : conn.request = some request) {request' : Request} (follows : request.Follows request')
    {output scratch : Bytes} (written : conn.output ≠ [] → output ≠ []) :
    conn.Follows { conn with request := some request', output, scratch } := by
  refine ⟨⟨rfl, rfl, rfl, rfl, rfl, rfl⟩, rfl, rfl, rfl, written, fun none => ?_, fun request'' there => ⟨request', rfl, ?_⟩⟩
  · rw [here] at none
    cases none
  · rw [here] at there
    cases there
    exact follows

theorem Conn.replied_follows (here : conn.request = some request) {p : Parser} {reply : (Request × Parser) × Bytes}
    (follows : request.Follows reply.1.1 ∧ SameParser p reply.1.2) :
    conn.Follows (conn.replied reply).2 ∧ SameParser p (conn.replied reply).1 :=
  ⟨Conn.follows_of_request here follows.1 (List.append_ne_nil_of_left_ne_nil · _), follows.2⟩

theorem evhtpSendReplyChunkStart_follows (request : Request) (p : Parser) (code : Nat) :
    request.Follows (evhtpSendReplyChunkStart request p code).1.1 ∧
      SameParser p (evhtpSendReplyChunkStart request p code).1.2 := by
  have chosen : request.Follows (chooseChunked request code) := by
    rw [chooseChunked]
    repeat' split
    all_goals exact .reply request rfl id
  rw [evhtpSendReplyChunkStart]
  dsimp only
  split
  · obtain ⟨follows, parser⟩ := createReply_follows
      { (chooseChunked request code).addHeader (ascii "Transfer-Encoding") (ascii "chunked") with
        bufferOut := if (chooseChunked request code).bufferOut = [] then []
          else chunkBytes (chooseChunked request code).bufferOut } p code
    exact ⟨(chosen.trans (.reply _ rfl id)).trans follows, parser⟩
  · obtain ⟨follows, parser⟩ := createReply_follows (chooseChunked request code) p code
    exact ⟨chosen.trans follows, parser⟩

theorem Action.run_follows (action : Action) (p : Parser) (here : conn.request = some request) :
    conn.Follows (action.run p conn request).2 ∧ SameParser p (action.run p conn request).1 := by
  have finished : request.Follows { request with flags := { request.flags with finished := true } } :=
    .reply request rfl fun _ => rfl
  have written : ∀ {data : Bytes}, conn.output ≠ [] → conn.output ++ data ≠ [] :=
    fun some => List.append_ne_nil_of_left_ne_nil some _
  cases action with
  | addHeader key val =>
    have added : request.Follows (request.addHeader key val) := .reply request rfl id
    exact ⟨Conn.follows_of_request here added id, .refl p⟩
  | addBuffer data =>
    have added : request.Follows { request with bufferOut := request.bufferOut ++ data } := .reply request rfl id
    exact ⟨Conn.follows_of_request here added id, .refl p⟩
  | sendReply code =>
    obtain ⟨follows, parser⟩ := createReply_follows
      { request with flags := { request.flags with finished := true } } p code
    exact Conn.replied_follows here ⟨finished.trans follows, parser⟩
  | sendReplyStart code => exact Conn.replied_follows here (createReply_follows request p code)
  | sendReplyBody data =>
    exact ⟨⟨⟨rfl, rfl, rfl, rfl, rfl, rfl⟩, rfl, rfl, rfl, written, id, fun r there => ⟨r, there, .refl r⟩⟩, .refl p⟩
  | sendReplyEnd => exact ⟨Conn.follows_of_request here finished id, .refl p⟩
  | sendReplyChunkStart code => exact Conn.replied_follows here (evhtpSendReplyChunkStart_follows request p code)
  | sendReplyChunk data =>
    exact ⟨⟨⟨rfl, rfl, rfl, rfl, rfl, rfl⟩, rfl, rfl, rfl, written, id, fun r there => ⟨r, there, .refl r⟩⟩, .refl p⟩
  | sendReplyChunkEnd => exact ⟨Conn.follows_of_request here finished written, .refl p⟩
  | pause => exact ⟨(conn.setStatus_follows resPause).trans (evhtpConnectionPause_follows _), .refl p⟩
  | resume => exact ⟨evhtpConnectionResume_follows conn, .refl p⟩
  | drain count => exact ⟨⟨⟨rfl, rfl, rfl, rfl, rfl, rfl⟩, rfl, rfl, rfl, id, id, fun r there => ⟨r, there, .refl r⟩⟩, .refl p⟩
  | takeOwnership =>
    exact ⟨⟨⟨rfl, rfl, rfl, rfl, rfl, rfl⟩, rfl, rfl, rfl, id, id, fun r there => ⟨r, there, .refl r⟩⟩, .refl p⟩

end

theorem runActions_follows (actions : List Action) (p : Parser) (conn : Conn) :
    conn.Follows (runActions actions p conn).2 ∧ SameParser p (runActions actions p conn).1 := by
  induction actions generalizing p conn with
  | nil => exact ⟨.refl conn, .refl p⟩
  | cons action actions ih =>
    rw [runActions]
    split
    · exact ⟨.refl conn, .refl p⟩
    · next request here =>
      obtain ⟨first, parser⟩ := action.run_follows p here
      obtain ⟨rest, parser'⟩ := ih (action.run p conn request).1 (action.run p conn request).2
      exact ⟨first.trans rest, parser.trans parser'⟩

theorem runApp_follows (env : Env) (hook : AppHook) (p : Parser) (conn : Conn) :
    conn.Follows (runApp env hook p conn).2.2 ∧ SameParser p (runApp env hook p conn).2.1 := by
  have ticked : conn.Follows { conn with clock := conn.clock + 1 } :=
    ⟨⟨rfl, rfl, rfl, rfl, rfl, rfl⟩, rfl, rfl, rfl, id, id, fun request here => ⟨request, here, .refl request⟩⟩
  obtain ⟨follows, parser⟩ := runActions_follows (env.app conn.clock hook).actions p { conn with clock := conn.clock + 1 }
  exact ⟨ticked.trans follows, parser⟩

theorem appStatus_follows (env : Env) (hook : AppHook) (p : Parser) (conn : Conn) :
    conn.Follows (appStatus env hook p conn).2 :=
  (runApp_follows env hook p conn).1.trans (Conn.setStatus_follows _ _)

theorem hook_psets (site : Site) (env : Env) {name : HookName} (data : Bytes) (p : Parser) (conn : Conn)
    (present : name ≠ .method ∧ name ≠ .scheme ∧ name ≠ .uri) :
    hook (requestPsets site env) name data ⟨p, conn⟩ =
      (((requestPsets site env).call ⟨name, data⟩ p conn).1.rc == 0,
        ⟨p.replied ((requestPsets site env).call ⟨name, data⟩ p conn).1, ((requestPsets site env).call ⟨name, data⟩ p conn).2⟩) := by
  simp [hook, requestPsets, present]

theorem Parser.replied_hookReply (p : Parser) : p.replied (hookReply 0 p) = p := by
  simp [Parser.replied, hookReply]

end Evhtp
