import Evhtp.Connection
import Evhtp.Lib.Runs

/-! HTTP/2 server connections: the callbacks that nghttp2 is given. nghttp2 decides which of them is called
next; a session keeps what it has delivered of each stream, and with it what it can deliver. What the
application does in its hooks is an oracle that is asked anew at each call. -/

namespace Evhtp

/-- What an application may call on a request, as far as it shows in the request. -/
inductive H2Action where
  | sendReply
  | sendReplyEnd
  | resetStream
  deriving DecidableEq, Repr

/-- What a hook or a callback does: its calls on the requests of some streams, the callback it stores in its
own request, what it drains from the buffer it is given, whether it frees its request, and its result. Only
a callback may free its request. -/
structure H2Reply where
  actions : List (Nat × H2Action) := []
  handler : Option Handler := none
  drain : Nat := 0
  free : Bool := false
  res : Nat := resOk
  deriving DecidableEq, Repr

/-- The application at each of its calls, with the stream it is called for, and the request that lies in the
cache whenever one is needed. -/
structure H2Env where
  app : Nat → Nat → AppHook → H2Reply
  cached : Nat → Option Request

/-- The live request of a stream, and whether nghttp2's user data for the stream points to it. -/
structure Stream where
  request : Option Request := none
  attached : Bool := false
  deriving DecidableEq, Repr

/-- A call of the application, for the record: its stream, the request as it was, and what was done. -/
structure H2Call where
  stream : Nat
  hook : AppHook
  request : Option Request
  reply : H2Reply
  deriving DecidableEq, Repr

/-- A piece of a body as it arrived, for the record. Unless it was refused as too long, the hook for the body
was given a buffer. -/
structure H2Piece where
  stream : Nat
  data : Bytes
  given : Option (Bytes × H2Reply)
  deriving DecidableEq, Repr

/-- A connection, with the streams for which a reset was submitted. The last three fields are not part of
the source: how often the environment was asked, its calls, and the pieces of bodies that arrived. -/
structure H2Conn where
  htp : Nat := root
  streams : Nat → Stream := fun _ => {}
  pending : List Nat := []
  error : Bool := false
  maxBodySize : Nat := 0
  bodyBytesRead : Nat := 0
  scratch : Bytes := []
  resets : List Nat := []
  clock : Nat := 0
  log : List H2Call := []
  pieces : List H2Piece := []

namespace H2Conn

def modify (c : H2Conn) (id : Nat) (f : Stream → Stream) : H2Conn :=
  { c with streams := fun other => if other = id then f (c.streams other) else c.streams other }

/-- `nghttp2_session_get_stream_user_data`. -/
def userData (c : H2Conn) (id : Nat) : Option Request :=
  if (c.streams id).attached then (c.streams id).request else none

def onRequest (c : H2Conn) (id : Nat) (f : Request → Request) : H2Conn :=
  c.modify id fun stream => { stream with request := stream.request.map f }

end H2Conn

def Request.finish (request : Request) : Request := { request with flags := { request.flags with finished := true } }

def Request.store (request : Request) (handler : Handler) : Request :=
  { request with cb := handler.cb, cbarg := handler.cbarg }

/-- `evhtp_h2_send_reply`, `evhtp_h2_send_reply_end` and `evhtp_h2_reset_stream`, which leaves a stream alone
that is not the request's any more. -/
def H2Action.run (action : H2Action) (id : Nat) (c : H2Conn) : H2Conn :=
  match action with
  | .sendReply | .sendReplyEnd => c.onRequest id Request.finish
  | .resetStream =>
    if (c.userData id).isSome then { c.onRequest id Request.finish with resets := c.resets ++ [id] } else c

def runH2Actions (actions : List (Nat × H2Action)) (c : H2Conn) : H2Conn :=
  actions.foldl (fun c action => action.2.run action.1 c) c

def H2Conn.store (c : H2Conn) (id : Nat) : Option Handler → H2Conn
  | none => c
  | some handler => c.onRequest id (·.store handler)

def H2Conn.call (env : H2Env) (id : Nat) (hook : AppHook) (c : H2Conn) : H2Reply × H2Conn :=
  let reply := env.app c.clock id hook
  let called : H2Call := ⟨id, hook, (c.streams id).request, reply⟩
  (reply, runH2Actions reply.actions
    ({ c with clock := c.clock + 1, log := c.log ++ [called] }.store id reply.handler))

/-- `htp__request_free_`. -/
def h2RequestFree (env : H2Env) (id : Nat) (c : H2Conn) : H2Conn :=
  let called := c.call env id .requestFini
  { called.2.modify id fun _ => {} with pending := c.pending.filter (· ≠ id) }

/-- `htp__request_new__`: a cached request, or one from `calloc`. -/
def h2RequestNew (env : H2Env) (c : H2Conn) : Request :=
  let request := match env.cached c.clock with
    | some request => requestClear request
    | none => {}
  { request with htp := c.htp, status := resOk, began := c.htp }

def h2StreamNew (env : H2Env) (id : Nat) (c : H2Conn) : Request :=
  { h2RequestNew env c with proto := .proto20, streamId := id }

/-- `h2__server_on_begin_headers_cb_`; trailers belong to the request that is there. -/
def serverOnBeginHeaders (env : H2Env) (id : Nat) (request : Bool) (c : H2Conn) : Int × H2Conn :=
  if request then
    (0, { c.modify id fun _ => ⟨some (h2StreamNew env id c), true⟩ with
      clock := c.clock + 1
      pending := c.pending ++ [id] })
  else (0, c)

/-- `NGHTTP2_ERR_CALLBACK_FAILURE`. -/
def callbackFailure : Int := -902

/-- The path of a request target, and its query if it has one. -/
def splitTarget (target : Bytes) : Bytes × Option Bytes :=
  let path := target.takeWhile fun byte => byte != 63 && byte != 35
  match target.drop path.length with
  | 63 :: query => (path, some query)
  | _ => (path, none)

/-- The pseudo-header `:path`. The result of the hook for the path is not looked at. -/
def onPath (site : Site) (env : H2Env) (id : Nat) (target : Bytes) (c : H2Conn) : Int × H2Conn :=
  let parts := splitTarget target
  let c := c.onRequest id fun request =>
    setCallbacks site (request.setUri { request.requireUri with path := some (pathNew parts.1) })
  let c := (c.call env id (.path parts.1)).2
  match parts.2, (c.streams id).request with
  | some query, some request =>
    match uriSetQuery request.requireUri query (site.htp c.htp).parserFlags with
    | some uri => (0, c.onRequest id (·.setUri uri))
    | none => (callbackFailure, c)
  | _, _ => (0, c)

/-- The pseudo-headers; `:authority` becomes a header. -/
def onPseudoHeader (site : Site) (env : H2Env) (id : Nat) (name value : Bytes) (c : H2Conn) : Int × H2Conn :=
  if name = ascii ":method" then (0, c.onRequest id fun request => { request with method := methodFrom value })
  else if name = ascii ":path" then onPath site env id value c
  else if name = ascii ":scheme" then
    (0, c.onRequest id fun request => request.setUri { request.requireUri with
      scheme := if (ascii "https").isPrefixOf value then .https else .http })
  else if name = ascii ":authority" then
    (0, c.onRequest id fun request => { request with
      headersIn := request.headersIn ++ [⟨ascii "host", some (cString value)⟩] })
  else (0, c)

def Request.started (request : Request) : Request := { request with flags := { request.flags with hdrsStart := true } }

/-- The hook before the first header, unless it was called already; whether to go on. -/
def headersStart (env : H2Env) (id : Nat) (request : Request) (c : H2Conn) : Bool × H2Conn :=
  if request.flags.hdrsStart then (true, c)
  else
    let called := (c.onRequest id Request.started).call env id .headersStart
    (called.1.res == resOk, called.2)

/-- `h2__server_on_header_cb_`. The result of the hook for a header is not looked at. -/
def serverOnHeader (site : Site) (env : H2Env) (id : Nat) (name value : Bytes) (c : H2Conn) : Int × H2Conn :=
  match c.userData id with
  | none => (0, c)
  | some request =>
    if name.head? = some 58 then onPseudoHeader site env id name value c
    else
      let started := headersStart env id request c
      if started.1 then
        let c := started.2.onRequest id fun request => { request with
          headersIn := request.headersIn ++ [⟨cString name, some (cString value)⟩] }
        (0, (c.call env id (.header (cString name) (cString value))).2)
      else (callbackFailure, started.2)

def H2Conn.submitRst (c : H2Conn) (id : Nat) : H2Conn := { c with resets := c.resets ++ [id] }

def H2Conn.finished (c : H2Conn) (id : Nat) : Bool := (c.streams id).request.any (·.flags.finished)

/-- A hook that may refuse the request: whether to go on after it. A request that was answered is left
alone, and one that was refused without an answer is reset. -/
def gate (env : H2Env) (id : Nat) (hook : AppHook) (c : H2Conn) : Bool × H2Conn :=
  let called := c.call env id hook
  if called.2.finished id then (false, called.2)
  else if called.1.res ≠ resOk then (false, called.2.submitRst id)
  else (true, called.2)

def Request.resolved (request : Request) : Request :=
  { request with flags := { request.flags with vhostResolved := true } }

/-- A host name is looked up from the structure the connection is at, which moves to the one that is found. -/
def H2Conn.lookupHost (site : Site) (id : Nat) (host : Bytes) (c : H2Conn) : H2Conn :=
  let c := c.onRequest id fun request => { request with host := some host }
  match findVhost site c.htp host with
  | some vhost => { c.onRequest id fun request => setCallbacks site { request with htp := vhost } with htp := vhost }
  | none => c

/-- The virtual host of a request, by the first header that names one; whether to go on. -/
def resolveVhost (site : Site) (env : H2Env) (id : Nat) (request : Request) (c : H2Conn) : Bool × H2Conn :=
  if request.flags.vhostResolved then (true, c)
  else
    let c := c.onRequest id Request.resolved
    match evhtpHeaderFind request.headersIn (ascii "host") with
    | none => (true, c)
    | some host => gate env id (.hostname host) (c.lookupHost site id host)

/-- The callback of the request of a stream, which may free the request. -/
def h2Dispatch (env : H2Env) (id : Nat) (c : H2Conn) : H2Conn :=
  match (c.streams id).request with
  | none => c
  | some request =>
    match request.cb with
    | none => c
    | some cb =>
      let called := c.call env id (.callback cb request.cbarg)
      if called.1.free then h2RequestFree env id called.2 else called.2

def Request.endStream (request : Request) : Request := { request with flags := { request.flags with endStream := true } }

/-- The rest of a HEADERS frame, once the virtual host is known. -/
def headersComplete (site : Site) (env : H2Env) (id : Nat) (c : H2Conn) : H2Conn :=
  let hooked := gate env id .headers (c.onRequest id (setCallbacks site))
  if hooked.1 ∧ (hooked.2.streams id).request.any (·.flags.endStream) then h2Dispatch env id hooked.2 else hooked.2

def handleH2HeadersFrame (site : Site) (env : H2Env) (id : Nat) (endHeaders endStream : Bool) (c : H2Conn) : Int × H2Conn :=
  if endHeaders then
    match c.userData id with
    | none => (-1, c)
    | some request =>
      let c := if endStream then c.onRequest id Request.endStream else c
      let started := headersStart env id request c
      if started.1 then
        let resolved := resolveVhost site env id request started.2
        (0, if resolved.1 then headersComplete site env id resolved.2 else resolved.2)
      else (callbackFailure, started.2)
  else (0, c)

def h2ShouldParseQueryBody (request : Request) : Bool :=
  match request.uri with
  | none => false
  | some uri =>
    uri.query.isNone && request.bufferIn != [] &&
      match evhtpHeaderFind request.headersIn (ascii "content-type") with
      | none => false
      | some type => (type.take 33).map toLower == ascii "application/x-www-form-urlencoded"

def handleH2DataFrame (env : H2Env) (id : Nat) (endStream : Bool) (c : H2Conn) : Int × H2Conn :=
  if endStream then
    match c.userData id with
    | none => (-1, c)
    | some request =>
      let c := c.onRequest id Request.endStream
      if request.flags.finished then (0, c)
      else
        let c := c.modify id fun stream => { stream with attached := false }
        let c := c.onRequest id fun request => if h2ShouldParseQueryBody request then queryFromBody request else request
        (0, h2Dispatch env id c)
  else (0, c)

/-- `handle_h2_goaway_frame`: the hook for errors of every request above the last stream. -/
def handleH2GoawayFrame (env : H2Env) (last : Nat) (c : H2Conn) : Int × H2Conn :=
  (0, (c.pending.filter (· > last)).foldl (fun c id => (c.call env id .error).2) c)

inductive H2Frame where
  | headers (id : Nat) (endHeaders endStream : Bool)
  | data (id : Nat) (endStream : Bool)
  | goaway (last : Nat)
  | other
  deriving DecidableEq, Repr

def onFrameRecv (site : Site) (env : H2Env) (frame : H2Frame) (c : H2Conn) : Int × H2Conn :=
  match frame with
  | .headers id endHeaders endStream => handleH2HeadersFrame site env id endHeaders endStream c
  | .data id endStream => handleH2DataFrame env id endStream c
  | .goaway last => handleH2GoawayFrame env last c
  | .other => (0, c)

/-- The hook for the body, on all that is in the scratch buffer. -/
def H2Conn.hookBody (env : H2Env) (id : Nat) (data : Bytes) (c : H2Conn) : H2Reply × H2Conn :=
  let buf := c.scratch ++ data
  let called := c.call env id (.read buf)
  (called.1, { called.2 with
    scratch := buf.drop called.1.drain
    pieces := c.pieces ++ [⟨id, data, some (buf, called.1)⟩] })

/-- What the hook left in the scratch buffer goes to the request. -/
def H2Conn.takeScratch (c : H2Conn) (id : Nat) : H2Conn :=
  { c.onRequest id fun request => { request with bufferIn := request.bufferIn ++ c.scratch } with scratch := [] }

def onDataChunkRecv (env : H2Env) (id : Nat) (data : Bytes) (c : H2Conn) : Int × H2Conn :=
  match c.userData id with
  | none => (-1, c)
  | some request =>
    if request.flags.finished then (0, c)
    else if c.maxBodySize > 0 ∧ c.bodyBytesRead + data.length ≥ c.maxBodySize then
      (-1, { c.onRequest id (·.setStatus resDataTooLong) with error := true, pieces := c.pieces ++ [⟨id, data, none⟩] })
    else
      let called := c.hookBody env id data
      let c := called.2.onRequest id (·.setStatus called.1.res)
      let c := if called.1.res = resOk then c.takeScratch id else c
      (if called.1.res = resOk ∨ called.1.res = resPause then 0 else -1,
        { c with bodyBytesRead := c.bodyBytesRead + data.length })

def serverOnStreamClose (env : H2Env) (id : Nat) (c : H2Conn) : Int × H2Conn :=
  if (c.userData id).isSome then (0, h2RequestFree env id c) else (0, c)

/-- What nghttp2 calls, and what the application does outside its hooks. -/
inductive H2Event where
  | beginHeaders (id : Nat) (request : Bool)
  | header (id : Nat) (name value : Bytes)
  | frame (received : H2Frame)
  | dataChunk (id : Nat) (data : Bytes)
  | streamClose (id : Nat)
  | act (actions : List (Nat × H2Action))
  | free (id : Nat)
  deriving DecidableEq, Repr

def H2Event.run (site : Site) (env : H2Env) (event : H2Event) (c : H2Conn) : Int × H2Conn :=
  match event with
  | .beginHeaders id request => serverOnBeginHeaders env id request c
  | .header id name value => serverOnHeader site env id name value c
  | .frame received => onFrameRecv site env received c
  | .dataChunk id data => onDataChunkRecv env id data c
  | .streamClose id => serverOnStreamClose env id c
  | .act actions => (0, runH2Actions actions c)
  | .free id => (0, if (c.streams id).request.isSome then h2RequestFree env id c else c)

/-- What nghttp2 has delivered of a stream. -/
inductive Phase where
  | idle | head | body | trailers | ended | closed
  deriving DecidableEq, Repr

/-- What nghttp2 delivers for a stream in each phase: one header block, data, and maybe a second header
block; the end of the stream comes once and last. -/
def H2Event.advance (event : H2Event) (id : Nat) (phase : Phase) : Option Phase :=
  match event with
  | .beginHeaders other request =>
    if other = id then
      match phase, request with
      | .idle, true => some .head
      | .body, false => some .trailers
      | _, _ => none
    else some phase
  | .header other _ _ => if other = id then if phase = .head ∨ phase = .trailers then some phase else none else some phase
  | .frame (.headers other endHeaders endStream) =>
    if other = id then
      match phase, endHeaders, endStream with
      | .head, true, false => some .body
      | .head, true, true | .trailers, true, true => some .ended
      | _, _, _ => none
    else some phase
  | .frame (.data other endStream) =>
    if other = id then if phase = .body then some (if endStream then .ended else .body) else none else some phase
  | .dataChunk other _ => if other = id then if phase = .body then some .body else none else some phase
  | .streamClose other =>
    if other = id then if phase = .idle ∨ phase = .closed then none else some .closed else some phase
  | .frame (.goaway _) | .frame .other | .act _ | .free _ => some phase

/-- The stream whose frames an event is a part of; nghttp2 delivers none once a reset was submitted. -/
def H2Event.delivers : H2Event → Option Nat
  | .beginHeaders id _ | .header id _ _ | .frame (.headers id _ _) | .frame (.data id _) | .dataChunk id _ => some id
  | .frame (.goaway _) | .frame .other | .streamClose _ | .act _ | .free _ => none

def H2Event.stream : H2Event → Option Nat
  | .streamClose id => some id
  | event => event.delivers

/-- A connection and what was delivered of its streams. -/
structure Session where
  conn : H2Conn := {}
  phase : Nat → Phase := fun _ => .idle

/-- An event, if nghttp2 can deliver it. A callback that fails makes `htp__h2_connection_readcb_` free the
connection, so that there is no state after it. -/
def Session.step (site : Site) (env : H2Env) (s : Session) (event : H2Event) : Option Session :=
  if event.delivers.any (· ∈ s.conn.resets) then none
  else
    match event.stream with
    | none =>
      let after := event.run site env s.conn
      if after.1 = 0 then some { s with conn := after.2 } else none
    | some id =>
      match event.advance id (s.phase id) with
      | none => none
      | some phase =>
        let after := event.run site env s.conn
        if after.1 = 0 then some ⟨after.2, fun other => if other = id then phase else s.phase other⟩ else none

/-- The sessions that events lead to, one after the other, each of them allowed where it happens. -/
abbrev Session.Reaches (site : Site) (env : H2Env) (allowed : Session → H2Event → Prop) (start : Session) : Session → Prop :=
  Runs.Reaches (Session.step site env) allowed start

def Session.steps (site : Site) (env : H2Env) (s : Session) : List H2Event → Option Session
  | [] => some s
  | event :: rest => (s.step site env event).bind fun after => after.steps site env rest

end Evhtp
