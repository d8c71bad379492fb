import Evhtp.Routing
import Evhtp.Reply

/-! HTTP/1.x server connections: the parser's hooks, the callbacks of the bufferevent and of the resume
event, and the calls of the application. libevent, the peer and the application decide what happens next;
what the application does in its hooks is an oracle that is asked anew at each call. -/

namespace Evhtp

/-- What an application may call on a request, from a hook or at any other time. -/
inductive Action where
  | addHeader (key val : Bytes)
  | addBuffer (data : Bytes)
  | sendReply (code : Nat)
  | sendReplyStart (code : Nat)
  | sendReplyBody (data : Bytes)
  | sendReplyEnd
  | sendReplyChunkStart (code : Nat)
  | sendReplyChunk (data : Bytes)
  | sendReplyChunkEnd
  | pause
  | resume
  | drain (count : Nat)
  | takeOwnership
  deriving DecidableEq, Repr

/-- The hooks of an application, and its request callbacks. -/
inductive AppHook where
  | headersStart
  | header (key val : Bytes)
  | hostname (name : Bytes)
  | path (path : Bytes)
  | headers
  | read (buf : Bytes)
  | newChunk (length : Nat)
  | chunkFini
  | chunksFini
  | requestFini
  | write
  | error
  | callback (cb cbarg : Nat)
  deriving DecidableEq, Repr

/-- What a hook calls, and its result; a hook that is not set does nothing. -/
structure AppReply where
  actions : List Action := []
  res : Nat := resOk
  deriving DecidableEq, Repr

/-- The application at each of its calls, and the request that lies in the cache whenever one is needed. -/
structure Env where
  app : Nat → AppHook → AppReply
  cached : Nat → Option Request

/-- The `EVHTP_CONN_FLAG_` bits of an HTTP/1.x server connection. -/
structure ConnFlags where
  error : Bool := false
  owner : Bool := true
  paused : Bool := false
  waiting : Bool := false
  freeConn : Bool := false
  keepalive : Bool := false
  deriving DecidableEq, Repr

/-- A piece of a body as it arrived: the bytes of the same body that were taken before it, its length, and
whether it was refused. -/
structure BodyPiece where
  received : Nat
  length : Nat
  refused : Bool
  deriving DecidableEq, Repr

/-- The part of a connection that the parser's hooks work on, with the output buffer and the events of
the bufferevent. `sni` is the name a virtual host was found by in the TLS handshake. The last three fields
are not part of the source: how often the environment was asked, the requests as they were when their
callback was called, and the pieces of bodies that arrived. -/
structure Conn where
  htp : Nat := root
  sni : Option Bytes := none
  request : Option Request := none
  flags : ConnFlags := {}
  maxBodySize : Nat := 0
  bodyBytesRead : Nat := 0
  numRequests : Nat := 0
  scratch : Bytes := []
  output : Bytes := []
  reading : Bool := true
  resumeActive : Bool := false
  clock : Nat := 0
  dispatched : List Request := []
  bodies : List BodyPiece := []
  deriving DecidableEq, Repr

/-- `cr_status = …`. -/
def Conn.setStatus (conn : Conn) (status : Nat) : Conn :=
  { conn with request := conn.request.map (·.setStatus status) }

def Conn.status (conn : Conn) : Option Nat := conn.request.map Request.status

def evhtpConnectionPause (conn : Conn) : Conn :=
  if conn.flags.paused then conn else { conn with flags := { conn.flags with paused := true }, reading := false }

def evhtpConnectionResume (conn : Conn) : Conn :=
  if conn.flags.paused then { conn with flags := { conn.flags with paused := false }, resumeActive := true } else conn

def evhtpRequestPause (conn : Conn) : Conn := evhtpConnectionPause (conn.setStatus resPause)

/-- A reply function wrote to the output. It made the head of the reply in the scratch buffer. -/
def Conn.replied (conn : Conn) (reply : (Request × Parser) × Bytes) : Parser × Conn :=
  (reply.1.2, { conn with request := some reply.1.1, output := conn.output ++ reply.2, scratch := [] })

/-- One call of the application on the request of the connection. -/
def Action.run (action : Action) (p : Parser) (conn : Conn) (request : Request) : Parser × Conn :=
  match action with
  | .addHeader key val => (p, { conn with request := some (request.addHeader key val) })
  | .addBuffer data => (p, { conn with request := some { request with bufferOut := request.bufferOut ++ data } })
  | .sendReply code => conn.replied (evhtpSendReply request p code)
  | .sendReplyStart code => conn.replied (evhtpSendReplyStart request p code)
  | .sendReplyBody data => (p, { conn with output := conn.output ++ data })
  | .sendReplyEnd => (p, { conn with request := some (evhtpSendReplyEnd request) })
  | .sendReplyChunkStart code => conn.replied (evhtpSendReplyChunkStart request p code)
  | .sendReplyChunk data => (p, { conn with output := conn.output ++ evhtpSendReplyChunk request data })
  | .sendReplyChunkEnd =>
    let ended := evhtpSendReplyChunkEnd request
    (p, { conn with request := some ended.1, output := conn.output ++ ended.2 })
  | .pause => (p, evhtpRequestPause conn)
  | .resume => (p, evhtpConnectionResume conn)
  | .drain count => (p, { conn with scratch := conn.scratch.drop count })
  | .takeOwnership => (p, { conn with flags := { conn.flags with owner := false }, reading := false })

/-- The calls of an application; without a request there is nothing to call them on. -/
def runActions : List Action → Parser → Conn → Parser × Conn
  | [], p, conn => (p, conn)
  | action :: actions, p, conn =>
    match conn.request with
    | none => (p, conn)
    | some request =>
      let after := action.run p conn request
      runActions actions after.1 after.2

def runApp (env : Env) (hook : AppHook) (p : Parser) (conn : Conn) : Nat × Parser × Conn :=
  let reply := env.app conn.clock hook
  (reply.res, runActions reply.actions p { conn with clock := conn.clock + 1 })

/-- What a hook of the connection tells the parser that called it. -/
def hookReply (rc : Int) (p : Parser) : HookReply := { rc, version := some (p.major, p.minor) }

/-- The result of a hook becomes the status of the request; other results than success are failures. -/
def appStatus (env : Env) (hook : AppHook) (p : Parser) (conn : Conn) : HookReply × Conn :=
  let called := runApp env hook p conn
  (hookReply (if called.1 = resOk then 0 else -1) called.2.1, called.2.2.setStatus called.1)

def uriClear (_ : Uri) : Uri := {}

/-- `htp__request_clear_`: the argument of the callback stays, and so does a table of hooks, without hooks. -/
def requestClear (request : Request) : Request :=
  { uri := request.uri.map uriClear
    hooks := request.hooks.map fun _ => 0
    proto := .proto11
    htp := request.htp
    cbarg := request.cbarg }

def requestFree (env : Env) (p : Parser) (conn : Conn) : Parser × Conn :=
  let called := runApp env .requestFini p conn
  (called.2.1, { called.2.2 with request := none })

/-- `htp__request_new__`: a cached request, or one from `calloc`. -/
def requestNew (env : Env) (conn : Conn) : Conn :=
  let request := match env.cached conn.clock with
    | some request => requestClear request
    | none => {}
  { conn with
    request := some { request with htp := conn.htp, status := resOk, began := conn.htp }
    clock := conn.clock + 1 }

def parseStart (env : Env) (p : Parser) (conn : Conn) : HookReply × Conn :=
  if conn.flags.paused then (hookReply (-1) p, conn)
  else
    match conn.request with
    | none => (hookReply 0 p, requestNew env conn)
    | some request =>
      if request.flags.finished then
        let freed := requestFree env p conn
        (hookReply 0 freed.1, requestNew env freed.2)
      else (hookReply (-1) p, conn)

/-- A hook of a message; between the first and the last one there is a request. -/
def withRequest (p : Parser) (conn : Conn) (body : Request → HookReply × Conn) : HookReply × Conn :=
  match conn.request with
  | none => (hookReply (-1) p, conn)
  | some request => body request

def Conn.setRequest (conn : Conn) (request : Request) : Conn := { conn with request := some request }

def parseHost (data : Bytes) (p : Parser) (conn : Conn) : HookReply × Conn :=
  withRequest p conn fun request =>
    (hookReply 0 p, conn.setRequest (request.setUri { request.requireUri with hostname := some data }))

/-- `strtoul` on all of a text: an optional sign and digits. -/
def strtoul (data : Bytes) : Option Nat :=
  let digits := match data with
    | 43 :: rest | 45 :: rest => rest
    | _ => data
  if data = [] then some 0
  else if digits ≠ [] ∧ digits.all isDigit then
    let value := min (Numeral.value 10 digitVal 0 digits) (2 ^ 64 - 1)
    some (if data.head? = some 45 then (2 ^ 64 - value) % 2 ^ 64 else value)
  else none

def parsePort (data : Bytes) (p : Parser) (conn : Conn) : HookReply × Conn :=
  withRequest p conn fun request =>
    let conn := conn.setRequest (request.setUri request.requireUri)
    match strtoul data with
    | none => (hookReply (-1) p, conn.setStatus resFatal)
    | some port =>
      if port > 65535 then (hookReply (-1) p, conn.setStatus resFatal)
      else (hookReply 0 p, conn.setRequest (request.setUri { request.requireUri with port }))

def parsePath (site : Site) (env : Env) (data : Bytes) (p : Parser) (conn : Conn) : HookReply × Conn :=
  withRequest p conn fun request =>
    let request := { request.setUri { request.requireUri with path := some (pathNew data), scheme := p.scheme } with
      method := p.method }
    appStatus env (.path data) p (conn.setRequest (setCallbacks site request))

def parseArgs (site : Site) (data : Bytes) (p : Parser) (conn : Conn) : HookReply × Conn :=
  withRequest p conn fun request =>
    match uriSetQuery request.requireUri data (site.htp conn.htp).parserFlags with
    | none => (hookReply (-1) p, conn.setStatus resError)
    | some uri => (hookReply 0 p, conn.setRequest (request.setUri uri))

def parseHeadersStart (env : Env) (p : Parser) (conn : Conn) : HookReply × Conn :=
  withRequest p conn fun _ => appStatus env .headersStart p conn

def parseHeaderKey (data : Bytes) (p : Parser) (conn : Conn) : HookReply × Conn :=
  withRequest p conn fun request =>
    (hookReply 0 p, conn.setRequest { request with headersIn := request.headersIn ++ [⟨cString data, none⟩] })

/-- `evhtp_header_val_add`: the value of the last header, which must not have one. -/
def headerValAdd (headers : List NullKv) (val : Bytes) : Option (List NullKv) :=
  match headers.getLast? with
  | some ⟨key, none⟩ => some (headers.dropLast ++ [⟨key, some (cString val)⟩])
  | _ => none

def parseHeaderVal (env : Env) (data : Bytes) (p : Parser) (conn : Conn) : HookReply × Conn :=
  withRequest p conn fun request =>
    match headerValAdd request.headersIn data with
    | none => (hookReply (-1) p, conn.setStatus resFatal)
    | some headersIn =>
      let key := (headersIn.getLast?.map NullKv.key).getD []
      appStatus env (.header key (cString data)) p (conn.setRequest { request with headersIn })

def parseHostname (site : Site) (env : Env) (data : Bytes) (p : Parser) (conn : Conn) : HookReply × Conn :=
  withRequest p conn fun request =>
    match conn.sni with
    | some name => appStatus env (.hostname name) p conn
    | none =>
      let request := { request with host := some data }
      match findVhost site conn.htp data with
      | some vhost =>
        appStatus env (.hostname data) p { conn with
          htp := vhost
          request := some (setCallbacks site { request with htp := vhost }) }
      | none => appStatus env (.hostname data) p (conn.setRequest request)

/-- What a complete head says about the request. -/
def Request.headRead (request : Request) (p : Parser) : Request :=
  { request with
    flags := { request.flags with
      keepalive := request.flags.keepalive || p.shouldKeepAlive
      endStream := request.flags.endStream ||
        (!p.flags.chunked && !p.hasContentLength && decide (p.body ≠ .identity)) }
    proto := htpProtocol p.major p.minor }

def continueBytes (p : Parser) : Bytes :=
  ascii "HTTP/" ++ [digitChar p.major] ++ ascii "." ++ [digitChar p.minor] ++ ascii " 100 Continue\r\n\r\n"

/-- The interim reply to a request that expects one. -/
def sendContinue (site : Site) (p : Parser) (conn : Conn) : Conn :=
  match conn.request with
  | none => conn
  | some request =>
    if (site.htp conn.htp).enable100Cont ∧ (evhtpHeaderFind request.headersIn (ascii "Expect")).isSome then
      { conn with output := conn.output ++ continueBytes p }
    else conn

def parseHeaders (site : Site) (env : Env) (p : Parser) (conn : Conn) : HookReply × Conn :=
  withRequest p conn fun request =>
    let called := runApp env .headers p (conn.setRequest (request.headRead p))
    let conn := called.2.2.setStatus called.1
    if called.1 = resPause then
      ({ hookReply 0 called.2.1 with pause := true }, sendContinue site called.2.1 conn)
    else if called.1 ≠ resOk then (hookReply (-1) called.2.1, conn)
    else (hookReply 0 called.2.1, sendContinue site called.2.1 conn)

/-- What the body hook left in the scratch buffer goes to the request. -/
def Conn.takeScratch (conn : Conn) : Conn :=
  match conn.request with
  | none => conn
  | some request =>
    { conn with request := some { request with bufferIn := request.bufferIn ++ conn.scratch }, scratch := [] }

def Request.piece (request : Request) (length : Nat) (refused : Bool) : BodyPiece := ⟨request.received, length, refused⟩

def Request.receive (request : Request) (length : Nat) : Request := { request with received := request.received + length }

/-- `htp__request_parse_body_`. -/
def parseBodyHook (env : Env) (data : Bytes) (p : Parser) (conn : Conn) : HookReply × Conn :=
  withRequest p conn fun request =>
    if conn.maxBodySize > 0 ∧ conn.bodyBytesRead + data.length ≥ conn.maxBodySize then
      let conn := { conn with bodies := conn.bodies ++ [request.piece data.length true] }
      (hookReply (-1) p, { conn with flags := { conn.flags with error := true } }.setStatus resDataTooLong)
    else
      let conn := { conn.setRequest (request.receive data.length) with
        bodies := conn.bodies ++ [request.piece data.length false] }
      let scratch := conn.scratch ++ data
      let called := runApp env (.read scratch) p { conn with scratch }
      let conn := called.2.2.setStatus called.1
      let count := fun (conn : Conn) => { conn with bodyBytesRead := conn.bodyBytesRead + data.length }
      if called.1 = resPause then ({ hookReply 0 called.2.1 with pause := true }, count conn)
      else if called.1 ≠ resOk then (hookReply (-1) called.2.1, count conn)
      else (hookReply 0 called.2.1, count conn.takeScratch)

/-- The hooks of a chunked body: `htp__request_parse_chunk_new_` and the two that follow it. -/
def parseChunkHook (env : Env) (hook : AppHook) (p : Parser) (conn : Conn) : HookReply × Conn :=
  withRequest p conn fun _ => appStatus env hook p conn

def dispatch (env : Env) (p : Parser) (conn : Conn) (request : Request) : Parser × Conn :=
  match request.cb with
  | none => (p, conn)
  | some cb =>
    (runApp env (.callback cb request.cbarg) p { conn with dispatched := conn.dispatched ++ [request] }).2

def parseFini (env : Env) (p : Parser) (conn : Conn) : HookReply × Conn :=
  if conn.flags.paused then (hookReply (-1) p, conn)
  else
    match conn.request with
    | none => (hookReply 0 p, conn)
    | some request =>
      let request := if shouldParseQueryBody request p then queryFromBody request else request
      let after := dispatch env p (conn.setRequest request) request
      (hookReply (if after.2.flags.paused then -1 else 0) after.1, after.2)

/-- `request_psets`: the hooks for the method, the scheme and the whole target are not set. -/
def requestPsets (site : Site) (env : Env) : Hooks Conn where
  present name := name != .method && name != .scheme && name != .uri
  call event p conn :=
    match event.name with
    | .onMsgBegin => parseStart env p conn
    | .host => parseHost event.data p conn
    | .port => parsePort event.data p conn
    | .path => parsePath site env event.data p conn
    | .args => parseArgs site event.data p conn
    | .onHdrsBegin => parseHeadersStart env p conn
    | .hdrKey => parseHeaderKey event.data p conn
    | .hdrVal => parseHeaderVal env event.data p conn
    | .hostname => parseHostname site env event.data p conn
    | .onHdrsComplete => parseHeaders site env p conn
    | .onNewChunk => parseChunkHook env (.newChunk p.origContentLen) p conn
    | .onChunkComplete => parseChunkHook env .chunkFini p conn
    | .onChunksComplete => parseChunkHook env .chunksFini p conn
    | .body => parseBodyHook env event.data p conn
    | .onMsgComplete => parseFini env p conn
    | .method | .scheme | .uri => ({}, conn)

end Evhtp
