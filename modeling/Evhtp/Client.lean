import Evhtp.Events

/-! The client: requests as `evhtp_make_request` writes them to a connection, and the responses as the hooks of
its parser and its read callback take them in. -/

namespace Evhtp

/-- `htparser_get_methodstr_m`, over the table `method_strmap`. -/
def htparserGetMethodstrM : HtpMethod → Bytes
  | .UNKNOWN => ascii "UNKNOWN"
  | .GET => ascii "GET"
  | .HEAD => ascii "HEAD"
  | .POST => ascii "POST"
  | .PUT => ascii "PUT"
  | .DELETE => ascii "DELETE"
  | .MKCOL => ascii "MKCOL"
  | .COPY => ascii "COPY"
  | .MOVE => ascii "MOVE"
  | .OPTIONS => ascii "OPTIONS"
  | .PROPFIND => ascii "PROPFIND"
  | .PROPPATCH => ascii "PROPATCH"
  | .LOCK => ascii "LOCK"
  | .UNLOCK => ascii "UNLOCK"
  | .TRACE => ascii "TRACE"
  | .CONNECT => ascii "CONNECT"
  | .PATCH => ascii "PATCH"

def protoText : EvhtpProto → Bytes
  | .proto10 => ascii "1.0"
  | .proto11 | .invalid | .proto20 => ascii "1.1"

/-- The headers of a request: one with a body has a length. -/
def addRequestLength (request : Request) : Request :=
  if request.bufferOut ≠ [] ∧ evhtpKvFind request.headersOut (ascii "content-length") = none then
    request.addHeader (ascii "Content-Length") (evhtpModpSizetoa request.bufferOut.length)
  else request

/-- `evhtp_make_request` on a connection that does not speak HTTP/2: the request after it, and what is written. -/
def evhtpMakeRequest (request : Request) (meth : HtpMethod) (uri : Bytes) : Request × Bytes :=
  let request := addRequestLength { request with method := meth }
  ({ request with bufferOut := [] },
    htparserGetMethodstrM meth ++ ascii " " ++ cString uri ++ ascii " HTTP/" ++ protoText request.proto ++ crlf ++
      request.headersOut.flatMap createHeader ++ crlf ++ request.bufferOut)

/-- The part of a client's connection that the hooks of its parser work on. A client belongs to no `evhtp_t`:
where a hook reads one, the process ends. -/
structure ClientConn where
  conn : Conn
  crashed : Bool := false
  deriving DecidableEq, Repr

/-- What a complete head says about the request it answers. -/
def Request.responseRead (request : Request) (p : Parser) : Request :=
  if request.method = .HEAD then
    { request with
      flags := { request.flags with
        keepalive := request.flags.keepalive || p.shouldKeepAlive
        endStream := true }
      proto := htpProtocol p.major p.minor }
  else request.headRead p

/-- `htp__request_parse_headers_` of a client. -/
def parseResponseHeaders (env : Env) (p : Parser) (conn : Conn) : HookReply × Conn :=
  withRequest p conn fun request =>
    let called := runApp env .headers p (conn.setRequest (request.responseRead p))
    let reply := { hookReply 0 called.2.1 with skipBody := request.method = .HEAD }
    let conn := called.2.2.setStatus called.1
    if called.1 = resPause then ({ reply with pause := true }, conn)
    else if called.1 ≠ resOk then ({ reply with rc := -1 }, conn)
    else (reply, conn)

/-- A hook that does the same for clients and servers. -/
def ClientConn.shared (c : ClientConn) (called : HookReply × Conn) : HookReply × ClientConn :=
  (called.1, { c with conn := called.2 })

/-- `request_psets` on a client. The request was made before the response begins, and a response has no target.
`htp__request_parse_hostname_` looks for virtual hosts of the `evhtp_t` that is not there, and the run is cut off. -/
def responsePsets (env : Env) : Hooks ClientConn where
  present name := name != .method && name != .scheme && name != .uri
  call event p c :=
    match event.name with
    | .onMsgBegin => (hookReply 0 p, c)
    | .onHdrsBegin => c.shared (parseHeadersStart env p c.conn)
    | .hdrKey => c.shared (parseHeaderKey event.data p c.conn)
    | .hdrVal => c.shared (parseHeaderVal env event.data p c.conn)
    | .hostname => (hookReply (-1) p, { c with crashed := true })
    | .onHdrsComplete => c.shared (parseResponseHeaders env p c.conn)
    | .onNewChunk => c.shared (parseChunkHook env (.newChunk p.origContentLen) p c.conn)
    | .onChunkComplete => c.shared (parseChunkHook env .chunkFini p c.conn)
    | .onChunksComplete => c.shared (parseChunkHook env .chunksFini p c.conn)
    | .body => c.shared (parseBodyHook env event.data p c.conn)
    | .onMsgComplete => c.shared (parseFini env p c.conn)
    | .host | .port | .path | .args | .method | .scheme | .uri => ({}, c)

/-- A client's connection, with its parser and the input buffer. -/
structure Client where
  connection : Connection
  crashed : Bool := false
  deriving DecidableEq, Repr

/-- `evhtp_connection_new`, once the request was made. -/
def clientNew (config : Http1config) (request : Request) : Client where
  connection := { conn := { request := some request }, parser := htparserInit (htparserNew config) .response }

/-- What `htp__connection_readcb_` does once the parser has read `nread` of `avail` bytes. -/
def Client.readDone (env : Env) (nread avail : Nat) (c : Client) : Client :=
  if c.crashed then c else { c with connection := Evhtp.readDone env nread avail c.connection }

section
variable [Htstring] (env : Env)

/-- The call of the parser in `htp__connection_readcb_`, and the number of bytes it read. -/
def Client.parse (c : Client) : Client × Nat :=
  let result := htparserRun (responsePsets env) c.connection.parser
    ⟨c.connection.conn.setStatus resOk, c.crashed⟩ c.connection.input
  (⟨{ c.connection with parser := result.1, conn := result.2.1.conn }, result.2.1.crashed⟩, result.2.2)

def Client.readcb (c : Client) : Client :=
  if c.connection.input = [] ∧ c.connection.conn.request.isSome ∧ c.connection.conn.status ≠ some resPause then c
  else if c.connection.conn.flags.paused then c
  else
    let parsed := c.parse env
    parsed.1.readDone env parsed.2 c.connection.input.length

def Client.receive (c : Client) (data : Bytes) : Client :=
  if data = [] ∨ c.crashed ∨ c.connection.closed.isSome ∨ c.connection.conn.reading = false then c
  else Client.readcb env { c with connection := { c.connection with input := c.connection.input ++ data } }

def Client.receiveAll (c : Client) (pieces : List Bytes) : Client := pieces.foldl (Client.receive env) c

end

end Evhtp
