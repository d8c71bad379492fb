import Evhtp.Connection
import Evhtp.Lib.Runs

/-! The event loop around a connection. Bytes arrive while reading is enabled and output is flushed; each
makes a callback of the bufferevent pending, which runs later, as `BEV_OPT_DEFER_CALLBACKS` has it. The
resume event runs after `evhtp_connection_resume` has made it active. -/

namespace Evhtp

/-- Where in the source a connection was freed. -/
inductive Closed where
  | ownership | dataTooLong | parserError | noRequest | lastReply | resumed | hangup
  deriving DecidableEq, Repr

/-- A connection with its parser, the input buffer and the pending callbacks of its bufferevent. -/
structure Connection where
  conn : Conn := {}
  parser : Htparser
  input : Bytes := []
  readPending : Bool := false
  writePending : Bool := false
  closed : Option Closed := none
  deriving DecidableEq, Repr

/-- `htp__connection_new_` and `htp__connection_accept_`, for a structure and a configuration of the parser. -/
def connectionNew (site : Site) (config : Http1config) : Connection where
  conn := { maxBodySize := (site.htp root).maxBodySize }
  parser := htparserInit (htparserNew config) .request

def Connection.close (c : Connection) (reason : Closed) : Connection := { c with closed := some reason }

/-- A hook of the application that runs outside the parser. -/
def Connection.app (env : Env) (hook : AppHook) (c : Connection) : Connection :=
  let called := runApp env hook c.parser.toParser c.conn
  { c with conn := called.2.2, parser := { c.parser with toParser := called.2.1 } }

/-- `htp__hook_error_`, if there is a request. -/
def Connection.errorHook (env : Env) (c : Connection) : Connection :=
  if c.conn.request.isSome then c.app env .error else c

section
variable [Htstring] (site : Site) (env : Env)

/-- The call of the parser in `htp__connection_readcb_`, and the number of bytes it read. -/
def Connection.parse (c : Connection) : Connection × Nat :=
  let result := htparserRun (requestPsets site env) c.parser (c.conn.setStatus resOk) c.input
  ({ c with parser := result.1, conn := result.2.1 }, result.2.2)

/-- What `htp__connection_readcb_` does once the parser has read `nread` of `avail` bytes. -/
def readDone (nread avail : Nat) (c : Connection) : Connection :=
  if c.conn.flags.owner = false then { c with input := c.input.drop nread }.close .ownership
  else if c.conn.status = some resDataTooLong then (c.errorHook env).close .dataTooLong
  else
    let c := { c with input := c.input.drop nread }
    if c.conn.status = some resPause then { c with conn := evhtpRequestPause c.conn }
    else if c.parser.error ≠ .none then (c.errorHook env).close .parserError
    else if nread < avail then { c with conn := evhtpConnectionResume c.conn }
    else c

/-- `htp__connection_readcb_`. -/
def readcb (c : Connection) : Connection :=
  if c.input = [] ∧ c.conn.request.isSome ∧ c.conn.status ≠ some resPause then c
  else if c.conn.flags.paused then c
  else
    let parsed := c.parse site env
    readDone env parsed.2 c.input.length parsed.1

/-- The end of `htp__connection_writecb_` for a request that is answered. -/
def replyDone (c : Connection) (request : Request) : Connection :=
  let max := (site.htp c.conn.htp).maxKeepaliveRequests
  let numRequests := if max > 0 then c.conn.numRequests + 1 else c.conn.numRequests
  let keepalive := request.flags.keepalive && !(decide (max > 0 ∧ numRequests ≥ max))
  if keepalive then
    let freed := requestFree env c.parser.toParser { c.conn with numRequests }
    let htp := if freed.2.sni.isSome then freed.2.htp else ((site.htp freed.2.htp).parent).getD freed.2.htp
    { c with
      conn := { freed.2 with flags := { freed.2.flags with keepalive := true }, bodyBytesRead := 0, htp }
      parser := htparserInit { c.parser with toParser := freed.1 } .request }
  else
    let eof := htparserRunEof (requestPsets site env) c.parser { c.conn with numRequests }
    { c with parser := eof.1, conn := eof.2 }.close .lastReply

/-- The last part of `htp__connection_writecb_`. -/
def writeDone (c : Connection) : Connection :=
  match c.conn.request with
  | none => c
  | some request =>
    if request.flags.finished = false ∨ c.conn.output ≠ [] then c else replyDone site env c request

/-- `EVHTP_CONN_FLAG_WAITING` off, reading on. -/
def Connection.stopWaiting (c : Connection) : Connection :=
  { c with conn := { c.conn with flags := { c.conn.flags with waiting := false }, reading := true } }

/-- `htp__connection_writecb_`. -/
def writecb (c : Connection) : Connection :=
  if c.conn.request.isNone then c.close .noRequest
  else if c.conn.flags.paused then c
  else
    let c := c.app env .write
    if c.conn.flags.waiting then
      let c := c.stopWaiting
      if c.input ≠ [] then readcb site env c else writeDone site env c
    else writeDone site env c

/-- The first part of `htp__connection_resumecb_`: a request that was paused by its body hook gets what
is in the scratch buffer. -/
def Connection.unpause (c : Connection) : Connection :=
  let conn := { c.conn with flags := { c.conn.flags with paused := false } }
  { c with conn := (conn.setStatus resOk).takeScratch }

/-- `htp__connection_resumecb_`. -/
def resumecb (c : Connection) : Connection :=
  let c := c.unpause
  if c.conn.flags.freeConn then c.close .resumed
  else if c.conn.output ≠ [] then
    { c with conn := { c.conn with flags := { c.conn.flags with waiting := true } } }
  else
    let c := { c with conn := { c.conn with reading := true } }
    if c.parser.flags.paused then
      readcb site env { c with
        parser := { c.parser with toParser := c.parser.toParser.resume }
        conn := c.conn.setStatus resPause }
    else if c.input ≠ [] then readcb site env c
    else c

/-- `htp__connection_eventcb_`, when the peer has closed the connection (`eof`) or another error occurred. -/
def eventcb (eof : Bool) (c : Connection) : Connection :=
  let ended := if eof then htparserRunEof (requestPsets site env) c.parser c.conn else (c.parser, c.conn)
  let conn := { ended.2 with flags := { ended.2.flags with error := true } }
  let c := ({ c with parser := ended.1, conn } : Connection).errorHook env
  if c.conn.flags.paused then { c with conn := { c.conn with flags := { c.conn.flags with freeConn := true } } }
  else c.close .hangup

/-- What can happen to a connection: the network, the callbacks, and calls of the application. -/
inductive Event where
  | arrive (data : Bytes)
  | flush (count : Nat)
  | readcb
  | writecb
  | resumecb
  | eventcb (eof : Bool)
  | act (actions : List Action)
  deriving DecidableEq, Repr

/-- Output reaches the socket; the write callback is due once all of it has. -/
def Connection.flush (count : Nat) (c : Connection) : Connection :=
  let output := c.conn.output.drop count
  { c with conn := { c.conn with output }, writePending := c.writePending || output == [] }

/-- Calls of the application outside its hooks. A connection it has taken over is left alone. -/
def Connection.act (actions : List Action) (c : Connection) : Connection :=
  let after := runActions actions c.parser.toParser c.conn
  let c := { c with conn := after.2, parser := { c.parser with toParser := after.1 } }
  if c.conn.flags.owner then c else c.close .ownership

def step (c : Connection) (event : Event) : Option Connection :=
  if c.closed.isSome then none
  else
    match event with
    | .arrive data =>
      if c.conn.reading ∧ data ≠ [] then some { c with input := c.input ++ data, readPending := true } else none
    | .flush count => if c.conn.output ≠ [] ∧ count ≠ 0 then some (c.flush count) else none
    | .readcb => if c.readPending then some (readcb site env { c with readPending := false }) else none
    | .writecb => if c.writePending then some (writecb site env { c with writePending := false }) else none
    | .resumecb =>
      if c.conn.resumeActive then
        some (resumecb site env { c with conn := { c.conn with resumeActive := false } })
      else none
    | .eventcb eof => some (eventcb site env eof c)
    | .act actions => some (c.act actions)

/-- The connections that events lead to, one after the other, each of them allowed where it happens. -/
abbrev Reaches (allowed : Connection → Event → Prop) (start : Connection) : Connection → Prop :=
  Runs.Reaches (step site env) allowed start

end

end Evhtp
