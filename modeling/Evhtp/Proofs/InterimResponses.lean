import Evhtp.Client
import Evhtp.Proofs.Actions
import Evhtp.Proofs.Arrivals

/-! Interim responses on a client's connection. The parser reports each of them complete, as it does every message, and
the one request of the connection is called back for each; so the callback is the response's only where no interim
response comes before the final one. -/

namespace Evhtp

def Action.replies : Action → Bool
  | .sendReply _ | .sendReplyStart _ | .sendReplyBody _ | .sendReplyEnd | .sendReplyChunkStart _ | .sendReplyChunk _
  | .sendReplyChunkEnd => true
  | _ => false

def Action.passive : Action → Bool
  | .pause | .takeOwnership => false
  | action => !action.replies

/-- The application of a client. It sends no replies; its hooks accept the response and do not stop its reading, and
the callback may do what it likes. -/
structure ClientApp (env : Env) : Prop where
  hooks : ∀ clock hook, (∀ cb cbarg, hook ≠ .callback cb cbarg) →
    (env.app clock hook).res = resOk ∧ ∀ action ∈ (env.app clock hook).actions, action.passive = true
  callback : ∀ clock cb cbarg, ∀ action ∈ (env.app clock (.callback cb cbarg)).actions, action.replies = false

def Field.nullKv (field : Field) : NullKv := ⟨cString field.name, some (cString field.value)⟩

/-- A connection that reads the response to its request, of which `headers` are in `headers_in`. -/
structure Awaits (meth : HtpMethod) (headers : List NullKv) (conn : Conn) : Prop where
  request : ∃ request, conn.request = some request ∧ request.headersIn = headers ∧ request.method = meth ∧
    request.cb.isSome = true ∧ request.status = resOk
  paused : conn.flags.paused = false
  owner : conn.flags.owner = true
  reading : conn.reading = true
  unlimited : conn.maxBodySize = 0
  undispatched : conn.dispatched = []

section
variable {conn : Conn} {request : Request} {p : Parser}

theorem Action.run_passive {action : Action} (p : Parser) (request : Request) (passive : action.passive = true)
    (running : conn.flags.paused = false) :
    (action.run p conn request).1 = p ∧ (action.run p conn request).2.flags = conn.flags ∧
      (action.run p conn request).2.reading = conn.reading := by
  cases action with
  | addHeader | addBuffer | drain => exact ⟨rfl, rfl, rfl⟩
  | resume =>
    have same : evhtpConnectionResume conn = conn := if_neg (by simp [running])
    simp only [Action.run, same, and_self]
  | _ => cases passive

theorem runActions_passive {actions : List Action} (p : Parser) (conn : Conn)
    (passive : ∀ action ∈ actions, action.passive = true) (running : conn.flags.paused = false) : (runActions actions p conn).1 = p ∧
      (runActions actions p conn).2.flags = conn.flags ∧ (runActions actions p conn).2.reading = conn.reading := by
  induction actions generalizing p conn with
  | nil => exact ⟨rfl, rfl, rfl⟩
  | cons action actions ih =>
    rw [runActions]
    split
    · exact ⟨rfl, rfl, rfl⟩
    · next request here =>
      obtain ⟨parser, flags, reading⟩ := Action.run_passive p request (passive action (by simp)) running
      obtain ⟨parser', flags', reading'⟩ := ih (action.run p conn request).1 (action.run p conn request).2
        (fun other member => passive other (by simp [member])) (flags ▸ running)
      exact ⟨parser'.trans parser, flags'.trans flags, reading'.trans reading⟩

theorem Action.run_status {action : Action} (p : Parser) (silent : action.replies = false)
    (here : conn.request = some request) (status : conn.status = some resOk ∨ conn.status = some resPause) :
    (action.run p conn request).2.status = some resOk ∨ (action.run p conn request).2.status = some resPause := by
  have same : ∀ after : Conn, after.request.map Request.status = conn.request.map Request.status →
      after.status = some resOk ∨ after.status = some resPause := by
    intro after same
    rwa [Conn.status, same]
  cases action with
  | addHeader | addBuffer => exact same _ (by rw [here]; rfl)
  | drain | takeOwnership => exact same _ rfl
  | resume =>
    refine same _ ?_
    rw [Action.run, evhtpConnectionResume]
    split <;> rfl
  | pause =>
    right
    rw [Action.run, evhtpRequestPause, evhtpConnectionPause]
    split <;> simp [Conn.status, Conn.setStatus, here, Request.setStatus]
  | _ => cases silent

theorem runActions_status {actions : List Action} (p : Parser) (conn : Conn)
    (silent : ∀ action ∈ actions, action.replies = false) (status : conn.status = some resOk ∨ conn.status = some resPause) :
    (runActions actions p conn).2.status = some resOk ∨ (runActions actions p conn).2.status = some resPause := by
  induction actions generalizing p conn with
  | nil => exact status
  | cons action actions ih =>
    rw [runActions]
    split
    · exact status
    · next request here =>
      exact ih _ _ (fun other member => silent other (by simp [member]))
        (Action.run_status p (silent action (by simp)) here status)

variable {meth : HtpMethod} {headers : List NullKv}

theorem Awaits.follows {after : Conn} (awaits : Awaits meth headers conn) (follows : conn.Follows after)
    (flags : after.flags = conn.flags) (reading : after.reading = conn.reading) :
    Awaits meth headers (after.setStatus resOk) := by
  obtain ⟨request, here, headersIn, method, cb, -⟩ := awaits.request
  obtain ⟨request', there, same⟩ := follows.request request here
  refine ⟨⟨request'.setStatus resOk, ?_, same.headersIn.trans headersIn, same.method.trans method, ?_, rfl⟩, ?_, ?_,
    reading.trans awaits.reading, follows.maxBodySize.trans awaits.unlimited,
    follows.dispatched.trans awaits.undispatched⟩
  · rw [Conn.setStatus, there]
    rfl
  · exact (congrArg Option.isSome same.cb).trans cb
  · exact (congrArg ConnFlags.paused flags).trans awaits.paused
  · exact (congrArg ConnFlags.owner flags).trans awaits.owner

theorem Awaits.setStatus_same (awaits : Awaits meth headers conn) :
    conn.setStatus resOk = conn := by
  obtain ⟨request, here, -, -, -, status⟩ := awaits.request
  rw [Conn.setStatus, here]
  cases conn
  cases request
  simp_all [Request.setStatus]

theorem Awaits.setRequest (awaits : Awaits meth headers conn) (here : conn.request = some request) {request' : Request}
    {headers' : List NullKv} (headersIn : request'.headersIn = headers')
    (same : request'.method = request.method ∧ request'.cb = request.cb ∧ request'.status = request.status) :
    Awaits meth headers' (conn.setRequest request') := by
  obtain ⟨found, there, -, method, cb, status⟩ := awaits.request
  cases here.symm.trans there
  exact ⟨⟨request', rfl, headersIn, same.1.trans method, by rw [same.2.1, cb], same.2.2.trans status⟩,
    awaits.paused, awaits.owner, awaits.reading, awaits.unlimited, awaits.undispatched⟩

variable {env : Env} (app : ClientApp env)
include app

theorem Awaits.called (awaits : Awaits meth headers conn) (p : Parser) (hook : AppHook)
    (other : ∀ cb cbarg, hook ≠ .callback cb cbarg) :
    ∃ after, runApp env hook p conn = (resOk, p, after) ∧ Awaits meth headers (after.setStatus resOk) := by
  obtain ⟨ok, passive⟩ := app.hooks conn.clock hook other
  obtain ⟨parser, flags, reading⟩ := runActions_passive p { conn with clock := conn.clock + 1 } passive awaits.paused
  have follows := (runApp_follows env hook p conn).1
  refine ⟨(runApp env hook p conn).2.2, ?_, awaits.follows follows flags reading⟩
  exact Prod.ext ok (Prod.ext parser rfl)

theorem Awaits.appStatus (awaits : Awaits meth headers conn) (p : Parser) (hook : AppHook)
    (other : ∀ cb cbarg, hook ≠ .callback cb cbarg) :
    ∃ after, Evhtp.appStatus env hook p conn = (hookReply 0 p, after) ∧ Awaits meth headers after := by
  obtain ⟨after, called, awaits⟩ := awaits.called app p hook other
  refine ⟨after.setStatus resOk, ?_, awaits⟩
  rw [Evhtp.appStatus, called]
  rfl

end

def ClientSeen (meth : HtpMethod) (fields : List Field) (c : ClientConn) : Prop :=
  c.crashed = false ∧ Awaits meth (fields.map Field.nullKv) c.conn

def ClientNamed (meth : HtpMethod) (fields : List Field) (field : Field) (c : ClientConn) : Prop :=
  c.crashed = false ∧ Awaits meth (fields.map Field.nullKv ++ [⟨cString field.name, none⟩]) c.conn

def ClientStopped (c : ClientConn) : Prop := c.crashed = true ∧ c.conn.dispatched = []

theorem hook_response {env : Env} {name : HookName} {data : Bytes} {p : Parser} {c after : ClientConn} {reply : HookReply}
    (present : (responsePsets env).present name = true)
    (called : (responsePsets env).call ⟨name, data⟩ p c = (reply, after)) :
    hook (responsePsets env) name data ⟨p, c⟩ = (reply.rc == 0, ⟨p.replied reply, after⟩) := by
  rw [hook, if_pos present, called]

theorem hook_shared {env : Env} {name : HookName} {data : Bytes} {p : Parser} {c : ClientConn} {after : Conn}
    (present : (responsePsets env).present name = true)
    (called : (responsePsets env).call ⟨name, data⟩ p c = c.shared (hookReply 0 p, after)) :
    hook (responsePsets env) name data ⟨p, c⟩ = (true, ⟨p, { c with conn := after }⟩) := by
  rw [hook_response present called, p.replied_hookReply]
  rfl

section
variable {conn : Conn} {p : Parser} {meth : HtpMethod} {headers : List NullKv} {env : Env}

theorem Awaits.parseHeaderKey (awaits : Awaits meth headers conn) (data : Bytes) :
    ∃ after, Evhtp.parseHeaderKey data p conn = (hookReply 0 p, after) ∧
      Awaits meth (headers ++ [⟨cString data, none⟩]) after := by
  obtain ⟨request, here, headersIn, -⟩ := awaits.request
  refine ⟨conn.setRequest { request with headersIn := request.headersIn ++ [⟨cString data, none⟩] }, ?_, ?_⟩
  · rw [Evhtp.parseHeaderKey, withRequest, here]
  · exact awaits.setRequest here (by rw [headersIn]) ⟨rfl, rfl, rfl⟩

variable (app : ClientApp env)
include app

theorem Awaits.parseHeadersStart (awaits : Awaits meth headers conn) :
    ∃ after, Evhtp.parseHeadersStart env p conn = (hookReply 0 p, after) ∧ Awaits meth headers after := by
  obtain ⟨request, here, -⟩ := awaits.request
  obtain ⟨after, called, awaits⟩ := awaits.appStatus app p .headersStart nofun
  exact ⟨after, by rw [Evhtp.parseHeadersStart, withRequest, here]; exact called, awaits⟩

theorem Awaits.parseHeaderVal {key : Bytes} (awaits : Awaits meth (headers ++ [⟨key, none⟩]) conn) (data : Bytes) :
    ∃ after, Evhtp.parseHeaderVal env data p conn = (hookReply 0 p, after) ∧
      Awaits meth (headers ++ [⟨key, some (cString data)⟩]) after := by
  obtain ⟨request, here, headersIn, -⟩ := awaits.request
  have added : headerValAdd request.headersIn data = some (headers ++ [⟨key, some (cString data)⟩]) := by
    simp [headerValAdd, headersIn]
  have valued : Awaits meth (headers ++ [⟨key, some (cString data)⟩])
      (conn.setRequest { request with headersIn := headers ++ [⟨key, some (cString data)⟩] }) :=
    awaits.setRequest here rfl ⟨rfl, rfl, rfl⟩
  obtain ⟨after, called, awaits⟩ := valued.appStatus app p (.header key (cString data)) nofun
  refine ⟨after, ?_, awaits⟩
  rw [Evhtp.parseHeaderVal, withRequest, here]
  dsimp only
  rw [added]
  dsimp only
  rw [List.getLast?_concat]
  exact called

theorem Awaits.parseResponseHeaders (awaits : Awaits meth headers conn) :
    ∃ after, Evhtp.parseResponseHeaders env p conn = ({ hookReply 0 p with skipBody := decide (meth = .HEAD) }, after) ∧
      Awaits meth headers after := by
  obtain ⟨request, here, headersIn, method, -⟩ := awaits.request
  have read : Awaits meth headers (conn.setRequest (request.responseRead p)) := by
    refine awaits.setRequest here ?_ ?_
    · rw [Request.responseRead]
      split <;> exact headersIn
    · rw [Request.responseRead]
      split <;> exact ⟨rfl, rfl, rfl⟩
  obtain ⟨after, called, awaits⟩ := read.called app p .headers nofun
  refine ⟨after.setStatus resOk, ?_, awaits⟩
  rw [Evhtp.parseResponseHeaders, withRequest, here]
  dsimp only
  rw [called, method]
  dsimp only
  rw [if_neg (by decide), if_neg (by simp)]

theorem Awaits.parseBodyHook (awaits : Awaits meth headers conn) (data : Bytes) :
    ∃ after, Evhtp.parseBodyHook env data p conn = (hookReply 0 p, after) ∧ Awaits meth headers after := by
  obtain ⟨request, here, headersIn, -⟩ := awaits.request
  have taken : Awaits meth headers { conn.setRequest (request.receive data.length) with
      bodies := conn.bodies ++ [request.piece data.length false], scratch := conn.scratch ++ data } := by
    have received : Awaits meth headers (conn.setRequest (request.receive data.length)) :=
      awaits.setRequest here headersIn ⟨rfl, rfl, rfl⟩
    exact ⟨received.request, awaits.paused, awaits.owner, awaits.reading, awaits.unlimited, awaits.undispatched⟩
  obtain ⟨after, called, awaits'⟩ := taken.called app p (.read (conn.scratch ++ data)) nofun
  have unlimited : ¬(conn.maxBodySize > 0 ∧ conn.bodyBytesRead + data.length ≥ conn.maxBodySize) := by
    simp [awaits.unlimited]
  refine ⟨{ (after.setStatus resOk).takeScratch with
    bodyBytesRead := (after.setStatus resOk).takeScratch.bodyBytesRead + data.length }, ?_, ?_⟩
  · rw [Evhtp.parseBodyHook, withRequest, here]
    dsimp only
    rw [if_neg unlimited]
    have scratched : ({ conn.setRequest (request.receive data.length) with
        bodies := conn.bodies ++ [request.piece data.length false] } : Conn).scratch = conn.scratch := rfl
    rw [scratched, called]
    dsimp only
    rw [if_neg (by decide), if_neg (by simp)]
  · obtain ⟨request', there, headersIn', method, cb, status⟩ := awaits'.request
    have moved : (after.setStatus resOk).takeScratch = { after.setStatus resOk with
        request := some { request' with bufferIn := request'.bufferIn ++ (after.setStatus resOk).scratch }
        scratch := [] } := by
      rw [Conn.takeScratch, there]
    rw [moved]
    exact ⟨⟨_, rfl, headersIn', method, cb, status⟩, awaits'.paused, awaits'.owner, awaits'.reading,
      awaits'.unlimited, awaits'.undispatched⟩

theorem client_reader (meth : HtpMethod) : Reader (responsePsets env) (decide (meth = .HEAD)) (ClientSeen meth)
    (ClientNamed meth) ClientStopped where
  begins {p c} seen := ⟨c, hook_shared rfl rfl, seen⟩
  headers {p c} seen := by
    obtain ⟨after, called, awaits⟩ := seen.2.parseHeadersStart (p := p) app
    exact ⟨{ c with conn := after }, hook_shared rfl (congrArg c.shared called :), seen.1, awaits⟩
  key {p c fields} field seen := by
    obtain ⟨after, called, awaits⟩ := seen.2.parseHeaderKey (p := p) field.name
    exact ⟨{ c with conn := after }, hook_shared rfl (congrArg c.shared called :), seen.1, awaits⟩
  host {p c fields field} named := by
    refine ⟨{ c with crashed := true }, (hook_response rfl rfl).trans ?_, rfl, named.2.undispatched⟩
    simp [Parser.replied, hookReply]
  value {p c fields field} named := by
    obtain ⟨after, called, awaits⟩ := named.2.parseHeaderVal (p := p) app field.value
    refine ⟨{ c with conn := after }, hook_shared rfl (congrArg c.shared called :), named.1, ?_⟩
    rw [List.map_append]
    exact awaits
  complete {p c fields} seen := by
    obtain ⟨after, called, awaits⟩ := seen.2.parseResponseHeaders (p := p) app
    have shared : (responsePsets env).call ⟨.onHdrsComplete, []⟩ p c =
        c.shared ({ hookReply 0 p with skipBody := decide (meth = .HEAD) }, after) := congrArg c.shared called
    exact ⟨{ c with conn := after }, hook_response rfl shared, seen.1, awaits⟩
  body {p c fields} data seen := by
    obtain ⟨after, called, awaits⟩ := seen.2.parseBodyHook (p := p) app data
    exact ⟨{ c with conn := after }, hook_shared rfl (congrArg c.shared called :), seen.1, awaits⟩

theorem Awaits.parseFini (awaits : Awaits meth headers conn) :
    ∃ request, request.headersIn = headers ∧ (Evhtp.parseFini env p conn).2.dispatched = [request] ∧
      ((Evhtp.parseFini env p conn).2.status = some resOk ∨ (Evhtp.parseFini env p conn).2.status = some resPause) := by
  obtain ⟨request, here, headersIn, -, cb, status⟩ := awaits.request
  obtain ⟨cb, found⟩ := Option.isSome_iff_exists.mp cb
  generalize formed : (if shouldParseQueryBody request p then queryFromBody request else request) = request'
  have kept : request'.headersIn = headers ∧ request'.cb = some cb ∧ request'.status = resOk := by
    rw [← formed, queryFromBody]
    repeat' split
    all_goals exact ⟨headersIn, found, status⟩
  have called : (Evhtp.parseFini env p conn).2 = (runApp env (.callback cb request'.cbarg) p
      { conn.setRequest request' with dispatched := conn.dispatched ++ [request'] }).2.2 := by
    rw [Evhtp.parseFini, if_neg (by simp [awaits.paused]), here]
    dsimp only
    rw [formed, dispatch, kept.2.1]
    rfl
  rw [called]
  refine ⟨request', kept.1, ?_, ?_⟩
  · rw [(runApp_follows env _ p _).1.dispatched]
    simp [awaits.undispatched]
  · refine runActions_status p _ (app.callback _ cb request'.cbarg) ?_
    exact .inl (congrArg some kept.2.2)

end

/-- What the read callback does once the parser waits for more. -/
theorem readDone_waits {env : Env} {c : Connection} {nread avail : Nat} {meth : HtpMethod} {headers : List NullKv}
    (awaits : Awaits meth headers c.conn) (sound : c.parser.error = .none) :
    readDone env nread avail c = { c with input := c.input.drop nread } := by
  obtain ⟨request, here, -, -, -, status⟩ := awaits.request
  have ok : c.conn.status = some resOk := by rw [Conn.status, here]; exact congrArg some status
  have resumed : evhtpConnectionResume c.conn = c.conn := if_neg (by simp [awaits.paused])
  rw [readDone, if_neg (by simp [awaits.owner]), if_neg (by rw [ok]; decide)]
  dsimp only
  rw [if_neg (by rw [ok]; decide), if_neg (by simp [sound]), resumed]
  split <;> rfl

theorem readDone_called (env : Env) {c : Connection} (nread avail : Nat) (short : c.conn.status ≠ some resDataTooLong) :
    (readDone env nread avail c).conn.dispatched = c.conn.dispatched ∧
      (readDone env nread avail c).input = c.input.drop nread := by
  have asked : ∀ c : Connection, (c.errorHook env).conn.dispatched = c.conn.dispatched ∧
      (c.errorHook env).input = c.input := by
    intro c
    rw [Connection.errorHook]
    split
    · exact ⟨(runApp_follows env .error c.parser.toParser c.conn).1.dispatched, rfl⟩
    · exact ⟨rfl, rfl⟩
  rw [readDone, if_neg short]
  dsimp only
  split
  · exact ⟨rfl, rfl⟩
  · split
    · exact ⟨((c.conn.setStatus_follows resPause).trans (evhtpConnectionPause_follows _)).dispatched, rfl⟩
    · split
      · exact asked _
      · split
        · exact ⟨(evhtpConnectionResume_follows c.conn).dispatched, rfl⟩
        · exact ⟨rfl, rfl⟩

/-- A client in the middle of the bytes of a response, of which `more` has not arrived. -/
structure Client.At [Htstring] (meth : HtpMethod) (start : Parser) (response : Response) (later more : Bytes) (c : Client) :
    Prop where
  alive : c.crashed = false
  unclosed : c.connection.closed = none
  place : ResponsePlace (ClientSeen meth) ClientStopped start response later
    ⟨c.connection.parser.toParser, ⟨c.connection.conn.setStatus resOk, false⟩⟩ (c.connection.input ++ more)
  working : c.connection.parser.state ≠ .error

/-- What the bytes of a response lead to: a Host ends the process, and otherwise the request is called back. -/
inductive Client.Ends (response : Response) (later more : Bytes) (c : Client) : Prop
  | crashed (host : response.head.fields.any (·.isNamed "Host") = true) (crashed : c.crashed = true)
      (undispatched : c.connection.conn.dispatched = [])
  | called (noHost : response.head.fields.any (·.isNamed "Host") = false)
      (once : c.connection.conn.dispatched.map Request.headersIn = [response.head.fields.map Field.nullKv])
      (rest : c.connection.input ++ more = later)

/-- The pieces that lead to the end: no shorter ones do. -/
structure Client.Decides [Htstring] (env : Env) (response : Response) (later : Bytes) (c : Client) (first rest : List Bytes) :
    Prop where
  early : ∀ shorter, shorter <+: first → shorter ≠ first → (c.receiveAll env shorter).connection.conn.dispatched = []
  ends : (c.receiveAll env first).Ends response later rest.flatten

section
variable [Htstring] {env : Env} {meth : HtpMethod} {start : Parser} {response : Response} {later more : Bytes} {c : Client}

theorem Client.At.awaits (here : c.At meth start response later more) :
    ∃ headers, Awaits meth headers (c.connection.conn.setStatus resOk) := by
  obtain ⟨fields, seen⟩ := here.place.seen here.working
  exact ⟨_, seen.2⟩

def Client.ran (c : Client) (result : Scan ClientConn × Nat) : Client where
  connection := { c.connection with
    conn := result.1.user.conn
    parser := { result.1.p with
      bytesRead := result.2
      totalBytesRead := c.connection.parser.totalBytesRead + UInt64.ofNat result.2 } }
  crashed := result.1.user.crashed

variable (app : ClientApp env) (readable : Readable start response (decide (meth = .HEAD)))
  (sound : start.error = .none)
include app readable sound

theorem Client.At.ran (here : c.At meth start response later more) (avail : Nat) {result : Scan ClientConn × Nat}
    (outcome : Outcome (responsePsets env) (ClientSeen meth) ClientStopped start response later more result.1
      (c.connection.input.drop result.2)) :
    (more ≠ [] ∧ ((c.ran result).readDone env result.2 avail).At meth start response later more) ∨
      ((c.ran result).readDone env result.2 avail).Ends response later more := by
  obtain ⟨s, used⟩ := result
  dsimp only at outcome
  generalize left : c.connection.input.drop used = rest at outcome
  cases outcome with
  | waits missing place alive =>
    obtain ⟨fields, unharmed, awaits⟩ := place.seen alive
    have fine : ¬(c.ran (s, used)).crashed = true := by
      rw [Client.ran, unharmed]
      nofun
    have parser : (c.ran (s, used)).connection.parser.error = .none := (readable.sound sound place alive).2.1
    have done : Evhtp.readDone env used avail (c.ran (s, used)).connection =
        { (c.ran (s, used)).connection with input := (c.ran (s, used)).connection.input.drop used } :=
      readDone_waits awaits parser
    rw [Client.readDone, if_neg fine, done]
    refine .inl ⟨missing, unharmed, here.unclosed, ?_, alive⟩
    have user : (⟨s.user.conn.setStatus resOk, false⟩ : ClientConn) = s.user := by
      rw [awaits.setStatus_same, ← unharmed]
    have scan : (⟨s.p, ⟨s.user.conn.setStatus resOk, false⟩⟩ : Scan ClientConn) = s := by rw [user]
    rw [← left] at place
    rw [← scan] at place
    exact place
  | stopped host stopped =>
    have down : (c.ran (s, used)).crashed = true := stopped.1
    rw [Client.readDone, if_pos down]
    exact .inr (.crashed host down stopped.2)
  | @completed p user _ _ _ _ noHost seen bytes =>
    obtain ⟨request, headersIn, dispatched, status⟩ := seen.2.parseFini (p := p.finish) app
    have finished : (finishMessage (responsePsets env) ⟨p, user⟩).user =
        { user with conn := (parseFini env p.finish user.conn).2 } := rfl
    have fine : ¬(c.ran (finishMessage (responsePsets env) ⟨p, user⟩, used)).crashed = true := by
      rw [Client.ran, finished, seen.1]
      nofun
    have short : (c.ran (finishMessage (responsePsets env) ⟨p, user⟩, used)).connection.conn.status ≠
        some resDataTooLong := by
      rw [Client.ran, finished]
      rcases status with ok | paused
      · rw [ok]
        decide
      · rw [paused]
        decide
    obtain ⟨kept, unread⟩ := readDone_called env used avail short
    rw [Client.readDone, if_neg fine]
    refine .inr (.called noHost ?_ ?_)
    · rw [kept, Client.ran, finished, dispatched, List.map_singleton, headersIn]
    · rw [unread, ← bytes, ← left]
      rfl

variable (compares : ComparesAscii)
include compares

theorem Client.At.receive {data : Bytes} (here : c.At meth start response later (data ++ more)) (some : data ≠ []) :
    (more ≠ [] ∧ (c.receive env data).At meth start response later more) ∨
      (c.receive env data).Ends response later more := by
  obtain ⟨headers, awaits⟩ := here.awaits
  have reading : c.connection.conn.reading = true := awaits.reading
  have paused : c.connection.conn.flags.paused = false := awaits.paused
  have place := here.place
  rw [← List.append_assoc] at place
  have outcome := (client_reader app meth).run readable compares sound place here.working
  have ready : ¬(data = [] ∨ c.crashed = true ∨ c.connection.closed.isSome = true ∨ c.connection.conn.reading = false) := by
    simp [some, here.alive, here.unclosed, reading]
  rw [Client.receive, if_neg ready]
  let c' : Client := { c with connection := { c.connection with input := c.connection.input ++ data } }
  have here' : c'.At meth start response later more := ⟨here.alive, here.unclosed, place, here.working⟩
  have arrived : ¬(c'.connection.input = [] ∧ c'.connection.conn.request.isSome ∧
      c'.connection.conn.status ≠ Option.some resPause) := by
    rintro ⟨empty, -⟩
    exact some (List.append_eq_nil_iff.mp empty).2
  have same : (c'.parse env) = (c'.ran (runLoop (responsePsets env) (runFuel c'.connection.input) c'.connection.input
      ⟨c.connection.parser.toParser, ⟨c.connection.conn.setStatus resOk, false⟩⟩),
      (runLoop (responsePsets env) (runFuel c'.connection.input) c'.connection.input
        ⟨c.connection.parser.toParser, ⟨c.connection.conn.setStatus resOk, false⟩⟩).2) := by
    rw [← here.alive]
    rfl
  have done := here'.ran app readable sound c'.connection.input.length outcome
  rw [Client.readcb, if_neg arrived, if_neg (by simp [paused])]
  dsimp only
  rw [same]
  exact done

omit app readable sound compares in
theorem Client.Decides.cons {data : Bytes} {first rest : List Bytes}
    (decides : (c.receive env data).Decides env response later first rest)
    (undispatched : c.connection.conn.dispatched = []) : c.Decides env response later (data :: first) rest := by
  refine ⟨fun shorter front less => ?_, decides.ends⟩
  cases shorter with
  | nil => exact undispatched
  | cons other shorter =>
    obtain ⟨rfl, front'⟩ := List.cons_prefix_cons.mp front
    exact decides.early shorter front' fun same => less (congrArg _ same)

theorem Client.At.receiveAll {pieces : List Bytes} (here : c.At meth start response later pieces.flatten)
    (missing : pieces.flatten ≠ []) : ∃ first rest, pieces = first ++ rest ∧ c.Decides env response later first rest := by
  induction pieces generalizing c with
  | nil => exact absurd rfl missing
  | cons data pieces ih =>
    obtain ⟨headers, awaits⟩ := here.awaits
    have undispatched : c.connection.conn.dispatched = [] := awaits.undispatched
    have further : pieces.flatten ≠ [] → (c.receive env data).At meth start response later pieces.flatten →
        ∃ first rest, data :: pieces = first ++ rest ∧ c.Decides env response later first rest := by
      intro missing there
      obtain ⟨first, rest, split, decides⟩ := ih there missing
      exact ⟨data :: first, rest, congrArg _ split, decides.cons undispatched⟩
    by_cases empty : data = []
    · subst empty
      have same : c.receive env [] = c := if_pos (.inl rfl)
      exact further missing (by rw [same]; exact here)
    · rw [List.flatten_cons] at here
      rcases here.receive app readable sound compares empty with ⟨missing, there⟩ | ends
      · exact further missing there
      · have decides : (c.receive env data).Decides env response later [] pieces :=
          ⟨fun shorter front less => absurd (List.prefix_nil.mp front) less, ends⟩
        exact ⟨[data], pieces, rfl, decides.cons undispatched⟩

end

structure Client.Outstanding (c : Client) (request : Request) : Prop where
  current : c.connection.conn.request = some request
  callback : request.cb.isSome = true
  headersIn : request.headersIn = []
  paused : c.connection.conn.flags.paused = false
  owner : c.connection.conn.flags.owner = true
  reading : c.connection.conn.reading = true
  unlimited : c.connection.conn.maxBodySize = 0
  undispatched : c.connection.conn.dispatched = []
  input : c.connection.input = []
  unclosed : c.connection.closed = none
  alive : c.crashed = false
  state : c.connection.parser.state = .start
  running : c.connection.parser.flags.paused = false
  sound : c.connection.parser.error = .none
  type : c.connection.parser.type = .response

section
variable [Htstring]

/-- The length of the body is known: the status has none, or Content-Length says it. The response to a HEAD has no
body, whatever it says. -/
inductive Response.KnownLength (meth : HtpMethod) (response : Response) : Prop
  | bodyless {n : Nat} (status : response.line.bodyless = true) (agree : LengthsAgree response.head.fields n)
      (empty : response.body = [])
  | length {n : Nat} (status : response.line.bodyless = false)
      (noCoding : response.head.fields.any (·.isNamed "Transfer-Encoding") = false)
      (given : response.head.fields.any (·.isNamed "Content-Length") = true)
      (agree : LengthsAgree response.head.fields n)
      (whole : response.body.length = if meth = .HEAD then 0 else n)

/-- An interim response, with any headers; lengths among them agree. -/
structure Response.Interim (response : Response) : Prop where
  code : response.line.code < 200
  empty : response.body = []
  lengths : ∃ n, LengthsAgree response.head.fields n

structure Response.Final (meth : HtpMethod) (response : Response) : Prop where
  code : 200 ≤ response.line.code
  length : response.KnownLength meth

/-- The request is called back once, when all bytes of the response have arrived and were read, and then its headers
are those of the response. -/
structure Client.CompletedOnce (env : Env) (c : Client) (response : Response) (pieces : List Bytes) : Prop where
  early : ∀ first rest, pieces = first ++ rest → rest.flatten ≠ [] →
    (c.receiveAll env first).connection.conn.dispatched = []
  once : (c.receiveAll env pieces).connection.conn.dispatched.map Request.headersIn =
    [response.head.fields.map Field.nullKv]
  read : (c.receiveAll env pieces).connection.input = []

theorem Response.Interim.knownLength {response : Response} (interim : response.Interim) (meth : HtpMethod) :
    response.KnownLength meth := by
  obtain ⟨n, agree⟩ := interim.lengths
  refine .bodyless ?_ agree interim.empty
  simp [StatusLine.bodyless, interim.code]

omit [Htstring] in
theorem Response.bytes_ne_nil (response : Response) : response.bytes ≠ [] := by
  have some := response.head.some
  simp [Response.bytes, Head.bytes, some]

variable {env : Env} {meth : HtpMethod} {c : Client} {request : Request} {response : Response}

theorem Client.Outstanding.readable (compares : ComparesAscii) (outstanding : c.Outstanding request)
    (roomy : response.head.Roomy c.connection.parser.config) (known : response.KnownLength meth) :
    Readable c.connection.parser.toParser response (decide (meth = .HEAD)) := by
  have said : Says (c.connection.parser.toParser.statusRead response.line) []
      (c.connection.parser.toParser.statusRead response.line) := Says.begin (p := c.connection.parser.toParser) rfl
  have type : (c.connection.parser.toParser.statusRead response.line).type = .response := outstanding.type
  cases known with
  | bodyless status agree empty =>
    obtain ⟨taken, heard⟩ := takeFields_agree compares said agree
    have framed := heard.framing_bodyless type rfl rfl status
    refine ⟨outstanding.state, outstanding.running, outstanding.type, roomy, taken, by rw [framed], ?_⟩
    rw [framed, empty]
    split
    · exact .complete rfl
    · exact .complete rfl
  | @length n status noCoding given agree whole =>
    obtain ⟨taken, heard⟩ := takeFields_agree compares said agree
    have framed := heard.framing_length type rfl rfl status noCoding given
    have length := heard.length_unique (heard.haveCl.trans given) agree
    refine ⟨outstanding.state, outstanding.running, outstanding.type, roomy, taken, by rw [framed], ?_⟩
    rw [framed, ← length]
    by_cases head : meth = .HEAD
    · rw [if_pos head] at whole
      rw [List.length_eq_zero_iff.mp whole, if_pos (by simp [head])]
      exact .complete rfl
    · rw [if_neg head] at whole
      rw [if_neg (by simp [head])]
      by_cases none : n = 0
      · rw [none] at whole ⊢
        rw [List.length_eq_zero_iff.mp whole]
        exact .complete rfl
      · have some : response.body ≠ [] := fun empty => none (by rw [← whole, empty]; rfl)
        rw [if_neg none]
        exact .within rfl rfl whole.symm some

theorem Client.Outstanding.at (outstanding : c.Outstanding request) (response : Response) (later : Bytes) :
    c.At request.method c.connection.parser.toParser response later (response.bytes ++ later) := by
  refine ⟨outstanding.alive, outstanding.unclosed, ?_, by simp [outstanding.state]⟩
  rw [outstanding.input]
  refine .idle ⟨rfl, ⟨request.setStatus resOk, ?_, outstanding.headersIn, rfl, outstanding.callback, rfl⟩,
    outstanding.paused, outstanding.owner, outstanding.reading, outstanding.unlimited, outstanding.undispatched⟩
  rw [Conn.setStatus, outstanding.current]
  rfl

theorem Client.receiveAll_append (env : Env) (c : Client) (first rest : List Bytes) :
    c.receiveAll env (first ++ rest) = (c.receiveAll env first).receiveAll env rest :=
  List.foldl_append

theorem Client.receiveAll_empty (env : Env) (c : Client) {pieces : List Bytes} (empty : pieces.flatten = []) :
    c.receiveAll env pieces = c := by
  induction pieces generalizing c with
  | nil => rfl
  | cons data pieces ih =>
    rw [List.flatten_cons, List.append_eq_nil_iff] at empty
    have same : c.receive env data = c := if_pos (.inl empty.1)
    rw [Client.receiveAll, List.foldl_cons, same]
    exact ih c empty.2

theorem Client.receiveAll_crashed (env : Env) {c : Client} (crashed : c.crashed = true) (pieces : List Bytes) :
    c.receiveAll env pieces = c := by
  induction pieces with
  | nil => rfl
  | cons data pieces ih =>
    have same : c.receive env data = c := if_pos (.inr (.inl crashed))
    rw [Client.receiveAll, List.foldl_cons, same]
    exact ih

/-- The end of the first response decides whether the request is called back as it should. -/
theorem Client.Decides.completedOnce {later : Bytes} {first rest : List Bytes} {last : Response}
    (decides : c.Decides env response later first rest) (same : later = [] → last = response) :
    c.CompletedOnce env last (first ++ rest) ↔ later = [] ∧ response.head.fields.any (·.isNamed "Host") = false := by
  cases decides.ends with
  | crashed host crashed undispatched =>
    have after : c.receiveAll env (first ++ rest) = c.receiveAll env first := by
      rw [Client.receiveAll_append, Client.receiveAll_crashed env crashed]
    refine iff_of_false (fun completed => ?_) (by simp [host])
    have once := completed.once
    rw [after, undispatched] at once
    cases once
  | called noHost once unread =>
    constructor
    · intro completed
      refine ⟨?_, noHost⟩
      by_cases arrived : rest.flatten = []
      · have read := completed.read
        rw [Client.receiveAll_append, Client.receiveAll_empty env _ arrived] at read
        rw [← unread, read, arrived]
        rfl
      · rw [completed.early first rest rfl arrived] at once
        cases once
    · rintro ⟨done, -⟩
      have parts := List.append_eq_nil_iff.mp (unread.trans done)
      have after : c.receiveAll env (first ++ rest) = c.receiveAll env first := by
        rw [Client.receiveAll_append, Client.receiveAll_empty env _ parts.2]
      refine ⟨fun shorter others split missing => decides.early shorter ?_ ?_, ?_, ?_⟩
      · rcases List.append_eq_append_iff.mp split with ⟨between, longer, tail⟩ | ⟨between, shorter, -⟩
        · rw [tail, List.flatten_append, List.append_eq_nil_iff] at parts
          exact absurd parts.2.2 missing
        · exact ⟨between, shorter.symm⟩
      · rintro rfl
        rw [← List.append_cancel_left split] at missing
        exact missing parts.2
      · rw [after, same done]
        exact once
      · rw [after]
        exact parts.1

/-- However the bytes are cut, the request is called back once, for the final response and with its headers, if and
only if there is no interim response before it; a Host among its headers ends the process instead. -/
theorem callback_after_final (compares : ComparesAscii) (app : ClientApp env) (outstanding : c.Outstanding request)
    {interims : List Response} {final : Response} (interim : ∀ response ∈ interims, response.Interim)
    (known : final.Final request.method)
    (roomy : ∀ response ∈ interims ++ [final], response.head.Roomy c.connection.parser.config) {pieces : List Bytes}
    (stream : pieces.flatten = interims.flatMap Response.bytes ++ final.bytes) :
    c.CompletedOnce env final pieces ↔ interims = [] ∧ final.head.fields.any (·.isNamed "Host") = false := by
  have decided : ∀ {response later}, response.head.Roomy c.connection.parser.config →
      response.KnownLength request.method → pieces.flatten = response.bytes ++ later →
      (later = [] → final = response) →
      (c.CompletedOnce env final pieces ↔ later = [] ∧ response.head.fields.any (·.isNamed "Host") = false) := by
    intro response later fits length bytes same
    have here := outstanding.at response later
    have missing : response.bytes ++ later ≠ [] := by simp [response.bytes_ne_nil]
    rw [← bytes] at here missing
    obtain ⟨first, rest, rfl, decides⟩ :=
      here.receiveAll app (outstanding.readable compares fits length) outstanding.sound compares missing
    exact decides.completedOnce same
  cases interims with
  | nil =>
    have bytes : pieces.flatten = final.bytes ++ [] := by rw [stream, List.append_nil, List.flatMap_nil, List.nil_append]
    simpa using decided (roomy final (by simp)) known.length bytes fun _ => rfl
  | cons response others =>
    have bytes : pieces.flatten = response.bytes ++ (others.flatMap Response.bytes ++ final.bytes) := by
      rw [stream, List.flatMap_cons, List.append_assoc]
    have more : others.flatMap Response.bytes ++ final.bytes ≠ [] := by simp [final.bytes_ne_nil]
    have first := interim response (by simp)
    refine (decided (roomy response (by simp)) (first.knownLength _) bytes fun none => absurd none more).trans ?_
    simp [more]

end

section
attribute [local instance] Plain.htstring

def continueLine : StatusLine where
  major := 1
  minor := 1
  code := 100
  reason := some (ascii "Continue")
  version := plainOk.version
  digits := by decide

def continueResponse : Response where
  line := continueLine
  head := ⟨continueLine.bytes, .crlf, [], .crlf, by decide, by decide⟩
  body := []
  starts := rfl

def helloResponse : Response where
  line := plainOk
  head := responseHead [contentLengthFive]
  body := ascii "hello"
  starts := rfl

def clientGet : Request := (evhtpMakeRequest { proto := .proto11, cb := some 1 } .GET (ascii "/")).1

def quietClient : Env := { app := fun _ _ => {}, cached := fun _ => none }

theorem quietClient_app : ClientApp quietClient :=
  ⟨fun _ _ _ => ⟨rfl, fun _ member => absurd member List.not_mem_nil⟩,
    fun _ _ _ _ member => absurd member List.not_mem_nil⟩

theorem clientGet_outstanding : (clientNew defaultConfig clientGet).Outstanding clientGet := by
  constructor <;> rfl

theorem continueResponse_interim : continueResponse.Interim := ⟨by decide, rfl, 0, nofun⟩

theorem helloResponse_final : helloResponse.Final .GET := by
  refine ⟨by decide, .length (n := 5) (by decide) (by decide) (by decide) ?_ (by decide)⟩
  intro field member named
  cases List.mem_singleton.mp member
  decide

/-- Without an interim response, and cut in the middle of its head. -/
theorem callback_after_final_alone :
    (clientNew defaultConfig clientGet).CompletedOnce quietClient helloResponse
      [helloResponse.bytes.take 20, helloResponse.bytes.drop 20] := by
  refine (callback_after_final Plain.comparesAscii quietClient_app clientGet_outstanding
    (fun response member => absurd member List.not_mem_nil) helloResponse_final ?_ ?_).mpr ⟨rfl, by decide⟩
  · intro response member
    cases List.mem_singleton.mp member
    exact ⟨by decide, by decide, by decide⟩
  · simp

/-- The request is called back for the interim response, and again for the final one. -/
theorem callback_before_final : continueResponse.Interim ∧ helloResponse.Final clientGet.method ∧
    ClientApp quietClient ∧ (clientNew defaultConfig clientGet).Outstanding clientGet ∧
    ¬(clientNew defaultConfig clientGet).CompletedOnce quietClient helloResponse
      [continueResponse.bytes, helloResponse.bytes] := by
  refine ⟨continueResponse_interim, helloResponse_final, quietClient_app, clientGet_outstanding, fun completed => ?_⟩
  have called : ((clientNew defaultConfig clientGet).receiveAll quietClient
      [continueResponse.bytes, helloResponse.bytes]).connection.conn.dispatched.length = 2 := by decide +kernel
  have once := congrArg List.length completed.once
  rw [List.length_map, called] at once
  cases once

end

end Evhtp
