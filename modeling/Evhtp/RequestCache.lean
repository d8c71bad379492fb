import Evhtp.Connection

/-! The caches of freed requests. A request goes to the cache of the server structure it was routed to, and a
connection takes the one that was put last into the cache of its own. -/

namespace Evhtp

abbrev RequestCaches := Nat → List Request

/-- `htp__request_new_`. -/
def requestAlloc (htp : Nat) : Request := { htp, status := resOk }

/-- What `htp__request_free_` does with a request that has a server structure, once its hook was called. -/
def requestRecycle (request : Request) (caches : RequestCaches) : RequestCaches := fun htp =>
  if htp = request.htp then requestClear request :: caches htp else caches htp

def getRequestFromCache (htp : Nat) (caches : RequestCaches) : Option (Request × RequestCaches) :=
  match caches htp with
  | [] => none
  | request :: rest =>
    some ({ request with htp, status := resOk }, fun other => if other = htp then rest else caches other)

/-- `htp__request_new__`. -/
def requestTake (htp : Nat) (caches : RequestCaches) : Request × RequestCaches :=
  (getRequestFromCache htp caches).getD (requestAlloc htp, caches)

/-- What connections do with requests: they free one, in whatever state it is, or need a new one. -/
inductive RequestEvent where
  | free (request : Request)
  | new (htp : Nat)
  deriving DecidableEq, Repr

def RequestEvent.run (caches : RequestCaches) : RequestEvent → RequestCaches
  | .free request => requestRecycle request caches
  | .new htp => (requestTake htp caches).2

def cachesAfter (history : List RequestEvent) : RequestCaches := history.foldl RequestEvent.run fun _ => []

/-- What a hook, a callback or a reply function can read of a request. -/
inductive ReqField where
  | headersIn | headersOut | bufferIn | bufferOut
  | username | password | hostname | port | scheme | path | query | queryRaw | fragment | hasQueryBody
  | flags | status | proto | method | streamId | htp | cb | cbarg | hooks
  deriving DecidableEq, Repr

def ReqField.Value : ReqField → Type
  | .headersIn => List NullKv
  | .headersOut => List Kv
  | .bufferIn | .bufferOut => Bytes
  | .username | .password | .hostname | .queryRaw | .fragment => Option Bytes
  | .scheme => HtpScheme
  | .path => Option Path
  | .query => Option (List NullKv)
  | .hasQueryBody => Bool
  | .flags => ReqFlags
  | .proto => EvhtpProto
  | .method => HtpMethod
  | .port | .status | .streamId | .htp | .cbarg | .hooks => Nat
  | .cb => Option Nat

/-- The value of a field. A URI without components counts as an absent one, and so does a table without hooks. -/
def Request.read (request : Request) : (field : ReqField) → field.Value
  | .headersIn => request.headersIn
  | .headersOut => request.headersOut
  | .bufferIn => request.bufferIn
  | .bufferOut => request.bufferOut
  | .username => request.requireUri.username
  | .password => request.requireUri.password
  | .hostname => request.requireUri.hostname
  | .port => request.requireUri.port
  | .scheme => request.requireUri.scheme
  | .path => request.requireUri.path
  | .query => request.requireUri.query
  | .queryRaw => request.requireUri.queryRaw
  | .fragment => request.requireUri.fragment
  | .hasQueryBody => request.requireUri.hasQueryBody
  | .flags => request.flags
  | .status => request.status
  | .proto => request.proto
  | .method => request.method
  | .streamId => request.streamId
  | .htp => request.htp
  | .cb => request.cb
  | .cbarg => request.cbarg
  | .hooks => request.hooks.getD 0

end Evhtp
