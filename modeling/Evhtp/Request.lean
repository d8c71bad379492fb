import Evhtp.Msgparser

/-! The request structure of evhtp.h with its header lists, its URI and the flags HTTP/1.x and HTTP/2 set. -/

namespace Evhtp

structure Kv where
  key : Bytes
  val : Bytes
  deriving DecidableEq, Repr

/-- A header or query argument that has been read; its value may be `NULL`. -/
structure NullKv where
  key : Bytes
  val : Option Bytes := none
  deriving DecidableEq, Repr

/-- Keys are compared after setting the bit that tells lower from upper case. -/
def matchHeaderKey (kv : Kv) (key : Bytes) : Bool :=
  kv.key.length == key.length && kv.key.map (· ||| 0x20) == key.map (· ||| 0x20)

def evhtpKvFind (kvs : List Kv) (key : Bytes) : Option Bytes := (kvs.find? (matchHeaderKey · key)).map Kv.val

/-- `evhtp_header_find_n` on headers that have been read. -/
def evhtpHeaderFind (headers : List NullKv) (key : Bytes) : Option Bytes :=
  (headers.find? fun kv => matchHeaderKey ⟨kv.key, []⟩ key).bind NullKv.val

/-- `evhtp_kv_rm_and_free` of what `evhtp_kvs_find_kv_n` finds. -/
def evhtpKvRemove (kvs : List Kv) (key : Bytes) : List Kv := kvs.eraseP (matchHeaderKey · key)

inductive EvhtpProto where
  | invalid | proto10 | proto11 | proto20
  deriving DecidableEq, Repr

def htpProtocol (major minor : Nat) : EvhtpProto :=
  if major ≥ 1 ∧ minor ≤ 0 then .proto10 else if major ≥ 1 ∧ minor ≥ 1 then .proto11 else .invalid

/-- The `EVHTP_RES_` codes hooks and the connection callbacks tell apart. -/
def resError : Nat := 0
def resPause : Nat := 1
def resFatal : Nat := 2
def resDataTooLong : Nat := 4
def resOk : Nat := 200

/-- The `EVHTP_REQ_FLAG_` bits. -/
structure ReqFlags where
  keepalive : Bool := false
  finished : Bool := false
  chunked : Bool := false
  error : Bool := false
  hdrsStart : Bool := false
  endStream : Bool := false
  vhostResolved : Bool := false
  h2Streaming : Bool := false
  deriving DecidableEq, Repr

/-- The path of a request. The two buffers are as long as `full` and its terminator. -/
structure Path where
  full : Bytes
  path : Bytes
  file : Option Bytes := none
  matchedSoff : Nat := 0
  matchedEoff : Nat := 0
  matchStart : Option Bytes := none
  matchEnd : Option Bytes := none
  deriving DecidableEq, Repr

structure Uri where
  username : Option Bytes := none
  password : Option Bytes := none
  hostname : Option Bytes := none
  port : Nat := 0
  scheme : HtpScheme := .none
  path : Option Path := none
  query : Option (List NullKv) := none
  queryRaw : Option Bytes := none
  fragment : Option Bytes := none
  hasQueryBody : Bool := false
  deriving DecidableEq, Repr

/-- A request, as `calloc` leaves it. The server structure, the callback and the table of hooks are
numbers that stand for their addresses; table 0 has no hooks. The last three fields are not part of the
source: the server structure the request began with, the name it was looked up by, and the number of
bytes of its body that were taken. -/
structure Request where
  method : HtpMethod := .UNKNOWN
  proto : EvhtpProto := .invalid
  status : Nat := 200
  flags : ReqFlags := {}
  headersOut : List Kv := []
  bufferOut : Bytes := []
  headersIn : List NullKv := []
  bufferIn : Bytes := []
  uri : Option Uri := none
  streamId : Nat := 0
  htp : Nat := 0
  hooks : Option Nat := none
  cb : Option Nat := none
  cbarg : Nat := 0
  began : Nat := 0
  host : Option Bytes := none
  received : Nat := 0
  deriving DecidableEq, Repr

def Request.addHeader (request : Request) (key val : Bytes) : Request :=
  { request with headersOut := request.headersOut ++ [⟨key, val⟩] }

def Request.path (request : Request) : Option Path := request.uri.bind Uri.path

def Request.setStatus (request : Request) (status : Nat) : Request := { request with status }

/-- `htp__require_uri__`: a URI that may have been there before. -/
def Request.requireUri (request : Request) : Uri := request.uri.getD {}

def Request.setUri (request : Request) (uri : Uri) : Request := { request with uri := some uri }

end Evhtp
