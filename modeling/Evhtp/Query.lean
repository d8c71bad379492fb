import Evhtp.Request

/-! Query strings: `evhtp_parse_query_wflags`, and how the query of a target or of a form body is stored. -/

namespace Evhtp

/-- The `EVHTP_PARSE_QUERY_FLAG_` bits. -/
structure QueryFlags where
  ignoreHex : Bool := false
  allowEmptyVals : Bool := false
  allowNullVals : Bool := false
  treatSemicolonAsSep : Bool := false
  ignoreFragments : Bool := false
  deriving DecidableEq, Repr

def QueryFlags.strict : QueryFlags := {}

def QueryFlags.lenient : QueryFlags :=
  { ignoreHex := true, allowEmptyVals := true, allowNullVals := true, treatSemicolonAsSep := true }

inductive QueryState where
  | start | key | val | keyHex1 | keyHex2 | valHex1 | valHex2
  deriving DecidableEq, Repr

/-- The comparison `state >= s_query_val`: in the order of the source the states inside an escape of a
key come after the value. -/
def QueryState.pastVal : QueryState → Bool
  | .start | .key => false
  | .val | .keyHex1 | .keyHex2 | .valHex1 | .valHex2 => true

structure QueryScan where
  state : QueryState := .start
  key : Bytes := []
  val : Bytes := []
  args : List NullKv := []
  deriving DecidableEq, Repr

def isHexQueryChar (ch : UInt8) : Bool :=
  (97 ≤ ch && ch ≤ 102) || (65 ≤ ch && ch ≤ 70) || (48 ≤ ch && ch ≤ 57)

/-- `evhtp_kv_new` copies C strings: an argument is cut at its first NUL. -/
def QueryScan.add (s : QueryScan) (val : Option Bytes) : QueryScan :=
  { state := .key, args := s.args ++ [⟨cString s.key, val.map cString⟩] }

def QueryScan.pushKey (s : QueryScan) (ch : UInt8) (state : QueryState) : QueryScan :=
  { s with key := s.key ++ [ch], state }

def QueryScan.pushVal (s : QueryScan) (ch : UInt8) (state : QueryState) : QueryScan :=
  { s with val := s.val ++ [ch], state }

def QueryScan.addNull (flags : QueryFlags) (s : QueryScan) : Option QueryScan :=
  if flags.allowNullVals then some (s.add none) else none

def queryKey (flags : QueryFlags) (ch : UInt8) (s : QueryScan) : Option QueryScan :=
  if ch = 61 then some { s with state := .val }
  else if ch = 37 then some (s.pushKey ch (if flags.ignoreHex then .key else .keyHex1))
  else if ch = 59 then
    if flags.treatSemicolonAsSep then s.addNull flags else some (s.pushKey ch .key)
  else if ch = 38 then s.addNull flags
  else some (s.pushKey ch .key)

def queryVal (flags : QueryFlags) (ch : UInt8) (s : QueryScan) : Option QueryScan :=
  if ch = 59 then
    if flags.treatSemicolonAsSep then some (s.add (some s.val)) else some (s.pushVal ch .val)
  else if ch = 38 then some (s.add (some s.val))
  else if ch = 37 then some (s.pushVal ch (if flags.ignoreHex then .val else .valHex1))
  else some (s.pushVal ch .val)

/-- One turn of the loop; `len` is the length of the whole query. -/
def queryStep (flags : QueryFlags) (len : Nat) (s : QueryScan) (ch : UInt8) : Option QueryScan :=
  if s.key.length ≥ len ∨ s.val.length ≥ len then none
  else
    match s.state with
    | .start => queryKey flags ch { s with key := [], val := [], state := .key }
    | .key => queryKey flags ch s
    | .keyHex1 =>
      if isHexQueryChar ch then some (s.pushKey ch .keyHex2)
      else if s.key.length + 2 ≥ len then none
      else some (s.pushKey ch .key)
    | .keyHex2 => if isHexQueryChar ch then some (s.pushKey ch .key) else none
    | .val => queryVal flags ch s
    | .valHex1 =>
      if isHexQueryChar ch then some (s.pushVal ch .valHex2)
      else if s.val.length + 2 ≥ len then none
      else if s.val.length = 0 then none
      else some (s.pushVal ch .val)
    | .valHex2 => if isHexQueryChar ch then some (s.pushVal ch .val) else none

/-- The last argument has no separator after it. -/
def queryEnd (flags : QueryFlags) (s : QueryScan) : Option (List NullKv) :=
  if s.key = [] then some s.args
  else if s.val ≠ [] then some (s.add (some s.val)).args
  else if s.state.pastVal then
    if flags.allowEmptyVals then some (s.add (some [])).args else none
  else if flags.allowNullVals then some (s.add none).args
  else none

/-- `evhtp_parse_query_wflags`; `size_t` arithmetic bounds the length of a query. -/
def evhtpParseQueryWflags (query : Bytes) (flags : QueryFlags) : Option (List NullKv) :=
  if 2 * query.length + 2 > 2 ^ 64 - 1 then none
  else (query.foldlM (queryStep flags query.length) {}).bind (queryEnd flags)

def evhtpParseQuery (query : Bytes) : Option (List NullKv) := evhtpParseQueryWflags query .strict

/-- `htp__uri_set_query_`: a fragment is split off unless the flags say to keep it. -/
def uriSetQuery (uri : Uri) (data : Bytes) (flags : QueryFlags) : Option Uri :=
  let cut := flags.ignoreFragments = false ∧ 35 ∈ data
  let uri := if cut then { uri with fragment := some ((data.dropWhile (· != 35)).drop 1) } else uri
  let data := if cut then data.takeWhile (· != 35) else data
  (evhtpParseQueryWflags data flags).map fun query => { uri with query := some query, queryRaw := some data }

def shouldParseQueryBody (request : Request) (p : Parser) : Bool :=
  match request.uri with
  | none => false
  | some uri =>
    uri.query.isNone && p.origContentLen != 0 && p.origContentLen == request.bufferIn.length &&
      match evhtpHeaderFind request.headersIn (ascii "content-type") with
      | none => false
      | some type => (type.take 33).map toLower == ascii "application/x-www-form-urlencoded"

def queryFromBody (request : Request) : Request :=
  match request.uri with
  | none => request
  | some uri =>
    request.setUri { uri with
      queryRaw := some request.bufferIn
      query := evhtpParseQuery request.bufferIn
      hasQueryBody := true }

end Evhtp
