import Evhtp.Query
import Evhtp.Lib.Buffer

/-! The buffers of `evhtp_parse_query_wflags`: the same machine as in `Query`, with every access to `key_buf` and `val_buf`.
An access outside of a buffer is a fault of its own, which no result of the function stands for. -/

namespace Evhtp

/-- Why there is no result: `goto error`, or an access outside of a buffer. -/
inductive QueryStop where
  | error | fault
  deriving DecidableEq, Repr

/-- `key_buf` and `key_idx`, or `val_buf` and `val_idx`. -/
structure TextBuffer where
  buf : Bytes
  idx : Nat := 0
  deriving DecidableEq, Repr

namespace TextBuffer

def store (buffer : TextBuffer) (index : Nat) (byte : UInt8) : Except QueryStop TextBuffer :=
  match Buffer.write buffer.buf index byte with
  | some buf => .ok { buffer with buf }
  | none => .error .fault

/-- `buf[idx++] = ch; buf[idx] = '\0'`. -/
def put (buffer : TextBuffer) (ch : UInt8) : Except QueryStop TextBuffer :=
  (buffer.store buffer.idx ch).bind fun buffer => { buffer with idx := buffer.idx + 1 }.store (buffer.idx + 1) 0

/-- `idx = 0; buf[0] = '\0'`. -/
def clear (buffer : TextBuffer) : Except QueryStop TextBuffer := { buffer with idx := 0 }.store 0 0

/-- `buf[idx - 1] = '%'`; the index is a `size_t`. -/
def percentBefore (buffer : TextBuffer) : Except QueryStop TextBuffer :=
  buffer.store (if buffer.idx = 0 then 2 ^ 64 - 1 else buffer.idx - 1) 37

/-- What `evhtp_kv_new` copies: the bytes up to the terminator, which it has to find. -/
def string (buffer : TextBuffer) : Except QueryStop Bytes :=
  if 0 ∈ buffer.buf then .ok (cString buffer.buf) else .error .fault

end TextBuffer

structure QueryBuffers where
  state : QueryState := .start
  key : TextBuffer
  val : TextBuffer
  args : List NullKv := []
  deriving DecidableEq, Repr

namespace QueryBuffers

def putKey (s : QueryBuffers) (ch : UInt8) (state : QueryState) : Except QueryStop QueryBuffers :=
  (s.key.put ch).map fun key => { s with key, state }

def putVal (s : QueryBuffers) (ch : UInt8) (state : QueryState) : Except QueryStop QueryBuffers :=
  (s.val.put ch).map fun val => { s with val, state }

def clear (s : QueryBuffers) : Except QueryStop QueryBuffers :=
  s.key.clear.bind fun key => s.val.clear.map fun val => { s with key, val, state := .key }

/-- `evhtp_kvs_add_kv(query_args, evhtp_kv_new(key_buf, NULL, ..))`. -/
def addKey (s : QueryBuffers) (val : Option Bytes) : Except QueryStop QueryBuffers :=
  s.key.string.map fun key => { s with args := s.args ++ [⟨key, val⟩] }

/-- `evhtp_kvs_add_kv(query_args, evhtp_kv_new(key_buf, val_buf, ..))`. -/
def addPair (s : QueryBuffers) : Except QueryStop QueryBuffers := s.val.string.bind fun val => s.addKey (some val)

end QueryBuffers

def bufferKey (flags : QueryFlags) (ch : UInt8) (s : QueryBuffers) : Except QueryStop QueryBuffers :=
  let addNull := if flags.allowNullVals then (s.addKey none).bind QueryBuffers.clear else .error .error
  if ch = 61 then .ok { s with state := .val }
  else if ch = 37 then s.putKey ch (if flags.ignoreHex then .key else .keyHex1)
  else if ch = 59 then
    if flags.treatSemicolonAsSep then addNull else s.putKey ch .key
  else if ch = 38 then addNull
  else s.putKey ch .key

def bufferVal (flags : QueryFlags) (ch : UInt8) (s : QueryBuffers) : Except QueryStop QueryBuffers :=
  if ch = 59 then
    if flags.treatSemicolonAsSep then s.addPair.bind QueryBuffers.clear else s.putVal ch .val
  else if ch = 38 then s.addPair.bind QueryBuffers.clear
  else if ch = 37 then s.putVal ch (if flags.ignoreHex then .val else .valHex1)
  else s.putVal ch .val

def bufferStep (flags : QueryFlags) (len : Nat) (s : QueryBuffers) (ch : UInt8) : Except QueryStop QueryBuffers :=
  if s.key.idx ≥ len ∨ s.val.idx ≥ len then .error .error
  else
    match s.state with
    | .start => s.clear.bind (bufferKey flags ch)
    | .key => bufferKey flags ch s
    | .keyHex1 =>
      if isHexQueryChar ch then s.putKey ch .keyHex2
      else if s.key.idx + 2 ≥ len then .error .error
      else s.key.percentBefore.bind fun key => { s with key }.putKey ch .key
    | .keyHex2 => if isHexQueryChar ch then s.putKey ch .key else .error .error
    | .val => bufferVal flags ch s
    | .valHex1 =>
      if isHexQueryChar ch then s.putVal ch .valHex2
      else if s.val.idx + 2 ≥ len then .error .error
      else if s.val.idx = 0 then .error .error
      else s.val.percentBefore.bind fun val => { s with val }.putVal ch .val
    | .valHex2 => if isHexQueryChar ch then s.putVal ch .val else .error .error

def bufferEnd (flags : QueryFlags) (s : QueryBuffers) : Except QueryStop (List NullKv) :=
  if s.key.idx = 0 then .ok s.args
  else if s.val.idx ≠ 0 then s.addPair.map QueryBuffers.args
  else if s.state.pastVal then
    if flags.allowEmptyVals then (s.addKey (some [])).map QueryBuffers.args else .error .error
  else if flags.allowNullVals then (s.addKey none).map QueryBuffers.args
  else .error .error

/-- `evhtp_parse_query_wflags` with its buffers of `len + 1` bytes; `keyBytes` and `valBytes` are what is in them at first. -/
def evhtpParseQueryBuffered (keyBytes valBytes : Nat → UInt8) (query : Bytes) (flags : QueryFlags) :
    Except QueryStop (List NullKv) :=
  let buffer (bytes : Nat → UInt8) : TextBuffer := { buf := (List.range (query.length + 1)).map bytes }
  if 2 * query.length + 2 > 2 ^ 64 - 1 then .error .error
  else
    (query.foldlM (bufferStep flags query.length) { key := buffer keyBytes, val := buffer valBytes }).bind (bufferEnd flags)

end Evhtp
