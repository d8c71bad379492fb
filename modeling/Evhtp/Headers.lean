import Evhtp.Request
import Evhtp.Lib.Buffer

/-! Lists of keys and values: how an entry is found by its name, how the entries of a name are counted, and how they are
joined. A key or value is given by the bytes before its terminator; `klen` and `vlen` are their numbers. -/

namespace Evhtp

/-- `match_header_key`, for a length that is not beyond the end of the key. -/
def matchHeaderKeyN (key : Bytes) (len : Nat) (kv : NullKv) : Bool :=
  kv.key.length == len && kv.key.map (· ||| 0x20) == (key.take len).map (· ||| 0x20)

def evhtpKvFindN (kvs : List NullKv) (key : Bytes) (len : Nat) : Option Bytes :=
  (kvs.find? (matchHeaderKeyN key len)).bind NullKv.val

def evhtpKvsFindKvN (kvs : List NullKv) (key : Bytes) (len : Nat) : Option NullKv := kvs.find? (matchHeaderKeyN key len)

def kvsCountKvN (kvs : List NullKv) (key : Bytes) (len : Nat) : Nat := kvs.countP (matchHeaderKeyN key len)

/-- `evhtp_kvs_count_kv_n`: the length it is given is not used. -/
def evhtpKvsCountKvN (kvs : List NullKv) (key : Bytes) (_ : Nat) : Nat := kvsCountKvN kvs key key.length

/-- `vlen` bytes at `val`. -/
def NullKv.value (kv : NullKv) : Bytes := kv.val.getD []

/-- `kv->klen == len && strcasecmp(kv->key, key) == 0`. -/
def collapses (key : Bytes) (kv : NullKv) : Bool :=
  kv.key.length == key.length && kv.key.map toLower == key.map toLower

def MAX_RESULTS : Nat := 100

/-- The locals of the first loop of `evhtp_collapse_headers`. An entry is known by its place in the list. -/
structure Collapsing where
  results : List (NullKv × Nat) := []
  vlen : Nat := 0
  deriving DecidableEq, Repr

def collapseStep (key : Bytes) (s : Collapsing) (entry : NullKv × Nat) : Collapsing :=
  if s.results.length = MAX_RESULTS then s
  else if collapses key entry.1 then
    { results := s.results ++ [entry], vlen := if s.results.length > 0 then s.vlen + 2 else s.vlen }
  else s

def collapseSelect (kvs : List NullKv) (key : Bytes) : Collapsing := kvs.zipIdx.foldl (collapseStep key) {}

/-- The loop that joins the values: the buffer and `curp` after it. -/
def joinLoop (val : Bytes) (curp i : Nat) : List NullKv → Option (Bytes × Nat)
  | [] => some (val, curp)
  | kv :: rest =>
    let separator := if i > 0 then [44, 32] else []
    (Buffer.copy val curp separator).bind fun val =>
      (Buffer.copy val (curp + separator.length) kv.value).bind fun val =>
        joinLoop val (curp + separator.length + kv.value.length) (i + 1) rest

def removeResults (kvs : List NullKv) (results : List (NullKv × Nat)) : List NullKv :=
  (kvs.zipIdx.filter (· ∉ results)).map Prod.fst

/-- `evhtp_collapse_headers`. `garbage` is what `malloc` leaves in the buffer. -/
def evhtpCollapseHeaders (garbage : Nat → UInt8) (kvs : List NullKv) (key : Bytes) : Option (List NullKv) :=
  let found := collapseSelect kvs key
  if found.results.length ≤ 1 then some kvs
  else
    (joinLoop ((List.range (found.vlen + 1)).map garbage) 0 0 (found.results.map Prod.fst)).bind fun joined =>
      (Buffer.write joined.1 joined.2 0).map fun val =>
        removeResults kvs found.results ++ [⟨key, some (cString val)⟩]

end Evhtp
