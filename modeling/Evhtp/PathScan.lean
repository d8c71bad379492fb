import Evhtp.Routing

/-! `htp__path_new_` with every read of its input. Allocation succeeds here; a read outside of the `len` bytes at `data` is
a fault of its own, which no result of the function stands for. -/

namespace Evhtp

/-- Why there is no result: `goto error`, or a read outside of the data. -/
inductive PathStop where
  | error | fault
  deriving DecidableEq, Repr

structure PathParts where
  full : Bytes
  path : Option Bytes
  file : Option Bytes
  deriving DecidableEq, Repr

/-- `data[i]`. -/
def readByte (data : Bytes) (i : Nat) : Except PathStop UInt8 :=
  match data[i]? with
  | some byte => .ok byte
  | none => .error .fault

/-- `htp__strndup_(data + start, n)`, which ends at a NUL. -/
def htpStrndup (data : Bytes) (start : Nat) : Nat → Except PathStop Bytes
  | 0 => .ok []
  | n + 1 => (readByte data start).bind fun byte =>
    if byte = 0 then .ok [] else (htpStrndup data (start + 1) n).map (byte :: ·)

/-- The loop from `i` backwards: where it stops. -/
def backToSlash (data : Bytes) : Nat → Except PathStop Nat
  | 0 => .ok 0
  | i + 1 => (readByte data (i + 1)).bind fun byte => if byte = 47 then .ok (i + 1) else backToSlash data i

/-- `path` and `file` where the loop has stopped at `i`. -/
def splitAtSlash (data : Bytes) (i : Nat) : Except PathStop (Option Bytes × Option Bytes) :=
  if i ≠ 0 then
    let pathLen := i + 1
    let fileLen := data.length - (i + 1)
    if pathLen > data.length then .error .error
    else if i + 1 + fileLen > data.length then .error .error
    else
      (htpStrndup data 0 pathLen).bind fun path =>
        (htpStrndup data (i + 1) fileLen).map fun file => (some path, some file)
  else
    (readByte data 0).bind fun byte =>
      if byte = 47 then
        if data.length > 1 then (htpStrndup data 1 (data.length - 1)).map fun file => (some (ascii "/"), some file)
        else .ok (some (ascii "/"), none)
      else .ok (none, none)

def pathAndFile (data : Bytes) : Except PathStop (Option Bytes × Option Bytes) :=
  if data.length = 0 then .ok (some (ascii "/"), none)
  else
    (readByte data 0).bind fun first =>
      if first ≠ 47 then (htpStrndup data 0 data.length).map fun file => (some (ascii "/"), some file)
      else
        (readByte data (data.length - 1)).bind fun last =>
          if last ≠ 47 then (backToSlash data (data.length - 1)).bind (splitAtSlash data)
          else (htpStrndup data 0 data.length).map fun path => (some path, none)

def htpPathNew (data : Bytes) : Except PathStop PathParts :=
  (pathAndFile data).bind fun parts =>
    (if data.length ≠ 0 then htpStrndup data 0 data.length else .ok (ascii "/")).map fun full => ⟨full, parts.1, parts.2⟩

end Evhtp
