import Evhtp.Bytes
import Evhtp.Lib.Buffer

/-! `evhtp_unescape_string`. It writes to the memory at `*out` and leaves `*out` behind what it has written. -/

namespace Evhtp

inductive UnscapeState where
  | start | hex1 | hex2
  deriving DecidableEq, Repr

/-- The locals of the loop, and the memory `optr` points into. -/
structure Unescaping where
  state : UnscapeState := .start
  d : UInt8 := 0
  memory : Bytes
  optr : Nat
  deriving DecidableEq, Repr

/-- `*optr++ = ch`. -/
def Unescaping.put (s : Unescaping) (ch : UInt8) : Option Unescaping :=
  (Buffer.write s.memory s.optr ch).map fun memory => { s with memory, optr := s.optr + 1 }

def unescapeDigit (ch : UInt8) : Option UInt8 :=
  if 48 ≤ ch ∧ ch ≤ 57 then some (ch - 48)
  else
    let c := ch ||| 0x20
    if 97 ≤ c ∧ c ≤ 102 then some (c - 97 + 10) else none

def unescapeStep (s : Unescaping) (ch : UInt8) : Option Unescaping :=
  match s.state with
  | .start => if ch = 37 then some { s with state := .hex1 } else s.put ch
  | .hex1 =>
    match unescapeDigit ch with
    | some d => some { s with d, state := .hex2 }
    | none => { s with state := .start }.put ch
  | .hex2 =>
    match unescapeDigit ch with
    | some digit => { s with state := .start }.put ((s.d <<< 4) + digit)
    | none => some { s with state := .start }

/-- `evhtp_unescape_string`: the memory and `*out` after it. -/
def evhtpUnescapeString (memory : Bytes) (out : Nat) (str : Bytes) : Option (Bytes × Nat) :=
  (str.foldlM unescapeStep { memory, optr := out }).map fun s => (s.memory, s.optr)

end Evhtp
