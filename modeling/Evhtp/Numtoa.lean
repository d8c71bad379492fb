import Evhtp.Bytes
import Evhtp.Lib.Buffer

/-! Numbers in their machine words: `evhtp_modp_u64toa` with the buffer it writes to, and `parse_u64` with the integer
conversions of its digits. A read or a write outside of the buffer has no result. -/

namespace Evhtp

/-- `strreverse`, where `first` and `last` are the positions `begin` and `end` point to. -/
def strreverse (buffer : Bytes) (first last : Nat) : Option Bytes :=
  if last > first then
    buffer[last]?.bind fun aux => buffer[first]?.bind fun byte =>
      (Buffer.write buffer last byte).bind fun buffer => (Buffer.write buffer first aux).bind fun buffer =>
        strreverse buffer (first + 1) (last - 1)
  else some buffer
termination_by last - first
decreasing_by omega

theorem div_ten_lt {value : UInt64} (more : value / 10 ≠ 0) : (value / 10).toNat < value.toNat := by
  have positive : (value / 10).toNat ≠ 0 := fun zero => more (UInt64.toNat_inj.mp zero)
  rw [UInt64.toNat_div, show (10 : UInt64).toNat = 10 from rfl] at positive ⊢
  omega

/-- The conversion: the digits of `value`, the last one first, from `wstr` on. -/
def modpLoop (buffer : Bytes) (wstr : Nat) (value : UInt64) : Option (Bytes × Nat) :=
  (Buffer.write buffer wstr (48 + value % 10).toUInt8).bind fun buffer =>
    if more : value / 10 ≠ 0 then
      have := div_ten_lt more
      modpLoop buffer (wstr + 1) (value / 10)
    else some (buffer, wstr + 1)
termination_by value.toNat
decreasing_by exact this

/-- `evhtp_modp_u64toa`: the buffer `str` after it, and what it returns. -/
def evhtpModpU64toaBuffered (str : Bytes) (value : UInt64) : Option (Bytes × Nat) :=
  (modpLoop str 0 value).bind fun written =>
    (Buffer.write written.1 written.2 0).bind fun buffer =>
      (strreverse buffer 0 (written.2 - 1)).map fun buffer => (buffer, written.2)

/-- `evhtp_modp_u32toa`, which differs in the size of its words. -/
def evhtpModpU32toaBuffered (str : Bytes) (value : UInt32) : Option (Bytes × Nat) := evhtpModpU64toaBuffered str value.toUInt64

/-- A `char` as an `int`; whether it is signed depends on the platform. -/
def charValue (signed : Bool) (byte : UInt8) : Int32 := if signed then byte.toInt8.toInt32 else byte.toUInt32.toInt32

def parseU64Words (signed : Bool) (v : UInt64) : Bytes → Option UInt64
  | [] => some v
  | byte :: rest =>
    let d := (charValue signed byte - 48).toUInt32
    if d > 9 ∨ v > (18446744073709551615 - d.toUInt64) / 10 then none
    else parseU64Words signed (v * 10 + d.toUInt64) rest

/-- `parse_u64`. -/
def parseU64Word (signed : Bool) (s : Bytes) : Option UInt64 := if s.length = 0 then none else parseU64Words signed 0 s

end Evhtp
