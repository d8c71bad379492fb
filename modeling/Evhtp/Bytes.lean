import Mathlib.Algebra.Group.Nat.Defs
import Mathlib.Data.List.Basic
import Mathlib.Data.List.DropRight

/-! Byte strings, and the C library functions the sources apply to them. A `char` array with its
length is a list of bytes; a pointer into it together with the bytes left is a suffix of that list. -/

namespace Evhtp

abbrev Bytes := List UInt8

def ascii (text : String) : Bytes := text.toList.map fun char => UInt8.ofNat char.toNat

def CR : UInt8 := 13
def LF : UInt8 := 10
def SP : UInt8 := 32
def HTAB : UInt8 := 9
def COLON : UInt8 := 58

def crlf : Bytes := [CR, LF]

def isDigit (byte : UInt8) : Bool := 48 ≤ byte && byte ≤ 57

def isBlank (byte : UInt8) : Bool := byte == SP || byte == HTAB

def toLower (byte : UInt8) : UInt8 := if 65 ≤ byte && byte ≤ 90 then byte + 32 else byte

/-- The bit that a lookup sets tells no letters apart that differ in more than their case. -/
theorem toLower_bit (byte : UInt8) : toLower byte ||| 0x20 = byte ||| 0x20 := by
  have all : ∀ i : Fin 256, toLower (UInt8.ofNat i) ||| 0x20 = UInt8.ofNat i ||| 0x20 := by decide +kernel
  simpa using all ⟨byte.toNat, byte.toNat_lt⟩

/-- A C string ends at its first NUL. -/
def cString (bytes : Bytes) : Bytes := bytes.takeWhile (· != 0)

theorem cString_self {text : Bytes} (noNul : 0 ∉ text) : cString text = text := by
  rw [cString, List.takeWhile_eq_self_iff]
  intro byte member
  have differs : byte ≠ 0 := fun zero => noNul (zero ▸ member)
  simpa using differs

/-- What is behind the terminator makes no difference. -/
theorem cString_ended (text rest : Bytes) : cString (text ++ 0 :: rest) = cString text := by
  unfold cString
  induction text with
  | nil => rfl
  | cons byte text ih => rw [List.cons_append, List.takeWhile_cons, List.takeWhile_cons, ih]

theorem cString_eq {text : Bytes} (noNul : 0 ∉ text) (rest : Bytes) : cString (text ++ 0 :: rest) = text := by
  rw [cString_ended, cString_self noNul]

def trimBlanks (bytes : Bytes) : Bytes := (bytes.dropWhile isBlank).rdropWhile isBlank

def digitVal (byte : UInt8) : Nat := byte.toNat - 48

/-- The text of a digit below ten, `'0' + value`. -/
def digitChar (value : Nat) : UInt8 := UInt8.ofNat (48 + value)

end Evhtp
