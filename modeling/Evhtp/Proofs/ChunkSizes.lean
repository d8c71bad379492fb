import Evhtp.Proofs.Numbers

/-! Chunk sizes. The parser accepts a size line if and only if it is digits, blanks and perhaps an extension, and the
size is what the digits say. The digits are described by their letters, not by the bits `hexval` looks at. -/

namespace Evhtp

def hexDigits : Bytes := ascii "0123456789abcdef"

/-- The content of a size line: 1 to 15 digits of either case, blanks, and nothing or `;` and any bytes. -/
def SizeText (s : Bytes) (n : Nat) : Prop :=
  ∃ digits blanks extension, s = digits ++ (blanks ++ extension) ∧
    (1 ≤ digits.length ∧ digits.length ≤ 15) ∧ (∀ byte ∈ digits, toLower byte ∈ hexDigits) ∧
    (∀ byte ∈ blanks, byte = SP ∨ byte = HTAB) ∧ (extension = [] ∨ ∃ rest, extension = 59 :: rest) ∧
    n = Numeral.value 16 (fun byte => hexDigits.idxOf (toLower byte)) 0 digits

theorem hexval_eq (byte : UInt8) :
    hexval byte = if toLower byte ∈ hexDigits then some (hexDigits.idxOf (toLower byte)) else none := by
  have all : ∀ i : Fin 256, hexval (UInt8.ofNat i) =
      if toLower (UInt8.ofNat i) ∈ hexDigits then some (hexDigits.idxOf (toLower (UInt8.ofNat i))) else none := by
    decide +kernel
  simpa using all ⟨byte.toNat, byte.toNat_lt⟩

theorem hexval_isSome {byte : UInt8} : (hexval byte).isSome = true ↔ toLower byte ∈ hexDigits := by
  rw [hexval_eq]
  split <;> simp [*]

theorem hexDigitVal_eq {byte : UInt8} (digit : toLower byte ∈ hexDigits) :
    hexDigitVal byte = hexDigits.idxOf (toLower byte) := by
  rw [hexDigitVal, hexval_eq, if_pos digit, Option.getD_some]

theorem hexValue_eq {digits : Bytes} (hex : ∀ byte ∈ digits, toLower byte ∈ hexDigits) (start : Nat) :
    Numeral.value 16 hexDigitVal start digits =
      Numeral.value 16 (fun byte => hexDigits.idxOf (toLower byte)) start digits := by
  refine List.foldl_ext _ _ _ fun value byte member => ?_
  rw [hexDigitVal_eq (hex byte member)]

theorem chunkDigits_shape {k v m w : Nat} {s rest : Bytes} (read : chunkDigits k v s = some (m, w, rest)) (short : k ≤ 15) :
    ∃ digits, s = digits ++ rest ∧ (∀ byte ∈ digits, (hexval byte).isSome = true) ∧ m = k + digits.length ∧ m ≤ 15 := by
  induction s generalizing k v with
  | nil =>
    cases read
    exact ⟨[], rfl, by simp, rfl, short⟩
  | cons byte s ih =>
    rw [chunkDigits] at read
    split at read
    · cases read
      exact ⟨[], rfl, by simp, rfl, short⟩
    · next digit found =>
      split at read
      · cases read
      · next room =>
        obtain ⟨digits, rfl, hex, count, below⟩ := ih read (by omega)
        refine ⟨byte :: digits, rfl, ?_, by rw [count, List.length_cons]; omega, below⟩
        exact List.forall_mem_cons.mpr ⟨by rw [found]; rfl, hex⟩

theorem chunkExtension_shape {text : Bytes} (accepted : chunkExtension text = true) : ∃ blanks extension,
    text = blanks ++ extension ∧ (∀ byte ∈ blanks, isBlank byte = true) ∧ (extension = [] ∨ extension.head? = some 59) := by
  induction text with
  | nil => exact ⟨[], [], rfl, by simp, .inl rfl⟩
  | cons byte text ih =>
    rw [chunkExtension] at accepted
    split at accepted
    · next mark => exact ⟨[], byte :: text, rfl, by simp, .inr (by rw [mark]; rfl)⟩
    · split at accepted
      · next blank =>
        obtain ⟨blanks, extension, rfl, all, marked⟩ := ih accepted
        exact ⟨byte :: blanks, extension, rfl, List.forall_mem_cons.mpr ⟨blank, all⟩, marked⟩
      · cases accepted

theorem parseChunkSize_shape {s : Bytes} {n : Nat} (parsed : parseChunkSize s = some n) : ∃ digits blanks extension,
    s = digits ++ (blanks ++ extension) ∧ (1 ≤ digits.length ∧ digits.length ≤ 15) ∧
      (∀ byte ∈ digits, (hexval byte).isSome = true) ∧ (∀ byte ∈ blanks, isBlank byte = true) ∧
      (extension = [] ∨ extension.head? = some 59) := by
  unfold parseChunkSize at parsed
  split at parsed
  · cases parsed
  · next read =>
    obtain ⟨digits, rfl, hex, rfl, below⟩ := chunkDigits_shape read (by decide)
    split at parsed
    · cases parsed
    · split at parsed
      · next accepted =>
        obtain ⟨blanks, extension, rfl, blank, marked⟩ := chunkExtension_shape accepted
        exact ⟨digits, blanks, extension, rfl, by omega, hex, blank, marked⟩
      · cases parsed

theorem isBlank_iff {byte : UInt8} : isBlank byte = true ↔ byte = SP ∨ byte = HTAB := by
  simp [isBlank]

theorem marked_iff {extension : Bytes} : extension.head? = some 59 ↔ ∃ rest, extension = 59 :: rest :=
  List.head?_eq_some_iff

theorem parseChunkSize_iff {s : Bytes} {n : Nat} : parseChunkSize s = some n ↔ SizeText s n := by
  constructor
  · intro parsed
    obtain ⟨digits, blanks, extension, rfl, count, hex, blank, marked⟩ := parseChunkSize_shape parsed
    have value := (parseChunkSize_line hex count blank marked).symm.trans parsed
    have letters : ∀ byte ∈ digits, toLower byte ∈ hexDigits := fun byte member => hexval_isSome.mp (hex byte member)
    refine ⟨digits, blanks, extension, rfl, count, letters, fun byte member => isBlank_iff.mp (blank byte member),
      marked.imp id marked_iff.mp, ?_⟩
    rw [← hexValue_eq letters]
    exact (Option.some.inj value).symm
  · rintro ⟨digits, blanks, extension, rfl, count, letters, blank, marked, rfl⟩
    rw [← hexValue_eq letters]
    exact parseChunkSize_line (fun byte member => hexval_isSome.mpr (letters byte member)) count
      (fun byte member => isBlank_iff.mpr (blank byte member)) (marked.imp id marked_iff.mpr)

theorem SizeText.bounded {s : Bytes} {n : Nat} (text : SizeText s n) : n < 2 ^ 60 := by
  obtain ⟨digits, blanks, extension, -, ⟨-, short⟩, letters, -, -, rfl⟩ := text
  have below : ∀ byte ∈ digits, hexDigits.idxOf (toLower byte) < 16 := fun byte member =>
    List.idxOf_lt_length_of_mem (letters byte member)
  calc Numeral.value 16 (fun byte => hexDigits.idxOf (toLower byte)) 0 digits < 16 ^ digits.length :=
        Numeral.value_lt below
    _ ≤ 16 ^ 15 := Nat.pow_le_pow_right (by decide) short
    _ = 2 ^ 60 := by decide

/-- `parse_chunk_size` accepts exactly the size lines, and the size does not wrap. -/
theorem chunk_size_exact (s : Bytes) (n : Nat) :
    (parseChunkSize s = some n ↔ SizeText s n) ∧ (SizeText s n → n < 2 ^ 60) :=
  ⟨parseChunkSize_iff, SizeText.bounded⟩

end Evhtp
