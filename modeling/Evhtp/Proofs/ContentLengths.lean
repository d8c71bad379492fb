import Evhtp.Numtoa
import Evhtp.Proofs.ReplyHeaders

/-! The numbers of `Content-Length` in both directions. The words of `parse_u64` never wrap, so that it computes what
`parseU64` does, and the buffer of `evhtp_modp_u64toa` holds the text of `evhtpModpU64toa`. -/

namespace Evhtp

theorem charValue_digit (signed : Bool) (byte : UInt8) :
    ((charValue signed byte - 48).toUInt32 > 9 ↔ isDigit byte = false) ∧
      (isDigit byte = true → (charValue signed byte - 48).toUInt32.toNat = digitVal byte) := by
  have all : ∀ signed : Bool, ∀ i : Fin 256,
      ((charValue signed (UInt8.ofNat i) - 48).toUInt32 > 9 ↔ isDigit (UInt8.ofNat i) = false) ∧
        (isDigit (UInt8.ofNat i) = true → (charValue signed (UInt8.ofNat i) - 48).toUInt32.toNat = digitVal (UInt8.ofNat i)) := by
    decide +kernel
  simpa using all signed ⟨byte.toNat, byte.toNat_lt⟩

theorem parseU64Words_eq (signed : Bool) (v : UInt64) (s : Bytes) :
    (parseU64Words signed v s).map UInt64.toNat = parseU64Loop v.toNat s := by
  induction s generalizing v with
  | nil => rfl
  | cons byte rest ih =>
    obtain ⟨outside, value⟩ := charValue_digit signed byte
    rw [parseU64Words, parseU64Loop]
    by_cases digit : isDigit byte = true
    · have small := digitVal_lt digit
      have value := value digit
      generalize (charValue signed byte - 48).toUInt32 = d at outside value
      have word : d.toUInt64.toNat = digitVal byte := value
      have limit : ((18446744073709551615 - d.toUInt64) / 10).toNat = (2 ^ 64 - 1 - digitVal byte) / 10 := by
        have below : d.toUInt64 ≤ 18446744073709551615 := by
          rw [UInt64.le_iff_toNat_le, word]
          exact Nat.le_trans (Nat.le_of_lt small) (by decide)
        rw [UInt64.toNat_div, UInt64.toNat_sub_of_le _ _ below, word]
        rfl
      have same : (d > 9 ∨ v > (18446744073709551615 - d.toUInt64) / 10) ↔
          (isDigit byte = false ∨ v.toNat > (2 ^ 64 - 1 - digitVal byte) / 10) := by
        rw [outside, gt_iff_lt, UInt64.lt_iff_toNat_lt, limit]
      by_cases large : d > 9 ∨ v > (18446744073709551615 - d.toUInt64) / 10
      · rw [if_pos large, if_pos (same.mp large)]
        rfl
      · have fits := mt same.mpr large
        rw [if_neg large, if_neg fits, ih]
        have exact_ : (v * 10 + d.toUInt64).toNat = v.toNat * 10 + digitVal byte := by
          rw [UInt64.toNat_add, UInt64.toNat_mul, word, show (10 : UInt64).toNat = 10 from rfl]
          omega
        rw [exact_]
    · have other : isDigit byte = false := by simpa using digit
      rw [if_pos (.inl (outside.mpr other)), if_pos (.inl other)]
      rfl

theorem parseU64Word_eq (signed : Bool) (s : Bytes) : (parseU64Word signed s).map UInt64.toNat = parseU64 s := by
  unfold parseU64Word parseU64
  cases s with
  | nil => rfl
  | cons byte rest => exact parseU64Words_eq signed 0 (byte :: rest)

theorem parseU64Word_iff {signed : Bool} {s : Bytes} {v : UInt64} :
    parseU64Word signed s = some v ↔ Decimal s v.toNat := by
  have words := @parseU64_iff s v.toNat
  rw [← parseU64Word_eq signed, Option.map_eq_some_iff] at words
  constructor
  · intro parsed
    exact (words.mp ⟨v, parsed, rfl⟩).1
  · intro decimal
    obtain ⟨w, parsed, same⟩ := words.mpr ⟨decimal, v.toNat_lt⟩
    rw [parsed, UInt64.toNat_inj.mp same]

theorem Decimal.front {front rest : Bytes} {n : Nat} (decimal : Decimal (front ++ rest) n) (some : front ≠ []) :
    ∃ m ≤ n, Decimal front m := by
  obtain ⟨-, digits, rfl⟩ := decimal
  refine ⟨_, ?_, some, fun byte member => digits byte (List.mem_append_left _ member), rfl⟩
  rw [Numeral.value_append]
  exact Numeral.le_value digitVal (by decide) _ rest

theorem strreverse_eq (front text back : Bytes) :
    strreverse (front ++ (text ++ back)) front.length (front.length + text.length - 1) =
      some (front ++ (text.reverse ++ back)) := by
  induction text using List.bidirectionalRec generalizing front back with
  | nil =>
    rw [strreverse, if_neg (by simp)]
    rfl
  | singleton byte =>
    rw [strreverse, if_neg (by simp)]
    rfl
  | cons_append first middle last ih =>
    have place : front.length + (first :: (middle ++ [last])).length - 1 = (front ++ first :: middle).length := by
      simp
    have whole (byte : UInt8) : front ++ (first :: (middle ++ [byte]) ++ back) = (front ++ first :: middle) ++ byte :: back := by
      simp
    have readLast : (front ++ (first :: (middle ++ [last]) ++ back))[(front ++ first :: middle).length]? = some last := by
      rw [whole, List.getElem?_append_right (Nat.le_refl _), Nat.sub_self]
      rfl
    have readFirst : (front ++ (first :: (middle ++ [last]) ++ back))[front.length]? = some first := by
      rw [List.getElem?_append_right (Nat.le_refl _), Nat.sub_self]
      rfl
    have writeLast : Buffer.write (front ++ (first :: (middle ++ [last]) ++ back)) (front ++ first :: middle).length first =
        some (front ++ first :: (middle ++ [first] ++ back)) := by
      rw [whole, Buffer.write_append, ← whole]
      rfl
    have next := ih (front ++ [last]) (first :: back)
    have inner : (front ++ [last]).length + middle.length - 1 = (front ++ first :: middle).length - 1 := by
      simp
    rw [inner, List.length_append, List.length_singleton] at next
    rw [place, strreverse, if_pos (by simp), readLast, readFirst, Option.bind_some, Option.bind_some, writeLast,
      Option.bind_some, Buffer.write_append, Option.bind_some]
    simpa using next

theorem digitChar_word (value : UInt64) : (48 + value % 10).toUInt8 = digitChar (value.toNat % 10) := by
  apply UInt8.toNat_inj.mp
  rw [UInt64.toNat_toUInt8, UInt64.toNat_add, UInt64.toNat_mod, digitChar, UInt8.toNat_ofNat']
  simp

theorem div_ten (value : UInt64) : (value / 10).toNat = value.toNat / 10 :=
  UInt64.toNat_div value 10

theorem modpLoop_turn (buffer : Bytes) (wstr : Nat) (value : UInt64) :
    modpLoop buffer wstr value = (Buffer.write buffer wstr (digitChar (value.toNat % 10))).bind fun buffer =>
      if value.toNat / 10 = 0 then some (buffer, wstr + 1) else modpLoop buffer (wstr + 1) (value / 10) := by
  have last : value / 10 = 0 ↔ value.toNat / 10 = 0 := by
    rw [← UInt64.toNat_inj, div_ten]
    rfl
  conv_lhs => unfold modpLoop
  rw [digitChar_word]
  congr 1
  funext buffer
  by_cases done : value / 10 = 0
  · rw [dif_neg (not_not.mpr done), if_pos (last.mp done)]
  · rw [dif_pos done, if_neg (mt last.mpr done)]

theorem modpLoop_eq (buffer : Bytes) (wstr : Nat) {fuel : Nat} {value : UInt64} (fits : value.toNat < 10 ^ (fuel + 1)) :
    modpLoop buffer wstr value =
      (Buffer.copy buffer wstr (Numeral.digits 10 digitChar (fuel + 1) value.toNat)).map
        (·, wstr + (Numeral.digits 10 digitChar (fuel + 1) value.toNat).length) := by
  induction fuel generalizing buffer wstr value with
  | zero =>
    have done : value.toNat / 10 = 0 := by omega
    rw [modpLoop_turn, Numeral.digits, if_pos done, Buffer.copy]
    simp only [if_pos done]
    cases Buffer.write buffer wstr (digitChar (value.toNat % 10)) <;> rfl
  | succ fuel ih =>
    rw [modpLoop_turn, Numeral.digits, Buffer.copy]
    cases Buffer.write buffer wstr (digitChar (value.toNat % 10)) with
    | none => rfl
    | some buffer =>
      rw [Option.bind_some, Option.bind_some]
      by_cases done : value.toNat / 10 = 0
      · rw [if_pos done, if_pos done]
        rfl
      · have small : (value / 10).toNat < 10 ^ (fuel + 1) := by
          rw [div_ten]
          rw [Nat.pow_succ] at fits
          omega
        rw [if_neg done, if_neg done, ih buffer (wstr + 1) small, div_ten, List.length_cons, Nat.add_assoc wstr,
          Nat.add_comm 1]

/-- A decimal number without a leading zero, of at most twenty digits. -/
structure CanonicalDecimal (text : Bytes) (n : Nat) : Prop where
  decimal : Decimal text n
  leading : text.head? = some 48 → text = [48]
  short : text.length ≤ 20

theorem modpU64toa_canonical (value : UInt64) : CanonicalDecimal (evhtpModpU64toa value.toNat) value.toNat where
  decimal := evhtpModpSizetoa_decimal value.toNat_lt
  leading := by
    intro zero
    rw [evhtpModpU64toa, List.head?_reverse] at zero
    have fits : value.toNat < 10 ^ 20 := Nat.lt_trans value.toNat_lt (by decide)
    by_cases none : value.toNat = 0
    · rw [evhtpModpU64toa, none]
      rfl
    · obtain ⟨d, positive, below, last⟩ := @Numeral.getLast_digits _ 10 digitChar (by decide) 19 _ none fits
      have other : digitChar d ≠ 48 := fun same => positive ((digitChar_zero below).mp same)
      exact absurd (Option.some.inj (last.symm.trans zero)) other
  short := by
    rw [evhtpModpU64toa, List.length_reverse]
    exact Numeral.length_digits_le 20 _

/-- The buffer holds the text and its terminator, and the rest of it is as it was. -/
theorem evhtpModpU64toaBuffered_eq {str : Bytes} {value : UInt64} (room : (evhtpModpU64toa value.toNat).length < str.length) :
    evhtpModpU64toaBuffered str value =
      some (evhtpModpU64toa value.toNat ++ 0 :: str.drop ((evhtpModpU64toa value.toNat).length + 1),
        (evhtpModpU64toa value.toNat).length) := by
  have fits : value.toNat < 10 ^ (19 + 1) := Nat.lt_trans value.toNat_lt (by decide)
  unfold evhtpModpU64toa at room ⊢
  rw [List.length_reverse] at room ⊢
  rw [evhtpModpU64toaBuffered, modpLoop_eq str 0 fits]
  generalize Numeral.digits 10 digitChar (19 + 1) value.toNat = digits at room
  have copied := Buffer.copy_append [] (Nat.le_of_lt room)
  rw [List.nil_append, List.nil_append, List.length_nil] at copied
  obtain ⟨old, rest, behind⟩ : ∃ old rest, str.drop digits.length = old :: rest :=
    List.exists_cons_of_length_pos (by rw [List.length_drop]; omega)
  have left : str.drop (digits.length + 1) = rest := by
    rw [← List.drop_drop, behind]
    rfl
  rw [copied, Option.map_some, Option.bind_some, behind, left]
  dsimp only
  rw [Nat.zero_add, Buffer.write_append, Option.bind_some]
  have reversed := strreverse_eq [] digits (0 :: rest)
  rw [List.nil_append, List.nil_append, List.length_nil, Nat.zero_add] at reversed
  rw [reversed]
  rfl

/-- `parse_u64` accepts exactly the decimal numbers of 64 bits, and reads back what `evhtp_modp_u64toa` writes. -/
theorem content_length_exact (signed : Bool) :
    (∀ s n, (∃ v, parseU64Word signed s = some v ∧ v.toNat = n) ↔ Decimal s n ∧ n ≤ 2 ^ 64 - 1) ∧
      (∀ front rest v, parseU64Word signed (front ++ rest) = some v → front ≠ [] →
        ∃ w, parseU64Word signed front = some w ∧ Decimal front w.toNat) ∧
      ∀ v : UInt64, ∃ text, CanonicalDecimal text v.toNat ∧ parseU64Word signed text = some v ∧
        ∀ str : Bytes, text.length < str.length →
          evhtpModpU64toaBuffered str v = some (text ++ 0 :: str.drop (text.length + 1), text.length) := by
  refine ⟨fun s n => ?_, fun front rest v parsed some => ?_, fun v => ?_⟩
  · constructor
    · rintro ⟨v, parsed, rfl⟩
      exact ⟨parseU64Word_iff.mp parsed, Nat.le_sub_one_of_lt v.toNat_lt⟩
    · rintro ⟨decimal, below⟩
      have value : (UInt64.ofNat n).toNat = n := UInt64.toNat_ofNat_of_lt' (Nat.lt_of_le_of_lt below (by decide))
      exact ⟨UInt64.ofNat n, parseU64Word_iff.mpr (by rwa [value]), value⟩
  · obtain ⟨m, below, decimal⟩ := (parseU64Word_iff.mp parsed).front some
    have value : (UInt64.ofNat m).toNat = m := UInt64.toNat_ofNat_of_lt' (Nat.lt_of_le_of_lt below v.toNat_lt)
    have read : Decimal front (UInt64.ofNat m).toNat := by rwa [value]
    exact ⟨UInt64.ofNat m, parseU64Word_iff.mpr read, read⟩
  · have canonical := modpU64toa_canonical v
    exact ⟨_, canonical, parseU64Word_iff.mpr canonical.decimal, fun str room => evhtpModpU64toaBuffered_eq room⟩

theorem evhtpModpU64toaBuffered_room {str : Bytes} {value : UInt64} {written : Bytes × Nat}
    (printed : evhtpModpU64toaBuffered str value = some written) : (evhtpModpU64toa value.toNat).length < str.length := by
  have fits : value.toNat < 10 ^ (19 + 1) := Nat.lt_trans value.toNat_lt (by decide)
  rw [evhtpModpU64toaBuffered, modpLoop_eq str 0 fits] at printed
  obtain ⟨_, looped, ended⟩ := Option.bind_eq_some_iff.mp printed
  obtain ⟨buffer, copied, rfl⟩ := Option.map_eq_some_iff.mp looped
  obtain ⟨_, last, _⟩ := Option.bind_eq_some_iff.mp ended
  have whole : (Buffer.copy str 0 (Numeral.digits 10 digitChar 20 value.toNat ++ [0])).isSome := by
    rw [Buffer.copy_values_append, copied, Option.bind_some, Buffer.copy, last]
    rfl
  simpa [evhtpModpU64toa, Buffer.copy_isSome_iff, Nat.succ_le_iff] using whole

/-- The `status_str[4]` of an HTTP/2 reply has room for codes of three digits; a longer one is written past its end. -/
theorem status_str_fits {str : Bytes} (four : str.length = 4) (code : UInt32) :
    (code.toNat < 1000 → ∃ text rest, CanonicalDecimal text code.toNat ∧
      evhtpModpU32toaBuffered str code = some (text ++ 0 :: rest, text.length)) ∧
    (1000 ≤ code.toNat → evhtpModpU32toaBuffered str code = none) := by
  have word : code.toUInt64.toNat = code.toNat := UInt32.toNat_toUInt64 code
  have short : (evhtpModpU64toa code.toUInt64.toNat).length < str.length ↔ code.toNat < 1000 := by
    rw [four, word, evhtpModpU64toa, List.length_reverse]
    simp only [Numeral.digits]
    grind
  constructor
  · intro small
    exact ⟨_, _, word ▸ modpU64toa_canonical code.toUInt64, evhtpModpU64toaBuffered_eq (short.mpr small)⟩
  · intro large
    cases printed : evhtpModpU32toaBuffered str code with
    | none => rfl
    | some written => exact absurd (short.mp (evhtpModpU64toaBuffered_room printed)) (Nat.not_lt.mpr large)

theorem status_str_fits_ok :
    (∃ text rest, CanonicalDecimal text 200 ∧ evhtpModpU32toaBuffered [0, 0, 0, 0] 200 = some (text ++ 0 :: rest, text.length)) ∧
      evhtpModpU32toaBuffered [0, 0, 0, 0] 1000 = none :=
  ⟨(status_str_fits rfl 200).1 (by decide), (status_str_fits rfl 1000).2 (by decide)⟩

end Evhtp
