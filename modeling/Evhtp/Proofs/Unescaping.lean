import Evhtp.Unescape
import Evhtp.Proofs.Numbers

/-! Percent-decoding inverts percent-encoding, and no string grows by it. -/

namespace Evhtp

/-- A byte string and one of its encodings: each byte stands for itself, or is given by two digits of any case. -/
inductive PercentEncodes : Bytes → Bytes → Prop
  | nil : PercentEncodes [] []
  | literal {bytes text : Bytes} {byte : UInt8} : byte ≠ 37 → PercentEncodes bytes text →
      PercentEncodes (byte :: bytes) (byte :: text)
  | escape {bytes text : Bytes} {byte high low : UInt8} {first second : Nat} : hexval high = some first →
      hexval low = some second → byte.toNat = 16 * first + second → PercentEncodes bytes text →
      PercentEncodes (byte :: bytes) (37 :: high :: low :: text)

theorem unescapeDigit_hexval (ch : UInt8) : unescapeDigit ch = (hexval ch).map UInt8.ofNat := by
  have all : ∀ i : Fin 256, unescapeDigit (UInt8.ofNat i) = (hexval (UInt8.ofNat i)).map UInt8.ofNat := by decide +kernel
  simpa using all ⟨ch.toNat, ch.toNat_lt⟩

theorem unescape_digits {byte : UInt8} {first second : Nat} (high : first < 16) (low : second < 16)
    (value : byte.toNat = 16 * first + second) : (UInt8.ofNat first <<< 4) + UInt8.ofNat second = byte := by
  have all : ∀ i j : Fin 16, (UInt8.ofNat i <<< 4) + UInt8.ofNat j = UInt8.ofNat (16 * i + j) := by decide +kernel
  have joined := all ⟨first, high⟩ ⟨second, low⟩
  rw [joined, ← value]
  exact UInt8.ofNat_toNat

/-- The loop with everything before `*out` in `front`, and `room` from there on. -/
def unescapingAt (state : UnscapeState) (d : UInt8) (front room : Bytes) : Unescaping :=
  { state, d, memory := front ++ room, optr := front.length }

theorem put_at (state : UnscapeState) (d ch old : UInt8) (front room : Bytes) :
    (unescapingAt state d front (old :: room)).put ch = some (unescapingAt state d (front ++ [ch]) room) := by
  unfold Unescaping.put unescapingAt
  rw [Buffer.write_append]
  simp

/-- What the loop does when it has written `bytes` and there is room left. -/
theorem unescape_encoded {bytes text : Bytes} (encodes : PercentEncodes bytes text) (d : UInt8) (front : Bytes) {room : Bytes}
    (fits : bytes.length ≤ room.length) :
    ∃ d', text.foldlM unescapeStep (unescapingAt .start d front room) =
      some (unescapingAt .start d' (front ++ bytes) (room.drop bytes.length)) := by
  induction encodes generalizing d front room with
  | nil => exact ⟨d, by simp⟩
  | @literal bytes text byte notPercent _ ih =>
    cases room with
    | nil => cases fits
    | cons old room =>
      obtain ⟨d', rest⟩ := ih d (front ++ [byte]) (Nat.le_of_succ_le_succ fits)
      have step : unescapeStep (unescapingAt .start d front (old :: room)) byte =
          some (unescapingAt .start d (front ++ [byte]) room) := by
        simp only [unescapeStep, unescapingAt, if_neg notPercent]
        exact put_at .start d byte old front room
      refine ⟨d', ?_⟩
      rw [List.foldlM_cons, step]
      simpa using rest
  | @escape bytes text byte high low first second upper lower value _ ih =>
    cases room with
    | nil => cases fits
    | cons old room =>
      obtain ⟨d', rest⟩ := ih (UInt8.ofNat first) (front ++ [byte]) (Nat.le_of_succ_le_succ fits)
      have percent : unescapeStep (unescapingAt .start d front (old :: room)) 37 =
          some (unescapingAt .hex1 d front (old :: room)) := rfl
      have opens : unescapeStep (unescapingAt .hex1 d front (old :: room)) high =
          some (unescapingAt .hex2 (UInt8.ofNat first) front (old :: room)) := by
        simp [unescapeStep, unescapingAt, unescapeDigit_hexval, upper]
      have closes : unescapeStep (unescapingAt .hex2 (UInt8.ofNat first) front (old :: room)) low =
          some (unescapingAt .start (UInt8.ofNat first) (front ++ [byte]) room) := by
        simp only [unescapeStep, unescapingAt, unescapeDigit_hexval, lower, Option.map_some]
        rw [unescape_digits (hexval_lt upper) (hexval_lt lower) value]
        exact put_at .start (UInt8.ofNat first) byte old front room
      refine ⟨d', ?_⟩
      rw [List.foldlM_cons, percent, Option.bind_eq_bind, Option.bind_some, List.foldlM_cons, opens, Option.bind_eq_bind,
        Option.bind_some, List.foldlM_cons, closes]
      simpa using rest

theorem unescapeStep_writes (state : UnscapeState) (d ch : UInt8) (front : Bytes) {room : Bytes} (fits : room ≠ []) :
    ∃ state' d' written, written.length ≤ 1 ∧ unescapeStep (unescapingAt state d front room) ch =
      some (unescapingAt state' d' (front ++ written) (room.drop written.length)) := by
  obtain ⟨old, room, rfl⟩ := List.exists_cons_of_ne_nil fits
  have silent : ∀ state' d', ∃ state'' d'' written, written.length ≤ 1 ∧ some (unescapingAt state' d' front (old :: room)) =
      some (unescapingAt state'' d'' (front ++ written) ((old :: room).drop written.length)) :=
    fun state' d' => ⟨state', d', [], by simp, by simp⟩
  have puts : ∀ byte state', ∃ state'' d'' written, written.length ≤ 1 ∧
      (unescapingAt state' d front (old :: room)).put byte =
        some (unescapingAt state'' d'' (front ++ written) ((old :: room).drop written.length)) :=
    fun byte state' => ⟨state', d, [byte], by simp, put_at state' d byte old front room⟩
  cases state with
  | start =>
    simp only [unescapeStep, unescapingAt]
    split
    · exact silent .hex1 d
    · exact puts ch .start
  | hex1 =>
    simp only [unescapeStep, unescapingAt]
    split
    · next digit _ => exact silent .hex2 digit
    · exact puts ch .start
  | hex2 =>
    simp only [unescapeStep, unescapingAt]
    split
    · next digit _ => exact puts ((d <<< 4) + digit) .start
    · exact silent .start d

theorem unescape_writes (text : Bytes) (state : UnscapeState) (d : UInt8) (front : Bytes) {room : Bytes}
    (fits : text.length ≤ room.length) :
    ∃ state' d' written, written.length ≤ text.length ∧ text.foldlM unescapeStep (unescapingAt state d front room) =
      some (unescapingAt state' d' (front ++ written) (room.drop written.length)) := by
  induction text generalizing state d front room with
  | nil => exact ⟨state, d, [], Nat.le_refl _, by simp⟩
  | cons ch text ih =>
    have some : room ≠ [] := List.ne_nil_of_length_pos (Nat.lt_of_lt_of_le (Nat.succ_pos _) fits)
    obtain ⟨state₁, d₁, first, short, step⟩ := unescapeStep_writes state d ch front some
    have left : text.length ≤ (room.drop first.length).length := by
      rw [List.length_drop]
      rw [List.length_cons] at fits
      omega
    obtain ⟨state₂, d₂, second, few, rest⟩ := ih state₁ d₁ (front ++ first) left
    refine ⟨state₂, d₂, first ++ second, ?_, ?_⟩
    · rw [List.length_append, List.length_cons]
      omega
    · rw [List.foldlM_cons, step, Option.bind_eq_bind, Option.bind_some, rest, List.append_assoc, List.drop_drop,
        List.length_append]

/-- `evhtp_unescape_string` writes the bytes that were encoded and leaves `*out` behind them, and never more than it
reads. -/
theorem unescape_inverts :
    (∀ {bytes text : Bytes}, PercentEncodes bytes text → ∀ front room : Bytes, bytes.length ≤ room.length →
      evhtpUnescapeString (front ++ room) front.length text =
        some (front ++ bytes ++ room.drop bytes.length, front.length + bytes.length)) ∧
    ∀ text front room : Bytes, text.length ≤ room.length → ∃ written : Bytes, written.length ≤ text.length ∧
      evhtpUnescapeString (front ++ room) front.length text =
        some (front ++ written ++ room.drop written.length, front.length + written.length) := by
  constructor
  · intro bytes text encodes front room fits
    obtain ⟨d, decoded⟩ := unescape_encoded encodes 0 front fits
    unfold unescapingAt at decoded
    simp [evhtpUnescapeString, decoded]
  · intro text front room fits
    obtain ⟨state, d, written, few, decoded⟩ := unescape_writes text .start 0 front fits
    unfold unescapingAt at decoded
    exact ⟨written, few, by simp [evhtpUnescapeString, decoded]⟩

/-- An escape that is cut off, behind one that is not. -/
theorem unescape_inverts_space :
    evhtpUnescapeString [9, 0, 0, 0] 1 (ascii "a%2f") = some ([9, 97, 47, 0], 3) ∧
      ∃ written : Bytes, written.length ≤ 3 ∧
        evhtpUnescapeString [9, 0, 0, 0] 1 (ascii "a%2") =
          some ([9] ++ written ++ [0, 0, 0].drop written.length, 1 + written.length) :=
  have slash : PercentEncodes [47] (ascii "%2f") :=
    @PercentEncodes.escape [] [] 47 50 102 2 15 (by decide) (by decide) (by decide) .nil
  ⟨unescape_inverts.1 (.literal (by decide) slash) [9] [0, 0, 0] (by decide),
    unescape_inverts.2 (ascii "a%2") [9] [0, 0, 0] (by decide)⟩

end Evhtp
