import Evhtp.QueryBuffers
import Evhtp.Lib.Follows

/-! The buffers of the query machine hold what the machine has read, with a terminator behind it, and no access is outside of
them. -/

namespace Evhtp

open Follows

structure TextBuffer.Holds (buffer : TextBuffer) (len : Nat) (text : Bytes) : Prop where
  size : buffer.buf.length = len + 1
  index : buffer.idx = text.length
  ended : ∃ rest, buffer.buf = text ++ 0 :: rest

namespace TextBuffer.Holds

variable {buffer : TextBuffer} {len : Nat} {text : Bytes}

theorem put (holds : buffer.Holds len text) (room : text.length < len) (ch : UInt8) :
    ∃ after, buffer.put ch = .ok after ∧ after.Holds len (text ++ [ch]) := by
  obtain ⟨buf, idx⟩ := buffer
  obtain ⟨size, index, rest, ended⟩ := holds
  dsimp only at size index ended
  subst ended index
  cases rest with
  | nil =>
    simp only [List.length_append, List.length_cons, List.length_nil] at size
    omega
  | cons old rest =>
    have next := Buffer.write_append (text ++ [ch]) rest old 0
    rw [List.length_append, List.append_assoc, List.append_assoc] at next
    refine ⟨⟨text ++ [ch] ++ 0 :: rest, text.length + 1⟩, ?_, ?_, by simp, rest, rfl⟩
    · simp only [TextBuffer.put, TextBuffer.store, Buffer.write_append, Except.bind]
      simp only [List.singleton_append, List.length_singleton] at next
      simp [next]
    · simpa using size

theorem clear (size : buffer.buf.length = len + 1) : ∃ after, buffer.clear = .ok after ∧ after.Holds len [] := by
  obtain ⟨buf, idx⟩ := buffer
  cases buf with
  | nil => cases size
  | cons old rest => exact ⟨⟨0 :: rest, 0⟩, rfl, size, rfl, rest, rfl⟩

theorem percentBefore {front : Bytes} (holds : buffer.Holds len (front ++ [37])) : buffer.percentBefore = .ok buffer := by
  obtain ⟨buf, idx⟩ := buffer
  obtain ⟨-, index, rest, ended⟩ := holds
  dsimp only at index ended
  rw [List.length_append, List.length_singleton] at index
  subst index ended
  have same := Buffer.write_append front (0 :: rest) 37 37
  rw [TextBuffer.percentBefore, TextBuffer.store, if_neg (Nat.succ_ne_zero _), Nat.add_sub_cancel, List.append_assoc,
    List.singleton_append, same]

theorem string (holds : buffer.Holds len text) : buffer.string = .ok (cString text) := by
  obtain ⟨rest, ended⟩ := holds.ended
  rw [TextBuffer.string, ended, if_pos (by simp), cString_ended]

end TextBuffer.Holds

/-- The buffers hold what the machine has read. Before the first byte nothing is known of them but their size. -/
structure Represents (len : Nat) (s : QueryBuffers) (q : QueryScan) : Prop where
  state : s.state = q.state
  args : s.args = q.args
  started : q.state ≠ .start → s.key.Holds len q.key ∧ s.val.Holds len q.val
  fresh : q.state = .start → q.key = [] ∧ q.val = [] ∧ s.key.idx = 0 ∧ s.val.idx = 0 ∧
    s.key.buf.length = len + 1 ∧ s.val.buf.length = len + 1
  keyPercent : q.state = .keyHex1 → ∃ front, q.key = front ++ [37]
  valPercent : q.state = .valHex1 → ∃ front, q.val = front ++ [37]

namespace Represents

variable {len : Nat} {flags : QueryFlags} {s : QueryBuffers} {q : QueryScan}

theorem indices (holds : Represents len s q) : s.key.idx = q.key.length ∧ s.val.idx = q.val.length := by
  by_cases start : q.state = .start
  · obtain ⟨key, val, keyIdx, valIdx, -, -⟩ := holds.fresh start
    rw [key, val]
    exact ⟨keyIdx, valIdx⟩
  · obtain ⟨key, val⟩ := holds.started start
    exact ⟨key.index, val.index⟩

theorem putKey (holds : Represents len s q) (started : q.state ≠ .start) (room : q.key.length < len) (ch : UInt8) {state : QueryState}
    (known : state = .key ∨ state = .keyHex2 ∨ state = .keyHex1 ∧ ch = 37) :
    Result .error (Represents len) (s.putKey ch state) (some (q.pushKey ch state)) := by
  obtain ⟨key, val⟩ := holds.started started
  obtain ⟨after, put, key⟩ := key.put room ch
  refine ⟨{ s with key := after, state }, by simp [QueryBuffers.putKey, put, Except.map], rfl, holds.args, fun _ => ⟨key, val⟩, ?_, ?_, ?_⟩
  · rintro (rfl : state = .start)
    simp at known
  · rintro (rfl : state = .keyHex1)
    obtain rfl : ch = 37 := by simpa using known
    exact ⟨q.key, rfl⟩
  · rintro (rfl : state = .valHex1)
    simp at known

theorem putVal (holds : Represents len s q) (started : q.state ≠ .start) (room : q.val.length < len) (ch : UInt8) {state : QueryState}
    (known : state = .val ∨ state = .valHex2 ∨ state = .valHex1 ∧ ch = 37) :
    Result .error (Represents len) (s.putVal ch state) (some (q.pushVal ch state)) := by
  obtain ⟨key, val⟩ := holds.started started
  obtain ⟨after, put, val⟩ := val.put room ch
  refine ⟨{ s with val := after, state }, by simp [QueryBuffers.putVal, put, Except.map], rfl, holds.args, fun _ => ⟨key, val⟩, ?_, ?_, ?_⟩
  · rintro (rfl : state = .start)
    simp at known
  · rintro (rfl : state = .keyHex1)
    simp at known
  · rintro (rfl : state = .valHex1)
    obtain rfl : ch = 37 := by simpa using known
    exact ⟨q.val, rfl⟩

theorem clear (key : s.key.buf.length = len + 1) (val : s.val.buf.length = len + 1) :
    Result .error (Represents len) s.clear (some { state := .key, args := s.args }) := by
  obtain ⟨key', cleared, key⟩ := TextBuffer.Holds.clear key
  obtain ⟨val', cleared', val⟩ := TextBuffer.Holds.clear val
  refine ⟨{ s with key := key', val := val', state := .key }, ?_, rfl, rfl, fun _ => ⟨key, val⟩, nofun, nofun, nofun⟩
  simp [QueryBuffers.clear, cleared, cleared', Except.bind, Except.map]

variable (holds : Represents len s q)
include holds

theorem addNull (started : q.state ≠ .start) :
    Result .error (Represents len) ((s.addKey none).bind QueryBuffers.clear) (some (q.add none)) := by
  obtain ⟨key, val⟩ := holds.started started
  have cleared := @clear len { s with args := s.args ++ [⟨cString q.key, none⟩] } key.size val.size
  rw [holds.args] at cleared
  simpa [QueryBuffers.addKey, key.string, Except.bind, Except.map, holds.args, QueryScan.add] using cleared

theorem addVal (started : q.state ≠ .start) :
    Result .error (Represents len) (s.addPair.bind QueryBuffers.clear) (some (q.add (some q.val))) := by
  obtain ⟨key, val⟩ := holds.started started
  have cleared := @clear len { s with args := s.args ++ [⟨cString q.key, some (cString q.val)⟩] } key.size val.size
  rw [holds.args] at cleared
  simpa [QueryBuffers.addPair, QueryBuffers.addKey, key.string, val.string, Except.bind, Except.map, holds.args, QueryScan.add]
    using cleared

theorem bufferKey (inKey : q.state = .key) (room : q.key.length < len) (ch : UInt8) :
    Result .error (Represents len) (bufferKey flags ch s) (queryKey flags ch q) := by
  have started : q.state ≠ .start := by simp [inKey]
  have put := holds.putKey started room ch (.inl rfl)
  have null : Result .error (Represents len)
      (if flags.allowNullVals then (s.addKey none).bind QueryBuffers.clear else .error .error) (q.addNull flags) := by
    unfold QueryScan.addNull
    cases flags.allowNullVals with
    | true => exact holds.addNull started
    | false => exact rfl
  unfold Evhtp.bufferKey queryKey
  dsimp only
  split
  · refine ⟨_, rfl, rfl, holds.args, fun _ => holds.started started, nofun, nofun, nofun⟩
  split
  · next percent =>
    subst percent
    cases flags.ignoreHex with
    | true => exact put
    | false => exact holds.putKey started room 37 (.inr (.inr ⟨rfl, rfl⟩))
  split
  · split
    · exact null
    · exact put
  split
  · exact null
  · exact put

theorem bufferVal (inVal : q.state = .val) (room : q.val.length < len) (ch : UInt8) :
    Result .error (Represents len) (bufferVal flags ch s) (queryVal flags ch q) := by
  have started : q.state ≠ .start := by simp [inVal]
  have put := holds.putVal started room ch (.inl rfl)
  unfold Evhtp.bufferVal queryVal
  split
  · split
    · exact holds.addVal started
    · exact put
  split
  · exact holds.addVal started
  split
  · next percent =>
    subst percent
    cases flags.ignoreHex with
    | true => exact put
    | false => exact holds.putVal started room 37 (.inr (.inr ⟨rfl, rfl⟩))
  · exact put

/-- A turn of the loop stays inside the buffers: the guard in front of the switch leaves room for a byte and a terminator. -/
theorem bufferStep (ch : UInt8) : Result .error (Represents len) (bufferStep flags len s ch) (queryStep flags len q ch) := by
  obtain ⟨keyIdx, valIdx⟩ := holds.indices
  unfold Evhtp.bufferStep queryStep
  rw [keyIdx, valIdx]
  split
  · exact rfl
  next room =>
  obtain ⟨keyRoom, valRoom⟩ : q.key.length < len ∧ q.val.length < len := by omega
  rw [holds.state]
  cases state : q.state with
  | start =>
    obtain ⟨-, -, -, -, keySize, valSize⟩ := holds.fresh state
    obtain ⟨after, cleared, again⟩ := clear keySize valSize
    have next := @bufferKey len flags after _ again rfl (Nat.zero_lt_of_lt keyRoom) ch
    rw [holds.args] at next
    simpa [cleared, Except.bind] using next
  | key => exact holds.bufferKey state keyRoom ch
  | val => exact holds.bufferVal state valRoom ch
  | keyHex1 =>
    have started : q.state ≠ .start := by simp [state]
    dsimp only
    split
    · exact holds.putKey started keyRoom ch (.inr (.inl rfl))
    split
    · exact rfl
    · obtain ⟨front, text⟩ := holds.keyPercent state
      have same := (text ▸ (holds.started started).1 : s.key.Holds len (front ++ [37])).percentBefore
      rw [same]
      exact holds.putKey started keyRoom ch (.inl rfl)
  | keyHex2 =>
    dsimp only
    split
    · exact holds.putKey (by simp [state]) keyRoom ch (.inl rfl)
    · exact rfl
  | valHex1 =>
    have started : q.state ≠ .start := by simp [state]
    dsimp only
    split
    · exact holds.putVal started valRoom ch (.inr (.inl rfl))
    split
    · exact rfl
    split
    · exact rfl
    · obtain ⟨front, text⟩ := holds.valPercent state
      have same := (text ▸ (holds.started started).2 : s.val.Holds len (front ++ [37])).percentBefore
      rw [same]
      exact holds.putVal started valRoom ch (.inl rfl)
  | valHex2 =>
    dsimp only
    split
    · exact holds.putVal (by simp [state]) valRoom ch (.inl rfl)
    · exact rfl

theorem bufferEnd : Result .error Eq (bufferEnd flags s) (queryEnd flags q) := by
  obtain ⟨keyIdx, valIdx⟩ := holds.indices
  unfold Evhtp.bufferEnd queryEnd
  simp only [keyIdx, valIdx, List.length_eq_zero_iff, holds.state, ne_eq]
  by_cases none : q.key = []
  · rw [if_pos none, if_pos none]
    exact ⟨_, rfl, holds.args⟩
  · have started : q.state ≠ .start := fun start => none (holds.fresh start).1
    obtain ⟨key, val⟩ := holds.started started
    have single : ∀ val, (s.addKey val).map QueryBuffers.args = .ok (q.args ++ [⟨cString q.key, val⟩]) := by
      intro val
      simp [QueryBuffers.addKey, key.string, Except.map, holds.args]
    have pair : s.addPair.map QueryBuffers.args = .ok (q.args ++ [⟨cString q.key, Option.some (cString q.val)⟩]) := by
      rw [QueryBuffers.addPair, val.string]
      exact single _
    rw [if_neg none, if_neg none, pair, single, single]
    by_cases empty : q.val = []
    · simp only [empty, not_true_eq_false, if_false]
      cases q.state.pastVal <;> cases flags.allowEmptyVals <;> cases flags.allowNullVals <;>
        first | exact rfl | exact ⟨_, rfl, rfl⟩
    · rw [if_pos empty, if_pos empty]
      exact ⟨_, rfl, rfl⟩

end Represents

/-- The function with its buffers never faults, and computes what the machine computes. -/
theorem evhtpParseQueryBuffered_eq (keyBytes valBytes : Nat → UInt8) (query : Bytes) (flags : QueryFlags) :
    evhtpParseQueryBuffered keyBytes valBytes query flags =
      match evhtpParseQueryWflags query flags with
      | some args => .ok args
      | none => .error .error := by
  unfold evhtpParseQueryBuffered evhtpParseQueryWflags
  dsimp only
  by_cases long : 2 * query.length + 2 > 2 ^ 64 - 1
  · rw [if_pos long, if_pos long]
  · rw [if_neg long, if_neg long]
    have start : Represents query.length
        { key := { buf := (List.range (query.length + 1)).map keyBytes }, val := { buf := (List.range (query.length + 1)).map valBytes } }
        {} :=
      ⟨rfl, rfl, fun started => absurd rfl started, fun _ => ⟨rfl, rfl, rfl, rfl, by simp, by simp⟩, nofun, nofun⟩
    have turn : ∀ s q, Represents query.length s q → ∀ ch ∈ query, Result .error (Represents query.length)
        (bufferStep flags query.length s ch) (queryStep flags query.length q ch) := fun s q holds ch _ => holds.bufferStep ch
    have whole := (Result.foldlM query turn start).bind fun s q holds => @Represents.bufferEnd query.length flags s q holds
    revert whole
    cases (query.foldlM (queryStep flags query.length) {}).bind (queryEnd flags) with
    | none => exact fun whole => whole
    | some args =>
      rintro ⟨_, done, rfl⟩
      exact done

end Evhtp
