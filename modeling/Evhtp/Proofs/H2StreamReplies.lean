import Evhtp.H2Stream

/-! Streaming replies over HTTP/2 deliver what the application gave between the start and the end of the reply: what
was read and what is still buffered make up the body at any time, and the end of the stream comes with its last byte. -/

namespace Evhtp

namespace StreamCall

def starts : StreamCall → Bool
  | .start _ submitted => submitted
  | .body _ | .finish | .read _ => false

def ends : StreamCall → Bool
  | .finish => true
  | .start _ _ | .body _ | .read _ => false

def bytes : StreamCall → Bytes
  | .body buf => buf
  | .start _ _ | .finish | .read _ => []

end StreamCall

variable {request : Request} {calls : List StreamCall} {s : StreamReply}

/-- What the application gave after the start and before the end of the reply. -/
def streamedBody (calls : List StreamCall) : Bytes :=
  ((calls.takeWhile (!·.ends)).dropWhile (!·.starts)).flatMap StreamCall.bytes

/-- How a streaming reply stands after some calls, and what the next call does. -/
structure StreamReply.Delivers (request : Request) (calls : List StreamCall) (s : StreamReply) : Prop where
  returned : s.returned <+: request.bufferOut ++ streamedBody calls
  deferred : ∀ length > 0, (h2StreamRead s.request length).1 = .deferred ↔
    s.request.bufferOut = [] ∧ calls.any StreamCall.ends = false
  eof : ∀ length data, (h2StreamRead s.request length).1 = .bytes data true →
    calls.any StreamCall.ends = true ∧ s.returned ++ data = request.bufferOut ++ streamedBody calls
  last : ∀ length, calls.any StreamCall.ends = true → (h2StreamRead s.request length).2.bufferOut = [] →
    ∃ data, (h2StreamRead s.request length).1 = .bytes data true
  refused : calls.any StreamCall.starts = false ∨ calls.any StreamCall.ends = true →
    ∀ buf, evhtpH2SendReplyBody s buf = (-1, s, buf)

/-- The flags say what was called, and nothing of the body is lost. -/
structure StreamReply.Valid (request : Request) (calls : List StreamCall) (s : StreamReply) : Prop where
  started : s.request.flags.h2Streaming = calls.any StreamCall.starts
  ended : s.request.flags.finished = calls.any StreamCall.ends
  whole : s.returned ++ s.request.bufferOut = request.bufferOut ++ streamedBody calls

theorem streamedBody_concat (calls : List StreamCall) (call : StreamCall) :
    streamedBody (calls ++ [call]) = streamedBody calls ++
      if calls.any StreamCall.starts = true ∧ calls.any StreamCall.ends = false then call.bytes else [] := by
  unfold streamedBody
  cases ended : calls.any StreamCall.ends with
  | true =>
    have stops : ¬(calls.takeWhile (!·.ends)).length = calls.length := by
      intro full
      have all := List.takeWhile_eq_self_iff.mp ((List.takeWhile_prefix _).eq_of_length full)
      obtain ⟨call, member, ends⟩ := List.any_eq_true.mp ended
      simpa [ends] using all call member
    rw [List.takeWhile_append, if_neg stops, if_neg (by simp), List.append_nil]
  | false =>
    have running : ∀ call ∈ calls, (!call.ends) = true := by simpa using ended
    rw [List.takeWhile_append_of_pos running, List.takeWhile_eq_self_iff.mpr running, List.dropWhile_append]
    cases started : calls.any StreamCall.starts with
    | true =>
      have begun : (calls.dropWhile (!·.starts)).isEmpty = false := by
        obtain ⟨call, member, starts⟩ := List.any_eq_true.mp started
        apply Bool.eq_false_of_not_eq_true
        intro empty
        simpa [starts] using List.dropWhile_eq_nil_iff.mp (List.isEmpty_iff.mp empty) call member
      rw [begun, if_neg (by simp), if_pos ⟨rfl, rfl⟩, List.flatMap_append]
      cases call <;> simp [List.takeWhile, StreamCall.ends, StreamCall.bytes]
    | false =>
      have waiting : calls.dropWhile (!·.starts) = [] := List.dropWhile_eq_nil_iff.mpr (by simpa using started)
      rw [waiting, List.isEmpty_nil, if_pos rfl, if_neg (by simp)]
      cases call with
      | start code submitted => cases submitted <;> rfl
      | body buf | finish | read length => rfl

theorem h2StreamRead_whole (request : Request) (length : Nat) :
    (h2StreamRead request length).1.data ++ (h2StreamRead request length).2.bufferOut = request.bufferOut := by
  unfold h2StreamRead
  dsimp only
  split
  · rfl
  · exact List.take_append_drop _ _

theorem h2StreamRead_flags (request : Request) (length : Nat) : (h2StreamRead request length).2.flags = request.flags := by
  unfold h2StreamRead
  dsimp only
  split <;> rfl

theorem h2StreamRead_deferred {length : Nat} (positive : length > 0) :
    (h2StreamRead request length).1 = .deferred ↔ request.bufferOut = [] ∧ request.flags.finished = false := by
  unfold h2StreamRead
  dsimp only
  split
  next idle =>
    have empty : request.bufferOut.length = 0 := by omega
    exact ⟨fun _ => ⟨List.eq_nil_of_length_eq_zero empty, idle.2⟩, fun _ => rfl⟩
  next busy =>
    refine ⟨nofun, fun idle => absurd ?_ busy⟩
    rw [idle.1]
    exact ⟨Nat.zero_min _, idle.2⟩

theorem h2StreamRead_eof {length : Nat} {data : Bytes} (answered : (h2StreamRead request length).1 = .bytes data true) :
    request.flags.finished = true ∧ data = request.bufferOut := by
  have whole := h2StreamRead_whole request length
  rw [answered] at whole
  unfold h2StreamRead at answered whole
  dsimp only at answered whole
  split at answered
  · cases answered
  next busy =>
    obtain ⟨finished, empty⟩ := Bool.and_eq_true_iff.mp (StreamRead.bytes.inj answered).2
    refine ⟨finished, ?_⟩
    rw [if_neg busy, List.isEmpty_iff.mp empty, List.append_nil] at whole
    exact whole

theorem h2StreamRead_last {length : Nat} (finished : request.flags.finished = true)
    (empty : (h2StreamRead request length).2.bufferOut = []) :
    ∃ data, (h2StreamRead request length).1 = .bytes data true := by
  unfold h2StreamRead at empty ⊢
  simp only [finished, Bool.true_eq_false, and_false, if_false, Bool.true_and] at empty ⊢
  exact ⟨_, by rw [empty]; rfl⟩

namespace StreamReply

structure Moves (before : StreamReply) (call : StreamCall) (after : StreamReply) : Prop where
  started : after.request.flags.h2Streaming = (before.request.flags.h2Streaming || call.starts)
  ended : after.request.flags.finished = (before.request.flags.finished || call.ends)
  whole : after.returned ++ after.request.bufferOut = before.returned ++ before.request.bufferOut ++
    if before.request.flags.h2Streaming = true ∧ before.request.flags.finished = false then call.bytes else []

theorem Moves.start (s : StreamReply) (code : Nat) (submitted : Bool) :
    s.Moves (.start code submitted) (evhtpH2SendReplyStart s code submitted).2.1 := by
  cases submitted with
  | false => exact ⟨(Bool.or_false _).symm, (Bool.or_false _).symm, by simp [evhtpH2SendReplyStart, StreamCall.bytes]⟩
  | true => exact ⟨(Bool.or_true _).symm, (Bool.or_false _).symm, by simp [evhtpH2SendReplyStart, StreamCall.bytes]⟩

theorem Moves.body (s : StreamReply) (buf : Bytes) : s.Moves (.body buf) (evhtpH2SendReplyBody s buf).2.1 := by
  unfold evhtpH2SendReplyBody
  by_cases refused : s.request.flags.h2Streaming = false ∨ s.request.flags.finished = true
  · rw [if_pos refused]
    refine ⟨(Bool.or_false _).symm, (Bool.or_false _).symm, ?_⟩
    rw [if_neg (by grind), List.append_nil]
  · rw [if_neg refused]
    refine ⟨(Bool.or_false _).symm, (Bool.or_false _).symm, ?_⟩
    rw [if_pos (by grind)]
    exact (List.append_assoc _ _ _).symm

theorem Moves.finish (s : StreamReply) : s.Moves .finish (evhtpH2SendReplyEnd s) := by
  unfold evhtpH2SendReplyEnd
  dsimp only
  split <;> exact ⟨(Bool.or_false _).symm, (Bool.or_true _).symm, by simp [resume, Request.finish, StreamCall.bytes]⟩

theorem Moves.read (s : StreamReply) (length : Nat) : s.Moves (.read length) (StreamCall.run s (.read length)) := by
  have flags := h2StreamRead_flags s.request length
  refine ⟨?_, ?_, ?_⟩
  · exact (congrArg ReqFlags.h2Streaming flags).trans (Bool.or_false _).symm
  · exact (congrArg ReqFlags.finished flags).trans (Bool.or_false _).symm
  · rw [StreamCall.bytes, ite_self, List.append_nil, ← h2StreamRead_whole s.request length, ← List.append_assoc]
    rfl

theorem Moves.run (s : StreamReply) (call : StreamCall) : s.Moves call (call.run s) := by
  cases call with
  | start code submitted => exact Moves.start s code submitted
  | body buf => exact Moves.body s buf
  | finish => exact Moves.finish s
  | read length => exact Moves.read s length

theorem Valid.concat {after : StreamReply} {call : StreamCall} (valid : s.Valid request calls)
    (moves : s.Moves call after) : after.Valid request (calls ++ [call]) where
  started := by
    rw [moves.started, valid.started]
    simp
  ended := by
    rw [moves.ended, valid.ended]
    simp
  whole := by
    rw [moves.whole, valid.whole, streamedBody_concat, valid.started, valid.ended, List.append_assoc]

theorem valid_calls (unstarted : request.flags.h2Streaming = false) (unfinished : request.flags.finished = false)
    (calls : List StreamCall) : (streamCalls request calls).Valid request calls := by
  induction calls using List.reverseRecOn with
  | nil => exact ⟨unstarted, unfinished, (List.append_nil _).symm⟩
  | append_singleton calls call ih =>
    unfold streamCalls
    rw [List.foldl_concat]
    exact ih.concat (.run _ call)

theorem Valid.delivers (valid : s.Valid request calls) : s.Delivers request calls where
  returned := by
    rw [← valid.whole]
    exact List.prefix_append _ _
  deferred length positive := by
    rw [← valid.ended]
    exact h2StreamRead_deferred positive
  eof length data answered := by
    obtain ⟨finished, rest⟩ := h2StreamRead_eof answered
    refine ⟨valid.ended.symm.trans finished, ?_⟩
    rw [rest]
    exact valid.whole
  last length ended empty := h2StreamRead_last (valid.ended.trans ended) empty
  refused outside buf := by
    rw [← valid.started, ← valid.ended] at outside
    exact if_pos outside

/-- A parked stream has nothing to send: what is given to it, and the end of the reply, resume it. -/
def Idle (s : StreamReply) : Prop :=
  s.parked = true → s.request.flags.h2Streaming = true → s.request.bufferOut = [] ∧ s.request.flags.finished = false

theorem Idle.run (idle : s.Idle) {call : StreamCall} (positive : ∀ length, call = .read length → 0 < length) :
    (call.run s).Idle := by
  cases call with
  | start code submitted =>
    cases submitted with
    | false => exact idle
    | true => exact nofun
  | body buf =>
    unfold StreamCall.run evhtpH2SendReplyBody
    dsimp only
    split
    · exact idle
    · exact nofun
  | finish =>
    unfold StreamCall.run evhtpH2SendReplyEnd
    dsimp only
    split
    · exact nofun
    next unstarted => exact fun _ streaming => absurd streaming unstarted
  | read length =>
    intro parked _
    have deferred : (h2StreamRead s.request length).1 = .deferred := of_decide_eq_true parked
    have whole := h2StreamRead_whole s.request length
    have flags := h2StreamRead_flags s.request length
    obtain ⟨empty, unfinished⟩ := (h2StreamRead_deferred (positive length rfl)).mp deferred
    rw [empty] at whole
    exact ⟨(List.append_eq_nil_iff.mp whole).2, (congrArg ReqFlags.finished flags).trans unfinished⟩

theorem idle_calls (request : Request) {calls : List StreamCall} (positive : ∀ length, .read length ∈ calls → 0 < length) :
    (streamCalls request calls).Idle := by
  induction calls using List.reverseRecOn with
  | nil => exact nofun
  | append_singleton calls call ih =>
    have before := ih fun length member => positive length (List.mem_append_left _ member)
    unfold streamCalls
    rw [List.foldl_concat]
    exact before.run fun length same => positive length (by simp [same])

theorem idle_calls_parked :
    (streamCalls {} [.start 200 true, .read 8]).Idle ∧ (streamCalls {} [.start 200 true, .read 8]).parked = true :=
  ⟨idle_calls {} (by simp), rfl⟩

end StreamReply

/-- Streaming replies deliver the body exactly, whatever the order of the calls and of the reads. -/
theorem streaming_reply_exact (unstarted : request.flags.h2Streaming = false)
    (unfinished : request.flags.finished = false) (calls : List StreamCall) :
    (streamCalls request calls).Delivers request calls :=
  (StreamReply.valid_calls unstarted unfinished calls).delivers

theorem streaming_reply_exact_parked : (streamCalls { bufferOut := ascii "ab" }
      [.start 200 true, .read 1, .body (ascii "c"), .read 8, .read 8, .finish]).Delivers { bufferOut := ascii "ab" }
        [.start 200 true, .read 1, .body (ascii "c"), .read 8, .read 8, .finish] ∧
    (streamCalls { bufferOut := ascii "ab" }
      [.start 200 true, .read 1, .body (ascii "c"), .read 8, .read 8, .finish]).returned = ascii "abc" :=
  ⟨streaming_reply_exact rfl rfl _, rfl⟩

/-- The data source of a plain reply gives the body from front to back, and announces its end with the last byte. -/
theorem h2Reads_concat (request : Request) (lengths : List Nat) (length : Nat) :
    h2Reads h2DataRead request (lengths ++ [length]) = h2Reads h2DataRead request lengths ++
      [.bytes ((request.bufferOut.drop lengths.sum).take length) (request.bufferOut.drop (lengths.sum + length)).isEmpty] := by
  have read : ∀ request length, h2DataRead request length = (.bytes (request.bufferOut.take length)
      (request.bufferOut.drop length).isEmpty, { request with bufferOut := request.bufferOut.drop length }) := by
    intro request length
    unfold h2DataRead
    rcases Nat.le_total length request.bufferOut.length with long | short
    · rw [Nat.min_eq_right long]
    · simp [short, List.take_of_length_le, List.drop_of_length_le]
  induction lengths generalizing request with
  | nil => simp [h2Reads, read]
  | cons first lengths ih => simp [h2Reads, ih, read, List.drop_drop, Nat.add_assoc]

/-- After the end of a reply the two data sources are the same. -/
theorem h2Reads_ended {first second : Request} (same : first.bufferOut = second.bufferOut) (ended : first.flags.finished = true)
    (lengths : List Nat) : h2Reads h2StreamRead first lengths = h2Reads h2DataRead second lengths := by
  induction lengths generalizing first second with
  | nil => rfl
  | cons length lengths ih =>
    simp only [h2Reads, h2StreamRead, h2DataRead, ended, same, Bool.true_eq_false, and_false, if_false, Bool.true_and]
    refine congrArg _ (ih rfl ?_)
    exact ended

/-- After the calls of a streamed reply nghttp2 reads on as if what is left had been sent with `evhtp_h2_send_reply`:
the rest of the body from front to back, and the end with its last byte. -/
def ReadAsPlain (request : Request) (calls : List StreamCall) (code : Nat) : Prop :=
  ∃ rest, (streamCalls request calls).returned ++ rest = request.bufferOut ++ streamedBody calls ∧
    ∀ lengths length, let plain := (evhtpH2SendReply { request with bufferOut := rest } code).1
      h2Reads h2StreamRead (streamCalls request calls).request lengths = h2Reads h2DataRead plain lengths ∧
      h2Reads h2DataRead plain (lengths ++ [length]) = h2Reads h2DataRead plain lengths ++
        [.bytes ((rest.drop lengths.sum).take length) (rest.drop (lengths.sum + length)).isEmpty]

theorem ended_reply_plain (unstarted : request.flags.h2Streaming = false) (unfinished : request.flags.finished = false)
    (ended : calls.any StreamCall.ends = true) (code : Nat) : ReadAsPlain request calls code := by
  have valid := StreamReply.valid_calls unstarted unfinished calls
  refine ⟨_, valid.whole, fun lengths length => ⟨?_, h2Reads_concat _ lengths length⟩⟩
  apply h2Reads_ended
  · rfl
  · rw [valid.ended, ended]

theorem ended_reply_plain_midway : ReadAsPlain {} [.start 200 true, .body (ascii "abc"), .read 1, .finish] 200 :=
  ended_reply_plain rfl rfl rfl 200

end Evhtp
