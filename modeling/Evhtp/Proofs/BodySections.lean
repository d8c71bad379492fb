import Evhtp.Proofs.HeadFields

/-! Body sections as bytes: a body of a known length, the parts of a chunk and the end of the chunks, each of them one
turn of the parser that calls one hook. -/

namespace Evhtp

def Parser.chunkAt (p : Parser) (chunk : ChunkState) (left size : Nat) : Parser :=
  { p with contentLen := left, origContentLen := size, chunk }

def Parser.atTrailers (p : Parser) : Parser := { p with state := .trailers, headerCount := 0 }

section
variable [Htstring] {σ : Type} {H : Hooks σ}

theorem body_next {s after : Scan σ} {data : Bytes} {used : Nat} (here : s.p.state = .body) (some : data ≠ [])
    (parsed : parseBody H data s = (after, used)) (progress : used ≠ 0) (running : after.p.flags.paused = false) :
    Decoder.Next (resumedTurn H) (s, data) (after, data.drop used) := by
  have stopped : after.resume = after := Scan.resume_of_running running
  refine ⟨after, used, ?_, rfl⟩
  simp only [resumedTurn, turn, here, turnBody, if_neg some, parsed, progress, false_and, if_false, Option.map_some,
    stopped]

theorem complete_next {s after : Scan σ} (rest : Bytes) (here : s.p.state = .complete)
    (finished : hook H .onMsgComplete [] { s with p := s.p.finish } = (true, after)) (running : after.p.flags.paused = false) :
    Decoder.Next (resumedTurn H) (s, rest) (after, rest) := by
  have stopped : after.resume = after := Scan.resume_of_running running
  refine ⟨after, 0, ?_, rfl⟩
  simp only [resumedTurn, turn, here, finishMessage, finished, Option.map_some, stopped]

variable {p : Parser} {user user' : σ}

theorem length_next {body : Bytes} (here : p.state = .body) (mode : p.body = .length) (length : p.contentLen = body.length)
    (some : body ≠ []) (called : hook H .body body ⟨p, user⟩ = (true, ⟨p, user'⟩)) (running : p.flags.paused = false) :
    Decoder.Next (resumedTurn H) (⟨p, user⟩, body) (⟨{ p with contentLen := 0, state := .complete }, user'⟩, []) := by
  have piece : p.delimitedPiece body = body.length := by simp [Parser.delimitedPiece, length]
  have parsed : parseBody H body ⟨p, user⟩ = (⟨{ p with contentLen := 0, state := .complete }, user'⟩, body.length) := by
    simp [parseBody, mode, parseDelimited, piece, some, called, countDelimited, length]
  have next := body_next here some parsed (by simpa using some) running
  rwa [List.drop_length] at next

@[mk_iff]
structure AtChunk (p : Parser) : Prop where
  state : p.state = .body
  body : p.body = .chunked
  chunk : p.chunk = .size
  running : p.flags.paused = false
  error : p.error = .none

omit [Htstring] in
theorem parseBody_chunk (H : Hooks σ) {s : Scan σ} (mode : s.p.body = .chunked) (data : Bytes) :
    parseBody H data s = match s.p.chunk with
      | .size => parseSizeLine H data s
      | .data => parseChunkData H data s
      | .dataEnd => parseChunkEnd H data s := by
  cases chunk : s.p.chunk <;> simp only [parseBody, mode, chunk]

namespace AtChunk
variable (ready : AtChunk p)
include ready

omit [Htstring] in
theorem chunkAt (size : Nat) : AtChunk (p.chunkAt .size 0 size) :=
  ⟨ready.state, ready.body, rfl, ready.running, ready.error⟩

theorem size_next {line : Bytes} {size : Nat} (rest : Bytes) (unbroken : Unbroken line)
    (fits : p.config.maxLineLength = 0 ∨ line.length ≤ p.config.maxLineLength)
    (sized : parseChunkSize line = some size) (some : size ≠ 0)
    (called : hook H .onNewChunk [] ⟨p.chunkAt .data size size, user⟩ = (true, ⟨p.chunkAt .data size size, user'⟩)) :
    Decoder.Next (resumedTurn H) (⟨p, user⟩, line ++ crlf ++ rest) (⟨p.chunkAt .data size size, user'⟩, rest) := by
  have taken := takeLine_content .crlf rest unbroken fits
  have parsed : parseBody H (line ++ crlf ++ rest) ⟨p, user⟩ =
      (⟨p.chunkAt .data size size, user'⟩, (line ++ crlf).length) := by
    have opened : hook H .onNewChunk [] ⟨{ p with contentLen := size, origContentLen := size, chunk := .data }, user⟩ =
        (true, ⟨p.chunkAt .data size size, user'⟩) := called
    rw [parseBody_chunk H ready.body, ready.chunk]
    simp only [parseSizeLine]
    rw [show crlf = LineEnd.crlf.bytes from rfl, taken]
    simp only [sized, if_neg some, opened, List.length_append]
  have next := body_next ready.state (by simp [crlf]) parsed (by simp [crlf]) ready.running
  rwa [List.drop_left] at next

theorem data_next {bytes : Bytes} (size : Nat) (rest : Bytes) (some : bytes ≠ [])
    (called : hook H .body bytes ⟨p.chunkAt .data bytes.length size, user⟩ =
      (true, ⟨p.chunkAt .data bytes.length size, user'⟩)) :
    Decoder.Next (resumedTurn H) (⟨p.chunkAt .data bytes.length size, user⟩, bytes ++ rest)
      (⟨p.chunkAt .dataEnd 0 size, user'⟩, rest) := by
  have piece : (p.chunkAt .data bytes.length size).chunkPiece (bytes ++ rest) = bytes.length := by
    simp only [Parser.chunkPiece, Parser.chunkAt, List.length_append]
    split <;> omega
  have parsed : parseBody H (bytes ++ rest) ⟨p.chunkAt .data bytes.length size, user⟩ =
      (⟨p.chunkAt .dataEnd 0 size, user'⟩, bytes.length) := by
    have mode : (p.chunkAt .data bytes.length size).body = .chunked := ready.body
    have place : (p.chunkAt .data bytes.length size).chunk = .data := rfl
    rw [parseBody_chunk H mode, place]
    simp only [parseChunkData, piece, List.take_left, called, countChunk]
    simp [Parser.chunkAt]
  have here : (p.chunkAt .data bytes.length size).state = .body := ready.state
  have next := body_next here (by simp [some]) parsed (by simpa using some) ready.running
  rwa [List.drop_left] at next

theorem end_next (size : Nat) (rest : Bytes)
    (called : hook H .onChunkComplete [] ⟨p.chunkAt .size 0 size, user⟩ = (true, ⟨p.chunkAt .size 0 size, user'⟩)) :
    Decoder.Next (resumedTurn H) (⟨p.chunkAt .dataEnd 0 size, user⟩, crlf ++ rest) (⟨p.chunkAt .size 0 size, user'⟩, rest) := by
  have taken := @takeLine_content p.config.maxLineLength [] .crlf rest (fun _ member => by cases member)
    (.inr (Nat.zero_le _))
  have parsed : parseBody H (crlf ++ rest) ⟨p.chunkAt .dataEnd 0 size, user⟩ =
      (⟨p.chunkAt .size 0 size, user'⟩, crlf.length) := by
    have mode : (p.chunkAt .dataEnd 0 size).body = .chunked := ready.body
    have place : (p.chunkAt .dataEnd 0 size).chunk = .dataEnd := rfl
    have config : (p.chunkAt .dataEnd 0 size).config = p.config := rfl
    rw [parseBody_chunk H mode, place]
    simp only [parseChunkEnd, config]
    rw [show crlf ++ rest = [] ++ LineEnd.crlf.bytes ++ rest from rfl, taken]
    simp only [ne_eq, not_true_eq_false, if_false]
    exact congrArg (fun result => (result.2, crlf.length)) called
  have here : (p.chunkAt .dataEnd 0 size).state = .body := ready.state
  have next := body_next here (by simp [crlf]) parsed (by simp [crlf]) ready.running
  rwa [List.drop_left] at next

theorem zero_next {line : Bytes} (rest : Bytes) (unbroken : Unbroken line)
    (fits : p.config.maxLineLength = 0 ∨ line.length ≤ p.config.maxLineLength) (zero : parseChunkSize line = some 0)
    (called : hook H .onChunksComplete [] ⟨p.atTrailers, user⟩ = (true, ⟨p.atTrailers, user'⟩)) :
    Decoder.Next (resumedTurn H) (⟨p, user⟩, line ++ crlf ++ rest) (⟨p.atTrailers, user'⟩, rest) := by
  have taken := takeLine_content .crlf rest unbroken fits
  have parsed : parseBody H (line ++ crlf ++ rest) ⟨p, user⟩ = (⟨p.atTrailers, user'⟩, (line ++ crlf).length) := by
    have ended : hook H .onChunksComplete [] ⟨{ p with state := .trailers, headerCount := 0 }, user⟩ =
        (true, ⟨p.atTrailers, user'⟩) := called
    rw [parseBody_chunk H ready.body, ready.chunk]
    simp only [parseSizeLine]
    rw [show crlf = LineEnd.crlf.bytes from rfl, taken]
    simp only [zero, if_true, ended, List.length_append]
  have next := body_next ready.state (by simp [crlf]) parsed (by simp [crlf]) ready.running
  rwa [List.drop_left] at next

omit ready in
theorem trailers_next (running : p.flags.paused = false) :
    Decoder.Next (resumedTurn H) (⟨p.atTrailers, user⟩, crlf) (⟨{ p.atTrailers with state := .complete }, user⟩, []) := by
  have empty : Unbroken [] := fun _ member => by cases member
  have next : Decoder.Next (resumedTurn H) (⟨p.atTrailers, user⟩, [] ++ LineEnd.crlf.bytes ++ [])
      ((parseHeadLine H [] ⟨p.atTrailers, user⟩).resume, []) := line_turn H .crlf [] rfl empty (.inr (Nat.zero_le _))
  have stopped : { p.atTrailers with state := .complete }.resume = { p.atTrailers with state := .complete } :=
    Parser.resume_of_running running
  have closed : (parseHeadLine H [] ⟨p.atTrailers, user⟩).resume = ⟨{ p.atTrailers with state := .complete }, user⟩ :=
    congrArg (fun p => Scan.mk p _) stopped
  rwa [closed] at next

end AtChunk

end

end Evhtp
