import Evhtp.Proofs.Lines
import Evhtp.Proofs.Numbers
import Evhtp.Proofs.BodySections
import Evhtp.Proofs.Messages

/-! Chunked bodies as a sender may write them: sizes with leading zeros, in either case, with blanks and extensions,
lines that end with CRLF or a bare LF, and trailer fields. Whatever the hooks do as long as they return 0, the parser
consumes such a body to its end and tells the hooks what was sent. -/

namespace Evhtp

/-- The line with the size of a chunk. What follows a semicolon is not looked at. -/
structure SizeLine (size : Nat) where
  digits : Bytes
  blanks : Bytes := []
  extension : Bytes := []
  ending : LineEnd := .crlf
  hex : ∀ byte ∈ digits, (hexval byte).isSome = true
  count : 1 ≤ digits.length ∧ digits.length ≤ 15
  value : Numeral.value 16 hexDigitVal 0 digits = size
  blank : ∀ byte ∈ blanks, isBlank byte = true
  marked : extension = [] ∨ extension.head? = some 59
  noLf : LF ∉ extension

def SizeLine.content {size : Nat} (line : SizeLine size) : Bytes := line.digits ++ (line.blanks ++ line.extension)

def SizeLine.bytes {size : Nat} (line : SizeLine size) : Bytes := line.content ++ line.ending.bytes

def SizeLine.Fits {size : Nat} (line : SizeLine size) (max : Nat) : Prop := max = 0 ∨ line.content.length ≤ max

structure RenderedChunk where
  data : Bytes
  nonempty : data ≠ []
  size : SizeLine data.length
  ending : LineEnd := .crlf

def RenderedChunk.bytes (chunk : RenderedChunk) : Bytes := chunk.size.bytes ++ (chunk.data ++ chunk.ending.bytes)

def headerName (line : Bytes) : Bytes := line.takeWhile (· != COLON)

def headerValue (line : Bytes) : Bytes := trimBlanks (line.dropWhile (· != COLON)).tail

structure HeaderLine (line : Bytes) : Prop where
  colon : COLON ∈ line
  flush : line.head?.any isBlank = false
  named : headerName line ≠ []
  tight : (headerName line).getLast?.any isBlank = false

structure TrailerField extends TextLine where
  accepted : HeaderLine content

/-- A chunked body: its chunks, the last one of size zero, the trailer section and the empty line. -/
structure ChunkedRendering where
  chunks : List RenderedChunk
  last : SizeLine 0
  trailers : List TrailerField
  empty : LineEnd := .crlf

structure ChunkedRendering.Within (r : ChunkedRendering) (config : Http1config) : Prop where
  sizes : ∀ chunk ∈ r.chunks, chunk.size.Fits config.maxLineLength
  last : r.last.Fits config.maxLineLength
  lines : ∀ field ∈ r.trailers, field.Fits config.maxLineLength
  count : config.maxHeaderCount = 0 ∨ r.trailers.length ≤ config.maxHeaderCount

inductive ChunkedRest where
  | chunks (todo : List RenderedChunk)
  | data (chunk : RenderedChunk) (todo : List RenderedChunk)
  | ending (chunk : RenderedChunk) (todo : List RenderedChunk)
  | fields (todo : List TrailerField)
  | complete

/-- What a hook is told: its name and arguments, and the content length if it is `on_new_chunk`. -/
abbrev Told := HookEvent × Option Nat

def Fired.told (fired : Fired) : Told :=
  (fired.event, if fired.name = .onNewChunk then some fired.p.contentLen else none)

def tellEnd : Told := (⟨.onChunkComplete, []⟩, none)

def RenderedChunk.told (chunk : RenderedChunk) : List Told :=
  [(⟨.onNewChunk, []⟩, some chunk.data.length), (⟨.body, chunk.data⟩, none), tellEnd]

def TrailerField.told (field : TrailerField) : List Told :=
  [(⟨.hdrKey, headerName field.content⟩, none), (⟨.hdrVal, headerValue field.content⟩, none)]

namespace ChunkedRendering

def fieldsBytes (r : ChunkedRendering) (todo : List TrailerField) : Bytes :=
  todo.flatMap (fun field => field.bytes) ++ r.empty.bytes

def chunksBytes (r : ChunkedRendering) (todo : List RenderedChunk) : Bytes :=
  todo.flatMap RenderedChunk.bytes ++ (r.last.bytes ++ r.fieldsBytes r.trailers)

def bytes (r : ChunkedRendering) : Bytes := r.chunksBytes r.chunks

def fieldsTold (todo : List TrailerField) : List Told :=
  todo.flatMap TrailerField.told ++ [(⟨.onMsgComplete, []⟩, none)]

def chunksTold (r : ChunkedRendering) (todo : List RenderedChunk) : List Told :=
  todo.flatMap RenderedChunk.told ++ (⟨.onChunksComplete, []⟩, none) :: fieldsTold r.trailers

def told (r : ChunkedRendering) : List Told := r.chunksTold r.chunks

end ChunkedRendering

def ChunkedRest.bytes (r : ChunkedRendering) : ChunkedRest → Bytes
  | .chunks todo => r.chunksBytes todo
  | .data chunk todo => chunk.data ++ (chunk.ending.bytes ++ r.chunksBytes todo)
  | .ending chunk todo => chunk.ending.bytes ++ r.chunksBytes todo
  | .fields todo => r.fieldsBytes todo
  | .complete => []

def ChunkedRest.told (r : ChunkedRendering) : ChunkedRest → List Told
  | .chunks todo => r.chunksTold todo
  | .data chunk todo => (⟨.body, chunk.data⟩, none) :: tellEnd :: r.chunksTold todo
  | .ending _ todo => tellEnd :: r.chunksTold todo
  | .fields todo => ChunkedRendering.fieldsTold todo
  | .complete => ChunkedRendering.fieldsTold []

section
variable {max size : Nat}

theorem takeLine_empty (max : Nat) (ending : LineEnd) (rest : Bytes) :
    takeLine max (ending.bytes ++ rest) = .line [] ending.bytes.length := by
  have read : ([] : Bytes) = stripCr ([] ++ ending.bytes.dropLast) := by cases ending <;> rfl
  exact takeLine_ended ending rest (by simp) read (.inr (Nat.zero_le _))

theorem TextLine.taken (line : TextLine) (fits : line.Fits max) (rest : Bytes) :
    takeLine max (line.bytes ++ rest) = .line line.content line.bytes.length := by
  refine takeLine_ended line.ending rest line.noLf ?_ fits
  cases ends : line.ending with
  | crlf => exact (stripCr_concat _).symm
  | lf =>
    have plain := line.noCr ends
    simp only [LineEnd.bytes, List.dropLast_singleton, List.append_nil]
    exact (stripCr_plain plain).symm

theorem SizeLine.bytes_ne_nil (line : SizeLine size) : line.bytes ≠ [] := by
  cases ends : line.ending <;> simp [SizeLine.bytes, ends, LineEnd.bytes]

theorem SizeLine.front (line : SizeLine size) : LF ∉ line.digits ++ line.blanks ∧ CR ∉ line.digits ++ line.blanks := by
  have plain {byte : UInt8} (member : byte ∈ line.digits ++ line.blanks) :
      (hexval byte).isSome = true ∨ isBlank byte = true :=
    (List.mem_append.mp member).imp (line.hex byte) (line.blank byte)
  constructor
  · intro member
    rcases plain member with digit | blank
    · cases digit
    · cases blank
  · intro member
    rcases plain member with digit | blank
    · cases digit
    · cases blank

/-- A CR before a bare LF belongs to the extension as it is sent, and to the line end as it is read. -/
theorem SizeLine.stripped (line : SizeLine size) : ∃ extension, (extension = [] ∨ extension.head? = some 59) ∧
    stripCr line.content = line.digits ++ (line.blanks ++ extension) := by
  by_cases last : line.content.getLast? = some CR
  · have whole : line.content = (line.digits ++ line.blanks) ++ line.extension := (List.append_assoc _ _ _).symm
    rcases line.marked with none | first
    · rw [whole, none, List.append_nil] at last
      exact absurd (List.mem_of_getLast? last) line.front.2
    · obtain ⟨more, extension⟩ := List.head?_eq_some_iff.mp first
      have some : more ≠ [] := by
        rintro rfl
        rw [whole, extension, List.getLast?_concat] at last
        cases last
      refine ⟨59 :: more.dropLast, .inr rfl, ?_⟩
      rw [stripCr, if_pos last, whole, extension, List.dropLast_append_of_ne_nil (by simp),
        List.dropLast_cons_of_ne_nil some, List.append_assoc]
  · exact ⟨line.extension, line.marked, stripCr_plain last⟩

theorem SizeLine.taken (line : SizeLine size) (fits : line.Fits max) (rest : Bytes) :
    ∃ seen, takeLine max (line.bytes ++ rest) = .line seen line.bytes.length ∧ parseChunkSize seen = some size := by
  have noLf : LF ∉ line.content := by
    have whole : line.content = (line.digits ++ line.blanks) ++ line.extension := (List.append_assoc _ _ _).symm
    rw [whole]
    exact fun member => (List.mem_append.mp member).elim line.front.1 line.noLf
  obtain ⟨extension, marked, seen, read⟩ : ∃ extension, (extension = [] ∨ extension.head? = some 59) ∧
      line.digits ++ (line.blanks ++ extension) = stripCr (line.content ++ line.ending.bytes.dropLast) ∧
      (line.digits ++ (line.blanks ++ extension)).length ≤ line.content.length := by
    cases line.ending with
    | crlf => exact ⟨line.extension, line.marked, (stripCr_concat _).symm, Nat.le_refl _⟩
    | lf =>
      obtain ⟨extension, marked, same⟩ := line.stripped
      refine ⟨extension, marked, ?_, ?_⟩
      · simp only [LineEnd.bytes, List.dropLast_singleton, List.append_nil]
        exact same.symm
      · rw [← same, stripCr_length]
        split <;> omega
  refine ⟨_, takeLine_ended line.ending rest noLf seen (fits.imp id fun short => Nat.le_trans read short), ?_⟩
  rw [parseChunkSize_line line.hex line.count line.blank marked, line.value]

end

def ParserFlags.parsed (flags : ParserFlags) : ParserFlags := { flags with paused := false, skipBody := false }

/-- Two parsers that agree on the flags of the message and on its lengths. -/
structure Parser.SameFraming (p q : Parser) : Prop where
  flags : p.flags.parsed = q.flags.parsed
  contentLen : p.contentLen = q.contentLen
  origContentLen : p.origContentLen = q.origContentLen

theorem Parser.SameFraming.trans {p q r : Parser} (first : p.SameFraming q) (second : q.SameFraming r) : p.SameFraming r :=
  ⟨first.flags.trans second.flags, first.contentLen.trans second.contentLen,
    first.origContentLen.trans second.origContentLen⟩

def Parser.LeftAs (p q : Parser) : Prop :=
  ∃ paused skipBody major minor, q = { p with flags := { p.flags with paused, skipBody }, major, minor }

theorem Parser.LeftAs.sameFraming {p q : Parser} (left : p.LeftAs q) : p.SameFraming q := by
  obtain ⟨_, _, _, _, rfl⟩ := left
  exact ⟨rfl, rfl, rfl⟩

theorem Parser.LeftAs.trans {p q r : Parser} (first : p.LeftAs q) (second : q.LeftAs r) : p.LeftAs r := by
  obtain ⟨_, _, _, _, rfl⟩ := first
  obtain ⟨_, _, _, _, rfl⟩ := second
  exact ⟨_, _, _, _, rfl⟩

def HookName.ofTrailers : HookName → Bool
  | .onChunksComplete | .hdrKey | .hdrVal | .onMsgComplete => true
  | _ => false

structure Parser.InChunks (p : Parser) (place : ChunkState) : Prop where
  state : p.state = .body
  body : p.body = .chunked
  chunk : p.chunk = place

def ChunkedRest.Fits (p : Parser) : ChunkedRest → Prop
  | .chunks todo => p.InChunks .size ∧ ∀ chunk ∈ todo, chunk.size.Fits p.config.maxLineLength
  | .data chunk todo => p.InChunks .data ∧ p.contentLen = chunk.data.length ∧
      ∀ chunk ∈ todo, chunk.size.Fits p.config.maxLineLength
  | .ending _ todo => p.InChunks .dataEnd ∧ ∀ chunk ∈ todo, chunk.size.Fits p.config.maxLineLength
  | .fields todo => p.state = .trailers ∧ (∀ field ∈ todo, field.Fits p.config.maxLineLength) ∧
      (p.config.maxHeaderCount = 0 ∨ p.headerCount + todo.length ≤ p.config.maxHeaderCount)
  | .complete => p.state = .complete

theorem ChunkedRest.Fits.leftAs {p q : Parser} {now : ChunkedRest} (left : p.LeftAs q) (fits : now.Fits p) : now.Fits q := by
  obtain ⟨_, _, _, _, rfl⟩ := left
  cases now with
  | chunks todo => exact ⟨⟨fits.1.state, fits.1.body, fits.1.chunk⟩, fits.2⟩
  | data chunk todo => exact ⟨⟨fits.1.state, fits.1.body, fits.1.chunk⟩, fits.2⟩
  | ending chunk todo => exact ⟨⟨fits.1.state, fits.1.body, fits.1.chunk⟩, fits.2⟩
  | fields todo => exact fits
  | complete => exact fits

def ChunkedRest.rank (r : ChunkedRendering) : ChunkedRest → Nat
  | .chunks todo => 3 * todo.length + r.trailers.length + 2
  | .data _ todo => 3 * todo.length + r.trailers.length + 4
  | .ending _ todo => 3 * todo.length + r.trailers.length + 3
  | .fields todo => todo.length + 1
  | .complete => 0

section
variable {σ : Type}

/-- The parser `p` has been decoding a body, of which so much is left, and has told the hooks of the rest. -/
structure Decoding (r : ChunkedRendering) (p : Parser) (rest : Bytes) (now : ChunkedRest)
    (s : Scan (σ × List Fired)) (left : Bytes) : Prop where
  fits : now.Fits s.p
  left : left = now.bytes r ++ rest
  told : s.user.2.map Fired.told ++ now.told r = r.told
  config : s.p.config = p.config
  error : s.p.error = p.error
  trailing : ∀ f ∈ s.user.2, f.name.ofTrailers = true → f.p.SameFraming s.p ∧ s.p.state ≠ .body

variable {H : Hooks σ} {r : ChunkedRendering} {p : Parser} {rest left : Bytes} {now : ChunkedRest}
  {s : Scan (σ × List Fired)}

theorem Decoding.fired {next : ChunkedRest} {q : Parser} {user : σ} {new : List Fired} {left' : Bytes}
    (decoding : Decoding r p rest now s left) (fits : next.Fits q) (left : left' = next.bytes r ++ rest)
    (told : now.told r = new.map Fired.told ++ next.told r) (config : q.config = s.p.config) (error : q.error = s.p.error)
    (framing : s.p.state ≠ .body → s.p.SameFraming q ∧ q.state ≠ .body)
    (own : ∀ f ∈ new, f.name.ofTrailers = true → f.p.SameFraming q ∧ q.state ≠ .body) :
    Decoding r p rest next ⟨q, (user, s.user.2 ++ new)⟩ left' := by
  refine ⟨fits, left, ?_, config.trans decoding.config, error.trans decoding.error, ?_⟩
  · rw [List.map_append, List.append_assoc, ← told]
    exact decoding.told
  · intro f member trailing
    rcases List.mem_append.mp member with old | new
    · obtain ⟨same, past⟩ := decoding.trailing f old trailing
      exact ⟨same.trans (framing past).1, (framing past).2⟩
    · exact own f new trailing

theorem turn_body [Htstring] {s : Scan σ} {data : Bytes} {after : Scan σ × Nat} (here : s.p.state = .body)
    (some : data ≠ []) (parsed : parseBody H data s = after) (progress : after.2 ≠ 0) :
    turn H s data = .some after := by
  simp [turn, here, turnBody, some, parsed, progress]

variable (accepts : ∀ event p user, (H.call event p user).1.rc = 0)
include accepts

theorem hook_leftAs (name : HookName) (data : Bytes) (s : Scan (σ × List Fired)) :
    ∃ q user, hook H.logged name data s = (true, ⟨q, (user, s.user.2 ++ [⟨⟨name, data⟩, s.p, 0⟩])⟩) ∧ s.p.LeftAs q := by
  by_cases present : H.present name = true
  · have zero := accepts ⟨name, data⟩ s.p s.user.1
    refine ⟨s.p.replied (H.call ⟨name, data⟩ s.p s.user.1).1, (H.call ⟨name, data⟩ s.p s.user.1).2, ?_, ?_⟩
    · simp [hook, Hooks.logged, present, zero]
    · exact ⟨_, _, _, _, by simp only [Parser.replied, zero, if_true]; rfl⟩
  · refine ⟨s.p, s.user.1, ?_, s.p.flags.paused, s.p.flags.skipBody, s.p.major, s.p.minor, rfl⟩
    simp [hook, Hooks.logged, present, Parser.replied]

variable [Htstring]

theorem Decoding.called {next : ChunkedRest} {name : HookName} {data bytes : Bytes} {seen : Parser}
    (decoding : Decoding r p rest now s left) (here : s.p.state = .body)
    (split : left = bytes ++ (next.bytes r ++ rest)) (some : bytes ≠ [])
    (parsed : parseBody H.logged left s = ((hook H.logged name data ⟨seen, s.user⟩).2, bytes.length))
    (fits : next.Fits seen) (told : now.told r = Fired.told ⟨⟨name, data⟩, seen, 0⟩ :: next.told r)
    (config : seen.config = s.p.config) (error : seen.error = s.p.error)
    (own : name.ofTrailers = true → seen.state ≠ .body) :
    ∃ after, turn H.logged s left = .some after ∧ Decoding r p rest next after.1 (left.drop after.2) := by
  obtain ⟨q, user, called, leftAs⟩ := hook_leftAs accepts name data ⟨seen, s.user⟩
  rw [called] at parsed
  have some' : left ≠ [] := by simp [split, some]
  refine ⟨_, turn_body here some' parsed (by simpa using some), ?_⟩
  refine decoding.fired (fits.leftAs leftAs) ?_ told ?_ ?_ (absurd here) ?_
  · rw [split, List.drop_left]
  · obtain ⟨_, _, _, _, rfl⟩ := leftAs
    exact config
  · obtain ⟨_, _, _, _, rfl⟩ := leftAs
    exact error
  · intro f member trailing
    obtain rfl := List.mem_singleton.mp member
    refine ⟨leftAs.sameFraming, ?_⟩
    obtain ⟨_, _, _, _, rfl⟩ := leftAs
    exact own trailing

theorem Decoding.size {chunk : RenderedChunk} {todo : List RenderedChunk}
    (decoding : Decoding r p rest (.chunks (chunk :: todo)) s left) : ∃ after, turn H.logged s left = some after ∧
      Decoding r p rest (.data chunk todo) after.1 (left.drop after.2) := by
  obtain ⟨⟨state, body, place⟩, lines⟩ := decoding.fits
  have split : left = chunk.size.bytes ++ ((ChunkedRest.data chunk todo).bytes r ++ rest) := by
    rw [decoding.left]
    simp [ChunkedRest.bytes, ChunkedRendering.chunksBytes, RenderedChunk.bytes]
  obtain ⟨seen, taken, sized⟩ := chunk.size.taken (lines chunk (by simp)) ((ChunkedRest.data chunk todo).bytes r ++ rest)
  have nonzero : chunk.data.length ≠ 0 := by simpa using chunk.nonempty
  apply decoding.called accepts state split chunk.size.bytes_ne_nil
  · rw [parseBody_chunk H.logged body, place, split]
    simp only [parseSizeLine, taken, sized, if_neg nonzero]
    rfl
  · exact ⟨⟨state, body, rfl⟩, rfl, fun chunk member => lines chunk (by simp [member])⟩
  · rfl
  · rfl
  · rfl
  · rintro ⟨⟩

theorem Decoding.last (decoding : Decoding r p rest (.chunks []) s left) (within : r.Within p.config) :
    ∃ after, turn H.logged s left = some after ∧ Decoding r p rest (.fields r.trailers) after.1 (left.drop after.2) := by
  obtain ⟨⟨state, body, place⟩, _⟩ := decoding.fits
  rw [← decoding.config] at within
  have split : left = r.last.bytes ++ ((ChunkedRest.fields r.trailers).bytes r ++ rest) := by
    rw [decoding.left]
    simp [ChunkedRest.bytes, ChunkedRendering.chunksBytes]
  obtain ⟨seen, taken, sized⟩ := r.last.taken within.last ((ChunkedRest.fields r.trailers).bytes r ++ rest)
  apply decoding.called accepts state split r.last.bytes_ne_nil
  · rw [parseBody_chunk H.logged body, place, split]
    simp only [parseSizeLine, taken, sized, if_true]
    rfl
  · exact ⟨rfl, within.lines, within.count.imp id fun few => by simpa using few⟩
  · rfl
  · rfl
  · rfl
  · rintro - ⟨⟩

theorem Decoding.ending {chunk : RenderedChunk} {todo : List RenderedChunk}
    (decoding : Decoding r p rest (.ending chunk todo) s left) : ∃ after, turn H.logged s left = some after ∧
      Decoding r p rest (.chunks todo) after.1 (left.drop after.2) := by
  obtain ⟨⟨state, body, place⟩, lines⟩ := decoding.fits
  have split : left = chunk.ending.bytes ++ ((ChunkedRest.chunks todo).bytes r ++ rest) := by
    rw [decoding.left]
    simp [ChunkedRest.bytes]
  apply decoding.called accepts state split chunk.ending.bytes_ne_nil
  · rw [parseBody_chunk H.logged body, place, split]
    simp only [parseChunkEnd, takeLine_empty, ne_eq, not_true_eq_false, if_false]
    rfl
  · exact ⟨⟨state, body, rfl⟩, lines⟩
  · rfl
  · rfl
  · rfl
  · rintro ⟨⟩

theorem Decoding.data {chunk : RenderedChunk} {todo : List RenderedChunk}
    (decoding : Decoding r p rest (.data chunk todo) s left) : ∃ after, turn H.logged s left = some after ∧
      Decoding r p rest (.ending chunk todo) after.1 (left.drop after.2) := by
  obtain ⟨⟨state, body, place⟩, length, lines⟩ := decoding.fits
  have split : left = chunk.data ++ ((ChunkedRest.ending chunk todo).bytes r ++ rest) := by
    rw [decoding.left]
    simp [ChunkedRest.bytes]
  have piece : s.p.chunkPiece left = chunk.data.length := by
    rw [Parser.chunkPiece, length, split, List.length_append]
    split <;> omega
  obtain ⟨q, user, called, leftAs⟩ := hook_leftAs accepts .body chunk.data s
  have parsed : parseBody H.logged left s = (⟨{ q with contentLen := 0, chunk := .dataEnd },
      (user, s.user.2 ++ [⟨⟨.body, chunk.data⟩, s.p, 0⟩])⟩, chunk.data.length) := by
    obtain ⟨_, _, _, _, rfl⟩ := leftAs
    rw [parseBody_chunk H.logged body, place]
    simp only [parseChunkData, piece]
    rw [split, List.take_left, called]
    simp [countChunk, length]
  have some : left ≠ [] := by simp [split, chunk.nonempty]
  refine ⟨_, turn_body state some parsed (by simpa using chunk.nonempty), ?_⟩
  obtain ⟨_, _, _, _, rfl⟩ := leftAs
  refine decoding.fired ⟨⟨state, body, rfl⟩, lines⟩ ?_ rfl rfl rfl (absurd state) ?_
  · rw [split, List.drop_left]
  · intro f member trailing
    obtain rfl := List.mem_singleton.mp member
    cases trailing

/-- A field of the trailer section is reported and nothing else. -/
theorem parseHeader_reported {line : Bytes} (accepted : HeaderLine line) (s : Scan (σ × List Fired)) :
    ∃ q q' user, s.p.LeftAs q ∧ q.LeftAs q' ∧ parseHeader H.logged line true s = (true, ⟨q', (user, s.user.2 ++
      [⟨⟨.hdrKey, headerName line⟩, s.p, 0⟩, ⟨⟨.hdrVal, headerValue line⟩, q, 0⟩])⟩) := by
  obtain ⟨q, user, key, leftAs⟩ := hook_leftAs accepts .hdrKey (headerName line) s
  obtain ⟨q', user', value, leftAs'⟩ := hook_leftAs accepts .hdrVal (headerValue line)
    ⟨q, (user, s.user.2 ++ [⟨⟨.hdrKey, headerName line⟩, s.p, 0⟩])⟩
  refine ⟨q, q', user', leftAs, leftAs', ?_⟩
  have colon : line.dropWhile (· != COLON) ≠ [] := by
    intro none
    have kept := List.dropWhile_eq_nil_iff.mp none COLON accepted.colon
    simp at kept
  obtain ⟨byte, after, rest⟩ := List.exists_cons_of_ne_nil colon
  have wellFormed : ¬(line.head?.any isBlank = true ∨ headerName line = [] ∨
      (headerName line).getLast?.any isBlank = true) := by
    rintro (blank | none | blank)
    · cases accepted.flush.symm.trans blank
    · exact accepted.named none
    · cases accepted.tight.symm.trans blank
  have trimmed : headerValue line = trimBlanks after := by rw [headerValue, rest, List.tail_cons]
  rw [trimmed] at value ⊢
  simp only [parseHeader, rest]
  rw [if_neg (by exact wellFormed), show line.takeWhile (· != COLON) = headerName line from rfl, key]
  simp only [andThen, if_true, value, List.append_assoc, List.cons_append, List.nil_append]

theorem Decoding.field {field : TrailerField} {todo : List TrailerField}
    (decoding : Decoding r p rest (.fields (field :: todo)) s left) : ∃ after, turn H.logged s left = some after ∧
      Decoding r p rest (.fields todo) after.1 (left.drop after.2) := by
  obtain ⟨state, lines, count⟩ := decoding.fits
  have split : left = field.bytes ++ ((ChunkedRest.fields todo).bytes r ++ rest) := by
    rw [decoding.left]
    simp [ChunkedRest.bytes, ChunkedRendering.fieldsBytes]
  have taken := field.taken (lines field (by simp)) ((ChunkedRest.fields todo).bytes r ++ rest)
  rw [List.length_cons] at count
  obtain ⟨q, q', user, leftAs, leftAs', parsed⟩ := parseHeader_reported accepts field.accepted { s with p := s.p.countHeader }
  have turned : turn H.logged s left = some (⟨q', (user, s.user.2 ++
      [⟨⟨.hdrKey, headerName field.content⟩, s.p.countHeader, 0⟩, ⟨⟨.hdrVal, headerValue field.content⟩, q, 0⟩])⟩,
      field.bytes.length) := by
    have some : field.content ≠ [] := fun none => by simpa [none] using field.accepted.colon
    have counted : ¬(s.p.config.maxHeaderCount ≠ 0 ∧ s.p.headerCount ≥ s.p.config.maxHeaderCount) := by omega
    simp only [turn, state, turnHead, split, taken, parseHeadLine, reduceCtorEq, if_false, if_neg some, if_neg counted,
      beq_self_eq_true]
    rw [parsed]
  have whole := leftAs.trans leftAs'
  have fits : (ChunkedRest.fields todo).Fits s.p.countHeader := by
    refine ⟨state, fun field member => lines field (by simp [member]), ?_⟩
    simp only [Parser.countHeader]
    omega
  have past : q'.state ≠ .body := by
    simp [(fits.leftAs whole).1]
  refine ⟨_, turned, decoding.fired (fits.leftAs whole) ?_ rfl ?_ ?_ ?_ ?_⟩
  · rw [split, List.drop_left]
  · obtain ⟨_, _, _, _, rfl⟩ := whole
    rfl
  · obtain ⟨_, _, _, _, rfl⟩ := whole
    rfl
  · exact fun _ => ⟨(⟨rfl, rfl, rfl⟩ : s.p.SameFraming s.p.countHeader).trans whole.sameFraming, past⟩
  · intro f member _
    rcases List.mem_pair.mp member with rfl | rfl
    · exact ⟨whole.sameFraming, past⟩
    · exact ⟨leftAs'.sameFraming, past⟩

omit accepts in
theorem Decoding.empty (decoding : Decoding r p rest (.fields []) s left) : ∃ after, turn H.logged s left = some after ∧
    Decoding r p rest .complete after.1 (left.drop after.2) := by
  obtain ⟨state, _, _⟩ := decoding.fits
  have split : left = r.empty.bytes ++ rest := decoding.left
  have turned : turn H.logged s left = some ({ s with p := { s.p with state := .complete } }, r.empty.bytes.length) := by
    simp only [turn, state, turnHead, split, takeLine_empty, parseHeadLine, reduceCtorEq, if_false, if_true]
  refine ⟨_, turned, rfl, ?_, decoding.told, decoding.config, decoding.error, ?_⟩
  · rw [split, List.drop_left]
    rfl
  · intro f member trailing
    obtain ⟨same, _⟩ := decoding.trailing f member trailing
    exact ⟨⟨same.flags, same.contentLen, same.origContentLen⟩, by simp⟩

theorem Decoding.turn (decoding : Decoding r p rest now s left) (within : r.Within p.config) (more : now ≠ .complete) :
    ∃ after next, Evhtp.turn H.logged s left = some after ∧ Decoding r p rest next after.1 (left.drop after.2) ∧
      next.rank r < now.rank r := by
  cases now with
  | chunks todo =>
    cases todo with
    | nil =>
      obtain ⟨after, turned, next⟩ := decoding.last accepts within
      exact ⟨after, _, turned, next, by simp only [ChunkedRest.rank, List.length_nil]; omega⟩
    | cons chunk todo =>
      obtain ⟨after, turned, next⟩ := decoding.size accepts
      exact ⟨after, _, turned, next, by simp only [ChunkedRest.rank, List.length_cons]; omega⟩
  | data chunk todo =>
    obtain ⟨after, turned, next⟩ := decoding.data accepts
    exact ⟨after, _, turned, next, Nat.lt_succ_self _⟩
  | ending chunk todo =>
    obtain ⟨after, turned, next⟩ := decoding.ending accepts
    exact ⟨after, _, turned, next, Nat.lt_succ_self _⟩
  | fields todo =>
    cases todo with
    | nil =>
      obtain ⟨after, turned, next⟩ := decoding.empty
      exact ⟨after, _, turned, next, Nat.succ_pos _⟩
    | cons field todo =>
      obtain ⟨after, turned, next⟩ := decoding.field accepts
      exact ⟨after, _, turned, next, Nat.lt_succ_self _⟩
  | complete => exact absurd rfl more

theorem Decoding.path (decoding : Decoding r p rest now s left) (within : r.Within p.config)
    {after : Scan (σ × List Fired) × Bytes} (path : Relation.ReflTransGen (Evhtp.Within H.logged) (s, left) after) :
    ∃ next, Decoding r p rest next after.1 after.2 ∧ (after.1 = s ∧ next = now ∨ next.rank r < now.rank r) := by
  induction path with
  | refl => exact ⟨now, decoding, .inl ⟨rfl, rfl⟩⟩
  | tail _ step ih =>
    obtain ⟨next, here, progress⟩ := ih
    obtain ⟨_, underway, state, used, taken, rfl⟩ := step
    have more : next ≠ .complete := by
      rintro rfl
      exact underway here.fits
    obtain ⟨result, later, turned, there, less⟩ := here.turn accepts within more
    cases turned.symm.trans taken
    refine ⟨later, there, .inr ?_⟩
    rcases progress with ⟨_, rfl⟩ | before
    · exact less
    · exact Nat.lt_trans less before

/-- The message was decoded: the hooks were told all of it, and from the end of the chunks on the flags and the lengths
stayed as they were. -/
structure Inverts (r : ChunkedRendering) (p last : Parser) (log : List Fired) : Prop where
  told : log.map Fired.told = r.told
  state : last.state = .start
  error : last.error = p.error
  framing : ∀ f ∈ log, f.name.ofTrailers = true → f.p.SameFraming last

omit [Htstring] in
theorem Decoding.finish (decoding : Decoding r p rest .complete s left) :
    left = rest ∧ Inverts r p (finishMessage H.logged s).p (finishMessage H.logged s).user.2 := by
  obtain ⟨q, user, called, leftAs⟩ := hook_leftAs accepts .onMsgComplete [] { s with p := s.p.finish }
  rw [finishMessage, called]
  have framing : s.p.SameFraming q := (⟨rfl, rfl, rfl⟩ : s.p.SameFraming s.p.finish).trans leftAs.sameFraming
  refine ⟨decoding.left, ?_, ?_, ?_, ?_⟩
  · rw [List.map_append]
    exact decoding.told
  · obtain ⟨_, _, _, _, rfl⟩ := leftAs
    rfl
  · obtain ⟨_, _, _, _, rfl⟩ := leftAs
    exact decoding.error
  · intro f member trailing
    rcases List.mem_append.mp member with old | new
    · exact (decoding.trailing f old trailing).1.trans framing
    · obtain rfl := List.mem_singleton.mp new
      exact leftAs.sameFraming

omit accepts [Htstring] in
theorem Decoding.sane (decoding : Decoding r p rest now s left) : s.p.Sane := by
  have fits := decoding.fits
  cases now with
  | chunks todo =>
    obtain ⟨⟨_, body, place⟩, _⟩ := fits
    constructor <;> simp [body, place]
  | data chunk todo =>
    obtain ⟨⟨_, body, _⟩, length, _⟩ := fits
    have some : 0 < chunk.data.length := List.length_pos_iff.mpr chunk.nonempty
    constructor <;> simp [body, length, some]
  | ending chunk todo =>
    obtain ⟨⟨_, body, place⟩, _⟩ := fits
    constructor <;> simp [body, place]
  | fields todo =>
    apply Parser.Sane.of_state
    rw [fits.1]
    nofun
  | complete =>
    apply Parser.Sane.of_state
    rw [show s.p.state = .complete from fits]
    nofun

theorem Decoding.run (decoding : Decoding r p rest now s left) (within : r.Within p.config) :
    (left.drop (runLoop H.logged (runFuel left) left s).2 = rest ∧
      Inverts r p (runLoop H.logged (runFuel left) left s).1.p (runLoop H.logged (runFuel left) left s).1.user.2) ∨
    (runLoop H.logged (runFuel left) left s).1.p.flags.paused = true ∧ ∃ next,
      Decoding r p rest next (runLoop H.logged (runFuel left) left s).1
        (left.drop (runLoop H.logged (runFuel left) left s).2) ∧
      ((runLoop H.logged (runFuel left) left s).1 = s ∨ next.rank r < now.rank r) := by
  obtain ⟨_, last, path, ended⟩ := run_spec (s := s) H.logged decoding.sane left
  generalize runLoop H.logged (runFuel left) left s = result at *
  obtain ⟨after, used⟩ := result
  obtain ⟨next, reached, progress⟩ := decoding.path accepts within path
  have waits : Evhtp.turn H.logged last (left.drop used) ≠ none := by
    intro none
    by_cases done : next = .complete
    · subst done
      have complete : last.p.state = .complete := reached.fits
      simp [Evhtp.turn, complete] at none
    · obtain ⟨_, _, turned, _⟩ := reached.turn accepts within done
      cases turned.symm.trans none
  have alive : last.p.state ≠ .error := by
    intro failed
    apply waits
    simp only [Evhtp.turn, failed]
  cases ended with
  | completed done _ =>
    left
    have complete : next = .complete := by
      have fits := reached.fits
      cases next with
      | complete => rfl
      | chunks todo => cases done.symm.trans fits.1.state
      | data chunk todo => cases done.symm.trans fits.1.state
      | ending chunk todo => cases done.symm.trans fits.1.state
      | fields todo => cases done.symm.trans fits.1
    subst complete
    exact reached.finish accepts
  | failed failed => exact absurd failed alive
  | paused paused => exact .inr ⟨paused, next, reached, progress.imp (fun same => same.1) id⟩
  | waiting none => exact absurd none waits

omit accepts [Htstring] in
theorem Decoding.resume (decoding : Decoding r p rest now s left) : Decoding r p rest now s.resume left := by
  have leftAs : s.p.LeftAs s.p.resume := ⟨false, s.p.flags.skipBody, s.p.major, s.p.minor, rfl⟩
  refine ⟨decoding.fits.leftAs leftAs, decoding.left, decoding.told, decoding.config, decoding.error, ?_⟩
  intro f member trailing
  obtain ⟨same, past⟩ := decoding.trailing f member trailing
  exact ⟨same.trans leftAs.sameFraming, past⟩

omit accepts [Htstring] in
theorem Inverts.resume {last : Parser} {log : List Fired} (inverts : Inverts r p last log) : Inverts r p last.resume log :=
  ⟨inverts.told, inverts.state, inverts.error, fun f member trailing =>
    (inverts.framing f member trailing).trans ⟨rfl, rfl, rfl⟩⟩

def Fed.Decoded (r : ChunkedRendering) (p : Parser) (rest : Bytes) (fed : Fed (σ × List Fired)) : Prop :=
  fed.left = rest ∧ Inverts r p fed.p.toParser fed.user.2

theorem Decoding.call {fed : Fed (σ × List Fired)} (decoding : Decoding r p rest now fed.scan fed.left)
    (within : r.Within p.config) : (fed.call H.logged).Decoded r p rest ∨ ∃ next,
      Decoding r p rest next (fed.call H.logged).scan (fed.call H.logged).left ∧
        (fed.p.flags.paused = true ∨ next.rank r < now.rank r) := by
  rcases decoding.run accepts within with ⟨consumed, inverts⟩ | ⟨paused, next, reached, progress⟩
  · exact .inl ⟨consumed, inverts.resume⟩
  · refine .inr ⟨next, reached.resume, progress.imp (fun same => ?_) id⟩
    rw [same] at paused
    exact paused

theorem Decoding.calls {fed : Fed (σ × List Fired)} (decoding : Decoding r p rest now fed.scan fed.left)
    (within : r.Within p.config) (running : fed.p.flags.paused = false) :
    ∃ count, (fed.calls H.logged count).Decoded r p rest := by
  induction rank : now.rank r using Nat.strongRecOn generalizing now fed with
  | ind n ih =>
    rcases decoding.call accepts within with done | ⟨next, reached, paused | less⟩
    · exact ⟨1, done⟩
    · cases running.symm.trans paused
    · obtain ⟨count, done⟩ := ih (next.rank r) (rank ▸ less) reached rfl rfl
      exact ⟨count + 1, done⟩

end

/-- Decoding inverts every chunked encoding: the hooks are told of every string with its length, of the end of the
chunks, of every trailer field and of the end of the message, in as many calls as the hooks pause for. -/
theorem chunked_decoding_inverts [Htstring] {σ : Type} (H : Hooks σ)
    (accepts : ∀ event p user, (H.call event p user).1.rc = 0) (r : ChunkedRendering) {p : Htparser}
    (state : p.state = .body) (body : p.body = .chunked) (place : p.chunk = .size) (within : r.Within p.config) (user : σ)
    (rest : Bytes) :
    (∃ count, ((⟨p, (user, []), r.bytes ++ rest⟩ : Fed (σ × List Fired)).calls H.logged count).Decoded r
      p.toParser rest) ∧
    (p.flags.paused = false → (∀ event p user, (H.call event p user).1.pause = false) →
      (htparserRun H.logged p (user, []) (r.bytes ++ rest)).2.2 = r.bytes.length ∧
      Inverts r p.toParser (htparserRun H.logged p (user, []) (r.bytes ++ rest)).1.toParser
        (htparserRun H.logged p (user, []) (r.bytes ++ rest)).2.1.2) := by
  have decoding : Decoding r p.toParser rest (.chunks r.chunks) ⟨p.toParser, (user, ([] : List Fired))⟩ (r.bytes ++ rest) :=
    ⟨⟨⟨state, body, place⟩, within.sizes⟩, rfl, rfl, rfl, rfl, fun _ member => absurd member List.not_mem_nil⟩
  constructor
  · have fed : Decoding r p.toParser rest (.chunks r.chunks)
        (⟨p, (user, []), r.bytes ++ rest⟩ : Fed (σ × List Fired)).scan (r.bytes ++ rest) := decoding
    rcases fed.call accepts within with done | ⟨next, reached, _⟩
    · exact ⟨1, done⟩
    · obtain ⟨count, done⟩ := reached.calls accepts within rfl
      exact ⟨count + 1, done⟩
  · intro running quiet
    have quiet' : ∀ event p s, (H.logged.call event p s).1.pause = false := by
      intro event p s
      simp only [Hooks.logged]
      split
      · exact quiet event p s.1
      · rfl
    have running' := (HookInvariant.running quiet').runLoop (runFuel (r.bytes ++ rest)) (r.bytes ++ rest)
      (s := ⟨p.toParser, (user, [])⟩) running
    obtain ⟨short, _⟩ := run_spec (s := ⟨p.toParser, (user, ([] : List Fired))⟩) H.logged decoding.sane (r.bytes ++ rest)
    rcases decoding.run accepts within with ⟨consumed, inverts⟩ | ⟨paused, _⟩
    · refine ⟨?_, inverts⟩
      have length := congrArg List.length consumed
      rw [List.length_drop, List.length_append] at length
      rw [List.length_append] at short
      change (runLoop H.logged _ _ _).2 = _
      omega
    · cases running'.symm.trans paused

def renderedGreeting : ChunkedRendering where
  chunks :=
    [{ data := ascii "hello"
       nonempty := by decide
       size :=
        { digits := ascii "005", blanks := [SP], extension := ascii ";x", hex := by decide +kernel, count := by decide
          value := by decide, blank := by decide +kernel, marked := by decide, noLf := by decide +kernel }
       ending := .lf },
     { data := ascii "world, sir"
       nonempty := by decide
       size :=
        { digits := ascii "a", ending := .lf, hex := by decide +kernel, count := by decide, value := by decide
          blank := by decide +kernel, marked := by decide, noLf := by decide +kernel } }]
  last :=
    { digits := ascii "00", hex := by decide +kernel, count := by decide, value := by decide, blank := by decide +kernel
      marked := by decide, noLf := by decide +kernel }
  trailers :=
    [{ content := ascii "A: b ", ending := .lf, noLf := by decide +kernel, noCr := by decide
       accepted := ⟨by decide, by decide, by decide, by decide⟩ }]

def chunkWaiting : Htparser :=
  { config := defaultConfig, type := .request, state := .body, body := .chunked, flags := { haveTe := true, chunked := true } }

section
attribute [local instance] Plain.htstring

theorem chunked_decoding_inverts_greeting :
    renderedGreeting.bytes = ascii "005 ;x\r\nhello\na\nworld, sir\r\n00\r\nA: b \n\r\n" ∧
    (htparserRun silentHooks.logged chunkWaiting ((), []) (renderedGreeting.bytes ++ ascii "GET")).2.2 =
      renderedGreeting.bytes.length ∧
    Inverts renderedGreeting chunkWaiting.toParser
      (htparserRun silentHooks.logged chunkWaiting ((), []) (renderedGreeting.bytes ++ ascii "GET")).1.toParser
      (htparserRun silentHooks.logged chunkWaiting ((), []) (renderedGreeting.bytes ++ ascii "GET")).2.1.2 := by
  have within : renderedGreeting.Within chunkWaiting.config := by
    constructor
    · intro chunk member
      rcases List.mem_pair.mp member with rfl | rfl <;> exact .inr (by decide)
    · exact .inr (by decide)
    · intro field member
      obtain rfl := List.mem_singleton.mp member
      exact .inr (by decide)
    · exact .inr (by decide)
  refine ⟨by decide, ?_⟩
  exact (chunked_decoding_inverts silentHooks (fun _ _ _ => rfl) renderedGreeting rfl rfl rfl within () (ascii "GET")).2
    rfl fun _ _ _ => rfl

end

end Evhtp
