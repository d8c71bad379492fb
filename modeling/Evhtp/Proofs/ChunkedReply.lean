import Evhtp.Proofs.ReplyRoundTrip

/-! Chunked replies. Each buffer becomes one chunk, whose size is printed as an `unsigned`: the body section
is decoded to the buffers it was made from as long as every length fits 32 bits. -/

namespace Evhtp

theorem hexval_hexChar {d : Nat} (small : d < 16) : hexval (hexChar d) = some d := by
  decide +revert

theorem printHex_mem {n : Nat} {byte : UInt8} (member : byte ∈ printHex n) : ∃ d < 16, byte = hexChar d :=
  Numeral.mem_digits (by decide) (List.mem_reverse.mp member)

theorem printHex_unbroken (n : Nat) : Unbroken (printHex n) := by
  intro byte member
  obtain ⟨d, below, rfl⟩ := printHex_mem member
  clear member
  decide +revert

theorem printHex_length (n : Nat) : (printHex n).length ≤ 8 := by
  rw [printHex, List.length_reverse]
  exact Numeral.length_digits_le 8 _

theorem parseChunkSize_printHex (n : Nat) : parseChunkSize (printHex n) = some (n % 2 ^ 32) := by
  have value : Numeral.value 16 hexDigitVal 0 (printHex n) = n % 2 ^ 32 :=
    Numeral.value_digits (by decide) (fun d below => by simp [hexDigitVal, hexval_hexChar below])
      (Nat.mod_lt n (by decide))
  have hex : ∀ byte ∈ printHex n, (hexval byte).isSome = true := by
    intro byte member
    obtain ⟨d, below, rfl⟩ := printHex_mem member
    rw [hexval_hexChar below]
    rfl
  have some : (printHex n).length ≠ 0 := by
    simp [printHex, Numeral.digits_ne_nil]
  have few := printHex_length n
  have blank : ∀ byte ∈ ([] : Bytes), isBlank byte = true := by simp
  have read := parseChunkSize_line hex (by omega) blank (.inl (rfl : ([] : Bytes) = []))
  rwa [List.append_nil, List.append_nil, value] at read

theorem takeLine_first {max used : Nat} {byte : UInt8} {rest content : Bytes} (text : byte ≠ CR ∧ byte ≠ LF)
    (line : takeLine max (byte :: rest) = .line content used) : content ≠ [] := by
  have raw : (byte :: rest).takeWhile (· != LF) = byte :: rest.takeWhile (· != LF) := by simp [text.2]
  have kept : stripCr (byte :: rest.takeWhile (· != LF)) ≠ [] := by
    rw [stripCr]
    split
    next last =>
      cases tail : rest.takeWhile (· != LF) with
      | nil =>
        rw [tail] at last
        exact absurd (Option.some.inj last) text.1
      | cons => simp
    next => simp
  rw [takeLine, raw] at line
  split at line
  next => split at line <;> cases line
  next =>
    split at line
    next => cases line
    next =>
      cases line
      exact kept

structure ChunkReady (p : Parser) : Prop where
  state : p.state = .body
  body : p.body = .chunked
  chunk : p.chunk = .size
  running : p.flags.paused = false
  error : p.error = .none
  limit : p.config.maxLineLength = 0 ∨ 8 ≤ p.config.maxLineLength

theorem ChunkReady.atChunk {p : Parser} (ready : ChunkReady p) : AtChunk p :=
  ⟨ready.state, ready.body, ready.chunk, ready.running, ready.error⟩

theorem ChunkReady.fits {p : Parser} (ready : ChunkReady p) (n : Nat) :
    p.config.maxLineLength = 0 ∨ (printHex n).length ≤ p.config.maxLineLength := by
  have := printHex_length n
  rcases ready.limit with none | eight
  · exact .inl none
  · exact .inr (by omega)

theorem ChunkReady.chunkAt {p : Parser} (ready : ChunkReady p) (size : Nat) : ChunkReady (p.chunkAt .size 0 size) :=
  ⟨ready.state, ready.body, rfl, ready.running, ready.error, ready.limit⟩

section
variable [Htstring] {p : Parser} (ready : ChunkReady p) (user : Collected)
include ready

theorem ChunkReady.size_next {n : Nat} (some : n % 2 ^ 32 ≠ 0) (rest : Bytes) :
    Decoder.Next (resumedTurn collector) (⟨p, user⟩, printHex n ++ crlf ++ rest)
      (⟨p.chunkAt .data (n % 2 ^ 32) (n % 2 ^ 32), user⟩, rest) :=
  ready.atChunk.size_next rest (printHex_unbroken n) (ready.fits n) (parseChunkSize_printHex n) some (hook_collector _ _ _)

theorem ChunkReady.data_next {bytes : Bytes} (some : bytes ≠ []) (size : Nat) (rest : Bytes) :
    Decoder.Next (resumedTurn collector) (⟨p.chunkAt .data bytes.length size, user⟩, bytes ++ rest)
      (⟨p.chunkAt .dataEnd 0 size, { user with body := user.body ++ bytes }⟩, rest) :=
  ready.atChunk.data_next size rest some (hook_collector _ _ _)

theorem ChunkReady.chunk_steps {buf : Bytes} (some : buf ≠ []) (small : buf.length < 2 ^ 32) (rest : Bytes) :
    Decoder.Steps (resumedTurn collector) (⟨p, user⟩, chunkBytes buf ++ rest)
      (⟨p.chunkAt .size 0 buf.length, { user with body := user.body ++ buf }⟩, rest) := by
  have exact' : buf.length % 2 ^ 32 = buf.length := Nat.mod_eq_of_lt small
  have nonzero : buf.length % 2 ^ 32 ≠ 0 := by
    rw [exact']
    simpa using some
  have sized := ready.size_next user nonzero (buf ++ (crlf ++ rest))
  rw [exact'] at sized
  have bytes : chunkBytes buf ++ rest = printHex buf.length ++ crlf ++ (buf ++ (crlf ++ rest)) := by
    simp [chunkBytes]
  rw [bytes]
  exact .head sized (.head (ready.data_next user some buf.length (crlf ++ rest))
    (.single (ready.atChunk.end_next buf.length rest (hook_collector _ _ _))))

theorem ChunkReady.zero_next {n : Nat} (zero : n % 2 ^ 32 = 0) (rest : Bytes) :
    Decoder.Next (resumedTurn collector) (⟨p, user⟩, printHex n ++ crlf ++ rest)
      (⟨p.atTrailers, { user with ended := user.ended ++ [user.body] }⟩, rest) :=
  ready.atChunk.zero_next rest (printHex_unbroken n) (ready.fits n)
    ((parseChunkSize_printHex n).trans (congrArg some zero)) (hook_collector _ _ _)

theorem ChunkReady.last_steps : ∃ q, q.state = .start ∧ q.error = .none ∧
    Decoder.Steps (resumedTurn collector) (⟨p, user⟩, ascii "0\r\n\r\n")
      (⟨q, { user with ended := user.ended ++ [user.body]
                       messages := user.messages ++ [⟨p.status, user.headers, user.body⟩] }⟩, []) := by
  have zero : Decoder.Next (resumedTurn collector) (⟨p, user⟩, ascii "0\r\n\r\n")
      (⟨p.atTrailers, { user with ended := user.ended ++ [user.body] }⟩, crlf) := ready.zero_next (n := 0) user rfl crlf
  have done : Decoder.Next (resumedTurn collector)
      (⟨{ p.atTrailers with state := .complete }, { user with ended := user.ended ++ [user.body] }⟩, []) _ :=
    complete_collected { user with ended := user.ended ++ [user.body] } [] rfl ready.running
  exact ⟨Parser.finish { p.atTrailers with state := .complete }, rfl, ready.error,
    .head zero (.head (AtChunk.trailers_next ready.running) (.single done))⟩

theorem ChunkReady.end_fails (size : Nat) {byte : UInt8} (next : UInt8) (rest : Bytes) (text : byte ≠ CR ∧ byte ≠ LF) :
    Decoder.Next (resumedTurn collector) (⟨p.chunkAt .dataEnd 0 size, user⟩, byte :: next :: rest)
      (⟨(p.chunkAt .dataEnd 0 size).fail .invalChunk, user⟩, byte :: next :: rest) := by
  have parsed : parseBody collector (byte :: next :: rest) ⟨p.chunkAt .dataEnd 0 size, user⟩ =
      (⟨(p.chunkAt .dataEnd 0 size).fail .invalChunk, user⟩, 0) := by
    have mode : (p.chunkAt .dataEnd 0 size).body = .chunked := ready.body
    have place : (p.chunkAt .dataEnd 0 size).chunk = .dataEnd := rfl
    rw [parseBody_chunk collector mode, place]
    simp only [parseChunkEnd]
    split
    next => simp [Scan.fail]
    next => rfl
    next content used line =>
      rw [if_pos (takeLine_first text line)]
      rfl
  have here : (p.chunkAt .dataEnd 0 size).state = .body := ready.state
  have stopped : ((p.chunkAt .dataEnd 0 size).fail .invalChunk).resume = (p.chunkAt .dataEnd 0 size).fail .invalChunk :=
    Parser.resume_of_running ready.running
  refine ⟨⟨(p.chunkAt .dataEnd 0 size).fail .invalChunk, user⟩, 0, ?_, rfl⟩
  have failed : ((p.chunkAt .dataEnd 0 size).fail .invalChunk).state = .error := rfl
  simp only [resumedTurn, turn, here, turnBody, parsed, failed, reduceCtorEq, and_false, if_false, Option.map_some,
    Scan.resume, stopped]

/-- A chunk whose length does not fit 32 bits: it ends the body before its data, or its data is cut short and
the next byte is taken for the end of the chunk. -/
theorem ChunkReady.overflow_steps {n : Nat} (large : 2 ^ 32 ≤ n) (rest : Bytes) : ∃ q user' left,
    Decoder.Steps (resumedTurn collector) (⟨p, user⟩, chunkBytes (List.replicate n 0) ++ rest) (⟨q, user'⟩, left) ∧
      q.flags.paused = false ∧
      ((q.state = .error ∧ q.error = .invalChunk) ∨ user'.ended = user.ended ++ [user.body]) := by
  have bytes : chunkBytes (List.replicate n 0) ++ rest = printHex n ++ crlf ++ (List.replicate n 0 ++ (crlf ++ rest)) := by
    simp [chunkBytes]
  rw [bytes]
  by_cases zero : n % 2 ^ 32 = 0
  · exact ⟨p.atTrailers, _, _, .single (ready.zero_next user zero _), ready.running, .inr rfl⟩
  · obtain ⟨k, sum⟩ : ∃ k, n = n % 2 ^ 32 + (k + 2) := ⟨n - n % 2 ^ 32 - 2, by omega⟩
    have cut : List.replicate n (0 : UInt8) = List.replicate (n % 2 ^ 32) 0 ++ 0 :: 0 :: List.replicate k 0 := by
      conv_lhs => rw [sum]
      rw [List.replicate_add, List.replicate_succ, List.replicate_succ]
    have some : List.replicate (n % 2 ^ 32) (0 : UInt8) ≠ [] := by simpa using zero
    have sized := ready.size_next user zero (List.replicate n 0 ++ (crlf ++ rest))
    have taken := ready.data_next user some (n % 2 ^ 32) (0 :: 0 :: (List.replicate k 0 ++ (crlf ++ rest)))
    have fails := ready.end_fails { user with body := user.body ++ List.replicate (n % 2 ^ 32) 0 } (n % 2 ^ 32)
      0 (List.replicate k 0 ++ (crlf ++ rest)) (show (0 : UInt8) ≠ CR ∧ (0 : UInt8) ≠ LF by decide)
    rw [List.length_replicate] at taken
    simp only [cut, List.append_assoc, List.cons_append] at sized ⊢
    exact ⟨_, _, _, .head sized (.head taken (.single fails)), ready.running, .inl ⟨rfl, rfl⟩⟩

omit ready in
theorem chunks_steps (bufs : List Bytes) {p : Parser} (ready : ChunkReady p) (user : Collected)
    (small : ∀ buf ∈ bufs, buf.length < 2 ^ 32) (rest : Bytes) :
    ∃ q, ChunkReady q ∧ q.status = p.status ∧
      Decoder.Steps (resumedTurn collector) (⟨p, user⟩, bufs.flatMap (fun buf => if buf = [] then [] else chunkBytes buf) ++ rest)
        (⟨q, { user with body := user.body ++ bufs.flatten }⟩, rest) := by
  induction bufs generalizing p user with
  | nil => exact ⟨p, ready, rfl, by simpa using .refl⟩
  | cons buf bufs ih =>
    have small' : ∀ buf ∈ bufs, buf.length < 2 ^ 32 := fun buf member => small buf (by simp [member])
    by_cases none : buf = []
    · simpa [none] using ih ready user small'
    · obtain ⟨q, ready', status, steps⟩ := ih (ready.chunkAt buf.length) { user with body := user.body ++ buf } small'
      have chunk := ready.chunk_steps user none (small buf (by simp))
        (bufs.flatMap (fun buf => if buf = [] then [] else chunkBytes buf) ++ rest)
      refine ⟨q, ready', status, ?_⟩
      simpa [none] using chunk.trans steps

end

def chunkedReply (request : Request) (p : Parser) (code : Nat) (bufs : List Bytes) : Bytes :=
  let started := evhtpSendReplyChunkStart request p code
  started.2 ++ bufs.flatMap (evhtpSendReplyChunk started.1.1) ++ (evhtpSendReplyChunkEnd started.1.1).2

def chunkedHead (request : Request) (p : Parser) (code : Nat) : Bytes :=
  let started := evhtpSendReplyChunkStart request p code
  replyHead started.1.1.headersOut started.1.2 code

def chunkedSection (bufs : List Bytes) : Bytes :=
  bufs.flatMap (fun buf => if buf = [] then [] else chunkBytes buf) ++ ascii "0\r\n\r\n"

theorem createReply_parts (request : Request) (p : Parser) (code : Nat) :
    (createReply request p code).1.1.flags = request.flags ∧
      (createReply request p code).2 =
        replyHead (createReply request p code).1.1.headersOut (createReply request p code).1.2 code ++ request.bufferOut := by
  obtain ⟨headersOut, same⟩ := replyHeaders_only { request with status := code } p.flags.multipart
  simp only [createReply, same, and_self]

theorem chunkedReply_section {request : Request} (p : Parser) {code : Nat} (bufs : List Bytes)
    (proto : request.proto = .proto11) (needs : evhtpResponseNeedsBody code request.method = true) :
    chunkedReply request p code bufs =
      chunkedHead request p code ++ chunkedSection (request.bufferOut :: bufs) := by
  have chosen : (chooseChunked request code).flags.chunked = true ∧
      (chooseChunked request code).bufferOut = request.bufferOut := by
    rw [chooseChunked, if_pos needs, proto]
    exact ⟨rfl, rfl⟩
  have started : ∃ r : Request, r.flags.chunked = true ∧
      r.bufferOut = (if request.bufferOut = [] then [] else chunkBytes request.bufferOut) ∧
      evhtpSendReplyChunkStart request p code = createReply r p code := by
    refine ⟨{ (chooseChunked request code).addHeader (ascii "Transfer-Encoding") (ascii "chunked") with
      bufferOut := if (chooseChunked request code).bufferOut = [] then []
        else chunkBytes (chooseChunked request code).bufferOut }, chosen.1, ?_, ?_⟩
    · rw [chosen.2]
    · simp only [evhtpSendReplyChunkStart, chosen.1, if_true]
      rfl
  obtain ⟨r, chunked, first, same⟩ := started
  obtain ⟨flags, bytes⟩ := createReply_parts r p code
  have kept : (createReply r p code).1.1.flags.chunked = true := (congrArg ReqFlags.chunked flags).trans chunked
  have each : evhtpSendReplyChunk (createReply r p code).1.1 = fun buf => if buf = [] then [] else chunkBytes buf := by
    funext buf
    rw [evhtpSendReplyChunk, kept, if_pos rfl]
  have last : (evhtpSendReplyChunkEnd (createReply r p code).1.1).2 = ascii "0\r\n\r\n" := by
    rw [evhtpSendReplyChunkEnd, kept, if_pos rfl]
  simp only [chunkedReply, chunkedHead, same, each, last]
  rw [bytes, first, chunkedSection, List.flatMap_cons]
  simp only [List.append_assoc]

section
variable [Htstring]

/-- A body section is accepted, reported complete once, after all its data, and delivers the data. -/
structure Decoded (decoder : Htparser) (count : Nat) (section' data : Bytes) : Prop where
  error : (Fed.calls collector count ⟨decoder, {}, section'⟩).p.error = .none
  left : (Fed.calls collector count ⟨decoder, {}, section'⟩).left = []
  ended : (Fed.calls collector count ⟨decoder, {}, section'⟩).user.ended = [data]
  delivered : (Fed.calls collector count ⟨decoder, {}, section'⟩).user.messages = [⟨decoder.status, [], data⟩]

variable {decoder : Htparser} (ready : ChunkReady decoder.toParser)
include ready

omit [Htstring] in
theorem ChunkReady.sane : decoder.Sane :=
  ⟨fun _ => by simp [ready.body], fun _ impossible => by simp [ready.body] at impossible,
    fun _ _ impossible => by simp [ready.chunk] at impossible⟩

omit [Htstring] in
theorem ChunkReady.enough {section' : Bytes} {count : Nat} (enough : 3 * section'.length + 1 < count) :
    potential (Fed.scan (σ := Collected) ⟨decoder, {}, section'⟩, section') < count := by
  simpa [potential, Fed.scan, ready.state] using enough

theorem decoded_of_small {bufs : List Bytes} (small : ∀ buf ∈ bufs, buf.length < 2 ^ 32) {count : Nat}
    (enough : 3 * (chunkedSection bufs).length + 1 < count) :
    Decoded decoder count (chunkedSection bufs) bufs.flatten := by
  obtain ⟨q, ready', status, chunks⟩ := chunks_steps bufs ready {} small (ascii "0\r\n\r\n")
  obtain ⟨r, state, error, last⟩ := ready'.last_steps { body := [] ++ bufs.flatten }
  have same := calls_outcome collector ⟨decoder, {}, chunkedSection bufs⟩ ready.sane ready.running
    (ready.enough enough) (chunks.trans last) (idle_normal collector state)
  have scan := congrArg Prod.fst same
  refine ⟨(congrArg (fun s => s.p.error) scan).trans error, congrArg Prod.snd same,
    congrArg (fun s => s.user.ended) scan, (congrArg (fun s => s.user.messages) scan).trans ?_⟩
  rw [status]
  rfl

/-- A buffer of zeros too long for its size to be printed is not decoded to its contents. -/
theorem not_decoded_of_large {good rest : List Bytes} {n : Nat} (small : ∀ buf ∈ good, buf.length < 2 ^ 32)
    (large : 2 ^ 32 ≤ n) {count : Nat}
    (enough : 3 * (chunkedSection (good ++ List.replicate n 0 :: rest)).length + 1 < count) :
    ¬Decoded decoder count (chunkedSection (good ++ List.replicate n 0 :: rest))
      (good ++ List.replicate n 0 :: rest).flatten := by
  intro decoded
  have some : List.replicate n (0 : UInt8) ≠ [] := by
    simp only [ne_eq, List.replicate_eq_nil_iff]
    omega
  obtain ⟨more, parts⟩ : ∃ more, chunkedSection (good ++ List.replicate n 0 :: rest) =
      good.flatMap (fun buf => if buf = [] then [] else chunkBytes buf) ++ (chunkBytes (List.replicate n 0) ++ more) := by
    refine ⟨rest.flatMap (fun buf => if buf = [] then [] else chunkBytes buf) ++ ascii "0\r\n\r\n", ?_⟩
    simp only [chunkedSection, List.flatMap_append, List.flatMap_cons, if_neg some, List.append_assoc]
  obtain ⟨q, ready', -, chunks⟩ := chunks_steps good ready {} small (chunkBytes (List.replicate n 0) ++ more)
  obtain ⟨r, user, left, overflow, running, outcome⟩ := ready'.overflow_steps { body := [] ++ good.flatten } large more
  have path := chunks.trans overflow
  rw [← parts] at path
  rcases outcome with ⟨failed, error⟩ | ended
  · have same := calls_outcome collector ⟨decoder, {}, _⟩ ready.sane ready.running (ready.enough enough) path
      (failed_normal collector failed)
    have none := (congrArg (fun config => config.1.p.error) same).symm.trans decoded.error
    cases error.symm.trans none
  · obtain ⟨steps, waits⟩ := calls_steps collector ⟨decoder, {}, _⟩ ready.sane ready.running count
    have grown := (collected_grows running (Decoder.steps_to_normal steps path (waits (ready.enough enough)))).2
    have reported : user.ended = [good.flatten] := by simpa using ended
    have whole : [good.flatten] <+: [(good ++ List.replicate n 0 :: rest).flatten] := by
      rw [← reported, ← decoded.ended]
      exact grown
    have shorter := congrArg List.length (List.head_eq_of_cons_eq (whole.eq_of_length rfl))
    simp only [List.flatten_append, List.flatten_cons, List.length_append, List.length_replicate] at shorter
    omega

end

section
variable [Htstring] {request : Request} {code : Nat}

/-- A chunked reply is decoded to what it was made from exactly when the length of every buffer fits 32 bits. -/
theorem chunked_round_trip (p : Parser) (proto : request.proto = .proto11)
    (needs : evhtpResponseNeedsBody code request.method = true) {decoder : Htparser}
    (ready : ChunkReady decoder.toParser) (first : Nat) (lengths : List Nat) :
    (∀ bufferOut bufs, bufferOut.length = first → bufs.map List.length = lengths →
      ∃ section', chunkedReply { request with bufferOut } p code bufs =
          chunkedHead { request with bufferOut } p code ++ section' ∧
        ∀ count, 3 * section'.length + 1 < count → Decoded decoder count section' (bufferOut ++ bufs.flatten)) ↔
      ∀ n ∈ first :: lengths, n < 2 ^ 32 := by
  constructor
  · intro decodes n member
    by_contra large
    -- The first length that does not fit, and zeros for contents.
    have some : ((first :: lengths).find? fun n => decide (2 ^ 32 ≤ n)).isSome :=
      List.find?_isSome.mpr ⟨n, member, decide_eq_true (Nat.le_of_not_lt large)⟩
    obtain ⟨n, found⟩ := Option.isSome_iff_exists.mp some
    obtain ⟨large, good, rest, parts, small⟩ := List.find?_eq_some_iff_append.mp found
    have zeros := congrArg (List.map fun n => List.replicate n (0 : UInt8)) parts
    rw [List.map_cons, List.map_append, List.map_cons] at zeros
    obtain ⟨section', same, decoded⟩ := decodes (List.replicate first 0) (lengths.map fun n => List.replicate n 0)
      List.length_replicate (by simp [Function.comp_def])
    have bytes := List.append_cancel_left
      (same.symm.trans (@chunkedReply_section { request with bufferOut := List.replicate first 0 } p code
        (lengths.map fun n => List.replicate n 0) proto needs))
    dsimp only at bytes
    rw [zeros] at bytes
    rw [← List.flatten_cons, zeros, bytes] at decoded
    refine not_decoded_of_large ready ?_ (of_decide_eq_true large) (Nat.lt_succ_self _) (decoded _ (Nat.lt_succ_self _))
    intro buf member
    obtain ⟨m, before, rfl⟩ := List.mem_map.mp member
    have := small m before
    simp only [Bool.not_eq_eq_eq_not, Bool.not_true, decide_eq_false_iff_not] at this
    rw [List.length_replicate]
    omega
  · intro small bufferOut bufs length lengths'
    refine ⟨_, chunkedReply_section p bufs proto needs, fun count enough => ?_⟩
    rw [← List.flatten_cons]
    refine decoded_of_small ready (fun buf member => ?_) enough
    rw [← length, ← lengths', ← List.map_cons] at small
    exact small _ (List.mem_map_of_mem member)

end

section
attribute [local instance] Plain.htstring

def emptyReply : Request where
  proto := .proto11
  flags := { keepalive := true }

def headDecoder : Htparser :=
  (htparserRun silentHooks (htparserInit (htparserNew unlimitedConfig) .response) ()
    (chunkedHead emptyReply (parserAfter plainGet) 200)).1

theorem headDecoder_ready : ChunkReady headDecoder.toParser :=
  ⟨by decide +kernel, by decide +kernel, by decide +kernel, by decide +kernel, by decide +kernel, by decide +kernel⟩

def zeros (n : Nat) : Bytes := List.replicate n 0

theorem zeros_unread {n : Nat} (large : 2 ^ 32 ≤ n) {section' : Bytes}
    (bytes : chunkedReply emptyReply (parserAfter plainGet) 200 [zeros n] =
      chunkedHead emptyReply (parserAfter plainGet) 200 ++ section') {count : Nat}
    (enough : 3 * section'.length + 1 < count) : ¬Decoded headDecoder count section' ([] ++ [zeros n].flatten) := by
  rw [chunkedReply_section _ _ rfl (by decide)] at bytes
  obtain rfl := List.append_cancel_left bytes
  exact @not_decoded_of_large _ _ headDecoder_ready [[]] [] n (by simp) large count enough

/-- A buffer of 2^32 zeros is announced with size 0: nothing of it is read back. -/
theorem chunked_round_trip_huge : emptyReply.proto = .proto11 ∧ evhtpResponseNeedsBody 200 emptyReply.method = true ∧
    ChunkReady headDecoder.toParser ∧
      ¬∃ section', chunkedReply emptyReply (parserAfter plainGet) 200 [zeros (2 ^ 32)] =
          chunkedHead emptyReply (parserAfter plainGet) 200 ++ section' ∧
        ∀ count, 3 * section'.length + 1 < count →
          Decoded headDecoder count section' (emptyReply.bufferOut ++ [zeros (2 ^ 32)].flatten) := by
  refine ⟨rfl, by decide, headDecoder_ready, ?_⟩
  intro ⟨section', bytes, decoded⟩
  exact zeros_unread (Nat.le_refl _) bytes (Nat.lt_succ_self _) (decoded _ (Nat.lt_succ_self _))

theorem chunked_round_trip_greeting :
    ∃ section', chunkedReply { emptyReply with bufferOut := ascii "hi" } (parserAfter plainGet) 200 [ascii "you", []] =
        chunkedHead { emptyReply with bufferOut := ascii "hi" } (parserAfter plainGet) 200 ++ section' ∧
      ∀ count, 3 * section'.length + 1 < count →
        Decoded headDecoder count section' (ascii "hi" ++ [ascii "you", []].flatten) :=
  (chunked_round_trip (parserAfter plainGet) rfl (by decide) headDecoder_ready 2 [3, 0]).mpr (by decide)
    (ascii "hi") [ascii "you", []] rfl rfl

end

end Evhtp
