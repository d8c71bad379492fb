import Evhtp.Proofs.Turns

/-! The parser is a coherent decoder for hooks that do not pause it and cannot tell how a body was cut:
a turn on the bytes at hand is the turn on those bytes and any that follow, except that a piece of a
body goes on in them. -/

namespace Evhtp

theorem takeLine_incomplete {data : Bytes} (incomplete : takeLine 0 data = .incomplete) :
    data.takeWhile (· != LF) = data := by
  unfold takeLine at incomplete
  dsimp only at incomplete
  split at incomplete
  · next all => exact (List.takeWhile_prefix _).eq_of_length all
  · simp at incomplete

theorem takeLine_unlimited (data : Bytes) : takeLine 0 data ≠ .tooLong := by
  unfold takeLine
  dsimp only
  split <;> simp

theorem takeLine_limited {max : Nat} {data : Bytes} (long : takeLine max data = .tooLong) : max ≠ 0 := by
  rintro rfl
  exact takeLine_unlimited data long

theorem takeLine_garbage {data : Bytes} (more : Bytes) (incomplete : takeLine 0 data = .incomplete)
    (long : 2 ≤ data.length) :
    takeLine 0 (data ++ more) = .incomplete ∨
      ∃ content used, takeLine 0 (data ++ more) = .line content used ∧ content ≠ [] := by
  cases taken : takeLine 0 (data ++ more) with
  | incomplete => exact .inl rfl
  | tooLong => exact absurd taken (takeLine_unlimited _)
  | line content used =>
    refine .inr ⟨content, used, rfl, ?_⟩
    unfold takeLine at taken
    dsimp only at taken
    rw [List.takeWhile_append, takeLine_incomplete incomplete, if_pos rfl] at taken
    split at taken
    · simp at taken
    · simp only [ne_eq, not_true_eq_false, false_and, if_false, LineResult.line.injEq] at taken
      rw [← taken.1, ← List.length_pos_iff]
      unfold stripCr
      split <;> simp <;> omega

theorem Parser.delimitedPiece_all {p : Parser} {data : Bytes} (all : p.body = .length → data.length < p.contentLen) :
    p.delimitedPiece data = data.length := by
  unfold Parser.delimitedPiece
  split
  · next short => exact absurd (all short.1) (by omega)
  · rfl

theorem Parser.chunkPiece_all {p : Parser} {data : Bytes} (all : data.length < p.contentLen) :
    p.chunkPiece data = data.length := by
  unfold Parser.chunkPiece
  split <;> omega

/-- The bytes of a body come next, and not a line of its framing. -/
def Parser.Inside (p : Parser) : Prop := (p.body = .length ∨ p.body = .identity) ∨ p.body = .chunked ∧ p.chunk = .data

/-- The bytes at hand end before the piece of the body that they are in. -/
def Parser.GoesOn (p : Parser) (data : Bytes) : Prop := p.Inside ∧ (p.body ≠ .identity → data.length < p.contentLen)

section
variable {σ : Type} {H : Hooks σ} {s : Scan σ} {data : Bytes}

theorem parseBody_delimited (mode : s.p.body = .length ∨ s.p.body = .identity) (data : Bytes) :
    parseBody H data s = parseDelimited H data s := by
  unfold parseBody
  rcases mode with mode | mode <;> rw [mode]

theorem parseBody_chunkData (mode : s.p.body = .chunked) (chunk : s.p.chunk = .data) (data : Bytes) :
    parseBody H data s = parseChunkData H data s := by
  unfold parseBody
  rw [mode, chunk]

theorem turnBody_inside (sane : s.p.Sane) (here : s.p.state = .body) (inside : s.p.Inside) (some : data ≠ []) :
    turnBody H s data = Option.some (parseBody H data s) := by
  have positive := List.length_pos_iff.mpr some
  have used : (parseBody H data s).2 ≠ 0 := by
    rcases inside with mode | ⟨mode, chunk⟩
    · rw [parseBody_delimited mode]
      show s.p.delimitedPiece data ≠ 0
      unfold Parser.delimitedPiece
      split
      · next short =>
        have := sane.pending here short.1
        omega
      · omega
    · rw [parseBody_chunkData mode chunk]
      have pending := sane.chunk here mode chunk
      show s.p.chunkPiece data ≠ 0
      unfold Parser.chunkPiece
      split <;> omega
  rw [turnBody, if_neg some, if_neg fun stuck => used stuck.1]

theorem parseBody_all (some : data ≠ []) (goes : s.p.GoesOn data) :
    (parseBody H data s).2 = data.length ∧
      if (hook H .body data s).1 then (parseBody H data s).1.p.state = s.p.state ∧
        (parseBody H data s).1.p.body = s.p.body ∧ (parseBody H data s).1.p.chunk = s.p.chunk
      else (parseBody H data s).1.p.state = .error := by
  have positive := List.length_pos_iff.mpr some
  have place := hook_state H .body data s
  obtain ⟨reply, -, replied⟩ := hook_replied H .body data s
  have body : (hook H .body data s).2.p.body = s.p.body := by rw [replied, Parser.replied_body]
  have left : (hook H .body data s).2.p.contentLen = s.p.contentLen := by rw [replied, Parser.replied_contentLen]
  have chunk : (hook H .body data s).2.p.chunk = s.p.chunk := by
    rw [replied]
    unfold Parser.replied
    split <;> rfl
  obtain ⟨mode | ⟨mode, within⟩, all⟩ := goes
  · have piece := s.p.delimitedPiece_all fun length => all (by simp [length])
    rw [parseBody_delimited mode, parseDelimited, piece, List.take_length, if_pos (by omega)]
    refine ⟨rfl, ?_⟩
    split at place
    · next ok =>
      rw [countDelimited, if_pos ok]
      split
      · next counted =>
        have pending := all (by rw [← body, counted.2]; simp)
        simp only [left, place, body, chunk, if_neg (show ¬ s.p.contentLen - data.length = 0 by omega), and_self]
      · exact ⟨place, body, chunk⟩
    · next bad => rwa [countDelimited, if_neg bad, if_neg fun counted => bad counted.1]
  · have pending := all (by simp [mode])
    rw [parseBody_chunkData mode within, parseChunkData, s.p.chunkPiece_all pending, List.take_length]
    refine ⟨rfl, ?_⟩
    split at place
    · next ok =>
      rw [countChunk, if_pos ok, if_pos ok]
      simp only [left, place, body, chunk, if_neg (show ¬ s.p.contentLen - data.length = 0 by omega), and_self]
    · next bad => rwa [countChunk, if_neg bad, if_neg bad]

/-- A piece of a delimited body that ends before the bytes at hand do is the same with more of them. -/
theorem parseDelimited_append (more : Bytes) (short : s.p.contentLen ≤ data.length)
    (length : s.p.body = .length) : parseDelimited H (data ++ more) s = parseDelimited H data s := by
  have piece : ∀ rest, s.p.delimitedPiece (data ++ rest) = s.p.contentLen := by
    intro rest
    simp only [Parser.delimitedPiece, length, true_and, List.length_append]
    split <;> omega
  have piece' := piece []
  rw [List.append_nil] at piece'
  unfold parseDelimited
  dsimp only
  rw [piece, piece', List.take_append_of_le_length short]

theorem parseChunkData_append (more : Bytes) (short : s.p.contentLen ≤ data.length) :
    parseChunkData H (data ++ more) s = parseChunkData H data s := by
  have piece : ∀ rest, s.p.chunkPiece (data ++ rest) = s.p.contentLen := by
    intro rest
    simp only [Parser.chunkPiece, List.length_append]
    split <;> omega
  have piece' := piece []
  rw [List.append_nil] at piece'
  unfold parseChunkData
  dsimp only
  rw [piece, piece', List.take_append_of_le_length short]

theorem parseSizeLine_append (more : Bytes) (here : s.p.state = .body)
    (moved : ¬((parseSizeLine H data s).2 = 0 ∧ (parseSizeLine H data s).1.p.state = .body))
    (accepted : ¬((parseSizeLine H data s).1.p.state = .error ∧ (parseSizeLine H data s).1.p.config.maxLineLength ≠ 0)) :
    parseSizeLine H (data ++ more) s = parseSizeLine H data s := by
  cases line : takeLine s.p.config.maxLineLength data with
  | incomplete => simp [parseSizeLine, line, here] at moved
  | tooLong =>
    simp only [parseSizeLine, line] at accepted
    exact absurd ⟨rfl, takeLine_limited line⟩ accepted
  | line content used =>
    unfold parseSizeLine
    rw [line, takeLine_append more line]

theorem parseChunkEnd_append (more : Bytes) (here : s.p.state = .body)
    (moved : ¬((parseChunkEnd H data s).2 = 0 ∧ (parseChunkEnd H data s).1.p.state = .body))
    (accepted : ¬((parseChunkEnd H data s).1.p.state = .error ∧ (parseChunkEnd H data s).1.p.config.maxLineLength ≠ 0)) :
    parseChunkEnd H (data ++ more) s = parseChunkEnd H data s := by
  cases line : takeLine s.p.config.maxLineLength data with
  | incomplete =>
    by_cases long : data.length < 2
    · simp [parseChunkEnd, line, here, long] at moved
    · simp only [parseChunkEnd, line, long, if_false] at accepted ⊢
      have unlimited : s.p.config.maxLineLength = 0 := by
        by_contra limited
        exact accepted ⟨rfl, limited⟩
      rw [unlimited] at line ⊢
      rcases takeLine_garbage more line (by omega) with line' | ⟨content, used, line', junk⟩
      · rw [line', List.length_append]
        exact if_neg (by omega)
      · rw [line']
        exact if_pos junk
  | tooLong =>
    simp only [parseChunkEnd, line] at accepted
    exact absurd ⟨rfl, takeLine_limited line⟩ accepted
  | line content used =>
    unfold parseChunkEnd
    rw [line, takeLine_append more line]

variable [Htstring]

/-- A turn on the bytes at hand is the turn on those bytes and any that follow, unless they end inside a body. -/
theorem turn_extends (more : Bytes) {after : Scan σ × Nat} (sane : s.p.Sane) (taken : turn H s data = some after)
    (accepted : ¬(after.1.p.state = .error ∧ after.1.p.config.maxLineLength ≠ 0)) :
    turn H s (data ++ more) = some after ∨
      s.p.state = .body ∧ data ≠ [] ∧ after = parseBody H data s ∧ s.p.GoesOn data := by
  cases turn_cases H taken with
  | skips here shape blank => simp [turn, here, shape, turnStart, blank]
  | begins here shape text => simp [turn, here, shape, turnStart, text]
  | tooLong here long => exact absurd ⟨rfl, takeLine_limited long⟩ accepted
  | line here found =>
    left
    rw [turn_head H here, turnHead, takeLine_append more found]
  | finishes here => simp [turn, here]
  | body here some moved =>
    have same (equal : parseBody H (data ++ more) s = parseBody H data s) :
        turn H s (data ++ more) = Option.some (parseBody H data s) := by
      simp only [turn, here, turnBody, equal, if_neg moved, List.append_eq_nil_iff, some, false_and, if_false]
    by_cases inside : s.p.Inside
    · by_cases all : s.p.body ≠ .identity → data.length < s.p.contentLen
      · exact .inr ⟨here, some, rfl, inside, all⟩
      · push Not at all
        refine .inl (same ?_)
        rcases inside with mode | ⟨mode, chunk⟩
        · rw [parseBody_delimited mode, parseBody_delimited mode,
            parseDelimited_append more all.2 (mode.resolve_right all.1)]
        · rw [parseBody_chunkData mode chunk, parseBody_chunkData mode chunk, parseChunkData_append more all.2]
    · refine .inl (same ?_)
      have framed := sane.framed here
      cases mode : s.p.body with
      | none => exact absurd mode framed
      | length => exact absurd (.inl (.inl mode)) inside
      | identity => exact absurd (.inl (.inr mode)) inside
      | chunked =>
        cases chunk : s.p.chunk with
        | data => exact absurd (.inr ⟨mode, chunk⟩) inside
        | size =>
          simp only [parseBody, mode, chunk] at moved accepted ⊢
          exact parseSizeLine_append more here moved accepted
        | dataEnd =>
          simp only [parseBody, mode, chunk] at moved accepted ⊢
          exact parseChunkEnd_append more here moved accepted

theorem turn_append (more : Bytes) {after : Scan σ × Nat} (sane : s.p.Sane)
    (taken : turn H s data = some after) (accepted : after.1.p.state ≠ .error) :
    turn H s (data ++ more) = some after ∨ after.2 = data.length ∧ after.1.p.state = .body := by
  rcases turn_extends more sane taken fun failed => accepted failed.1 with same | ⟨here, some, rfl, goes⟩
  · exact .inl same
  · obtain ⟨used, place⟩ := parseBody_all (H := H) some goes
    split at place
    · exact .inr ⟨used, place.1.trans here⟩
    · exact absurd place accepted

end

/-- Hooks that cannot tell how a body was cut: two pieces in a row leave what one leaves. -/
structure Seamless {σ : Type} (H : Hooks σ) (add : Bytes → σ → σ) : Prop where
  quiet : ∀ event p s, (H.call event p s).1.pause = false
  body : ∀ data s, hook H .body data s = (true, { s with user := add data s.user })
  joined : ∀ first second user, add second (add first user) = add (first ++ second) user

section
variable {σ : Type} {H : Hooks σ} {add : Bytes → σ → σ} (seamless : Seamless H add) {s : Scan σ} {data more : Bytes}
include seamless

theorem Seamless.parseDelimited (some : s.p.delimitedPiece data ≠ 0) :
    parseDelimited H data s = (countDelimited (s.p.delimitedPiece data)
      (true, { s with user := add (data.take (s.p.delimitedPiece data)) s.user }), s.p.delimitedPiece data) := by
  unfold Evhtp.parseDelimited
  simp only [seamless.body, if_pos some]

theorem Seamless.parseChunkData (s : Scan σ) (data : Bytes) :
    parseChunkData H data s = (countChunk (s.p.chunkPiece data)
      (true, { s with user := add (data.take (s.p.chunkPiece data)) s.user }), s.p.chunkPiece data) := by
  unfold Evhtp.parseChunkData
  simp only [seamless.body]

/-- A piece of a delimited body that ends with the bytes at hand goes on in the bytes that follow. -/
theorem Seamless.delimited_extend (some : data ≠ []) (rest : more ≠ [])
    (all : s.p.body = .length → data.length < s.p.contentLen)
    (next : Scan σ) (reached : next = (Evhtp.parseDelimited H data s).1) :
    Evhtp.parseDelimited H (data ++ more) s =
      ((Evhtp.parseDelimited H more next).1, data.length + (Evhtp.parseDelimited H more next).2) := by
  have positive := List.length_pos_iff.mpr some
  have positive' := List.length_pos_iff.mpr rest
  have piece := s.p.delimitedPiece_all all
  rw [seamless.parseDelimited (by omega), piece, List.take_length] at reached
  by_cases length : s.p.body = .length
  · have pending := all length
    have left : next = ⟨{ s.p with contentLen := s.p.contentLen - data.length }, add data s.user⟩ := by
      have : s.p.contentLen - data.length ≠ 0 := by omega
      simp [reached, countDelimited, length, this]
    have joined : s.p.delimitedPiece (data ++ more) = data.length + next.p.delimitedPiece more := by
      simp only [left, Parser.delimitedPiece, length, List.length_append, true_and]
      split <;> split <;> omega
    have more' : next.p.delimitedPiece more ≠ 0 := by
      simp only [left, Parser.delimitedPiece, length, true_and]
      split <;> omega
    rw [seamless.parseDelimited (by omega), seamless.parseDelimited more', joined, left]
    simp only [countDelimited, length, List.take_length_add_append, seamless.joined, and_self, if_true, Nat.sub_sub]
  · have left : next = ⟨s.p, add data s.user⟩ := by simp [reached, countDelimited, length]
    have joined : s.p.delimitedPiece (data ++ more) = data.length + more.length := by
      simp [Parser.delimitedPiece, length]
    have more' : next.p.delimitedPiece more = more.length := by simp [left, Parser.delimitedPiece, length]
    rw [seamless.parseDelimited (by omega), seamless.parseDelimited (by omega), joined, more', left]
    simp only [countDelimited, length, List.take_length_add_append, seamless.joined, and_false, if_false]

theorem Seamless.chunk_extend (all : data.length < s.p.contentLen)
    (next : Scan σ) (reached : next = (Evhtp.parseChunkData H data s).1) :
    Evhtp.parseChunkData H (data ++ more) s =
      ((Evhtp.parseChunkData H more next).1, data.length + (Evhtp.parseChunkData H more next).2) := by
  have piece := s.p.chunkPiece_all all
  rw [seamless.parseChunkData, piece, List.take_length] at reached
  have left : next = ⟨{ s.p with contentLen := s.p.contentLen - data.length }, add data s.user⟩ := by
    have : s.p.contentLen - data.length ≠ 0 := by omega
    simp [reached, countChunk, this]
  have joined : s.p.chunkPiece (data ++ more) = data.length + next.p.chunkPiece more := by
    simp only [left, Parser.chunkPiece, List.length_append]
    split <;> split <;> omega
  rw [seamless.parseChunkData, seamless.parseChunkData, joined, left]
  simp only [countChunk, List.take_length_add_append, seamless.joined, if_true, Nat.sub_sub]

theorem Seamless.parseBody_extend (some : data ≠ []) (rest : more ≠ [])
    (goes : s.p.GoesOn data) : parseBody H (data ++ more) s =
      ((parseBody H more (parseBody H data s).1).1, data.length + (parseBody H more (parseBody H data s).1).2) := by
  have stays := (parseBody_all (H := H) some goes).2
  rw [if_pos (by rw [seamless.body])] at stays
  obtain ⟨mode | ⟨mode, chunk⟩, all⟩ := goes
  · have later := parseBody_delimited (H := H) (s := (parseBody H data s).1) (by rwa [stays.2.1]) more
    rw [later, parseBody_delimited mode, parseBody_delimited mode]
    exact seamless.delimited_extend some rest (fun length => all (by simp [length])) _ rfl
  · have later := parseBody_chunkData (H := H) (stays.2.1.trans mode) (stays.2.2.trans chunk) more
    rw [later, parseBody_chunkData mode chunk, parseBody_chunkData mode chunk]
    exact seamless.chunk_extend (all (by simp [mode])) _ rfl

variable [Htstring]

/-- The parser is a coherent decoder: of the failures only those of the line limit depend on how
much of a line is there. -/
theorem Seamless.coherent : Decoder.Coherent (turn H)
    (fun s => s.p.Sane ∧ s.p.flags.paused = false)
    (fun s => s.p.state = .error ∧ s.p.config.maxLineLength ≠ 0) where
  keeps valid taken :=
    ⟨turn_sane H valid.1 valid.2 taken, (HookInvariant.running seamless.quiet).turn valid.2 valid.2 taken⟩
  within valid taken := (turn_used H valid.1 taken).1
  stuck input failed := by simp only [turn, failed.1]
  extend := by
    intro s data after more valid taken accepted
    refine (turn_extends more valid.1 taken accepted).imp_right ?_
    rintro ⟨here, some, rfl, goes⟩
    obtain ⟨used, stays⟩ := parseBody_all (H := H) some goes
    rw [if_pos (by rw [seamless.body])] at stays
    obtain ⟨state, body, chunk⟩ := stays
    refine ⟨used, ?_⟩
    by_cases rest : more = []
    · rw [rest, List.append_nil, taken]
      simp only [Decoder.fused, turn, state, here, turnBody, if_true]
    · have inside : (parseBody H data s).1.p.Inside := by
        unfold Parser.Inside
        rw [body, chunk]
        exact goes.1
      have sane := turn_sane H valid.1 valid.2 taken
      simp only [Decoder.fused, turn, state, here, used, turnBody_inside sane (state.trans here) inside rest,
        turnBody_inside valid.1 here goes.1 (show data ++ more ≠ [] by simp [some]), seamless.parseBody_extend some rest goes]

end

end Evhtp
