import Evhtp.Proofs.Emissions
import Evhtp.Proofs.Turns

/-! The trace of hooks. Whatever the parser is given, however it is paused and whatever its hooks return,
the hooks fired since it was initialised are the beginning of a sequence of messages. For each state of
the parser there is a language of the traces that may still follow. -/

namespace Evhtp

open scoped Computability

/-- The fields of a head, with at most so many that name the host. -/
def fieldLines (hosts : Nat) : Language HookName := {word | word ∈ fieldEvents∗ ∧ word.count .hostname ≤ hosts}

def chunkEvents : Language HookName :=
  only .onNewChunk * (only .body * ((only .body)∗ * only .onChunkComplete))

def chunkedEvents : Language HookName := chunkEvents∗ * (only .onChunksComplete * trailerEvents∗)

def bodyEvents : Language HookName := 1 + (only .body)∗ + chunkedEvents

def message (type : HtpType) : Language HookName :=
  only .onMsgBegin * (startEvents type * (only .onHdrsBegin * (fieldLines 1 * (only .onHdrsComplete *
    (bodyEvents * only .onMsgComplete)))))

def endRest (type : HtpType) : Language HookName := only .onMsgComplete * (message type)∗

def fieldsRest (type : HtpType) (hosts : Nat) : Language HookName :=
  fieldLines hosts * (only .onHdrsComplete * (bodyEvents * endRest type))

def lineRest (type : HtpType) : Language HookName := startEvents type * (only .onHdrsBegin * fieldsRest type 1)

def chunkedRest (type : HtpType) : ChunkState → Language HookName
  | .size => chunkedEvents * endRest type
  | .data => only .body * ((only .body)∗ * (only .onChunkComplete * (chunkedEvents * endRest type)))
  | .dataEnd => only .onChunkComplete * (chunkedEvents * endRest type)

def Parser.rest (p : Parser) : Language HookName :=
  match p.state with
  | .start | .error => (message p.type)∗
  | .headLine => lineRest p.type
  | .headers => fieldsRest p.type (if p.flags.haveHost then 0 else 1)
  | .body =>
    match p.body with
    | .length | .identity => (only .body)∗ * endRest p.type
    | .chunked => chunkedRest p.type p.chunk
    | .none => endRest p.type
  | .trailers => trailerEvents∗ * endRest p.type
  | .complete => endRest p.type

theorem one_le_body : 1 ≤ bodyEvents := fun _ member => Or.inl (Or.inl member)

theorem bodies_le_body : (only .body)∗ ≤ bodyEvents := fun _ member => Or.inl (Or.inr member)

theorem chunked_le_body : chunkedEvents ≤ bodyEvents := fun _ member => Or.inr member

theorem nil_mem_fieldLines (hosts : Nat) : [] ∈ fieldLines hosts := ⟨Language.nil_mem_kstar _, by simp⟩

theorem some_end (type : HtpType) : ∃ word, word ∈ endRest type := some_mul (some_only _) (some_kstar _)

theorem some_body : ∃ word, word ∈ bodyEvents := ⟨[], one_le_body rfl⟩

theorem some_chunked : ∃ word, word ∈ chunkedEvents := some_mul (some_kstar _) (some_mul (some_only _) (some_kstar _))

theorem some_fields (type : HtpType) (hosts : Nat) : ∃ word, word ∈ fieldsRest type hosts :=
  some_mul ⟨_, nil_mem_fieldLines hosts⟩ (some_mul (some_only _) (some_mul some_body (some_end type)))

theorem some_line (type : HtpType) : ∃ word, word ∈ lineRest type :=
  some_mul (some_start type) (some_mul (some_only _) (some_fields type 1))

theorem some_rest (p : Parser) : ∃ word, word ∈ p.rest := by
  unfold Parser.rest
  cases p.state with
  | start | error => exact some_kstar _
  | headLine => exact some_line _
  | headers => exact some_fields _ _
  | body =>
    cases p.body with
    | length | identity => exact some_mul (some_kstar _) (some_end _)
    | none => exact some_end _
    | chunked =>
      have more := some_mul some_chunked (some_end p.type)
      cases p.chunk with
      | size => exact more
      | data => exact some_mul (some_only _) (some_mul (some_kstar _) (some_mul (some_only _) more))
      | dataEnd => exact some_mul (some_only _) more
  | trailers => exact some_mul (some_kstar _) (some_end _)
  | complete => exact some_end _

theorem begin_le_messages (type : HtpType) : only .onMsgBegin * lineRest type ≤ (message type)∗ := by
  have same : only .onMsgBegin * lineRest type = message type * (message type)∗ := by
    simp only [lineRest, fieldsRest, endRest, message, mul_assoc]
  rw [same]
  exact mul_kstar_le_kstar

theorem mem_kstar_append {L : Language HookName} {first rest : List HookName} (member : first ∈ L) (more : rest ∈ L∗) :
    first ++ rest ∈ L∗ := (mul_kstar_le_kstar : L * L∗ ≤ L∗) (Language.append_mem_mul member more)

theorem append_mem_kstar {L M : Language HookName} {first rest : List HookName} (member : first ∈ L)
    (more : rest ∈ L∗ * M) : first ++ rest ∈ L∗ * M := by
  obtain ⟨middle, star, last, final, rfl⟩ := Language.mem_mul.mp more
  rw [← List.append_assoc]
  exact Language.append_mem_mul (mem_kstar_append member star) final

theorem append_mem_fieldLines {hosts more : Nat} {M : Language HookName} {first rest : List HookName}
    (field : first ∈ fieldEvents) (few : first.count .hostname + more ≤ hosts) (fields : rest ∈ fieldLines more * M) :
    first ++ rest ∈ fieldLines hosts * M := by
  obtain ⟨middle, ⟨star, count⟩, last, final, rfl⟩ := Language.mem_mul.mp fields
  rw [← List.append_assoc]
  refine Language.append_mem_mul ⟨mem_kstar_append field star, ?_⟩ final
  rw [List.count_append]
  omega

theorem trailer_le_field : trailerEvents ≤ fieldEvents := by
  intro word member
  obtain ⟨key, first, val, second, rfl⟩ := Language.mem_mul.mp member
  refine Language.append_mem_mul first ?_
  exact Language.append_mem_mul (one_le_maybe _ (rfl : ([] : List HookName) ∈ (1 : Language HookName))) second

theorem trailer_count {word : List HookName} (member : word ∈ trailerEvents) : word.count .hostname = 0 := by
  obtain ⟨_, rfl, _, rfl, rfl⟩ := Language.mem_mul.mp member
  rfl

theorem hostField_le_field : only .hdrKey * (only .hostname * only .hdrVal) ≤ fieldEvents := by
  intro word member
  obtain ⟨key, first, rest, later, rfl⟩ := Language.mem_mul.mp member
  obtain ⟨host, second, val, third, rfl⟩ := Language.mem_mul.mp later
  exact Language.append_mem_mul first (Language.append_mem_mul (le_maybe _ second) third)

theorem hostField_count {word : List HookName} (member : word ∈ only .hdrKey * (only .hostname * only .hdrVal)) :
    word.count .hostname = 1 := by
  obtain ⟨_, rfl, _, later, rfl⟩ := Language.mem_mul.mp member
  obtain ⟨_, rfl, _, rfl, rfl⟩ := Language.mem_mul.mp later
  rfl

/-- Parsers of one configuration and type, with the same error and the same count of empty lines. -/
structure Alike (p p' : Parser) : Prop where
  config : p'.config = p.config
  type : p'.type = p.type
  emptyLines : p'.emptyLines = p.emptyLines
  error : p'.error = p.error

/-- From where the traces in `L` may follow to where those in `L'` may, unless an error is recorded on the way. -/
structure Moves {σ : Type} (L L' : Language HookName) (s after : Scan (σ × List Fired)) : Prop where
  config : after.p.config = s.p.config
  type : after.p.type = s.p.type
  emptyLines : after.p.emptyLines = s.p.emptyLines
  fired : ∃ fired, after.user.2 = s.user.2 ++ fired ∧ (∀ f ∈ fired, f.p.error = .none) ∧
    (∀ f ∈ fired.dropLast, f.rc = 0) ∧
    (after.p.state ≠ .error → after.p.error = .none ∧ (∀ f ∈ fired, f.rc = 0) ∧
      ∀ word ∈ L', fired.map Fired.name ++ word ∈ L) ∧
    (after.p.state = .error → after.p.error ≠ .none ∧ ∃ more, fired.map Fired.name ++ more ∈ L)

section
variable {σ : Type} {L L' L'' : Language HookName} {s middle after : Scan (σ × List Fired)}
  {p : Parser} {H : Hooks σ} {M : Language HookName}

theorem Moves.silent (alike : Alike s.p p) (clean : s.p.error = .none) (alive : p.state ≠ .error)
    (within : L' ≤ L) : Moves L L' s ⟨p, s.user⟩ :=
  ⟨alike.config, alike.type, alike.emptyLines, [], by simp, by simp, by simp,
    fun _ => ⟨alike.error.trans clean, by simp, fun _ word => within word⟩, fun failed => absurd failed alive⟩

theorem Moves.failed {error : ParseError} (known : error ≠ .none) (some : ∃ word, word ∈ L) :
    Moves L L' s (s.fail error).2 :=
  ⟨rfl, rfl, rfl, [], by simp [Scan.fail], by simp, by simp, fun alive => absurd rfl alive, fun _ => ⟨known, some⟩⟩

theorem Moves.trans (first : Moves L L' s middle) (stops : middle.p.state = .error → after = middle)
    (second : middle.p.state ≠ .error → middle.p.error = .none → Moves L' L'' middle after) : Moves L L'' s after := by
  obtain ⟨fired, log, errors, clean, passed, failed⟩ := first.fired
  by_cases bad : middle.p.state = .error
  · rw [stops bad]
    exact ⟨first.config, first.type, first.emptyLines, fired, log, errors, clean, fun alive => absurd bad alive, failed⟩
  · obtain ⟨none, zeros, leads⟩ := passed bad
    have later := second bad none
    obtain ⟨fired', log', errors', clean', passed', failed'⟩ := later.fired
    refine ⟨later.config.trans first.config, later.type.trans first.type, later.emptyLines.trans first.emptyLines,
      fired ++ fired', ?_, fun f member => ?_, fun f member => ?_, fun alive => ?_, fun dead => ?_⟩
    · rw [log', log, List.append_assoc]
    · exact (List.mem_append.mp member).elim (errors f) (errors' f)
    · rw [List.dropLast_append] at member
      split at member
      · exact clean f member
      · exact (List.mem_append.mp member).elim (zeros f) (clean' f)
    · obtain ⟨none', zeros', leads'⟩ := passed' alive
      refine ⟨none', fun f member => (List.mem_append.mp member).elim (zeros f) (zeros' f), fun word member => ?_⟩
      rw [List.map_append, List.append_assoc]
      exact leads _ (leads' word member)
    · obtain ⟨known, more, word⟩ := failed' dead
      refine ⟨known, more, ?_⟩
      rw [List.map_append, List.append_assoc]
      exact leads _ word

/-- A parsing function that fires a word of `M`, after which the traces in `L'` may follow. -/
theorem Emits.moves {host : Bool} {result : Bool × Scan (σ × List Fired)}
    (emits : Emits host M s result) (clean : s.p.error = .none) (alive : s.p.state ≠ .error)
    (leads : ∀ first ∈ M, ∀ word ∈ L', first ++ word ∈ L) (some : ∃ word, word ∈ L') : Moves L L' s result.2 := by
  obtain ⟨fired, log, errors, zeros, passed, failed⟩ := emits.fired
  have ok : result.2.p.state ≠ .error → result.1 = true := by
    intro good
    by_contra bad
    rw [Bool.not_eq_true] at bad
    exact good (emits.settled.state.trans (by simp [bad]))
  have bad : result.2.p.state = .error → result.1 = false := by
    intro dead
    by_contra good
    rw [Bool.not_eq_false] at good
    exact alive ((emits.settled.state.trans (by simp [good])).symm.trans dead)
  refine ⟨emits.settled.config, emits.settled.type, emits.settled.emptyLines, fired, log,
    fun f member => (errors f member).trans clean, zeros, fun good => ?_, fun dead => ?_⟩
  · obtain ⟨word, all⟩ := passed (ok good)
    exact ⟨(emits.settled.passed (ok good)).trans clean, all, leads _ word⟩
  · obtain ⟨more, word⟩ := failed (bad dead)
    obtain ⟨last, final⟩ := some
    refine ⟨emits.settled.failed (bad dead), more ++ last, ?_⟩
    rw [← List.append_assoc]
    exact leads _ word _ final

theorem Moves.weaken (moves : Moves L L' s after) (within : after.p.state ≠ .error → L'' ≤ L') : Moves L L'' s after := by
  obtain ⟨fired, log, errors, clean, passed, failed⟩ := moves.fired
  refine ⟨moves.config, moves.type, moves.emptyLines, fired, log, errors, clean, fun alive => ?_, failed⟩
  obtain ⟨none, zeros, leads⟩ := passed alive
  exact ⟨none, zeros, fun word member => leads word (within alive member)⟩

theorem Moves.hook (name : HookName) (data : Bytes) (alike : Alike s.p p)
    (clean : s.p.error = .none) (alive : p.state ≠ .error) (some : ∃ word, word ∈ L') (leads : only name * L' ≤ L) :
    Moves L L' s (hook H.logged name data ⟨p, s.user⟩).2 := by
  refine .trans (.silent alike clean alive le_rfl) (fun dead => absurd dead alive) fun _ none => ?_
  exact (Emits.hook name data ⟨p, s.user⟩).moves none alive
    (fun _ first _ word => leads (Language.append_mem_mul first word)) some

theorem rest_replied {reply : HookReply} (alive : (p.replied reply).state ≠ .error) : (p.replied reply).rest = p.rest := by
  by_cases accepted : reply.rc = 0
  · simp only [Parser.replied, accepted, if_true]
    rfl
  · exact absurd (by simp [Parser.replied, accepted, Parser.fail]) alive

theorem hook_rest (name : HookName) (data : Bytes) (s : Scan σ)
    (alive : (Evhtp.hook H name data s).2.p.state ≠ .error) : (Evhtp.hook H name data s).2.p.rest = s.p.rest := by
  obtain ⟨reply, _, replied⟩ := hook_replied H name data s
  rw [replied] at alive ⊢
  exact rest_replied alive

theorem Moves.hooked (name : HookName) (data : Bytes) (alike : Alike s.p p)
    (clean : s.p.error = .none) (alive : p.state ≠ .error) (leads : only name * p.rest ≤ L) :
    Moves L (Evhtp.hook H.logged name data ⟨p, s.user⟩).2.p.rest s (Evhtp.hook H.logged name data ⟨p, s.user⟩).2 :=
  (Moves.hook name data alike clean alive (some_rest p) leads).weaken fun good => (hook_rest name data _ good).le

theorem nil_append_mem (L : Language HookName) : M ≤ L∗ * M := fun _ member =>
  Language.append_mem_mul (Language.nil_mem_kstar L) member

theorem only_kstar_le (L M : Language HookName) : L * (L∗ * M) ≤ L∗ * M := by
  rw [← mul_assoc]
  exact mul_le_mul_left mul_kstar_le_kstar M

theorem newChunk_le (type : HtpType) : only .onNewChunk * chunkedRest type .data ≤ chunkedRest type .size := by
  have same : only .onNewChunk * chunkedRest type .data = chunkEvents * (chunkEvents∗ *
      ((only .onChunksComplete * trailerEvents∗) * endRest type)) := by
    simp only [chunkedRest, chunkEvents, chunkedEvents, mul_assoc]
  rw [same]
  refine (only_kstar_le _ _).trans (le_of_eq ?_)
  simp only [chunkedRest, chunkedEvents, mul_assoc]

theorem chunksComplete_le (type : HtpType) :
    only .onChunksComplete * (trailerEvents∗ * endRest type) ≤ chunkedRest type .size := by
  refine (nil_append_mem chunkEvents).trans (le_of_eq ?_)
  simp only [chunkedRest, chunkedEvents, mul_assoc]

theorem body_le (M : Language HookName) : M ≤ bodyEvents * M := by
  intro word member
  exact Language.append_mem_mul (one_le_body (rfl : ([] : List HookName) ∈ (1 : Language HookName))) member

theorem headDone_rest (size : p.chunk = .size) : p.headDone.rest ≤ bodyEvents * endRest p.type := by
  cases mode : p.body with
  | none =>
    simp only [Parser.headDone, Parser.rest, mode, if_true]
    exact body_le _
  | length | identity =>
    simp only [Parser.headDone, Parser.rest, mode, reduceCtorEq, if_false]
    exact mul_le_mul_left bodies_le_body _
  | chunked =>
    simp only [Parser.headDone, Parser.rest, mode, reduceCtorEq, if_false, size, chunkedRest]
    exact mul_le_mul_left chunked_le_body _

end

section
variable {σ : Type} {H : Hooks σ} {s : Scan (σ × List Fired)}

theorem endHead_moves (here : s.p.state = .headers) (clean : s.p.error = .none) :
    Moves s.p.rest (endHead H.logged s).p.rest s (endHead H.logged s) := by
  have settled := framing_settled s.p
  have rest : s.p.rest = fieldsRest s.p.type (if s.p.flags.haveHost then 0 else 1) := by simp only [Parser.rest, here]
  unfold endHead
  split
  · next ok =>
    have framed := framing_sane ok
    have alike : Alike s.p (framing s.p).2.headDone :=
      ⟨settled.config, settled.type, settled.emptyLines, settled.passed ok⟩
    have alive : (framing s.p).2.headDone.state ≠ .error := by
      simp only [Parser.headDone]
      split <;> simp
    have leads : only .onHdrsComplete * (bodyEvents * endRest s.p.type) ≤ s.p.rest := by
      rw [rest]
      intro word member
      exact Language.append_mem_mul (nil_mem_fieldLines _) member
    have hooked := Moves.hook (H := H) .onHdrsComplete [] alike clean alive
      (some_mul some_body (some_end s.p.type)) leads
    have following := headDone_rest framed.2
    rw [settled.type] at following
    refine .trans hooked (fun dead => ?_) fun good none => ?_
    · have failed : (hook H.logged .onHdrsComplete [] ⟨(framing s.p).2.headDone, s.user⟩).1 = false := by
        by_contra ok
        rw [Bool.not_eq_false] at ok
        rw [hook_state, if_pos ok] at dead
        exact alive dead
      simp [skipIfAsked, failed]
    · have same := hook_rest .onHdrsComplete [] (⟨(framing s.p).2.headDone, s.user⟩ : Scan (σ × List Fired)) good
      have type := hooked.type
      generalize hook H.logged .onHdrsComplete [] ⟨(framing s.p).2.headDone, s.user⟩ = result at *
      unfold skipIfAsked
      split
      · refine .silent ⟨rfl, rfl, rfl, rfl⟩ none (by simp) ?_
        change endRest result.2.p.type ≤ _
        rw [type]
        exact body_le _
      · exact .silent (p := result.2.p) ⟨rfl, rfl, rfl, rfl⟩ none good (same.le.trans following)
  · next bad =>
    rw [Bool.not_eq_true] at bad
    refine ⟨settled.config, settled.type, settled.emptyLines, [], by simp, by simp, by simp, fun alive => ?_, fun _ => ?_⟩
    · exact absurd (settled.state.trans (by simp [bad])) alive
    · exact ⟨settled.failed bad, some_rest s.p⟩

theorem hook_failed {name : HookName} {data : Bytes} (alive : s.p.state ≠ .error)
    (dead : (hook H.logged name data s).2.p.state = .error) : (hook H.logged name data s).1 = false := by
  by_contra ok
  rw [Bool.not_eq_false] at ok
  rw [hook_state, if_pos ok] at dead
  exact alive dead

theorem countDelimited_moves (n : Nat) {result : Bool × Scan (σ × List Fired)}
    (hooked : Moves s.p.rest s.p.rest s result.2) (rest : s.p.rest = (only .body)∗ * endRest s.p.type)
    (same : result.2.p.state ≠ .error → result.2.p.rest = s.p.rest) (failed : result.2.p.state = .error → result.1 = false) :
    Moves s.p.rest (countDelimited n result).p.rest s (countDelimited n result) := by
  refine .trans hooked (fun dead => by simp [countDelimited, failed dead]) fun good none => ?_
  unfold countDelimited
  split
  · by_cases last : result.2.p.contentLen - n = 0
    · simp only [last, if_true]
      refine .silent ⟨rfl, rfl, rfl, rfl⟩ none (by simp) ?_
      change endRest result.2.p.type ≤ _
      rw [hooked.type, rest]
      exact nil_append_mem _
    · simp only [last, if_false]
      exact .silent ⟨rfl, rfl, rfl, rfl⟩ none good (same good).le
  · exact .silent (p := result.2.p) ⟨rfl, rfl, rfl, rfl⟩ none good (same good).le

theorem parseDelimited_moves (data : Bytes) (here : s.p.state = .body) (mode : s.p.body = .length ∨ s.p.body = .identity)
    (clean : s.p.error = .none) :
    Moves s.p.rest (parseDelimited H.logged data s).1.p.rest s (parseDelimited H.logged data s).1 := by
  have rest : s.p.rest = (only .body)∗ * endRest s.p.type := by
    rcases mode with mode | mode <;> simp only [Parser.rest, here, mode]
  have alive : s.p.state ≠ .error := by simp [here]
  refine countDelimited_moves _ ?_ rest ?_ ?_
  all_goals split
  · refine .hook .body _ ⟨rfl, rfl, rfl, rfl⟩ clean alive (some_rest s.p) ?_
    rw [rest]
    exact only_kstar_le _ _
  · exact .silent ⟨rfl, rfl, rfl, rfl⟩ clean alive le_rfl
  · exact fun good => hook_rest .body _ s good
  · exact fun _ => rfl
  · exact fun dead => hook_failed alive dead
  · exact fun dead => absurd dead alive

theorem parseSizeLine_moves (data : Bytes) (here : s.p.state = .body) (mode : s.p.body = .chunked) (chunk : s.p.chunk = .size)
    (clean : s.p.error = .none) :
    Moves s.p.rest (parseSizeLine H.logged data s).1.p.rest s (parseSizeLine H.logged data s).1 := by
  have rest : s.p.rest = chunkedRest s.p.type .size := by simp only [Parser.rest, here, mode, chunk]
  have some := some_rest s.p
  unfold parseSizeLine
  split
  · exact .silent ⟨rfl, rfl, rfl, rfl⟩ clean (by simp [here]) le_rfl
  · exact .failed (by simp) some
  · split
    · exact .failed (by simp) some
    · next size _ =>
      dsimp only
      split
      · refine .hooked (p := { s.p with state := .trailers, headerCount := 0 }) .onChunksComplete [] ⟨rfl, rfl, rfl, rfl⟩
          clean (by simp) ?_
        rw [rest]
        exact chunksComplete_le _
      · have following : Parser.rest { s.p with contentLen := size, origContentLen := size, chunk := .data } =
            chunkedRest s.p.type .data := by simp only [Parser.rest, here, mode]
        refine .hooked (p := { s.p with contentLen := size, origContentLen := size, chunk := .data }) .onNewChunk []
          ⟨rfl, rfl, rfl, rfl⟩ clean (by simp [here]) ?_
        rw [rest, following]
        exact newChunk_le _

theorem parseChunkData_moves (data : Bytes) (here : s.p.state = .body) (mode : s.p.body = .chunked)
    (chunk : s.p.chunk = .data) (clean : s.p.error = .none) :
    Moves s.p.rest (parseChunkData H.logged data s).1.p.rest s (parseChunkData H.logged data s).1 := by
  have rest : s.p.rest = chunkedRest s.p.type .data := by simp only [Parser.rest, here, mode, chunk]
  have alive : s.p.state ≠ .error := by simp [here]
  have some := some_mul some_chunked (some_end s.p.type)
  unfold parseChunkData
  dsimp only
  generalize s.p.chunkPiece data = n
  have hooked : Moves s.p.rest ((only .body)∗ * chunkedRest s.p.type .dataEnd) s (hook H.logged .body (data.take n) s).2 :=
    .hook .body (data.take n) ⟨rfl, rfl, rfl, rfl⟩ clean alive
      (some_mul (some_kstar _) (some_mul (some_only _) some)) rest.ge
  have kept := hook_replied H.logged .body (data.take n) s
  refine .trans hooked (fun dead => by simp [countChunk, hook_failed alive dead]) fun good none => ?_
  have same := hook_rest .body (data.take n) s good
  have type := hooked.type
  have ok := hook_state H.logged .body (data.take n) s
  have body : (hook H.logged .body (data.take n) s).2.p.body = .chunked := by
    obtain ⟨reply, _, replied⟩ := kept
    rw [replied, Parser.replied_body, mode]
  generalize hook H.logged .body (data.take n) s = result at *
  have accepted : result.1 = true := by
    by_contra bad
    rw [if_neg bad] at ok
    exact good ok
  rw [if_pos accepted, here] at ok
  unfold countChunk
  rw [if_pos accepted]
  by_cases last : result.2.p.contentLen - n = 0
  · simp only [last, if_true]
    refine .silent ⟨rfl, rfl, rfl, rfl⟩ none good ?_
    simp only [Parser.rest, ok, body, type]
    exact nil_append_mem _
  · simp only [last, if_false]
    refine .silent ⟨rfl, rfl, rfl, rfl⟩ none good ?_
    change result.2.p.rest ≤ _
    rw [same, rest]
    exact only_kstar_le _ _

theorem parseChunkEnd_moves (data : Bytes) (here : s.p.state = .body) (mode : s.p.body = .chunked)
    (chunk : s.p.chunk = .dataEnd) (clean : s.p.error = .none) :
    Moves s.p.rest (parseChunkEnd H.logged data s).1.p.rest s (parseChunkEnd H.logged data s).1 := by
  have rest : s.p.rest = chunkedRest s.p.type .dataEnd := by simp only [Parser.rest, here, mode, chunk]
  have refused : Moves s.p.rest (s.fail .invalChunk).2.p.rest s (s.fail .invalChunk).2 := .failed (by simp) (some_rest s.p)
  unfold parseChunkEnd
  split
  · split
    · exact .silent ⟨rfl, rfl, rfl, rfl⟩ clean (by simp [here]) le_rfl
    · exact refused
  · exact refused
  · split
    · exact refused
    · have following : Parser.rest { s.p with chunk := .size } = chunkedRest s.p.type .size := by
        simp only [Parser.rest, here, mode]
      refine .hooked (p := { s.p with chunk := .size }) .onChunkComplete [] ⟨rfl, rfl, rfl, rfl⟩ clean (by simp [here]) ?_
      rw [rest, following]
      exact le_rfl

theorem parseBody_moves (data : Bytes) (here : s.p.state = .body) (clean : s.p.error = .none) :
    Moves s.p.rest (parseBody H.logged data s).1.p.rest s (parseBody H.logged data s).1 := by
  unfold parseBody
  split
  · next mode => exact parseDelimited_moves data here (.inl mode) clean
  · next mode => exact parseDelimited_moves data here (.inr mode) clean
  · next mode =>
    split
    · next chunk => exact parseSizeLine_moves data here mode chunk clean
    · next chunk => exact parseChunkData_moves data here mode chunk clean
    · next chunk => exact parseChunkEnd_moves data here mode chunk clean
  · next mode =>
    refine .silent ⟨rfl, rfl, rfl, rfl⟩ clean (by simp) ?_
    simp only [Parser.rest, here, mode]
    exact le_rfl

theorem fieldsRest_mono (type : HtpType) (haveHost : Bool) : fieldsRest type (if haveHost then 0 else 1) ≤ fieldsRest type 1 := by
  refine mul_le_mul_left (fun word member => ⟨member.1, member.2.trans ?_⟩) _
  split <;> omega

section
variable [Htstring]

theorem startLine_moves (line : Bytes) (here : s.p.state = .headLine) (clean : s.p.error = .none) :
    Moves s.p.rest (parseHeadLine H.logged line s).p.rest s (parseHeadLine H.logged line s) := by
  have rest : s.p.rest = lineRest s.p.type := by simp only [Parser.rest, here]
  have alive : s.p.state ≠ .error := by simp [here]
  have emits := parseStartLine_emits (H := H) line s
  have moved : Moves s.p.rest (only .onHdrsBegin * fieldsRest s.p.type 1) s (parseStartLine H.logged line s).2 := by
    refine emits.moves clean alive (fun _ first _ word => ?_) (some_mul (some_only _) (some_fields _ _))
    rw [rest]
    exact Language.append_mem_mul first word
  have state := emits.settled.state
  unfold parseHeadLine
  rw [if_pos here]
  dsimp only
  refine .trans moved (fun dead => ?_) fun good none => ?_
  · rw [if_neg]
    intro ok
    rw [if_pos ok] at state
    exact alive (state.symm.trans dead)
  · have ok : (parseStartLine H.logged line s).1 = true := by
      by_contra bad
      rw [if_neg bad] at state
      exact good state
    rw [if_pos ok]
    refine .hooked (p := { (parseStartLine H.logged line s).2.p with state := .headers }) .onHdrsBegin []
      ⟨rfl, rfl, rfl, rfl⟩ none (by simp) ?_
    rw [← moved.type]
    exact mul_le_mul_right (fieldsRest_mono _ _) _

theorem fieldLine_moves (line : Bytes) (here : s.p.state = .headers ∨ s.p.state = .trailers) (clean : s.p.error = .none) :
    Moves s.p.rest (parseHeader H.logged line (s.p.state == .trailers) { s with p := s.p.countHeader }).2.p.rest s
      (parseHeader H.logged line (s.p.state == .trailers) { s with p := s.p.countHeader }).2 := by
  have alive : s.p.state ≠ .error := by rcases here with here | here <;> simp [here]
  have counted : Settled s.p (true, s.p.countHeader) := ⟨rfl, rfl, rfl, rfl, fun _ => rfl, nofun⟩
  have emitted := parseHeader_emits (H := H) line (s.p.state == .trailers) { s with p := s.p.countHeader }
  generalize parseHeader H.logged line (s.p.state == .trailers) { s with p := s.p.countHeader } = result at *
  have ok : ∀ {host L}, Emits host L s result → result.2.p.state ≠ .error → result.1 = true ∧ result.2.p.state = s.p.state := by
    intro host L emits good
    have state := emits.settled.state
    cases accepted : result.1 with
    | true => exact ⟨rfl, by simpa [accepted] using state⟩
    | false => exact absurd (by simpa [accepted] using state) good
  rcases emitted with emits | ⟨head, fresh, emits⟩
  · have emits := emits.after counted rfl
    have leads : ∀ first ∈ trailerEvents, ∀ word ∈ s.p.rest, first ++ word ∈ s.p.rest := by
      intro first field word member
      rcases here with here | here
      · simp only [Parser.rest, here] at member ⊢
        exact append_mem_fieldLines (trailer_le_field field) (by rw [trailer_count field]; omega) member
      · simp only [Parser.rest, here] at member ⊢
        exact append_mem_kstar field member
    refine (emits.moves clean alive leads (some_rest s.p)).weaken fun good => ?_
    obtain ⟨accepted, state⟩ := ok emits good
    have host := emits.host accepted
    have type : result.2.p.type = s.p.type := emits.settled.type
    rw [Bool.or_false] at host
    rcases here with here | here
    · simp only [Parser.rest, state, here, host, type, le_refl]
    · simp only [Parser.rest, state, here, type, le_refl]
  · have emits := emits.after counted rfl
    have here : s.p.state = .headers := here.resolve_right fun trailers => by simp [trailers] at head
    have fresh : s.p.flags.haveHost = false := fresh
    have rest : s.p.rest = fieldsRest s.p.type 1 := by simp [Parser.rest, here, fresh]
    have leads : ∀ first ∈ only .hdrKey * (only .hostname * only .hdrVal), ∀ word ∈ fieldsRest s.p.type 0,
        first ++ word ∈ s.p.rest := by
      intro first field word member
      rw [rest]
      exact append_mem_fieldLines (hostField_le_field field) (by rw [hostField_count field]) member
    refine (emits.moves clean alive leads (some_fields _ _)).weaken fun good => ?_
    obtain ⟨accepted, state⟩ := ok emits good
    have host := emits.host accepted
    have type : result.2.p.type = s.p.type := emits.settled.type
    rw [Bool.or_true] at host
    simp only [Parser.rest, state, here, host, type, if_true, le_refl]

theorem parseHeadLine_moves (line : Bytes) (here : s.p.state.inHead = true) (clean : s.p.error = .none) :
    Moves s.p.rest (parseHeadLine H.logged line s).p.rest s (parseHeadLine H.logged line s) := by
  by_cases atLine : s.p.state = .headLine
  · exact startLine_moves line atLine clean
  · have place : s.p.state = .headers ∨ s.p.state = .trailers := by simpa [ParserState.inHead, atLine] using here
    unfold parseHeadLine
    rw [if_neg atLine]
    split
    · split
      · next trailers =>
        refine .silent ⟨rfl, rfl, rfl, rfl⟩ clean (by simp) ?_
        simp only [Parser.rest, trailers]
        exact nil_append_mem _
      · next elsewhere => exact endHead_moves (place.resolve_right elsewhere) clean
    · split
      · exact .failed (by simp) (some_rest s.p)
      · exact fieldLine_moves line place clean

theorem turn_moves {data : Bytes} {after : Scan (σ × List Fired) × Nat} (begun : s.p.state ≠ .start)
    (clean : s.p.error = .none) (taken : turn H.logged s data = some after) :
    Moves s.p.rest after.1.p.rest s after.1 := by
  cases turn_cases H.logged taken with
  | skips here => exact absurd here begun
  | begins here => exact absurd here begun
  | tooLong => exact .failed (by simp) (some_rest s.p)
  | line here => exact parseHeadLine_moves _ here clean
  | body here => exact parseBody_moves data here clean
  | finishes here =>
    refine .hooked (p := s.p.finish) .onMsgComplete [] ⟨rfl, rfl, rfl, rfl⟩ clean (by simp [Parser.finish]) ?_
    simp only [Parser.rest, here]
    exact le_rfl

omit [Htstring] in
theorem begin_moves (here : s.p.state = .start) :
    Moves s.p.rest (beginMessage H.logged s).p.rest ⟨s.p.begin, s.user⟩ (beginMessage H.logged s) := by
  refine .hooked (s := ⟨s.p.begin, s.user⟩) (p := s.p.begin) .onMsgBegin [] ⟨rfl, rfl, rfl, rfl⟩ rfl
    (by simp [Parser.begin]) ?_
  simp only [Parser.rest, here]
  exact begin_le_messages s.p.type

end

end

/-- A parser whose hooks have been recorded since it was initialised. -/
structure Traced {σ : Type} (type : HtpType) (s : Scan (σ × List Fired)) : Prop where
  sane : s.p.Sane
  kind : s.p.type = type
  blank : s.p.state ≠ .start → s.p.state ≠ .error → s.p.emptyLines = 0
  error : s.p.error = .none ↔ s.p.state ≠ .error
  errors : ∀ f ∈ s.user.2, f.p.error = .none
  clean : ∀ f ∈ s.user.2.dropLast, f.rc = 0
  alive : s.p.state ≠ .error → (∀ f ∈ s.user.2, f.rc = 0) ∧ ∀ word ∈ s.p.rest, s.user.2.map Fired.name ++ word ∈ (message type)∗
  dead : s.p.state = .error → ∃ more, s.user.2.map Fired.name ++ more ∈ (message type)∗

section
variable {σ : Type} {H : Hooks σ} {type : HtpType} {s after : Scan (σ × List Fired)} {p : Parser}

/-- Moving on from where a trace may follow. The parser that moved on may have been reset before. -/
theorem Traced.moves (traced : Traced type s) (alive : s.p.state ≠ .error)
    (moves : Moves s.p.rest after.p.rest ⟨p, s.user⟩ after) (same : p.type = s.p.type) (sane : after.p.Sane)
    (blank : after.p.state ≠ .start → after.p.state ≠ .error → p.emptyLines = 0) : Traced type after := by
  obtain ⟨fired, log, errors, clean, passed, failed⟩ := moves.fired
  obtain ⟨zeros, leads⟩ := traced.alive alive
  have names : after.user.2.map Fired.name = s.user.2.map Fired.name ++ fired.map Fired.name := by
    rw [log, List.map_append]
  refine ⟨sane, (moves.type.trans same).trans traced.kind, fun begun good => moves.emptyLines.trans (blank begun good), ?_, ?_,
    ?_, fun good => ?_, fun bad => ?_⟩
  · exact ⟨fun none bad => (failed bad).1 none, fun good => (passed good).1⟩
  · intro f member
    rw [log] at member
    exact (List.mem_append.mp member).elim (traced.errors f) (errors f)
  · intro f member
    rw [log] at member
    by_cases none : fired = []
    · rw [none, List.append_nil] at member
      exact traced.clean f member
    · rw [List.dropLast_append_of_ne_nil none, List.mem_append] at member
      exact member.elim (zeros f) (clean f)
  · obtain ⟨_, zeros', leads'⟩ := passed good
    refine ⟨fun f member => ?_, fun word member => ?_⟩
    · rw [log] at member
      exact (List.mem_append.mp member).elim (zeros f) (zeros' f)
    · rw [names, List.append_assoc]
      exact leads _ (leads' word member)
  · obtain ⟨_, more, word⟩ := failed bad
    refine ⟨more, ?_⟩
    rw [names, List.append_assoc]
    exact leads _ word

theorem Traced.silent (traced : Traced type s) (sane : p.Sane) (same : p.type = s.p.type)
    (state : p.state = s.p.state) (error : p.error = s.p.error) (rest : p.rest = s.p.rest)
    (blank : s.p.state ≠ .start → p.emptyLines = s.p.emptyLines) : Traced type ⟨p, s.user⟩ := by
  refine ⟨sane, same.trans traced.kind, fun begun good => ?_, ?_, traced.errors, traced.clean, ?_, ?_⟩
  · rw [state] at begun good
    exact (blank begun).trans (traced.blank begun good)
  · rw [error, state]
    exact traced.error
  · rw [state, rest]
    exact traced.alive
  · rw [state]
    exact traced.dead

theorem skipByte_traced (traced : Traced type s) (here : s.p.state = .start) (byte : UInt8) :
    Traced type ⟨(skipByte s.p byte).2, s.user⟩ := by
  have counted : Traced type ⟨{ s.p with emptyLines := s.p.emptyLines + 1 }, s.user⟩ :=
    traced.silent (.of_state (by simp [here])) rfl rfl rfl rfl fun begun => absurd here begun
  unfold skipByte
  dsimp only
  split
  · split
    · refine ⟨.of_state (by simp [Parser.fail]), traced.kind, fun _ good => absurd rfl good, ?_, traced.errors, traced.clean,
        fun good => absurd rfl good, fun _ => ?_⟩
      · simp [Parser.fail]
      · obtain ⟨_, leads⟩ := traced.alive (by simp [here])
        obtain ⟨word, member⟩ := some_rest s.p
        exact ⟨word, leads word member⟩
    · exact counted
  · exact traced

variable [Htstring]

theorem turn_traced {data : Bytes} {after : Scan (σ × List Fired) × Nat} (traced : Traced type s)
    (paused : s.p.flags.paused = false) (taken : turn H.logged s data = some after) : Traced type after.1 := by
  have sane := turn_sane H.logged traced.sane paused taken
  have alive := turn_alive taken
  by_cases here : s.p.state = .start
  · rcases turn_start here taken with ⟨byte, rfl⟩ | rfl
    · exact skipByte_traced traced here byte
    · exact traced.moves alive (begin_moves here) rfl sane fun _ _ => rfl
  · have clean := traced.error.mpr alive
    exact traced.moves alive (turn_moves here clean taken) rfl sane fun _ _ => traced.blank here alive

theorem path_traced {before after : Scan (σ × List Fired) × Bytes} (traced : Traced type before.1)
    (path : Relation.ReflTransGen (Within H.logged) before after) : Traced type after.1 :=
  path_keeps H.logged turn_traced traced path

theorem run_traced {data : Bytes} (traced : Traced type s) :
    Traced type (runLoop H.logged (runFuel data) data s).1 :=
  run_keeps H.logged turn_traced traced.sane data traced

omit [Htstring] in
theorem eof_traced (traced : Traced type s) (body : s.p.state = .body) (identity : s.p.body = .identity) :
    Traced type (hook H.logged .onMsgComplete [] ⟨{ s.p with state := .start }, s.user⟩).2 := by
  have alive : s.p.state ≠ .error := by simp [body]
  have clean := traced.error.mpr alive
  have moved : Moves s.p.rest (hook H.logged .onMsgComplete [] ⟨{ s.p with state := .start }, s.user⟩).2.p.rest s
      (hook H.logged .onMsgComplete [] ⟨{ s.p with state := .start }, s.user⟩).2 := by
    refine .hooked (p := { s.p with state := .start }) .onMsgComplete [] ⟨rfl, rfl, rfl, rfl⟩ clean (by simp) ?_
    simp only [Parser.rest, body, identity]
    exact nil_append_mem _
  refine traced.moves alive moved rfl (hook_sane H.logged (.of_state (by simp))) fun begun good => ?_
  exact traced.blank (by simp [body]) alive

end

inductive Call where
  | run (data : Bytes)
  | runEof
  | pause
  | resume
  deriving DecidableEq, Repr

def Call.perform [Htstring] {σ : Type} (H : Hooks σ) (call : Call) (s : Htparser × σ) : Htparser × σ :=
  match call with
  | .run data =>
    let result := htparserRun H s.1 s.2 data
    (result.1, result.2.1)
  | .runEof => htparserRunEof H s.1 s.2
  | .pause => ({ s.1 with toParser := s.1.toParser.pause }, s.2)
  | .resume => ({ s.1 with toParser := s.1.toParser.resume }, s.2)

def performAll [Htstring] {σ : Type} (H : Hooks σ) (calls : List Call) (s : Htparser × σ) : Htparser × σ :=
  calls.foldl (fun s call => call.perform H s) s

section
variable [Htstring] {σ : Type} {H : Hooks σ} {type : HtpType}

theorem perform_traced (call : Call) {s : Htparser × σ × List Fired} (traced : Traced type ⟨s.1.toParser, s.2⟩) :
    Traced type ⟨(call.perform H.logged s).1.toParser, (call.perform H.logged s).2⟩ := by
  cases call with
  | run data => exact run_traced traced
  | runEof =>
    unfold Call.perform htparserRunEof
    dsimp only
    split
    · next body => exact eof_traced traced body.1 body.2
    · exact traced
  | pause => exact traced.silent ⟨traced.sane.framed, traced.sane.pending, traced.sane.chunk⟩ rfl rfl rfl rfl fun _ => rfl
  | resume => exact traced.silent ⟨traced.sane.framed, traced.sane.pending, traced.sane.chunk⟩ rfl rfl rfl rfl fun _ => rfl

theorem performAll_traced (calls : List Call) {s : Htparser × σ × List Fired} (traced : Traced type ⟨s.1.toParser, s.2⟩) :
    Traced type ⟨(performAll H.logged calls s).1.toParser, (performAll H.logged calls s).2⟩ := by
  induction calls generalizing s with
  | nil => exact traced
  | cons call calls ih => exact ih (perform_traced call traced)

omit [Htstring] in
theorem init_traced (p : Htparser) (type : HtpType) (user : σ) :
    Traced type (⟨(htparserInit p type).toParser, (user, [])⟩ : Scan (σ × List Fired)) :=
  ⟨(htparserInit_between p type).sane, rfl, fun begun => absurd rfl begun, by simp [htparserInit, messageReset],
    by simp, by simp, fun _ => ⟨by simp, fun _ member => member⟩, fun bad => by simp [htparserInit, messageReset] at bad⟩

/-- The hooks that a parser has fired since its initialisation are the beginning of a sequence of messages, none was
fired with an error recorded, and all but the last have succeeded. -/
theorem hook_trace_grammar (H : Hooks σ) (p : Htparser) (type : HtpType) (user : σ) (calls : List Call) :
    let log := (performAll H.logged calls (htparserInit p type, (user, []))).2.2
    (∃ word ∈ (message type)∗, log.map Fired.name <+: word) ∧ (∀ f ∈ log, f.p.error = .none) ∧
      ∀ f ∈ log.dropLast, f.rc = 0 := by
  intro log
  have traced := performAll_traced (H := H) calls (s := (htparserInit p type, (user, []))) (init_traced p type user)
  refine ⟨?_, traced.errors, traced.clean⟩
  by_cases bad : (performAll H.logged calls (htparserInit p type, (user, []))).1.state = .error
  · obtain ⟨more, word⟩ := traced.dead bad
    exact ⟨_, word, List.prefix_append _ _⟩
  · obtain ⟨_, leads⟩ := traced.alive bad
    obtain ⟨word, member⟩ := some_rest (performAll H.logged calls (htparserInit p type, (user, []))).1.toParser
    exact ⟨_, leads word member, List.prefix_append _ _⟩

end

end Evhtp
