import Evhtp.Proofs.HookTrace
import Evhtp.Proofs.HeadFields

/-! Limits. A parser with limits never has its caller keep more than one line that is not complete, and its hooks
are never given more fields, nor longer ones, than the limits allow, whatever the hooks do. -/

namespace Evhtp

/-- The fields since a message, or its trailer section, began: how many there were, and the name of the last one. -/
structure FieldsSeen where
  count : Nat := 0
  name : Bytes := []
  deriving DecidableEq, Repr

def FieldsSeen.see (seen : FieldsSeen) (f : Fired) : FieldsSeen :=
  match f.name with
  | .onMsgBegin | .onChunksComplete => {}
  | .hdrKey => ⟨seen.count + 1, f.event.data⟩
  | _ => seen

def fieldsSeen (log : List Fired) : FieldsSeen := log.foldl FieldsSeen.see {}

/-- At no time were there more fields than allowed, and no field was too long for one line. -/
structure FieldsWithin (maxLine maxCount : Nat) (log : List Fired) : Prop where
  count : ∀ before, before <+: log → (fieldsSeen before).count ≤ maxCount
  names : ∀ f ∈ log, f.name = .hdrKey → f.event.data.length < maxLine
  fields : ∀ before f, before ++ [f] <+: log → f.name = .hdrVal →
    (fieldsSeen before).name.length + f.event.data.length < maxLine

theorem fieldsSeen_append (log : List Fired) (f : Fired) : fieldsSeen (log ++ [f]) = (fieldsSeen log).see f := by
  simp [fieldsSeen]

theorem FieldsWithin.nil (maxLine maxCount : Nat) : FieldsWithin maxLine maxCount [] := by
  refine ⟨fun before start => ?_, fun f member => absurd member List.not_mem_nil, fun before f start => ?_⟩
  · rw [List.prefix_nil.mp start]
    exact Nat.zero_le _
  · simp at start

theorem FieldsWithin.append {maxLine maxCount : Nat} {log : List Fired} (within : FieldsWithin maxLine maxCount log)
    {f : Fired} (count : ((fieldsSeen log).see f).count ≤ maxCount) (name : f.name = .hdrKey → f.event.data.length < maxLine)
    (field : f.name = .hdrVal → (fieldsSeen log).name.length + f.event.data.length < maxLine) :
    FieldsWithin maxLine maxCount (log ++ [f]) := by
  refine ⟨fun before start => ?_, fun g member => ?_, fun before g start => ?_⟩
  · rcases List.prefix_concat_iff.mp start with rfl | start
    · rwa [fieldsSeen_append]
    · exact within.count before start
  · rcases List.mem_append.mp member with member | member
    · exact within.names g member
    · rw [List.mem_singleton.mp member]
      exact name
  · rcases List.prefix_concat_iff.mp start with same | start
    · obtain ⟨rfl, last⟩ := List.append_inj' same rfl
      rw [List.singleton_inj.mp last]
      exact field
    · exact within.fields before g start

structure Limited {σ : Type} (limits : Http1config) (s : Scan (σ × List Fired)) : Prop where
  config : s.p.config = limits
  counted : (fieldsSeen s.user.2).count ≤ s.p.headerCount
  few : s.p.headerCount ≤ limits.maxHeaderCount
  within : FieldsWithin limits.maxLineLength limits.maxHeaderCount s.user.2

section
variable {σ : Type} {H : Hooks σ} {limits : Http1config} {s : Scan (σ × List Fired)} {data : Bytes}

theorem Limited.silent (limited : Limited limits s) {p : Parser} (same : p.config = s.p.config)
    (count : p.headerCount = s.p.headerCount) : Limited limits ⟨p, s.user⟩ :=
  ⟨same.trans limited.config, limited.counted.trans count.ge, count.le.trans limited.few, limited.within⟩

theorem Limited.fail (limited : Limited limits s) (error : ParseError) : Limited limits (s.fail error).2 :=
  limited.silent rfl rfl

theorem Parser.replied_count (p : Parser) (reply : HookReply) : (p.replied reply).headerCount = p.headerCount := by
  unfold Parser.replied
  dsimp only
  split <;> rfl

theorem hook_limited {name : HookName} (same : s.p.config = limits)
    (few : s.p.headerCount ≤ limits.maxHeaderCount)
    (within : FieldsWithin limits.maxLineLength limits.maxHeaderCount s.user.2)
    (counted : ∀ rc, ((fieldsSeen s.user.2).see ⟨⟨name, data⟩, s.p, rc⟩).count ≤ s.p.headerCount)
    (short : name = .hdrKey → data.length < limits.maxLineLength)
    (field : name = .hdrVal → (fieldsSeen s.user.2).name.length + data.length < limits.maxLineLength) :
    Limited limits (hook H.logged name data s).2 := by
  have kept := hook_config H.logged name data s
  obtain ⟨reply, user, called⟩ := hook_logged (H := H) name data s
  rw [called] at kept ⊢
  refine ⟨kept.trans same, ?_, ?_, within.append ((counted _).trans few) short field⟩
  · rw [fieldsSeen_append, Parser.replied_count]
    exact counted _
  · rw [Parser.replied_count]
    exact few

theorem Limited.hook (limited : Limited limits s) {name : HookName} (data : Bytes)
    (other : name ≠ .hdrKey ∧ name ≠ .hdrVal) : Limited limits (hook H.logged name data s).2 := by
  refine hook_limited limited.config limited.few limited.within (fun rc => ?_) (fun key => absurd key other.1)
    fun value => absurd value other.2
  have fewer : ((fieldsSeen s.user.2).see ⟨⟨name, data⟩, s.p, rc⟩).count ≤ (fieldsSeen s.user.2).count := by
    cases name with
    | hdrKey => exact absurd rfl other.1
    | onMsgBegin | onChunksComplete => exact Nat.zero_le _
    | _ => exact Nat.le_refl _
  exact fewer.trans limited.counted

theorem Limited.andThen {first : Bool × Scan (σ × List Fired)} {next : Scan (σ × List Fired) → Bool × Scan (σ × List Fired)}
    (limited : Limited limits first.2) (rest : ∀ t, Limited limits t → Limited limits (next t).2) :
    Limited limits (andThen first next).2 := by
  unfold Evhtp.andThen
  split
  · exact rest _ limited
  · exact limited

theorem Limited.andThenNamed (name : Bytes) {first : Bool × Scan (σ × List Fired)}
    {next : Scan (σ × List Fired) → Bool × Scan (σ × List Fired)}
    (limited : Limited limits first.2 ∧ (fieldsSeen first.2.user.2).name = name)
    (rest : ∀ t, Limited limits t → (fieldsSeen t.user.2).name = name → Limited limits (next t).2) :
    Limited limits (Evhtp.andThen first next).2 := by
  unfold Evhtp.andThen
  split
  · exact rest _ limited.1 limited.2
  · exact limited.1

theorem Limited.setScheme (limited : Limited limits s) (scheme : HtpScheme) : Limited limits (s.setScheme scheme) :=
  limited.silent rfl rfl

theorem Limited.emitHostPort (limited : Limited limits s) (uri : ParsedUri) :
    Limited limits (emitHostPort H.logged uri s).2 := by
  refine .andThen (limited.hook uri.host ⟨nofun, nofun⟩) fun t held => ?_
  split
  · split
    · exact held.hook _ ⟨nofun, nofun⟩
    · exact held
  · exact held

theorem Limited.emitOriginForm (limited : Limited limits s) (target : Bytes) :
    Limited limits (emitOriginForm H.logged target s).2 := by
  refine .andThen ((limited.setScheme .none).hook _ ⟨nofun, nofun⟩) fun t held => ?_
  refine .andThen ?_ fun t held => held.hook _ ⟨nofun, nofun⟩
  split
  · exact held
  · exact held.hook _ ⟨nofun, nofun⟩

variable [Htstring]

theorem Limited.emitAbsoluteForm (limited : Limited limits s) (target : Bytes) (uri : ParsedUri) :
    Limited limits (emitAbsoluteForm H.logged target uri s).2 := by
  unfold Evhtp.emitAbsoluteForm
  dsimp only
  split
  · exact (limited.setScheme _).fail _
  · refine .andThen ((limited.setScheme _).hook _ ⟨nofun, nofun⟩) fun t held => ?_
    refine .andThen (held.emitHostPort uri) fun t held => ?_
    refine .andThen (held.hook _ ⟨nofun, nofun⟩) fun t held => ?_
    refine .andThen ?_ fun t held => held.hook _ ⟨nofun, nofun⟩
    split
    · exact held.hook _ ⟨nofun, nofun⟩
    · exact held

theorem Limited.emitTarget (limited : Limited limits s) (target : Bytes) : Limited limits (emitTarget H.logged target s).2 := by
  unfold Evhtp.emitTarget
  split
  · exact limited.emitOriginForm target
  · split
    · exact .andThen ((limited.setScheme .none).hook _ ⟨nofun, nofun⟩) fun t held => held.hook _ ⟨nofun, nofun⟩
    · dsimp only
      split
      · exact limited.fail _
      · split
        · refine .andThen ((limited.setScheme .none).emitHostPort _) fun t held => ?_
          exact .andThen (held.hook _ ⟨nofun, nofun⟩) fun t held => held.hook _ ⟨nofun, nofun⟩
        · exact limited.emitAbsoluteForm target _

theorem Limited.parseStartLine (limited : Limited limits s) (line : Bytes) :
    Limited limits (parseStartLine H.logged line s).2 := by
  unfold Evhtp.parseStartLine
  split
  · unfold parseRequestLine
    dsimp only
    have named (method : HtpMethod) : Limited limits ⟨{ s.p with method }, s.user⟩ := limited.silent rfl rfl
    split
    · exact (named _).fail _
    · split
      · exact (named _).fail _
      · split
        · exact (named _).fail _
        · have versioned (method : HtpMethod) (major minor : Nat) :
              Limited limits ⟨{ s.p with method, major, minor }, s.user⟩ := limited.silent rfl rfl
          exact .andThen ((versioned _ _ _).hook _ ⟨nofun, nofun⟩) fun t held => held.emitTarget _
  · obtain ⟨p, same, config', count⟩ : ∃ p, (parseStatusLine line s).2 = ⟨p, s.user⟩ ∧ p.config = s.p.config ∧
        p.headerCount = s.p.headerCount := by
      unfold parseStatusLine
      dsimp only
      repeat' split
      all_goals exact ⟨_, rfl, rfl, rfl⟩
    rw [same]
    exact limited.silent config' count

omit [Htstring] in
theorem hostname_seen (value : Bytes) (s : Scan (σ × List Fired)) :
    fieldsSeen (hook H.logged .hostname value s).2.user.2 = fieldsSeen s.user.2 := by
  obtain ⟨reply, user, called⟩ := hook_logged (H := H) .hostname value s
  rw [called]
  exact fieldsSeen_append _ _

theorem Limited.noteHeader (limited : Limited limits s) (name value : Bytes) :
    Limited limits (noteHeader H.logged name value s).2 ∧
      fieldsSeen (noteHeader H.logged name value s).2.user.2 = fieldsSeen s.user.2 := by
  unfold Evhtp.noteHeader
  split
  · split
    · have saw : Limited limits ⟨s.p.sawHost, s.user⟩ := limited.silent rfl rfl
      exact ⟨saw.hook value ⟨nofun, nofun⟩, hostname_seen value ⟨s.p.sawHost, s.user⟩⟩
    · exact ⟨limited, rfl⟩
  · have only := noteField_only name value s.p
    exact ⟨limited.silent (congrArg Parser.config only :) (congrArg Parser.headerCount only :), rfl⟩

omit [Htstring] in
/-- The name and the value of a field are parts of its line, and so is the colon. -/
theorem parts_short {line : Bytes} {colon : UInt8} {rest : Bytes} (found : line.dropWhile (· != COLON) = colon :: rest) :
    (line.takeWhile (· != COLON)).length + (trimBlanks rest).length < line.length := by
  have whole : line.takeWhile (· != COLON) ++ line.dropWhile (· != COLON) = line := List.takeWhile_append_dropWhile
  have length := congrArg List.length whole
  rw [found, List.length_append, List.length_cons] at length
  have trimmed : (trimBlanks rest).length ≤ rest.length :=
    (List.rdropWhile_prefix _ _).length_le.trans (List.dropWhile_suffix _).length_le
  omega

theorem Limited.parseHeader (limited : Limited limits s) {line : Bytes} (trailer : Bool)
    (allowed : s.p.headerCount < limits.maxHeaderCount) (short : line.length ≤ limits.maxLineLength) :
    Limited limits (parseHeader H.logged line trailer { s with p := s.p.countHeader }).2 := by
  have counted : Limited limits { s with p := s.p.countHeader } :=
    ⟨limited.config, limited.counted.trans (Nat.le_succ _), allowed, limited.within⟩
  unfold Evhtp.parseHeader
  dsimp only
  split
  · exact counted.fail _
  · next rest found =>
    have parts := parts_short found
    split
    · exact counted.fail _
    · have key : Limited limits
          (Evhtp.hook H.logged .hdrKey (line.takeWhile (· != COLON)) { s with p := s.p.countHeader }).2 := by
        refine hook_limited limited.config allowed limited.within (fun _ => ?_) (fun _ => by omega) nofun
        exact Nat.succ_le_succ limited.counted
      have named : (fieldsSeen (Evhtp.hook H.logged .hdrKey (line.takeWhile (· != COLON))
          { s with p := s.p.countHeader }).2.user.2).name = line.takeWhile (· != COLON) := by
        obtain ⟨reply, user, called⟩ :=
          hook_logged (H := H) .hdrKey (line.takeWhile (· != COLON)) { s with p := s.p.countHeader }
        rw [called]
        exact congrArg FieldsSeen.name (fieldsSeen_append _ _)
      refine .andThenNamed (line.takeWhile (· != COLON)) ⟨key, named⟩ fun first held last => ?_
      refine .andThenNamed (line.takeWhile (· != COLON)) ?_ fun noted held last => ?_
      · split
        · exact ⟨held, last⟩
        · obtain ⟨held, seen⟩ := held.noteHeader (H := H) (line.takeWhile (· != COLON)) (trimBlanks rest)
          exact ⟨held, (congrArg FieldsSeen.name seen).trans last⟩
      · refine hook_limited held.config held.few held.within (fun _ => held.counted) nofun (fun _ => ?_)
        rw [last]
        omega

omit [Htstring] in
theorem Limited.endHead (limited : Limited limits s) : Limited limits (endHead H.logged s) := by
  have framed : (framing s.p).2.config = s.p.config ∧ (framing s.p).2.headerCount = s.p.headerCount := by
    unfold framing
    dsimp only
    repeat' split
    all_goals exact ⟨rfl, rfl⟩
  unfold Evhtp.endHead
  split
  · have done : Limited limits ⟨(framing s.p).2.headDone, s.user⟩ := limited.silent framed.1 framed.2
    have called : Limited limits (Evhtp.hook H.logged .onHdrsComplete [] ⟨(framing s.p).2.headDone, s.user⟩).2 :=
      done.hook [] ⟨nofun, nofun⟩
    unfold skipIfAsked
    split
    · exact called.silent rfl rfl
    · exact called
  · exact limited.silent framed.1 framed.2

theorem Limited.parseHeadLine (limited : Limited limits s) {line : Bytes} (some : 0 < limits.maxHeaderCount)
    (short : line.length ≤ limits.maxLineLength) : Limited limits (parseHeadLine H.logged line s) := by
  unfold Evhtp.parseHeadLine
  split
  · have started : Limited limits (Evhtp.parseStartLine H.logged line s).2 := limited.parseStartLine line
    dsimp only
    split
    · have entered : Limited limits
          ⟨{ (Evhtp.parseStartLine H.logged line s).2.p with state := .headers }, (Evhtp.parseStartLine H.logged line s).2.user⟩ :=
        started.silent rfl rfl
      exact entered.hook [] ⟨nofun, nofun⟩
    · exact started
  · split
    · split
      · exact limited.silent rfl rfl
      · exact limited.endHead
    · split
      · exact limited.fail _
      · next full =>
        refine limited.parseHeader _ ?_ short
        rw [limited.config] at full
        omega

omit [Htstring] in
theorem Limited.countDelimited {result : Bool × Scan (σ × List Fired)} (limited : Limited limits result.2) (n : Nat) :
    Limited limits (countDelimited n result) := by
  unfold Evhtp.countDelimited
  split
  · exact limited.silent rfl rfl
  · exact limited

omit [Htstring] in
theorem Limited.countChunk {result : Bool × Scan (σ × List Fired)} (limited : Limited limits result.2) (n : Nat) :
    Limited limits (countChunk n result) := by
  unfold Evhtp.countChunk
  split
  · exact limited.silent rfl rfl
  · exact limited

omit [Htstring] in
theorem Limited.parseBody (limited : Limited limits s) (data : Bytes) : Limited limits (parseBody H.logged data s).1 := by
  have delimited : Limited limits (parseDelimited H.logged data s).1 := by
    refine .countDelimited ?_ _
    split
    · exact limited.hook _ ⟨nofun, nofun⟩
    · exact limited
  unfold Evhtp.parseBody
  split
  · exact delimited
  · exact delimited
  · split
    · unfold parseSizeLine
      split
      · exact limited
      · exact limited.fail _
      · split
        · exact limited.fail _
        · next size _ =>
          dsimp only
          split
          · -- The count of the fields starts anew, and so does what the hooks have seen.
            refine hook_limited limited.config (Nat.zero_le _) limited.within (fun _ => Nat.zero_le _) nofun nofun
          · have sized : Limited limits
                ⟨{ s.p with contentLen := size, origContentLen := size, chunk := .data }, s.user⟩ := limited.silent rfl rfl
            exact sized.hook _ ⟨nofun, nofun⟩
    · refine .countChunk ?_ _
      exact limited.hook _ ⟨nofun, nofun⟩
    · unfold parseChunkEnd
      split
      · split
        · exact limited
        · exact limited.fail _
      · exact limited.fail _
      · split
        · exact limited.fail _
        · have ended : Limited limits ⟨{ s.p with chunk := .size }, s.user⟩ := limited.silent rfl rfl
          exact ended.hook _ ⟨nofun, nofun⟩
  · exact limited.silent rfl rfl

omit [Htstring] in
theorem takeLine_short {max : Nat} {content : Bytes} {used : Nat} (limit : 0 < max)
    (taken : takeLine max data = .line content used) : content.length ≤ max := by
  unfold takeLine at taken
  dsimp only at taken
  split at taken
  · split at taken <;> cases taken
  · split at taken
    · cases taken
    · next short =>
      cases taken
      omega

theorem turn_limited (lines : 0 < limits.maxLineLength) (fields : 0 < limits.maxHeaderCount) (limited : Limited limits s)
    {after : Scan (σ × List Fired) × Nat} (taken : turn H.logged s data = some after) :
    Limited limits after.1 := by
  cases turn_cases H.logged taken with
  | @skips byte =>
    have skipped : (skipByte s.p byte).2.config = s.p.config ∧ (skipByte s.p byte).2.headerCount = s.p.headerCount := by
      unfold skipByte
      dsimp only
      repeat' split
      all_goals exact ⟨rfl, rfl⟩
    exact limited.silent skipped.1 skipped.2
  | begins =>
    exact hook_limited limited.config (Nat.zero_le _) limited.within (fun _ => Nat.zero_le _) (by simp) (by simp)
  | tooLong => exact limited.fail _
  | line _ found =>
    rw [limited.config] at found
    exact limited.parseHeadLine fields (takeLine_short lines found)
  | body => exact limited.parseBody data
  | finishes =>
    have finished : Limited limits ⟨s.p.finish, s.user⟩ := limited.silent rfl rfl
    exact finished.hook _ ⟨by simp, by simp⟩

theorem run_limited (lines : 0 < limits.maxLineLength) (fields : 0 < limits.maxHeaderCount) (limited : Limited limits s)
    {result : Scan (σ × List Fired) × Nat} (spec : RunSpec H.logged s data result) :
    Limited limits result.1 := by
  obtain ⟨after, consumed⟩ := result
  obtain ⟨_, last, path, ended⟩ := spec
  have reached : Limited limits last := by
    have along (config : Scan (σ × List Fired) × Bytes) (path : Relation.ReflTransGen (Within H.logged) (s, data) config) :
        Limited limits config.1 := by
      induction path with
      | refl => exact limited
      | tail _ within ih =>
        obtain ⟨_, _, state, used, taken, rfl⟩ := within
        exact turn_limited lines fields ih taken
    exact along _ path
  dsimp only at *
  cases ended with
  | completed done _ =>
    have taken : turn H.logged last (data.drop consumed) = some (finishMessage H.logged last, 0) := by simp only [turn, done]
    exact turn_limited lines fields reached taken
  | failed _ | paused _ | waiting _ => exact reached

end

/-- What a run that waits for more leaves unread: nothing, the beginning of one line, or one byte of the line end
after the data of a chunk. -/
inductive Leftover (max : Nat) (p : Parser) (rest : Bytes) : Prop
  | none (empty : rest = [])
  | line (place : p.state.inHead = true ∨ p.state = .body ∧ p.body = .chunked ∧ p.chunk = .size) (incomplete : LF ∉ rest)
      (short : rest.length ≤ max)
  | lineEnd (place : p.state = .body ∧ p.body = .chunked ∧ p.chunk = .dataEnd) (one : rest.length ≤ 1)

theorem Leftover.length_le {max : Nat} {p : Parser} {rest : Bytes} (left : Leftover max p rest) (limit : 0 < max) :
    rest.length ≤ max := by
  cases left with
  | none empty =>
    rw [empty]
    exact Nat.zero_le _
  | line _ _ short => exact short
  | lineEnd _ one => omega

theorem takeLine_waits {max : Nat} {data : Bytes} (limit : 0 < max) (incomplete : takeLine max data = .incomplete) :
    LF ∉ data ∧ data.length ≤ max := by
  unfold takeLine at incomplete
  dsimp only at incomplete
  split at incomplete
  · next none =>
    split at incomplete
    · cases incomplete
    · next short =>
      have all : data.takeWhile (· != LF) = data := (List.takeWhile_prefix _).eq_of_length none
      refine ⟨fun member => ?_, by omega⟩
      have kept := List.takeWhile_eq_self_iff.mp all LF member
      simp at kept
  · split at incomplete <;> cases incomplete

section
variable [Htstring] {σ : Type} {H : Hooks σ} {s : Scan σ} {data : Bytes}

omit [Htstring] in
theorem parseSizeLine_waits (unread : (parseSizeLine H data s).2 = 0) (alive : (parseSizeLine H data s).1.p.state ≠ .error) :
    takeLine s.p.config.maxLineLength data = .incomplete := by
  unfold parseSizeLine at unread alive
  split at unread
  · next incomplete => exact incomplete
  · next long =>
    rw [long] at alive
    exact absurd rfl alive
  · next taken =>
    have positive := (takeLine_used taken).1
    split at unread
    · dsimp only at unread
      omega
    · dsimp only at unread
      split at unread <;> (dsimp only at unread; omega)

omit [Htstring] in
theorem parseChunkEnd_waits (unread : (parseChunkEnd H data s).2 = 0) (alive : (parseChunkEnd H data s).1.p.state ≠ .error) :
    data.length ≤ 1 := by
  unfold parseChunkEnd at unread alive
  split at unread
  · next incomplete =>
    rw [incomplete] at alive
    dsimp only at alive
    split at alive
    · omega
    · exact absurd rfl alive
  · next long =>
    rw [long] at alive
    exact absurd rfl alive
  · next content used taken =>
    have positive := (takeLine_used taken).1
    rw [taken] at alive
    dsimp only at alive
    split at alive
    · exact absurd rfl alive
    · next empty =>
      rw [if_neg empty] at unread
      dsimp only at unread
      omega

omit [Htstring] in
theorem waiting_body (lines : 0 < s.p.config.maxLineLength) (sane : s.p.Sane) (here : s.p.state = .body)
    (waits : turnBody H s data = none) : Leftover s.p.config.maxLineLength s.p data := by
  unfold turnBody at waits
  split at waits
  · next empty => exact .none empty
  · next some =>
    split at waits
    · next idle =>
      obtain ⟨unread, still⟩ := idle
      have positive := List.length_pos_iff.mpr some
      have alive : (parseBody H data s).1.p.state ≠ .error := by
        rw [still]
        exact nofun
      unfold parseBody at unread alive
      split at unread
      · next length =>
        have pending := sane.pending here length
        have piece : s.p.delimitedPiece data = 0 := unread
        unfold Parser.delimitedPiece at piece
        split at piece <;> omega
      · next identity =>
        have piece : s.p.delimitedPiece data = 0 := unread
        rw [Parser.delimitedPiece, if_neg (by simp [identity])] at piece
        omega
      · next chunked =>
        simp only [chunked] at alive
        split at unread
        · next size =>
          simp only [size] at alive
          obtain ⟨unbroken, short⟩ := takeLine_waits lines (parseSizeLine_waits unread alive)
          exact .line (.inr ⟨here, chunked, size⟩) unbroken short
        · next more =>
          have pending := sane.chunk here chunked more
          have piece : s.p.chunkPiece data = 0 := unread
          unfold Parser.chunkPiece at piece
          split at piece <;> omega
        · next ends =>
          simp only [ends] at alive
          exact .lineEnd ⟨here, chunked, ends⟩ (parseChunkEnd_waits unread alive)
      · next none => exact absurd none (sane.framed here)
    · cases waits

/-- A parser that waits, and has not failed, waits for the rest of a line at most. -/
theorem waiting_leftover (lines : 0 < s.p.config.maxLineLength) (sane : s.p.Sane) (alive : s.p.state ≠ .error)
    (waits : turn H s data = none) : Leftover s.p.config.maxLineLength s.p data := by
  have head (here : s.p.state.inHead = true) (waits : turnHead H s data = none) :
      Leftover s.p.config.maxLineLength s.p data := by
    unfold turnHead at waits
    split at waits
    · next incomplete =>
      obtain ⟨unbroken, short⟩ := takeLine_waits lines incomplete
      exact .line (.inl here) unbroken short
    · cases waits
    · cases waits
  unfold turn at waits
  split at waits
  · unfold turnStart at waits
    split at waits
    · exact .none rfl
    · split at waits <;> cases waits
  · next here => exact head (by rw [here]; rfl) waits
  · next here => exact head (by rw [here]; rfl) waits
  · next here => exact head (by rw [here]; rfl) waits
  · next here => exact waiting_body lines sane here waits
  · cases waits
  · next failed => exact absurd failed alive

end

section
variable [Htstring] {σ : Type} {H : Hooks σ} {type : HtpType}

theorem perform_limited {limits : Http1config} (lines : 0 < limits.maxLineLength)
    (fields : 0 < limits.maxHeaderCount) (call : Call) {s : Htparser × σ × List Fired}
    (traced : Traced type ⟨s.1.toParser, s.2⟩) (limited : Limited limits ⟨s.1.toParser, s.2⟩) :
    Limited limits ⟨(call.perform H.logged s).1.toParser, (call.perform H.logged s).2⟩ := by
  cases call with
  | run data => exact run_limited lines fields limited (run_spec H.logged traced.sane data)
  | runEof =>
    unfold Call.perform htparserRunEof
    dsimp only
    split
    · have ended : Limited limits ⟨{ s.1.toParser with state := .start }, s.2⟩ := limited.silent rfl rfl
      exact ended.hook [] ⟨nofun, nofun⟩
    · exact limited
  | pause | resume => exact limited.silent rfl rfl

theorem performAll_limited {limits : Http1config} (lines : 0 < limits.maxLineLength)
    (fields : 0 < limits.maxHeaderCount) (calls : List Call) {s : Htparser × σ × List Fired}
    (traced : Traced type ⟨s.1.toParser, s.2⟩) (limited : Limited limits ⟨s.1.toParser, s.2⟩) :
    Limited limits ⟨(performAll H.logged calls s).1.toParser, (performAll H.logged calls s).2⟩ := by
  induction calls generalizing s with
  | nil => exact limited
  | cons call calls ih => exact ih (perform_traced call traced) (perform_limited lines fields call traced limited)

omit [Htstring] in
theorem init_limited (p : Htparser) (type : HtpType) (user : σ) :
    Limited p.config (⟨(htparserInit p type).toParser, (user, [])⟩ : Scan (σ × List Fired)) :=
  ⟨rfl, Nat.zero_le _, Nat.zero_le _, .nil _ _⟩

/-- A run that neither fails nor is paused nor completes a message leaves a line that is not complete, at most. -/
theorem run_leftover {s : Scan (σ × List Fired)} (traced : Traced type s)
    (lines : 0 < s.p.config.maxLineLength) {data : Bytes} {result : Scan (σ × List Fired) × Nat}
    (spec : RunSpec H.logged s data result) (clean : result.1.p.error = .none) (running : result.1.p.flags.paused = false)
    (underway : ∀ f ∈ result.1.user.2.drop s.user.2.length, f.name ≠ .onMsgComplete) :
    Leftover s.p.config.maxLineLength result.1.p (data.drop result.2) := by
  obtain ⟨after, consumed⟩ := result
  obtain ⟨_, last, path, ended⟩ := spec
  have reached := path_traced traced path
  have config : last.p.config = s.p.config := (HookInvariant.config H.logged s.p.config).path rfl path
  have grown : s.user.2 <+: last.user.2 := (logged_grows H s.user.2).path List.prefix_rfl path
  dsimp only at *
  cases ended with
  | completed done _ =>
    obtain ⟨reply, user, same⟩ := hook_logged (H := H) .onMsgComplete [] ⟨last.p.finish, last.user⟩
    have log : (finishMessage H.logged last).user.2 = last.user.2 ++ [⟨⟨.onMsgComplete, []⟩, last.p.finish, reply.rc⟩] := by
      rw [finishMessage, same]
    rw [log, List.drop_append_of_le_length grown.length_le] at underway
    exact absurd rfl (underway _ (List.mem_append_right _ (List.mem_singleton_self _)))
  | failed failed => exact absurd failed (reached.error.mp clean)
  | paused paused => cases running.symm.trans paused
  | waiting waits =>
    rw [← config] at lines ⊢
    exact waiting_leftover lines reached.sane (reached.error.mp clean) waits

/-- A run that neither fails nor is paused nor completes a message leaves at most one line that is not complete, and
no longer than a line may be; and the hooks are given no more fields than allowed, each of them shorter than a line. -/
theorem buffering_bounded (H : Hooks σ) (p : Htparser) (type : HtpType) (user : σ) (calls : List Call)
    (lines : 0 < p.config.maxLineLength) (fields : 0 < p.config.maxHeaderCount) :
    let before := performAll H.logged calls (htparserInit p type, (user, []))
    FieldsWithin p.config.maxLineLength p.config.maxHeaderCount before.2.2 ∧
      ∀ data, let after := htparserRun H.logged before.1 before.2 data
        after.1.error = .none → after.1.flags.paused = false →
          (∀ f ∈ after.2.1.2.drop before.2.2.length, f.name ≠ .onMsgComplete) →
            (data.drop after.2.2).length ≤ p.config.maxLineLength ∧
              Leftover p.config.maxLineLength after.1.toParser (data.drop after.2.2) := by
  intro before
  have traced := performAll_traced (H := H) calls (s := (htparserInit p type, (user, []))) (init_traced p type user)
  have limited := performAll_limited (H := H) lines fields calls (s := (htparserInit p type, (user, [])))
    (init_traced p type user) (init_limited p type user)
  refine ⟨limited.within, ?_⟩
  intro data after clean running underway
  have same : before.1.config = p.config := limited.config
  have left : Leftover before.1.config.maxLineLength after.1.toParser (data.drop after.2.2) :=
    run_leftover traced (by rw [same]; exact lines) (run_spec H.logged traced.sane data) clean running underway
  rw [same] at left
  exact ⟨left.length_le lines, left⟩

end

section
attribute [local instance] Plain.htstring

def tightConfig : Http1config := { defaultConfig with maxLineLength := 20, maxHeaderCount := 1 }

def tightStart : Htparser × Unit × List Fired :=
  performAll silentHooks.logged [.run (ascii "GET / HTTP/1.1\r\nA: b\r\n")]
    (htparserInit (htparserNew tightConfig) .request, ((), []))

def tightRun : Htparser × (Unit × List Fired) × Nat := htparserRun silentHooks.logged tightStart.1 tightStart.2 [CR]

theorem buffering_bounded_tight : (tightRun.1.error = .none ∧ tightRun.1.flags.paused = false ∧
      ∀ f ∈ tightRun.2.1.2.drop tightStart.2.2.length, f.name ≠ .onMsgComplete) ∧
    FieldsWithin 20 1 tightStart.2.2 ∧ (List.drop tightRun.2.2 [CR]).length ≤ 20 ∧
      Leftover 20 tightRun.1.toParser (List.drop tightRun.2.2 [CR]) := by
  have underway : tightRun.1.error = .none ∧ tightRun.1.flags.paused = false ∧
      ∀ f ∈ tightRun.2.1.2.drop tightStart.2.2.length, f.name ≠ .onMsgComplete := by decide +kernel
  have bounded := buffering_bounded silentHooks (htparserNew tightConfig) .request ()
    [.run (ascii "GET / HTTP/1.1\r\nA: b\r\n")] (by decide) (by decide)
  exact ⟨underway, bounded.1, bounded.2 [CR] underway.1 underway.2.1 underway.2.2⟩

end

end Evhtp
