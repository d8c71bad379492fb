import Mathlib.Data.List.Forall2
import Evhtp.Log

/-! What the compiler of log formats makes of a format. A format is read as known variables and single bytes; the loop
takes one turn for each of them, and it goes wrong at a `$` that begins no variable, where it goes on by a length that
nobody set, and at the literal byte that does not fit into a tag. -/

namespace Evhtp

/-- A byte that stands for itself, a variable as it is spelled, or a `$` that begins neither a variable nor `$$`. -/
inductive LogToken where
  | literal (byte : UInt8)
  | named (type : LogOpType) (spelled : Bytes)
  | stray
  deriving DecidableEq, Repr

def LogToken.isLiteral : LogToken → Bool
  | .literal _ => true
  | .named _ _ | .stray => false

def knownVariable (text : Bytes) : Option (Bytes × LogOpType) :=
  opTypeStrmap.find? fun entry => entry.1.map toLower == (text.take entry.1.length).map toLower

def logTokens (text : Bytes) : List LogToken :=
  match text with
  | [] => []
  | byte :: rest =>
    if byte = 36 ∧ rest.head? ≠ some 36 then
      match knownVariable (byte :: rest) with
      | some known => .named known.2 ((byte :: rest).take known.1.length) :: logTokens (rest.drop (known.1.length - 1))
      | none => .stray :: logTokens rest
    else .literal byte :: logTokens rest
termination_by text.length
decreasing_by all_goals (simp; try omega)

/-- What an op stands for: its own text, or the name of its variable in any case. -/
def LogOp.Renders (op : LogOp) (text : Bytes) : Prop :=
  (op.type = .printable ∧ cString op.tag = text) ∨ ∃ name, (name, op.type) ∈ opTypeStrmap ∧ text.map toLower = name

/-- Whatever an uninitialized `arglen` holds, the compiler ends at the terminator with ops that spell the format. -/
def CompilesFaithfully (strfmt : Bytes) : Prop :=
  ∀ garbage, ∃ turns s texts, htpLogFormatCompile garbage strfmt turns = .ok s ∧ s.strp = strfmt.length ∧
    List.Forall₂ LogOp.Renders s.format texts ∧ texts.flatten = strfmt

/-- No `$` is stray, and no literal text fills a tag. -/
structure LogFormatFits (strfmt : Bytes) : Prop where
  known : .stray ∉ logTokens strfmt
  short : ∀ run, run <:+: logTokens strfmt → (∀ token ∈ run, token.isLiteral = true) → run.length < HTP_LOG_OP_TAGSZ

/-- The same along the tokens, with `n` literal bytes in the last tag. -/
def FitsFrom : Nat → List LogToken → Prop
  | _, [] => True
  | n, .literal _ :: rest => n + 1 < HTP_LOG_OP_TAGSZ ∧ FitsFrom (n + 1) rest
  | _, .named _ _ :: rest => FitsFrom 0 rest
  | _, .stray :: _ => False

theorem fitsFrom_iff {n : Nat} {tokens : List LogToken} (room : n < HTP_LOG_OP_TAGSZ) :
    FitsFrom n tokens ↔ .stray ∉ tokens ∧
      (∀ run, run <+: tokens → (∀ token ∈ run, token.isLiteral = true) → n + run.length < HTP_LOG_OP_TAGSZ) ∧
      ∀ run, run <:+: tokens → (∀ token ∈ run, token.isLiteral = true) → run.length < HTP_LOG_OP_TAGSZ := by
  have zero : 0 < HTP_LOG_OP_TAGSZ := by decide
  induction tokens generalizing n with
  | nil => simp [FitsFrom, room, zero]
  | cons token tokens ih =>
    cases token with
    | literal byte =>
      rw [FitsFrom]
      constructor
      · rintro ⟨more, fits⟩
        obtain ⟨known, first, inner⟩ := (ih more).mp fits
        have front : ∀ run, run <+: .literal byte :: tokens → (∀ token ∈ run, token.isLiteral = true) →
            n + run.length < HTP_LOG_OP_TAGSZ := by
          intro run begins all
          rcases List.prefix_cons_iff.mp begins with rfl | ⟨run, rfl, behind⟩
          · exact room
          · have := first run behind fun token member => all token (List.mem_cons_of_mem _ member)
            rw [List.length_cons]
            omega
        refine ⟨by simpa using known, front, fun run inside all => ?_⟩
        rcases List.infix_cons_iff.mp inside with begins | inside
        · have := front run begins all
          omega
        · exact inner run inside all
      · rintro ⟨known, first, inner⟩
        have more : n + 1 < HTP_LOG_OP_TAGSZ := first [.literal byte] (by simp) (by simp [LogToken.isLiteral])
        refine ⟨more, (ih more).mpr ⟨by simpa using known, fun run begins all => ?_, fun run inside all => ?_⟩⟩
        · have := first (.literal byte :: run) (List.cons_prefix_cons.mpr ⟨rfl, begins⟩)
            (List.forall_mem_cons.mpr ⟨rfl, all⟩)
          rw [List.length_cons] at this
          omega
        · exact inner run (List.infix_cons inside) all
    | named type spelled =>
      rw [FitsFrom]
      refine (ih zero).trans ⟨?_, ?_⟩
      · rintro ⟨known, -, inner⟩
        have none : ∀ run, run <+: .named type spelled :: tokens → (∀ token ∈ run, token.isLiteral = true) → run = [] := by
          intro run begins all
          rcases List.prefix_cons_iff.mp begins with rfl | ⟨run, rfl, -⟩
          · rfl
          · cases all _ (List.mem_cons_self ..)
        refine ⟨by simpa using known, fun run begins all => ?_, fun run inside all => ?_⟩
        · rw [none run begins all]
          exact room
        · rcases List.infix_cons_iff.mp inside with begins | inside
          · rw [none run begins all]
            exact zero
          · exact inner run inside all
      · rintro ⟨known, -, inner⟩
        refine ⟨by simpa using known, fun run begins all => ?_, fun run inside all => inner run (List.infix_cons inside) all⟩
        have := inner run (List.infix_cons begins.isInfix) all
        omega
    | stray => simp [FitsFrom]

theorem logFormatFits_iff {strfmt : Bytes} : FitsFrom 0 (logTokens strfmt) ↔ LogFormatFits strfmt := by
  rw [fitsFrom_iff (by decide)]
  constructor
  · rintro ⟨known, -, short⟩
    exact ⟨known, short⟩
  · rintro ⟨known, short⟩
    refine ⟨known, fun run begins all => ?_, short⟩
    rw [Nat.zero_add]
    exact short run begins.isInfix all

def literalOp (run : Bytes) : LogOp :=
  { type := .printable, len := run.length, tag := run ++ List.replicate (HTP_LOG_OP_TAGSZ - run.length) 0 }

theorem literalOp_put {run : Bytes} (room : run.length < HTP_LOG_OP_TAGSZ) (byte : UInt8) : (literalOp run).put byte =
    if run.length + 1 < HTP_LOG_OP_TAGSZ then .ok (literalOp (run ++ [byte])) else .error .fault := by
  obtain ⟨left, size⟩ : ∃ left, HTP_LOG_OP_TAGSZ - run.length = left + 1 := ⟨HTP_LOG_OP_TAGSZ - run.length - 1, by omega⟩
  have first : Buffer.write (literalOp run).tag (literalOp run).len byte = some (run ++ byte :: List.replicate left 0) := by
    unfold literalOp
    dsimp only
    rw [size, List.replicate_succ, Buffer.write_append]
  unfold LogOp.put
  rw [first, Option.bind_some]
  cases left with
  | zero =>
    have outside : Buffer.write (run ++ [byte]) (run.length + 1) 0 = none := by simp [Buffer.write]
    rw [if_neg (by omega)]
    simp [literalOp, outside]
  | succ left =>
    have second : Buffer.write (run ++ byte :: 0 :: List.replicate left 0) (run.length + 1) 0 =
        some (run ++ byte :: 0 :: List.replicate left 0) := by
      simpa using Buffer.write_append (run ++ [byte]) (List.replicate left 0) 0 (0 : UInt8)
    have rest : HTP_LOG_OP_TAGSZ - (run.length + 1) = left + 1 := by omega
    rw [if_pos (by omega), List.replicate_succ]
    simp [literalOp, second, rest, List.replicate_succ]

theorem literalOp_renders {run : Bytes} (noNul : 0 ∉ run) (room : run.length < HTP_LOG_OP_TAGSZ) :
    (literalOp run).Renders run := by
  obtain ⟨left, size⟩ : ∃ left, HTP_LOG_OP_TAGSZ - run.length = left + 1 := ⟨HTP_LOG_OP_TAGSZ - run.length - 1, by omega⟩
  refine .inl ⟨rfl, ?_⟩
  unfold literalOp
  dsimp only
  rw [size, List.replicate_succ, cString_eq noNul]

theorem toLower_eq_zero {byte : UInt8} : toLower byte = 0 ↔ byte = 0 := by
  have all : ∀ i : Fin 256, toLower (UInt8.ofNat i) = 0 ↔ UInt8.ofNat i = 0 := by decide +kernel
  simpa using all ⟨byte.toNat, byte.toNat_lt⟩

/-- The comparison does not read past the terminator. -/
theorem hasName_eq {name : Bytes} (noNul : 0 ∉ name) (text : Bytes) :
    hasName name (text ++ [0]) = .ok (name.map toLower == (text.take name.length).map toLower) := by
  induction name generalizing text with
  | nil => rfl
  | cons letter name ih =>
    have rest : 0 ∉ name := fun member => noNul (List.mem_cons_of_mem _ member)
    cases text with
    | nil =>
      have other : toLower letter ≠ toLower 0 := by
        intro same
        rw [toLower_eq_zero.mp (same.trans rfl)] at noNul
        exact noNul (List.mem_cons_self ..)
      rw [List.nil_append, hasName, if_neg other]
      rfl
    | cons byte text =>
      rw [List.cons_append, hasName]
      by_cases same : toLower letter = toLower byte
      · rw [if_pos same, ih rest]
        simp [same]
      · rw [if_neg same]
        simp [same]

theorem findOpType_eq {entries : List (Bytes × LogOpType)} (noNul : ∀ entry ∈ entries, 0 ∉ entry.1) (text : Bytes) :
    findOpType (text ++ [0]) entries = .ok ((entries.find? fun entry =>
      entry.1.map toLower == (text.take entry.1.length).map toLower).map fun entry => (entry.2, entry.1.length)) := by
  induction entries with
  | nil => rfl
  | cons entry entries ih =>
    obtain ⟨first, rest⟩ := List.forall_mem_cons.mp noNul
    rw [findOpType, hasName_eq first, List.find?_cons]
    cases entry.1.map toLower == (text.take entry.1.length).map toLower with
    | true => rfl
    | false => exact ih rest

theorem htpLogStrToOpType_eq (text : Bytes) :
    htpLogStrToOpType (text ++ [0]) = .ok ((knownVariable text).map fun entry => (entry.2, entry.1.length)) :=
  findOpType_eq (by decide) text

/-- A variable is spelled as its name is, up to the case. -/
theorem knownVariable_spelled {text : Bytes} {known : Bytes × LogOpType} (found : knownVariable text = some known) :
    (known.1, known.2) ∈ opTypeStrmap ∧ (text.take known.1.length).map toLower = known.1 ∧ 0 < known.1.length ∧
      known.1.length ≤ text.length := by
  have member : known ∈ opTypeStrmap := List.mem_of_find?_eq_some found
  have lower : ∀ entry ∈ opTypeStrmap, entry.1.map toLower = entry.1 ∧ 0 < entry.1.length := by decide
  have same := List.find?_some found
  rw [beq_iff_eq, (lower known member).1] at same
  have length := congrArg List.length same
  rw [List.length_map, List.length_take] at length
  exact ⟨member, same.symm, (lower known member).2, by omega⟩

theorem spelled_rest {text : Bytes} {known : Bytes × LogOpType} (found : knownVariable (36 :: text) = some known) :
    (36 :: text).take known.1.length ++ text.drop (known.1.length - 1) = 36 :: text := by
  obtain ⟨-, -, positive, -⟩ := knownVariable_spelled found
  obtain ⟨n, length⟩ : ∃ n, known.1.length = n + 1 := ⟨known.1.length - 1, by omega⟩
  rw [length, Nat.add_sub_cancel, ← List.drop_succ_cons, List.take_append_drop]

section
variable {garbage : LogScan → Int} {done text : Bytes} {s : LogScan}

theorem textAt_eq (done text : Bytes) : textAt (done ++ (text ++ [0])) done.length = .ok (text ++ [0]) := by
  have inside : (0 : Int) ≤ done.length ∧ (done.length : Int) < (done ++ (text ++ [0])).length := by
    rw [List.length_append, List.length_append, List.length_singleton]
    omega
  rw [textAt, if_pos inside, Int.toNat_natCast, List.drop_left]

theorem compileTurn_end (place : s.strp = done.length) : compileTurn garbage (done ++ [0]) s = .ok none := by
  have here := textAt_eq done []
  rw [List.nil_append] at here
  rw [compileTurn, place, here]
  rfl

theorem compileTurn_literal {byte : UInt8} (place : s.strp = done.length) (present : byte ≠ 0)
    (plain : ¬ (byte = 36 ∧ text.head? ≠ some 36)) :
    compileTurn garbage (done ++ (byte :: text ++ [0])) s =
      (htpLogFormatAddchar s.format byte).map fun format => some ⟨s.strp + 1, format⟩ := by
  have other : isFmtvar byte (text ++ [0]) = .ok false := by
    unfold isFmtvar
    split
    · next dollar =>
      have next : text.head? = some 36 := by
        by_contra different
        exact plain ⟨dollar, different⟩
      obtain ⟨rest, rfl⟩ := List.head?_eq_some_iff.mp next
      rfl
    · rfl
  rw [compileTurn, place, textAt_eq, List.cons_append]
  simp only [Except.bind, if_neg present, other]
  rfl

theorem compileTurn_fmtvar (place : s.strp = done.length) (next : text.head? ≠ some 36) :
    compileTurn garbage (done ++ (36 :: text ++ [0])) s =
      .ok (some ⟨s.strp + (((knownVariable (36 :: text)).map fun entry => (entry.1.length : Int)).getD (garbage s) - 1) + 1,
        s.format ++ [{ type := ((knownVariable (36 :: text)).map Prod.snd).getD .unset }]⟩) := by
  have fmtvar : isFmtvar 36 (text ++ [0]) = .ok true := by
    cases text with
    | nil => rfl
    | cons byte rest =>
      have other : byte ≠ 36 := fun same => next (by rw [same]; rfl)
      simp [isFmtvar, other]
  have looked := htpLogStrToOpType_eq (36 :: text)
  rw [List.cons_append] at looked
  rw [compileTurn, place, textAt_eq, List.cons_append]
  simp only [Except.bind, fmtvar, looked]
  cases knownVariable (36 :: text) <;> rfl

end

def pending : Bytes → List LogOp
  | [] => []
  | byte :: run => [literalOp (byte :: run)]

theorem addchar_eq {ops : List LogOp} {run : Bytes} (room : run.length < HTP_LOG_OP_TAGSZ)
    (last : ∀ op ∈ ops.getLast?, op.type ≠ .printable) (byte : UInt8) : htpLogFormatAddchar (ops ++ pending run) byte =
      if run.length + 1 < HTP_LOG_OP_TAGSZ then .ok (ops ++ pending (run ++ [byte])) else .error .fault := by
  have put := literalOp_put room byte
  have added : (if run.length + 1 < HTP_LOG_OP_TAGSZ then (.ok (ops ++ pending (run ++ [byte])) : Except LogStop (List LogOp))
      else .error .fault) = ((literalOp run).put byte).map fun op => ops ++ [op] := by
    rw [put]
    cases run <;> split <;> rfl
  rw [added]
  unfold htpLogFormatAddchar
  cases run with
  | nil =>
    rw [pending, List.append_nil]
    split
    · next none => rfl
    · next op found =>
      rw [if_pos (last op found)]
      rfl
  | cons first run =>
    rw [pending, List.getLast?_append_of_ne_nil _ (by simp), List.dropLast_concat]
    rfl

/-- The loop is behind `done`, and the last op holds the literal text `run`. -/
structure Compiling (done run : Bytes) (s : LogScan) : Prop where
  place : s.strp = done.length
  built : ∃ ops texts, s.format = ops ++ pending run ∧ (∀ op ∈ ops.getLast?, op.type ≠ .printable) ∧
    List.Forall₂ LogOp.Renders ops texts ∧ done = texts.flatten ++ run
  room : run.length < HTP_LOG_OP_TAGSZ

namespace Compiling

variable {garbage : LogScan → Int} {done run text : Bytes} {s : LogScan}

theorem rendered (compiling : Compiling done run s) (noNul : 0 ∉ done) :
    ∃ texts, List.Forall₂ LogOp.Renders s.format texts ∧ texts.flatten = done := by
  obtain ⟨ops, texts, format, -, rendered, rfl⟩ := compiling.built
  cases run with
  | nil => exact ⟨texts, by simpa [format, pending] using rendered, by simp⟩
  | cons byte run =>
    have last := literalOp_renders (fun member => noNul (List.mem_append_right _ member)) compiling.room
    refine ⟨texts ++ [byte :: run], ?_, by simp⟩
    rw [format]
    exact List.rel_append rendered (.cons last .nil)

theorem literal {byte : UInt8} (compiling : Compiling done run s) (present : byte ≠ 0)
    (plain : ¬ (byte = 36 ∧ text.head? ≠ some 36)) :
    if run.length + 1 < HTP_LOG_OP_TAGSZ then ∃ next, compileTurn garbage (done ++ (byte :: text ++ [0])) s = .ok (some next) ∧
      Compiling (done ++ [byte]) (run ++ [byte]) next
    else compileTurn garbage (done ++ (byte :: text ++ [0])) s = .error .fault := by
  obtain ⟨ops, texts, format, last, rendered, rfl⟩ := compiling.built
  rw [compileTurn_literal compiling.place present plain, format, addchar_eq compiling.room last]
  split
  · next more =>
    refine ⟨_, rfl, ?_, ⟨ops, texts, rfl, last, rendered, by simp⟩, by simpa using more⟩
    rw [List.length_append, List.length_singleton, Int.natCast_add, ← compiling.place]
    rfl
  · rfl

theorem known {known : Bytes × LogOpType} (compiling : Compiling done run s) (noNul : 0 ∉ done)
    (next : text.head? ≠ some 36) (found : knownVariable (36 :: text) = some known) :
    ∃ next, compileTurn garbage (done ++ (36 :: text ++ [0])) s = .ok (some next) ∧
      Compiling (done ++ (36 :: text).take known.1.length) [] next := by
  obtain ⟨texts, rendered, whole⟩ := compiling.rendered noNul
  obtain ⟨member, spelled, positive, short⟩ := knownVariable_spelled found
  have other : known.2 ≠ .printable := by
    have all : ∀ entry ∈ opTypeStrmap, entry.2 ≠ .printable := by decide
    exact all known member
  refine ⟨_, compileTurn_fmtvar compiling.place next, ?_, ?_, by decide⟩
  · rw [found, List.length_append, List.length_take, Nat.min_eq_left short, compiling.place]
    simp only [Option.map_some, Option.getD_some]
    omega
  · rw [found]
    refine ⟨s.format ++ [{ type := known.2 }], texts ++ [(36 :: text).take known.1.length], by simp [pending], ?_, ?_, ?_⟩
    · simpa using other
    · exact List.rel_append rendered (.cons (.inr ⟨known.1, member, spelled⟩) .nil)
    · simp [whole]

theorem compiles (garbage : LogScan → Int) (noNul : 0 ∉ done ++ text) (compiling : Compiling done run s)
    (fits : FitsFrom run.length (logTokens text)) :
    ∃ turns last texts, compileTurns garbage (done ++ (text ++ [0])) turns s = .ok last ∧ last.strp = (done ++ text).length ∧
      List.Forall₂ LogOp.Renders last.format texts ∧ texts.flatten = done ++ text := by
  fun_induction logTokens text generalizing done run s with
  | case1 =>
    rw [List.append_nil] at noNul ⊢
    obtain ⟨texts, rendered, whole⟩ := compiling.rendered noNul
    refine ⟨1, s, texts, ?_, compiling.place, rendered, whole⟩
    rw [compileTurns, List.nil_append, compileTurn_end compiling.place]
    rfl
  | case2 byte rest fmtvar known found ih =>
    obtain ⟨rfl, next⟩ := fmtvar
    have absent : 0 ∉ done := fun member => noNul (List.mem_append_left _ member)
    obtain ⟨after, turned, further⟩ := @Compiling.known garbage _ _ _ _ _ compiling absent next found
    have whole := spelled_rest found
    have read := ih (by rwa [List.append_assoc, whole]) further fits
    rw [List.append_assoc, List.append_assoc, ← List.append_assoc (List.take ..), whole] at read
    obtain ⟨turns, last, texts, ended, rest⟩ := read
    refine ⟨turns + 1, last, texts, ?_, rest⟩
    rw [compileTurns, turned]
    exact ended
  | case3 byte rest fmtvar unknown ih => exact fits.elim
  | case4 byte rest plain ih =>
    obtain ⟨more, fits⟩ := fits
    have present : byte ≠ 0 := fun zero => noNul (by simp [zero])
    have turned := @Compiling.literal garbage _ _ _ _ _ compiling present plain
    rw [if_pos more] at turned
    obtain ⟨after, turned, further⟩ := turned
    have read := ih (by simpa using noNul) further (by rwa [List.length_append])
    rw [List.append_assoc, List.append_assoc] at read
    obtain ⟨turns, last, texts, ended, rest⟩ := read
    refine ⟨turns + 1, last, texts, ?_, rest⟩
    rw [compileTurns, turned]
    exact ended

end Compiling

/-- At a stray `$`, an `arglen` of zero keeps the loop where it is. -/
theorem stray_unfinished {done text : Bytes} (next : text.head? ≠ some 36) (unknown : knownVariable (36 :: text) = none)
    (turns : Nat) {s : LogScan} (place : s.strp = done.length) :
    compileTurns (fun _ => 0) (done ++ (36 :: text ++ [0])) turns s = .error .unfinished := by
  induction turns generalizing s with
  | zero => rfl
  | succ turns ih =>
    rw [compileTurns, compileTurn_fmtvar place next, unknown]
    refine ih ?_
    simp only [Option.map_none, Option.getD_none]
    omega

/-- If the rest does not fit, there is an `arglen` with which the loop does not come to its end. -/
theorem Compiling.fails {done run text : Bytes} {s : LogScan} (noNul : 0 ∉ done ++ text) (compiling : Compiling done run s)
    (unfit : ¬ FitsFrom run.length (logTokens text)) (turns : Nat) (last : LogScan) :
    compileTurns (fun _ => 0) (done ++ (text ++ [0])) turns s ≠ .ok last := by
  fun_induction logTokens text generalizing done run s turns with
  | case1 => exact absurd trivial unfit
  | case2 byte rest fmtvar known found ih =>
    obtain ⟨rfl, next⟩ := fmtvar
    have absent : 0 ∉ done := fun member => noNul (List.mem_append_left _ member)
    obtain ⟨after, turned, further⟩ := @Compiling.known (fun _ => 0) _ _ _ _ _ compiling absent next found
    have whole := spelled_rest found
    cases turns with
    | zero => simp [compileTurns]
    | succ turns =>
      have read := ih (by rwa [List.append_assoc, whole]) further unfit turns
      rw [List.append_assoc, ← List.append_assoc (List.take ..), whole] at read
      rw [compileTurns, turned]
      exact read
  | case3 byte rest fmtvar unknown ih =>
    obtain ⟨rfl, next⟩ := fmtvar
    rw [stray_unfinished next unknown turns compiling.place]
    simp
  | case4 byte rest plain ih =>
    have present : byte ≠ 0 := fun zero => noNul (by simp [zero])
    have turned := @Compiling.literal (fun _ => 0) _ _ _ _ _ compiling present plain
    cases turns with
    | zero => simp [compileTurns]
    | succ turns =>
      by_cases more : run.length + 1 < HTP_LOG_OP_TAGSZ
      · rw [if_pos more] at turned
        obtain ⟨after, turned, further⟩ := turned
        have read := ih (by simpa using noNul) further (fun fits => unfit ⟨more, by rwa [List.length_append] at fits⟩) turns
        rw [List.append_assoc] at read
        rw [compileTurns, turned]
        exact read
      · rw [if_neg more] at turned
        rw [compileTurns, turned]
        simp [Except.bind]

theorem compiling_start : Compiling [] [] {} :=
  ⟨rfl, ⟨[], [], rfl, by simp, .nil, rfl⟩, by decide⟩

/-- A format is compiled faithfully if and only if it has no stray `$` and no literal text that fills a tag. -/
theorem log_format_faithful {strfmt : Bytes} (noNul : 0 ∉ strfmt) : CompilesFaithfully strfmt ↔ LogFormatFits strfmt := by
  rw [← logFormatFits_iff]
  constructor
  · intro faithful
    by_contra unfit
    obtain ⟨turns, s, -, compiled, -⟩ := faithful fun _ => 0
    exact compiling_start.fails noNul unfit turns s compiled
  · intro fits garbage
    exact compiling_start.compiles garbage noNul fits

/-- The first of two `$` stands for itself, and the second one begins a variable. -/
theorem log_format_faithful_host : CompilesFaithfully (ascii "$HOST: $$ua") := by
  have host : knownVariable (ascii "$HOST: $$ua") = some (ascii "$host", .host) := by decide
  have agent : knownVariable (ascii "$ua") = some (ascii "$ua", .useragent) := by decide
  simp [ascii] at host agent
  refine (log_format_faithful (by decide)).mpr (logFormatFits_iff.mp ?_)
  simp [logTokens, FitsFrom, ascii, host, agent, HTP_LOG_OP_TAGSZ]

/-- Depending on what `arglen` holds, the compiler leaves the string at an unknown variable, or its `$` is lost. -/
theorem log_format_unknown :
    (∀ turns, htpLogFormatCompile (fun _ => -5) (ascii "$x") (turns + 2) = .error .fault) ∧
      htpLogFormatCompile (fun _ => 1) (ascii "$x") 3 = .ok ⟨2, [{ type := .unset }, literalOp (ascii "x")]⟩ ∧
      ¬ CompilesFaithfully (ascii "$x") := by
  have faults (turns : Nat) : htpLogFormatCompile (fun _ => -5) (ascii "$x") (turns + 2) = .error .fault := rfl
  refine ⟨faults, by decide +kernel, fun faithful => ?_⟩
  obtain ⟨turns, s, -, compiled, -⟩ := faithful fun _ => -5
  rcases turns with _ | _ | turns
  · cases compiled
  · cases compiled
  · cases (faults turns).symm.trans compiled

end Evhtp
