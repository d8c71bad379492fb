import Evhtp.Proofs.QueryValues

/-! Two queries that are joined by `&`. The arguments of both are judged as in the queries alone, but for two rules: an empty
value is refused at the end only, and the guard on a stray depends on the length of the whole query. -/

namespace Evhtp

/-- A stray `%` in the key of the first argument whose byte is one of the last two bytes of the query. -/
def LateStray (flags : QueryFlags) (query : Bytes) : Prop :=
  ∃ front byte back, queryTokens flags query = some (front ++ .stray byte :: back) ∧
    (∀ token ∈ front, token.separates flags = false ∧ token.assigns = false) ∧ (tokenText back).length ≤ 1

/-- The last argument ends in its `=`, and the flags do not allow it. -/
def EmptyEnd (flags : QueryFlags) (query : Bytes) : Prop :=
  flags.allowEmptyVals = false ∧ ∃ tokens, queryTokens flags query = some tokens ∧
    ∃ piece ∈ (tokens.splitOnP (QueryToken.separates flags)).getLast?, argVal piece = some []

/-- No escape is broken, and all arguments may stand in front of a separator. -/
def AllowedInside (flags : QueryFlags) (query : Bytes) : Prop :=
  ∃ tokens, queryTokens flags query = some tokens ∧
    ∀ piece ∈ tokens.splitOnP (QueryToken.separates flags), InnerAllowed flags piece

/-- No escape is broken, and the last argument may stand at the end. -/
def AllowedAtEnd (flags : QueryFlags) (query : Bytes) : Prop :=
  ∃ tokens, queryTokens flags query = some tokens ∧
    ArgsAllowed flags (LastAllowed flags) (tokens.splitOnP (QueryToken.separates flags))

/-- The two queries are accepted together if and only if each of them is, with the arguments of both. -/
def Independent (flags : QueryFlags) (first second : Bytes) : Prop :=
  ((evhtpParseQueryWflags (first ++ 38 :: second) flags).isSome ↔
      (evhtpParseQueryWflags first flags).isSome ∧ (evhtpParseQueryWflags second flags).isSome) ∧
    ∀ args args', evhtpParseQueryWflags first flags = some args → evhtpParseQueryWflags second flags = some args' →
      evhtpParseQueryWflags (first ++ 38 :: second) flags = some (args ++ args')

section
variable {flags : QueryFlags} {len n : Nat} {query first second : Bytes} {args : List NullKv} {token : QueryToken}
  {tokens piece : List QueryToken} {pieces others : List (List QueryToken)}

theorem EndsInEscape.append {rest : Bytes} (ends : EndsInEscape rest) (front : Bytes) : EndsInEscape (front ++ rest) := by
  obtain ⟨before, digit, rfl, digits⟩ := ends
  exact ⟨front ++ before, digit, by simp, digits⟩

theorem queryTokens_append (whole : ¬ EndsInEscape first) (second : Bytes) :
    queryTokens flags (first ++ 38 :: second) =
      (queryTokens flags first).bind fun tokens => (queryTokens flags second).map fun tokens' => tokens ++ .text 38 :: tokens' := by
  have behind : ∀ (token : QueryToken) (read read' : Option (List QueryToken)),
      (read.bind fun tokens => read'.map fun tokens' => tokens ++ .text 38 :: tokens').map (token :: ·) =
        (read.map (token :: ·)).bind fun tokens => read'.map fun tokens' => tokens ++ .text 38 :: tokens' := by
    intro token read read'
    cases read <;> cases read' <;> rfl
  fun_induction queryTokens flags first with
  | case1 => exact (queryTokens_textCons (by simp) second).trans (by simp)
  | case2 byte hex =>
    obtain ⟨rfl, -⟩ := hex
    exact absurd ⟨[], none, rfl, by simp⟩ whole
  | case3 byte hex digit isDigit =>
    obtain ⟨rfl, -⟩ := hex
    exact absurd ⟨[], some digit, rfl, by simp [isDigit]⟩ whole
  | case4 byte hex digit isDigit digit' rest isDigit' ih =>
    obtain ⟨rfl, hex⟩ := hex
    rw [← behind, ← ih fun ends => whole (ends.append [37, digit, digit'])]
    exact queryTokens_escapeCons hex isDigit isDigit' _
  | case5 byte hex digit isDigit digit' rest other => simp [queryTokens, hex, isDigit, other]
  | case6 byte hex digit rest other ih =>
    obtain ⟨rfl, hex⟩ := hex
    rw [← behind, ← ih fun ends => whole (ends.append [37, digit])]
    exact queryTokens_strayCons hex (by simpa using other) _
  | case7 byte rest other ih =>
    rw [← behind, ← ih fun ends => whole (ends.append [byte])]
    exact queryTokens_textCons other _

theorem straysFit_iff : straysFit len n tokens = true ↔
    ∀ front byte back, tokens = front ++ .stray byte :: back → n + (tokenText front).length + 3 < len := by
  induction tokens generalizing n with
  | nil => simp [straysFit]
  | cons token tokens ih =>
    rw [straysFit, Bool.and_eq_true_iff, ih]
    constructor
    · rintro ⟨here, later⟩ front byte back equal
      cases front with
      | nil =>
        cases equal
        simpa [QueryToken.isStray, tokenText] using here
      | cons _ front =>
        cases equal
        have := later front byte back rfl
        rw [tokenText_cons, List.length_append]
        omega
    · intro all
      refine ⟨?_, fun front byte back equal => ?_⟩
      · cases token with
        | stray byte => simpa [QueryToken.isStray, tokenText] using all [] byte tokens rfl
        | _ => rfl
      · have := all (token :: front) byte back (by rw [equal]; rfl)
        rw [tokenText_cons, List.length_append] at this
        omega

theorem tokenText_length (piece : List QueryToken) :
    (tokenText piece).length =
      (tokenText (argKey piece)).length + ((argVal piece).map fun val => (tokenText val).length + 1).getD 0 := by
  rcases argument_eq piece with ⟨whole, none⟩ | ⟨val, whole, some⟩
  · rw [none, ← whole]
    rfl
  · rw [some]
    conv_lhs => rw [whole]
    simp [QueryToken.bytes]

theorem straysFit_of_room (room : (tokenText tokens).length + 1 < len) : straysFit len 0 tokens = true := by
  refine straysFit_iff.mpr fun front byte back equal => ?_
  rw [equal, tokenText_append, tokenText_cons, List.length_append, List.length_append] at room
  simp only [QueryToken.bytes, List.length_cons, List.length_nil] at room
  omega

theorem pieceFits_of_room (room : (tokenText piece).length + 2 ≤ len) : pieceFits len piece = true := by
  rw [tokenText_length] at room
  refine Bool.and_eq_true_iff.mpr ⟨straysFit_of_room (by omega), ?_⟩
  cases value : argVal piece with
  | none => rfl
  | some val =>
    rw [value] at room
    exact straysFit_of_room (by simp at room; omega)

/-- The guard on the strays of a value is idle where there is a key. -/
theorem pieceFits_iff_key (key : argKey piece ≠ []) (room : (tokenText piece).length ≤ len) :
    pieceFits len piece = straysFit len 0 (argKey piece) := by
  have some : 0 < (tokenText (argKey piece)).length := List.length_pos_of_ne_nil (mt tokenText_eq_nil.mp key)
  rw [tokenText_length] at room
  have idle : (argVal piece).all (straysFit len 0) = true := by
    cases value : argVal piece with
    | none => rfl
    | some val =>
      rw [value] at room
      exact straysFit_of_room (by simp at room; omega)
  rw [pieceFits, idle, Bool.and_true]

def QueryToken.ofKey (flags : QueryFlags) (token : QueryToken) : Bool := !token.assigns && !token.separates flags

theorem lateStray_iff (read : queryTokens flags query = some tokens) :
    LateStray flags query ↔ straysFit query.length 0 (tokens.takeWhile (QueryToken.ofKey flags)) = false := by
  have size : query.length = (tokenText tokens).length := by rw [queryTokens_text read]
  rw [← Bool.not_eq_true, straysFit_iff]
  constructor
  · rintro ⟨front, byte, back, read', plain, late⟩ all
    cases read.symm.trans read'
    have key : (front ++ .stray byte :: back).takeWhile (QueryToken.ofKey flags) =
        front ++ .stray byte :: back.takeWhile (QueryToken.ofKey flags) := by
      rw [List.takeWhile_append_of_pos fun token member => by simp [QueryToken.ofKey, plain token member]]
      rfl
    have inside := all front byte _ key
    rw [size, tokenText_append, tokenText_cons, List.length_append, List.length_append] at inside
    simp only [QueryToken.bytes, List.length_cons, List.length_nil] at inside
    omega
  · intro some
    push Not at some
    obtain ⟨front, byte, back, key, late⟩ := some
    have whole : tokens = front ++ .stray byte :: (back ++ tokens.dropWhile (QueryToken.ofKey flags)) := by
      rw [← List.cons_append, ← List.append_assoc, ← key, List.takeWhile_append_dropWhile]
    have plain : ∀ token ∈ front, token.ofKey flags = true := by
      intro token member
      exact List.mem_takeWhile_imp (key ▸ List.mem_append_left _ member : token ∈ tokens.takeWhile (QueryToken.ofKey flags))
    refine ⟨front, byte, _, whole ▸ read, fun token member => ?_, ?_⟩
    · simpa [QueryToken.ofKey, and_comm] using plain token member
    · rw [size, whole, tokenText_append, tokenText_cons, List.length_append, List.length_append] at late
      simp only [QueryToken.bytes, List.length_cons, List.length_nil] at late
      omega

theorem tokenText_length_le (member : piece ∈ tokens.splitOnP (QueryToken.separates flags)) :
    (tokenText piece).length ≤ (tokenText tokens).length := by
  obtain ⟨front, back, rfl⟩ := Pieces.infix_of_mem member
  simp only [tokenText_append, List.length_append]
  omega

/-- The guards in a query whose arguments have keys: they stop a late stray, and nothing else. -/
theorem guards_iff (keyed : Keyed flags query) (read : queryTokens flags query = some tokens) :
    (∀ piece ∈ tokens.splitOnP (QueryToken.separates flags), pieceFits query.length piece = true) ↔ ¬ LateStray flags query := by
  have size : query.length = (tokenText tokens).length := by rw [queryTokens_text read]
  have keys := keyed.argKeys read
  have firstKey : argKey (tokens.takeWhile (!QueryToken.separates flags ·)) = tokens.takeWhile (QueryToken.ofKey flags) := by
    rw [argKey, List.takeWhile_takeWhile]
    congr 1
    funext token
    simp [QueryToken.ofKey, Bool.decide_and]
  rw [lateStray_iff read, Bool.not_eq_false, ← firstKey]
  rcases @Pieces.cases_pieces _ (QueryToken.separates flags) tokens with ⟨plain, single⟩ | ⟨sep, rest, whole, separates, split⟩
  · have same : tokens.takeWhile (!QueryToken.separates flags ·) = tokens :=
      List.takeWhile_eq_self_iff.mpr fun token member => by simp [plain token member]
    rw [single] at keys ⊢
    rw [same, List.forall_mem_singleton, pieceFits_iff_key (keys tokens (List.mem_singleton_self _)) size.ge]
  · rw [split] at keys ⊢
    obtain ⟨key, -⟩ := List.forall_mem_cons.mp keys
    generalize tokens.takeWhile (!QueryToken.separates flags ·) = first at *
    have some : 0 < (tokenText first).length := by
      refine List.length_pos_of_ne_nil (mt tokenText_eq_nil.mp ?_)
      rintro rfl
      exact key rfl
    have total : (tokenText tokens).length = (tokenText first).length + sep.bytes.length + (tokenText rest).length := by
      rw [whole]
      simp [Nat.add_assoc]
    have one : sep.bytes.length = 1 := by
      cases sep with
      | text byte => rfl
      | _ => cases separates
    have others : ∀ piece ∈ rest.splitOnP (QueryToken.separates flags), pieceFits query.length piece = true := by
      intro piece member
      have := tokenText_length_le member
      exact pieceFits_of_room (by omega)
    rw [List.forall_mem_cons, and_iff_left others, pieceFits_iff_key key (by omega)]

theorem parse_keyed_iff (keyed : Keyed flags query) (memory : 2 * query.length + 2 ≤ 2 ^ 64 - 1) :
    evhtpParseQueryWflags query flags = some args ↔
      ¬ LateStray flags query ∧ ∃ tokens, queryTokens flags query = some tokens ∧
        ArgsAllowed flags (LastAllowed flags) (tokens.splitOnP (QueryToken.separates flags)) ∧
        entriesOf (tokens.splitOnP (QueryToken.separates flags)) = args := by
  rw [evhtpParseQueryWflags_eq, if_neg (by omega), Option.bind_eq_some_iff]
  constructor
  · rintro ⟨tokens, read, judged⟩
    obtain ⟨fit, allowed, entries⟩ := (judgeArgs_iff (keyed.argKeys read)).mp judged
    exact ⟨(guards_iff keyed read).mp fit, tokens, read, allowed, entries⟩
  · rintro ⟨early, tokens, read, allowed, entries⟩
    exact ⟨tokens, read, (judgeArgs_iff (keyed.argKeys read)).mpr ⟨(guards_iff keyed read).mpr early, allowed, entries⟩⟩

theorem argsAllowed_append {last : List QueryToken → Prop} (some : others ≠ []) :
    ArgsAllowed flags last (pieces ++ others) ↔ (∀ piece ∈ pieces, InnerAllowed flags piece) ∧ ArgsAllowed flags last others := by
  induction pieces with
  | nil => simp
  | cons piece pieces ih =>
    have more : pieces ++ others ≠ [] := by simp [some]
    rw [List.cons_append, ArgsAllowed, ih, List.forall_mem_cons, and_assoc]
    exact more

theorem entriesOf_append (some : others ≠ []) : entriesOf (pieces ++ others) = pieces.map argEntry ++ entriesOf others := by
  induction pieces with
  | nil => rfl
  | cons piece pieces ih =>
    have more : pieces ++ others ≠ [] := by simp [some]
    rw [List.cons_append, entriesOf, ih]
    · rfl
    · exact more

theorem not_cutKey (whole : ¬ EndsInEscape query) (read : queryTokens flags query = some tokens)
    (last : (tokens.splitOnP (QueryToken.separates flags)).getLast? = some piece) : ¬ CutKey piece := by
  rintro ⟨-, cut⟩
  obtain ⟨token, final, isCut⟩ := (Option.any_eq_true _ _).mp cut
  obtain ⟨front, rfl⟩ := Pieces.getLast_suffix last
  obtain ⟨init, rfl⟩ := List.getLast?_eq_some_iff.mp final
  have valid := queryTokens_valid read token (by simp)
  cases token with
  | cut digit =>
    refine whole ⟨tokenText (front ++ init), digit, ?_, valid.2⟩
    rw [← queryTokens_text read]
    simp [tokenText, QueryToken.bytes]
  | _ => cases isCut

/-- The end of the query makes a difference to an empty value only. -/
theorem argsAllowed_end (whole : ¬ EndsInEscape query) (read : queryTokens flags query = some tokens) :
    let pieces := tokens.splitOnP (QueryToken.separates flags)
    (ArgsAllowed flags (LastAllowed flags) pieces ↔ (∀ piece ∈ pieces, InnerAllowed flags piece) ∧ ¬ EmptyEnd flags query) ∧
      entriesOf pieces = pieces.map argEntry := by
  intro pieces
  have apart : ∃ init piece, pieces = init ++ [piece] := by
    rcases pieces.eq_nil_or_concat with none | ⟨init, piece, split⟩
    · exact absurd none (List.splitOnP_ne_nil _ _)
    · exact ⟨init, piece, by simpa using split⟩
  obtain ⟨init, piece, split⟩ := apart
  have last : pieces.getLast? = some piece := by simp [split]
  have notCut := not_cutKey whole read last
  have atEnd : EmptyEnd flags query ↔ flags.allowEmptyVals = false ∧ argVal piece = some [] := by
    constructor
    · rintro ⟨refused, tokens', read', piece', last', empty⟩
      cases read.symm.trans read'
      cases last.symm.trans last'
      exact ⟨refused, empty⟩
    · rintro ⟨refused, empty⟩
      exact ⟨refused, tokens, read, piece, last, empty⟩
  rw [split, argsAllowed_append (List.cons_ne_nil _ _), entriesOf_append (List.cons_ne_nil _ _), atEnd]
  refine ⟨?_, by simp [entriesOf, notCut]⟩
  simp only [ArgsAllowed, LastAllowed, InnerAllowed, notCut, List.forall_mem_append, List.forall_mem_singleton]
  cases flags.allowEmptyVals with
  | true => simp
  | false =>
    simp only [Bool.false_eq_true, true_and]
    tauto

/-- Together, two queries are judged by the arguments of the first as inner ones. No stray is late: each query has bytes
besides the other one. -/
theorem parse_joined_iff (keyed : Keyed flags first) (keyed' : Keyed flags second) (whole : ¬ EndsInEscape first)
    (memory : 2 * (first ++ 38 :: second).length + 2 ≤ 2 ^ 64 - 1) :
    evhtpParseQueryWflags (first ++ 38 :: second) flags = some args ↔
      ∃ tokens tokens', queryTokens flags first = some tokens ∧ queryTokens flags second = some tokens' ∧
        (∀ piece ∈ tokens.splitOnP (QueryToken.separates flags), InnerAllowed flags piece) ∧
        ArgsAllowed flags (LastAllowed flags) (tokens'.splitOnP (QueryToken.separates flags)) ∧
        (tokens.splitOnP (QueryToken.separates flags)).map argEntry ++
          entriesOf (tokens'.splitOnP (QueryToken.separates flags)) = args := by
  have some : ∀ query, Keyed flags query → 0 < query.length := by
    rintro query keyed
    refine List.length_pos_of_ne_nil ?_
    rintro rfl
    obtain ⟨byte, head, -⟩ := keyed [] (by simp)
    cases head
  have room := some first keyed
  have room' := some second keyed'
  have separates : QueryToken.separates flags (.text 38) = true := rfl
  rw [evhtpParseQueryWflags_eq, if_neg (by omega), queryTokens_append whole]
  cases read : queryTokens flags first with
  | none => simp
  | some tokens =>
    cases read' : queryTokens flags second with
    | none => simp
    | some tokens' =>
      have joined : (tokens ++ .text 38 :: tokens').splitOnP (QueryToken.separates flags) =
          tokens.splitOnP (QueryToken.separates flags) ++ tokens'.splitOnP (QueryToken.separates flags) :=
        List.splitOnP_append_cons _ _ separates
      have keys : ∀ piece ∈ (tokens ++ .text 38 :: tokens').splitOnP (QueryToken.separates flags), argKey piece ≠ [] := by
        rw [joined]
        exact List.forall_mem_append.mpr ⟨keyed.argKeys read, keyed'.argKeys read'⟩
      have fit : ∀ piece ∈ (tokens ++ .text 38 :: tokens').splitOnP (QueryToken.separates flags),
          pieceFits (first ++ 38 :: second).length piece = true := by
        have size := congrArg List.length (queryTokens_text read)
        have size' := congrArg List.length (queryTokens_text read')
        have total : (first ++ 38 :: second).length = first.length + (second.length + 1) := by simp
        rw [joined]
        refine List.forall_mem_append.mpr ⟨fun piece member => ?_, fun piece member => ?_⟩ <;>
        · have := tokenText_length_le member
          exact pieceFits_of_room (by omega)
      simp only [Option.bind_some, Option.map_some]
      rw [judgeArgs_iff keys, and_iff_right fit, joined, argsAllowed_append (List.splitOnP_ne_nil _ _),
        entriesOf_append (List.splitOnP_ne_nil _ _), and_assoc]
      simp

/-- Two queries are independent unless their arguments pass together and the end of one alone is refused: for an empty
value, or for a late stray. -/
theorem query_arguments_independent (keyed : Keyed flags first) (keyed' : Keyed flags second) (whole : ¬ EndsInEscape first)
    (memory : 2 * (first ++ 38 :: second).length + 2 ≤ 2 ^ 64 - 1) :
    Independent flags first second ↔
      (AllowedInside flags first → AllowedAtEnd flags second →
        ¬ EmptyEnd flags first ∧ ¬ LateStray flags first ∧ ¬ LateStray flags second) := by
  have total : (first ++ 38 :: second).length = first.length + (second.length + 1) := by simp
  have memory₁ : 2 * first.length + 2 ≤ 2 ^ 64 - 1 := by omega
  have memory₂ : 2 * second.length + 2 ≤ 2 ^ 64 - 1 := by omega
  have joined : (evhtpParseQueryWflags (first ++ 38 :: second) flags).isSome ↔
      AllowedInside flags first ∧ AllowedAtEnd flags second := by
    simp only [Option.isSome_iff_exists, parse_joined_iff keyed keyed' whole memory]
    constructor
    · rintro ⟨-, tokens, tokens', read, read', inner, last, -⟩
      exact ⟨⟨tokens, read, inner⟩, tokens', read', last⟩
    · rintro ⟨⟨tokens, read, inner⟩, tokens', read', last⟩
      exact ⟨_, tokens, tokens', read, read', inner, last, rfl⟩
  have alone : (evhtpParseQueryWflags first flags).isSome ↔
      ¬ LateStray flags first ∧ AllowedInside flags first ∧ ¬ EmptyEnd flags first := by
    simp only [Option.isSome_iff_exists, parse_keyed_iff keyed memory₁]
    constructor
    · rintro ⟨-, early, tokens, read, allowed, -⟩
      obtain ⟨inner, notEmpty⟩ := (argsAllowed_end whole read).1.mp allowed
      exact ⟨early, ⟨tokens, read, inner⟩, notEmpty⟩
    · rintro ⟨early, ⟨tokens, read, inner⟩, notEmpty⟩
      exact ⟨_, early, tokens, read, (argsAllowed_end whole read).1.mpr ⟨inner, notEmpty⟩, rfl⟩
  have alone' : (evhtpParseQueryWflags second flags).isSome ↔ ¬ LateStray flags second ∧ AllowedAtEnd flags second := by
    simp only [Option.isSome_iff_exists, parse_keyed_iff keyed' memory₂]
    constructor
    · rintro ⟨-, early, tokens, read, allowed, -⟩
      exact ⟨early, tokens, read, allowed⟩
    · rintro ⟨early, tokens, read, allowed⟩
      exact ⟨_, early, tokens, read, allowed, rfl⟩
  -- Where both are accepted, the entries of the first are those of its arguments inside.
  have together : ∀ args args', evhtpParseQueryWflags first flags = some args →
      evhtpParseQueryWflags second flags = some args' →
      evhtpParseQueryWflags (first ++ 38 :: second) flags = some (args ++ args') := by
    intro args args' accepted accepted'
    obtain ⟨-, tokens, read, allowed, rfl⟩ := (parse_keyed_iff keyed memory₁).mp accepted
    obtain ⟨-, tokens', read', last, rfl⟩ := (parse_keyed_iff keyed' memory₂).mp accepted'
    obtain ⟨rule, entries⟩ := argsAllowed_end whole read
    refine (parse_joined_iff keyed keyed' whole memory).mpr ⟨tokens, tokens', read, read', (rule.mp allowed).1, last, ?_⟩
    rw [entries]
  unfold Independent
  rw [joined, alone, alone', and_iff_left together]
  tauto

theorem query_arguments_independent_pair : Independent .strict (ascii "a=z") (ascii "b=2") := by
  have early : ∀ query, 37 ∉ query → ¬ LateStray .strict query := by
    rintro query absent ⟨front, byte, back, read, -⟩
    refine absent (queryTokens_text read ▸ ?_)
    simp [tokenText, QueryToken.bytes]
  refine (query_arguments_independent (by decide) (by decide) (mt EndsInEscape.percent_mem (by decide)) (by decide)).mpr
    fun _ _ => ⟨?_, early _ (by decide), early _ (by decide)⟩
  rintro ⟨-, tokens, read, empty⟩
  cases (show queryTokens .strict (ascii "a=z") = some [.text 97, .text 61, .text 122] by decide).symm.trans read
  revert empty
  decide

/-- An empty value is accepted in front of another argument, and refused alone. -/
theorem query_empty_value_by_place :
    Keyed .strict (ascii "a=") ∧ Keyed .strict (ascii "b=1") ∧ ¬ EndsInEscape (ascii "a=") ∧
      ¬ Independent .strict (ascii "a=") (ascii "b=1") := by
  refine ⟨by decide, by decide, mt EndsInEscape.percent_mem (by decide), ?_⟩
  rintro ⟨accepted, -⟩
  exact absurd (accepted.mp (by decide)).1 (by decide)

end

end Evhtp
