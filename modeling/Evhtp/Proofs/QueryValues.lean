import Evhtp.Proofs.QueryRules

/-! Queries whose arguments have keys: which of them are accepted, argument by argument, and what the value of an entry tells
about its argument. -/

namespace Evhtp

/-- Every argument has a key: it begins with another byte than `=`. -/
def Keyed (flags : QueryFlags) (query : Bytes) : Prop :=
  ∀ argument ∈ query.splitOnP flags.separates, ∃ byte ∈ argument.head?, byte ≠ 61

instance (flags : QueryFlags) (query : Bytes) : Decidable (Keyed flags query) :=
  inferInstanceAs (Decidable (∀ argument ∈ query.splitOnP flags.separates, ∃ byte ∈ argument.head?, byte ≠ 61))

/-- A `%` is the last byte, or one hex digit is behind it. -/
def EndsInEscape (query : Bytes) : Prop :=
  ∃ front, ∃ digit : Option UInt8, query = front ++ 37 :: digit.toList ∧ ∀ byte ∈ digit, isHexQueryChar byte = true

def InnerAllowed (flags : QueryFlags) (piece : List QueryToken) : Prop := argVal piece = none → flags.allowNullVals = true

/-- An argument without a value that ends inside an escape. -/
def CutKey (piece : List QueryToken) : Prop := argVal piece = none ∧ piece.getLast?.any QueryToken.isCut = true

instance (piece : List QueryToken) : Decidable (CutKey piece) := inferInstanceAs (Decidable (_ ∧ _))

def LastAllowed (flags : QueryFlags) (piece : List QueryToken) : Prop :=
  (argVal piece = some [] ∨ CutKey piece → flags.allowEmptyVals = true) ∧
    (argVal piece = none ∧ ¬ CutKey piece → flags.allowNullVals = true)

/-- All arguments but the last one are allowed in front of a separator, and the last one by a rule of its own. -/
def ArgsAllowed (flags : QueryFlags) (last : List QueryToken → Prop) : List (List QueryToken) → Prop
  | [] => True
  | [piece] => last piece
  | piece :: pieces => InnerAllowed flags piece ∧ ArgsAllowed flags last pieces

def entriesOf : List (List QueryToken) → List NullKv
  | [] => []
  | [piece] => [if CutKey piece then { argEntry piece with val := some [] } else argEntry piece]
  | piece :: pieces => argEntry piece :: entriesOf pieces

section
variable {flags : QueryFlags} {len : Nat} {query : Bytes} {args : List NullKv} {token : QueryToken}
  {tokens piece : List QueryToken} {pieces : List (List QueryToken)}

theorem EndsInEscape.percent_mem (ends : EndsInEscape query) : 37 ∈ query := by
  obtain ⟨front, digit, rfl, -⟩ := ends
  simp

theorem lastArg_iff (key : argKey piece ≠ []) :
    lastArg flags len piece = some args ↔
      pieceFits len piece = true ∧ LastAllowed flags piece ∧
        [if CutKey piece then { argEntry piece with val := some [] } else argEntry piece] = args := by
  unfold lastArg LastAllowed
  cases fits : pieceFits len piece with
  | false => simp
  | true =>
    simp only [key, if_true, if_false, true_and]
    cases value : argVal piece with
    | some val =>
      have whole : ¬ CutKey piece := fun cut => by cases value.symm.trans cut.1
      by_cases empty : val = [] <;> cases flags.allowEmptyVals <;> simp [whole, empty]
    | none =>
      by_cases cut : piece.getLast?.any QueryToken.isCut = true
      · have cutKey : CutKey piece := ⟨value, cut⟩
        cases flags.allowEmptyVals <;> simp [cut, cutKey]
      · have whole : ¬ CutKey piece := fun cutKey => cut cutKey.2
        cases flags.allowNullVals <;> simp [cut, whole]

/-- A query whose arguments have keys is accepted if the guards let its strays pass and its arguments are allowed. -/
theorem judgeArgs_iff (keys : ∀ piece ∈ pieces, argKey piece ≠ []) :
    judgeArgs flags len pieces = some args ↔
      (∀ piece ∈ pieces, pieceFits len piece = true) ∧ ArgsAllowed flags (LastAllowed flags) pieces ∧ entriesOf pieces = args := by
  fun_induction judgeArgs flags len pieces generalizing args with
  | case1 => simp [ArgsAllowed, entriesOf]
  | case2 piece =>
    rw [lastArg_iff (keys piece (List.mem_singleton_self _))]
    simp [ArgsAllowed, entriesOf]
  | case3 piece pieces others ih =>
    obtain ⟨-, keys⟩ := List.forall_mem_cons.mp keys
    rw [ArgsAllowed, entriesOf, List.forall_mem_cons]
    · unfold innerArg
      by_cases allowed : pieceFits len piece = true ∧ (argVal piece = none → flags.allowNullVals = true)
      · rw [if_pos allowed, Option.bind_some, Option.map_eq_some_iff]
        simp only [ih keys, InnerAllowed, allowed, true_and]
        grind
      · rw [if_neg allowed]
        simp only [InnerAllowed, Option.bind_none, reduceCtorEq, false_iff]
        grind
    · exact others
    · exact others

@[simp] theorem tokenText_append (first second : List QueryToken) :
    tokenText (first ++ second) = tokenText first ++ tokenText second := List.flatMap_append

@[simp] theorem tokenText_cons (token : QueryToken) (tokens : List QueryToken) :
    tokenText (token :: tokens) = token.bytes ++ tokenText tokens := List.flatMap_cons

theorem head_token (first : ∃ byte ∈ (tokenText tokens).head?, flags.separates byte = false ∧ byte ≠ 61) :
    ∃ token ∈ tokens.head?, token.separates flags = false ∧ token.assigns = false := by
  obtain ⟨byte, head, noSeparator, noAssign⟩ := first
  cases tokens with
  | nil => cases head
  | cons token tokens =>
    refine ⟨token, rfl, ?_⟩
    cases token with
    | text byte' =>
      obtain rfl : byte' = byte := by simpa [QueryToken.bytes] using head
      exact ⟨noSeparator, by simpa [QueryToken.assigns] using noAssign⟩
    | _ => exact ⟨rfl, rfl⟩

/-- The keys of the arguments are keys for the tokens too: a stray may take away a separator, but adds none. -/
theorem Keyed.argKeys (keyed : Keyed flags query) (read : queryTokens flags query = some tokens) :
    ∀ piece ∈ tokens.splitOnP (QueryToken.separates flags), argKey piece ≠ [] := by
  obtain ⟨first, others⟩ := (Pieces.forall_head query).mp keyed
  have heads : ∀ piece ∈ tokens.splitOnP (QueryToken.separates flags), ∃ token ∈ piece.head?, token.assigns = false := by
    refine (Pieces.forall_head tokens).mpr ⟨head_token (by rwa [queryTokens_text read]), ?_⟩
    rintro front token rest rfl separates
    cases token with
    | text byte =>
      refine head_token (others (tokenText front) byte (tokenText rest) ?_ separates)
      rw [← queryTokens_text read]
      simp [QueryToken.bytes]
    | _ => cases separates
  intro piece member
  obtain ⟨token, head, noAssign⟩ := heads piece member
  cases piece with
  | nil => cases head
  | cons first piece =>
    cases head
    simp [argKey, noAssign]

/-- The arguments are those of the tokens if no stray is there to take away a separator. -/
theorem splitOnP_tokenText (valid : ∀ token ∈ tokens, token.Valid flags) (whole : ∀ token ∈ tokens, token.isStray = false) :
    (tokenText tokens).splitOnP flags.separates = (tokens.splitOnP (QueryToken.separates flags)).map tokenText := by
  have plainText : ∀ piece : List QueryToken, (∀ token ∈ piece, token ∈ tokens) →
      (∀ token ∈ piece, token.separates flags = false) → ∀ byte ∈ tokenText piece, flags.separates byte = false := by
    intro piece inside plain byte member
    by_contra separates
    have separates : flags.separates byte = true := by simpa using separates
    have stray := (separator_mem_iff (fun token later => ⟨valid token (inside token later), plain token later⟩) separates).mp member
    cases whole _ (inside _ stray)
  clear valid whole
  induction tokens using Pieces.piecewise (p := QueryToken.separates flags) with
  | last piece plain =>
    rw [List.splitOnP_eq_singleton plain, List.splitOnP_eq_singleton (plainText piece (fun _ => id) plain)]
    rfl
  | more piece sep rest plain separates ih =>
    have front := plainText piece (fun _ member => List.mem_append_left _ member) plain
    have back := ih fun piece inside => plainText piece fun token member => by simp [inside token member]
    cases sep with
    | text byte =>
      have text : tokenText (piece ++ .text byte :: rest) = tokenText piece ++ byte :: tokenText rest := by
        simp [QueryToken.bytes]
      rw [List.splitOnP_append_cons_of_forall_mem plain _ separates, text,
        List.splitOnP_append_cons_of_forall_mem front byte separates, back, List.map_cons]
    | _ => cases separates

/-- Every `%` is the last byte, or a hex digit is behind it. -/
def PercentsRead (query : Bytes) : Prop :=
  ∀ front rest, query = front ++ 37 :: rest → rest = [] ∨ ∃ digit ∈ rest.head?, isHexQueryChar digit = true

theorem PercentsRead.noStray (percents : PercentsRead query) (read : queryTokens flags query = some tokens) :
    ∀ token ∈ tokens, token.isStray = false := by
  intro token member
  have valid := queryTokens_valid read token member
  cases token with
  | stray byte =>
    obtain ⟨front, back, rfl⟩ := List.append_of_mem member
    have whole : query = tokenText front ++ 37 :: byte :: tokenText back := by
      rw [← queryTokens_text read]
      simp [QueryToken.bytes]
    rcases percents _ _ whole with none | ⟨digit, head, hex⟩
    · cases none
    · cases head
      cases hex.symm.trans valid.2
  | _ => rfl

/-- An entry tells whether its argument has a `=`, and whether something is behind it. -/
def Faithful (argument : Bytes) (kv : NullKv) : Prop :=
  (kv.val = none ↔ 61 ∉ argument) ∧ (kv.val = some [] ↔ ∃ key, 61 ∉ key ∧ argument = key ++ [61])

section
variable (argument : Argument flags piece) (whole : ∀ token ∈ piece, token.isStray = false)
include argument whole

theorem assign_notMem_key : 61 ∉ tokenText (argKey piece) := by
  intro member
  have stray := (assign_mem_iff argument).mp member
  cases whole _ ((List.takeWhile_sublist _).mem stray)

theorem assign_mem_argument : 61 ∈ tokenText piece ↔ argVal piece ≠ none := by
  have noAssign := assign_notMem_key argument whole
  rcases argument_eq piece with ⟨same, none⟩ | ⟨val, same, some⟩
  · rw [none, same]
    exact iff_of_false noAssign (fun differs => differs rfl)
  · rw [some, same]
    exact iff_of_true (by simp [QueryToken.bytes]) nofun

theorem assign_last_argument : (∃ key, 61 ∉ key ∧ tokenText piece = key ++ [61]) ↔ argVal piece = some [] := by
  have noAssign := assign_notMem_key argument whole
  constructor
  · rintro ⟨key, notMem, text⟩
    rcases argument_eq piece with ⟨same, none⟩ | ⟨val, same, some⟩
    · rw [same] at text
      exact absurd (by simp [text]) noAssign
    · have equal : tokenText (argKey piece) ++ 61 :: tokenText val = key ++ 61 :: [] := by
        rw [← text]
        conv_rhs => rw [same]
        simp [QueryToken.bytes]
      obtain ⟨-, -, empty⟩ := (List.append_cons_inj_of_notMem notMem List.not_mem_nil).mp equal.symm
      rw [some, tokenText_eq_nil.mp empty.symm]
  · intro empty
    rcases argument_eq piece with ⟨-, none⟩ | ⟨val, same, some⟩
    · cases none.symm.trans empty
    · cases some.symm.trans empty
      refine ⟨_, noAssign, ?_⟩
      conv_lhs => rw [same]
      simp [QueryToken.bytes, tokenText]

theorem argEntry_faithful (noNul : 0 ∉ tokenText piece) : Faithful (tokenText piece) (argEntry piece) := by
  rw [tokenText_parts piece (by decide), not_or] at noNul
  refine ⟨?_, ?_⟩
  · rw [assign_mem_argument argument whole, not_not]
    simp [argEntry]
  · rw [assign_last_argument argument whole]
    cases value : argVal piece with
    | none => simp [argEntry, value]
    | some val =>
      rw [value, Option.getD_some] at noNul
      simp [argEntry, value, cString_self noNul.2, tokenText_eq_nil]

end

/-- The entries are right, but for an argument that is cut off in its key. -/
theorem entriesOf_faithful (arguments : ∀ piece ∈ pieces, Argument flags piece)
    (whole : ∀ piece ∈ pieces, ∀ token ∈ piece, token.isStray = false) (noNul : ∀ piece ∈ pieces, 0 ∉ tokenText piece) :
    List.Forall₂ Faithful (pieces.map tokenText) (entriesOf pieces) ↔ ∀ piece ∈ pieces.getLast?, ¬ CutKey piece := by
  fun_induction entriesOf pieces with
  | case1 => simp
  | case2 piece =>
    have member := List.mem_singleton_self piece
    have single : ∀ kv, List.Forall₂ Faithful ([piece].map tokenText) [kv] ↔ Faithful (tokenText piece) kv := by simp
    rw [single]
    by_cases cut : CutKey piece
    · refine iff_of_false (fun faithful => ?_) (fun never => never piece rfl cut)
      have absent : 61 ∉ tokenText piece := fun inside =>
        (assign_mem_argument (arguments piece member) (whole piece member)).mp inside cut.1
      rw [if_pos cut] at faithful
      cases faithful.1.mpr absent
    · rw [if_neg cut]
      refine iff_of_true (argEntry_faithful (arguments piece member) (whole piece member) (noNul piece member)) ?_
      rintro _ ⟨⟩
      exact cut
  | case3 piece pieces others ih =>
    obtain ⟨argument, arguments⟩ := List.forall_mem_cons.mp arguments
    obtain ⟨noStray, whole⟩ := List.forall_mem_cons.mp whole
    obtain ⟨first, noNul⟩ := List.forall_mem_cons.mp noNul
    have last : (piece :: pieces).getLast? = pieces.getLast? := by
      cases pieces with
      | nil => exact absurd rfl others
      | cons next pieces => rfl
    rw [List.map_cons, List.forall₂_cons, last, ih arguments whole noNul]
    exact and_iff_right (argEntry_faithful argument noStray first)

theorem queryTokens_cut (read : queryTokens flags query = some tokens) : ∀ token ∈ tokens.dropLast, token.isCut = false := by
  have behind : ∀ (token : QueryToken) (tokens : List QueryToken), token.isCut = false →
      (∀ token ∈ tokens.dropLast, token.isCut = false) → ∀ token' ∈ (token :: tokens).dropLast, token'.isCut = false := by
    intro token tokens whole others token' member
    cases tokens with
    | nil => cases member
    | cons next tokens =>
      rcases List.mem_cons.mp member with rfl | later
      · exact whole
      · exact others token' later
  fun_induction queryTokens flags query generalizing tokens with
  | case1 | case2 | case3 => cases read; simp
  | case4 _ _ _ _ _ _ _ ih =>
    obtain ⟨tokens, there, rfl⟩ := Option.map_eq_some_iff.mp read
    exact behind _ _ rfl (ih there)
  | case5 => cases read
  | case6 _ _ _ _ _ ih =>
    obtain ⟨tokens, there, rfl⟩ := Option.map_eq_some_iff.mp read
    exact behind _ _ rfl (ih there)
  | case7 _ _ _ ih =>
    obtain ⟨tokens, there, rfl⟩ := Option.map_eq_some_iff.mp read
    exact behind _ _ rfl (ih there)

/-- A text that ends in `%` ends in a token that is cut off there, or in a stray. -/
theorem getLast_tokenText (hex : flags.ignoreHex = false) (valid : ∀ token ∈ tokens, token.Valid flags)
    (noStray : ∀ token ∈ tokens, token.isStray = false) (whole : ∀ token ∈ tokens, token.isCut = false) :
    (tokenText tokens).getLast? ≠ some 37 := by
  rcases tokens.eq_nil_or_concat with rfl | ⟨init, token, rfl⟩
  · exact nofun
  · have member : token ∈ init.concat token := by simp
    have valid := valid token member
    have noStray := noStray token member
    have whole := whole token member
    cases token with
    | text byte =>
      have last : (tokenText (init.concat (.text byte))).getLast? = some byte := by
        simp [tokenText, QueryToken.bytes]
      rw [last]
      rintro ⟨⟩
      exact valid ⟨rfl, hex⟩
    | escape first second =>
      have last : (tokenText (init.concat (.escape first second))).getLast? = some second := by
        simp [tokenText, QueryToken.bytes]
      rw [last]
      rintro ⟨⟩
      cases valid.2.2
    | stray byte => cases noStray
    | cut digit => cases whole

/-- Where no stray is, the bytes at the end tell whether the last token is cut off. -/
theorem endsInEscape_iff (hex : flags.ignoreHex = false) (valid : ∀ token ∈ piece, token.Valid flags)
    (noStray : ∀ token ∈ piece, token.isStray = false) (whole : ∀ token ∈ piece.dropLast, token.isCut = false) :
    EndsInEscape (tokenText piece) ↔ piece.getLast?.any QueryToken.isCut = true := by
  rcases piece.eq_nil_or_concat with rfl | ⟨init, token, rfl⟩
  · refine iff_of_false ?_ (by simp)
    rintro ⟨front, digit, equal, -⟩
    cases front <;> cases equal
  · simp only [List.concat_eq_append, List.mem_append, List.mem_singleton, List.dropLast_concat, List.getLast?_concat,
      Option.any_some] at valid noStray whole ⊢
    have valid' := valid token (.inr rfl)
    rw [tokenText_append]
    cases cut : token.isCut with
    | true =>
      cases token with
      | cut digit => exact iff_of_true ⟨tokenText init, digit, by simp [tokenText, QueryToken.bytes], valid'.2⟩ rfl
      | _ => cases cut
    | false =>
      refine iff_of_false ?_ (by simp)
      rintro ⟨front, digit, equal, digits⟩
      have noCut : ∀ other ∈ init ++ [token], other.isCut = false :=
        List.forall_mem_append.mpr ⟨whole, List.forall_mem_singleton.mpr cut⟩
      cases digit with
      | none =>
        have last := @getLast_tokenText flags (init ++ [token]) hex (by simpa using valid) (by simpa using noStray) noCut
        rw [tokenText_append, equal] at last
        simp at last
      | some digit =>
        have apart : front ++ 37 :: (some digit).toList = front ++ [37] ++ [digit] := by simp
        cases token with
        | text byte =>
          obtain ⟨inner, -⟩ := List.append_inj' (equal.trans apart) rfl
          have last := @getLast_tokenText flags init hex (fun other inside => valid other (.inl inside))
            (fun other inside => noStray other (.inl inside)) whole
          rw [inner] at last
          simp at last
        | escape first second =>
          have shifted : tokenText init ++ [37] ++ [first, second] = front ++ [37, digit] := by
            simpa [tokenText, QueryToken.bytes] using equal
          obtain ⟨-, same⟩ := List.append_inj' shifted rfl
          cases same
          cases valid'.2.1
        | stray byte => cases noStray _ (.inr rfl)
        | cut _ => cases cut

theorem arguments_of_tokens (read : queryTokens flags query = some tokens) :
    ∀ piece ∈ tokens.splitOnP (QueryToken.separates flags), Argument flags piece :=
  fun _ member token inside =>
    have within := Pieces.mem_piece member inside
    ⟨queryTokens_valid read token within.1, within.2⟩

theorem cutKey_iff (argument : Argument flags piece) (noStray : ∀ token ∈ piece, token.isStray = false)
    (whole : ∀ token ∈ piece.dropLast, token.isCut = false) :
    CutKey piece ↔ flags.ignoreHex = false ∧ 61 ∉ tokenText piece ∧ EndsInEscape (tokenText piece) := by
  have valid : ∀ token ∈ piece, token.Valid flags := fun token member => (argument token member).1
  rw [assign_mem_argument argument noStray, not_not]
  cases hex : flags.ignoreHex with
  | true =>
    refine iff_of_false ?_ nofun
    rintro ⟨-, cut⟩
    obtain ⟨token, last, cut⟩ := (Option.any_eq_true _ _).mp cut
    have valid := valid token (List.mem_of_getLast? last)
    cases token with
    | cut digit => cases hex.symm.trans valid.1
    | _ => cases cut
  | false =>
    rw [endsInEscape_iff hex valid noStray whole]
    simp [CutKey]

/-- NULL stands for an argument without `=`, and an empty value for one that ends there, but for a last argument
without `=` that ends inside an escape: its value is empty. -/
theorem query_null_means_no_assign (noNul : 0 ∉ query) (keyed : Keyed flags query) (percents : PercentsRead query)
    (accepted : evhtpParseQueryWflags query flags = some args) :
    List.Forall₂ Faithful (query.splitOnP flags.separates) args ↔
      flags.ignoreHex = true ∨
        ∀ last ∈ (query.splitOnP flags.separates).getLast?, 61 ∈ last ∨ ¬ EndsInEscape last := by
  obtain ⟨tokens, read, judged⟩ := accepted_returns accepted
  obtain ⟨-, -, rfl⟩ := (judgeArgs_iff (keyed.argKeys read)).mp judged
  have valid := queryTokens_valid read
  have noStray := percents.noStray read
  have text := queryTokens_text read
  have arguments := arguments_of_tokens read
  have pieces : query.splitOnP flags.separates = (tokens.splitOnP (QueryToken.separates flags)).map tokenText := by
    rw [← text, splitOnP_tokenText valid noStray]
  have inside : ∀ piece ∈ tokens.splitOnP (QueryToken.separates flags), ∀ token ∈ piece, token ∈ tokens :=
    fun piece member token later => (Pieces.mem_piece member later).1
  have strays : ∀ piece ∈ tokens.splitOnP (QueryToken.separates flags), ∀ token ∈ piece, token.isStray = false :=
    fun piece member token later => noStray token (inside piece member token later)
  have zeros : ∀ piece ∈ tokens.splitOnP (QueryToken.separates flags), 0 ∉ tokenText piece := by
    intro piece member zero
    obtain ⟨token, later, byte⟩ := mem_tokenText.mp zero
    exact noNul (text ▸ mem_tokenText.mpr ⟨token, inside piece member token later, byte⟩)
  rw [pieces, entriesOf_faithful arguments strays zeros, List.getLast?_map]
  cases last : (tokens.splitOnP (QueryToken.separates flags)).getLast? with
  | none => simp
  | some piece =>
    have member := List.mem_of_getLast? last
    have whole : ∀ token ∈ piece.dropLast, token.isCut = false := by
      intro token later
      obtain ⟨front, rfl⟩ := Pieces.getLast_suffix last
      refine queryTokens_cut read token ?_
      rw [List.dropLast_append_of_ne_nil (List.ne_nil_of_mem ((List.dropLast_sublist _).mem later))]
      exact List.mem_append_right _ later
    have exact := cutKey_iff (arguments piece member) (strays piece member) whole
    simp only [Option.mem_def, Option.some.injEq, forall_eq', Option.map_some, exact]
    cases flags.ignoreHex <;> simp [imp_iff_not_or]

theorem query_null_means_no_assign_pair :
    List.Forall₂ Faithful ((ascii "a=1&b").splitOnP (QueryFlags.separates { allowNullVals := true }))
      [⟨ascii "a", some (ascii "1")⟩, ⟨ascii "b", none⟩] := by
  refine (query_null_means_no_assign (by decide) (by decide) (fun front rest equal => ?_) (by decide)).mpr
    (.inr fun last member => .inr ?_)
  · have absent : (37 : UInt8) ∉ ascii "a=1&b" := by decide
    rw [equal] at absent
    simp at absent
  · cases (show some (ascii "b") = _ by decide).trans member
    exact mt EndsInEscape.percent_mem (by decide)

/-- An argument that ends in `%` is given an empty value, though it has no `=`. -/
theorem query_cut_key_is_empty :
    let flags : QueryFlags := { allowEmptyVals := true, allowNullVals := true }
    Keyed flags (ascii "a%") ∧ PercentsRead (ascii "a%") ∧
      evhtpParseQueryWflags (ascii "a%") flags = some [⟨ascii "a%", some []⟩] ∧
      ¬ List.Forall₂ Faithful ((ascii "a%").splitOnP flags.separates) [⟨ascii "a%", some []⟩] := by
  refine ⟨by decide, ?_, by decide, fun faithful => ?_⟩
  · intro front rest equal
    have whole : ([97, 37] : Bytes) = front ++ 37 :: rest := equal
    rcases front with _ | ⟨_, _ | ⟨_, front⟩⟩ <;> simp_all
  · have single : (ascii "a%").splitOnP (QueryFlags.separates { allowEmptyVals := true, allowNullVals := true }) = [ascii "a%"] := by
      decide
    rw [single] at faithful
    cases faithful with
    | cons first _ => cases first.1.mpr (by decide)

end

end Evhtp
