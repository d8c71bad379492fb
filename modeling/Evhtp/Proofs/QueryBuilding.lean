import Evhtp.Proofs.QueryArguments
import Evhtp.Proofs.QueryMemory

/-! Queries that are built from arguments are read as these arguments. -/

namespace Evhtp

/-- Bytes that stand for themselves, and escapes. -/
inductive Items (inKey : Bool) : Bytes → Prop
  | nil : Items inKey []
  | byte {byte : UInt8} {rest : Bytes} (plain : byte ≠ 0 ∧ byte ≠ 37 ∧ byte ≠ 38 ∧ byte ≠ 59) (noAssign : inKey = true → byte ≠ 61)
    (items : Items inKey rest) : Items inKey (byte :: rest)
  | escape {first second : UInt8} {rest : Bytes} (digit : isHexQueryChar first = true) (digit' : isHexQueryChar second = true)
    (items : Items inKey rest) : Items inKey (37 :: first :: second :: rest)

structure QueryArg where
  key : Bytes
  val : Bytes
  keyItems : Items true key
  valItems : Items false val
  someKey : key ≠ []
  someVal : val ≠ []

def QueryArg.text (arg : QueryArg) : Bytes := arg.key ++ 61 :: arg.val

def QueryArg.entry (arg : QueryArg) : NullKv := ⟨arg.key, some arg.val⟩

def buildQuery (first : QueryArg) (others : List (UInt8 × QueryArg)) : Bytes :=
  first.text ++ others.flatMap fun next => next.1 :: next.2.text

section
variable {flags : QueryFlags} {inKey : Bool} {text : Bytes} {len n : Nat} {tokens piece : List QueryToken} {arg : QueryArg}

theorem Items.noNul (items : Items inKey text) : 0 ∉ text := by
  induction items with
  | nil => exact List.not_mem_nil
  | byte plain _ _ ih => exact fun member => (List.mem_cons.mp member).elim (fun zero => plain.1 zero.symm) ih
  | @escape first second rest digit digit' _ ih =>
    have differs : ∀ digit, isHexQueryChar digit = true → 0 ≠ digit := by
      rintro _ digit rfl
      cases digit
    simp [differs first digit, differs second digit', ih]

/-- A token of a part that was built: it does not end the part, and no guard looks at it. -/
structure BuiltToken (flags : QueryFlags) (inKey : Bool) (token : QueryToken) : Prop where
  noSeparator : token.separates flags = false
  noStray : token.isStray = false
  noAssign : inKey = true → token.assigns = false

theorem Items.read (items : Items inKey text) (flags : QueryFlags) :
    ∃ tokens, tokenText tokens = text ∧ (∀ token ∈ tokens, BuiltToken flags inKey token) ∧
      ∀ rest, queryTokens flags (text ++ rest) = (queryTokens flags rest).map (tokens ++ ·) := by
  have plainText : ∀ byte : UInt8, byte ≠ 38 → byte ≠ 59 → (inKey = true → byte ≠ 61) → BuiltToken flags inKey (.text byte) := by
    intro byte noAmpersand noSemicolon noAssign
    refine ⟨by simp [QueryToken.separates, QueryFlags.separates, noAmpersand, noSemicolon], rfl, fun key => ?_⟩
    simpa [QueryToken.assigns] using noAssign key
  induction items with
  | nil => exact ⟨[], rfl, by simp, fun rest => by simp⟩
  | @byte byte rest plain noAssign _ ih =>
    obtain ⟨tokens, rfl, built, read⟩ := ih
    refine ⟨.text byte :: tokens, rfl, List.forall_mem_cons.mpr ⟨plainText byte plain.2.2.1 plain.2.2.2 noAssign, built⟩, fun rest => ?_⟩
    rw [List.cons_append, queryTokens_textCons (fun percent => plain.2.1 percent.1), read]
    simp [Function.comp_def]
  | @escape first second rest digit digit' _ ih =>
    obtain ⟨tokens, rfl, built, read⟩ := ih
    have notHex : ∀ {digit byte : UInt8}, isHexQueryChar digit = true → isHexQueryChar byte = false → digit ≠ byte := by
      rintro _ _ digit other rfl
      cases digit.symm.trans other
    cases hex : flags.ignoreHex with
    | true =>
      have verbatim : ∀ byte rest, queryTokens flags (byte :: rest) = (queryTokens flags rest).map (.text byte :: ·) :=
        fun byte rest => queryTokens_textCons (by simp [hex]) rest
      have digitText : ∀ digit : UInt8, isHexQueryChar digit = true → BuiltToken flags inKey (.text digit) := fun digit isDigit =>
        plainText digit (notHex isDigit (by decide)) (notHex isDigit (by decide)) fun _ => notHex isDigit (by decide)
      refine ⟨.text 37 :: .text first :: .text second :: tokens, rfl, ?_, fun rest => ?_⟩
      · simp only [List.forall_mem_cons]
        exact ⟨plainText 37 (by decide) (by decide) fun _ => by decide, digitText first digit, digitText second digit', built⟩
      · simp only [List.cons_append, verbatim, read]
        simp [Function.comp_def]
    | false =>
      refine ⟨.escape first second :: tokens, rfl, List.forall_mem_cons.mpr ⟨⟨rfl, rfl, fun _ => rfl⟩, built⟩, fun rest => ?_⟩
      rw [List.cons_append, List.cons_append, List.cons_append, queryTokens_escapeCons hex digit digit', read]
      simp [Function.comp_def]

theorem straysFit_built (noStray : ∀ token ∈ tokens, token.isStray = false) : straysFit len n tokens = true := by
  induction tokens generalizing n with
  | nil => rfl
  | cons token tokens ih =>
    obtain ⟨first, others⟩ := List.forall_mem_cons.mp noStray
    rw [straysFit, first, ih others]
    rfl

structure Spells (arg : QueryArg) (piece : List QueryToken) : Prop where
  key : tokenText (argKey piece) = arg.key
  val : (argVal piece).map tokenText = some arg.val
  fits : ∀ len, pieceFits len piece = true

theorem QueryArg.read (arg : QueryArg) (flags : QueryFlags) :
    ∃ piece, Spells arg piece ∧ (∀ token ∈ piece, token.separates flags = false) ∧
      ∀ rest, queryTokens flags (arg.text ++ rest) = (queryTokens flags rest).map (piece ++ ·) := by
  obtain ⟨key, keyText, keyBuilt, keyRead⟩ := arg.keyItems.read flags
  obtain ⟨val, valText, valBuilt, valRead⟩ := arg.valItems.read flags
  have noAssign : ∀ token ∈ key, (!token.assigns) = true := fun token member => by simp [(keyBuilt token member).noAssign rfl]
  have atKey : argKey (key ++ .text 61 :: val) = key := by
    rw [argKey, List.takeWhile_append_of_pos noAssign]
    simp [QueryToken.assigns]
  have atVal : argVal (key ++ .text 61 :: val) = some val := by
    rw [argVal, List.dropWhile_append_of_pos noAssign]
    simp [QueryToken.assigns]
  refine ⟨key ++ .text 61 :: val, ⟨by rw [atKey, keyText], by rw [atVal, Option.map_some, valText], fun len => ?_⟩, ?_, fun rest => ?_⟩
  · rw [pieceFits, atKey, atVal, straysFit_built fun token member => (keyBuilt token member).noStray]
    exact straysFit_built fun token member => (valBuilt token member).noStray
  · intro token member
    rcases List.mem_append.mp member with inKey | assign
    · exact (keyBuilt token inKey).noSeparator
    · rcases List.mem_cons.mp assign with rfl | inVal
      · rfl
      · exact (valBuilt token inVal).noSeparator
  · rw [QueryArg.text, List.append_assoc, List.cons_append, keyRead, queryTokens_textCons (by simp), valRead]
    simp [Function.comp_def]

theorem buildQuery_read (flags : QueryFlags) (first : QueryArg) (others : List (UInt8 × QueryArg))
    (separators : ∀ next ∈ others, flags.separates next.1 = true) :
    ∃ tokens, queryTokens flags (buildQuery first others) = some tokens ∧
      List.Forall₂ Spells (first :: others.map Prod.snd) (tokens.splitOnP (QueryToken.separates flags)) := by
  obtain ⟨piece, spells, plain, read⟩ := first.read flags
  induction others generalizing first piece with
  | nil =>
    refine ⟨piece, ?_, ?_⟩
    · have alone := read []
      simpa [buildQuery, queryTokens] using alone
    · rw [List.splitOnP_eq_singleton plain]
      exact .cons spells .nil
  | cons next others ih =>
    obtain ⟨separates, separators⟩ := List.forall_mem_cons.mp separators
    obtain ⟨piece', spells', plain', read'⟩ := next.2.read flags
    obtain ⟨tokens, rest, all⟩ := ih next.2 separators piece' spells' plain' read'
    have whole : buildQuery first (next :: others) = first.text ++ next.1 :: buildQuery next.2 others := by
      simp [buildQuery]
    have noPercent : ¬ (next.1 = 37 ∧ flags.ignoreHex = false) := by
      rintro ⟨percent, -⟩
      rw [percent] at separates
      cases separates
    refine ⟨piece ++ .text next.1 :: tokens, ?_, ?_⟩
    · rw [whole, read, queryTokens_textCons noPercent, rest]
      rfl
    · rw [List.splitOnP_append_cons_of_forall_mem plain (.text next.1) separates]
      exact .cons spells all

theorem Spells.entry (spells : Spells arg piece) : argEntry piece = arg.entry := by
  obtain ⟨val, value, text⟩ := Option.map_eq_some_iff.mp spells.val
  simp [argEntry, QueryArg.entry, value, text, spells.key, cString_self arg.keyItems.noNul, cString_self arg.valItems.noNul]

theorem judgeArgs_built {args : List QueryArg} {pieces : List (List QueryToken)} (all : List.Forall₂ Spells args pieces) :
    judgeArgs flags len pieces = some (args.map QueryArg.entry) := by
  induction all with
  | nil => rfl
  | @cons arg piece args pieces spells others ih =>
    obtain ⟨val, value, text⟩ := Option.map_eq_some_iff.mp spells.val
    have someKey : argKey piece ≠ [] := by
      intro none
      apply arg.someKey
      rw [← spells.key, none]
      rfl
    have someVal : val ≠ [] := by
      rintro rfl
      exact arg.someVal text.symm
    cases others with
    | nil => simp [judgeArgs, lastArg, spells.fits, someKey, value, someVal, spells.entry]
    | cons next rest =>
      rw [judgeArgs, ih]
      · simp [innerArg, spells.fits, value, spells.entry]
      · simp

/-- Parsing inverts building, and no access is outside of the buffers, whatever the query. -/
theorem query_inverts_building (flags : QueryFlags) (first : QueryArg) (others : List (UInt8 × QueryArg))
    (separators : ∀ next ∈ others, flags.separates next.1 = true)
    (memory : 2 * (buildQuery first others).length + 2 ≤ 2 ^ 64 - 1) (keyBytes valBytes : Nat → UInt8) :
    evhtpParseQueryBuffered keyBytes valBytes (buildQuery first others) flags =
        .ok ((first :: others.map Prod.snd).map QueryArg.entry) ∧
      ∀ query flags, evhtpParseQueryBuffered keyBytes valBytes query flags ≠ .error .fault := by
  constructor
  · obtain ⟨tokens, read, all⟩ := buildQuery_read flags first others separators
    rw [evhtpParseQueryBuffered_eq, evhtpParseQueryWflags_eq, if_neg (Nat.not_lt.mpr memory), read, Option.bind_some,
      judgeArgs_built all]
  · intro query flags
    rw [evhtpParseQueryBuffered_eq]
    cases evhtpParseQueryWflags query flags <;> exact nofun

theorem query_inverts_building_pair :
    evhtpParseQueryBuffered (fun _ => 7) (fun _ => 7) (ascii "a=%20&b=c") .strict =
        .ok [⟨ascii "a", some (ascii "%20")⟩, ⟨ascii "b", some (ascii "c")⟩] ∧
      ∀ query flags, evhtpParseQueryBuffered (fun _ => 7) (fun _ => 7) query flags ≠ .error .fault :=
  query_inverts_building .strict
    ⟨ascii "a", ascii "%20", .byte (by decide) (by decide) .nil, .escape (by decide) (by decide) .nil, by decide, by decide⟩
    [(38, ⟨ascii "b", ascii "c", .byte (by decide) (by decide) .nil, .byte (by decide) (by decide) .nil, by decide, by decide⟩)]
    (by decide) (by decide) _ _

end

end Evhtp
