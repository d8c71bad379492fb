import Evhtp.Proofs.QueryArguments

/-! What is returned for a query that is accepted: the separators end the arguments, and `=` ends the keys, with the exception
that a stray `%` makes. -/

namespace Evhtp

/-- The arguments that are returned. Nothing is left of the last one if it has no key. -/
def keptArgs : List (List QueryToken) → List (List QueryToken)
  | [] => []
  | [piece] => if argKey piece = [] then [] else [piece]
  | piece :: pieces => piece :: keptArgs pieces

/-- The entry of an argument, up to the difference between no value and an empty one. -/
def Returns (piece : List QueryToken) (kv : NullKv) : Prop :=
  kv.key = cString (tokenText (argKey piece)) ∧ kv.val.getD [] = cString (tokenText ((argVal piece).getD []))

/-- Neither part of an argument holds a separator, and its key holds no `=`. -/
def Separated (flags : QueryFlags) (kv : NullKv) : Prop :=
  (∀ byte, flags.separates byte = true → byte ∉ kv.key ∧ byte ∉ kv.val.getD []) ∧ 61 ∉ kv.key

/-- A separator, or the `=` of the argument, is the byte of a stray. -/
def Swallows (flags : QueryFlags) (piece : List QueryToken) : Prop :=
  (∃ byte, flags.separates byte = true ∧ QueryToken.stray byte ∈ piece) ∨ QueryToken.stray 61 ∈ argKey piece

/-- An argument of the query swallows the byte that should end one of its parts. -/
def Swallowing (flags : QueryFlags) (query : Bytes) : Prop :=
  ∃ tokens, queryTokens flags query = some tokens ∧
    ∃ piece ∈ keptArgs (tokens.splitOnP (QueryToken.separates flags)), Swallows flags piece

section
variable {flags : QueryFlags} {len : Nat} {query : Bytes} {args : List NullKv} {token : QueryToken} {byte : UInt8}
  {tokens piece : List QueryToken} {pieces : List (List QueryToken)}

theorem innerArg_returns {kv : NullKv} (judged : innerArg flags len piece = some kv) : kv = argEntry piece := by
  unfold innerArg at judged
  split at judged <;> cases judged
  rfl

theorem argEntry_returns (piece : List QueryToken) : Returns piece (argEntry piece) := by
  refine ⟨rfl, ?_⟩
  unfold argEntry
  cases argVal piece <;> rfl

theorem judgeArgs_returns (judged : judgeArgs flags len pieces = some args) : List.Forall₂ Returns (keptArgs pieces) args := by
  fun_induction judgeArgs flags len pieces generalizing args with
  | case1 =>
    cases judged
    exact .nil
  | case2 piece =>
    unfold keptArgs
    unfold lastArg at judged
    split at judged
    · split at judged
      · next noKey =>
        cases judged
        rw [if_pos noKey]
        exact .nil
      · next key =>
        rw [if_neg key]
        split at judged
        · split at judged <;> cases judged
          exact .cons (argEntry_returns piece) .nil
        · next none =>
          split at judged
          · split at judged <;> cases judged
            refine .cons ⟨rfl, ?_⟩ .nil
            rw [none]
            rfl
          · split at judged <;> cases judged
            exact .cons (argEntry_returns piece) .nil
    · cases judged
  | case3 piece pieces others ih =>
    obtain ⟨kv, inner, judged⟩ := Option.bind_eq_some_iff.mp judged
    obtain ⟨args, rest, rfl⟩ := Option.map_eq_some_iff.mp judged
    rw [keptArgs]
    · cases innerArg_returns inner
      exact .cons (argEntry_returns piece) (ih rest)
    · exact others

theorem accepted_returns (accepted : evhtpParseQueryWflags query flags = some args) :
    ∃ tokens, queryTokens flags query = some tokens ∧
      judgeArgs flags query.length (tokens.splitOnP (QueryToken.separates flags)) = some args := by
  rw [evhtpParseQueryWflags_eq] at accepted
  split at accepted
  · cases accepted
  · exact Option.bind_eq_some_iff.mp accepted

theorem mem_tokenText : byte ∈ tokenText tokens ↔ ∃ token ∈ tokens, byte ∈ token.bytes := List.mem_flatMap

theorem stray_mem_iff (valid : ∀ token ∈ tokens, token.Valid flags) (noText : QueryToken.text byte ∉ tokens)
    (noPercent : byte ≠ 37) (noHex : isHexQueryChar byte = false) : byte ∈ tokenText tokens ↔ QueryToken.stray byte ∈ tokens := by
  have different : ∀ digit, isHexQueryChar digit = true → byte ≠ digit := by
    rintro _ hex rfl
    cases noHex.symm.trans hex
  rw [mem_tokenText]
  constructor
  · rintro ⟨token, member, inside⟩
    have holds := valid token member
    cases token with
    | text byte' =>
      obtain rfl : byte = byte' := by simpa [QueryToken.bytes] using inside
      exact absurd member noText
    | escape first second => simp [QueryToken.bytes, noPercent, different first holds.2.1, different second holds.2.2] at inside
    | stray byte' =>
      obtain rfl : byte = byte' := by simpa [QueryToken.bytes, noPercent] using inside
      exact member
    | cut digit => exact absurd rfl (different byte (holds.2 byte (by simpa [QueryToken.bytes, noPercent] using inside)))
  · intro member
    exact ⟨_, member, by simp [QueryToken.bytes]⟩

theorem separates_special (separates : flags.separates byte = true) : byte ≠ 37 ∧ isHexQueryChar byte = false := by
  rcases (by simpa [QueryFlags.separates] using separates : byte = 38 ∨ byte = 59 ∧ _) with rfl | ⟨rfl, -⟩ <;> decide

theorem separator_mem_iff (argument : Argument flags piece) (separates : flags.separates byte = true) :
    byte ∈ tokenText piece ↔ QueryToken.stray byte ∈ piece := by
  obtain ⟨noPercent, noHex⟩ := separates_special separates
  refine stray_mem_iff (fun token member => (argument token member).1) (fun member => ?_) noPercent noHex
  cases separates.symm.trans (argument _ member).2

theorem assign_mem_iff (argument : Argument flags piece) : 61 ∈ tokenText (argKey piece) ↔ QueryToken.stray 61 ∈ argKey piece := by
  have inside : ∀ token ∈ argKey piece, token ∈ piece := fun token member => (List.takeWhile_sublist _).mem member
  refine stray_mem_iff (fun token member => (argument token (inside token member)).1) (fun member => ?_) (by decide) (by decide)
  cases List.mem_takeWhile_imp member

theorem tokenText_parts (piece : List QueryToken) (other : byte ≠ 61) :
    byte ∈ tokenText piece ↔ byte ∈ tokenText (argKey piece) ∨ byte ∈ tokenText ((argVal piece).getD []) := by
  rcases argument_eq piece with ⟨whole, none⟩ | ⟨val, whole, some⟩
  · rw [none, ← whole]
    simp [tokenText]
  · rw [some]
    conv_lhs => rw [whole]
    simp [tokenText, QueryToken.bytes, other]

theorem separated_iff (argument : Argument flags piece) (noNul : 0 ∉ tokenText piece) {kv : NullKv} (returns : Returns piece kv) :
    Separated flags kv ↔ ¬ Swallows flags piece := by
  obtain ⟨key, val⟩ := returns
  rw [tokenText_parts piece (by decide), not_or] at noNul
  rw [cString_self noNul.1] at key
  rw [cString_self noNul.2] at val
  have separators : ∀ byte, flags.separates byte = true →
      ((byte ∉ kv.key ∧ byte ∉ kv.val.getD []) ↔ QueryToken.stray byte ∉ piece) := by
    intro byte separates
    have other : byte ≠ 61 := by
      rintro rfl
      cases separates
    rw [← separator_mem_iff argument separates, tokenText_parts piece other, key, val, not_or]
  unfold Separated Swallows
  rw [not_or, key, assign_mem_iff argument, not_exists, ← key]
  refine and_congr (forall_congr' fun byte => ?_) Iff.rfl
  rw [not_and]
  exact imp_congr_right (separators byte)

theorem keptArgs_mem (member : piece ∈ keptArgs pieces) : piece ∈ pieces := by
  fun_induction keptArgs pieces with
  | case1 | case2 => cases member
  | case3 => exact member
  | case4 first pieces _ ih =>
    rcases List.mem_cons.mp member with rfl | later
    · exact List.mem_cons_self ..
    · exact List.mem_cons_of_mem _ (ih later)

/-- A separator separates, and `=` ends the key, unless one of them stands behind a stray `%`. -/
theorem query_separators_separate (noNul : 0 ∉ query) (accepted : evhtpParseQueryWflags query flags = some args) :
    (∀ kv ∈ args, Separated flags kv) ↔ ¬ Swallowing flags query := by
  obtain ⟨tokens, read, judged⟩ := accepted_returns accepted
  have pieces : ∀ piece ∈ keptArgs (tokens.splitOnP (QueryToken.separates flags)),
      Argument flags piece ∧ 0 ∉ tokenText piece := by
    intro piece member
    have inside : ∀ token ∈ piece, _ := fun token => Pieces.mem_piece (keptArgs_mem member)
    refine ⟨fun token later => ⟨queryTokens_valid read token (inside token later).1, (inside token later).2⟩, fun zero => ?_⟩
    obtain ⟨token, later, byte⟩ := mem_tokenText.mp zero
    exact noNul (queryTokens_text read ▸ mem_tokenText.mpr ⟨token, (inside token later).1, byte⟩)
  have only : Swallowing flags query ↔
      ∃ piece ∈ keptArgs (tokens.splitOnP (QueryToken.separates flags)), Swallows flags piece := by
    constructor
    · rintro ⟨tokens', read', swallows⟩
      cases read.symm.trans read'
      exact swallows
    · exact fun swallows => ⟨tokens, read, swallows⟩
  rw [only]
  have returned := judgeArgs_returns judged
  generalize keptArgs (tokens.splitOnP (QueryToken.separates flags)) = kept at pieces returned
  clear judged accepted only
  induction returned with
  | nil => simp
  | @cons piece kv kept args returns _ ih =>
    obtain ⟨first, others⟩ := List.forall_mem_cons.mp pieces
    rw [List.forall_mem_cons]
    exact (and_congr (separated_iff first.1 first.2 returns) (ih others)).trans (by simp)

theorem query_separators_separate_pair :
    ∃ args, evhtpParseQueryWflags (ascii "a=1&b=%z") .strict = some args ∧ ∀ kv ∈ args, Separated .strict kv := by
  have accepted : evhtpParseQueryWflags (ascii "a=1&b=%z") .strict =
      some [⟨ascii "a", some (ascii "1")⟩, ⟨ascii "b", some (ascii "%z")⟩] := by decide
  refine ⟨_, accepted, (query_separators_separate (by decide) accepted).mpr ?_⟩
  rintro ⟨tokens, read, piece, member, swallows⟩
  have known : queryTokens .strict (ascii "a=1&b=%z") =
      some [.text 97, .text 61, .text 49, .text 38, .text 98, .text 61, .stray 122] := by decide +kernel
  cases known.symm.trans read
  have pieces := List.mem_pair.mp (show piece ∈ [[.text 97, .text 61, .text 49], [.text 98, .text 61, .stray 122]] from member)
  rcases pieces with rfl | rfl <;> simp [Swallows, argKey] at swallows
  all_goals revert swallows; decide

/-- The separator behind a stray `%` becomes part of a key. -/
theorem query_swallows_separator :
    evhtpParseQueryWflags (ascii "a%&b=1") .strict = some [⟨ascii "a%&b", some (ascii "1")⟩] ∧
      ¬ Separated .strict ⟨ascii "a%&b", some (ascii "1")⟩ := by
  refine ⟨by decide, fun separated => ?_⟩
  exact (separated.1 38 (by decide)).1 (by decide)

end

end Evhtp
