import Evhtp.Proofs.QueryTokens

/-! The arguments of a query are the pieces between its separators. An argument is judged by its tokens and by whether it is
the last one; `evhtp_parse_query_wflags` does nothing else. -/

namespace Evhtp

def argKey (piece : List QueryToken) : List QueryToken := piece.takeWhile (!·.assigns)

def argVal (piece : List QueryToken) : Option (List QueryToken) := (piece.dropWhile (!·.assigns)).tail?

/-- The guards on strays; `n` bytes of the key or of the value stand before the tokens. -/
def straysFit (len : Nat) : Nat → List QueryToken → Bool
  | _, [] => true
  | n, token :: tokens => (!token.isStray || n + 3 < len) && straysFit len (n + token.bytes.length) tokens

def pieceFits (len : Nat) (piece : List QueryToken) : Bool :=
  straysFit len 0 (argKey piece) && (argVal piece).all (straysFit len 0)

def argEntry (piece : List QueryToken) : NullKv :=
  ⟨cString (tokenText (argKey piece)), (argVal piece).map fun val => cString (tokenText val)⟩

def innerArg (flags : QueryFlags) (len : Nat) (piece : List QueryToken) : Option NullKv :=
  if pieceFits len piece ∧ (argVal piece = none → flags.allowNullVals = true) then some (argEntry piece) else none

/-- The argument at the end. One without a value that is cut off inside an escape is taken for one with an empty value. -/
def lastArg (flags : QueryFlags) (len : Nat) (piece : List QueryToken) : Option (List NullKv) :=
  if pieceFits len piece then
    if argKey piece = [] then some []
    else
      match argVal piece with
      | some val => if val = [] ∧ flags.allowEmptyVals = false then none else some [argEntry piece]
      | none =>
        if piece.getLast?.any QueryToken.isCut then
          if flags.allowEmptyVals then some [{ argEntry piece with val := some [] }] else none
        else if flags.allowNullVals then some [argEntry piece] else none
  else none

def judgeArgs (flags : QueryFlags) (len : Nat) : List (List QueryToken) → Option (List NullKv)
  | [] => some []
  | [piece] => lastArg flags len piece
  | piece :: pieces => (innerArg flags len piece).bind fun kv => (judgeArgs flags len pieces).map (kv :: ·)

section
variable {flags : QueryFlags} {len : Nat} {s : QueryScan} {token : QueryToken} {tokens piece : List QueryToken}

theorem argument_eq (piece : List QueryToken) :
    piece = argKey piece ∧ argVal piece = none ∨
      ∃ val, piece = argKey piece ++ .text 61 :: val ∧ argVal piece = some val := by
  have whole : argKey piece ++ piece.dropWhile (!·.assigns) = piece := List.takeWhile_append_dropWhile
  cases back : piece.dropWhile (!·.assigns) with
  | nil =>
    rw [back, List.append_nil] at whole
    exact .inl ⟨whole.symm, by simp [argVal, back]⟩
  | cons token val =>
    have stops := List.head?_dropWhile_not (fun token : QueryToken => !token.assigns) piece
    rw [back] at stops
    have assigns : token.assigns = true := by simpa using stops
    have equal : token = .text 61 := by
      cases token with
      | text byte => simpa [QueryToken.assigns] using assigns
      | _ => cases assigns
    subst equal
    exact .inr ⟨val, by rw [← back, whole], by simp [argVal, back]⟩

structure PlainToken (flags : QueryFlags) (inVal : Bool) (token : QueryToken) : Prop where
  valid : token.Valid flags
  noSeparator : token.separates flags = false
  noAssign : inVal = false → token.assigns = false

theorem tokenStep_plain (plain : PlainToken flags s.state.inVal token) :
    tokenStep flags len s token = if !token.isStray || s.current.length + 3 < len then some (s.read token) else none := by
  cases token with
  | text byte =>
    obtain ⟨valid, noSeparator, noAssign⟩ := plain
    have noAmpersand : byte ≠ 38 := by
      rintro rfl
      cases noSeparator
    have semicolon : byte = 59 → flags.treatSemicolonAsSep = false := by
      rintro rfl
      simpa [QueryToken.separates, QueryFlags.separates] using noSeparator
    have percent : byte = 37 → flags.ignoreHex = true := by
      rintro rfl
      simpa [QueryToken.Valid] using valid
    simp only [tokenStep, QueryToken.isStray, Bool.not_false, Bool.true_or, if_true]
    cases inVal : s.state.inVal with
    | true =>
      have pushed : s.pushVal byte .val = s.read (.text byte) := by
        simp [QueryScan.read, inVal, QueryScan.pushVal, QueryToken.bytes, QueryToken.valState]
      rw [if_pos rfl, ← pushed]
      unfold queryVal
      grind
    | false =>
      have pushed : s.pushKey byte .key = s.read (.text byte) := by
        simp [QueryScan.read, inVal, QueryScan.pushKey, QueryToken.bytes, QueryToken.keyState]
      have noEqual : byte ≠ 61 := by
        rintro rfl
        cases noAssign inVal
      rw [if_neg (by simp), ← pushed]
      unfold queryKey
      grind
  | stray byte =>
    simp only [tokenStep, QueryToken.isStray, Bool.not_true, Bool.false_or, decide_eq_true_eq]
    by_cases room : s.current.length + 3 < len
    · rw [if_pos room, if_neg (by omega)]
    · rw [if_neg room, if_pos (by omega)]
  | escape first second => rfl
  | cut digit => rfl

theorem QueryToken.inVal_keyState (token : QueryToken) : token.keyState.inVal = false := by
  rcases token with _ | _ | _ | _ | _ <;> rfl

theorem QueryToken.inVal_valState (token : QueryToken) : token.valState.inVal = true := by
  rcases token with _ | _ | _ | _ | _ <;> rfl

theorem current_read (token : QueryToken) :
    (s.read token).current = s.current ++ token.bytes ∧ (s.read token).state.inVal = s.state.inVal := by
  cases inVal : s.state.inVal <;>
    simp [QueryScan.read, QueryScan.current, inVal, QueryToken.inVal_keyState, QueryToken.inVal_valState]

theorem foldlM_plain (plain : ∀ token ∈ tokens, PlainToken flags s.state.inVal token) :
    tokens.foldlM (tokenStep flags len) s =
      if straysFit len s.current.length tokens then some (tokens.foldl QueryScan.read s) else none := by
  induction tokens generalizing s with
  | nil => rfl
  | cons token tokens ih =>
    obtain ⟨current, inVal⟩ := @current_read s token
    obtain ⟨first, others⟩ := List.forall_mem_cons.mp plain
    rw [List.foldlM_cons, tokenStep_plain first, straysFit]
    by_cases fits : (!token.isStray || decide (s.current.length + 3 < len)) = true
    · rw [if_pos fits, fits, Bool.true_and, List.foldl_cons]
      refine (ih (by rwa [inVal])).trans ?_
      rw [current, List.length_append]
    · rw [if_neg fits, Bool.eq_false_iff.mpr fits]
      rfl

theorem foldl_read_key (inKey : s.state.inVal = false) (tokens : List QueryToken) :
    tokens.foldl QueryScan.read s =
      { s with key := s.key ++ tokenText tokens, state := tokens.foldl (fun _ token => token.keyState) s.state } := by
  induction tokens generalizing s with
  | nil => simp [tokenText]
  | cons token tokens ih =>
    have read : s.read token = { s with key := s.key ++ token.bytes, state := token.keyState } := by
      simp [QueryScan.read, inKey]
    rw [List.foldl_cons, ih (by rw [(current_read token).2, inKey]), read]
    simp [tokenText]

theorem foldl_read_val (inVal : s.state.inVal = true) (tokens : List QueryToken) :
    tokens.foldl QueryScan.read s =
      { s with val := s.val ++ tokenText tokens, state := tokens.foldl (fun _ token => token.valState) s.state } := by
  induction tokens generalizing s with
  | nil => simp [tokenText]
  | cons token tokens ih =>
    have read : s.read token = { s with val := s.val ++ token.bytes, state := token.valState } := by
      simp [QueryScan.read, inVal]
    rw [List.foldl_cons, ih (by rw [(current_read token).2, inVal]), read]
    simp [tokenText]

theorem inVal_keyStates (tokens : List QueryToken) :
    (tokens.foldl (fun _ token => token.keyState) QueryState.key).inVal = false := by
  rcases tokens.eq_nil_or_concat with rfl | ⟨tokens, token, rfl⟩
  · rfl
  · simp [QueryToken.inVal_keyState]

theorem inVal_valStates (tokens : List QueryToken) :
    (tokens.foldl (fun _ token => token.valState) QueryState.val).inVal = true := by
  rcases tokens.eq_nil_or_concat with rfl | ⟨tokens, token, rfl⟩
  · rfl
  · simp [QueryToken.inVal_valState]

def scanned (args : List NullKv) (piece : List QueryToken) : QueryScan :=
  match argVal piece with
  | none =>
    { key := tokenText (argKey piece), args, state := (argKey piece).foldl (fun _ token => token.keyState) .key }
  | some val =>
    { key := tokenText (argKey piece), val := tokenText val, args, state := val.foldl (fun _ token => token.valState) .val }

def Argument (flags : QueryFlags) (piece : List QueryToken) : Prop :=
  ∀ token ∈ piece, token.Valid flags ∧ token.separates flags = false

theorem foldlM_argument (argument : Argument flags piece) (args : List NullKv) :
    piece.foldlM (tokenStep flags len) { state := .key, args } =
      if pieceFits len piece then some (scanned args piece) else none := by
  have noAssign : ∀ token ∈ argKey piece, token.assigns = false := by
    intro token member
    simpa using List.mem_takeWhile_imp member
  have plainKey : ∀ token ∈ argKey piece, PlainToken flags false token := by
    intro token member
    obtain ⟨valid, noSeparator⟩ := argument token ((List.takeWhile_sublist _).mem member)
    exact ⟨valid, noSeparator, fun _ => noAssign token member⟩
  have key := @foldlM_plain flags len { state := .key, args } (argKey piece) plainKey
  rw [foldl_read_key rfl] at key
  rcases argument_eq piece with ⟨whole, none⟩ | ⟨val, whole, some⟩
  · unfold pieceFits scanned
    rw [none]
    conv_lhs => rw [whole]
    rw [key]
    simp [QueryScan.current, QueryState.inVal]
  · have plainVal : ∀ token ∈ val, PlainToken flags true token := by
      intro token member
      obtain ⟨valid, noSeparator⟩ := argument token (by rw [whole]; simp [member])
      exact ⟨valid, noSeparator, by simp⟩
    have value := @foldlM_plain flags len { state := .val, key := tokenText (argKey piece), args } val plainVal
    rw [foldl_read_val rfl] at value
    unfold pieceFits scanned
    rw [some]
    conv_lhs => rw [whole]
    rw [List.foldlM_append, key]
    cases fits : straysFit len 0 (argKey piece) with
    | false => simp [QueryScan.current, QueryState.inVal, fits]
    | true =>
      -- At `=` the machine goes on to the value.
      have assign : ∀ state : QueryState, state.inVal = false →
          tokenStep flags len { state, key := tokenText (argKey piece), args } (.text 61) =
            Option.some { state := .val, key := tokenText (argKey piece), args } := by
        intro state inKey
        simp [tokenStep, inKey, queryKey]
      simp [QueryScan.current, QueryState.inVal, fits, assign _ (inVal_keyStates _), value]

theorem tokenStep_separator (separates : token.separates flags = true) (args : List NullKv) (piece : List QueryToken) :
    tokenStep flags len (scanned args piece) token =
      if argVal piece = none → flags.allowNullVals = true then some { state := .key, args := args ++ [argEntry piece] }
      else none := by
  obtain ⟨byte, rfl⟩ : ∃ byte, token = .text byte := by
    cases token with
    | text byte => exact ⟨byte, rfl⟩
    | _ => cases separates
  have ends : byte = 38 ∨ byte = 59 ∧ flags.treatSemicolonAsSep = true := by
    simpa [QueryToken.separates, QueryFlags.separates] using separates
  cases value : argVal piece with
  | none =>
    have inKey : (scanned args piece).state.inVal = false := by
      simp [scanned, value, inVal_keyStates]
    have add : tokenStep flags len (scanned args piece) (.text byte) = (scanned args piece).addNull flags := by
      simp only [tokenStep, inKey]
      rcases ends with rfl | ⟨rfl, semicolon⟩
      · simp [queryKey]
      · simp [queryKey, semicolon]
    rw [add]
    cases allowed : flags.allowNullVals <;> simp [QueryScan.addNull, allowed, QueryScan.add, scanned, value, argEntry]
  | some val =>
    have inVal : (scanned args piece).state.inVal = true := by
      simp [scanned, value, inVal_valStates]
    have add : tokenStep flags len (scanned args piece) (.text byte) =
        some ((scanned args piece).add (some (scanned args piece).val)) := by
      simp only [tokenStep, inVal]
      rcases ends with rfl | ⟨rfl, semicolon⟩
      · simp [queryVal]
      · simp [queryVal, semicolon]
    rw [add]
    simp [QueryScan.add, scanned, value, argEntry]

theorem foldlM_inner (argument : Argument flags piece) (separates : token.separates flags = true) (args : List NullKv)
    (rest : List QueryToken) :
    (piece ++ token :: rest).foldlM (tokenStep flags len) { state := .key, args } =
      (innerArg flags len piece).bind fun kv => rest.foldlM (tokenStep flags len) { state := .key, args := args ++ [kv] } := by
  rw [List.foldlM_append, foldlM_argument argument]
  unfold innerArg
  cases fits : pieceFits len piece with
  | false => simp
  | true =>
    have step := @tokenStep_separator flags len token separates args piece
    simp only [if_true, true_and, Option.bind_eq_bind, Option.bind_some, List.foldlM_cons, step]
    split <;> rfl

theorem tokenText_eq_nil : tokenText tokens = [] ↔ tokens = [] := by
  cases tokens with
  | nil => simp [tokenText]
  | cons token tokens => rcases token with _ | _ | _ | _ | _ <;> simp [tokenText, QueryToken.bytes]

/-- The comparison of states at the end of a key holds inside an escape. -/
theorem pastVal_keyStates (tokens : List QueryToken) :
    (tokens.foldl (fun _ token => token.keyState) QueryState.key).pastVal = tokens.getLast?.any QueryToken.isCut := by
  rcases tokens.eq_nil_or_concat with rfl | ⟨tokens, token, rfl⟩
  · rfl
  · rcases token with _ | _ | _ | _ | _ <;> simp [QueryToken.keyState, QueryState.pastVal, QueryToken.isCut]

theorem queryEnd_last (argument : Argument flags piece) (args : List NullKv) :
    (piece.foldlM (tokenStep flags len) { state := .key, args }).bind (queryEnd flags) =
      (lastArg flags len piece).map (args ++ ·) := by
  rw [foldlM_argument argument]
  unfold lastArg
  cases fits : pieceFits len piece with
  | false => simp
  | true =>
    have past : ∀ state : QueryState, state.inVal = true → state.pastVal = true := by
      intro state inVal
      cases state <;> first | rfl | cases inVal
    by_cases noKey : argKey piece = []
    · rcases argument_eq piece with ⟨-, value⟩ | ⟨val, -, value⟩ <;> simp [queryEnd, scanned, value, noKey, tokenText]
    · rcases argument_eq piece with ⟨whole, value⟩ | ⟨val, -, value⟩
      · have states := pastVal_keyStates (argKey piece)
        rw [← whole] at states noKey
        simp only [queryEnd, scanned, argEntry, value, ← whole, noKey, states, tokenText_eq_nil, QueryScan.add, if_true, if_false,
          ne_eq, not_true_eq_false, Option.bind_some, Option.map_none, Option.map_some]
        cases piece.getLast?.any QueryToken.isCut <;> cases flags.allowEmptyVals <;> cases flags.allowNullVals <;> rfl
      · have states := past _ (inVal_valStates val)
        simp only [queryEnd, scanned, argEntry, value, noKey, states, tokenText_eq_nil, QueryScan.add, if_true, if_false,
          ne_eq, Option.bind_some, Option.map_some]
        by_cases empty : val = []
        · subst empty
          cases flags.allowEmptyVals <;> rfl
        · simp [empty]

/-- The loop over the tokens and the code behind it judge the arguments one after the other. -/
theorem judgeArgs_eq (valid : ∀ token ∈ tokens, token.Valid flags) (args : List NullKv) :
    (tokens.foldlM (tokenStep flags len) { state := .key, args }).bind (queryEnd flags) =
      (judgeArgs flags len (tokens.splitOnP (QueryToken.separates flags))).map (args ++ ·) := by
  induction tokens using Pieces.piecewise (p := QueryToken.separates flags) generalizing args with
  | last piece plain =>
    rw [List.splitOnP_eq_singleton plain]
    exact queryEnd_last (fun token member => ⟨valid token member, plain token member⟩) args
  | more piece sep rest plain separates ih =>
    have argument : Argument flags piece := fun token member => ⟨valid token (by simp [member]), plain token member⟩
    have others : ∀ token ∈ rest, token.Valid flags := fun token member => valid token (by simp [member])
    rw [List.splitOnP_append_cons_of_forall_mem plain sep separates, foldlM_inner argument separates]
    cases pieces : rest.splitOnP (QueryToken.separates flags) with
    | nil => exact absurd pieces (List.splitOnP_ne_nil _ _)
    | cons next pieces' =>
      rw [judgeArgs, ← pieces]
      · cases innerArg flags len piece with
        | none => rfl
        | some kv =>
          refine (ih others _).trans ?_
          simp [Function.comp_def]
      · exact nofun

/-- `evhtp_parse_query_wflags` reads the grammar of a query. -/
theorem evhtpParseQueryWflags_eq (query : Bytes) (flags : QueryFlags) :
    evhtpParseQueryWflags query flags =
      if 2 * query.length + 2 > 2 ^ 64 - 1 then none
      else (queryTokens flags query).bind fun tokens =>
        judgeArgs flags query.length (tokens.splitOnP (QueryToken.separates flags)) := by
  -- The start state is the state of a key of which nothing has been read.
  have start : (query.foldlM (queryStep flags query.length) {}).bind (queryEnd flags) =
      (query.foldlM (queryStep flags query.length) { state := .key }).bind (queryEnd flags) := by
    cases query with
    | nil => rfl
    | cons byte rest => simp [queryStep]
  unfold evhtpParseQueryWflags
  rw [start, foldlM_queryStep query _ (.inl rfl) (by simp [QueryScan.size])]
  split
  · rfl
  · cases read : queryTokens flags query with
    | none => rfl
    | some tokens =>
      refine (judgeArgs_eq (queryTokens_valid read) []).trans ?_
      simp

end

end Evhtp
