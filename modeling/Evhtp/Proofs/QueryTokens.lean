import Evhtp.Query
import Evhtp.Lib.Pieces

/-! The grammar of a query: its bytes are read as tokens, its tokens are split into arguments, and an argument is judged by
the place where it stands. The loop of `evhtp_parse_query_wflags` comes to the same for every query. -/

namespace Evhtp

def QueryFlags.separates (flags : QueryFlags) (byte : UInt8) : Bool := byte == 38 || byte == 59 && flags.treatSemicolonAsSep

/-- What the bytes of a query are read as. A stray is a `%` and a byte that is no digit, whichever it is; an escape that
the end of the query cuts off may have its first digit. -/
inductive QueryToken where
  | text (byte : UInt8)
  | escape (first second : UInt8)
  | stray (byte : UInt8)
  | cut (digit : Option UInt8)
  deriving DecidableEq, Repr

namespace QueryToken

def bytes : QueryToken → Bytes
  | text byte => [byte]
  | escape first second => [37, first, second]
  | stray byte => [37, byte]
  | cut digit => 37 :: digit.toList

def isStray : QueryToken → Bool
  | stray _ => true
  | _ => false

def isCut : QueryToken → Bool
  | cut _ => true
  | _ => false

def keyState : QueryToken → QueryState
  | cut none => .keyHex1
  | cut (some _) => .keyHex2
  | _ => .key

def valState : QueryToken → QueryState
  | cut none => .valHex1
  | cut (some _) => .valHex2
  | _ => .val

def assigns : QueryToken → Bool
  | text byte => byte == 61
  | _ => false

def separates (flags : QueryFlags) : QueryToken → Bool
  | text byte => flags.separates byte
  | _ => false

/-- The tokens that a query may have. -/
def Valid (flags : QueryFlags) : QueryToken → Prop
  | text byte => ¬ (byte = 37 ∧ flags.ignoreHex = false)
  | escape first second => flags.ignoreHex = false ∧ isHexQueryChar first = true ∧ isHexQueryChar second = true
  | stray byte => flags.ignoreHex = false ∧ isHexQueryChar byte = false
  | cut digit => flags.ignoreHex = false ∧ ∀ byte ∈ digit, isHexQueryChar byte = true

end QueryToken

/-- The bytes are read from left to right. An escape whose second byte is no digit has no reading. -/
def queryTokens (flags : QueryFlags) : Bytes → Option (List QueryToken)
  | [] => some []
  | byte :: rest =>
    if byte = 37 ∧ flags.ignoreHex = false then
      match rest with
      | [] => some [.cut none]
      | first :: rest =>
        if isHexQueryChar first then
          match rest with
          | [] => some [.cut (some first)]
          | second :: rest =>
            if isHexQueryChar second then (queryTokens flags rest).map (.escape first second :: ·) else none
        else (queryTokens flags rest).map (.stray first :: ·)
    else (queryTokens flags rest).map (.text byte :: ·)

def tokenText (tokens : List QueryToken) : Bytes := tokens.flatMap QueryToken.bytes

def QueryState.inVal : QueryState → Bool
  | .val | .valHex1 | .valHex2 => true
  | .start | .key | .keyHex1 | .keyHex2 => false

def QueryScan.current (s : QueryScan) : Bytes := if s.state.inVal then s.val else s.key

def QueryScan.read (s : QueryScan) (token : QueryToken) : QueryScan :=
  if s.state.inVal then { s with val := s.val ++ token.bytes, state := token.valState }
  else { s with key := s.key ++ token.bytes, state := token.keyState }

def tokenStep (flags : QueryFlags) (len : Nat) (s : QueryScan) : QueryToken → Option QueryScan
  | .text byte => if s.state.inVal then queryVal flags byte s else queryKey flags byte s
  | .stray byte => if s.current.length + 3 ≥ len then none else some (s.read (.stray byte))
  | token => some (s.read token)

section
variable {flags : QueryFlags} {len : Nat} {s s' : QueryScan} {token : QueryToken}

def QueryScan.AtToken (s : QueryScan) : Prop := s.state = .key ∨ s.state = .val

def QueryScan.size (s : QueryScan) : Nat := s.key.length + s.val.length

/-- As long as bytes are left there is room, and the guard in front of the switch is idle. -/
theorem guard_idle (room : s.size < len) : ¬(s.key.length ≥ len ∨ s.val.length ≥ len) := by
  unfold QueryScan.size at room
  omega

theorem size_pushKey (ch : UInt8) (state : QueryState) : (s.pushKey ch state).size = s.size + 1 := by
  simp [QueryScan.size, QueryScan.pushKey, Nat.add_right_comm]

theorem size_pushVal (ch : UInt8) (state : QueryState) : (s.pushVal ch state).size = s.size + 1 := by
  simp [QueryScan.size, QueryScan.pushVal, Nat.add_assoc]

theorem queryStep_percent (hex : flags.ignoreHex = false) (boundary : s.AtToken) (room : s.size < len) :
    queryStep flags len s 37 = some (s.read (.cut none)) := by
  obtain ⟨state, key, val, args⟩ := s
  rw [queryStep, if_neg (guard_idle room)]
  rcases boundary with rfl | rfl
  · simp [queryKey, hex, QueryScan.read, QueryScan.pushKey, QueryToken.bytes, QueryToken.keyState, QueryState.inVal]
  · simp [queryVal, hex, QueryScan.read, QueryScan.pushVal, QueryToken.bytes, QueryToken.valState, QueryState.inVal]

theorem size_read (token : QueryToken) : (s.read token).size = s.size + token.bytes.length := by
  unfold QueryScan.read
  split <;> simp [QueryScan.size] <;> omega

theorem queryStep_first (boundary : s.AtToken) (room : s.size + 1 < len) (byte : UInt8) :
    queryStep flags len (s.read (.cut none)) byte =
      if isHexQueryChar byte then some (s.read (.cut (some byte))) else tokenStep flags len s (.stray byte) := by
  rw [queryStep, if_neg (guard_idle (by rw [size_read]; exact room))]
  obtain ⟨state, key, val, args⟩ := s
  rcases boundary with rfl | rfl <;>
    simp [QueryScan.read, QueryScan.pushKey, QueryScan.pushVal, QueryToken.bytes, QueryToken.keyState, QueryToken.valState,
      QueryState.inVal, tokenStep, QueryScan.current]

theorem foldlM_percent (hex : flags.ignoreHex = false) (boundary : s.AtToken) (room : s.size + 1 < len) (first : UInt8)
    (rest : Bytes) : (37 :: first :: rest).foldlM (queryStep flags len) s =
      (if isHexQueryChar first then some (s.read (.cut (some first))) else tokenStep flags len s (.stray first)).bind
        (rest.foldlM (queryStep flags len)) := by
  have percent := queryStep_percent hex boundary (show s.size < len by omega)
  simp [percent, @queryStep_first flags len s boundary room first]

theorem queryStep_second (boundary : s.AtToken) (room : s.size + 2 < len) (first second : UInt8) :
    queryStep flags len (s.read (.cut (some first))) second =
      if isHexQueryChar second then some (s.read (.escape first second)) else none := by
  rw [queryStep, if_neg (guard_idle (by rw [size_read]; exact room))]
  obtain ⟨state, key, val, args⟩ := s
  rcases boundary with rfl | rfl <;>
    simp [QueryScan.read, QueryScan.pushKey, QueryScan.pushVal, QueryToken.bytes, QueryToken.keyState, QueryToken.valState,
      QueryState.inVal]

theorem queryStep_text (boundary : s.AtToken) (room : s.size < len) (byte : UInt8) :
    queryStep flags len s byte = tokenStep flags len s (.text byte) := by
  rw [queryStep, if_neg (guard_idle room)]
  rcases boundary with state | state <;> simp [tokenStep, state, QueryState.inVal]

theorem atToken_add (s : QueryScan) (val : Option Bytes) : (s.add val).AtToken ∧ (s.add val).size = 0 := ⟨.inl rfl, rfl⟩

theorem queryKey_atToken {ch : UInt8} (plain : ¬ (ch = 37 ∧ flags.ignoreHex = false)) (step : queryKey flags ch s = some s') :
    s'.AtToken ∧ s'.size ≤ s.size + 1 := by
  have pushed : (s.pushKey ch .key).AtToken ∧ (s.pushKey ch .key).size ≤ s.size + 1 := ⟨.inl rfl, (size_pushKey ..).le⟩
  have ended : ∀ s', s.addNull flags = some s' → s'.AtToken ∧ s'.size ≤ s.size + 1 := by
    intro s' added
    unfold QueryScan.addNull at added
    split at added <;> cases added
    exact ⟨(atToken_add s none).1, Nat.zero_le _⟩
  unfold queryKey at step
  split at step
  · cases step
    exact ⟨.inr rfl, Nat.le_succ _⟩
  split at step
  · next percent =>
    have ignored : flags.ignoreHex = true := by simpa [percent] using plain
    rw [if_pos ignored] at step
    cases step
    exact pushed
  split at step
  · split at step
    · exact ended s' step
    · cases step
      exact pushed
  split at step
  · exact ended s' step
  · cases step
    exact pushed

theorem queryVal_atToken {ch : UInt8} (plain : ¬ (ch = 37 ∧ flags.ignoreHex = false)) (step : queryVal flags ch s = some s') :
    s'.AtToken ∧ s'.size ≤ s.size + 1 := by
  have pushed : (s.pushVal ch .val).AtToken ∧ (s.pushVal ch .val).size ≤ s.size + 1 := ⟨.inr rfl, (size_pushVal ..).le⟩
  have ended : (s.add (some s.val)).AtToken ∧ (s.add (some s.val)).size ≤ s.size + 1 :=
    ⟨(atToken_add s _).1, Nat.zero_le _⟩
  unfold queryVal at step
  split at step
  · split at step <;> cases step
    · exact ended
    · exact pushed
  split at step
  · cases step
    exact ended
  split at step
  · next percent =>
    have ignored : flags.ignoreHex = true := by simpa [percent] using plain
    rw [if_pos ignored] at step
    cases step
    exact pushed
  · cases step
    exact pushed

theorem tokenStep_atToken (valid : token.Valid flags) (whole : token.isCut = false)
    (step : tokenStep flags len s token = some s') : s'.AtToken ∧ s'.size ≤ s.size + token.bytes.length := by
  have read : token.keyState = .key → token.valState = .val →
      (s.read token).AtToken ∧ (s.read token).size ≤ s.size + token.bytes.length := by
    intro key val
    refine ⟨?_, (size_read token).le⟩
    unfold QueryScan.read QueryScan.AtToken
    split
    · exact .inr val
    · exact .inl key
  cases token with
  | text byte =>
    simp only [tokenStep] at step
    split at step
    · exact queryVal_atToken valid step
    · exact queryKey_atToken valid step
  | escape first second =>
    cases step
    exact read rfl rfl
  | stray byte =>
    simp only [tokenStep] at step
    split at step <;> cases step
    exact read rfl rfl
  | cut digit => cases whole

theorem queryTokens_textCons {byte : UInt8} (plain : ¬ (byte = 37 ∧ flags.ignoreHex = false)) (rest : Bytes) :
    queryTokens flags (byte :: rest) = (queryTokens flags rest).map (.text byte :: ·) := by
  rw [queryTokens.eq_def]
  exact if_neg plain

theorem queryTokens_strayCons {byte : UInt8} (hex : flags.ignoreHex = false) (other : isHexQueryChar byte = false) (rest : Bytes) :
    queryTokens flags (37 :: byte :: rest) = (queryTokens flags rest).map (.stray byte :: ·) := by
  rw [queryTokens.eq_def]
  simp [hex, other]

theorem queryTokens_escapeCons {first second : UInt8} (hex : flags.ignoreHex = false) (digit : isHexQueryChar first = true)
    (digit' : isHexQueryChar second = true) (rest : Bytes) :
    queryTokens flags (37 :: first :: second :: rest) = (queryTokens flags rest).map (.escape first second :: ·) := by
  rw [queryTokens.eq_def]
  simp [hex, digit, digit']

theorem queryTokens_valid {query : Bytes} {tokens : List QueryToken} (read : queryTokens flags query = some tokens) :
    ∀ token ∈ tokens, token.Valid flags := by
  fun_induction queryTokens flags query generalizing tokens with
  | case1 =>
    cases read
    exact fun _ member => nomatch member
  | case2 byte hex =>
    cases read
    simp [QueryToken.Valid, hex.2]
  | case3 byte hex first digit =>
    cases read
    simp [QueryToken.Valid, hex.2, digit]
  | case4 byte hex first digit second rest digit' ih =>
    obtain ⟨tokens, there, rfl⟩ := Option.map_eq_some_iff.mp read
    exact List.forall_mem_cons.mpr ⟨⟨hex.2, digit, digit'⟩, ih there⟩
  | case5 => cases read
  | case6 byte hex first rest other ih =>
    obtain ⟨tokens, there, rfl⟩ := Option.map_eq_some_iff.mp read
    exact List.forall_mem_cons.mpr ⟨⟨hex.2, by simpa using other⟩, ih there⟩
  | case7 byte rest other ih =>
    obtain ⟨tokens, there, rfl⟩ := Option.map_eq_some_iff.mp read
    exact List.forall_mem_cons.mpr ⟨other, ih there⟩

theorem queryTokens_text {query : Bytes} {tokens : List QueryToken} (read : queryTokens flags query = some tokens) :
    tokenText tokens = query := by
  fun_induction queryTokens flags query generalizing tokens with
  | case1 => cases read; rfl
  | case2 byte hex => cases read; simp [tokenText, QueryToken.bytes, hex.1]
  | case3 byte hex first digit => cases read; simp [tokenText, QueryToken.bytes, hex.1]
  | case4 byte hex first digit second rest digit' ih =>
    obtain ⟨tokens, there, rfl⟩ := Option.map_eq_some_iff.mp read
    simp [tokenText, QueryToken.bytes, hex.1, ← ih there]
  | case5 => cases read
  | case6 byte hex first rest other ih =>
    obtain ⟨tokens, there, rfl⟩ := Option.map_eq_some_iff.mp read
    simp [tokenText, QueryToken.bytes, hex.1, ← ih there]
  | case7 byte rest other ih =>
    obtain ⟨tokens, there, rfl⟩ := Option.map_eq_some_iff.mp read
    simp [tokenText, QueryToken.bytes, ← ih there]

theorem foldlM_token {rest : Bytes} (valid : token.Valid flags) (whole : token.isCut = false)
    (room : s.size + token.bytes.length + rest.length ≤ len)
    (first : token.bytes.foldlM (queryStep flags len) s = tokenStep flags len s token)
    (ih : ∀ s : QueryScan, s.AtToken → s.size + rest.length ≤ len → rest.foldlM (queryStep flags len) s =
      (queryTokens flags rest).bind fun tokens => tokens.foldlM (tokenStep flags len) s) :
    (token.bytes ++ rest).foldlM (queryStep flags len) s =
      ((queryTokens flags rest).map (token :: ·)).bind fun tokens => tokens.foldlM (tokenStep flags len) s := by
  rw [List.foldlM_append, first]
  cases step : tokenStep flags len s token with
  | none => cases queryTokens flags rest <;> simp [step]
  | some s' =>
    obtain ⟨boundary, size⟩ := tokenStep_atToken valid whole step
    refine (ih s' boundary (by omega)).trans ?_
    cases queryTokens flags rest <;> simp [step]

theorem foldlM_queryStep (query : Bytes) (s : QueryScan) (boundary : s.AtToken) (room : s.size + query.length ≤ len) :
    query.foldlM (queryStep flags len) s =
      (queryTokens flags query).bind fun tokens => tokens.foldlM (tokenStep flags len) s := by
  fun_induction queryTokens flags query generalizing s with
  | case1 => rfl
  | case2 byte hex =>
    obtain ⟨rfl, hex⟩ := hex
    simp [queryStep_percent hex boundary room, tokenStep]
  | case3 byte hex first digit =>
    obtain ⟨rfl, hex⟩ := hex
    simp [foldlM_percent hex boundary room, digit, tokenStep]
  | case4 byte hex first digit second rest digit' ih =>
    obtain ⟨rfl, hex⟩ := hex
    simp only [List.length_cons] at room
    have last := @queryStep_second flags len s boundary (by omega) first second
    refine @foldlM_token flags len s (.escape first second) rest ⟨hex, digit, digit'⟩ rfl ?_ ?_ ih
    · simp only [QueryToken.bytes, List.length_cons, List.length_nil]
      omega
    · rw [QueryToken.bytes, foldlM_percent hex boundary (by omega)]
      simp [digit, last, digit', tokenStep]
  | case5 byte hex first digit second rest other =>
    obtain ⟨rfl, hex⟩ := hex
    simp only [List.length_cons] at room
    have last := @queryStep_second flags len s boundary (by omega) first second
    rw [foldlM_percent hex boundary (by omega)]
    simp [digit, last, other]
  | case6 byte hex first rest other ih =>
    obtain ⟨rfl, hex⟩ := hex
    simp only [List.length_cons] at room
    refine @foldlM_token flags len s (.stray first) rest ⟨hex, by simpa using other⟩ rfl ?_ ?_ ih
    · simp only [QueryToken.bytes, List.length_cons, List.length_nil]
      omega
    · rw [QueryToken.bytes, foldlM_percent hex boundary (by omega)]
      simp [other]
  | case7 byte rest other ih =>
    simp only [List.length_cons] at room
    have step := @queryStep_text flags len s boundary (by omega) byte
    refine @foldlM_token flags len s (.text byte) rest other rfl ?_ ?_ ih
    · simp only [QueryToken.bytes, List.length_cons, List.length_nil]
      omega
    · simp [QueryToken.bytes, step]

end

end Evhtp
