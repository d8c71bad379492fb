import Evhtp.Bytes

/-! `htp__glob_match_` on memory. A pointer is what can be read from it on, and a length that would underflow or a read
outside has no result. -/

namespace Evhtp

/-- `n--`. -/
def decrement : Nat → Option Nat
  | 0 => none
  | n + 1 => some n

/-- `while (pattern[1] == '*') { pattern++; plen--; }`. -/
def skipStars : Bytes → Nat → Option (Bytes × Nat)
  | first :: second :: rest, plen =>
    if second = 42 then (decrement plen).bind fun plen => skipStars (second :: rest) plen
    else some (first :: second :: rest, plen)
  | _, _ => none

/-- `while (*pattern == '*') { pattern++; plen--; }`: the length that is left. -/
def skipLastStars : Bytes → Nat → Option Nat
  | [], _ => none
  | first :: rest, plen => if first = 42 then (decrement plen).bind fun plen => skipLastStars rest plen else some plen

/-- `while (str_len) { if (…) return 1; string++; str_len--; } return 0;`. -/
def tryTails (attempt : Bytes → Nat → Option Bool) : Nat → Bytes → Option Bool
  | 0, _ => some false
  | strLen + 1, string =>
    (attempt string (strLen + 1)).bind fun found =>
      if found then some true
      else
        match string with
        | [] => none
        | _ :: string => tryTails attempt strLen string

theorem skipStars_length {pattern rest : Bytes} {plen left : Nat} (skipped : skipStars pattern plen = some (rest, left)) :
    rest.length ≤ pattern.length := by
  induction pattern generalizing plen with
  | nil => cases skipped
  | cons first others ih =>
    cases others with
    | nil => cases skipped
    | cons second others =>
      unfold skipStars at skipped
      split at skipped
      · obtain ⟨plen', -, further⟩ := Option.bind_eq_some_iff.mp skipped
        exact Nat.le_succ_of_le (ih further)
      · cases skipped
        exact Nat.le_refl _

def htpGlobMatch (pattern : Bytes) (plen : Nat) (string : Bytes) (strLen : Nat) : Option Bool :=
  if plen = 0 then some (strLen == 0)
  else
    match pattern with
    | [] => none
    | first :: rest =>
      if first = 42 then
        match skipped : skipStars (first :: rest) plen with
        | none | some ([], _) => none
        | some (_ :: pattern, plen) =>
          have := skipStars_length skipped
          if plen = 1 then some true
          else (decrement plen).bind fun plen => tryTails (fun string strLen => htpGlobMatch pattern plen string strLen) strLen string
      else
        match string with
        | [] => none
        | byte :: string =>
          if first ≠ byte then some false
          else
            (decrement strLen).bind fun strLen => (decrement plen).bind fun plen =>
              if strLen = 0 then (skipLastStars rest plen).map (· == 0) else htpGlobMatch rest plen string strLen
termination_by pattern.length
decreasing_by
  · simp only [List.length_cons] at this ⊢
    omega
  · simp

end Evhtp
