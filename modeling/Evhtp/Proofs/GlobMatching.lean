import Evhtp.Glob
import Evhtp.Lib.Glob
import Evhtp.Routing

/-! Glob matching is exact. The loops of `htp__glob_match_` stay inside the pattern and the string, and decide whether
the string is a word of the pattern. -/

namespace Evhtp

def globPlaces (pattern : Bytes) : List (Option UInt8) := pattern.map fun byte => if byte = 42 then none else some byte

theorem globPlaces_star (pattern : Bytes) : globPlaces (42 :: pattern) = none :: globPlaces pattern := rfl

theorem globPlaces_byte {byte : UInt8} (notStar : byte ≠ 42) (pattern : Bytes) :
    globPlaces (byte :: pattern) = some byte :: globPlaces pattern := by
  simp [globPlaces, notStar]

theorem nil_mem_globPlaces {pattern : Bytes} : [] ∈ Glob.language (globPlaces pattern) ↔ pattern.dropWhile (· == 42) = [] := by
  simp [Glob.nil_mem_language, globPlaces, List.dropWhile_eq_nil_iff]

/-- The model of the routing decides the language of a pattern. -/
theorem globMatch_iff (pattern string : Bytes) :
    globMatch pattern string = true ↔ string ∈ Glob.language (globPlaces pattern) := by
  induction pattern generalizing string with
  | nil => simp [globMatch, globPlaces, Glob.mem_language_nil]
  | cons byte pattern ih =>
    by_cases star : byte = 42
    · subst star
      rw [globPlaces_star]
      cases pattern with
      | nil => simp [globMatch, globPlaces, Glob.mem_language_none, Glob.mem_language_nil]
      | cons next pattern =>
        by_cases again : next = 42
        · subst again
          rw [globPlaces_star, Glob.language_none_none, ← globPlaces_star, ← ih string]
          simp [globMatch]
        · have some : [] ∉ Glob.language (globPlaces (next :: pattern)) := by
            simp [nil_mem_globPlaces, again]
          have tails : globMatch (42 :: next :: pattern) string =
              (string.tails.filter (· ≠ [])).any fun tail => globMatch (next :: pattern) tail := by
            conv_lhs => unfold globMatch
            simp [again]
          rw [tails, Glob.mem_language_none, List.any_eq_true]
          constructor
          · rintro ⟨tail, member, found⟩
            exact ⟨tail, (ih tail).mp found, (List.mem_tails _ _).mp (List.mem_filter.mp member).1⟩
          · rintro ⟨tail, member, suffix⟩
            have notNil : tail ≠ [] := fun empty => some (empty ▸ member)
            exact ⟨tail, List.mem_filter.mpr ⟨(List.mem_tails _ _).mpr suffix, by simpa using notNil⟩, (ih tail).mpr member⟩
    · rw [globPlaces_byte star, Glob.mem_language_some]
      cases string with
      | nil => simp [globMatch, star]
      | cons first rest =>
        by_cases same : byte = first
        · subst same
          by_cases last : rest = []
          · subst last
            simp [globMatch, star, nil_mem_globPlaces]
          · simp [globMatch, star, last, ih]
        · have other : ¬ first = byte := fun equal => same equal.symm
          simp [globMatch, star, same, other]

/-- A run of stars ends at the terminator at the latest. -/
theorem skipStars_eq (pattern : Bytes) :
    skipStars (42 :: (pattern ++ [0])) (pattern.length + 1) =
      some (42 :: (pattern.dropWhile (· == 42) ++ [0]), (pattern.dropWhile (· == 42)).length + 1) := by
  induction pattern with
  | nil => rfl
  | cons byte pattern ih =>
    by_cases star : byte = 42
    · subst star
      simpa [skipStars, decrement] using ih
    · simp [skipStars, star]

theorem skipLastStars_eq (pattern : Bytes) :
    skipLastStars (pattern ++ [0]) pattern.length = some (pattern.dropWhile (· == 42)).length := by
  induction pattern with
  | nil => rfl
  | cons byte pattern ih =>
    by_cases star : byte = 42
    · subst star
      simpa [skipLastStars, decrement] using ih
    · simp [skipLastStars, star]

theorem globMatch_stars (pattern string : Bytes) :
    globMatch (42 :: pattern) string =
      ((pattern.dropWhile (· == 42) == []) ||
        (string.tails.filter (· ≠ [])).any fun tail => globMatch (pattern.dropWhile (· == 42)) tail) := by
  induction pattern with
  | nil => simp [globMatch]
  | cons byte pattern ih =>
    by_cases star : byte = 42
    · subst star
      simpa [globMatch] using ih
    · conv_lhs => unfold globMatch
      simp [star]

theorem tryTails_eq {attempt : Bytes → Nat → Option Bool} {test : Bytes → Bool} {next : UInt8} {s : Bytes}
    (results : ∀ tail, tail ≠ [] → attempt (tail ++ [next]) tail.length = some (test tail)) :
    tryTails attempt s.length (s ++ [next]) = some ((s.tails.filter (· ≠ [])).any test) := by
  induction s with
  | nil => rfl
  | cons byte string ih =>
    have first := results (byte :: string) (List.cons_ne_nil _ _)
    rw [List.length_cons, List.cons_append] at first
    rw [List.length_cons, List.cons_append, tryTails, first]
    cases found : test (byte :: string) with
    | true => simp [found]
    | false =>
      simp only [Option.bind_some, Bool.false_eq_true, if_false, ih]
      simp [found]

theorem htpGlobMatch_star {rest memory left : Bytes} {plen plen' : Nat} (strLen : Nat) (some : plen ≠ 0) {first : UInt8}
    (skipped : skipStars (42 :: rest) plen = .some (first :: left, plen' + 1)) :
    htpGlobMatch (42 :: rest) plen memory strLen =
      if plen' = 0 then .some true else tryTails (htpGlobMatch left plen') strLen memory := by
  rw [htpGlobMatch.eq_def]
  simp only [if_neg some, if_true]
  split
  · next none => cases skipped.symm.trans none
  · next none => cases skipped.symm.trans none
  · next found =>
    cases skipped.symm.trans found
    simp [decrement]

theorem htpGlobMatch_byte {byte first : UInt8} (rest memory : Bytes) (plen strLen : Nat) (notStar : byte ≠ 42) :
    htpGlobMatch (byte :: rest) (plen + 1) (first :: memory) strLen =
      if byte ≠ first then some false
      else
        (decrement strLen).bind fun strLen =>
          if strLen = 0 then (skipLastStars rest plen).map (· == 0) else htpGlobMatch rest plen memory strLen := by
  rw [htpGlobMatch.eq_def]
  simp [notStar, decrement]

/-- The code, on a terminated pattern and a string with one byte after it, does what the model of the routing does. -/
theorem htpGlobMatch_eq (pattern string : Bytes) (next : UInt8) (differs : string = [] → pattern.head? ≠ some next) :
    htpGlobMatch (pattern ++ [0]) pattern.length (string ++ [next]) string.length = some (globMatch pattern string) := by
  induction size : pattern.length using Nat.strongRecOn generalizing pattern string with
  | ind n ih =>
    subst size
    cases pattern with
    | nil =>
      rw [htpGlobMatch.eq_def]
      cases string <;> rfl
    | cons byte pattern =>
      by_cases star : byte = 42
      · subst star
        have skipped := skipStars_eq pattern
        rw [globMatch_stars]
        generalize left : pattern.dropWhile (· == 42) = rest at *
        have shorter : rest.length < (42 :: pattern).length := by
          rw [← left]
          exact Nat.lt_succ_of_le (List.dropWhile_suffix _).length_le
        have attempts := tryTails_eq (s := string) fun tail some =>
          ih rest.length shorter rest tail (fun empty => absurd empty some) rfl
        rw [List.cons_append, List.length_cons, htpGlobMatch_star string.length (Nat.succ_ne_zero _) skipped, attempts]
        cases rest <;> rfl
      · rw [List.cons_append, List.length_cons]
        cases string with
        | nil =>
          have other : byte ≠ next := fun equal => differs rfl (by rw [equal]; rfl)
          rw [List.nil_append, htpGlobMatch_byte _ _ _ _ star, if_pos other]
          simp [globMatch, star]
        | cons first string =>
          rw [List.cons_append, htpGlobMatch_byte _ _ _ _ star]
          by_cases same : byte = first
          · subst same
            rw [if_neg (not_not.mpr rfl), List.length_cons, decrement, Option.bind_some]
            cases string with
            | nil =>
              rw [List.length_nil, if_pos rfl, skipLastStars_eq]
              cases gone : pattern.dropWhile (· == 42) <;> simp [globMatch, star, gone]
            | cons second string =>
              rw [if_neg (by simp), ih pattern.length (Nat.lt_succ_self _) pattern (second :: string) nofun rfl]
              simp [globMatch, star]
          · rw [if_pos same]
            simp [globMatch, star, same]

/-- `htp__glob_match_` reads nothing outside of its memory, and returns whether the string is a word of the pattern. -/
theorem glob_match_exact (pattern string : Bytes) (next : UInt8) (differs : pattern.head? ≠ some next) :
    ∃ result, htpGlobMatch (pattern ++ [0]) pattern.length (string ++ [next]) string.length = some result ∧
      (result = true ↔ string ∈ Glob.language (globPlaces pattern)) :=
  ⟨globMatch pattern string, htpGlobMatch_eq pattern string next fun _ => differs, globMatch_iff pattern string⟩

/-- A host name that a pattern with two stars stands for, at the end of its memory. -/
theorem glob_match_exact_host :
    ∃ result, htpGlobMatch (ascii "*.a**" ++ [0]) 5 (ascii "b.a" ++ [0]) 3 = some result ∧
      (result = true ↔ ascii "b.a" ∈ Glob.language (globPlaces (ascii "*.a**"))) :=
  glob_match_exact (ascii "*.a**") (ascii "b.a") 0 (by decide)

end Evhtp
