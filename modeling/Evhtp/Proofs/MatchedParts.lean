import Evhtp.Lib.Runs
import Evhtp.Proofs.Routes

/-! The two parts of a path. Each call of `htp__request_set_callbacks_` copies the part that matched and the part after
it over the copies of the call before, and does not terminate them. -/

namespace Evhtp

def Path.Spelled (path : Path) : Prop :=
  ∃ start rest, path.matchStart = some start ∧ path.matchEnd = some rest ∧
    cString start = (path.full.drop path.matchedSoff).take (path.matchedEoff - path.matchedSoff) ∧
    cString rest = path.full.drop path.matchedEoff ∧ cString start ++ cString rest = path.full

def Request.Spelled (request : Request) : Prop := ∃ path, request.path = some path ∧ path.Spelled

def PlainCallbacks (site : Site) (htp : Nat) : Prop :=
  ∀ callback ∈ (site.htp htp).callbacks, ∀ regex, callback.val ≠ .regex regex

def callIn (request : Request) (context : Site × Nat) : Option Request :=
  some (setCallbacks context.1 { request with htp := context.2 })

/-- What is found for a path ends where the match of the call before has ended. A first call finds a callback, or takes
the default. -/
def Path.EndsAlike (path : Path) (handled : Bool) : Option (Callback × Nat × Nat) → Prop
  | some (_, _, eoff) => path.matchStart.isSome = true → eoff = path.matchedEoff
  | none =>
    if handled then path.matchStart.isSome = true else path.matchStart.isSome = true → path.full.length = path.matchedEoff

instance (path : Path) (handled : Bool) : (found : Option (Callback × Nat × Nat)) → Decidable (path.EndsAlike handled found)
  | some _ => inferInstanceAs (Decidable (_ → _))
  | none => inferInstanceAs (Decidable (ite ..))

def EndKept (request : Request) (context : Site × Nat) : Prop :=
  ∀ path, request.path = some path → path.EndsAlike request.cb.isSome (lookup context.1 context.2 path)

theorem endKept_iff {request : Request} {path : Path} (here : request.path = some path) (context : Site × Nat) :
    EndKept request context ↔ path.EndsAlike request.cb.isSome (lookup context.1 context.2 path) := by
  constructor
  · exact fun every => every path here
  · intro holds other there
    cases here.symm.trans there
    exact holds

structure Path.Proper (path : Path) : Prop where
  noNul : 0 ∉ path.full
  directory : 0 < path.path.length
  inside : path.path.length ≤ path.full.length

theorem Path.Proper.of_text {path path' : Path} (proper : path.Proper) (same : path.SameText path') : path'.Proper := by
  refine ⟨?_, ?_, ?_⟩
  · rw [same.1]
    exact proper.noNul
  · rw [same.2]
    exact proper.directory
  · rw [same.1, same.2]
    exact proper.inside

/-- The copies as they are after calls that all end at the same place, with the zeros of the allocation behind them. -/
structure Path.Filled (path : Path) : Prop where
  soff : path.matchedSoff = 0
  some : 0 < path.matchedEoff
  inside : path.matchedEoff ≤ path.full.length
  start : path.matchStart =
    Option.some (path.full.take path.matchedEoff ++ List.replicate (path.full.length + 1 - path.matchedEoff) 0)
  rest : path.matchEnd = Option.some (path.full.drop path.matchedEoff ++ List.replicate (path.matchedEoff + 1) 0)

def Path.Settled (path : Path) : Prop :=
  path.matchStart = none ∧ path.matchEnd = none ∧ path.matchedSoff = 0 ∧ path.matchedEoff = 0 ∨ path.Filled

theorem pathNew_proper {data : Bytes} (noNul : 0 ∉ data) : (pathNew data).Proper := by
  have slash : (ascii "/").length = 1 := rfl
  unfold pathNew
  split
  · exact ⟨by decide, by decide, by decide⟩
  · next first rest =>
    split
    · rw [cString_self noNul]
      exact ⟨noNul, by simp [slash], by simp [slash]⟩
    · next rooted =>
      split
      · rw [cString_self noNul]
        exact ⟨noNul, by simp, Nat.le_refl _⟩
      · obtain rfl : first = 47 := not_not.mp rooted
        generalize name : ((47 :: rest).reverse.takeWhile (· != 47)).reverse = file
        have short : file.length < (47 :: rest).length := by
          have size : (47 :: rest).reverse.length = (47 :: rest).length := List.length_reverse
          rw [← name, List.length_reverse, ← size]
          refine Nat.lt_of_le_of_ne (List.takeWhile_sublist _).length_le fun full => ?_
          have all := (List.takeWhile_sublist (· != 47)).eq_of_length full
          have passes := List.takeWhile_eq_self_iff.mp all 47 (by simp)
          cases passes
        have part : 0 ∉ (47 :: rest).take ((47 :: rest).length - file.length) := fun member => noNul (List.mem_of_mem_take member)
        simp only [splitFile, name]
        rw [cString_self noNul, cString_self part]
        refine ⟨noNul, ?_, ?_⟩
        · rw [List.length_take]
          omega
        · exact (List.take_sublist _ _).length_le

def Request.Settled (request : Request) : Prop := ∃ path, request.path = some path ∧ path.Proper ∧ path.Settled

theorem start_settled {data : Bytes} (noNul : 0 ∉ data) {start : Request} (new : start.path = some (pathNew data)) :
    start.Settled := by
  refine ⟨_, new, pathNew_proper noNul, .inl ?_⟩
  unfold pathNew
  repeat' split
  all_goals exact ⟨rfl, rfl, rfl, rfl⟩

section
variable {site : Site} {htp : Nat} {request : Request} {path : Path}

theorem callbackFind_plain {text : Bytes} {callbacks : List Callback} (plain : ∀ callback ∈ callbacks, ∀ regex, callback.val ≠ .regex regex)
    {callback : Callback} {soff eoff : Nat} (found : callbackFind site text callbacks = some (callback, soff, eoff)) :
    soff = 0 ∧ eoff = text.length := by
  induction callbacks with
  | nil => cases found
  | cons first callbacks ih =>
    unfold callbackFind at found
    split at found
    · next offsets matched =>
      obtain ⟨rfl, rfl⟩ := Prod.mk.inj (Option.some.inj found)
      unfold callbackMatch at matched
      cases val : first.val with
      | hash start =>
        rw [val] at matched
        dsimp only at matched
        split at matched <;> cases matched
        exact ⟨rfl, rfl⟩
      | regex regex => exact absurd val (plain first (List.mem_cons_self ..) regex)
      | glob glob =>
        rw [val] at matched
        dsimp only at matched
        split at matched <;> cases matched
        exact ⟨rfl, rfl⟩
    · exact ih (fun other member => plain other (List.mem_cons_of_mem _ member)) found

/-- A match begins with the path and ends with it, or with its directory. -/
theorem lookup_plain (plain : PlainCallbacks site htp) {callback : Callback} {soff eoff : Nat}
    (found : lookup site htp path = some (callback, soff, eoff)) :
    soff = 0 ∧ (eoff = path.full.length ∨ eoff = path.path.length) := by
  rcases Option.or_eq_some_iff.mp found with full | ⟨-, directory⟩
  · obtain ⟨begins, ends⟩ := callbackFind_plain plain full
    exact ⟨begins, .inl ends⟩
  · obtain ⟨begins, ends⟩ := callbackFind_plain plain directory
    exact ⟨begins, .inr ends⟩

def Request.span (site : Site) (request : Request) (path : Path) : Nat × Nat :=
  match lookup site request.htp path with
  | some (_, offsets) => offsets
  | none => if request.cb.isSome then (path.matchedSoff, path.matchedEoff) else (0, path.full.length)

theorem setCallbacks_path (site : Site) (here : request.path = some path) :
    (setCallbacks site request).path =
      some { path with matchedSoff := (request.span site path).1, matchedEoff := (request.span site path).2 }.copyMatch := by
  obtain ⟨uri, there, known⟩ := Option.bind_eq_some_iff.mp here
  unfold setCallbacks
  rw [there]
  dsimp only
  rw [known]
  dsimp only
  unfold setCallbacksFor Request.span
  cases lookup site request.htp path with
  | some found => rfl
  | none =>
    dsimp only
    split <;> rfl

theorem copyMatch_new (new : path.matchStart = none ∧ path.matchEnd = none) {eoff : Nat} (some : 0 < eoff)
    (inside : eoff ≤ path.full.length) : ({ path with matchedSoff := 0, matchedEoff := eoff }.copyMatch).Filled := by
  have differs : eoff ≠ 0 := Nat.ne_of_gt some
  unfold Path.copyMatch
  simp only [new.1, new.2, Option.getD_none, ne_eq, differs, not_false_eq_true, if_true, List.drop_zero, Nat.sub_zero]
  rw [if_pos (by decide)]
  refine ⟨rfl, some, inside, ?_, ?_⟩
  · simp [copyInto, inside]
  · simp [copyInto]
    omega

/-- Copies over filled copies: the bytes of a longer one stay behind. -/
def Path.overwritten (path : Path) (eoff : Nat) : Path :=
  { path with
    matchedSoff := 0
    matchedEoff := eoff
    matchStart := Option.some (path.full.take (max eoff path.matchedEoff) ++
      List.replicate (path.full.length + 1 - max eoff path.matchedEoff) 0)
    matchEnd := Option.some (path.full.drop eoff ++ (path.full.drop (path.full.length - (eoff - path.matchedEoff)) ++
      List.replicate (min eoff path.matchedEoff + 1) 0)) }

theorem copyMatch_filled (filled : path.Filled) {eoff : Nat} (some : 0 < eoff) (inside : eoff ≤ path.full.length) :
    { path with matchedSoff := 0, matchedEoff := eoff }.copyMatch = path.overwritten eoff := by
  have differs : eoff ≠ 0 := Nat.ne_of_gt some
  have within := filled.inside
  unfold Path.copyMatch Path.overwritten
  simp only [filled.start, filled.rest, Option.getD_some, ne_eq, differs, not_false_eq_true, if_true, List.drop_zero, Nat.sub_zero]
  rw [if_pos (by decide)]
  congr 2
  · unfold copyInto
    rw [List.length_take, Nat.min_eq_left inside]
    rcases Nat.le_total eoff path.matchedEoff with fewer | more
    · rw [Nat.max_eq_right fewer, List.drop_append_of_le_length (by simp; omega), ← List.append_assoc]
      conv_rhs => rw [← List.take_append_drop eoff (path.full.take path.matchedEoff), List.take_take, Nat.min_eq_left fewer]
    · rw [Nat.max_eq_left more, List.drop_append, List.drop_eq_nil_of_le (by simp; omega), List.nil_append, List.drop_replicate,
        List.length_take, Nat.min_eq_left within]
      congr 2
      omega
  · unfold copyInto
    rw [List.length_drop]
    congr 1
    rcases Nat.le_total eoff path.matchedEoff with fewer | more
    · rw [Nat.sub_eq_zero_of_le fewer, Nat.sub_zero, List.drop_length, Nat.min_eq_left fewer, List.drop_append,
        List.drop_eq_nil_of_le (by simp; omega), List.drop_replicate, List.length_drop]
      congr 2
      omega
    · rw [Nat.min_eq_right more, List.drop_append_of_le_length (by simp; omega), List.drop_drop]
      congr 2
      omega

theorem Path.Filled.spelled (filled : path.Filled) (noNul : 0 ∉ path.full) : path.Spelled := by
  have front : cString (path.full.take path.matchedEoff ++ List.replicate (path.full.length + 1 - path.matchedEoff) 0) =
      path.full.take path.matchedEoff := by
    rw [Nat.succ_sub filled.inside, List.replicate_succ]
    exact cString_eq (fun member => noNul (List.mem_of_mem_take member)) _
  have back : cString (path.full.drop path.matchedEoff ++ List.replicate (path.matchedEoff + 1) 0) =
      path.full.drop path.matchedEoff := by
    rw [List.replicate_succ]
    exact cString_eq (fun member => noNul (List.mem_of_mem_drop member)) _
  refine ⟨_, _, filled.start, filled.rest, ?_, back, ?_⟩
  · rw [front, filled.soff, List.drop_zero, Nat.sub_zero]
  · rw [front, back, List.take_append_drop]

theorem Path.Filled.overwritten_self (filled : path.Filled) : path.overwritten path.matchedEoff = path := by
  unfold Path.overwritten
  rw [Nat.max_self, Nat.min_self, Nat.sub_self, Nat.sub_zero, List.drop_length, List.nil_append, ← filled.start, ← filled.rest,
    ← filled.soff]

theorem overwritten_spelled_iff (filled : path.Filled) (noNul : 0 ∉ path.full) {eoff : Nat} (inside : eoff ≤ path.full.length) :
    (path.overwritten eoff).Spelled ↔ eoff = path.matchedEoff := by
  have within := filled.inside
  constructor
  · rintro ⟨start, rest, first, second, front, back, -⟩
    obtain rfl := Option.some.inj first
    obtain rfl := Option.some.inj second
    have kept : 0 ∉ path.full.take (max eoff path.matchedEoff) := fun member => noNul (List.mem_of_mem_take member)
    have left : 0 ∉ path.full.drop eoff ++ path.full.drop (path.full.length - (eoff - path.matchedEoff)) := fun member =>
      (List.mem_append.mp member).elim (noNul ∘ List.mem_of_mem_drop) (noNul ∘ List.mem_of_mem_drop)
    rw [Nat.succ_sub (Nat.max_le.mpr ⟨inside, within⟩), List.replicate_succ, cString_eq kept] at front
    rw [List.replicate_succ, ← List.append_assoc, cString_eq left] at back
    have frontSize := congrArg List.length front
    have backSize := congrArg List.length back
    simp only [Path.overwritten, List.length_take, List.length_drop, List.length_append] at frontSize backSize
    omega
  · rintro rfl
    rw [filled.overwritten_self]
    exact filled.spelled noNul

theorem copyMatch_unmatched (proper : path.Proper) (new : path.matchStart = none) :
    ¬ ({ path with matchedSoff := 0, matchedEoff := 0 }.copyMatch).Spelled := by
  rintro ⟨start, rest, first, -, front, -⟩
  have copied : ({ path with matchedSoff := 0, matchedEoff := 0 }.copyMatch).matchStart = some (path.full ++ [0]) := by
    simp [Path.copyMatch, copyInto, new]
  obtain rfl := Option.some.inj (first.symm.trans copied)
  rw [cString_eq proper.noNul] at front
  have empty : path.full = [] := by simpa [Path.copyMatch] using front
  have inside := Nat.lt_of_lt_of_le proper.directory proper.inside
  rw [empty] at inside
  cases inside

/-- Copies of a match are right if the copies before them have ended at the same place, or there were none. -/
theorem copyMatch_spelled_iff (proper : path.Proper) (settled : path.Settled) {eoff : Nat} (some : 0 < eoff)
    (inside : eoff ≤ path.full.length) :
    (({ path with matchedSoff := 0, matchedEoff := eoff }.copyMatch).Spelled ↔
        (path.matchStart.isSome = true → eoff = path.matchedEoff)) ∧
      ((path.matchStart.isSome = true → eoff = path.matchedEoff) →
        ({ path with matchedSoff := 0, matchedEoff := eoff }.copyMatch).Filled) := by
  rcases settled with ⟨noStart, noEnd, -, -⟩ | filled
  · have new := copyMatch_new ⟨noStart, noEnd⟩ some inside
    have noNul : 0 ∉ ({ path with matchedSoff := 0, matchedEoff := eoff }.copyMatch).full :=
      (copyMatch_sameText _).1 ▸ proper.noNul
    exact ⟨iff_of_true (new.spelled noNul) (by simp [noStart]), fun _ => new⟩
  · have there : path.matchStart.isSome = true := by simp [filled.start]
    rw [copyMatch_filled filled some inside, overwritten_spelled_iff filled proper.noNul inside]
    refine ⟨by simp [there], fun same => ?_⟩
    rw [same there, filled.overwritten_self]
    exact filled

/-- A call on a request whose copies are right, or not made yet. -/
theorem setCallbacks_spelled_iff (proper : path.Proper) (settled : path.Settled) (here : request.path = some path)
    (plain : PlainCallbacks site htp) :
    ∃ after, (setCallbacks site { request with htp }).path = some after ∧ (after.Spelled ↔ EndKept request (site, htp)) ∧
      (EndKept request (site, htp) → after.Proper ∧ after.Filled) := by
  have kept : ∀ soff eoff, ({ path with matchedSoff := soff, matchedEoff := eoff }.copyMatch).Proper := by
    intro soff eoff
    have moved : Path.Proper { path with matchedSoff := soff, matchedEoff := eoff } :=
      ⟨proper.noNul, proper.directory, proper.inside⟩
    exact moved.of_text (copyMatch_sameText _)
  refine ⟨_, @setCallbacks_path { request with htp } path site here, ?_⟩
  rw [endKept_iff here]
  unfold Request.span Path.EndsAlike
  cases found : lookup site htp path with
  | some match_ =>
    obtain ⟨callback, soff, eoff⟩ := match_
    obtain ⟨rfl, ends⟩ := lookup_plain plain found
    have some : 0 < eoff := by
      have := proper.directory
      have := proper.inside
      omega
    have inside : eoff ≤ path.full.length := by
      have := proper.inside
      omega
    obtain ⟨spelled, filled⟩ := copyMatch_spelled_iff proper settled some inside
    exact ⟨spelled, fun same => ⟨kept 0 eoff, filled same⟩⟩
  | none =>
    cases had : request.cb.isSome with
    | true =>
      simp only [if_true]
      rcases settled with ⟨noStart, -, noSoff, noEoff⟩ | filled
      · rw [noSoff, noEoff]
        exact ⟨iff_of_false (copyMatch_unmatched proper noStart) (by simp [noStart]), by simp [noStart]⟩
      · have copied := copyMatch_filled filled filled.some filled.inside
        rw [filled.overwritten_self, ← filled.soff] at copied
        rw [copied]
        exact ⟨iff_of_true (filled.spelled proper.noNul) (by simp [filled.start]), fun _ => ⟨proper, filled⟩⟩
    | false =>
      simp only [Bool.false_eq_true, if_false]
      have some : 0 < path.full.length := Nat.lt_of_lt_of_le proper.directory proper.inside
      obtain ⟨spelled, filled⟩ := copyMatch_spelled_iff proper settled some (Nat.le_refl _)
      exact ⟨spelled, fun same => ⟨kept 0 _, filled same⟩⟩

end

def directorySite : Site where
  htp id :=
    if id = 1 then { callbacks := [{ val := .glob (ascii "/a/"), cb := some 1 }] }
    else if id = 2 then { callbacks := [{ val := .glob (ascii "*/"), cb := some 2 }] }
    else {}
  regexec _ _ := none

def fileRequest : Request := { uri := some { path := some (pathNew (ascii "/a/b")) } }

theorem directorySite_plain (htp : Nat) : PlainCallbacks directorySite htp := by
  intro callback member regex
  unfold directorySite at member
  dsimp only at member
  split_ifs at member
  · obtain rfl := List.mem_singleton.mp member
    nofun
  · obtain rfl := List.mem_singleton.mp member
    nofun
  · cases member

end Evhtp
