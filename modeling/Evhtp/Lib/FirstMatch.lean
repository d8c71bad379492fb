import Mathlib.Data.List.Basic

/-! Removing the first match of each of several tests from a list. If no element passes two of the tests, the removals
do not get in each other's way, and each of them takes away one element of those that pass its test. -/

namespace FirstMatch

universe u
variable {α : Type u} {m q : α → Bool} {ms : List (α → Bool)} {l : List α}

/-- No element passes both tests. -/
def Apart (m q : α → Bool) : Prop := ∀ a, m a = true → q a = true → False

theorem Apart.symm (apart : Apart m q) : Apart q m := fun a second first => apart a first second

/-- The first matches of several tests are removed, one after the other. -/
def eraseFirsts (ms : List (α → Bool)) (l : List α) : List α := ms.foldl (fun l m => l.eraseP m) l

theorem eraseP_of_find? {a : α} (found : l.find? m = some a) :
    ∃ before after, l = before ++ a :: after ∧ l.eraseP m = before ++ after ∧ m a = true ∧ ∀ b ∈ before, m b = false := by
  obtain ⟨passes, before, after, rfl, none⟩ := List.find?_eq_some_iff_append.mp found
  have fails : ∀ b ∈ before, m b = false := by simpa using none
  refine ⟨before, after, rfl, ?_, passes, fails⟩
  rw [List.eraseP_append_right _ (by simpa using none), List.eraseP_cons_of_pos passes]

theorem eraseP_of_find?_none (none : l.find? m = none) : l.eraseP m = l :=
  List.eraseP_of_forall_not (List.find?_eq_none.mp none)

theorem filter_eraseP_iff (q : α → Bool) :
    (l.eraseP m).filter q = l.filter q ↔ ∀ a, l.find? m = some a → q a = false := by
  cases found : l.find? m with
  | none => simp [eraseP_of_find?_none found]
  | some a =>
    obtain ⟨before, after, rfl, erased, -, -⟩ := eraseP_of_find? found
    rw [erased]
    cases passes : q a with
    | true | false => simp [passes]

theorem filter_eraseP (apart : Apart m q) : (l.eraseP m).filter q = l.filter q := by
  refine (filter_eraseP_iff q).mpr fun a found => ?_
  by_contra passes
  exact apart a (List.find?_some found) (by simpa using passes)

theorem find?_eraseP (apart : Apart m q) : (l.eraseP m).find? q = l.find? q := by
  rw [← List.head?_filter, ← List.head?_filter, filter_eraseP apart]

theorem filter_eraseP_self : (l.eraseP m).filter m = (l.filter m).tail := by
  cases found : l.find? m with
  | none =>
    have none : l.filter m = [] := List.filter_eq_nil_iff.mpr (List.find?_eq_none.mp found)
    simp [eraseP_of_find?_none found, none]
  | some a =>
    obtain ⟨before, after, rfl, erased, passes, fails⟩ := eraseP_of_find? found
    have none : before.filter m = [] := List.filter_eq_nil_iff.mpr (by simpa using fails)
    simp [erased, none, passes]

theorem filter_eraseFirsts (apart : ∀ m ∈ ms, Apart m q) : (eraseFirsts ms l).filter q = l.filter q := by
  induction ms generalizing l with
  | nil => rfl
  | cons m ms ih =>
    refine (ih fun m' member => apart m' (List.mem_cons_of_mem _ member)).trans ?_
    exact filter_eraseP (apart m List.mem_cons_self)

theorem eraseFirsts_sublist : (eraseFirsts ms l).Sublist l := by
  induction ms generalizing l with
  | nil => exact List.Sublist.refl l
  | cons m ms ih => exact ih.trans List.eraseP_sublist

/-- All is left of what passes another test if no first match passes it. -/
theorem filter_eraseFirsts_iff (apart : ms.Pairwise Apart) :
    (eraseFirsts ms l).filter q = l.filter q ↔ ∀ m ∈ ms, ∀ a, l.find? m = some a → q a = false := by
  induction ms generalizing l with
  | nil => simp [eraseFirsts]
  | cons m ms ih =>
    obtain ⟨first, others⟩ := List.pairwise_cons.mp apart
    have same : ∀ m' ∈ ms, (l.eraseP m).find? m' = l.find? m' := fun m' member => find?_eraseP (first m' member)
    have split : (eraseFirsts (m :: ms) l).filter q = l.filter q ↔
        (eraseFirsts ms (l.eraseP m)).filter q = (l.eraseP m).filter q ∧ (l.eraseP m).filter q = l.filter q := by
      refine ⟨fun equal => ?_, fun equal => equal.1.trans equal.2⟩
      have outer : ((l.eraseP m).filter q).Sublist (l.filter q) := List.eraseP_sublist.filter q
      have inner : ((eraseFirsts ms (l.eraseP m)).filter q).Sublist ((l.eraseP m).filter q) := eraseFirsts_sublist.filter q
      have middle : (l.eraseP m).filter q = l.filter q := by
        refine outer.antisymm ?_
        rw [← equal]
        exact inner
      exact ⟨equal.trans middle.symm, middle⟩
    rw [split, ih others, filter_eraseP_iff, List.forall_mem_cons, and_comm]
    refine and_congr_right fun _ => forall₂_congr fun m' member => ?_
    rw [same m' member]

/-- Of what passes one of the tests, the first is missing. -/
theorem filter_eraseFirsts_self (apart : ms.Pairwise Apart) (member : m ∈ ms) :
    (eraseFirsts ms l).filter m = (l.filter m).tail := by
  induction ms generalizing l with
  | nil => cases member
  | cons first ms ih =>
    obtain ⟨alone, others⟩ := List.pairwise_cons.mp apart
    change (eraseFirsts ms (l.eraseP first)).filter m = (l.filter m).tail
    rcases List.mem_cons.mp member with rfl | later
    · rw [filter_eraseFirsts fun m' member' => (alone m' member').symm, filter_eraseP_self]
    · rw [ih others later, filter_eraseP (alone m later)]

/-- Nothing is left of what passes a stricter test, and the first match passes it, if it is all that does. -/
theorem tail_filter_iff (stricter : ∀ a, q a = true → m a = true) :
    ((l.filter m).tail.filter q = [] ∧ ∀ a, l.find? m = some a → q a = true) ↔ l.filter q = (l.find? m).toList := by
  have nested : l.filter q = (l.filter m).filter q := by
    rw [List.filter_filter]
    refine List.filter_congr fun a _ => ?_
    cases passes : q a with
    | true => simp [stricter a passes]
    | false => simp
  rw [nested, ← List.head?_filter]
  cases l.filter m with
  | nil => simp
  | cons a rest =>
    cases passes : q a with
    | true => simp [passes]
    | false =>
      have differs : rest.filter q ≠ [a] := by
        intro equal
        have member : a ∈ rest.filter q := by simp [equal]
        simp [passes] at member
      simp [passes, differs]

section
variable {narrow wide : α → Bool} (implies : ∀ a, narrow a = true → wide a = true)
include implies

theorem find?_wider_iff :
    l.find? wide = l.find? narrow ↔
      ∀ before a after, l = before ++ a :: after → wide a = true → narrow a = false → ∃ b ∈ before, narrow b = true := by
  induction l with
  | nil => simp
  | cons first l ih =>
    cases passes : narrow first with
    | true =>
      refine iff_of_true (by simp [passes, implies first passes]) fun before a after split _ fails => ?_
      cases before with
      | nil =>
        obtain ⟨rfl, -⟩ := List.cons.inj split
        cases passes.symm.trans fails
      | cons b before =>
        obtain ⟨rfl, -⟩ := List.cons.inj split
        exact ⟨first, List.mem_cons_self .., passes⟩
    | false =>
      cases wider : wide first with
      | true =>
        refine iff_of_false (fun same => ?_) fun later => ?_
        · simp only [List.find?_cons, wider, passes] at same
          cases passes.symm.trans (List.find?_some same.symm)
        · obtain ⟨b, member, -⟩ := later [] first l rfl wider passes
          cases member
      | false =>
        simp only [List.find?_cons, wider, passes, ih]
        constructor
        · intro later before a after split within fails
          cases before with
          | nil =>
            obtain ⟨rfl, -⟩ := List.cons.inj split
            cases wider.symm.trans within
          | cons b before =>
            obtain ⟨b', member, found⟩ := later before a after (List.cons.inj split).2 within fails
            exact ⟨b', List.mem_cons_of_mem _ member, found⟩
        · rintro later before a after rfl within fails
          obtain ⟨b, member, found⟩ := later (first :: before) a after rfl within fails
          rcases List.mem_cons.mp member with rfl | member
          · cases passes.symm.trans found
          · exact ⟨b, member, found⟩

theorem countP_wider_iff : l.countP wide = l.countP narrow ↔ ∀ a ∈ l, wide a = true → narrow a = true := by
  induction l with
  | nil => simp
  | cons a l ih =>
    have fewer : l.countP narrow ≤ l.countP wide := List.countP_mono_left fun b _ => implies b
    cases passes : narrow a with
    | true => simp [passes, implies a passes, ih]
    | false =>
      cases wider : wide a with
      | true =>
        simp [passes, wider]
        omega
      | false => simp [passes, wider, ih]

end

end FirstMatch
