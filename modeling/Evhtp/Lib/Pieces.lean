import Mathlib.Data.List.TakeWhile

/-! The pieces of a list between the elements that separate them, and what a computation over such a list comes to if it is
known for a piece and a separator. -/

namespace Pieces

universe u
variable {α : Type u} {p : α → Bool}

@[elab_as_elim]
theorem piecewise {motive : List α → Prop} (last : ∀ piece, (∀ x ∈ piece, p x = false) → motive piece)
    (more : ∀ piece sep rest, (∀ x ∈ piece, p x = false) → p sep = true → motive rest → motive (piece ++ sep :: rest))
    (l : List α) : motive l := by
  induction size : l.length using Nat.strongRecOn generalizing l with
  | ind n ih =>
    have plain : ∀ x ∈ l.takeWhile (!p ·), p x = false := fun x member => by simpa using List.mem_takeWhile_imp member
    have whole : l.takeWhile (!p ·) ++ l.dropWhile (!p ·) = l := List.takeWhile_append_dropWhile
    cases back : l.dropWhile (!p ·) with
    | nil =>
      rw [back, List.append_nil] at whole
      rw [← whole]
      exact last _ plain
    | cons sep rest =>
      have stops := List.head?_dropWhile_not (!p ·) l
      rw [back] at stops
      have separates : p sep = true := by simpa using stops
      rw [back] at whole
      have shorter : rest.length < n := by
        rw [← size, ← whole, List.length_append, List.length_cons]
        omega
      rw [← whole]
      exact more _ sep rest plain separates (ih _ shorter rest rfl)

/-- The first piece is what stands before the first separator. -/
theorem cases_pieces (l : List α) :
    (∀ x ∈ l, p x = false) ∧ l.splitOnP p = [l] ∨
      ∃ sep rest, l = l.takeWhile (!p ·) ++ sep :: rest ∧ p sep = true ∧ l.splitOnP p = l.takeWhile (!p ·) :: rest.splitOnP p := by
  induction l using piecewise (p := p) with
  | last piece plain => exact .inl ⟨plain, List.splitOnP_eq_singleton plain⟩
  | more piece sep rest plain separates _ =>
    have front : (piece ++ sep :: rest).takeWhile (!p ·) = piece := by
      rw [List.takeWhile_append_of_pos fun x member => by simp [plain x member], List.takeWhile_cons_of_neg (by simp [separates]),
        List.append_nil]
    rw [front]
    exact .inr ⟨sep, rest, rfl, separates, List.splitOnP_append_cons_of_forall_mem plain sep separates rest⟩

theorem infix_of_mem {l piece : List α} (member : piece ∈ l.splitOnP p) : piece <:+: l := by
  induction l using piecewise (p := p) with
  | last first plain =>
    rw [List.splitOnP_eq_singleton plain, List.mem_singleton] at member
    exact member ▸ List.infix_rfl
  | more first sep rest plain separates ih =>
    rw [List.splitOnP_append_cons_of_forall_mem plain sep separates] at member
    rcases List.mem_cons.mp member with rfl | member
    · exact List.infix_append' [] piece (sep :: rest)
    · exact (ih member).trans ((List.suffix_cons sep rest).trans (List.suffix_append first _)).isInfix

theorem mem_piece {l piece : List α} (member : piece ∈ l.splitOnP p) {x : α} (inside : x ∈ piece) : x ∈ l ∧ p x = false := by
  induction l using piecewise (p := p) with
  | last first plain =>
    rw [List.splitOnP_eq_singleton plain, List.mem_singleton] at member
    subst member
    exact ⟨inside, plain x inside⟩
  | more first sep rest plain separates ih =>
    rw [List.splitOnP_append_cons_of_forall_mem plain sep separates] at member
    rcases List.mem_cons.mp member with rfl | member
    · exact ⟨List.mem_append_left _ inside, plain x inside⟩
    · obtain ⟨later, passes⟩ := ih member
      exact ⟨by simp [later], passes⟩

theorem getLast_suffix {l piece : List α} (last : (l.splitOnP p).getLast? = some piece) : piece <:+ l := by
  induction l using piecewise (p := p) with
  | last first plain =>
    rw [List.splitOnP_eq_singleton plain] at last
    cases last
    exact List.suffix_rfl
  | more first sep rest plain separates ih =>
    rw [List.splitOnP_append_cons_of_forall_mem plain sep separates, List.getLast?_cons_of_ne_nil (List.splitOnP_ne_nil _ _)] at last
    exact (ih last).trans ((List.suffix_cons sep rest).trans (List.suffix_append first _))

/-- The separators of a list that begins with a piece: the first one, and those behind it. -/
theorem forall_separators {good : List α → Prop} {piece : List α} {sep : α} {rest : List α}
    (plain : ∀ x ∈ piece, p x = false) (separates : p sep = true) :
    (∀ front sep' rest', piece ++ sep :: rest = front ++ sep' :: rest' → p sep' = true → good rest') ↔
      good rest ∧ ∀ front sep' rest', rest = front ++ sep' :: rest' → p sep' = true → good rest' := by
  constructor
  · intro all
    refine ⟨all piece sep rest rfl separates, ?_⟩
    rintro front sep' rest' rfl separates'
    exact all (piece ++ sep :: front) sep' rest' (by simp) separates'
  · rintro ⟨first, others⟩ front sep' rest' equal separates'
    rcases List.append_eq_append_iff.mp equal with ⟨between, rfl, after⟩ | ⟨between, rfl, after⟩
    · cases between with
      | nil =>
        cases after
        exact first
      | cons _ between =>
        cases after
        exact others between sep' rest' rfl separates'
    · cases between with
      | nil =>
        cases after
        exact first
      | cons _ between =>
        cases after
        cases separates'.symm.trans (plain sep' (by simp))

/-- Every piece begins with a good element if one is found at the beginning and behind each separator. -/
theorem forall_head {good : α → Prop} (l : List α) :
    (∀ piece ∈ l.splitOnP p, ∃ x ∈ piece.head?, good x) ↔
      (∃ x ∈ l.head?, p x = false ∧ good x) ∧
        ∀ front sep rest, l = front ++ sep :: rest → p sep = true → ∃ x ∈ rest.head?, p x = false ∧ good x := by
  induction l using piecewise (p := p) with
  | last piece plain =>
    rw [List.splitOnP_eq_singleton plain]
    have none : ∀ front sep rest, piece = front ++ sep :: rest → p sep = true → ∃ x ∈ rest.head?, p x = false ∧ good x := by
      rintro front sep rest rfl separates
      cases separates.symm.trans (plain sep (by simp))
    rw [and_iff_left none]
    cases piece with
    | nil => simp
    | cons x piece => simp [plain x (List.mem_cons_self ..)]
  | more piece sep rest plain separates ih =>
    rw [List.splitOnP_append_cons_of_forall_mem plain sep separates, List.forall_mem_cons, ih,
      @forall_separators α p (fun rest => ∃ x ∈ rest.head?, p x = false ∧ good x) piece sep rest plain separates]
    refine and_congr ?_ Iff.rfl
    cases piece with
    | nil => simp [separates]
    | cons x piece => simp [plain x (List.mem_cons_self ..)]

end Pieces
