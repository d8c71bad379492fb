import Evhtp.Proofs.Arrivals

/-! Lines that arrive in pieces. While its LF is missing a line is measured with its CR, and without it once it is
complete: the two measures disagree on one cut, between the CR and the LF of a line that is as long as allowed. -/

namespace Evhtp

structure VerdictStands (max : Nat) (data more : Bytes) : Prop where
  line : ∀ content used, takeLine max data = .line content used → takeLine max (data ++ more) = .line content used
  tooLong : takeLine max data = .tooLong → LF ∈ data ++ more → takeLine max (data ++ more) = .tooLong

/-- The bytes end with the CR of a line that is as long as allowed, and its LF comes next. -/
def CutAtCr (max : Nat) (data more : Bytes) : Prop :=
  max ≠ 0 ∧ data.length = max + 1 ∧ LF ∉ data ∧ data.getLast? = some CR ∧ more.head? = some LF

structure TextLine where
  content : Bytes
  ending : LineEnd
  noLf : LF ∉ content
  noCr : ending = .lf → content.getLast? ≠ some CR

def TextLine.bytes (line : TextLine) : Bytes := line.content ++ line.ending.bytes

def TextLine.Fits (line : TextLine) (max : Nat) : Prop := max = 0 ∨ line.content.length ≤ max

/-- However the line is cut, its first part is not refused. -/
def TextLine.NeverRefused (line : TextLine) (max : Nat) : Prop :=
  line.Fits max → ∀ data more, line.bytes = data ++ more → takeLine max data ≠ .tooLong

section
variable {max : Nat} {data more : Bytes}

theorem takeLine_noLf (noLf : LF ∉ data) :
    takeLine max data = if max ≠ 0 ∧ data.length > max then .tooLong else .incomplete := by
  rw [takeLine, takeWhile_noLf noLf, if_pos rfl]

theorem stripCr_length (data : Bytes) :
    (stripCr data).length = if data.getLast? = some CR then data.length - 1 else data.length := by
  unfold stripCr
  split
  · exact List.length_dropLast
  · rfl

theorem tooLong_stands (noLf : LF ∉ data) (refused : takeLine max data = .tooLong) (some : LF ∈ more) :
    takeLine max (data ++ more) = .tooLong ↔ ¬ CutAtCr max data more := by
  rw [takeLine_noLf noLf] at refused
  split at refused
  · next gone =>
    obtain ⟨first, rest, rfl, before⟩ := List.eq_append_cons_of_mem some
    have whole : LF ∉ data ++ first := by simp [noLf, before]
    have length := stripCr_length (data ++ first)
    rw [← List.append_assoc, takeLine_lf whole]
    constructor
    · rintro refused ⟨_, exact_, _, ends, next⟩
      have none : first = [] := by
        cases first with
        | nil => rfl
        | cons byte first => exact absurd (List.mem_cons.mpr (.inl (Option.some.inj next).symm)) before
      subst none
      rw [List.append_nil, if_pos ends] at length
      rw [List.append_nil, if_neg (by omega)] at refused
      cases refused
    · intro elsewhere
      apply if_pos
      refine ⟨gone.1, ?_⟩
      rw [length]
      split
      · next ends =>
        rw [List.length_append]
        cases first with
        | nil =>
          rw [List.append_nil] at ends
          have longer : data.length ≠ max + 1 := fun same => elsewhere ⟨gone.1, same, noLf, ends, rfl⟩
          simp only [List.length_nil]
          omega
        | cons byte first =>
          simp only [List.length_cons]
          omega
      · rw [List.length_append]
        omega
  · cases refused

theorem takeLine_stands (max : Nat) (data more : Bytes) : VerdictStands max data more ↔ ¬ CutAtCr max data more := by
  constructor
  · intro stands cut
    have refused : takeLine max data = .tooLong := by
      rw [takeLine_noLf cut.2.2.1, if_pos ⟨cut.1, by have := cut.2.1; omega⟩]
    have some : LF ∈ more := List.mem_of_mem_head? cut.2.2.2.2
    exact (tooLong_stands cut.2.2.1 refused some).mp (stands.tooLong refused (List.mem_append_right _ some)) cut
  · intro elsewhere
    refine ⟨fun content used taken => takeLine_append more taken, fun refused some => ?_⟩
    by_cases noLf : LF ∈ data
    · obtain ⟨first, rest, rfl, before⟩ := List.eq_append_cons_of_mem noLf
      rw [takeLine_lf before] at refused
      rw [List.append_assoc, List.cons_append, takeLine_lf before]
      split at refused
      · next gone => exact if_pos gone
      · cases refused
    · exact (tooLong_stands noLf refused ((List.mem_append.mp some).resolve_left noLf)).mpr elsewhere

theorem TextLine.cut (line : TextLine) (same : line.bytes = data ++ more) :
    (∃ raw, data = raw ++ [LF] ∧ LF ∉ raw ∧ stripCr raw = line.content) ∨
      LF ∉ data ∧ data <+: line.content ++ line.ending.bytes.dropLast := by
  have text : LF ∉ line.content ++ line.ending.bytes.dropLast := by
    have := line.noLf
    rcases line.ending.bytes_dropLast with none | cr <;> simp_all [CR, LF]
  by_cases whole : more = []
  · rw [whole, List.append_nil] at same
    refine .inl ⟨line.content ++ line.ending.bytes.dropLast, ?_, text, ?_⟩
    · rw [← same, TextLine.bytes]
      cases line.ending <;> simp [LineEnd.bytes]
    · cases ends : line.ending with
      | crlf => simp [stripCr, LineEnd.bytes]
      | lf =>
        have plain := line.noCr ends
        simp [stripCr, LineEnd.bytes, plain]
  · have front : data <+: line.content ++ line.ending.bytes.dropLast := by
      rw [← List.dropLast_append_of_ne_nil line.ending.bytes_ne_nil, ← TextLine.bytes, same,
        List.dropLast_append_of_ne_nil whole]
      exact List.prefix_append _ _
    exact .inr ⟨fun member => text (front.subset member), front⟩

/-- A line that fits is refused exactly if it ends with CRLF, its content is as long as allowed and it is cut before
its LF. -/
theorem TextLine.refused_iff (line : TextLine) (fits : line.Fits max) (same : line.bytes = data ++ more) :
    takeLine max data = .tooLong ↔
      (max ≠ 0 ∧ line.content.length = max ∧ line.ending = .crlf) ∧ data = line.content ++ [CR] := by
  rcases line.cut same with ⟨raw, rfl, noLf, strip⟩ | ⟨noLf, front⟩
  · have short : ¬(max ≠ 0 ∧ (stripCr raw).length > max) := by
      rw [strip]
      rcases fits with none | fits <;> omega
    rw [takeLine_lf noLf, if_neg short]
    refine ⟨nofun, fun ⟨_, cut⟩ => ?_⟩
    cases (List.append_inj' cut rfl).2
  · rw [takeLine_noLf noLf]
    have length := front.length_le
    constructor
    · intro refused
      split at refused
      · next gone =>
        have fits := fits.resolve_left gone.1
        cases ends : line.ending with
        | crlf =>
          rw [ends] at front length
          simp only [LineEnd.bytes, List.dropLast_cons_cons, List.dropLast_singleton, List.length_append,
            List.length_singleton] at front length
          exact ⟨⟨gone.1, by omega, rfl⟩, front.eq_of_length (by simp; omega)⟩
        | lf =>
          rw [ends] at length
          simp only [LineEnd.bytes, List.dropLast_singleton, List.append_nil] at length
          omega
      · cases refused
    · rintro ⟨⟨limited, long, _⟩, rfl⟩
      exact if_pos ⟨limited, by simp; omega⟩

theorem TextLine.neverRefused_iff (line : TextLine) (max : Nat) :
    line.NeverRefused max ↔ ¬(max ≠ 0 ∧ line.content.length = max ∧ line.ending = .crlf) := by
  constructor
  · rintro never ⟨limited, long, ends⟩
    have fits : line.Fits max := .inr (Nat.le_of_eq long)
    have same : line.bytes = (line.content ++ [CR]) ++ [LF] := by simp [TextLine.bytes, ends, LineEnd.bytes]
    exact never fits _ _ same ((line.refused_iff fits same).mpr ⟨⟨limited, long, ends⟩, rfl⟩)
  · intro other fits data more same refused
    exact other ((line.refused_iff fits same).mp refused).1

end

/-- What `take_line` says of the bytes that are there stands whatever follows, except at one cut, the only one at
which a line that fits is refused. -/
theorem line_verdict_stands (max : Nat) :
    (∀ data more, VerdictStands max data more ↔ ¬ CutAtCr max data more) ∧
      ∀ line : TextLine, line.NeverRefused max ↔ ¬(max ≠ 0 ∧ line.content.length = max ∧ line.ending = .crlf) :=
  ⟨takeLine_stands max, fun line => line.neverRefused_iff max⟩

/-- A line of two bytes, which is the limit, is refused when its LF is missing and accepted when it is there. -/
theorem line_verdict_changes :
    takeLine 2 [65, 66, CR] = .tooLong ∧ takeLine 2 [65, 66, CR, LF] = .line [65, 66] 4 ∧
      ¬ VerdictStands 2 [65, 66, CR] [LF] := by
  have refused : takeLine 2 [65, 66, CR] = .tooLong := by decide
  have accepted : takeLine 2 [65, 66, CR, LF] = .line [65, 66] 4 := by decide
  refine ⟨refused, accepted, fun stands => ?_⟩
  cases accepted.symm.trans (stands.tooLong refused (by decide))

end Evhtp
