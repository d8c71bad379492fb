import Evhtp.PathScan

/-! `htp__path_new_` cuts its input behind the last slash and reads nothing else. With its reads it computes what
`pathNew` does, for any bytes. -/

namespace Evhtp

variable {data : Bytes}

theorem readByte_eq {i : Nat} {byte : UInt8} (there : data[i]? = some byte) : readByte data i = .ok byte := by
  rw [readByte, there]

theorem htpStrndup_eq {start n : Nat} (inside : start + n ≤ data.length) :
    htpStrndup data start n = .ok (cString ((data.drop start).take n)) := by
  induction n generalizing start with
  | zero => rfl
  | succ n ih =>
    have here : start < data.length := by omega
    rw [htpStrndup, readByte_eq (List.getElem?_eq_getElem here), List.drop_eq_getElem_cons here, List.take_succ_cons, cString,
      List.takeWhile_cons]
    by_cases nul : data[start] = 0
    · simp [Except.bind, nul]
    · have rest := ih (show start + 1 + n ≤ data.length by omega)
      simp [Except.bind, nul, rest, cString, Except.map]

theorem htpStrndup_all : htpStrndup data 0 data.length = .ok (cString data) := by
  rw [htpStrndup_eq (Nat.le_of_eq (Nat.zero_add _)), List.drop_zero, List.take_length]

/-- The loop stops at the last slash, or at the front if there is none behind it. -/
theorem backToSlash_eq {i : Nat} (inside : i < data.length) : ∃ k ≤ i, backToSlash data i = .ok k ∧
    (k ≠ 0 → data[k]? = some 47) ∧ ∀ j, k < j → j ≤ i → data[j]? ≠ some 47 := by
  induction i with
  | zero => exact ⟨0, Nat.le_refl 0, rfl, fun some => absurd rfl some, fun j above below => by omega⟩
  | succ i ih =>
    have here := List.getElem?_eq_getElem inside
    rw [backToSlash, readByte_eq here]
    by_cases slash : data[i + 1] = 47
    · refine ⟨i + 1, Nat.le_refl _, by simp [Except.bind, slash], fun _ => by rw [here, slash], fun j above below => by omega⟩
    · obtain ⟨k, le, stops, found, none⟩ := ih (by omega)
      refine ⟨k, by omega, by simpa [Except.bind, slash] using stops, found, fun j above below => ?_⟩
      rcases Nat.lt_or_eq_of_le below with less | rfl
      · exact none j above (by omega)
      · rw [here]
        simpa using slash

theorem splitFile_eq {path file : Bytes} (ends : path.getLast? = some 47) (plain : 47 ∉ file) :
    splitFile (path ++ file) = (path, file) := by
  obtain ⟨front, rfl⟩ := List.getLast?_eq_some_iff.mp ends
  have reversed : ((front ++ [47] ++ file).reverse.takeWhile (· != 47)).reverse = file := by
    rw [List.reverse_append, List.takeWhile_append_of_pos, List.reverse_append]
    · simp
    · intro byte member
      have other : byte ≠ 47 := fun slash => plain (slash ▸ List.mem_reverse.mp member)
      simpa using other
  unfold splitFile
  rw [reversed]
  dsimp only
  rw [List.length_append, Nat.add_sub_cancel, List.take_left]

theorem backToSlash_last (origin : data[0]? = some 47) : ∃ k < data.length, backToSlash data (data.length - 1) = .ok k ∧
    (data.take (k + 1)).getLast? = some 47 ∧ 47 ∉ data.drop (k + 1) := by
  have some : 0 < data.length := (List.getElem?_eq_some_iff.mp origin).1
  obtain ⟨k, le, stops, found, none⟩ := @backToSlash_eq data (data.length - 1) (by omega)
  have here : data[k]? = Option.some 47 := by
    by_cases zero : k = 0
    · rw [zero, origin]
    · exact found zero
  refine ⟨k, by omega, stops, ?_, fun member => ?_⟩
  · rw [List.getLast?_eq_getElem?, List.length_take, Nat.min_eq_left (by omega), List.getElem?_take_of_lt (by omega)]
    exact here
  · obtain ⟨j, below, same⟩ := List.mem_iff_getElem.mp member
    rw [List.length_drop] at below
    rw [List.getElem_drop] at same
    exact none (k + 1 + j) (by omega) (by omega) (by rw [List.getElem?_eq_getElem (by omega), same])

theorem splitAtSlash_eq {k : Nat} (more : k + 1 < data.length) (origin : data[0]? = some 47) :
    splitAtSlash data k = .ok (some (cString (data.take (k + 1))), some (cString (data.drop (k + 1)))) := by
  have rest : (data.drop (k + 1)).take (data.length - (k + 1)) = data.drop (k + 1) :=
    List.take_of_length_le (by rw [List.length_drop])
  have copied := htpStrndup_eq (show k + 1 + (data.length - (k + 1)) ≤ data.length by omega)
  rw [rest] at copied
  unfold splitAtSlash
  by_cases zero : k = 0
  · subst zero
    have slash : data.take 1 = [47] := by
      obtain ⟨rest, rfl⟩ := List.head?_eq_some_iff.mp ((List.head?_eq_getElem? ..).trans origin)
      rfl
    rw [if_neg (by simp), readByte_eq origin, slash]
    simp only [Except.bind, if_true, if_pos (show data.length > 1 by omega)]
    rw [copied]
    rfl
  · rw [if_pos zero]
    dsimp only
    rw [if_neg (by omega), if_neg (by omega), htpStrndup_eq (by omega), copied]
    rfl

def Path.parts (path : Path) : PathParts := ⟨path.full, some path.path, path.file⟩

theorem cut_inside {k : Nat} {last : UInt8} (slash : (data.take (k + 1)).getLast? = some 47)
    (ends : data.getLast? = some last) (other : last ≠ 47) : k + 1 < data.length := by
  by_contra short
  rw [List.take_of_length_le (by omega), ends] at slash
  exact other (Option.some.inj slash)

theorem backToSlash_splits (origin : data[0]? = some 47) {last : UInt8} (ends : data.getLast? = some last) (other : last ≠ 47) :
    (backToSlash data (data.length - 1)).bind (splitAtSlash data) =
      .ok (some (cString (splitFile data).1), some (cString (splitFile data).2)) := by
  obtain ⟨k, -, stops, slash, plain⟩ := backToSlash_last origin
  have parts := splitFile_eq slash plain
  rw [List.take_append_drop] at parts
  rw [stops, parts]
  exact splitAtSlash_eq (cut_inside slash ends other) origin

/-- The function stores what `pathNew` says, and it does not leave the data to find it. -/
theorem htpPathNew_eq (data : Bytes) : htpPathNew data = .ok (pathNew data).parts := by
  cases data with
  | nil => rfl
  | cons first rest =>
    have some : (first :: rest).length ≠ 0 := by simp
    unfold htpPathNew pathNew pathAndFile
    rw [if_neg some, if_pos some, htpStrndup_all, readByte_eq (show (first :: rest)[0]? = Option.some first from rfl)]
    by_cases origin : first = 47
    · subst origin
      obtain ⟨last, ends⟩ : ∃ last, (47 :: rest).getLast? = Option.some last := ⟨_, List.getLast?_eq_some_getLast (by simp)⟩
      have read : readByte (47 :: rest) ((47 :: rest).length - 1) = .ok last :=
        readByte_eq (List.getLast?_eq_getElem?.symm.trans ends)
      have split := backToSlash_splits rfl ends
      simp only [Except.bind, ne_eq, not_true_eq_false, if_false, read, ends, Option.some.injEq] at split ⊢
      by_cases slash : last = 47
      · rw [if_neg (not_not.mpr slash), if_pos slash]
        rfl
      · rw [if_pos slash, if_neg slash, split slash]
        rfl
    · simp only [Except.bind, ne_eq, origin, not_false_eq_true, if_true]
      rfl

/-- Splitting a path loses nothing: the path ends with the last slash, and the file is what follows it. -/
theorem path_splitting_lossless (origin : data.head? = some 47) (noNul : 0 ∉ data) : ∃ path file,
    htpPathNew data = .ok ⟨data, some path, file⟩ ∧ path ++ file.getD [] = data ∧ path.getLast? = some 47 ∧
      ∀ name ∈ file, name ≠ [] ∧ 47 ∉ name := by
  obtain ⟨rest, rfl⟩ := List.head?_eq_some_iff.mp origin
  have text : ∀ part, part <:+: 47 :: rest → cString part = part := fun part inside =>
    cString_self fun member => noNul (inside.subset member)
  rw [htpPathNew_eq]
  simp only [pathNew, ne_eq, not_true_eq_false, if_false, text _ List.infix_rfl]
  by_cases slash : (47 :: rest).getLast? = some 47
  · rw [if_pos slash]
    exact ⟨_, none, rfl, List.append_nil _, slash, by simp⟩
  · obtain ⟨last, ends⟩ : ∃ last, (47 :: rest).getLast? = some last := ⟨_, List.getLast?_eq_some_getLast (by simp)⟩
    have other : last ≠ 47 := fun same => slash (same ▸ ends)
    obtain ⟨k, -, -, cut, plain⟩ := @backToSlash_last (47 :: rest) rfl
    have more := cut_inside cut ends other
    have parts := splitFile_eq cut plain
    rw [List.take_append_drop] at parts
    rw [if_neg slash, parts]
    refine ⟨_, some ((47 :: rest).drop (k + 1)), ?_, List.take_append_drop (k + 1) _, cut, ?_⟩
    · dsimp only [Path.parts]
      rw [text _ (List.take_prefix _ _).isInfix, text _ (List.drop_suffix _ _).isInfix]
    · rintro name ⟨⟩
      refine ⟨fun none => ?_, plain⟩
      have empty := List.drop_eq_nil_iff.mp none
      omega

theorem path_splitting_lossless_file :
    htpPathNew (ascii "/a//b") = .ok ⟨ascii "/a//b", some (ascii "/a//"), some (ascii "b")⟩ ∧ ∃ path file,
      htpPathNew (ascii "/a//b") = .ok ⟨ascii "/a//b", some path, file⟩ ∧ path ++ file.getD [] = ascii "/a//b" ∧
        path.getLast? = some 47 ∧ ∀ name ∈ file, name ≠ [] ∧ 47 ∉ name :=
  ⟨by decide, path_splitting_lossless (by decide) (by decide)⟩

end Evhtp
