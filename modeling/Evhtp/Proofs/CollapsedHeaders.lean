import Mathlib.Data.List.Nodup
import Evhtp.Proofs.HeaderLookup

/-! Joining repeated headers. The room that is made for the joined value is that of the separators only, so a value that
is not empty is written outside of it; and at most a hundred entries are joined. -/

namespace Evhtp

def joined (values : List Bytes) : Bytes := (ascii ", ").intercalate values

/-- What `evhtp_collapse_headers` promises: nothing is written outside of the buffer, and of two or more entries of a name
one is left, with all their values. -/
def Collapses (garbage : Nat → UInt8) (kvs : List NullKv) (key : Bytes) : Prop :=
  ∃ after, evhtpCollapseHeaders garbage kvs key = some after ∧
    (2 ≤ kvs.countP (named key) →
      (∃ name, after.filter (named key) = [⟨name, some (joined ((kvs.filter (named key)).map NullKv.value))⟩]) ∧
        after.filter (fun kv => !named key kv) = kvs.filter fun kv => !named key kv)

def joinText (i : Nat) : List NullKv → Bytes
  | [] => []
  | kv :: rest => (if i > 0 then ascii ", " else []) ++ (kv.value ++ joinText (i + 1) rest)

theorem joinLoop_eq (val : Bytes) (curp i : Nat) (kvs : List NullKv) :
    joinLoop val curp i kvs = (Buffer.copy val curp (joinText i kvs)).map fun val => (val, curp + (joinText i kvs).length) := by
  induction kvs generalizing val curp i with
  | nil => rfl
  | cons kv kvs ih =>
    have comma : ([44, 32] : Bytes) = ascii ", " := rfl
    unfold joinLoop joinText
    rw [comma]
    generalize (if i > 0 then ascii ", " else []) = separator
    simp only [ih, Buffer.copy_values_append, List.length_append, Nat.add_assoc]
    cases Buffer.copy val curp separator with
    | none => rfl
    | some val =>
      simp only [Option.bind_some]
      cases Buffer.copy val (curp + separator.length) kv.value <;> rfl

theorem joinText_eq (kvs : List NullKv) (i : Nat) :
    joinText (i + 1) kvs = kvs.flatMap fun kv => ascii ", " ++ kv.value := by
  induction kvs generalizing i with
  | nil => rfl
  | cons kv kvs ih => simp [joinText, ih]

theorem joinText_joined (kvs : List NullKv) : joinText 0 kvs = joined (kvs.map NullKv.value) := by
  cases kvs with
  | nil => rfl
  | cons kv kvs =>
    have rest : kv.value ++ (kvs.flatMap fun kv => ascii ", " ++ kv.value) = joined ((kv :: kvs).map NullKv.value) := by
      induction kvs generalizing kv with
      | nil => simp [joined]
      | cons next kvs ih =>
        have further := ih next
        unfold joined at further ⊢
        rw [List.map_cons, List.map_cons, List.intercalate_cons_cons, ← List.map_cons, ← further]
        simp
    simpa [joinText, joinText_eq] using rest

theorem joinText_length {kvs : List NullKv} (some : kvs ≠ []) :
    (joinText 0 kvs).length = 2 * (kvs.length - 1) + (kvs.flatMap NullKv.value).length := by
  obtain ⟨kv, kvs, rfl⟩ := List.exists_cons_of_ne_nil some
  have rest : (kvs.flatMap fun kv => ascii ", " ++ kv.value).length = 2 * kvs.length + (kvs.flatMap NullKv.value).length := by
    induction kvs with
    | nil => rfl
    | cons kv kvs ih =>
      have comma : (ascii ", ").length = 2 := rfl
      simp only [List.flatMap_cons, List.length_append, List.length_cons, comma, ih (List.cons_ne_nil _ _)]
      omega
  rw [joinText, joinText_eq, if_neg (Nat.lt_irrefl 0), List.nil_append, List.length_append, rest]
  simp only [List.length_cons, List.flatMap_cons, List.length_append]
  omega

theorem joinText_nul {kvs : List NullKv} (empty : ∀ kv ∈ kvs, kv.value = []) (i : Nat) : 0 ∉ joinText i kvs := by
  induction kvs generalizing i with
  | nil => exact List.not_mem_nil
  | cons kv kvs ih =>
    have comma : (0 : UInt8) ∉ if i > 0 then ascii ", " else [] := by split <;> decide
    have rest := ih (fun kv member => empty kv (List.mem_cons_of_mem _ member)) (i + 1)
    rw [joinText, empty kv (List.mem_cons_self ..), List.nil_append]
    exact fun member => (List.mem_append.mp member).elim comma rest

section
variable (garbage : Nat → UInt8) (kvs : List NullKv) (key : Bytes)

theorem collapse_results : (collapseSelect kvs key).results.map Prod.fst = (kvs.filter (named key)).take MAX_RESULTS := by
  rw [collapseSelect_eq, List.map_take, filter_zipIdx]

theorem collapse_vlen : (collapseSelect kvs key).vlen = 2 * ((collapseSelect kvs key).results.length - 1) := by
  rw [collapseSelect_eq]

def stays : List NullKv := removeResults kvs (collapseSelect kvs key).results

theorem collapse_copies (more : 1 < (collapseSelect kvs key).results.length) :
    evhtpCollapseHeaders garbage kvs key =
      (Buffer.copy ((List.range ((collapseSelect kvs key).vlen + 1)).map garbage) 0
        (joinText 0 ((collapseSelect kvs key).results.map Prod.fst) ++ [0])).map
          fun val => stays kvs key ++ [⟨key, some (cString val)⟩] := by
  unfold evhtpCollapseHeaders
  dsimp only
  rw [if_neg (Nat.not_le.mpr more), joinLoop_eq, Buffer.copy_values_append]
  cases Buffer.copy _ 0 (joinText 0 ((collapseSelect kvs key).results.map Prod.fst)) with
  | none => rfl
  | some val =>
    simp only [Option.map_some, Option.bind_some, Buffer.copy]
    cases Buffer.write val _ 0 <;> rfl

theorem collapse_isSome_iff (more : 1 < (collapseSelect kvs key).results.length) :
    (evhtpCollapseHeaders garbage kvs key).isSome ↔
      ∀ kv ∈ (kvs.filter (named key)).take MAX_RESULTS, kv.value = [] := by
  have some : (collapseSelect kvs key).results.map Prod.fst ≠ [] := by
    intro none
    rw [List.map_eq_nil_iff.mp none] at more
    cases more
  rw [collapse_copies garbage kvs key more, Option.isSome_map, Buffer.copy_isSome_iff (by simp), collapse_vlen]
  have count : ((collapseSelect kvs key).results.map Prod.fst).length = (collapseSelect kvs key).results.length := List.length_map _
  rw [List.length_append, joinText_length some, count, ← collapse_results, List.length_map, List.length_range]
  have empty : (((collapseSelect kvs key).results.map Prod.fst).flatMap NullKv.value).length = 0 ↔
      ∀ kv ∈ (collapseSelect kvs key).results.map Prod.fst, kv.value = [] := by
    rw [List.length_eq_zero_iff, List.flatMap_eq_nil_iff]
  rw [← empty, List.length_singleton]
  omega

variable {kvs key}

theorem collapse_count : (collapseSelect kvs key).results.length = min MAX_RESULTS (kvs.countP (named key)) := by
  have counted := congrArg List.length (collapse_results kvs key)
  rw [List.length_map, List.length_take, ← List.countP_eq_length_filter] at counted
  exact counted

theorem length_filter_zipIdx (test : NullKv → Bool) :
    (kvs.zipIdx.filter fun entry => test entry.1).length = kvs.countP test := by
  rw [List.countP_eq_length_filter, ← filter_zipIdx, List.length_map]

theorem stays_others (few : kvs.countP (named key) ≤ MAX_RESULTS) : stays kvs key = kvs.filter fun kv => !named key kv := by
  have all : (collapseSelect kvs key).results = kvs.zipIdx.filter fun entry => named key entry.1 := by
    rw [collapseSelect_eq]
    exact List.take_of_length_le ((length_filter_zipIdx (named key)).trans_le few)
  unfold stays removeResults
  rw [all, ← filter_zipIdx]
  congr 1
  refine List.filter_congr fun entry member => ?_
  simp [member]

theorem stays_named (many : MAX_RESULTS < kvs.countP (named key)) : ∃ kv ∈ stays kvs key, named key kv = true := by
  have long := many.trans_eq (length_filter_zipIdx (named key)).symm
  generalize matched : (kvs.zipIdx.filter fun entry => named key entry.1) = entries at long
  have distinct : entries.Nodup := by
    rw [← matched]
    refine List.Nodup.filter _ (List.Nodup.of_map Prod.snd ?_)
    simp [List.nodup_range']
  have results : (collapseSelect kvs key).results = entries.take MAX_RESULTS := by
    rw [collapseSelect_eq, matched]
  have member : entries.get ⟨MAX_RESULTS, long⟩ ∈ kvs.zipIdx.filter fun entry => named key entry.1 :=
    by rw [matched]; exact List.get_mem entries _
  have left : entries.get ⟨MAX_RESULTS, long⟩ ∉ (collapseSelect kvs key).results := by
    rw [results]
    intro taken
    obtain ⟨index, below, same⟩ := List.mem_take_iff_getElem.mp taken
    have equal := (List.Nodup.getElem_inj_iff distinct).mp same
    omega
  obtain ⟨present, passes⟩ := List.mem_filter.mp member
  exact ⟨_, List.mem_map.mpr ⟨_, List.mem_filter.mpr ⟨present, by simpa using left⟩, rfl⟩, passes⟩

/-- `evhtp_collapse_headers` keeps its promise if and only if there is nothing to join, or at most a hundred entries that
are all empty. -/
theorem collapse_headers_joins (garbage : Nat → UInt8) (kvs : List NullKv) (key : Bytes) :
    Collapses garbage kvs key ↔
      kvs.countP (named key) ≤ 1 ∨
        kvs.countP (named key) ≤ MAX_RESULTS ∧ ∀ kv ∈ kvs, named key kv = true → kv.value = [] := by
  by_cases one : kvs.countP (named key) ≤ 1
  · refine iff_of_true ⟨kvs, if_pos ?_, fun more => absurd more (by omega)⟩ (.inl one)
    rw [collapse_count]
    omega
  · have more : 1 < (collapseSelect kvs key).results.length := by
      rw [collapse_count, MAX_RESULTS]
      omega
    have self : ∀ val, named key ⟨key, val⟩ = true := fun val => by simp [named]
    constructor
    · rintro ⟨after, collapsed, promise⟩
      obtain ⟨⟨name, single⟩, -⟩ := promise (by omega)
      have empty := (collapse_isSome_iff garbage kvs key more).mp (by rw [collapsed]; rfl)
      rw [collapse_copies garbage kvs key more] at collapsed
      obtain ⟨val, -, rfl⟩ := Option.map_eq_some_iff.mp collapsed
      have few : kvs.countP (named key) ≤ MAX_RESULTS := by
        by_contra many
        obtain ⟨kv, member, same⟩ := stays_named (Nat.not_le.mp many)
        have kept : kv ∈ (stays kvs key).filter (named key) := List.mem_filter.mpr ⟨member, same⟩
        have count := congrArg List.length single
        rw [List.filter_append, List.length_append, List.filter_cons_of_pos (self _)] at count
        have none : ((stays kvs key).filter (named key)).length = 0 := Nat.succ.inj count
        rw [List.length_eq_zero_iff.mp none] at kept
        cases kept
      refine .inr ⟨few, fun kv member same => empty kv ?_⟩
      rw [List.take_of_length_le (List.countP_eq_length_filter ▸ few)]
      exact List.mem_filter.mpr ⟨member, same⟩
    · rintro (few | ⟨few, empty⟩)
      · exact absurd few one
      · have results := collapseSelect_named few
        have nothing : ∀ kv ∈ kvs.filter (named key), kv.value = [] := fun kv member =>
          empty kv (List.mem_filter.mp member).1 (List.mem_filter.mp member).2
        have written := (collapse_isSome_iff garbage kvs key more).mpr fun kv member => nothing kv (List.mem_of_mem_take member)
        rw [collapse_copies garbage kvs key more, Option.isSome_map] at written
        have fits := (Buffer.copy_isSome_iff (by simp)).mp written
        rw [Nat.zero_add] at fits
        have copied := Buffer.copy_append [] fits
        rw [List.nil_append, List.nil_append, List.length_nil, results, List.append_assoc] at copied
        refine ⟨_, by rw [collapse_copies garbage kvs key more, results, copied, Option.map_some], fun _ => ⟨⟨key, ?_⟩, ?_⟩⟩
        · have others : (stays kvs key).filter (named key) = [] := by
            rw [stays_others few, List.filter_filter]
            simp
          rw [List.filter_append, others, List.filter_cons_of_pos (self _), List.singleton_append,
            cString_eq (joinText_nul nothing 0), joinText_joined]
          rfl
        · rw [List.filter_append, stays_others few, List.filter_filter]
          simp [self]

end

/-- Two values of one byte each: there is room for the separator and the terminator only. -/
theorem collapse_headers_overflow :
    ¬ Collapses (fun _ => 0) [⟨ascii "Accept", some (ascii "a")⟩, ⟨ascii "Accept", some (ascii "b")⟩] (ascii "accept") := by
  rintro ⟨after, collapsed, -⟩
  have outside : evhtpCollapseHeaders (fun _ => 0)
      [⟨ascii "Accept", some (ascii "a")⟩, ⟨ascii "Accept", some (ascii "b")⟩] (ascii "accept") = none := by decide +kernel
  cases outside.symm.trans collapsed

end Evhtp
