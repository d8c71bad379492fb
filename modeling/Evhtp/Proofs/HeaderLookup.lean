import Evhtp.Headers
import Evhtp.Lib.FirstMatch

/-! What finding, counting and joining headers take to be the same name. The first two compare bytes with one bit set,
which tells letters of either case from each other no more, but other bytes as well. -/

namespace Evhtp

def named (name : Bytes) (kv : NullKv) : Bool := kv.key.map toLower == name.map toLower

/-- An entry that is taken for one of a name it does not have. -/
def Mistaken (key : Bytes) (len : Nat) (kv : NullKv) : Prop :=
  matchHeaderKeyN key len kv = true ∧ named (key.take len) kv = false

instance (key : Bytes) (len : Nat) (kv : NullKv) : Decidable (Mistaken key len kv) := inferInstanceAs (Decidable (_ ∧ _))

/-- An entry whose name is a key but for bit `0x20` of its bytes. -/
def alike (key : Bytes) (kv : NullKv) : Bool := kv.key.map (· ||| 0x20) == key.map (· ||| 0x20)

/-- The entries of one kind go in pairs with those of another, and none is left over. -/
def PairedOff (kvs : List NullKv) (first second : NullKv → Bool) : Prop :=
  ∃ pairs : List (NullKv × NullKv), pairs.map Prod.fst = kvs.filter first ∧ pairs.map Prod.snd = kvs.filter second

/-- The functions agree on the entries with the name that the first bytes of a key are. -/
structure LookupAgrees (kvs : List NullKv) (key : Bytes) (len : Nat) : Prop where
  entry : evhtpKvsFindKvN kvs key len = kvs.find? (named (key.take len))
  value : evhtpKvFindN kvs key len = (kvs.find? (named (key.take len))).bind NullKv.val
  count : evhtpKvsCountKvN kvs key len = kvs.countP (named (key.take len))
  selected : len = key.length → kvs.countP (named key) < MAX_RESULTS →
    (collapseSelect kvs key).results.map Prod.fst = kvs.filter (named key)

theorem matchHeaderKeyN_of_named {key : Bytes} {len : Nat} (inside : len ≤ key.length) {kv : NullKv}
    (same : named (key.take len) kv = true) : matchHeaderKeyN key len kv = true := by
  have folded : kv.key.map toLower = (key.take len).map toLower := by simpa [named] using same
  have size : kv.key.length = len := by simpa [inside] using congrArg List.length folded
  have bits := congrArg (List.map (· ||| 0x20)) folded
  simp only [List.map_map, Function.comp_def, toLower_bit] at bits
  simp [matchHeaderKeyN, size, bits]

theorem collapses_eq_named (key : Bytes) : collapses key = named key := by
  funext kv
  unfold collapses named
  by_cases same : kv.key.map toLower = key.map toLower
  · have size : kv.key.length = key.length := by simpa using congrArg List.length same
    simp [same, size]
  · simp [same]

/-- The first loop, from any place on: it takes the entries of the name as long as there is room for them. -/
theorem foldl_collapseStep (key : Bytes) (entries : List (NullKv × Nat)) {s : Collapsing} (room : s.results.length ≤ MAX_RESULTS)
    (counted : s.vlen = 2 * (s.results.length - 1)) :
    entries.foldl (collapseStep key) s =
      let results := s.results ++ (entries.filter fun entry => named key entry.1).take (MAX_RESULTS - s.results.length)
      ⟨results, 2 * (results.length - 1)⟩ := by
  induction entries generalizing s with
  | nil => simp [← counted]
  | cons entry entries ih =>
    rw [List.foldl_cons]
    by_cases full : s.results.length = MAX_RESULTS
    · have stays : collapseStep key s entry = s := if_pos full
      rw [stays, ih room counted, full]
      simp
    · by_cases same : named key entry.1 = true
      · have taken : collapseStep key s entry = ⟨s.results ++ [entry], 2 * s.results.length⟩ := by
          unfold collapseStep
          rw [if_neg full, collapses_eq_named, if_pos same, counted]
          congr 1
          split <;> omega
        have left : MAX_RESULTS - s.results.length = MAX_RESULTS - (s.results.length + 1) + 1 := by omega
        rw [taken, ih (by simp only [List.length_append, List.length_singleton]; omega) (by simp)]
        simp [same, left]
      · have passed : collapseStep key s entry = s := by
          unfold collapseStep
          rw [if_neg full, collapses_eq_named, if_neg same]
        rw [passed, ih room counted]
        simp [same]

/-- The entries that are joined, and the room that is made for them. -/
theorem collapseSelect_eq (kvs : List NullKv) (key : Bytes) :
    collapseSelect kvs key =
      let results := (kvs.zipIdx.filter fun entry => named key entry.1).take MAX_RESULTS
      ⟨results, 2 * (results.length - 1)⟩ := by
  unfold collapseSelect
  rw [foldl_collapseStep key _ (Nat.zero_le _) rfl]
  simp

theorem filter_zipIdx (test : NullKv → Bool) (kvs : List NullKv) :
    (kvs.zipIdx.filter fun entry => test entry.1).map Prod.fst = kvs.filter test := by
  have whole : kvs.zipIdx.map Prod.fst = kvs := by simp
  conv_rhs => rw [← whole, List.filter_map]
  rfl

/-- Joining selects the entries of the name, as long as there are few enough. -/
theorem collapseSelect_named {kvs : List NullKv} {key : Bytes} (few : kvs.countP (named key) ≤ MAX_RESULTS) :
    (collapseSelect kvs key).results.map Prod.fst = kvs.filter (named key) := by
  rw [collapseSelect_eq, List.map_take, filter_zipIdx]
  exact List.take_of_length_le (List.countP_eq_length_filter ▸ few)

theorem matchHeaderKeyN_whole (key : Bytes) : matchHeaderKeyN key key.length = alike key := by
  funext kv
  unfold matchHeaderKeyN alike
  rw [List.take_length]
  by_cases same : kv.key.map (· ||| 0x20) = key.map (· ||| 0x20)
  · have size : kv.key.length = key.length := by simpa using congrArg List.length same
    simp [same, size]
  · simp [same]

theorem countP_eq_iff_pairedOff (kvs : List NullKv) (first second : NullKv → Bool) :
    kvs.countP first = kvs.countP second ↔ PairedOff kvs first second := by
  rw [List.countP_eq_length_filter, List.countP_eq_length_filter]
  constructor
  · intro same
    exact ⟨(kvs.filter first).zip (kvs.filter second), List.map_fst_zip (Nat.le_of_eq same), List.map_snd_zip (Nat.le_of_eq same.symm)⟩
  · rintro ⟨pairs, left, right⟩
    rw [← left, ← right, List.length_map, List.length_map]

/-- Finding, counting and joining agree on the entries of a name if and only if no entry is mistaken for one of them. For
the whole key this is no entry at all. For its first bytes it is none before the first entry of the name; and since the
length is not used for counting, each entry that is like the whole key has to stand for one of the name. -/
theorem header_lookup_agrees (kvs : List NullKv) (key : Bytes) (len : Nat) (inside : len ≤ key.length) :
    LookupAgrees kvs key len ↔
      if len = key.length then ∀ kv ∈ kvs, ¬ Mistaken key len kv
      else
        (∀ before kv after, kvs = before ++ kv :: after → Mistaken key len kv →
          ∃ other ∈ before, named (key.take len) other = true) ∧
        PairedOff kvs (alike key) (named (key.take len)) := by
  have implies : ∀ kv, named (key.take len) kv = true → matchHeaderKeyN key len kv = true :=
    fun kv => matchHeaderKeyN_of_named inside
  have found := FirstMatch.find?_wider_iff (l := kvs) implies
  have split : LookupAgrees kvs key len ↔
      kvs.find? (matchHeaderKeyN key len) = kvs.find? (named (key.take len)) ∧
        kvs.countP (matchHeaderKeyN key key.length) = kvs.countP (named (key.take len)) := by
    constructor
    · intro agrees
      exact ⟨agrees.entry, agrees.count⟩
    · rintro ⟨entry, count⟩
      exact ⟨entry, congrArg (Option.bind · NullKv.val) entry, count, fun _ few => collapseSelect_named (Nat.le_of_lt few)⟩
  rw [split]
  by_cases whole : len = key.length
  · have counted := FirstMatch.countP_wider_iff (l := kvs) implies
    subst whole
    rw [if_pos rfl, counted, found]
    constructor
    · rintro ⟨-, every⟩ kv member ⟨passes, fails⟩
      cases (every kv member passes).symm.trans fails
    · intro none
      refine ⟨fun before kv after split passes fails => ?_, fun kv member passes => ?_⟩
      · exact absurd ⟨passes, fails⟩ (none kv (by simp [split]))
      · by_contra fails
        exact none kv member ⟨passes, by simpa using fails⟩
  · rw [if_neg whole, found, matchHeaderKeyN_whole, countP_eq_iff_pairedOff]
    simp only [Mistaken, and_imp]

/-- Two names that differ in the case of letters only, and a list that has one entry of each length. -/
theorem header_lookup_agrees_cookie :
    LookupAgrees [⟨ascii "Set-Cookie", some (ascii "a=1")⟩, ⟨ascii "set-cookie", none⟩] (ascii "SET-COOKIE") 10 ∧
      LookupAgrees [⟨ascii "Set-Cookie", none⟩, ⟨ascii "set", none⟩] (ascii "SET-COOKIE") 3 := by
  constructor
  · refine (header_lookup_agrees _ (ascii "SET-COOKIE") 10 (by decide)).mpr ?_
    rw [if_pos (by decide)]
    decide
  · refine (header_lookup_agrees _ (ascii "SET-COOKIE") 3 (by decide)).mpr ?_
    rw [if_neg (by decide)]
    refine ⟨fun before kv after split mistaken => ?_, [(⟨ascii "Set-Cookie", none⟩, ⟨ascii "set", none⟩)], by decide, by decide⟩
    have member : kv ∈ [(⟨ascii "Set-Cookie", none⟩ : NullKv), ⟨ascii "set", none⟩] := by simp [split]
    have none : ∀ kv ∈ [(⟨ascii "Set-Cookie", none⟩ : NullKv), ⟨ascii "set", none⟩], ¬ Mistaken (ascii "SET-COOKIE") 3 kv := by decide
    exact absurd mistaken (none kv member)

/-- A caret and a tilde differ in the bit that tells the cases of a letter apart, and both may stand in a name. -/
theorem header_lookup_mistaken : ¬ LookupAgrees [⟨ascii "X~Id", some (ascii "1")⟩] (ascii "X^Id") 4 := by
  intro agrees
  have found := agrees.entry
  revert found
  decide

end Evhtp
