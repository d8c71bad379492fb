import Evhtp.H2Request

/-! What an HTTP/2 client sends: which headers are left out, and that the two passes over them agree. -/

namespace Evhtp

/-- The elements of a value, between its commas and without the blanks around them. -/
def listElements (value : Bytes) : List Bytes := (value.splitOn 44).map trimBlanks

/-- A name is an element of a value, in letters of any case. An empty name is one only if the last element is empty. -/
def Lists (value name : Bytes) : Prop :=
  if name = [] then value ≠ [] ∧ (listElements value).getLast? = some []
  else ∃ element ∈ listElements value, element.map toLower = name.map toLower

instance (value name : Bytes) : Decidable (Lists value name) := inferInstanceAs (Decidable (ite ..))

/-- A Connection header of the list names a field; `lists` is what it means that its value does. -/
def NamedBy (lists : Bytes → Bytes → Prop) (headers : List Kv) (name : Bytes) : Prop :=
  ∃ kv ∈ headers, kv.key.map toLower = ascii "connection" ∧ lists (cString kv.val) name

instance (lists : Bytes → Bytes → Prop) [∀ value name, Decidable (lists value name)] (headers : List Kv) (name : Bytes) :
    Decidable (NamedBy lists headers name) := inferInstanceAs (Decidable (∃ kv ∈ headers, _ ∧ _))

def HopByHop (kv : Kv) : Prop := kv.key.map toLower ∈ hopByHopNames

/-- The rule for a header that a request may carry. The value of TE decides about it alone, whatever Connection names. -/
def MayCarry (headers : List Kv) (kv : Kv) : Prop :=
  ¬ HopByHop kv ∧
    if kv.key.map toLower = ascii "te" then kv.val.map toLower = ascii "trailers" else ¬ NamedBy Lists headers kv.key

instance (headers : List Kv) (kv : Kv) : Decidable (MayCarry headers kv) := inferInstanceAs (Decidable (¬ _ ∈ _ ∧ ite ..))

theorem sameLetters_iff {first second : Bytes} : sameLetters first second = true ↔ first.map toLower = second.map toLower := by
  unfold sameLetters
  constructor
  · intro same
    simpa using (Bool.and_eq_true_iff.mp same).2
  · intro same
    have size : first.length = second.length := by simpa using congrArg List.length same
    simp [same, size]

section
variable {name : Bytes} {byte : UInt8} {value text : Bytes}

theorem listElements_comma (value : Bytes) : listElements (44 :: value) = [] :: listElements value := by
  simp [listElements, List.splitOn_cons_eq_if_modifyHead, trimBlanks]

theorem listElements_blank (blank : isBlank byte = true) (value : Bytes) :
    listElements (byte :: value) = listElements value := by
  have other : (byte == 44) = false := by
    by_contra comma
    have : byte = 44 := by simpa using comma
    subst this
    cases blank
  have trimmed : ∀ piece, trimBlanks (byte :: piece) = trimBlanks piece := by
    intro piece
    simp [trimBlanks, blank]
  unfold listElements
  rw [List.splitOn_cons_eq_if_modifyHead, other]
  cases pieces : value.splitOn 44 with
  | nil => exact absurd pieces (List.splitOn_ne_nil _ _)
  | cons piece pieces => simp [trimmed]

theorem lists_nil : ¬ Lists [] name := by
  unfold Lists
  split
  · exact fun listed => listed.1 rfl
  · next some =>
    rintro ⟨element, member, same⟩
    obtain rfl : element = [] := by simpa [listElements, trimBlanks] using member
    exact some (List.map_eq_nil_iff.mp same.symm)

/-- A separator in front makes a difference to an empty rest only. -/
theorem lists_separator (separator : isListSeparator byte = true) :
    Lists (byte :: value) name ↔ if value = [] then name = [] else Lists value name := by
  have same : (listElements (byte :: value)).getLast? = (listElements value).getLast? ∧
      ∀ element, element ≠ [] → (element ∈ listElements (byte :: value) ↔ element ∈ listElements value) := by
    rcases Bool.or_eq_true_iff.mp separator with blank | comma
    · rw [listElements_blank blank]
      exact ⟨rfl, fun _ _ => Iff.rfl⟩
    · obtain rfl : byte = 44 := by simpa using comma
      rw [listElements_comma]
      refine ⟨?_, fun element some => by simp [some]⟩
      cases elements : listElements value with
      | nil => simp [listElements] at elements
      | cons first rest => rfl
  have first : (listElements []).getLast? = some [] := rfl
  by_cases empty : name = []
  · subst empty
    by_cases last : value = []
    · subst last
      simp [Lists, same.1, first]
    · simp [Lists, same.1, last]
  · have found : Lists (byte :: value) name ↔ Lists value name := by
      have some : ∀ element : Bytes, element.map toLower = name.map toLower → element ≠ [] := by
        rintro _ equal rfl
        exact empty (List.map_eq_nil_iff.mp equal.symm)
      simp only [Lists, empty, if_false]
      constructor
      · rintro ⟨element, member, equal⟩
        exact ⟨element, (same.2 element (some element equal)).mp member, equal⟩
      · rintro ⟨element, member, equal⟩
        exact ⟨element, (same.2 element (some element equal)).mpr member, equal⟩
    by_cases last : value = []
    · subst last
      simpa [empty, found] using lists_nil
    · rw [found, if_neg last]

theorem trimBlanks_text (notBlank : isBlank byte = false) (text : Bytes) :
    trimBlanks (byte :: text) = (byte :: text).rdropWhile isBlank ∧ (byte :: text).rdropWhile isBlank ≠ [] := by
  constructor
  · rw [trimBlanks, List.dropWhile_cons_of_neg (by simp [notBlank])]
  · intro none
    have passes := List.rdropWhile_eq_nil_iff.mp none byte (List.mem_cons_self ..)
    cases notBlank.symm.trans passes

theorem lists_last (notBlank : isBlank byte = false) (plain : 44 ∉ byte :: text) :
    Lists (byte :: text) name ↔ ((byte :: text).rdropWhile isBlank).map toLower = name.map toLower := by
  obtain ⟨trimmed, some⟩ := trimBlanks_text notBlank text
  have elements : listElements (byte :: text) = [(byte :: text).rdropWhile isBlank] := by
    rw [listElements, List.splitOn_eq_singleton plain, List.map_singleton, trimmed]
  by_cases empty : name = []
  · simp [Lists, elements, empty, some]
  · simp [Lists, elements, empty]

theorem lists_first (notBlank : isBlank byte = false) (plain : 44 ∉ byte :: text) (rest : Bytes) :
    Lists (byte :: text ++ 44 :: rest) name ↔
      ((byte :: text).rdropWhile isBlank).map toLower = name.map toLower ∨ Lists (44 :: rest) name := by
  obtain ⟨trimmed, some⟩ := trimBlanks_text notBlank text
  have elements : listElements (byte :: text ++ 44 :: rest) = (byte :: text).rdropWhile isBlank :: listElements rest := by
    rw [listElements, List.splitOn_append_cons_self_of_not_mem plain, List.map_cons, trimmed]
    rfl
  by_cases empty : name = []
  · have last : ∀ first, (first :: listElements rest).getLast? = (listElements rest).getLast? := by
      intro first
      cases pieces : listElements rest with
      | nil => simp [listElements] at pieces
      | cons second others => rfl
    simp only [Lists, empty, if_true, elements, listElements_comma, last]
    simp [some]
  · simp only [Lists, empty, if_false, elements, listElements_comma]
    simp [empty]

theorem lists_element (other : isListSeparator byte = false) :
    Lists (byte :: value) name ↔
      (((byte :: value).takeWhile (· != 44)).rdropWhile isBlank).map toLower = name.map toLower ∨
        Lists ((byte :: value).dropWhile (· != 44)) name := by
  obtain ⟨notBlank, notComma⟩ := Bool.or_eq_false_iff.mp other
  have front : (byte :: value).takeWhile (· != 44) = byte :: value.takeWhile (· != 44) := by simp [bne, notComma]
  have after : (byte :: value).dropWhile (· != 44) = value.dropWhile (· != 44) := by simp [bne, notComma]
  rw [front, after]
  have whole : byte :: value = byte :: value.takeWhile (· != 44) ++ value.dropWhile (· != 44) := by simp
  have plain : 44 ∉ byte :: value.takeWhile (· != 44) := by
    intro member
    rcases List.mem_cons.mp member with rfl | member
    · cases notComma
    · cases List.mem_takeWhile_imp member
  conv_lhs => rw [whole]
  cases back : value.dropWhile (· != 44) with
  | nil => rw [List.append_nil, or_iff_left lists_nil, lists_last notBlank plain]
  | cons comma rest =>
    have stops := List.head?_dropWhile_not (· != 44) value
    rw [back] at stops
    obtain rfl : comma = 44 := by simpa using stops
    rw [lists_first notBlank plain]

end

section
variable {name value : Bytes} {byte : UInt8}

theorem h2ConnectionLists_turn (some : byte ≠ 0) (p : Bytes) :
    h2ConnectionLists name (byte :: p) =
      (skipSeparators (byte :: p)).bind fun p => (elementEnd p).bind fun found =>
        if sameLetters (found.1.rdropWhile isBlank) name then Option.some true else h2ConnectionLists name found.2 := by
  conv_lhs => unfold h2ConnectionLists
  rw [dif_neg some]
  split
  · next none =>
    conv_rhs => rw [none]
    rfl
  · next p skipped =>
    conv_rhs => rw [skipped, Option.bind_some]
    split
    · next none =>
      conv_rhs => rw [none]
      rfl
    · next found ends =>
      conv_rhs => rw [ends, Option.bind_some]

theorem elementEnd_eq (noNul : 0 ∉ value) (rest : Bytes) :
    elementEnd (value ++ 0 :: rest) = some (value.takeWhile (· != 44), value.dropWhile (· != 44) ++ 0 :: rest) := by
  induction value with
  | nil => rfl
  | cons byte value ih =>
    have some : byte ≠ 0 := fun zero => noNul (zero ▸ List.mem_cons_self ..)
    rw [List.cons_append, elementEnd, ih fun member => noNul (List.mem_cons_of_mem _ member)]
    by_cases comma : byte = 44
    · subst comma
      rfl
    · simp [some, comma]

theorem h2ConnectionLists_ended (rest : Bytes) : h2ConnectionLists name (0 :: rest) = some false := by
  unfold h2ConnectionLists
  rfl

theorem h2ConnectionLists_separator (separator : isListSeparator byte = true) (noNul : 0 ∉ byte :: value)
    (rest : Bytes) :
    h2ConnectionLists name (byte :: value ++ 0 :: rest) =
      if value = [] then some (name == []) else h2ConnectionLists name (value ++ 0 :: rest) := by
  have some : byte ≠ 0 := fun zero => noNul (zero ▸ List.mem_cons_self ..)
  have skip : ∀ p, skipSeparators (byte :: p) = skipSeparators p := by
    intro p
    simp [skipSeparators, separator]
  rw [List.cons_append, h2ConnectionLists_turn some, skip]
  cases value with
  | nil =>
    have stays : skipSeparators (0 :: rest) = Option.some (0 :: rest) := rfl
    have nothing : elementEnd (0 :: rest) = Option.some ([], 0 :: rest) := rfl
    rw [List.nil_append, stays, Option.bind_some, nothing, Option.bind_some, h2ConnectionLists_ended]
    cases name <;> rfl
  | cons next value =>
    have further : next ≠ 0 := fun zero => noNul (by simp [zero])
    rw [if_neg (List.cons_ne_nil _ _), List.cons_append, h2ConnectionLists_turn further]

theorem h2ConnectionLists_element (other : isListSeparator byte = false) (noNul : 0 ∉ byte :: value)
    (rest : Bytes) :
    h2ConnectionLists name (byte :: value ++ 0 :: rest) =
      if sameLetters (((byte :: value).takeWhile (· != 44)).rdropWhile isBlank) name then some true
      else h2ConnectionLists name ((byte :: value).dropWhile (· != 44) ++ 0 :: rest) := by
  have some : byte ≠ 0 := fun zero => noNul (zero ▸ List.mem_cons_self ..)
  have stays : skipSeparators (byte :: (value ++ 0 :: rest)) = Option.some (byte :: value ++ 0 :: rest) := by
    simp [skipSeparators, other]
  rw [List.cons_append, h2ConnectionLists_turn some, stays, Option.bind_some, elementEnd_eq noNul, Option.bind_some]

/-- The loops find the elements, and read nothing behind the terminator. -/
theorem h2ConnectionLists_iff (noNul : 0 ∉ value) (rest : Bytes) :
    ∃ listed, h2ConnectionLists name (value ++ 0 :: rest) = some listed ∧ (listed = true ↔ Lists value name) := by
  induction size : value.length using Nat.strongRecOn generalizing value with
  | ind n ih =>
    subst size
    cases value with
    | nil => exact ⟨false, h2ConnectionLists_ended rest, iff_of_false nofun lists_nil⟩
    | cons byte value =>
      cases separator : isListSeparator byte with
      | true =>
        rw [h2ConnectionLists_separator separator noNul, lists_separator separator]
        by_cases last : value = []
        · rw [if_pos last, if_pos last]
          exact ⟨name == [], rfl, beq_iff_eq⟩
        · rw [if_neg last, if_neg last]
          exact ih _ (Nat.lt_succ_self _) (fun member => noNul (List.mem_cons_of_mem _ member)) rfl
      | false =>
        rw [h2ConnectionLists_element separator noNul, lists_element separator]
        by_cases same : sameLetters (((byte :: value).takeWhile (· != 44)).rdropWhile isBlank) name = true
        · exact ⟨true, if_pos same, iff_of_true rfl (.inl (sameLetters_iff.mp same))⟩
        · have shorter : ((byte :: value).dropWhile (· != 44)).length < (byte :: value).length := by
            have notComma : (byte == 44) = false := (Bool.or_eq_false_iff.mp separator).2
            simp only [List.dropWhile_cons, bne, notComma, Bool.not_false, if_true]
            exact Nat.lt_succ_of_le (List.dropWhile_sublist _).length_le
          obtain ⟨listed, found, right⟩ :=
            ih _ shorter (fun member => noNul ((List.dropWhile_sublist _).mem member)) rfl
          rw [if_neg same, found]
          exact ⟨listed, rfl, right.trans (or_iff_right fun equal => same (sameLetters_iff.mpr equal)).symm⟩

theorem h2ConnectionLists_value (name value : Bytes) :
    h2ConnectionLists name (value ++ [0]) = some (decide (Lists (cString value) name)) := by
  have noNul : 0 ∉ cString value := fun member => by cases List.mem_takeWhile_imp member
  have whole : ∃ rest, value ++ [0] = cString value ++ 0 :: rest := by
    cases back : value.dropWhile (· != 0) with
    | nil =>
      refine ⟨[], ?_⟩
      rw [cString, List.takeWhile_eq_self_iff.mpr (List.dropWhile_eq_nil_iff.mp back)]
    | cons first rest =>
      have stops := List.head?_dropWhile_not (· != 0) value
      rw [back] at stops
      obtain rfl : first = 0 := by simpa using stops
      refine ⟨rest ++ [0], ?_⟩
      rw [← List.cons_append, ← List.append_assoc, cString, ← back, List.takeWhile_append_dropWhile]
  obtain ⟨rest, whole⟩ := whole
  obtain ⟨listed, found, right⟩ := @h2ConnectionLists_iff name _ noNul rest
  rw [whole, found, Bool.eq_iff_iff.mpr (right.trans decide_eq_true_iff.symm)]

end

section
variable {headers headersOut : List Kv} {kv : Kv} {name : Bytes}

theorem sameLetters_ascii (lower : name.map toLower = name) {key : Bytes} : sameLetters key name = true ↔ key.map toLower = name := by
  rw [sameLetters_iff, lower]

theorem h2NamedByConnection_eq (headers : List Kv) (name : Bytes) :
    h2NamedByConnection name headers = some (decide (NamedBy Lists headers name)) := by
  induction headers with
  | nil => simp [h2NamedByConnection, NamedBy]
  | cons kv headers ih =>
    have lower : (ascii "connection").map toLower = ascii "connection" := by decide
    have split : NamedBy Lists (kv :: headers) name ↔
        (kv.key.map toLower = ascii "connection" ∧ Lists (cString kv.val) name) ∨ NamedBy Lists headers name := by
      simp [NamedBy]
    rw [h2NamedByConnection, ih, h2ConnectionLists_value]
    by_cases connection : sameLetters kv.key (ascii "connection") = true
    · rw [if_pos connection]
      have equal := (sameLetters_ascii lower).mp connection
      by_cases listed : Lists (cString kv.val) name <;> simp [split, equal, listed]
    · rw [if_neg connection]
      have differs : kv.key.map toLower ≠ ascii "connection" := fun equal => connection ((sameLetters_ascii lower).mpr equal)
      simp [split, differs]

theorem hopByHop_iff : hopByHopNames.any (sameLetters kv.key) = true ↔ HopByHop kv := by
  have lower : ∀ name ∈ hopByHopNames, name.map toLower = name := by decide
  rw [List.any_eq_true, HopByHop]
  constructor
  · rintro ⟨name, member, same⟩
    rwa [(sameLetters_ascii (lower name member)).mp same]
  · intro member
    exact ⟨_, member, (sameLetters_ascii (lower _ member)).mpr rfl⟩

/-- Both passes take the same decision: it depends on the header and the list alone. -/
theorem skipHopByHopRequestHeader_eq (headers : List Kv) (kv : Kv) :
    skipHopByHopRequestHeader headers kv = some (!decide (MayCarry headers kv)) := by
  have te : sameLetters kv.key (ascii "te") = true ↔ kv.key.map toLower = ascii "te" := sameLetters_ascii (by decide)
  have trailers : sameLetters kv.val (ascii "trailers") = decide (kv.val.map toLower = ascii "trailers") :=
    Bool.eq_iff_iff.mpr ((sameLetters_ascii (by decide)).trans decide_eq_true_iff.symm)
  unfold skipHopByHopRequestHeader MayCarry
  by_cases hop : HopByHop kv
  · simp [hopByHop_iff.mpr hop, hop]
  · rw [if_neg (mt hopByHop_iff.mp hop), trailers, h2NamedByConnection_eq]
    by_cases isTe : kv.key.map toLower = ascii "te"
    · simp [te.mpr isTe, hop, isTe]
    · simp [mt te.mp isTe, hop, isTe]

theorem h2CountHeaders_eq (headersOut : List Kv) :
    h2CountHeaders headersOut = some (4 + (headersOut.filter fun kv => MayCarry headersOut kv).length) := by
  have count : ∀ (entries : List Kv) (nvlen : Nat),
      entries.foldlM (fun nvlen kv => (skipHopByHopRequestHeader headersOut kv).map fun skip =>
        if skip then nvlen else nvlen + 1) nvlen = some (nvlen + (entries.filter fun kv => MayCarry headersOut kv).length) := by
    intro entries
    induction entries with
    | nil => exact fun _ => rfl
    | cons kv entries ih =>
      intro nvlen
      rw [List.foldlM_cons, skipHopByHopRequestHeader_eq, Option.map_some]
      refine (ih _).trans ?_
      by_cases may : MayCarry headersOut kv
      · simp [may, Nat.add_assoc, Nat.add_comm 1]
      · simp [may]
  exact count headersOut 4

theorem h2WriteHeaders_eq (headersOut : List Kv) (nva : List (Option Kv)) (i : Nat) :
    h2WriteHeaders headersOut nva i =
      (Buffer.copy nva i ((headersOut.filter fun kv => MayCarry headersOut kv).map some)).map fun nva =>
        (nva, i + (headersOut.filter fun kv => MayCarry headersOut kv).length) := by
  have writes : ∀ (entries : List Kv) (nva : List (Option Kv)) (i : Nat),
      entries.foldlM (fun written kv => (skipHopByHopRequestHeader headersOut kv).bind fun skip =>
        if skip then some written
        else (Buffer.write written.1 written.2 (some kv)).map fun nva => (nva, written.2 + 1)) (nva, i) =
      (Buffer.copy nva i ((entries.filter fun kv => MayCarry headersOut kv).map some)).map fun nva =>
        (nva, i + (entries.filter fun kv => MayCarry headersOut kv).length) := by
    intro entries
    induction entries with
    | nil => exact fun _ _ => rfl
    | cons kv entries ih =>
      intro nva i
      rw [List.foldlM_cons, skipHopByHopRequestHeader_eq, Option.bind_some]
      by_cases may : MayCarry headersOut kv
      · rw [List.filter_cons_of_pos (by simpa using may), List.map_cons, Buffer.copy]
        cases written : Buffer.write nva i (some kv) with
        | none => simp [may]
        | some nva' =>
          have next := ih nva' (i + 1)
          simp only [may, decide_true, Bool.not_true, Bool.false_eq_true, if_false, Option.map_some, Option.bind_some]
          refine next.trans ?_
          rw [List.length_cons, Nat.add_assoc, Nat.add_comm 1]
      · rw [List.filter_cons_of_neg (by simpa using may)]
        simp only [may, decide_false, Bool.not_false, if_true]
        exact ih nva i
  exact writes headersOut nva i

/-- What is submitted is the pseudo-headers and, in their order, the headers that a request may carry. The array has room
for all of them. -/
theorem evhtpH2MakeRequest_eq (headersOut : List Kv) (meth : HtpMethod) (uri authority : Bytes) :
    evhtpH2MakeRequest headersOut meth uri authority =
      some ((h2PseudoHeaders headersOut meth uri authority ++ headersOut.filter fun kv => MayCarry headersOut kv).map some) := by
  generalize pseudo : h2PseudoHeaders headersOut meth uri authority = front
  have four : (front.map some).length = 4 := by
    subst pseudo
    rfl
  generalize sent : (headersOut.filter fun kv => MayCarry headersOut kv) = back
  have room : List.replicate (4 + back.length) (none : Option Kv) = List.replicate 4 none ++ List.replicate back.length none :=
    List.replicate_add ..
  have started : Buffer.copy (List.replicate (4 + back.length) none) 0 (front.map some) =
      some (front.map some ++ List.replicate back.length none) := by
    have copied := Buffer.copy_append [] (show (front.map some).length ≤ (List.replicate (4 + back.length) none).length by simp [four])
    refine copied.trans ?_
    rw [four, room, List.drop_left' (List.length_replicate ..), List.nil_append]
  have ended : Buffer.copy (front.map some ++ List.replicate back.length none) 4 (back.map some) =
      some (front.map some ++ back.map some) := by
    rw [← four, Buffer.copy_append _ (by simp)]
    simp
  unfold evhtpH2MakeRequest
  rw [h2CountHeaders_eq, Option.bind_some, sent, pseudo, started, Option.bind_some, h2WriteHeaders_eq, sent, ended,
    Option.map_some, Option.map_some, List.map_append]
  congr 1
  exact List.take_of_length_le (by simp [← four])

/-- A name is an element of a value, in letters of any case. -/
def Names (value name : Bytes) : Prop := ∃ element ∈ listElements value, element.map toLower = name.map toLower

def EndsEmpty (value : Bytes) : Prop := value ≠ [] ∧ (listElements value).getLast? = some []

instance (value name : Bytes) : Decidable (Names value name) := inferInstanceAs (Decidable (∃ element ∈ _, _))

def Permitted (headers : List Kv) (kv : Kv) : Prop :=
  ¬ HopByHop kv ∧ (kv.key.map toLower = ascii "te" → kv.val.map toLower = ascii "trailers") ∧ ¬ NamedBy Names headers kv.key

instance (headers : List Kv) (kv : Kv) : Decidable (Permitted headers kv) := inferInstanceAs (Decidable (¬ _ ∈ _ ∧ _ ∧ _))

/-- A request carries the headers that are permitted, and no value of a Connection header is read beyond its end. -/
structure CarriesPermitted (headersOut : List Kv) (meth : HtpMethod) (uri authority : Bytes) : Prop where
  submitted : evhtpH2MakeRequest headersOut meth uri authority =
    some ((h2PseudoHeaders headersOut meth uri authority ++ headersOut.filter fun kv => Permitted headersOut kv).map some)
  inside : ∀ name value, ∃ listed, h2ConnectionLists name (value ++ [0]) = some listed

theorem namedBy_congr {lists lists' : Bytes → Bytes → Prop} (same : ∀ value, lists value name ↔ lists' value name) :
    NamedBy lists headers name ↔ NamedBy lists' headers name := by
  simp only [NamedBy, same]

theorem lists_empty (value : Bytes) : Lists value [] ↔ EndsEmpty value := by
  unfold Lists
  rw [if_pos rfl]
  rfl

theorem lists_named (some : name ≠ []) (value : Bytes) : Lists value name ↔ Names value name := by
  unfold Lists
  rw [if_neg some]
  rfl

theorem EndsEmpty.names {value : Bytes} (ends : EndsEmpty value) : Names value [] :=
  ⟨[], List.mem_of_getLast? ends.2, rfl⟩

/-- Where the rule of the code is the one for what is permitted. -/
theorem mayCarry_iff_permitted (headers : List Kv) (kv : Kv) : (MayCarry headers kv ↔ Permitted headers kv) ↔
    (kv.key.map toLower = ascii "te" → kv.val.map toLower = ascii "trailers" → ¬ NamedBy Names headers kv.key) ∧
      (kv.key = [] → NamedBy Names headers [] → NamedBy (fun value _ => EndsEmpty value) headers []) := by
  unfold MayCarry Permitted
  by_cases te : kv.key.map toLower = ascii "te"
  · have some : kv.key ≠ [] := by
      rintro empty
      rw [empty] at te
      cases te
    have other : ¬ HopByHop kv := by
      unfold HopByHop
      rw [te]
      decide
    simp only [te, other, some]
    tauto
  · by_cases empty : kv.key = []
    · have other : ¬ HopByHop kv := by
        unfold HopByHop
        rw [empty]
        decide
      have listed := @namedBy_congr headers [] Lists (fun value _ => EndsEmpty value) lists_empty
      have more : NamedBy (fun value _ => EndsEmpty value) headers [] → NamedBy Names headers [] := by
        rintro ⟨kv, member, connection, ends⟩
        exact ⟨kv, member, connection, ends.names⟩
      rw [if_neg te]
      simp only [other, empty, listed, List.map_nil, not_false_eq_true, true_and, forall_const] at te ⊢
      tauto
    · have listed := @namedBy_congr headers kv.key Lists Names (lists_named empty)
      rw [if_neg te]
      simp only [te, empty, listed]
      tauto

/-- A request carries exactly the permitted headers if and only if Connection does not name a TE header for trailers, whose
value alone decides about it; and, for headers without a name, an empty element of a Connection value counts at the end. -/
theorem h2_request_headers (headersOut : List Kv) (meth : HtpMethod) (uri authority : Bytes) :
    CarriesPermitted headersOut meth uri authority ↔
      ∀ kv ∈ headersOut,
        (kv.key.map toLower = ascii "te" → kv.val.map toLower = ascii "trailers" → ¬ NamedBy Names headersOut kv.key) ∧
        (kv.key = [] → NamedBy Names headersOut [] → NamedBy (fun value _ => EndsEmpty value) headersOut []) := by
  have inside : ∀ name value, ∃ listed, h2ConnectionLists name (value ++ [0]) = some listed := fun name value =>
    ⟨_, h2ConnectionLists_value name value⟩
  have submitted := evhtpH2MakeRequest_eq headersOut meth uri authority
  simp only [← mayCarry_iff_permitted]
  constructor
  · intro carries kv member
    have same := Option.some.inj (submitted.symm.trans carries.submitted)
    have sent := List.append_cancel_left ((Option.some_injective _).list_map same)
    have either := congrArg (kv ∈ ·) sent
    simpa [member] using either
  · intro alike
    refine ⟨?_, inside⟩
    rw [submitted, List.filter_congr fun kv member => decide_eq_decide.mpr (alike kv member)]

/-- A TE header that Connection names is sent all the same. -/
theorem h2_request_sends_te :
    ¬ CarriesPermitted [⟨ascii "Connection", ascii "TE"⟩, ⟨ascii "TE", ascii "trailers"⟩] .GET (ascii "/") [] := by
  intro carries
  have submitted := carries.submitted
  revert submitted
  decide

end

end Evhtp
