import Evhtp.Lib.FirstMatch
import Evhtp.Sslutils

/-! Which certificate headers of a client survive `htp_sslutil_add_xheaders`. Of each name that is removed only the
first header goes, one name of the table is not removed at all, and the lookup takes some other headers for them. -/

namespace Evhtp

open FirstMatch

def isNamed (name : Bytes) (kv : NullKv) : Bool := kv.key.map toLower == name.map toLower

def isOther (kv : NullKv) : Bool := sslXHdrs.all fun hdr => !isNamed hdr.hdrStr kv

/-- Each certificate header occurs at most once, with the value of its function and only if it was asked for. The
other headers are those that were there. -/
structure Trusted (ssl : Ssl) (flags : UInt16) (before after : List NullKv) : Prop where
  once : ∀ hdr ∈ sslXHdrs, (after.filter (isNamed hdr.hdrStr)).length ≤ 1
  genuine : ∀ hdr ∈ sslXHdrs, ∀ kv ∈ after, isNamed hdr.hdrStr kv = true →
    flags &&& hdr.flag ≠ 0 ∧ ∃ value, hdr.convfn ssl = some value ∧ kv.val = some (cString value)
  others : after.filter isOther = before.filter isOther

/-- The headers with a name that is removed are the one the lookup finds, if it finds one, and there is none with the
name that is not removed. -/
structure Removable (hdrs : List NullKv) : Prop where
  found : ∀ name ∈ removedXHdrs, hdrs.filter (isNamed name) = (hdrs.find? (keyMatches name)).toList
  sha1 : hdrs.filter (isNamed (ascii "X-SSL-SHA1")) = []

def SslXHdr.added (ssl : Ssl) (flags : UInt16) (hdr : SslXHdr) : Option NullKv :=
  if flags &&& hdr.flag ≠ 0 then (hdr.convfn ssl).map fun value => ⟨hdr.hdrStr, some (cString value)⟩ else none

section
variable {ssl : Ssl} {flags : UInt16} {hdrs : List NullKv}

theorem foldl_addXheader (table : List SslXHdr) :
    table.foldl (addXheader ssl flags) hdrs = hdrs ++ table.filterMap (SslXHdr.added ssl flags) := by
  induction table generalizing hdrs with
  | nil => simp
  | cons hdr table ih =>
    rw [List.foldl_cons, ih]
    unfold addXheader
    by_cases asked : flags &&& hdr.flag ≠ 0
    · cases value : hdr.convfn ssl with
      | none => simp [SslXHdr.added, value, asked]
      | some value' => simp [SslXHdr.added, value, asked]
    · simp [SslXHdr.added, asked]

theorem added_none (table : List SslXHdr) : table.filterMap (SslXHdr.added ssl 0) = [] := by
  simp [SslXHdr.added]

theorem addXheaders_eq (hdrs : List NullKv) (ssl : Ssl) (flags : UInt16) :
    htpSslutilAddXheaders (some hdrs) (some ssl) flags =
      (0, some (eraseFirsts (removedXHdrs.map keyMatches) hdrs ++ sslXHdrs.filterMap (SslXHdr.added ssl flags))) := by
  have removed : removedXHdrs.foldl evhtpKvsRemove hdrs = eraseFirsts (removedXHdrs.map keyMatches) hdrs := by
    unfold eraseFirsts
    rw [List.foldl_map]
    rfl
  unfold htpSslutilAddXheaders
  dsimp only
  rw [removed]
  split
  · next none => rw [none, added_none, List.append_nil]
  · rw [foldl_addXheader]

end

theorem isNamed_matches {name : Bytes} {kv : NullKv} (named : isNamed name kv = true) : keyMatches name kv = true := by
  have same : kv.key.map toLower = name.map toLower := by simpa [isNamed] using named
  have lengths : kv.key.length = name.length := by simpa using congrArg List.length same
  have bits := congrArg (List.map (· ||| 0x20)) same
  rw [List.map_map, List.map_map] at bits
  have erase : (fun byte => byte ||| 0x20) ∘ toLower = fun byte : UInt8 => byte ||| 0x20 := funext toLower_bit
  rw [erase] at bits
  simp [keyMatches, matchHeaderKey, lengths, bits]

theorem keyMatches_apart {name name' : Bytes} (differ : name.map (· ||| 0x20) ≠ name'.map (· ||| 0x20)) :
    Apart (keyMatches name) (keyMatches name') := by
  intro kv one two
  simp only [keyMatches, matchHeaderKey, Bool.and_eq_true, beq_iff_eq] at one two
  exact differ (one.2.symm.trans two.2)

theorem isNamed_apart {name name' : Bytes} (differ : name.map (· ||| 0x20) ≠ name'.map (· ||| 0x20)) :
    Apart (keyMatches name) (isNamed name') :=
  fun kv one two => keyMatches_apart differ kv one (isNamed_matches two)

theorem removed_apart : (removedXHdrs.map keyMatches).Pairwise Apart := by
  have differ : removedXHdrs.Pairwise fun name name' => name.map (· ||| 0x20) ≠ name'.map (· ||| 0x20) := by decide +kernel
  exact List.pairwise_map.mpr (differ.imp keyMatches_apart)

theorem table_names : sslXHdrs.map SslXHdr.hdrStr = removedXHdrs ++ [ascii "X-SSL-SHA1"] := rfl

theorem names_differ : ∀ name ∈ sslXHdrs.map SslXHdr.hdrStr, ∀ name' ∈ sslXHdrs.map SslXHdr.hdrStr,
    name.map (· ||| 0x20) = name'.map (· ||| 0x20) → name' = name := by
  decide +kernel

theorem table_differ : sslXHdrs.Pairwise fun hdr hdr' => hdr.hdrStr.map toLower ≠ hdr'.hdrStr.map toLower := by
  have differ : (sslXHdrs.map fun hdr => hdr.hdrStr.map toLower).Pairwise Ne := by decide +kernel
  exact List.pairwise_map.mp differ

section
variable {ssl : Ssl} {flags : UInt16} {hdrs : List NullKv}

theorem SslXHdr.added_eq {hdr : SslXHdr} {kv : NullKv} (added : hdr.added ssl flags = some kv) :
    flags &&& hdr.flag ≠ 0 ∧ ∃ value, hdr.convfn ssl = some value ∧ kv = ⟨hdr.hdrStr, some (cString value)⟩ := by
  unfold SslXHdr.added at added
  split at added
  · next asked =>
    obtain ⟨value, result, rfl⟩ := Option.map_eq_some_iff.mp added
    exact ⟨asked, value, result, rfl⟩
  · cases added

theorem SslXHdr.added_named {hdr hdr' : SslXHdr} {kv : NullKv} (added : hdr.added ssl flags = some kv) :
    isNamed hdr'.hdrStr kv = true ↔ hdr.hdrStr.map toLower = hdr'.hdrStr.map toLower := by
  obtain ⟨-, value, -, rfl⟩ := added_eq added
  simp [isNamed]

theorem filter_added {table : List SslXHdr} {hdr : SslXHdr} (member : hdr ∈ table)
    (differ : table.Pairwise fun hdr hdr' => hdr.hdrStr.map toLower ≠ hdr'.hdrStr.map toLower) :
    (table.filterMap (SslXHdr.added ssl flags)).filter (isNamed hdr.hdrStr) = (hdr.added ssl flags).toList := by
  induction table with
  | nil => cases member
  | cons first table ih =>
    obtain ⟨alone, others⟩ := List.pairwise_cons.mp differ
    have split : ((first :: table).filterMap (SslXHdr.added ssl flags)).filter (isNamed hdr.hdrStr) =
        ((first.added ssl flags).toList.filter (isNamed hdr.hdrStr)) ++
          (table.filterMap (SslXHdr.added ssl flags)).filter (isNamed hdr.hdrStr) := by
      cases added : first.added ssl flags with
      | none => simp [added]
      | some kv => cases named : isNamed hdr.hdrStr kv <;> simp [added, named]
    rw [split]
    rcases List.mem_cons.mp member with rfl | later
    · have none : (table.filterMap (SslXHdr.added ssl flags)).filter (isNamed hdr.hdrStr) = [] := by
        refine List.filter_eq_nil_iff.mpr fun kv among => ?_
        obtain ⟨other, here, added⟩ := List.mem_filterMap.mp among
        rw [SslXHdr.added_named added]
        exact fun same => alone other here same.symm
      rw [none, List.append_nil]
      cases added : hdr.added ssl flags with
      | none => rfl
      | some kv => simp [(SslXHdr.added_named added).mpr rfl]
    · rw [ih later others]
      cases added : first.added ssl flags with
      | none => rfl
      | some kv =>
        have differs : ¬isNamed hdr.hdrStr kv = true := by
          rw [SslXHdr.added_named added]
          exact alone hdr later
        simp [differs]

theorem added_other : (sslXHdrs.filterMap (SslXHdr.added ssl flags)).filter isOther = [] := by
  refine List.filter_eq_nil_iff.mpr fun kv among other => ?_
  obtain ⟨hdr, member, added⟩ := List.mem_filterMap.mp among
  have unnamed := List.all_eq_true.mp other hdr member
  simp [(SslXHdr.added_named added).mpr rfl] at unnamed

theorem trusted_iff {left : List NullKv} :
    Trusted ssl flags hdrs (left ++ sslXHdrs.filterMap (SslXHdr.added ssl flags)) ↔
      (∀ hdr ∈ sslXHdrs, left.filter (isNamed hdr.hdrStr) = []) ∧ left.filter isOther = hdrs.filter isOther := by
  have named : ∀ hdr ∈ sslXHdrs, (left ++ sslXHdrs.filterMap (SslXHdr.added ssl flags)).filter (isNamed hdr.hdrStr) =
      left.filter (isNamed hdr.hdrStr) ++ (hdr.added ssl flags).toList := by
    intro hdr member
    rw [List.filter_append, filter_added member table_differ]
  have others : (left ++ sslXHdrs.filterMap (SslXHdr.added ssl flags)).filter isOther = left.filter isOther := by
    rw [List.filter_append, added_other, List.append_nil]
  constructor
  · intro trusted
    refine ⟨fun hdr member => ?_, others.symm.trans trusted.others⟩
    by_contra some
    obtain ⟨kv, there⟩ := List.exists_mem_of_ne_nil _ some
    obtain ⟨here, name⟩ := List.mem_filter.mp there
    obtain ⟨asked, value, result, -⟩ := trusted.genuine hdr member kv (List.mem_append_left _ here) name
    have added : hdr.added ssl flags = Option.some ⟨hdr.hdrStr, Option.some (cString value)⟩ := by
      simp [SslXHdr.added, asked, result]
    have once := trusted.once hdr member
    have pos := List.length_pos_of_mem there
    rw [named hdr member, added, List.length_append] at once
    simp only [Option.toList_some, List.length_singleton] at once
    omega
  · rintro ⟨none, same⟩
    have only : ∀ hdr ∈ sslXHdrs, (left ++ sslXHdrs.filterMap (SslXHdr.added ssl flags)).filter (isNamed hdr.hdrStr) =
        (hdr.added ssl flags).toList := fun hdr member => by rw [named hdr member, none hdr member, List.nil_append]
    refine ⟨fun hdr member => ?_, fun hdr member kv here name => ?_, others.trans same⟩
    · rw [only hdr member]
      cases hdr.added ssl flags <;> simp
    · have there := List.mem_filter.mpr ⟨here, name⟩
      rw [only hdr member, Option.mem_toList] at there
      obtain ⟨asked, value, result, rfl⟩ := SslXHdr.added_eq there
      exact ⟨asked, value, result, rfl⟩

theorem isOther_iff {name : Bytes} {kv : NullKv} (member : name ∈ removedXHdrs) (matched : keyMatches name kv = true) :
    isOther kv = false ↔ isNamed name kv = true := by
  have there : name ∈ sslXHdrs.map SslXHdr.hdrStr := table_names ▸ List.mem_append_left _ member
  constructor
  · intro listed
    obtain ⟨hdr, among, named⟩ : ∃ hdr ∈ sslXHdrs, isNamed hdr.hdrStr kv = true := by simpa [isOther] using listed
    have same : hdr.hdrStr = name := by
      refine names_differ name there hdr.hdrStr (List.mem_map_of_mem among) ?_
      by_contra apart
      exact keyMatches_apart apart kv matched (isNamed_matches named)
    rwa [same] at named
  · intro named
    obtain ⟨hdr, among, rfl⟩ := List.mem_map.mp there
    refine List.all_eq_false.mpr ⟨hdr, among, ?_⟩
    simp [named]

theorem filter_left {name : Bytes} (member : name ∈ removedXHdrs) :
    (eraseFirsts (removedXHdrs.map keyMatches) hdrs).filter (isNamed name) =
      (hdrs.filter (keyMatches name)).tail.filter (isNamed name) := by
  rw [← filter_eraseFirsts_self removed_apart (List.mem_map_of_mem member), List.filter_filter]
  refine List.filter_congr fun kv _ => ?_
  cases named : isNamed name kv with
  | true => simp [isNamed_matches named]
  | false => simp

theorem filter_left_sha1 :
    (eraseFirsts (removedXHdrs.map keyMatches) hdrs).filter (isNamed (ascii "X-SSL-SHA1")) =
      hdrs.filter (isNamed (ascii "X-SSL-SHA1")) := by
  refine filter_eraseFirsts fun m member => ?_
  obtain ⟨name, among, rfl⟩ := List.mem_map.mp member
  have differ : ∀ name ∈ removedXHdrs, name.map (· ||| 0x20) ≠ (ascii "X-SSL-SHA1").map (· ||| 0x20) := by decide +kernel
  exact isNamed_apart (differ name among)

/-- What is left is free of the headers of the table, and all others are left, if the removal does what it is for. -/
theorem removable_iff :
    ((∀ hdr ∈ sslXHdrs, (eraseFirsts (removedXHdrs.map keyMatches) hdrs).filter (isNamed hdr.hdrStr) = []) ∧
      (eraseFirsts (removedXHdrs.map keyMatches) hdrs).filter isOther = hdrs.filter isOther) ↔ Removable hdrs := by
  have table : (∀ hdr ∈ sslXHdrs, (eraseFirsts (removedXHdrs.map keyMatches) hdrs).filter (isNamed hdr.hdrStr) = []) ↔
      (∀ name ∈ removedXHdrs, (hdrs.filter (keyMatches name)).tail.filter (isNamed name) = []) ∧
        hdrs.filter (isNamed (ascii "X-SSL-SHA1")) = [] := by
    rw [← List.forall_mem_map (f := SslXHdr.hdrStr)
      (P := fun name => (eraseFirsts (removedXHdrs.map keyMatches) hdrs).filter (isNamed name) = []), table_names,
      List.forall_mem_append, List.forall_mem_singleton, filter_left_sha1]
    refine and_congr_left fun _ => forall₂_congr fun name member => ?_
    rw [filter_left member]
  have others : (eraseFirsts (removedXHdrs.map keyMatches) hdrs).filter isOther = hdrs.filter isOther ↔
      ∀ name ∈ removedXHdrs, ∀ kv, hdrs.find? (keyMatches name) = some kv → isNamed name kv = true := by
    rw [filter_eraseFirsts_iff removed_apart, List.forall_mem_map]
    refine forall₄_congr fun name member kv found => ?_
    exact isOther_iff member (List.find?_some found)
  rw [table, others]
  constructor
  · rintro ⟨⟨none, sha1⟩, first⟩
    exact ⟨fun name member => (tail_filter_iff fun _ => isNamed_matches).mp ⟨none name member, first name member⟩, sha1⟩
  · rintro ⟨found, sha1⟩
    have each := fun name member => (tail_filter_iff fun _ => isNamed_matches).mpr (found name member)
    exact ⟨⟨fun name member => (each name member).1, sha1⟩, fun name member => (each name member).2⟩

end

/-- The certificate headers can be trusted only if there was at most one header of each name that is removed, which
the lookup finds, and none of the name that is not. -/
theorem certificate_headers_trusted (hdrs : List NullKv) (ssl : Ssl) (flags : UInt16) :
    ∃ after, htpSslutilAddXheaders (some hdrs) (some ssl) flags = (0, some after) ∧
      (Trusted ssl flags hdrs after ↔ Removable hdrs) ∧
      ∀ hdr ∈ sslXHdrs, flags &&& hdr.flag ≠ 0 → ∀ value, hdr.convfn ssl = some value →
        ⟨hdr.hdrStr, some (cString value)⟩ ∈ after := by
  refine ⟨_, addXheaders_eq hdrs ssl flags, trusted_iff.trans removable_iff, fun hdr member asked value result => ?_⟩
  refine List.mem_append_right _ (List.mem_filterMap.mpr ⟨hdr, member, ?_⟩)
  simp [SslXHdr.added, asked, result]

def forgedHeaders : List NullKv :=
  [⟨ascii "X-SSL-Subject", some (ascii "a")⟩, ⟨ascii "X-SSL-Subject", some (ascii "admin")⟩,
    ⟨ascii "x-ssl-sha1", some (ascii "00")⟩]

theorem certificate_headers_forged :
    htpSslutilAddXheaders (some forgedHeaders) (some {}) (xhdrSubj ||| xhdrSha1) =
        (0, some [⟨ascii "X-SSL-Subject", some (ascii "admin")⟩, ⟨ascii "x-ssl-sha1", some (ascii "00")⟩]) ∧
      ¬Trusted {} (xhdrSubj ||| xhdrSha1) forgedHeaders
        [⟨ascii "X-SSL-Subject", some (ascii "admin")⟩, ⟨ascii "x-ssl-sha1", some (ascii "00")⟩] := by
  refine ⟨by decide +kernel, fun trusted => ?_⟩
  obtain ⟨-, value, none, -⟩ := trusted.genuine ⟨ascii "X-SSL-Subject", xhdrSubj, Ssl.subject⟩ List.mem_cons_self _
    List.mem_cons_self (by decide +kernel)
  cases none

end Evhtp
