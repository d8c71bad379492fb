import Evhtp.Proofs.ReadBack
import Evhtp.Proofs.ResponseFraming
import Evhtp.Reply

/-! The head of a reply, as a head the parser accepts: its status line, and the headers the application set
together with those a reply adds. -/

namespace Evhtp

structure Kv.WellFormed (kv : Kv) : Prop where
  named : kv.key ≠ []
  token : COLON ∉ kv.key
  unbroken : Unbroken kv.key ∧ Unbroken kv.val
  trimmed : Trimmed kv.key ∧ Trimmed kv.val

def Kv.toField (kv : Kv) (wellFormed : kv.WellFormed) : Field where
  name := kv.key
  value := kv.val
  named := wellFormed.named
  token := wellFormed.token
  unbroken := wellFormed.unbroken
  trimmed := wellFormed.trimmed
  blank := space_blank

def headerFields (headers : List Kv) (wellFormed : ∀ kv ∈ headers, kv.WellFormed) : List Field :=
  headers.pmap Kv.toField wellFormed

section
variable {headers : List Kv} (wellFormed : ∀ kv ∈ headers, kv.WellFormed)

theorem headerFields_bytes : fieldBytes (headerFields headers wellFormed) = headers.flatMap createHeader := by
  have bytes : (headerFields headers wellFormed).map Field.bytes = headers.map createHeader := by
    rw [headerFields, List.map_pmap, ← List.pmap_eq_map (p := Kv.WellFormed) wellFormed]
    refine List.pmap_congr_left _ fun kv _ _ _ => ?_
    simp [Field.bytes, Field.line, Kv.toField, createHeader, LineEnd.bytes, crlf, ascii, COLON, SP]
  rw [fieldBytes, List.flatMap_def, bytes, List.flatMap_def]

theorem headerFields_kv : (headerFields headers wellFormed).map Field.kv = headers := by
  rw [headerFields, List.map_pmap]
  exact (List.pmap_eq_map wellFormed).trans (List.map_id headers)

theorem headerFields_mem {field : Field} (member : field ∈ headerFields headers wellFormed) :
    ∃ kv ∈ headers, field.name = kv.key ∧ field.value = kv.val := by
  obtain ⟨kv, inside, same⟩ := List.mem_pmap.mp member
  exact ⟨kv, inside, same ▸ rfl, same ▸ rfl⟩

theorem headerFields_any (text : String) :
    (headerFields headers wellFormed).any (·.isNamed text) = headers.any (sameText ·.key text) := by
  rw [Bool.eq_iff_iff, List.any_eq_true, List.any_eq_true]
  constructor
  · rintro ⟨field, member, named⟩
    obtain ⟨kv, inside, name, -⟩ := headerFields_mem wellFormed member
    exact ⟨kv, inside, name ▸ named⟩
  · rintro ⟨kv, inside, named⟩
    exact ⟨kv.toField (wellFormed kv inside), List.mem_pmap.mpr ⟨kv, inside, rfl⟩, named⟩

end

theorem digits_decimal {fuel n : Nat} (fits : n < 10 ^ (fuel + 1)) :
    Decimal (Numeral.digits 10 digitChar (fuel + 1) n).reverse n := by
  refine ⟨by simp [Numeral.digits_ne_nil], fun byte member => ?_,
    Numeral.value_digits (by decide) (fun d small => (digitChar_digit small).2) fits⟩
  obtain ⟨d, small, rfl⟩ := Numeral.mem_digits (by decide) (List.mem_reverse.mp member)
  exact (digitChar_digit small).1

theorem evhtpModpSizetoa_decimal {n : Nat} (small : n < 2 ^ 64) : Decimal (evhtpModpSizetoa n) n :=
  digits_decimal (Nat.lt_trans small (by decide))

theorem Decimal.unbroken {text : Bytes} {n : Nat} (decimal : Decimal text n) : Unbroken text := by
  intro byte member
  have digit := decimal.2.1 byte member
  constructor <;> rintro rfl <;> simp [isDigit, CR, LF] at digit

theorem Decimal.trimmed {text : Bytes} {n : Nat} (decimal : Decimal text n) : Trimmed text := by
  have solid : ∀ byte ∈ text, isBlank byte = false := by
    intro byte member
    have digit := decimal.2.1 byte member
    by_contra blank
    simp only [isBlank, SP, HTAB, Bool.not_eq_false, Bool.or_eq_true, beq_iff_eq] at blank
    rcases blank with rfl | rfl <;> simp [isDigit] at digit
  exact ⟨fun byte first => solid byte (List.mem_of_head? first), fun byte last => solid byte (List.mem_of_getLast? last)⟩

theorem evhtpModpU32toa_code {code : Nat} (digits : 100 ≤ code ∧ code ≤ 999) : evhtpModpU32toa code =
    [digitChar (code / 100), digitChar (code / 10 % 10), digitChar (code % 10)] := by
  have tens : code / 10 ≠ 0 := by omega
  have hundreds : code / 10 / 10 ≠ 0 := by omega
  have none : code / 10 / 10 / 10 = 0 := by omega
  have first : code / 10 / 10 % 10 = code / 100 := by omega
  simp [evhtpModpU32toa, Numeral.digits, tens, hundreds, none, first]

theorem statusCodeToStr_unbroken (code : Nat) : Unbroken (ascii (statusCodeToStr code)) := by
  unfold statusCodeToStr
  split <;> decide

def replyStatusLine (p : Parser) (code : Nat) (version : 1 ≤ p.major ∧ p.major ≤ 9 ∧ p.minor ≤ 9)
    (digits : 100 ≤ code ∧ code ≤ 999) : StatusLine where
  major := p.major
  minor := p.minor
  code := code
  reason := some (ascii (statusCodeToStr code))
  version := version
  digits := digits

theorem StatusLine.bytes_unbroken (line : StatusLine) {reason : Bytes} (given : line.reason = some reason)
    (unbroken : Unbroken reason) : Unbroken line.bytes := by
  have digit : ∀ {n}, n < 10 → digitChar n ≠ CR ∧ digitChar n ≠ LF := by
    intro n small
    decide +revert
  have := line.version
  have := line.digits
  intro byte member
  simp only [StatusLine.bytes, versionBytes_eq, given, Option.elim_some, List.cons_append, List.nil_append,
    List.mem_cons] at member
  rcases member with rfl | rfl | rfl | rfl | rfl | rfl | rfl | rfl | rfl | rfl | rfl | rfl | rfl | member
  any_goals decide
  any_goals exact digit (by omega)
  exact unbroken byte member

def replyLines (line : StatusLine) (unbroken : Unbroken line.bytes) (headers : List Kv)
    (wellFormed : ∀ kv ∈ headers, kv.WellFormed) : Head where
  startLine := line.bytes
  fields := headerFields headers wellFormed
  some := by simp [StatusLine.bytes, versionBytes_eq]
  unbroken := unbroken

theorem replyLines_bytes (p : Parser) (code : Nat) (version : 1 ≤ p.major ∧ p.major ≤ 9 ∧ p.minor ≤ 9)
    (digits : 100 ≤ code ∧ code ≤ 999) (headers : List Kv) (wellFormed : ∀ kv ∈ headers, kv.WellFormed) :
    (replyLines (replyStatusLine p code version digits)
      (StatusLine.bytes_unbroken _ rfl (statusCodeToStr_unbroken code)) headers wellFormed).bytes =
        replyHead headers p code := by
  have space : ascii " " = [SP] := rfl
  have point : ascii "." = [46] := rfl
  rw [Head.bytes, replyHead, statusLineBytes, evhtpModpU32toa_code digits, space, point]
  simp [replyLines, headerFields_bytes, replyStatusLine, StatusLine.bytes, versionBytes, LineEnd.bytes, crlf]

/-- On names without a carriage return the lookup compares without letter case. -/
theorem matchHeaderKey_contentLength {kv : Kv} (unbroken : Unbroken kv.key)
    (same : matchHeaderKey kv (ascii "Content-Length") = true) : sameText kv.key "Content-Length" = true := by
  have folded : ∀ c ∈ ascii "Content-Length", ∀ n < 256, UInt8.ofNat n ≠ CR →
      UInt8.ofNat n ||| 0x20 = c ||| 0x20 → toLower (UInt8.ofNat n) = toLower c := by decide +kernel
  have lowered : ∀ (key text : Bytes), (∀ c ∈ text, c ∈ ascii "Content-Length") → Unbroken key →
      key.map (· ||| 0x20) = text.map (· ||| 0x20) → key.map toLower = text.map toLower := by
    intro key
    induction key with
    | nil =>
      intro text _ _ same
      rw [List.map_nil, eq_comm, List.map_eq_nil_iff] at same
      rw [same]
    | cons byte key ih =>
      intro text inside unbroken same
      cases text with
      | nil => cases same
      | cons c text =>
        obtain ⟨first, rest⟩ := List.cons.inj same
        have here := folded c (inside c (by simp)) byte.toNat byte.toNat_lt
        rw [UInt8.ofNat_toNat] at here
        rw [List.map_cons, List.map_cons, here (unbroken byte (by simp)).1 first,
          ih text (fun c member => inside c (by simp [member])) (fun b member => unbroken b (by simp [member])) rest]
  rw [matchHeaderKey, Bool.and_eq_true, beq_iff_eq, beq_iff_eq] at same
  rw [sameText, beq_iff_eq]
  exact lowered kv.key _ (fun _ member => member) unbroken same.2

def lengthHeader (n : Nat) : Kv := ⟨ascii "Content-Length", evhtpModpSizetoa n⟩

theorem lengthHeader_wellFormed {n : Nat} (small : n < 2 ^ 64) : (lengthHeader n).WellFormed where
  named := show ascii "Content-Length" ≠ [] by decide
  token := show COLON ∉ ascii "Content-Length" by decide
  unbroken := ⟨show Unbroken (ascii "Content-Length") by decide, (evhtpModpSizetoa_decimal small).unbroken⟩
  trimmed := ⟨show Trimmed (ascii "Content-Length") by decide, (evhtpModpSizetoa_decimal small).trimmed⟩

def closeHeader : Kv := ⟨ascii "Connection", ascii "close"⟩

def typeHeader : Kv := ⟨ascii "Content-Type", ascii "text/plain"⟩

def addedHeaders (request : Request) (multipart : Bool) : List Kv :=
  let length := if multipart = false ∧ request.bufferOut ≠ [] ∧ request.flags.chunked = false then
    [lengthHeader request.bufferOut.length] else []
  length ++ (if request.flags.keepalive then [] else [closeHeader]) ++
    (if length = [] ∧ request.flags.chunked = false then [lengthHeader 0] else []) ++
    if (evhtpKvFind request.headersOut (ascii "Content-Type")).isSome then [] else [typeHeader]

theorem evhtpKvFind_append (first second : List Kv) (key : Bytes) :
    evhtpKvFind (first ++ second) key = (evhtpKvFind first key).or (evhtpKvFind second key) := by
  rw [evhtpKvFind, List.find?_append]
  cases found : first.find? (matchHeaderKey · key) <;> simp [evhtpKvFind, found]

def Request.addHeaders (request : Request) (kvs : List Kv) : Request :=
  { request with headersOut := request.headersOut ++ kvs }

theorem Request.addHeaders_nil (request : Request) : request.addHeaders [] = request := by
  simp [Request.addHeaders]

theorem Request.addHeaders_append (request : Request) (first second : List Kv) :
    (request.addHeaders first).addHeaders second = request.addHeaders (first ++ second) := by
  simp [Request.addHeaders]

theorem addConnection_added {request : Request} (proto : request.proto = .proto11) :
    addConnection request = request.addHeaders ((if request.flags.keepalive then [] else [closeHeader]) ++
      if evhtpKvFind request.headersOut (ascii "Content-Length") = none ∧ request.flags.chunked = false then
        [lengthHeader 0] else []) := by
  have zero : ascii "0" = evhtpModpSizetoa 0 := by decide
  have closes : evhtpKvFind [closeHeader] (ascii "Content-Length") = none := by decide
  have closed : (if request.flags.keepalive then request else request.addHeader (ascii "Connection") (ascii "close")) =
      request.addHeaders (if request.flags.keepalive then [] else [closeHeader]) := by
    split
    · exact request.addHeaders_nil.symm
    · rfl
  have same : evhtpKvFind (request.addHeaders (if request.flags.keepalive then [] else [closeHeader])).headersOut
      (ascii "Content-Length") = evhtpKvFind request.headersOut (ascii "Content-Length") := by
    split
    · rw [Request.addHeaders_nil]
    · rw [Request.addHeaders, evhtpKvFind_append, closes, Option.or_none]
  simp only [addConnection, proto, closed, same]
  rw [← Request.addHeaders_append, zero]
  generalize (if request.flags.keepalive = true then [] else [closeHeader]) = connection
  have flags : (request.addHeaders connection).flags = request.flags := rfl
  rw [flags]
  split
  · rfl
  · exact (Request.addHeaders_nil _).symm

/-- The headers of a reply are those of the application, with the added ones after them. -/
theorem replyHeaders_added (request : Request) (multipart : Bool) (proto : request.proto = .proto11)
    (absent : evhtpKvFind request.headersOut (ascii "Content-Length") = none) :
    replyHeaders request multipart = request.addHeaders (addedHeaders request multipart) := by
  have typed : ∀ r : Request, ∀ present : Bool,
      addContentType r present = r.addHeaders (if present then [] else [typeHeader]) := by
    intro r present
    cases present
    · rfl
    · exact r.addHeaders_nil.symm
  rw [replyHeaders, typed, addedHeaders]
  by_cases lengthy : multipart = false ∧ request.bufferOut ≠ [] ∧ request.flags.chunked = false
  · have early : addContentLength request multipart = request.addHeaders [lengthHeader request.bufferOut.length] := by
      rw [addContentLength, if_pos ⟨lengthy.1, lengthy.2.1, lengthy.2.2, absent⟩]
      rfl
    have found : evhtpKvFind (request.addHeaders [lengthHeader request.bufferOut.length]).headersOut
        (ascii "Content-Length") ≠ none := by
      have same : matchHeaderKey (lengthHeader request.bufferOut.length) (ascii "Content-Length") = true := by
        simp [matchHeaderKey, lengthHeader]
      simp [Request.addHeaders, evhtpKvFind, same]
    have full : ¬(evhtpKvFind (request.addHeaders [lengthHeader request.bufferOut.length]).headersOut
        (ascii "Content-Length") = none ∧
          (request.addHeaders [lengthHeader request.bufferOut.length]).flags.chunked = false) := fun none => found none.1
    have proto' : (request.addHeaders [lengthHeader request.bufferOut.length]).proto = .proto11 := proto
    rw [early, addConnection_added proto', if_neg full, if_pos lengthy]
    simp only [Request.addHeaders_append, List.append_nil, List.append_assoc, List.cons_ne_self, false_and,
      if_false]
    rfl
  · have early : addContentLength request multipart = request := by
      rw [addContentLength, if_neg]
      rintro ⟨single, some, plain, -⟩
      exact lengthy ⟨single, some, plain⟩
    rw [early, addConnection_added proto, if_neg lengthy]
    simp [Request.addHeaders, absent]

theorem addedHeaders_mem {request : Request} {multipart : Bool} {kv : Kv} (member : kv ∈ addedHeaders request multipart) :
    kv = closeHeader ∨ kv = typeHeader ∨
      (request.flags.chunked = false ∧ kv = lengthHeader (if multipart then 0 else request.bufferOut.length)) := by
  simp only [addedHeaders, List.mem_append] at member
  rcases member with ((member | member) | member) | member
  · split at member
    next lengthy =>
      rw [List.mem_singleton] at member
      exact .inr (.inr ⟨lengthy.2.2, by simp [member, lengthy.1]⟩)
    next => cases member
  · split at member
    next => cases member
    next => exact .inl (List.mem_singleton.mp member)
  · by_cases lengthy : multipart = false ∧ request.bufferOut ≠ [] ∧ request.flags.chunked = false
    · simp [lengthy] at member
    · rw [if_neg lengthy] at member
      split at member
      next empty =>
        rw [List.mem_singleton] at member
        refine .inr (.inr ⟨empty.2, ?_⟩)
        rw [member]
        cases multipart with
        | true => rfl
        | false =>
          have none : request.bufferOut = [] := by
            by_contra some
            exact lengthy ⟨rfl, some, empty.2⟩
          simp [none]
      next => cases member
  · split at member
    next => cases member
    next => exact .inr (.inl (List.mem_singleton.mp member))

theorem addedHeaders_length {request : Request} (multipart : Bool) (plain : request.flags.chunked = false) :
    lengthHeader (if multipart then 0 else request.bufferOut.length) ∈ addedHeaders request multipart := by
  by_cases lengthy : multipart = false ∧ request.bufferOut ≠ []
  · simp [addedHeaders, lengthy, plain]
  · have zero : (if multipart then 0 else request.bufferOut.length) = 0 := by
      cases multipart <;> simp_all
    rw [zero]
    cases multipart <;> simp_all [addedHeaders]

end Evhtp
