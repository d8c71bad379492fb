import Evhtp.Client
import Evhtp.Lib.Buffer

/-! Requests of an HTTP/2 client: the headers that `evhtp_h2_make_request` hands to nghttp2. A pointer into a value is what
can be read from it on, up to the terminator; a read or write outside has no result. -/

namespace Evhtp

/-- The bytes that `h2__connection_lists` passes over before an element. -/
def isListSeparator (byte : UInt8) : Bool := isBlank byte || byte == 44

def skipSeparators : Bytes → Option Bytes
  | [] => none
  | byte :: p => if isListSeparator byte then skipSeparators p else some (byte :: p)

/-- `for (e = p; *e && *e != ','; e++)`: the bytes up to `e`, and what is at `e`. -/
def elementEnd : Bytes → Option (Bytes × Bytes)
  | [] => none
  | byte :: p => if byte = 0 ∨ byte = 44 then some ([], byte :: p) else (elementEnd p).map fun found => (byte :: found.1, found.2)

theorem skipSeparators_length {p rest : Bytes} (skipped : skipSeparators p = some rest) : rest.length ≤ p.length := by
  induction p with
  | nil => cases skipped
  | cons byte p ih =>
    unfold skipSeparators at skipped
    split at skipped
    · exact Nat.le_succ_of_le (ih skipped)
    · cases skipped
      exact Nat.le_refl _

theorem elementEnd_length {p : Bytes} {found : Bytes × Bytes} (ends : elementEnd p = some found) : found.2.length ≤ p.length := by
  induction p generalizing found with
  | nil => cases ends
  | cons byte p ih =>
    unfold elementEnd at ends
    split at ends
    · cases ends
      exact Nat.le_refl _
    · obtain ⟨found', there, rfl⟩ := Option.map_eq_some_iff.mp ends
      have further : found'.2.length ≤ p.length := ih there
      exact Nat.le_succ_of_le further

/-- Each turn of the loop ends further on. -/
theorem connectionLists_advances {byte : UInt8} {p rest : Bytes} {found : Bytes × Bytes} (some : byte ≠ 0)
    (skipped : skipSeparators (byte :: p) = Option.some rest) (ends : elementEnd rest = Option.some found) :
    found.2.length < (byte :: p).length := by
  have shorter := elementEnd_length ends
  unfold skipSeparators at skipped
  split at skipped
  · exact Nat.lt_succ_of_le (shorter.trans (skipSeparators_length skipped))
  · next other =>
    cases skipped
    have inside : ¬ (byte = 0 ∨ byte = 44) := by
      rintro (rfl | rfl)
      · exact some rfl
      · exact other rfl
    unfold elementEnd at ends
    rw [if_neg inside] at ends
    obtain ⟨found', there, rfl⟩ := Option.map_eq_some_iff.mp ends
    have further : found'.2.length ≤ p.length := elementEnd_length there
    exact Nat.lt_succ_of_le further

/-- Equal lengths, and `strncasecmp` is zero. -/
def sameLetters (first second : Bytes) : Bool := first.length == second.length && first.map toLower == second.map toLower

def h2ConnectionLists (name : Bytes) (p : Bytes) : Option Bool :=
  match p with
  | [] => none
  | byte :: p =>
    if ended : byte = 0 then some false
    else
      match skipped : skipSeparators (byte :: p) with
      | none => none
      | some p =>
        match ends : elementEnd p with
        | none => none
        | some found =>
          have := connectionLists_advances ended skipped ends
          if sameLetters (found.1.rdropWhile isBlank) name then some true else h2ConnectionLists name found.2
termination_by p.length
decreasing_by exact this

def h2NamedByConnection (name : Bytes) : List Kv → Option Bool
  | [] => some false
  | kv :: headers =>
    if sameLetters kv.key (ascii "connection") then
      (h2ConnectionLists name (kv.val ++ [0])).bind fun listed =>
        if listed then some true else h2NamedByConnection name headers
    else h2NamedByConnection name headers

def hopByHopNames : List Bytes :=
  [ascii "host", ascii "connection", ascii "keep-alive", ascii "proxy-connection", ascii "transfer-encoding", ascii "upgrade"]

def skipHopByHopRequestHeader (headers : List Kv) (kv : Kv) : Option Bool :=
  if hopByHopNames.any (sameLetters kv.key) then some true
  else if sameLetters kv.key (ascii "te") then some (!sameLetters kv.val (ascii "trailers"))
  else h2NamedByConnection kv.key headers

/-- The first pass: the number of headers to make room for. -/
def h2CountHeaders (headersOut : List Kv) : Option Nat :=
  headersOut.foldlM (fun nvlen kv => (skipHopByHopRequestHeader headersOut kv).map fun skip => if skip then nvlen else nvlen + 1) 4

/-- The second pass: the array and the number of entries that were written. -/
def h2WriteHeaders (headersOut : List Kv) (nva : List (Option Kv)) (i : Nat) : Option (List (Option Kv) × Nat) :=
  headersOut.foldlM
    (fun written kv => (skipHopByHopRequestHeader headersOut kv).bind fun skip =>
      if skip then some written else (Buffer.write written.1 written.2 (some kv)).map fun nva => (nva, written.2 + 1))
    (nva, i)

/-- The pseudo-headers; `authority` is what `h2__client_authority` knows about the connection. -/
def h2PseudoHeaders (headersOut : List Kv) (meth : HtpMethod) (uri authority : Bytes) : List Kv :=
  [⟨ascii ":method", htparserGetMethodstrM meth⟩, ⟨ascii ":path", cString uri⟩, ⟨ascii ":scheme", ascii "https"⟩,
    ⟨ascii ":authority", cString ((evhtpKvFind headersOut (ascii "host")).getD authority)⟩]

/-- `evhtp_h2_make_request`, up to what it submits: the entries of the array that were written. -/
def evhtpH2MakeRequest (headersOut : List Kv) (meth : HtpMethod) (uri authority : Bytes) : Option (List (Option Kv)) :=
  (h2CountHeaders headersOut).bind fun nvlen =>
    (Buffer.copy (List.replicate nvlen none) 0 ((h2PseudoHeaders headersOut meth uri authority).map some)).bind fun nva =>
      (h2WriteHeaders headersOut nva 4).map fun written => written.1.take written.2

end Evhtp
