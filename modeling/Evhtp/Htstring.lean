import Evhtp.Bytes

/-! The htstring library, as far as the parser uses it. It is not part of the sources: the model takes
any implementation, results name the behaviour they rely on, and a plain implementation is there to
run the model with. -/

namespace Evhtp

/-- What the parser uses of a URI that the library has split into its components. -/
structure ParsedUri where
  hasError : Bool := false
  isAuthorityForm : Bool := false
  hasPort : Bool := false
  hasQuery : Bool := false
  scheme : Bytes := []
  host : Bytes := []
  hostPort : Bytes := []
  path : Bytes := []
  query : Bytes := []
  deriving DecidableEq, Repr

/-- String comparison without letter case, the names of the elements of a comma-separated list, and
the URI parser (the flag asks for the authority-form of CONNECT). -/
class Htstring where
  equalsi : Bytes → Bytes → Bool
  elements : Bytes → List Bytes
  parseUriView : Bytes → Bool → ParsedUri

/-- The behaviour `htstring_equalsi` is documented to have. -/
def ComparesAscii [Htstring] : Prop :=
  ∀ first second, Htstring.equalsi first second = true ↔ first.map toLower = second.map toLower

namespace Plain

def equalsi (first second : Bytes) : Bool := first.map toLower == second.map toLower

/-- The name of an element ends at its value or its parameters. -/
def elements (list : Bytes) : List Bytes :=
  ((list.splitOn 44).map fun element => trimBlanks (element.takeWhile fun byte => byte != 59 && byte != 61)).filter
    (· ≠ [])

def authority (hostPort : Bytes) : ParsedUri where
  hasPort := hostPort.contains COLON
  host := hostPort.takeWhile (· != COLON)
  hostPort := hostPort

def parseUriView (target : Bytes) (connect : Bool) : ParsedUri :=
  if connect then { authority target with isAuthorityForm := true }
  else
    let scheme := target.takeWhile (· != COLON)
    match target.drop scheme.length with
    | 58 :: 47 :: 47 :: rest =>
      let hostPort := rest.takeWhile fun byte => byte != 47 && byte != 63
      let tail := rest.drop hostPort.length
      let path := tail.takeWhile (· != 63)
      let query := tail.drop path.length
      { authority hostPort with scheme, path, hasQuery := query != [], query := query.drop 1 }
    | _ => { hasError := true }

@[reducible]
def htstring : Htstring := ⟨equalsi, elements, parseUriView⟩

theorem comparesAscii : @ComparesAscii htstring := by
  intro first second
  simp [Htstring.equalsi, equalsi]

end Plain

end Evhtp
