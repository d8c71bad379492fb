import Evhtp.Bytes
import Evhtp.Lib.Buffer

/-! The compiler of log formats. `strp` is a position in the format string and its terminator, and every access to the
string or to a tag is checked: one that is outside is a fault. Allocation succeeds. -/

namespace Evhtp

/-- `htp_log_op_type`; `unset` is the zero of a lookup that failed, which is none of its constants. -/
inductive LogOpType where
  | unset | useragent | path | rhost | method | timestamp | proto | status | referrer | host | header | printable
  deriving DecidableEq, Repr

/-- `op_type_strmap_`, without the entry that ends it. -/
def opTypeStrmap : List (Bytes × LogOpType) :=
  [(ascii "$ua", .useragent), (ascii "$path", .path), (ascii "$rhost", .rhost), (ascii "$meth", .method),
    (ascii "$ts", .timestamp), (ascii "$proto", .proto), (ascii "$status", .status), (ascii "$ref", .referrer),
    (ascii "$host", .host), (ascii "$hdr::", .header)]

def HTP_LOG_OP_TAGSZ : Nat := 1024

/-- `struct htp_log_op`. -/
structure LogOp where
  type : LogOpType
  len : Nat := 0
  tag : Bytes := List.replicate HTP_LOG_OP_TAGSZ 0
  deriving DecidableEq, Repr

/-- Why there is no result: an access outside of the format string or of a tag, or turns that do not suffice. -/
inductive LogStop where
  | fault | unfinished
  deriving DecidableEq, Repr

/-- `strncasecmp(name, text, strlen(name)) == 0`. It reads the text up to the first letter that differs. -/
def hasName : Bytes → Bytes → Except LogStop Bool
  | [], _ => .ok true
  | _ :: _, [] => .error .fault
  | letter :: name, byte :: text => if toLower letter = toLower byte then hasName name text else .ok false

/-- The loop of `htp_log_str_to_op_type_`: the type, and what is stored to `arglen`. -/
def findOpType (text : Bytes) : List (Bytes × LogOpType) → Except LogStop (Option (LogOpType × Nat))
  | [] => .ok none
  | (name, type) :: rest =>
    (hasName name text).bind fun same => if same then .ok (some (type, name.length)) else findOpType text rest

def htpLogStrToOpType (text : Bytes) : Except LogStop (Option (LogOpType × Nat)) := findOpType text opTypeStrmap

/-- The bytes from a position on, of which there is at least one. -/
def textAt (memory : Bytes) (strp : Int) : Except LogStop Bytes :=
  if 0 ≤ strp ∧ strp < memory.length then .ok (memory.drop strp.toNat) else .error .fault

/-- `op->tag[op->len++] = c; op->tag[op->len] = '\0'`. -/
def LogOp.put (op : LogOp) (c : UInt8) : Except LogStop LogOp :=
  match (Buffer.write op.tag op.len c).bind fun tag => Buffer.write tag (op.len + 1) 0 with
  | some tag => .ok { op with len := op.len + 1, tag }
  | none => .error .fault

def htpLogFormatAddchar (format : List LogOp) (c : UInt8) : Except LogStop (List LogOp) :=
  match format.getLast? with
  | none => (LogOp.put { type := .printable } c).map fun op => format ++ [op]
  | some op =>
    if op.type ≠ .printable then (LogOp.put { type := .printable } c).map fun op => format ++ [op]
    else (op.put c).map fun op => format.dropLast ++ [op]

/-- `strp` and `format` in the loop of `htp_log_format_compile_`. -/
structure LogScan where
  strp : Int := 0
  format : List LogOp := []
  deriving DecidableEq, Repr

/-- `IS_FMTVAR`, at a byte and what follows it. -/
def isFmtvar (byte : UInt8) (rest : Bytes) : Except LogStop Bool :=
  if byte = 36 then
    match rest with
    | [] => .error .fault
    | next :: _ => .ok (next != 36)
  else .ok false

/-- A turn of the loop, or none at the terminator. `garbage` is what `arglen`, which is not initialized, holds before the
lookup. -/
def compileTurn (garbage : LogScan → Int) (memory : Bytes) (s : LogScan) : Except LogStop (Option LogScan) :=
  (textAt memory s.strp).bind fun text =>
    match text with
    | [] => .error .fault
    | byte :: rest =>
      if byte = 0 then .ok none
      else
        (isFmtvar byte rest).bind fun fmtvar =>
          if fmtvar then
            (htpLogStrToOpType text).map fun found =>
              let type := (found.map Prod.fst).getD .unset
              let arglen : Int := (found.map fun known => (known.2 : Int)).getD (garbage s)
              some ⟨s.strp + (arglen - 1) + 1, s.format ++ [{ type }]⟩
          else (htpLogFormatAddchar s.format byte).map fun format => some ⟨s.strp + 1, format⟩

/-- `htp_log_format_compile_` from a state of its loop on, with so many turns. -/
def compileTurns (garbage : LogScan → Int) (memory : Bytes) : Nat → LogScan → Except LogStop LogScan
  | 0, _ => .error .unfinished
  | turns + 1, s => (compileTurn garbage memory s).bind fun
    | none => .ok s
    | some s => compileTurns garbage memory turns s

def htpLogFormatCompile (garbage : LogScan → Int) (strfmt : Bytes) (turns : Nat) : Except LogStop LogScan :=
  compileTurns garbage (strfmt ++ [0]) turns {}

end Evhtp
