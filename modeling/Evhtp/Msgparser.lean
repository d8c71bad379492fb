import Evhtp.Htstring

/-! The HTTP/1.x message parser of msgparser.c. The parser keeps no line buffer: a run is given the
bytes not consumed so far, fires hooks on complete lines and body pieces, and returns how many bytes
it consumed. Hooks act on a user state of their own and may pause the parser, skip the body, rewrite
the version the next reply is sent with, or fail the message. -/

namespace Evhtp

inductive HtpType where
  | request | response
  deriving DecidableEq, Repr

inductive HtpScheme where
  | none | ftp | http | https | nfs | unknown
  deriving DecidableEq, Repr

inductive HtpMethod where
  | UNKNOWN | GET | HEAD | POST | PUT | DELETE | MKCOL | COPY | MOVE | OPTIONS | PROPFIND | PROPPATCH
  | LOCK | UNLOCK | TRACE | CONNECT | PATCH
  deriving DecidableEq, Repr

inductive ParseError where
  | none | tooBig | invalMethod | invalReqline | invalSchema | invalProto | invalVer | invalHdr
  | invalChunkSz | invalChunk | invalState | user | status | generic
  deriving DecidableEq, Repr

inductive ParserState where
  | start | headLine | headers | body | trailers | complete | error
  deriving DecidableEq, Repr

inductive BodyMode where
  | none | length | chunked | identity
  deriving DecidableEq, Repr

inductive ChunkState where
  | size | data | dataEnd
  deriving DecidableEq, Repr

/-- The `F_` bits of the parser. -/
structure ParserFlags where
  haveHost : Bool := false
  haveCl : Bool := false
  haveTe : Bool := false
  chunked : Bool := false
  teBad : Bool := false
  teUnknown : Bool := false
  haveCt : Bool := false
  multipart : Bool := false
  connKeepAlive : Bool := false
  connClose : Bool := false
  skipBody : Bool := false
  paused : Bool := false
  deriving DecidableEq, Repr

structure Http1config where
  maxLineLength : Nat
  maxHeaderCount : Nat
  maxEmptyLineCount : Nat
  allowFolding : Bool
  deriving DecidableEq, Repr

def defaultConfig : Http1config where
  maxLineLength := 8192
  maxHeaderCount := 100
  maxEmptyLineCount := 10
  allowFolding := false

/-- Zero turns a limit off. -/
def unlimitedConfig : Http1config where
  maxLineLength := 0
  maxHeaderCount := 0
  maxEmptyLineCount := 0
  allowFolding := false

/-- The part of `struct htparser` that parsing reads and writes. -/
structure Parser where
  config : Http1config
  type : HtpType
  state : ParserState := .start
  error : ParseError := .none
  body : BodyMode := .none
  chunk : ChunkState := .size
  method : HtpMethod := .UNKNOWN
  scheme : HtpScheme := .none
  status : Nat := 0
  major : Nat := 0
  minor : Nat := 0
  flags : ParserFlags := {}
  contentLen : Nat := 0
  origContentLen : Nat := 0
  headerCount : Nat := 0
  emptyLines : Nat := 0
  deriving DecidableEq, Repr

/-- All of `struct htparser`: the byte totals are only written when a run returns. -/
structure Htparser extends Parser where
  bytesRead : Nat := 0
  totalBytesRead : UInt64 := 0
  deriving DecidableEq, Repr

inductive HookName where
  | onMsgBegin | method | scheme | host | port | path | args | uri | onHdrsBegin | hdrKey | hdrVal
  | hostname | onHdrsComplete | onNewChunk | onChunkComplete | onChunksComplete | body | onMsgComplete
  deriving DecidableEq, Repr

/-- A hook and the bytes it is given; hooks without an argument are given none. -/
structure HookEvent where
  name : HookName
  data : Bytes := []
  deriving DecidableEq, Repr

/-- What a hook does to the parser that calls it: its return value, and whether it called
`htparser_pause`, `htparser_set_skip_body` or the version setters. -/
structure HookReply where
  rc : Int := 0
  pause : Bool := false
  skipBody : Bool := false
  version : Option (Nat × Nat) := none
  deriving DecidableEq, Repr

/-- The `htparse_hooks` table: which hooks are set, and what they do. -/
structure Hooks (σ : Type) where
  present : HookName → Bool
  call : HookEvent → Parser → σ → HookReply × σ

/-- The parser in a run, with the state its hooks work on. -/
structure Scan (σ : Type) where
  p : Parser
  user : σ
  deriving DecidableEq, Repr

def Parser.fail (p : Parser) (error : ParseError) : Parser := { p with error, state := .error }

def Scan.fail {σ : Type} (s : Scan σ) (error : ParseError) : Bool × Scan σ :=
  (false, { s with p := s.p.fail error })

def Parser.replied (p : Parser) (reply : HookReply) : Parser :=
  let version := reply.version.getD (p.major, p.minor)
  let flags := { p.flags with
    paused := p.flags.paused || reply.pause
    skipBody := p.flags.skipBody || reply.skipBody }
  let p := { p with flags, major := version.1, minor := version.2 }
  if reply.rc = 0 then p else p.fail .user

/-- The macros `HOOK` and `DHOOK`: an absent hook succeeds, a failing one fails the message. -/
def hook {σ : Type} (H : Hooks σ) (name : HookName) (data : Bytes) (s : Scan σ) : Bool × Scan σ :=
  if H.present name then
    let result := H.call ⟨name, data⟩ s.p s.user
    (result.1.rc == 0, ⟨s.p.replied result.1, result.2⟩)
  else (true, s)

/-- The C operator `&&` over functions that update the parser. -/
def andThen {σ : Type} (first : Bool × Scan σ) (next : Scan σ → Bool × Scan σ) : Bool × Scan σ :=
  if first.1 then next first.2 else first

inductive LineResult where
  | incomplete
  | tooLong
  | line (content : Bytes) (used : Nat)
  deriving DecidableEq, Repr

def stripCr (raw : Bytes) : Bytes := if raw.getLast? = some CR then raw.dropLast else raw

/-- A complete line at the start of `data`: its content without CRLF or bare LF, and its full length. -/
def takeLine (max : Nat) (data : Bytes) : LineResult :=
  let raw := data.takeWhile (· != LF)
  if raw.length = data.length then
    if max ≠ 0 ∧ data.length > max then .tooLong else .incomplete
  else if max ≠ 0 ∧ (stripCr raw).length > max then .tooLong
  else .line (stripCr raw) (raw.length + 1)

def methods : List (Bytes × HtpMethod) :=
  [(ascii "GET", .GET), (ascii "PUT", .PUT), (ascii "POST", .POST), (ascii "HEAD", .HEAD),
    (ascii "COPY", .COPY), (ascii "MOVE", .MOVE), (ascii "LOCK", .LOCK), (ascii "PATCH", .PATCH),
    (ascii "TRACE", .TRACE), (ascii "MKCOL", .MKCOL), (ascii "DELETE", .DELETE),
    (ascii "UNLOCK", .UNLOCK), (ascii "OPTIONS", .OPTIONS), (ascii "CONNECT", .CONNECT),
    (ascii "PROPFIND", .PROPFIND), (ascii "PROPPATCH", .PROPPATCH)]

def methodFrom (name : Bytes) : HtpMethod :=
  match methods.find? (fun entry => entry.1 == name) with
  | some entry => entry.2
  | none => .UNKNOWN

/-- The next SP-delimited token of a start line, and what follows it and its spaces. -/
def nextToken (cur : Bytes) : Bytes × Bytes :=
  let start := cur.dropWhile (· == SP)
  (start.takeWhile (· != SP), (start.dropWhile (· != SP)).dropWhile (· == SP))

/-- The form is `HTTP/d.d`. -/
def parseVersion (v : Bytes) : Option (Nat × Nat) :=
  match v with
  | [h, t1, t2, p, slash, major, dot, minor] =>
    if [h, t1, t2, p, slash] = ascii "HTTP/" ∧ isDigit major ∧ dot = 46 ∧ isDigit minor ∧ major ≠ 48 then
      some (digitVal major, digitVal minor)
    else none
  | _ => none

def parseU64Loop (v : Nat) : Bytes → Option Nat
  | [] => some v
  | byte :: rest =>
    if isDigit byte = false ∨ v > (2 ^ 64 - 1 - digitVal byte) / 10 then none
    else parseU64Loop (v * 10 + digitVal byte) rest

/-- Decimal Content-Length; none on anything else or overflow. -/
def parseU64 (s : Bytes) : Option Nat := if s = [] then none else parseU64Loop 0 s

def hexval (c : UInt8) : Option Nat :=
  if 48 ≤ c ∧ c ≤ 57 then some (c.toNat - 48)
  else
    let c := c ||| 0x20
    if 97 ≤ c ∧ c ≤ 102 then some (c.toNat - 97 + 10) else none

/-- The digits of a chunk size: their number, their value and what follows them. -/
def chunkDigits (n v : Nat) : Bytes → Option (Nat × Nat × Bytes)
  | [] => some (n, v, [])
  | byte :: rest =>
    match hexval byte with
    | none => some (n, v, byte :: rest)
    | some digit => if n = 15 then none else chunkDigits (n + 1) ((v <<< 4 ||| digit) % 2 ^ 64) rest

/-- After the digits: nothing, blanks, or a chunk extension, which is not validated. -/
def chunkExtension : Bytes → Bool
  | [] => true
  | byte :: rest => if byte = 59 then true else if isBlank byte then chunkExtension rest else false

def parseChunkSize (s : Bytes) : Option Nat :=
  match chunkDigits 0 0 s with
  | none => none
  | some (n, v, rest) => if n = 0 then none else if chunkExtension rest then some v else none

section
variable [Htstring] {σ : Type} (H : Hooks σ)

def schemeFrom (s : Bytes) : HtpScheme :=
  if Htstring.equalsi s (ascii "http") then .http
  else if Htstring.equalsi s (ascii "https") then .https
  else if Htstring.equalsi s (ascii "ftp") then .ftp
  else if Htstring.equalsi s (ascii "nfs") then .nfs
  else .unknown

def afterLastColon (hostPort : Bytes) : Option Bytes :=
  if COLON ∈ hostPort then some (hostPort.reverse.takeWhile (· != COLON)).reverse else none

def emitHostPort (uri : ParsedUri) (s : Scan σ) : Bool × Scan σ :=
  andThen (hook H .host uri.host s) fun s =>
    if uri.hasPort then
      match afterLastColon uri.hostPort with
      | some port => hook H .port port s
      | none => (true, s)
    else (true, s)

def Scan.setScheme (s : Scan σ) (scheme : HtpScheme) : Scan σ := { s with p := { s.p with scheme } }

def emitOriginForm (t : Bytes) (s : Scan σ) : Bool × Scan σ :=
  let path := t.takeWhile (· != 63)
  let query := t.dropWhile (· != 63)
  andThen (hook H .path path (s.setScheme .none)) fun s =>
    andThen (match query with | [] => (true, s) | _ :: args => hook H .args args s) fun s =>
      hook H .uri t s

def emitAbsoluteForm (t : Bytes) (uri : ParsedUri) (s : Scan σ) : Bool × Scan σ :=
  let scheme := schemeFrom uri.scheme
  let s := s.setScheme scheme
  if scheme = .unknown then s.fail .invalSchema
  else
    andThen (hook H .scheme uri.scheme s) fun s =>
      andThen (emitHostPort H uri s) fun s =>
        andThen (hook H .path (if uri.path = [] then ascii "/" else uri.path) s) fun s =>
          andThen (if uri.hasQuery then hook H .args uri.query s else (true, s)) fun s =>
            hook H .uri t s

/-- Hooks in parser.c's order: scheme, host, port, path, args, uri. -/
def emitTarget (t : Bytes) (s : Scan σ) : Bool × Scan σ :=
  if t.head? = some 47 then emitOriginForm H t s
  else if t = ascii "*" then
    andThen (hook H .path t (s.setScheme .none)) fun s => hook H .uri t s
  else
    let uri := Htstring.parseUriView t (s.p.method == .CONNECT)
    if uri.hasError then s.fail .invalReqline
    else if uri.isAuthorityForm then
      andThen (emitHostPort H uri (s.setScheme .none)) fun s =>
        andThen (hook H .path (ascii "/") s) fun s => hook H .uri t s
    else emitAbsoluteForm H t uri s

/-- The form is method SP request-target SP HTTP-version. -/
def parseRequestLine (line : Bytes) (s : Scan σ) : Bool × Scan σ :=
  let method := nextToken line
  let target := nextToken method.2
  let version := nextToken target.2
  let s := { s with p := { s.p with method := methodFrom method.1 } }
  if methodFrom method.1 = .UNKNOWN then s.fail .invalMethod
  else if target.1 = [] ∨ version.2 ≠ [] then s.fail .invalReqline
  else
    match parseVersion version.1 with
    | none => s.fail .invalVer
    | some (major, minor) =>
      andThen (hook H .method method.1 { s with p := { s.p with major, minor } }) fun s =>
        emitTarget H target.1 s

/-- The form is HTTP-version SP 3DIGIT SP [reason]. -/
def parseStatusLine (line : Bytes) (s : Scan σ) : Bool × Scan σ :=
  if line.length < 12 then s.fail .invalVer
  else
    match parseVersion (line.take 8) with
    | none => s.fail .invalVer
    | some (major, minor) =>
      let s := { s with p := { s.p with major, minor } }
      match line.drop 8 with
      | sp :: d1 :: d2 :: d3 :: reason =>
        if sp = SP ∧ isDigit d1 ∧ isDigit d2 ∧ isDigit d3 ∧ (reason = [] ∨ reason.head? = some SP) then
          let status := digitVal d1 * 100 + digitVal d2 * 10 + digitVal d3
          let s := { s with p := { s.p with status } }
          if status < 100 then s.fail .status else (true, s)
        else s.fail .status
      | _ => s.fail .status

def isKnownCoding (coding : Bytes) : Bool :=
  Htstring.equalsi coding (ascii "gzip") || Htstring.equalsi coding (ascii "deflate") ||
    Htstring.equalsi coding (ascii "compress") || Htstring.equalsi coding (ascii "x-gzip")

def noteCoding (flags : ParserFlags) (coding : Bytes) : ParserFlags :=
  if Htstring.equalsi coding (ascii "chunked") then
    { flags with teBad := flags.teBad || flags.chunked, chunked := true }
  else
    { flags with
      teBad := flags.teBad || flags.chunked
      teUnknown := flags.teUnknown || !isKnownCoding coding }

/-- Transfer-Encoding, over every such field: only chunked as the last coding frames the body. -/
def noteTransferEncoding (flags : ParserFlags) (value : Bytes) : ParserFlags :=
  (Htstring.elements value).foldl noteCoding { flags with haveTe := true }

def noteToken (flags : ParserFlags) (token : Bytes) : ParserFlags :=
  if Htstring.equalsi token (ascii "close") then { flags with connClose := true }
  else if Htstring.equalsi token (ascii "keep-alive") then { flags with connKeepAlive := true }
  else flags

/-- Connection is a list of tokens, possibly over several fields. -/
def noteConnection (flags : ParserFlags) (value : Bytes) : ParserFlags :=
  (Htstring.elements value).foldl noteToken flags

def noteLengths (any : Bool) (p : Parser) : List Bytes → Bool × Parser
  | [] => if any then (true, p) else (false, p.fail .invalHdr)
  | element :: rest =>
    match parseU64 element with
    | none => (false, p.fail .invalHdr)
    | some n =>
      if p.flags.haveCl ∧ n ≠ p.origContentLen then (false, p.fail .invalHdr)
      else noteLengths true { p with origContentLen := n, flags := { p.flags with haveCl := true } } rest

/-- Content-Length: repeated fields (or "5, 5") must agree. -/
def noteContentLength (p : Parser) (value : Bytes) : Bool × Parser :=
  noteLengths false p (Htstring.elements value)

def noteContentType (flags : ParserFlags) (name value : Bytes) : ParserFlags :=
  if flags.haveCt = false ∧ Htstring.equalsi name (ascii "Content-Type") then
    { flags with
      haveCt := true
      multipart := flags.multipart ||
        (decide (9 ≤ value.length) && Htstring.equalsi (value.take 9) (ascii "multipart")) }
  else flags

def Parser.setFlags (p : Parser) (flags : ParserFlags) : Parser := { p with flags }

/-- The fields the parser looks at without a hook, by the length of their name. -/
def noteField (name value : Bytes) (p : Parser) : Bool × Parser :=
  match name.length with
  | 10 =>
    if Htstring.equalsi name (ascii "Connection") then (true, p.setFlags (noteConnection p.flags value))
    else (true, p)
  | 12 => (true, p.setFlags (noteContentType p.flags name value))
  | 14 =>
    if Htstring.equalsi name (ascii "Content-Length") then noteContentLength p value
    else (true, p)
  | 17 =>
    if Htstring.equalsi name (ascii "Transfer-Encoding") then
      (true, p.setFlags (noteTransferEncoding p.flags value))
    else (true, p)
  | _ => (true, p)

def Parser.sawHost (p : Parser) : Parser := p.setFlags { p.flags with haveHost := true }

/-- The fields of a head the parser looks at; the first Host has a hook of its own. -/
def noteHeader (name value : Bytes) (s : Scan σ) : Bool × Scan σ :=
  if name.length = 4 then
    if s.p.flags.haveHost = false ∧ Htstring.equalsi name (ascii "Host") then
      hook H .hostname value { s with p := s.p.sawHost }
    else (true, s)
  else
    let result := noteField name value s.p
    (result.1, { s with p := result.2 })

/-- The form is name ":" OWS value OWS. Leading whitespace would be obs-fold: refused. -/
def parseHeader (line : Bytes) (trailer : Bool) (s : Scan σ) : Bool × Scan σ :=
  let name := line.takeWhile (· != COLON)
  match line.dropWhile (· != COLON) with
  | [] => s.fail .invalHdr
  | _ :: rest =>
    if line.head?.any isBlank ∨ name = [] ∨ name.getLast?.any isBlank then s.fail .invalHdr
    else
      let value := trimBlanks rest
      andThen (hook H .hdrKey name s) fun s =>
        andThen (if trailer then (true, s) else noteHeader H name value s) fun s =>
          hook H .hdrVal value s

/-- Where does the body end? (RFC 9112 6.3) -/
def framing (p : Parser) : Bool × Parser :=
  let response := p.type == .response
  let framed := fun (body : BodyMode) =>
    (true, { p with body, contentLen := if body = .length then p.origContentLen else 0, chunk := .size })
  if p.flags.skipBody then framed .none
  else if response ∧ (p.status < 200 ∨ p.status = 204 ∨ p.status = 304) then framed .none
  else if p.flags.haveTe then
    if p.flags.teBad then (false, p.fail .invalHdr)
    else if response = false ∧ (p.flags.chunked = false ∨ p.flags.teUnknown ∨ p.flags.haveCl) then
      (false, p.fail .invalHdr)
    else framed (if p.flags.chunked then .chunked else .identity)
  else if p.flags.haveCl then framed (if p.origContentLen ≠ 0 then .length else .none)
  else if response ∧ p.major * 10 + p.minor < 11 ∧ p.flags.connKeepAlive = false then framed .identity
  else framed .none

/-- How much of `data` belongs to a Content-Length or read-until-close body. -/
def Parser.delimitedPiece (p : Parser) (data : Bytes) : Nat :=
  if p.body = .length ∧ data.length > p.contentLen then p.contentLen else data.length

def countDelimited (n : Nat) (result : Bool × Scan σ) : Scan σ :=
  if result.1 ∧ result.2.p.body = .length then
    { result.2 with p := { result.2.p with
        contentLen := result.2.p.contentLen - n
        state := if result.2.p.contentLen - n = 0 then .complete else result.2.p.state } }
  else result.2

def parseDelimited (data : Bytes) (s : Scan σ) : Scan σ × Nat :=
  let n := s.p.delimitedPiece data
  (countDelimited n (if n ≠ 0 then hook H .body (data.take n) s else (true, s)), n)

def parseSizeLine (data : Bytes) (s : Scan σ) : Scan σ × Nat :=
  match takeLine s.p.config.maxLineLength data with
  | .incomplete => (s, 0)
  | .tooLong => ((s.fail .tooBig).2, 0)
  | .line content used =>
    match parseChunkSize content with
    | none => ((s.fail .invalChunkSz).2, used)
    | some size =>
      if size = 0 then
        let s := { s with p := { s.p with state := .trailers, headerCount := 0 } }
        ((hook H .onChunksComplete [] s).2, used)
      else
        let s := { s with p := { s.p with contentLen := size, origContentLen := size, chunk := .data } }
        ((hook H .onNewChunk [] s).2, used)

def Parser.chunkPiece (p : Parser) (data : Bytes) : Nat :=
  if data.length > p.contentLen then p.contentLen else data.length

def countChunk (n : Nat) (result : Bool × Scan σ) : Scan σ :=
  if result.1 then
    { result.2 with p := { result.2.p with
        contentLen := result.2.p.contentLen - n
        chunk := if result.2.p.contentLen - n = 0 then .dataEnd else result.2.p.chunk } }
  else result.2

def parseChunkData (data : Bytes) (s : Scan σ) : Scan σ × Nat :=
  let n := s.p.chunkPiece data
  (countChunk n (hook H .body (data.take n) s), n)

def parseChunkEnd (data : Bytes) (s : Scan σ) : Scan σ × Nat :=
  match takeLine s.p.config.maxLineLength data with
  | .incomplete => if data.length < 2 then (s, 0) else ((s.fail .invalChunk).2, 0)
  | .tooLong => ((s.fail .invalChunk).2, 0)
  | .line content used =>
    if content ≠ [] then ((s.fail .invalChunk).2, 0)
    else ((hook H .onChunkComplete [] { s with p := { s.p with chunk := .size } }).2, used)

def parseBody (data : Bytes) (s : Scan σ) : Scan σ × Nat :=
  match s.p.body with
  | .length | .identity => parseDelimited H data s
  | .chunked =>
    match s.p.chunk with
    | .size => parseSizeLine H data s
    | .data => parseChunkData H data s
    | .dataEnd => parseChunkEnd H data s
  | .none => ({ s with p := { s.p with state := .complete } }, 0)

/-- Message state back to "nothing seen"; the configuration stays. -/
def messageReset (p : Parser) : Parser :=
  { config := p.config, type := p.type, flags := { paused := p.flags.paused } }

/-- The state a framed head leads to. -/
def Parser.headDone (p : Parser) : Parser := { p with state := if p.body = .none then .complete else .body }

/-- Callers may ask for the body to be skipped when the head is complete. -/
def skipIfAsked (done : Bool × Scan σ) : Scan σ :=
  if done.1 ∧ done.2.p.flags.skipBody then
    { done.2 with p := { done.2.p with body := .none, state := .complete } }
  else done.2

def endHead (s : Scan σ) : Scan σ :=
  if (framing s.p).1 then
    skipIfAsked (hook H .onHdrsComplete [] { s with p := (framing s.p).2.headDone })
  else { s with p := (framing s.p).2 }

def parseStartLine (line : Bytes) (s : Scan σ) : Bool × Scan σ :=
  match s.p.type with
  | .request => parseRequestLine H line s
  | .response => parseStatusLine line s

def enterHeaders (s : Scan σ) : Scan σ :=
  (hook H .onHdrsBegin [] { s with p := { s.p with state := .headers } }).2

def Parser.countHeader (p : Parser) : Parser := { p with headerCount := p.headerCount + 1 }

/-- One complete line of the head or of the trailer section. -/
def parseHeadLine (line : Bytes) (s : Scan σ) : Scan σ :=
  if s.p.state = .headLine then
    let result := parseStartLine H line s
    if result.1 then enterHeaders H result.2 else result.2
  else if line = [] then
    if s.p.state = .trailers then { s with p := { s.p with state := .complete } } else endHead H s
  else if s.p.config.maxHeaderCount ≠ 0 ∧ s.p.headerCount ≥ s.p.config.maxHeaderCount then
    (s.fail .tooBig).2
  else
    (parseHeader H line (s.p.state == .trailers) { s with p := s.p.countHeader }).2

def ParserState.inHead (state : ParserState) : Bool :=
  state == .headLine || state == .headers || state == .trailers

/-- The head of the message (or the trailer section), for as long as complete lines are there. -/
def parseHeadLoop : Nat → Bytes → Scan σ → Scan σ × Nat
  | 0, _, s => (s, 0)
  | fuel + 1, data, s =>
    if s.p.state.inHead ∧ s.p.flags.paused = false then
      match takeLine s.p.config.maxLineLength data with
      | .incomplete => (s, 0)
      | .tooLong => ((s.fail .tooBig).2, 0)
      | .line content used =>
        let rest := parseHeadLoop fuel (data.drop used) (parseHeadLine H content s)
        (rest.1, used + rest.2)
    else (s, 0)

/-- A line takes at least one byte, so this is as many turns as the loop of the source can make. -/
def parseHead (data : Bytes) (s : Scan σ) : Scan σ × Nat := parseHeadLoop H (data.length + 1) data s

/-- One CR or LF before a message; the lines they end are counted. -/
def skipByte (p : Parser) (byte : UInt8) : Bool × Parser :=
  if byte = LF ∧ p.config.maxEmptyLineCount ≠ 0 then
    let p := { p with emptyLines := p.emptyLines + 1 }
    if p.emptyLines ≥ p.config.maxEmptyLineCount then (false, p.fail .tooBig) else (true, p)
  else (true, p)

/-- Empty lines before a message: whether their number was accepted, and the bytes skipped. -/
def skipEmptyLines (p : Parser) : Bytes → (Bool × Parser) × Nat
  | [] => ((true, p), 0)
  | byte :: rest =>
    if byte = CR ∨ byte = LF then
      let skipped := skipByte p byte
      if skipped.1 then
        let more := skipEmptyLines skipped.2 rest
        (more.1, more.2 + 1)
      else (skipped, 1)
    else ((true, p), 0)

def ParserState.needsData (state : ParserState) : Bool := state.inHead || state == .body

def Parser.begin (p : Parser) : Parser := { messageReset p with state := .headLine }

def beginMessage (s : Scan σ) : Scan σ := (hook H .onMsgBegin [] { s with p := s.p.begin }).2

/-- The parser after a message; a request to skip a body applied to this one. -/
def Parser.finish (p : Parser) : Parser :=
  { p with state := .start, flags := { p.flags with skipBody := false } }

def finishMessage (s : Scan σ) : Scan σ := (hook H .onMsgComplete [] { s with p := s.p.finish }).2

/-- The run loop. A turn without progress in a state that waits for data ends it, and so does the
completion of a message: the next one begins on a later call. -/
def runLoop : Nat → Bytes → Scan σ → Scan σ × Nat
  | 0, _, s => (s, 0)
  | fuel + 1, data, s =>
    if s.p.state = .error ∨ s.p.flags.paused then (s, 0)
    else
      let advance := fun (turn : Scan σ × Nat) =>
        if turn.2 = 0 ∧ turn.1.p.state.needsData then turn
        else
          let rest := runLoop fuel (data.drop turn.2) turn.1
          (rest.1, turn.2 + rest.2)
      match s.p.state with
      | .start =>
        let skipped := skipEmptyLines s.p data
        let s := { s with p := skipped.1.2 }
        if skipped.1.1 = false ∨ data.length ≤ skipped.2 then (s, skipped.2)
        else
          let rest := runLoop fuel (data.drop skipped.2) (beginMessage H s)
          (rest.1, skipped.2 + rest.2)
      | .headLine | .headers | .trailers => advance (parseHead H data s)
      | .body => if data = [] then (s, 0) else advance (parseBody H data s)
      | .complete => (finishMessage H s, 0)
      | .error => (s, 0)

/-- As many turns as the loop can make on `data`: every turn but a few consumes a byte. -/
def runFuel (data : Bytes) : Nat := data.length + 5

def htparserRun (p : Htparser) (user : σ) (data : Bytes) : Htparser × σ × Nat :=
  let result := runLoop H (runFuel data) data ⟨p.toParser, user⟩
  ({ result.1.p with
      bytesRead := result.2
      totalBytesRead := p.totalBytesRead + UInt64.ofNat result.2 }, result.1.user, result.2)

/-- EOF from the peer: it ends a read-until-close response. -/
def htparserRunEof (p : Htparser) (user : σ) : Htparser × σ :=
  if p.state = .body ∧ p.body = .identity then
    let result := (hook H .onMsgComplete [] ⟨{ p.toParser with state := .start }, user⟩).2
    ({ p with toParser := result.p }, result.user)
  else (p, user)

end

/-- A fresh parser for `type`; a configuration set before is kept. -/
def htparserInit (p : Htparser) (type : HtpType) : Htparser :=
  { p with
    toParser := messageReset { p.toParser with type, flags := {} }
    bytesRead := 0 }

/-- The parser of `htparser_new_`; `calloc` leaves the type a request. -/
def htparserNew (config : Http1config) : Htparser := { config, type := .request }

def htparserReset (p : Htparser) : Htparser :=
  let p' := messageReset p.toParser
  { p with toParser := { p' with flags := { skipBody := p.flags.skipBody } } }

def Parser.shouldKeepAlive (p : Parser) : Bool :=
  if p.flags.connClose then false else decide (p.major * 10 + p.minor ≥ 11) || p.flags.connKeepAlive

def Parser.hasContentLength (p : Parser) : Bool := p.flags.haveCl && !p.flags.chunked

def Parser.pause (p : Parser) : Parser := { p with flags := { p.flags with paused := true } }

def Parser.resume (p : Parser) : Parser := { p with flags := { p.flags with paused := false } }

def Parser.setSkipBody (p : Parser) : Parser := { p with flags := { p.flags with skipBody := true } }

end Evhtp
