import Evhtp.Request
import Evhtp.Lib.Numeral

/-! Replies: what `evhtp_send_reply` and the functions for chunked replies write to the connection. -/

namespace Evhtp

/-- The digits are written from the last one on and then reversed; 64 bits have at most 20. -/
def evhtpModpU64toa (value : Nat) : Bytes := (Numeral.digits 10 digitChar 20 value).reverse

def evhtpModpU32toa (value : Nat) : Bytes := (Numeral.digits 10 digitChar 10 value).reverse

def evhtpModpSizetoa (value : Nat) : Bytes := evhtpModpU64toa value

def hexChar (value : Nat) : UInt8 := UInt8.ofNat (if value < 10 then 48 + value else 87 + value)

def printHex (value : Nat) : Bytes := (Numeral.digits 16 hexChar 8 (value % 2 ^ 32)).reverse

def statusCodeToStr (code : Nat) : String :=
  match code with
  | 200 => "OK"
  | 300 => "Redirect"
  | 400 => "Bad Request"
  | 404 => "Not Found"
  | 500 => "Internal Server Error"
  | 100 => "Continue"
  | 403 => "Forbidden"
  | 101 => "Switching Protocols"
  | 301 => "Moved Permanently"
  | 102 => "Processing"
  | 122 => "URI Too Long"
  | 201 => "Created"
  | 202 => "Accepted"
  | 203 => "No Auth Info"
  | 204 => "No Content"
  | 205 => "Reset Content"
  | 206 => "Partial Content"
  | 207 => "Multi-Status"
  | 226 => "IM Used"
  | 302 => "Found"
  | 303 => "See Other"
  | 304 => "Not Modified"
  | 305 => "Use Proxy"
  | 306 => "Switch Proxy"
  | 307 => "Temporary Redirect"
  | 401 => "Unauthorized"
  | 402 => "Payment Required"
  | 405 => "Method Not Allowed"
  | 406 => "Not Acceptable"
  | 407 => "Proxy Authentication Required"
  | 408 => "Request Timeout"
  | 409 => "Conflict"
  | 410 => "Gone"
  | 411 => "Length Required"
  | 412 => "Precondition Failed"
  | 413 => "Entity Too Large"
  | 414 => "Request-URI Too Long"
  | 415 => "Unsupported Media Type"
  | 416 => "Requested Range Not Satisfiable"
  | 417 => "Expectation Failed"
  | 418 => "I'm a teapot"
  | 421 => "Misdirected Request"
  | 422 => "Unprocessable Content"
  | 423 => "Locked"
  | 424 => "Failed Dependency"
  | 425 => "Too Early"
  | 426 => "Upgrade Required"
  | 428 => "Precondition Required"
  | 429 => "Too Many Requests"
  | 431 => "Request Header Fields Too Large"
  | 451 => "Unavailable For Legal Reasons"
  | 501 => "Not Implemented"
  | 502 => "Bad Gateway"
  | 503 => "Service Unavailable"
  | 504 => "Gateway Timeout"
  | 505 => "HTTP Version Not Supported"
  | 509 => "Bandwidth Limit Exceeded"
  | _ => "UNKNOWN"

/-- The Content-Length of a reply with a body; a multipart request gets none here. -/
def addContentLength (request : Request) (multipart : Bool) : Request :=
  if multipart = false ∧ request.bufferOut ≠ [] ∧ request.flags.chunked = false ∧
      evhtpKvFind request.headersOut (ascii "Content-Length") = none then
    request.addHeader (ascii "Content-Length") (evhtpModpSizetoa request.bufferOut.length)
  else request

/-- The keep-alive headers of the HTTP version. -/
def addConnection (request : Request) : Request :=
  match request.proto with
  | .proto11 =>
    let request :=
      if request.flags.keepalive then request else request.addHeader (ascii "Connection") (ascii "close")
    if evhtpKvFind request.headersOut (ascii "Content-Length") = none ∧ request.flags.chunked = false then
      request.addHeader (ascii "Content-Length") (ascii "0")
    else request
  | .proto10 =>
    if request.flags.keepalive then request.addHeader (ascii "Connection") (ascii "keep-alive") else request
  | .invalid | .proto20 => request

/-- A reply made before the version is known is sent as HTTP/1.0. -/
def replyParser (request : Request) (p : Parser) : Parser :=
  match request.proto with
  | .proto11 | .proto10 => p
  | .invalid | .proto20 => { p with major := 1, minor := 0 }

def addContentType (request : Request) (present : Bool) : Request :=
  if present then request else request.addHeader (ascii "Content-Type") (ascii "text/plain")

/-- The headers of a reply, with those added to the ones the application set. -/
def replyHeaders (request : Request) (multipart : Bool) : Request :=
  addContentType (addConnection (addContentLength request multipart))
    (evhtpKvFind request.headersOut (ascii "Content-Type")).isSome

theorem replyHeaders_only (request : Request) (multipart : Bool) :
    ∃ headersOut, replyHeaders request multipart = { request with headersOut } := by
  have length : ∀ r : Request, ∃ headersOut, addContentLength r multipart = { r with headersOut } := by
    intro r
    rw [addContentLength]
    split
    · exact ⟨_, rfl⟩
    · exact ⟨r.headersOut, rfl⟩
  have connection : ∀ r : Request, ∃ headersOut, addConnection r = { r with headersOut } := by
    intro r
    rw [addConnection]
    split
    · dsimp only
      repeat' split
      all_goals exact ⟨_, rfl⟩
    · split
      · exact ⟨_, rfl⟩
      · exact ⟨r.headersOut, rfl⟩
    · exact ⟨r.headersOut, rfl⟩
    · exact ⟨r.headersOut, rfl⟩
  have type : ∀ (r : Request) present, ∃ headersOut, addContentType r present = { r with headersOut } := by
    intro r present
    rw [addContentType]
    split
    · exact ⟨r.headersOut, rfl⟩
    · exact ⟨_, rfl⟩
  obtain ⟨first, one⟩ := length request
  obtain ⟨second, two⟩ := connection { request with headersOut := first }
  rw [replyHeaders, one, two]
  exact type _ _

def createHeader (header : Kv) : Bytes := header.key ++ ascii ": " ++ header.val ++ crlf

def statusLineBytes (p : Parser) (code : Nat) : Bytes :=
  ascii "HTTP/" ++ [digitChar p.major] ++ ascii "." ++ [digitChar p.minor] ++ ascii " " ++ evhtpModpU32toa code ++
    ascii " " ++ ascii (statusCodeToStr code) ++ crlf

def replyHead (headers : List Kv) (p : Parser) (code : Nat) : Bytes :=
  statusLineBytes p code ++ headers.flatMap createHeader ++ crlf

/-- `htp__create_reply_`: the request and the parser after it, and the reply. -/
def createReply (request : Request) (p : Parser) (code : Nat) : (Request × Parser) × Bytes :=
  let request := replyHeaders { request with status := code } p.flags.multipart
  let p := replyParser request p
  (({ request with bufferOut := [] }, p), replyHead request.headersOut p code ++ request.bufferOut)

/-- `evhtp_send_reply`: the request and the parser after it, and what is written. -/
def evhtpSendReply (request : Request) (p : Parser) (code : Nat) : (Request × Parser) × Bytes :=
  createReply { request with flags := { request.flags with finished := true } } p code

def evhtpSendReplyStart (request : Request) (p : Parser) (code : Nat) : (Request × Parser) × Bytes :=
  createReply request p code

def evhtpSendReplyEnd (request : Request) : Request :=
  { request with flags := { request.flags with finished := true } }

def evhtpResponseNeedsBody (code : Nat) (method : HtpMethod) : Bool :=
  code != 204 && code != 304 && (decide (code < 100) || decide (code ≥ 200)) && method != .HEAD &&
    (method != .CONNECT || code != 200)

def Request.setChunked (request : Request) (chunked : Bool) : Request :=
  { request with flags := { request.flags with chunked } }

/-- The choice of the chunked coding: it excludes a Content-Length. -/
def chooseChunked (request : Request) (code : Nat) : Request :=
  if evhtpResponseNeedsBody code request.method then
    match request.proto with
    | .proto11 | .proto10 =>
      { request with headersOut := evhtpKvRemove request.headersOut (ascii "Content-Length") }.setChunked true
    | .invalid | .proto20 => request.setChunked false
  else request.setChunked false

def chunkBytes (buf : Bytes) : Bytes := printHex buf.length ++ crlf ++ buf ++ crlf

/-- `evhtp_send_reply_chunk_start`: what the output buffer holds becomes the first chunk. -/
def evhtpSendReplyChunkStart (request : Request) (p : Parser) (code : Nat) : (Request × Parser) × Bytes :=
  let request := chooseChunked request code
  if request.flags.chunked then
    let request := request.addHeader (ascii "Transfer-Encoding") (ascii "chunked")
    let bufferOut := if request.bufferOut = [] then [] else chunkBytes request.bufferOut
    evhtpSendReplyStart { request with bufferOut } p code
  else evhtpSendReplyStart request p code

/-- `evhtp_send_reply_chunk`: what is written for a buffer. -/
def evhtpSendReplyChunk (request : Request) (buf : Bytes) : Bytes :=
  if buf = [] then [] else if request.flags.chunked then chunkBytes buf else buf

def evhtpSendReplyChunkEnd (request : Request) : Request × Bytes :=
  (evhtpSendReplyEnd request, if request.flags.chunked then ascii "0\r\n\r\n" else [])

end Evhtp
