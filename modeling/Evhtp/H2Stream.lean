import Evhtp.H2

/-! Streaming replies over HTTP/2. The application gives the body in pieces; nghttp2 reads it from the output buffer
of the request as the peer's window allows, and parks the stream while there is nothing to read. -/

namespace Evhtp

/-- `skip_h2_response_header`: the headers that mean something to one connection only. -/
def skipH2ResponseHeader (kv : Kv) : Bool :=
  [ascii "upgrade", ascii "connection", ascii "keep-alive", ascii "proxy-connection",
    ascii "transfer-encoding"].contains (kv.key.map toLower)

def h2ResponseNv (request : Request) (code : Nat) : List Kv :=
  ⟨ascii ":status", evhtpModpU32toa code⟩ :: request.headersOut.filter (!skipH2ResponseHeader ·)

/-- What the data source of a stream answers: `NGHTTP2_ERR_DEFERRED`, or bytes with or without
`NGHTTP2_DATA_FLAG_EOF`. -/
inductive StreamRead where
  | deferred
  | bytes (data : Bytes) (eof : Bool)
  deriving DecidableEq, Repr

def StreamRead.data : StreamRead → Bytes
  | .deferred => []
  | .bytes data _ => data

/-- `h2__stream_read_cb_`. -/
def h2StreamRead (request : Request) (length : Nat) : StreamRead × Request :=
  let count := min request.bufferOut.length length
  if count = 0 ∧ request.flags.finished = false then (.deferred, request)
  else
    let rest := request.bufferOut.drop count
    (.bytes (request.bufferOut.take count) (request.flags.finished && rest.isEmpty), { request with bufferOut := rest })

/-- `h2__data_read_cb_`. -/
def h2DataRead (request : Request) (length : Nat) : StreamRead × Request :=
  let count := min request.bufferOut.length length
  let rest := request.bufferOut.drop count
  (.bytes (request.bufferOut.take count) rest.isEmpty, { request with bufferOut := rest })

/-- `evhtp_h2_send_reply`, with the headers for nghttp2 and whether it is given a data source. -/
def evhtpH2SendReply (request : Request) (code : Nat) : Request × List Kv × Bool :=
  (request.finish, h2ResponseNv request code, !request.bufferOut.isEmpty)

/-- What a data source answers when nghttp2 reads these lengths. -/
def h2Reads (read : Request → Nat → StreamRead × Request) : Request → List Nat → List StreamRead
  | _, [] => []
  | request, length :: lengths => (read request length).1 :: h2Reads read (read request length).2 lengths

/-- A request whose reply is streamed, and whether its stream is parked. The bytes that were read are not part of
the source. -/
structure StreamReply where
  request : Request
  parked : Bool := false
  returned : Bytes := []
  deriving DecidableEq, Repr

/-- `h2__stream_resume_`. -/
def StreamReply.resume (s : StreamReply) : StreamReply := { s with parked := false }

/-- `evhtp_h2_send_reply_start`, with the headers for nghttp2, which may not take the response. -/
def evhtpH2SendReplyStart (s : StreamReply) (code : Nat) (submitted : Bool) : Int × StreamReply × List Kv :=
  let nv := h2ResponseNv s.request code
  if submitted then
    (0, { s with request := { s.request with flags := { s.request.flags with h2Streaming := true } }, parked := false }, nv)
  else (-1, s, nv)

/-- `evhtp_h2_send_reply_body`, with what is left in the buffer of the application. -/
def evhtpH2SendReplyBody (s : StreamReply) (buf : Bytes) : Int × StreamReply × Bytes :=
  if s.request.flags.h2Streaming = false ∨ s.request.flags.finished then (-1, s, buf)
  else (0, { s with request := { s.request with bufferOut := s.request.bufferOut ++ buf } }.resume, [])

def evhtpH2SendReplyEnd (s : StreamReply) : StreamReply :=
  let ended := { s with request := s.request.finish }
  if s.request.flags.h2Streaming then ended.resume else ended

/-- What the application calls, and when nghttp2 reads. -/
inductive StreamCall where
  | start (code : Nat) (submitted : Bool)
  | body (buf : Bytes)
  | finish
  | read (length : Nat)
  deriving DecidableEq, Repr

def StreamCall.run (s : StreamReply) : StreamCall → StreamReply
  | .start code submitted => (evhtpH2SendReplyStart s code submitted).2.1
  | .body buf => (evhtpH2SendReplyBody s buf).2.1
  | .finish => evhtpH2SendReplyEnd s
  | .read length =>
    let answer := h2StreamRead s.request length
    ⟨answer.2, decide (answer.1 = .deferred), s.returned ++ answer.1.data⟩

def streamCalls (request : Request) (calls : List StreamCall) : StreamReply :=
  calls.foldl StreamCall.run { request }

end Evhtp
