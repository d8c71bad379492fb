import Evhtp.Query

/-! Server structures, their virtual hosts and callbacks: which structure a host name selects, and which
callback a path selects in it. -/

namespace Evhtp

/-- `htp__glob_match_`. The byte after an empty string is taken to differ from the one the pattern begins with. -/
def globMatch : Bytes → Bytes → Bool
  | [], string => string == []
  | byte :: pattern, string =>
    if byte = 42 then
      match pattern with
      | [] => true
      | next :: _ =>
        if next = 42 then globMatch pattern string
        else (string.tails.filter (· ≠ [])).any fun tail => globMatch pattern tail
    else
      match string with
      | [] => false
      | first :: rest =>
        if byte ≠ first then false
        else if rest = [] then pattern.dropWhile (· == 42) == []
        else globMatch pattern rest

/-- What follows the last slash, and what is before and including it. -/
def splitFile (data : Bytes) : Bytes × Bytes :=
  let file := (data.reverse.takeWhile (· != 47)).reverse
  (data.take (data.length - file.length), file)

def pathNew (data : Bytes) : Path :=
  match data with
  | [] => { full := ascii "/", path := ascii "/" }
  | first :: _ =>
    if first ≠ 47 then { full := cString data, path := ascii "/", file := some (cString data) }
    else if data.getLast? = some 47 then { full := cString data, path := cString data }
    else
      let parts := splitFile data
      { full := cString data, path := cString parts.1, file := some (cString parts.2) }

/-- How a callback is chosen: by the path it begins with, by a pattern, or by a POSIX expression. -/
inductive CallbackVal where
  | hash (path : Bytes)
  | regex (regex : Bytes)
  | glob (glob : Bytes)
  deriving DecidableEq, Repr

/-- `evhtp_callback_t`. -/
structure Callback where
  val : CallbackVal
  cb : Option Nat
  cbarg : Nat := 0
  hooks : Option Nat := none
  deriving DecidableEq, Repr

/-- `evhtp_t`, as far as connections use it. Other structures are numbers that stand for their addresses;
the callbacks of the source may be `NULL`, which is an empty list here. -/
structure EvhtpT where
  parent : Option Nat := none
  serverName : Option Bytes := none
  aliases : List Bytes := []
  vhosts : List Nat := []
  maxBodySize : Nat := 0
  maxKeepaliveRequests : Nat := 0
  enable100Cont : Bool := true
  parserFlags : QueryFlags := .lenient
  callbacks : List Callback := []
  defaultCb : Option Nat := some 0
  defaultCbarg : Nat := 0

/-- The structures of a server. Number 0 is the one connections are accepted for. `regexec` is the C
library's: the last subexpression's match of an expression in a string. -/
structure Site where
  htp : Nat → EvhtpT
  regexec : Bytes → Bytes → Option (Nat × Nat)

def root : Nat := 0

def Site.set (site : Site) (i : Nat) (htp : EvhtpT) : Site :=
  { site with htp := fun j => if j = i then htp else site.htp j }

def evhtpSetCb (site : Site) (evhtp : Nat) (callback : Callback) : Site :=
  site.set evhtp { site.htp evhtp with callbacks := (site.htp evhtp).callbacks ++ [callback] }

def EvhtpT.answersTo (vhost : EvhtpT) (name : Bytes) : Bool :=
  match vhost.serverName with
  | none => false
  | some server => globMatch server name || vhost.aliases.any (globMatch · name)

def findVhost (site : Site) (evhtp : Nat) (name : Bytes) : Option Nat :=
  (site.htp evhtp).vhosts.find? fun vhost => (site.htp vhost).answersTo name

/-- Whether a callback is the one for a path, and where in the path it matched. -/
def callbackMatch (site : Site) (path : Bytes) (callback : Callback) : Option (Nat × Nat) :=
  match callback.val with
  | .hash start => if start.isPrefixOf path then some (0, path.length) else none
  | .regex regex => site.regexec regex path
  | .glob glob => if globMatch glob path then some (0, path.length) else none

def callbackFind (site : Site) (path : Bytes) : List Callback → Option (Callback × Nat × Nat)
  | [] => none
  | callback :: rest =>
    match callbackMatch site path callback with
    | some offsets => some (callback, offsets)
    | none => callbackFind site path rest

/-- The callback for a path, by its full text or without its file. -/
def lookup (site : Site) (evhtp : Nat) (path : Path) : Option (Callback × Nat × Nat) :=
  (callbackFind site path.full (site.htp evhtp).callbacks).or (callbackFind site path.path (site.htp evhtp).callbacks)

def copyInto (buffer src : Bytes) : Bytes := src ++ buffer.drop src.length

def Path.copyMatch (path : Path) : Path :=
  let empty := List.replicate (path.full.length + 1) 0
  let start := path.matchStart.getD empty
  let rest := path.matchEnd.getD empty
  if path.matchedSoff ≠ 2 ^ 32 - 1 then
    let found := path.full.drop path.matchedSoff
    { path with
      matchStart := some (copyInto start
        (if path.matchedEoff ≠ path.matchedSoff then found.take (path.matchedEoff - path.matchedSoff) else found))
      matchEnd := some (copyInto rest (path.full.drop path.matchedEoff)) }
  else { path with matchStart := some start, matchEnd := some rest }

structure Handler where
  cb : Option Nat
  cbarg : Nat
  deriving DecidableEq, Repr

def Request.handler (request : Request) : Handler := ⟨request.cb, request.cbarg⟩

def EvhtpT.defaults (htp : EvhtpT) : Handler := ⟨htp.defaultCb, htp.defaultCbarg⟩

/-- `htp__request_set_callbacks_`, for a request with a path: the callback found for it, else the one it
has, else the default. -/
def setCallbacksFor (site : Site) (request : Request) (uri : Uri) (path : Path) : Request :=
  match lookup site request.htp path with
  | some (callback, soff, eoff) =>
    { request with
      uri := some { uri with path := some { path with matchedSoff := soff, matchedEoff := eoff }.copyMatch }
      hooks := callback.hooks.or request.hooks
      cb := callback.cb
      cbarg := callback.cbarg }
  | none =>
    if request.cb.isSome then { request with uri := some { uri with path := some path.copyMatch } }
    else
      { request with
        uri := some { uri with path := some { path with matchedSoff := 0, matchedEoff := path.full.length }.copyMatch }
        cb := (site.htp request.htp).defaultCb
        cbarg := (site.htp request.htp).defaultCbarg }

/-- `htp__request_set_callbacks_`; without a path it does nothing. -/
def setCallbacks (site : Site) (request : Request) : Request :=
  match request.uri with
  | none => request
  | some uri =>
    match uri.path with
    | none => request
    | some path => setCallbacksFor site request uri path

end Evhtp
