import Evhtp.Proofs.StartLine
import Evhtp.H2

/-! Request targets over HTTP/1.x and HTTP/2. The two protocols split a target with code of their own and store the
parts with shared one; they agree on the targets whose path has no `#`. -/

namespace Evhtp

structure TargetParts where
  path : Option (Bytes × Bytes × Option Bytes)
  query : Option (List NullKv)
  queryRaw : Option Bytes
  fragment : Option Bytes
  deriving DecidableEq, Repr

def Path.texts (path : Path) : Bytes × Bytes × Option Bytes := (path.full, path.path, path.file)

def Uri.target (uri : Uri) : TargetParts := ⟨uri.path.map Path.texts, uri.query, uri.queryRaw, uri.fragment⟩

def Request.target (request : Request) : TargetParts := request.requireUri.target

/-- An application that sets no hooks, with the requests that lie in the cache. -/
def bareEnv (cached : Nat → Option Request) : Env := { app := fun _ _ => {}, cached }

def bareH2Env (cached : Nat → Option Request) : H2Env := { app := fun _ _ _ => {}, cached }

def acceptedTarget (result : Bool × Scan Conn) : Option TargetParts :=
  if result.1 then result.2.user.request.map Request.target else none

def http1Target [Htstring] (site : Site) (cached : Nat → Option Request) (method target : Bytes) (p : Parser) (conn : Conn) :
    Option TargetParts :=
  acceptedTarget (parseRequestLine (requestPsets site (bareEnv cached)) (requestLine method target 1 1)
    ⟨p, requestNew (bareEnv cached) conn⟩)

def acceptedStream (id : Nat) (result : Int × H2Conn) : Option TargetParts :=
  if result.1 = 0 then (result.2.streams id).request.map Request.target else none

def http2Target (site : Site) (cached : Nat → Option Request) (id : Nat) (target : Bytes) (c : H2Conn) : Option TargetParts :=
  acceptedStream id (serverOnHeader site (bareH2Env cached) id (ascii ":path") target
    (serverOnBeginHeaders (bareH2Env cached) id true c).2)

def storedTarget (flags : QueryFlags) (path : Bytes) : Option Bytes → Option TargetParts
  | none => some (Uri.target { path := some (pathNew path) })
  | some query => (uriSetQuery { path := some (pathNew path) } query flags).map Uri.target

theorem copyMatch_texts (path : Path) : path.copyMatch.texts = path.texts := by
  unfold Path.copyMatch
  dsimp only
  split <;> rfl

theorem setCallbacks_target (site : Site) (request : Request) : (setCallbacks site request).target = request.target := by
  unfold setCallbacks
  split
  · rfl
  next uri here =>
    split
    · rfl
    next path known =>
      have before : request.target = ⟨some path.texts, uri.query, uri.queryRaw, uri.fragment⟩ := by
        simp [Request.target, Request.requireUri, here, Uri.target, known]
      have after (path' : Path) (same : path'.texts = path.texts) :
          Uri.target { uri with path := some path' } = ⟨some path.texts, uri.query, uri.queryRaw, uri.fragment⟩ := by
        simp [Uri.target, same]
      rw [before]
      unfold setCallbacksFor
      split
      · exact after _ (copyMatch_texts _)
      · split
        · exact after _ (copyMatch_texts _)
        · exact after _ (copyMatch_texts _)

theorem uriSetQuery_target {uri uri' : Uri} (same : uri.target = uri'.target) (data : Bytes) (flags : QueryFlags) :
    (uriSetQuery uri data flags).map Uri.target = (uriSetQuery uri' data flags).map Uri.target := by
  have path : uri.path.map Path.texts = uri'.path.map Path.texts := congrArg TargetParts.path same
  have fragment : uri.fragment = uri'.fragment := congrArg TargetParts.fragment same
  unfold uriSetQuery
  dsimp only
  rw [Option.map_map, Option.map_map]
  congr 1
  funext query
  split <;> simp [Uri.target, path, fragment]

variable (site : Site) (cached : Nat → Option Request) {request : Request}

theorem hook_path_bare {s : Scan Conn} (here : s.user.request = some request) (data : Bytes) :
    ∃ after request', hook (requestPsets site (bareEnv cached)) .path data s = (true, after) ∧
      after.user.request = some request' ∧ request'.target = { request.target with path := some (pathNew data).texts } ∧
      after.user.htp = s.user.htp := by
  let pathed : Request :=
    { request.setUri { request.requireUri with path := some (pathNew data), scheme := s.p.scheme } with method := s.p.method }
  have called : parsePath site (bareEnv cached) data s.p s.user = (hookReply 0 s.p, ({ s.user with
      request := some (setCallbacks site pathed), clock := s.user.clock + 1 } : Conn).setStatus resOk) := by
    simp only [parsePath, withRequest, here]
    rfl
  have hooked : hook (requestPsets site (bareEnv cached)) .path data s =
      ((parsePath site (bareEnv cached) data s.p s.user).1.rc == 0,
        ⟨s.p.replied (parsePath site (bareEnv cached) data s.p s.user).1,
          (parsePath site (bareEnv cached) data s.p s.user).2⟩) := rfl
  rw [called] at hooked
  exact ⟨_, (setCallbacks site pathed).setStatus resOk, hooked, rfl, setCallbacks_target site pathed, rfl⟩

theorem hook_args_bare {s : Scan Conn} (here : s.user.request = some request) (data : Bytes) :
    acceptedTarget (hook (requestPsets site (bareEnv cached)) .args data s) =
      (uriSetQuery request.requireUri data (site.htp s.user.htp).parserFlags).map Uri.target := by
  have called : hook (requestPsets site (bareEnv cached)) .args data s =
      ((parseArgs site data s.p s.user).1.rc == 0, ⟨s.p.replied (parseArgs site data s.p s.user).1,
        (parseArgs site data s.p s.user).2⟩) := rfl
  rw [called]
  simp only [parseArgs, withRequest, here]
  cases uriSetQuery request.requireUri data (site.htp s.user.htp).parserFlags with
  | none => rfl
  | some uri => rfl

def targetQuery (target : Bytes) : Option Bytes :=
  match target.dropWhile (· != 63) with
  | [] => none
  | _ :: query => some query

/-- A request without parts of a target takes those of an origin-form target. -/
theorem originForm_target {s : Scan Conn} (here : s.user.request = some request)
    (blank : request.target = ⟨none, none, none, none⟩) (target : Bytes) :
    acceptedTarget (emitOriginForm (requestPsets site (bareEnv cached)) target s) =
      storedTarget (site.htp s.user.htp).parserFlags (target.takeWhile (· != 63)) (targetQuery target) := by
  have scheme : (s.setScheme .none).user.request = some request := here
  obtain ⟨after, request', pathed, there, parts, same⟩ := hook_path_bare site cached scheme (target.takeWhile (· != 63))
  have uri (s : Scan Conn) : hook (requestPsets site (bareEnv cached)) .uri target s = (true, s) := rfl
  have stored : request'.requireUri.target = Uri.target { path := some (pathNew (target.takeWhile (· != 63))) } := by
    rw [blank] at parts
    exact parts
  unfold emitOriginForm targetQuery
  dsimp only
  rw [pathed, andThen, if_pos rfl]
  cases target.dropWhile (· != 63) with
  | nil =>
    simp only [andThen, if_true, uri, acceptedTarget, there]
    exact congrArg some stored
  | cons mark query =>
    have argued := hook_args_bare site cached there query
    have same' : after.user.htp = s.user.htp := same
    rw [same', uriSetQuery_target stored] at argued
    dsimp only [storedTarget]
    rw [← argued]
    cases passed : (hook (requestPsets site (bareEnv cached)) .args query after).1 with
    | true => simp only [andThen, passed, if_true, uri, acceptedTarget]
    | false => simp only [andThen, passed, Bool.false_eq_true, if_false]

theorem requestClear_blank (old : Request) : (requestClear old).target = ⟨none, none, none, none⟩ := by
  change Uri.target ((old.uri.map uriClear).getD {}) = _
  cases old.uri <;> rfl

theorem requestNew_blank (env : Env) (conn : Conn) :
    ∃ request, (requestNew env conn).request = some request ∧ request.target = ⟨none, none, none, none⟩ := by
  refine ⟨_, rfl, ?_⟩
  cases env.cached conn.clock with
  | none => rfl
  | some old => exact requestClear_blank old

theorem h2StreamNew_blank (env : H2Env) (id : Nat) (c : H2Conn) :
    (h2StreamNew env id c).target = ⟨none, none, none, none⟩ := by
  unfold h2StreamNew h2RequestNew
  cases env.cached c.clock with
  | none => rfl
  | some old => exact requestClear_blank old

theorem http1Target_stored [Htstring] {method target : Bytes} (known : methodFrom method ≠ .UNKNOWN)
    (spaceless : SP ∉ method ∧ SP ∉ target) (origin : target.head? = some 47) (p : Parser) (conn : Conn) :
    http1Target site cached method target p conn =
      storedTarget (site.htp conn.htp).parserFlags (target.takeWhile (· != 63)) (targetQuery target) := by
  have nonempty : method ≠ [] ∧ target ≠ [] := by
    refine ⟨?_, ?_⟩
    · rintro rfl
      exact known rfl
    · rintro rfl
      cases origin
  obtain ⟨request, here, blank⟩ := requestNew_blank (bareEnv cached) conn
  have absent (s : Scan Conn) : hook (requestPsets site (bareEnv cached)) .method method s = (true, s) := rfl
  rw [http1Target, parseRequestLine_requestLine known spaceless nonempty (by decide), absent, andThen, if_pos rfl,
    emitTarget, if_pos origin]
  exact originForm_target site cached here blank target

theorem onPath_target {id : Nat} {c : H2Conn} (here : (c.streams id).request = some request)
    (blank : request.target = ⟨none, none, none, none⟩) (target : Bytes) :
    acceptedStream id (onPath site (bareH2Env cached) id target c) =
      storedTarget (site.htp c.htp).parserFlags (splitTarget target).1 (splitTarget target).2 := by
  let pathed := setCallbacks site
    (request.setUri { request.requireUri with path := some (pathNew (splitTarget target).1) })
  have stored : pathed.requireUri.target = Uri.target { path := some (pathNew (splitTarget target).1) } := by
    refine (setCallbacks_target site _).trans ?_
    have query : request.requireUri.query = none := congrArg TargetParts.query blank
    have queryRaw : request.requireUri.queryRaw = none := congrArg TargetParts.queryRaw blank
    have fragment : request.requireUri.fragment = none := congrArg TargetParts.fragment blank
    change Uri.target { request.requireUri with path := some (pathNew (splitTarget target).1) } = _
    simp only [Uri.target, query, queryRaw, fragment]
  let routed := (c.onRequest id fun request =>
    setCallbacks site (request.setUri { request.requireUri with path := some (pathNew (splitTarget target).1) }))
  let called := (routed.call (bareH2Env cached) id (.path (splitTarget target).1)).2
  have there : (called.streams id).request = some pathed := by
    have set : (called.streams id).request = (c.streams id).request.map fun request => setCallbacks site
        (request.setUri { request.requireUri with path := some (pathNew (splitTarget target).1) }) :=
      congrArg Stream.request (if_pos rfl)
    rw [set, here]
    rfl
  unfold onPath
  dsimp only
  rw [show (called.streams id).request = some pathed from there]
  cases (splitTarget target).2 with
  | none =>
    change (called.streams id).request.map Request.target = _
    rw [there]
    exact congrArg some stored
  | some query =>
    dsimp only [storedTarget]
    rw [← uriSetQuery_target stored,
      show uriSetQuery pathed.requireUri query (site.htp called.htp).parserFlags =
        uriSetQuery pathed.requireUri query (site.htp c.htp).parserFlags from rfl]
    cases uriSetQuery pathed.requireUri query (site.htp c.htp).parserFlags with
    | none => rfl
    | some uri =>
      have set : ((called.onRequest id (·.setUri uri)).streams id).request =
          (called.streams id).request.map (·.setUri uri) := congrArg Stream.request (if_pos rfl)
      change ((called.onRequest id (·.setUri uri)).streams id).request.map Request.target = _
      rw [set, there]
      rfl

theorem userData_of {c : H2Conn} {id : Nat} {request : Request} (stream : c.streams id = ⟨some request, true⟩) :
    c.userData id = some request := by
  unfold H2Conn.userData
  rw [stream]
  rfl

theorem http2Target_stored (id : Nat) (target : Bytes) (c : H2Conn) :
    http2Target site cached id target c =
      storedTarget (site.htp c.htp).parserFlags (splitTarget target).1 (splitTarget target).2 := by
  let begun := (serverOnBeginHeaders (bareH2Env cached) id true c).2
  have stream : begun.streams id = ⟨some (h2StreamNew (bareH2Env cached) id c), true⟩ := if_pos rfl
  have here : (begun.streams id).request = some (h2StreamNew (bareH2Env cached) id c) := congrArg Stream.request stream
  have headed : serverOnHeader site (bareH2Env cached) id (ascii ":path") target begun =
      onPath site (bareH2Env cached) id target begun := by
    unfold serverOnHeader
    rw [userData_of stream]
    rfl
  refine (congrArg (acceptedStream id) headed).trans ?_
  exact onPath_target site cached here (h2StreamNew_blank _ _ _) target

/-- Neither a query nor a fragment begins here. -/
def PathOnly (path : Bytes) : Prop := ∀ byte ∈ path, (byte != 63 && byte != 35) = true

section
variable {path rest target : Bytes}

theorem splitTarget_query (plain : PathOnly path) : splitTarget (path ++ 63 :: rest) = (path, some rest) := by
  have split : (path ++ 63 :: rest).takeWhile (fun byte => byte != 63 && byte != 35) = path :=
    (takeWhile_append_stop plain (by decide)).1
  simp only [splitTarget, split, List.drop_left]

theorem splitTarget_fragment (plain : PathOnly path) : splitTarget (path ++ 35 :: rest) = (path, none) := by
  have split : (path ++ 35 :: rest).takeWhile (fun byte => byte != 63 && byte != 35) = path :=
    (takeWhile_append_stop plain (by decide)).1
  simp only [splitTarget, split, List.drop_left]
  rfl

theorem splitTarget_path (plain : PathOnly path) : splitTarget path = (path, none) := by
  have split : path.takeWhile (fun byte => byte != 63 && byte != 35) = path := List.takeWhile_eq_self_iff.mpr plain
  simp only [splitTarget, split, List.drop_length]

theorem target_cases (target : Bytes) : (target.takeWhile (· != 63) = target ∧ targetQuery target = none) ∨
    ∃ query, target = target.takeWhile (· != 63) ++ 63 :: query ∧ targetQuery target = some query := by
  by_cases marked : 63 ∈ target
  · obtain ⟨path, query, rfl, unmarked⟩ := List.eq_append_cons_of_mem marked
    have kept : ∀ byte ∈ path, (byte != 63) = true := fun byte member =>
      bne_iff_ne.mpr fun mark => unmarked (mark ▸ member)
    have split : (path ++ 63 :: query).takeWhile (· != 63) = path ∧ (path ++ 63 :: query).dropWhile (· != 63) = 63 :: query :=
      takeWhile_append_stop kept (by decide)
    refine .inr ⟨query, by rw [split.1], ?_⟩
    simp only [targetQuery, split.2]
  · have kept : ∀ byte ∈ target, (byte != 63) = true := fun byte member =>
      bne_iff_ne.mpr fun mark => marked (mark ▸ member)
    refine .inl ⟨List.takeWhile_eq_self_iff.mpr kept, ?_⟩
    have none_left : target.dropWhile (· != 63) = [] := List.dropWhile_eq_nil_iff.mpr kept
    simp only [targetQuery, none_left]

theorem splitTarget_plain (unhashed : 35 ∉ target.takeWhile (· != 63)) :
    splitTarget target = (target.takeWhile (· != 63), targetQuery target) := by
  have plain : PathOnly (target.takeWhile (· != 63)) := by
    intro byte member
    have unmarked := List.mem_takeWhile_imp member
    have other : byte ≠ 35 := fun hash => unhashed (hash ▸ member)
    simpa [other] using unmarked
  rcases target_cases target with ⟨whole, none⟩ | ⟨query, whole, some⟩
  · rw [whole] at plain
    rw [whole, none, splitTarget_path plain]
  · have split : splitTarget (target.takeWhile (· != 63) ++ 63 :: query) = _ := splitTarget_query plain
    rw [← whole] at split
    rw [some, split]

theorem splitTarget_hash (hashed : 35 ∈ target.takeWhile (· != 63)) :
    35 ∉ (splitTarget target).1 ∧ (splitTarget target).2 = none := by
  obtain ⟨path, rest, parts, unhashed⟩ := List.eq_append_cons_of_mem hashed
  have plain : PathOnly path := by
    intro byte member
    have within : byte ∈ target.takeWhile (· != 63) := by
      rw [parts]
      exact List.mem_append_left _ member
    have unmarked := List.mem_takeWhile_imp within
    have other : byte ≠ 35 := fun hash => unhashed (hash ▸ member)
    simpa [other] using unmarked
  have whole : path ++ 35 :: (rest ++ target.dropWhile (· != 63)) = target := by
    rw [← List.cons_append, ← List.append_assoc, ← parts, List.takeWhile_append_dropWhile]
  rw [← whole, splitTarget_fragment plain]
  exact ⟨unhashed, rfl⟩

theorem pathNew_full (origin : path.head? = some 47) (unterminated : 0 ∉ path) : (pathNew path).full = path := by
  have text : cString path = path := List.takeWhile_eq_self_iff.mpr fun byte member =>
    bne_iff_ne.mpr fun zero => unterminated (zero ▸ member)
  unfold pathNew
  split
  · cases origin
  · split
    · exact text
    · split
      · exact text
      · exact text

theorem storedTarget_path {flags : QueryFlags} {query : Option Bytes} {parts : TargetParts}
    (stored : storedTarget flags path query = some parts) : parts.path = some (pathNew path).texts := by
  cases query with
  | none =>
    cases stored
    rfl
  | some query =>
    obtain ⟨uri, set, rfl⟩ := Option.map_eq_some_iff.mp stored
    unfold uriSetQuery at set
    obtain ⟨args, parsed, rfl⟩ := Option.map_eq_some_iff.mp set
    dsimp only [Uri.target]
    split <;> rfl

end

theorem known_spaceless {method : Bytes} (known : methodFrom method ≠ .UNKNOWN) : SP ∉ method := by
  have names : ∀ entry ∈ methods, SP ∉ entry.1 := by decide
  unfold methodFrom at known
  split at known
  next entry found =>
    have name : entry.1 = method := by simpa using List.find?_some found
    rw [← name]
    exact names entry (List.mem_of_find?_eq_some found)
  next => exact absurd rfl known

/-- HTTP/1.x and HTTP/2 split an origin-form target alike exactly if its path, up to the first `?`, has no `#`. -/
theorem targets_alike [Htstring] (cached' : Nat → Option Request) {method target : Bytes} (known : methodFrom method ≠ .UNKNOWN)
    (origin : target.head? = some 47) (spaceless : SP ∉ target) (unterminated : 0 ∉ target) (p : Parser) (conn : Conn)
    (c : H2Conn) (id : Nat) (same : c.htp = conn.htp) :
    http1Target site cached method target p conn = http2Target site cached' id target c ↔
      35 ∉ target.takeWhile (· != 63) := by
  rw [http1Target_stored site cached known ⟨known_spaceless known, spaceless⟩ origin, http2Target_stored, same]
  constructor
  · intro alike hashed
    obtain ⟨unhashed, none⟩ := splitTarget_hash hashed
    rw [none] at alike
    -- The two paths are prefixes of the target; only the longer one has the `#`.
    have paths : (pathNew (splitTarget target).1).full = (pathNew (target.takeWhile (· != 63))).full := by
      have stored := storedTarget_path alike
      exact congrArg Prod.fst (Option.some.inj stored)
    have starts {keep : UInt8 → Bool} (kept : keep 47 = true) : (target.takeWhile keep).head? = some 47 := by
      obtain ⟨rest, rfl⟩ := List.head?_eq_some_iff.mp origin
      simp [kept]
    have within {keep : UInt8 → Bool} : 0 ∉ target.takeWhile keep := fun member =>
      unterminated ((List.takeWhile_prefix _).subset member)
    have shorter : (splitTarget target).1 = target.takeWhile fun byte => byte != 63 && byte != 35 := by
      unfold splitTarget
      dsimp only
      split <;> rfl
    rw [pathNew_full (by rw [shorter]; exact starts (by decide)) (by rw [shorter]; exact within),
      pathNew_full (starts (by decide)) within] at paths
    rw [paths] at unhashed
    exact unhashed hashed
  · intro unhashed
    rw [splitTarget_plain unhashed]

def bareSite : Site := { htp := fun _ => {}, regexec := fun _ _ => none }

section
attribute [local instance] Plain.htstring

theorem targets_alike_query :
    http1Target bareSite (fun _ => none) (ascii "GET") (ascii "/a/b?c=1#d") { config := defaultConfig, type := .request } {} =
      http2Target bareSite (fun _ => none) 1 (ascii "/a/b?c=1#d") {} :=
  (targets_alike bareSite (fun _ => none) (fun _ => none) (by decide) (by decide) (by decide) (by decide) _ _ _ _ rfl).mpr
    (by decide)

theorem targets_unlike_fragment :
    http1Target bareSite (fun _ => none) (ascii "GET") (ascii "/a#b") { config := defaultConfig, type := .request } {} ≠
      http2Target bareSite (fun _ => none) 1 (ascii "/a#b") {} := by
  decide +kernel

end

end Evhtp
