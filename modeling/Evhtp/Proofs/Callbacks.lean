import Evhtp.Proofs.H2Routing
import Evhtp.Proofs.HostRouting

/-! The callbacks of a request. Registered paths are tried in the order of registration, and each of them answers for
every path that begins with it. A request that is resolved anew for a virtual host may keep what it had. -/

namespace Evhtp

def pathCallback (route : Bytes × Handler) : Callback := ⟨.hash route.1, route.2.cb, route.2.cbarg, none⟩

def evhtpSetCbs (site : Site) (evhtp : Nat) (routes : List (Bytes × Handler)) : Site :=
  routes.foldl (fun site route => evhtpSetCb site evhtp (pathCallback route)) site

section
variable {site : Site} {evhtp : Nat}

theorem evhtpSetCb_callbacks (callback : Callback) :
    ((evhtpSetCb site evhtp callback).htp evhtp).callbacks = (site.htp evhtp).callbacks ++ [callback] := by
  simp [evhtpSetCb, Site.set]

theorem evhtpSetCbs_callbacks (routes : List (Bytes × Handler)) :
    ((evhtpSetCbs site evhtp routes).htp evhtp).callbacks = (site.htp evhtp).callbacks ++ routes.map pathCallback := by
  unfold evhtpSetCbs
  induction routes generalizing site with
  | nil => simp
  | cons route routes ih =>
    rw [List.foldl_cons, ih, evhtpSetCb_callbacks]
    simp

theorem callbackMatch_path (path : Bytes) (route : Bytes × Handler) :
    callbackMatch site path (pathCallback route) = if route.1.isPrefixOf path then some (0, path.length) else none := rfl

theorem callbackFind_paths (path : Bytes) (routes : List (Bytes × Handler)) :
    callbackFind site path (routes.map pathCallback) =
      (routes.find? fun route => route.1.isPrefixOf path).map fun route => (pathCallback route, 0, path.length) := by
  induction routes with
  | nil => rfl
  | cons route routes ih =>
    rw [List.map_cons, callbackFind, List.find?_cons, callbackMatch_path]
    cases begins : route.1.isPrefixOf path with
    | true => simp
    | false => simpa using ih

theorem setCallbacks_found {request : Request} {path : Path} {found : Callback × Nat × Nat} (here : request.path = some path)
    (there : lookup site request.htp path = some found) : (setCallbacks site request).handler = ⟨found.1.cb, found.1.cbarg⟩ := by
  rw [(setCallbacks_handler site here).1]
  unfold reselected selected
  simp [there]

end

/-- A registered path is reached unless it begins with one that was registered earlier, and the first of these has
another callback or argument. -/
theorem registered_path_reached (site : Site) (evhtp : Nat) (bare : (site.htp evhtp).callbacks = [])
    (earlier later : List (Bytes × Handler)) (path : Bytes) (handler : Handler) {request : Request} {target : Path}
    (htp : request.htp = evhtp) (here : request.path = some target) (full : target.full = path) :
    (setCallbacks (evhtpSetCbs site evhtp (earlier ++ (path, handler) :: later)) request).handler = handler ↔
      ∀ first, earlier.find? (fun route => route.1.isPrefixOf path) = some first → first.2 = handler := by
  have callbacks : ((evhtpSetCbs site evhtp (earlier ++ (path, handler) :: later)).htp evhtp).callbacks =
      (earlier ++ (path, handler) :: later).map pathCallback := by
    rw [evhtpSetCbs_callbacks, bare, List.nil_append]
  have itself : path.isPrefixOf path = true := by simp
  have found : lookup (evhtpSetCbs site evhtp (earlier ++ (path, handler) :: later)) request.htp target =
      some (pathCallback ((earlier.find? fun route => route.1.isPrefixOf path).getD (path, handler)), 0, path.length) := by
    unfold lookup
    rw [htp, callbacks, full, callbackFind_paths, List.find?_append, List.find?_cons, itself]
    cases earlier.find? fun route => route.1.isPrefixOf path <;> rfl
  rw [setCallbacks_found here found]
  cases earlier.find? fun route => route.1.isPrefixOf path with
  | none => simp [pathCallback]
  | some first => simp [pathCallback]

/-- The paths `test_basic.c` registers, callback 1 being its `testcb` and 2 its `issue161cb`; the arguments are numbered. -/
def basicRoutes : List (Bytes × Handler) :=
  [(ascii "/simple/", ⟨some 1, 1⟩), (ascii "/1/ping", ⟨some 1, 2⟩), (ascii "/1/ping.json", ⟨some 1, 3⟩),
    (ascii "/issue161", ⟨some 2, 0⟩)]

def requestAt (htp : Nat) (data : Bytes) : Request := { uri := some { path := some (pathNew data) }, htp }

theorem registered_path_reached_issue161 :
    (setCallbacks (evhtpSetCbs plainSite root basicRoutes) (requestAt root (ascii "/issue161"))).handler = ⟨some 2, 0⟩ :=
  (registered_path_reached plainSite root rfl (basicRoutes.take 3) [] (ascii "/issue161") ⟨some 2, 0⟩ rfl rfl
    (by decide)).mpr (by decide)

/-- `/1/ping` answers for `/1/ping.json`. -/
theorem registered_path_shadowed :
    (basicRoutes.map Prod.fst).Nodup ∧ (ascii "/1/ping.json", ⟨some 1, 3⟩) ∈ basicRoutes ∧
      (pathNew (ascii "/1/ping.json")).full = ascii "/1/ping.json" ∧
      (setCallbacks (evhtpSetCbs plainSite root basicRoutes) (requestAt root (ascii "/1/ping.json"))).handler ≠ ⟨some 1, 3⟩ := by
  decide +kernel

/-- The hooks a request has; a table without hooks counts as none. -/
def Request.effectiveHooks (request : Request) : Nat := request.hooks.getD 0

def hooksFor (site : Site) (htp : Nat) (path : Path) : Option Nat := (lookup site htp path).bind (·.1.hooks)

def Request.SameCallbacks (first second : Request) : Prop :=
  first.handler = second.handler ∧ first.effectiveHooks = second.effectiveHooks

structure Request.Unresolved (htp : Nat) (request : Request) : Prop where
  htp : request.htp = htp
  cb : request.cb = none
  hooks : request.effectiveHooks = 0

/-- What `setCallbacks` reads and writes stays as it is. -/
structure Request.Untouched (before after : Request) : Prop extends before.SameRoute after where
  hooks : after.hooks = before.hooks

/-- An application whose hooks do nothing. -/
def Env.Silent (env : Env) : Prop := ∀ clock hook, env.app clock hook = {}

@[inherit_doc Env.Silent]
def H2Env.Silent (env : H2Env) : Prop := ∀ clock id hook, env.app clock id hook = {}

/-- A request whose path was resolved against the parent, and whose host name is then found to be that of a virtual
host. -/
inductive VhostResolved (site : Site) (parent vhost : Nat) (data : Bytes) (request : Request) : Request → Prop
  | http1 {env : Env} {p p' : Parser} {conn conn' : Conn} {found read after : Request} {name : Bytes} (silent : env.Silent)
      (here : conn.request = some request) (path : (parsePath site env data p conn).2.request = some found)
      (untouched : found.Untouched read) (there : conn'.request = some read) (noSni : conn'.sni = none)
      (from_ : conn'.htp = parent) (matched : findVhost site parent name = some vhost)
      (host : (parseHostname site env name p' conn').2.request = some after) : VhostResolved site parent vhost data request after
  | http2 {env : H2Env} {id : Nat} {target : Bytes} {endStream : Bool} {c c' : H2Conn} {found read after : Request} {name : Bytes}
      (silent : env.Silent) (here : (c.streams id).request = some request) (text : (splitTarget target).1 = data)
      (path : ((onPath site env id target c).2.streams id).request = some found) (untouched : found.Untouched read)
      (there : c'.userData id = some read) (unanswered : read.flags.finished = false)
      (unresolved : read.flags.vhostResolved = false) (named : evhtpHeaderFind read.headersIn (ascii "host") = some name)
      (from_ : c'.htp = parent) (matched : findVhost site parent name = some vhost)
      (head : ((handleH2HeadersFrame site env id true endStream c').2.streams id).request = some after) :
      VhostResolved site parent vhost data request after

/-- Nothing of what the parent has for a path is left in a request of the virtual host. -/
def Replaces (site : Site) (parent vhost : Nat) (path : Path) : Prop :=
  ((lookup site vhost path).isSome ∨ (selected site parent path).cb = none ∨
      selected site parent path = (site.htp vhost).defaults) ∧
    ((hooksFor site vhost path).isSome ∨ (hooksFor site parent path).getD 0 = 0)

structure Request.Resolved (path : Path) (handler : Handler) (hooks : Nat) (request : Request) : Prop where
  target : ∃ path', request.path = some path' ∧ path.SameText path'
  handler : request.handler = handler
  hooks : request.effectiveHooks = hooks

section
variable {site : Site} {parent vhost : Nat} {path : Path} {handler : Handler} {hooks : Nat} {request read : Request}

theorem hooksFor_sameText {path' : Path} (same : path.SameText path') (htp : Nat) :
    hooksFor site htp path' = hooksFor site htp path := by
  unfold hooksFor
  rw [lookup_sameText same]

theorem setCallbacks_hooks (here : request.path = some path) :
    (setCallbacks site request).effectiveHooks = (hooksFor site request.htp path).getD request.effectiveHooks := by
  obtain ⟨uri, there, known⟩ := Option.bind_eq_some_iff.mp here
  unfold setCallbacks
  rw [there]
  dsimp only
  rw [known]
  dsimp only
  unfold setCallbacksFor hooksFor Request.effectiveHooks
  cases found : lookup site request.htp path with
  | some callback =>
    dsimp only [Option.bind_some]
    cases callback.1.hooks <;> rfl
  | none =>
    dsimp only
    split <;> rfl

theorem Request.Resolved.setCallbacks (resolved : request.Resolved path handler hooks) (site : Site) :
    (setCallbacks site request).Resolved path (reselected site request.htp path handler)
      ((hooksFor site request.htp path).getD hooks) := by
  obtain ⟨path', here, same⟩ := resolved.target
  obtain ⟨selects, path'', there, text⟩ := setCallbacks_handler site here
  refine ⟨⟨path'', there, text.1.trans same.1, text.2.trans same.2⟩, ?_, ?_⟩
  · rw [selects, reselected_sameText same, resolved.handler]
  · rw [setCallbacks_hooks here, hooksFor_sameText same, resolved.hooks]

theorem Request.Resolved.untouched (resolved : request.Resolved path handler hooks) (untouched : request.Untouched read) :
    read.Resolved path handler hooks := by
  refine ⟨?_, ?_, ?_⟩
  · rw [untouched.path]
    exact resolved.target
  · unfold Request.handler
    rw [untouched.cb, untouched.cbarg]
    exact resolved.handler
  · unfold Request.effectiveHooks
    rw [untouched.hooks]
    exact resolved.hooks

theorem Request.Unresolved.resolved (new : request.Unresolved parent) (here : read.path = some path) (htp : read.htp = request.htp)
    (cb : read.cb = request.cb) (same : read.hooks = request.hooks) :
    (setCallbacks site read).Resolved path (selected site parent path) ((hooksFor site parent path).getD 0) := by
  have before : read.Resolved path read.handler 0 := by
    refine ⟨⟨path, here, rfl, rfl⟩, rfl, ?_⟩
    unfold effectiveHooks
    rw [same]
    exact new.hooks
  have after := before.setCallbacks site
  rwa [htp, new.htp, reselected_new _ (cb.trans new.cb)] at after

theorem reselected_reselected (handler : Handler) :
    reselected site vhost path (reselected site vhost path handler) = reselected site vhost path handler := by
  unfold reselected
  split
  · rfl
  · exact ite_self _

theorem Request.Resolved.sameCallbacks_iff {data : Bytes} {after : Request}
    (resolved : after.Resolved (pathNew data) (reselected site vhost (pathNew data) (selected site parent (pathNew data)))
      ((hooksFor site vhost (pathNew data)).getD ((hooksFor site parent (pathNew data)).getD 0))) :
    after.SameCallbacks (Evhtp.setCallbacks site (requestAt vhost data)) ↔ Replaces site parent vhost (pathNew data) := by
  have new : (requestAt vhost data).Unresolved vhost := ⟨rfl, rfl, rfl⟩
  have fresh : (Evhtp.setCallbacks site (requestAt vhost data)).Resolved (pathNew data) (selected site vhost (pathNew data))
      ((hooksFor site vhost (pathNew data)).getD 0) := new.resolved rfl rfl rfl rfl
  unfold SameCallbacks Replaces
  rw [resolved.handler, resolved.hooks, fresh.handler, fresh.hooks, reselected_eq_selected]
  refine and_congr_right fun _ => ?_
  cases hooksFor site vhost (pathNew data) <;> simp

end

section
variable {site : Site} {parent vhost : Nat} {data : Bytes} {request found read after : Request}

theorem appStatus_silent {env : Env} (silent : env.Silent) (hook : AppHook) (p : Parser) (conn : Conn) :
    (appStatus env hook p conn).2.request = conn.request.map (·.setStatus resOk) := by
  unfold appStatus runApp
  rw [silent]
  rfl

theorem Request.Untouched.setStatus (request : Request) (status : Nat) : request.Untouched (request.setStatus status) :=
  ⟨⟨rfl, rfl, rfl, rfl, rfl⟩, rfl⟩

theorem parsePath_resolved {env : Env} (silent : env.Silent) {p : Parser} {conn : Conn} (here : conn.request = some request)
    (new : request.Unresolved parent) (set : (parsePath site env data p conn).2.request = some found) :
    found.Resolved (pathNew data) (selected site parent (pathNew data)) ((hooksFor site parent (pathNew data)).getD 0) := by
  unfold parsePath withRequest at set
  rw [here] at set
  dsimp only at set
  rw [appStatus_silent silent] at set
  cases set
  have resolved : (setCallbacks site (request.withPath p data)).Resolved (pathNew data) (selected site parent (pathNew data))
      ((hooksFor site parent (pathNew data)).getD 0) := new.resolved rfl rfl rfl rfl
  exact resolved.untouched (.setStatus _ _)

theorem parseHostname_resolved {env : Env} (silent : env.Silent) {p : Parser} {conn : Conn} {name : Bytes} {path : Path}
    {handler : Handler} {hooks : Nat} (here : conn.request = some read) (noSni : conn.sni = none)
    (matched : findVhost site conn.htp name = some vhost) (resolved : read.Resolved path handler hooks)
    (set : (parseHostname site env name p conn).2.request = some after) :
    after.Resolved path (reselected site vhost path handler) ((hooksFor site vhost path).getD hooks) := by
  unfold parseHostname withRequest at set
  rw [here, noSni] at set
  dsimp only at set
  rw [matched] at set
  dsimp only at set
  rw [appStatus_silent silent] at set
  cases set
  have moved : Request.Resolved path handler hooks { read with host := some name, htp := vhost } :=
    ⟨resolved.target, resolved.handler, resolved.hooks⟩
  exact (moved.setCallbacks site).untouched (.setStatus _ _)

/-- The request of a stream that was not answered, with its callback and hooks. -/
def H2Conn.Stands (id : Nat) (htp : Nat) (path : Path) (handler : Handler) (hooks : Nat) (c : H2Conn) : Prop :=
  ∃ request, (c.streams id).request = some request ∧ request.htp = htp ∧ request.Resolved path handler hooks ∧
    request.flags.finished = false

section
variable {env : H2Env} {id htp : Nat} {path : Path} {handler : Handler} {hooks : Nat} {c : H2Conn}

theorem H2Conn.call_silent (silent : env.Silent) (c : H2Conn) (id : Nat) (hook : AppHook) :
    (c.call env id hook).1 = {} ∧ (c.call env id hook).2.streams = c.streams ∧ (c.call env id hook).2.htp = c.htp := by
  unfold H2Conn.call
  rw [silent]
  exact ⟨rfl, rfl, rfl⟩

variable (stands : c.Stands id htp path handler hooks)
include stands

theorem H2Conn.Stands.of_streams {c' : H2Conn} (same : c'.streams = c.streams) : c'.Stands id htp path handler hooks := by
  unfold Stands
  rwa [same]

theorem H2Conn.Stands.onRequest {f : Request → Request}
    (untouched : ∀ request : Request, request.Untouched (f request) ∧ (f request).flags.finished = request.flags.finished) :
    (c.onRequest id f).Stands id htp path handler hooks := by
  obtain ⟨request, here, at_, resolved, unanswered⟩ := stands
  obtain ⟨same, finished⟩ := untouched request
  refine ⟨f request, ?_, same.htp.trans at_, resolved.untouched same, finished.trans unanswered⟩
  rw [H2Conn.onRequest, H2Conn.modify_self, here]
  rfl

theorem H2Conn.Stands.setCallbacks (site : Site) :
    (c.onRequest id (setCallbacks site)).Stands id htp path (reselected site htp path handler)
      ((hooksFor site htp path).getD hooks) := by
  obtain ⟨request, here, rfl, resolved, unanswered⟩ := stands
  refine ⟨Evhtp.setCallbacks site request, ?_, (setCallbacks_redirected site request).htp, resolved.setCallbacks site,
    (setCallbacks_edited site request).finished.trans unanswered⟩
  rw [H2Conn.onRequest, H2Conn.modify_self, here]
  rfl

theorem H2Conn.Stands.gate (silent : env.Silent) (hook : AppHook) :
    (gate env id hook c).1 = true ∧ (gate env id hook c).2.Stands id htp path handler hooks := by
  obtain ⟨reply, streams, -⟩ := H2Conn.call_silent silent c id hook
  have unanswered : (c.call env id hook).2.finished id = false := by
    obtain ⟨request, here, -, -, unanswered⟩ := stands
    unfold H2Conn.finished
    rw [streams, here]
    exact unanswered
  unfold Evhtp.gate
  simp only [unanswered, reply]
  exact ⟨rfl, stands.of_streams streams⟩

theorem H2Conn.Stands.headersStart (silent : env.Silent) (request : Request) :
    (headersStart env id request c).1 = true ∧ (headersStart env id request c).2.Stands id htp path handler hooks := by
  unfold Evhtp.headersStart
  split
  · exact ⟨rfl, stands⟩
  · have started : (c.onRequest id Request.started).Stands id htp path handler hooks :=
      stands.onRequest fun _ => ⟨⟨⟨rfl, rfl, rfl, rfl, rfl⟩, rfl⟩, rfl⟩
    obtain ⟨reply, streams, -⟩ := H2Conn.call_silent silent (c.onRequest id Request.started) id .headersStart
    dsimp only
    rw [reply]
    exact ⟨rfl, started.of_streams streams⟩

theorem H2Conn.Stands.lookupHost {name : Bytes}
    (matched : findVhost site c.htp name = some vhost) :
    (c.lookupHost site id name).Stands id vhost path (reselected site vhost path handler)
      ((hooksFor site vhost path).getD hooks) := by
  obtain ⟨request, here, -, resolved, unanswered⟩ := stands
  have moved : Request.Resolved path handler hooks { request with host := some name, htp := vhost } :=
    ⟨resolved.target, resolved.handler, resolved.hooks⟩
  refine ⟨Evhtp.setCallbacks site { request with host := some name, htp := vhost }, ?_,
    (setCallbacks_redirected site _).htp, moved.setCallbacks site, (setCallbacks_edited site _).finished.trans unanswered⟩
  have there : findVhost site (c.onRequest id fun request => { request with host := some name }).htp name = some vhost := matched
  unfold H2Conn.lookupHost
  dsimp only
  rw [there]
  simp [H2Conn.onRequest, here]

theorem H2Conn.Stands.dispatch (silent : env.Silent) : (h2Dispatch env id c).Stands id htp path handler hooks := by
  unfold h2Dispatch
  split
  · exact stands
  · split
    · exact stands
    · obtain ⟨reply, streams, -⟩ := H2Conn.call_silent silent c id (.callback _ _)
      dsimp only
      rw [reply]
      exact stands.of_streams streams

theorem H2Conn.Stands.headersComplete (silent : env.Silent) (site : Site) :
    (headersComplete site env id c).Stands id htp path (reselected site htp path handler)
      ((hooksFor site htp path).getD hooks) := by
  obtain ⟨-, hooked⟩ := (stands.setCallbacks site).gate silent .headers
  unfold Evhtp.headersComplete
  dsimp only
  split
  · exact hooked.dispatch silent
  · exact hooked

theorem H2Conn.Stands.resolveVhost (silent : env.Silent) {name : Bytes}
    (unresolved : request.flags.vhostResolved = false)
    (named : evhtpHeaderFind request.headersIn (ascii "host") = some name) (matched : findVhost site c.htp name = some vhost) :
    (resolveVhost site env id request c).1 = true ∧
      (resolveVhost site env id request c).2.Stands id vhost path (reselected site vhost path handler)
        ((hooksFor site vhost path).getD hooks) := by
  have marked : (c.onRequest id Request.resolved).Stands id htp path handler hooks :=
    stands.onRequest fun _ => ⟨⟨⟨rfl, rfl, rfl, rfl, rfl⟩, rfl⟩, rfl⟩
  unfold Evhtp.resolveVhost
  rw [unresolved, named]
  exact (marked.lookupHost (by exact matched)).gate silent _

theorem H2Conn.Stands.headersFrame (silent : env.Silent) {name : Bytes}
    (here : c.userData id = some request) (unresolved : request.flags.vhostResolved = false)
    (named : evhtpHeaderFind request.headersIn (ascii "host") = some name) (matched : findVhost site c.htp name = some vhost)
    (endStream : Bool) :
    (handleH2HeadersFrame site env id true endStream c).2.Stands id vhost path (reselected site vhost path handler)
      ((hooksFor site vhost path).getD hooks) := by
  have ended : (if endStream then c.onRequest id Request.endStream else c).Stands id htp path handler hooks ∧
      (if endStream then c.onRequest id Request.endStream else c).htp = c.htp := by
    split
    · exact ⟨stands.onRequest fun _ => ⟨⟨⟨rfl, rfl, rfl, rfl, rfl⟩, rfl⟩, rfl⟩, rfl⟩
    · exact ⟨stands, rfl⟩
  obtain ⟨goes, started⟩ := ended.1.headersStart silent request
  have stays : (Evhtp.headersStart env id request (if endStream then c.onRequest id Request.endStream else c)).2.htp = c.htp :=
    (H2Conn.Handles.headersStart_htp request).trans ended.2
  obtain ⟨found, resolved⟩ := started.resolveVhost silent unresolved named (by rw [stays]; exact matched)
  have complete := resolved.headersComplete silent site
  rw [reselected_reselected] at complete
  unfold handleH2HeadersFrame
  rw [here]
  simp only [goes, found, if_true]
  cases known : hooksFor site vhost path with
  | none => simpa [known] using complete
  | some table => simpa [known] using complete

omit stands

theorem onPath_resolved (silent : env.Silent) {target : Bytes} (here : (c.streams id).request = some request)
    (new : request.Unresolved parent) (set : ((onPath site env id target c).2.streams id).request = some found) :
    found.Resolved (pathNew (splitTarget target).1) (selected site parent (pathNew (splitTarget target).1))
      ((hooksFor site parent (pathNew (splitTarget target).1)).getD 0) := by
  have resolved : (setCallbacks site (request.setUri { request.requireUri with path := some (pathNew (splitTarget target).1) })).Resolved
      (pathNew (splitTarget target).1) (selected site parent (pathNew (splitTarget target).1))
      ((hooksFor site parent (pathNew (splitTarget target).1)).getD 0) := new.resolved rfl rfl rfl rfl
  unfold onPath at set
  extract_lets parts placed called at set
  have there : (called.streams id).request = some (setCallbacks site
      (request.setUri { request.requireUri with path := some (pathNew (splitTarget target).1) })) := by
    rw [(H2Conn.call_silent silent _ _ _).2.1]
    simp [placed, parts, H2Conn.onRequest, here]
  split at set
  · next known =>
    cases there.symm.trans known
    split at set
    · next uri parsed =>
      rw [H2Conn.onRequest, H2Conn.modify_self, there] at set
      cases set
      exact resolved.untouched ⟨.setUri _ (uriSetQuery_path parsed), rfl⟩
    · cases there.symm.trans set
      exact resolved
  · cases there.symm.trans set
    exact resolved

end

/-- Callback, argument and hooks are those of a new request of the virtual host unless this one has no callback for
the path and the parent selects something else than its default, or the parent has hooks for the path which nothing
replaces. -/
theorem vhost_replaces_callbacks (new : request.Unresolved parent)
    (resolved : VhostResolved site parent vhost data request after) :
    after.SameCallbacks (setCallbacks site (requestAt vhost data)) ↔ Replaces site parent vhost (pathNew data) := by
  cases resolved with
  | http1 silent here path untouched there noSni from_ matched host =>
    have first := parsePath_resolved silent here new path
    subst from_
    exact (parseHostname_resolved silent there noSni matched (first.untouched untouched) host).sameCallbacks_iff
  | http2 silent here text path untouched there unanswered unresolved named from_ matched head =>
    subst text from_
    have first := (onPath_resolved silent here new path).untouched untouched
    have stands : H2Conn.Stands _ _ _ _ _ _ := ⟨_, userData_request there, rfl, first, unanswered⟩
    obtain ⟨final, here, -, second, -⟩ := stands.headersFrame silent there unresolved named matched _
    cases here.symm.trans head
    exact second.sameCallbacks_iff

end

def gencbSite (callbacks hosted : List Callback) : Site where
  htp id := if id = root then { vhosts := [1], callbacks } else
    { parent := some root, serverName := some (ascii "a.example"), callbacks := hosted, defaultCb := some 9 }
  regexec _ _ := none

def silentEnv : Env where
  app _ _ := {}
  cached _ := none

/-- A connection with the path of a request for `/`, and then with its host name. -/
def pathConn (site : Site) : Conn :=
  (parsePath site silentEnv (ascii "/") (htparserNew defaultConfig).toParser { request := some {} }).2

def hostConn (site : Site) : Conn :=
  (parseHostname site silentEnv (ascii "a.example") (htparserNew defaultConfig).toParser (pathConn site)).2

def ownSite : Site := gencbSite [⟨.hash (ascii "/"), some 5, 0, none⟩] [⟨.hash (ascii "/"), some 7, 3, none⟩]

theorem vhost_replaces_callbacks_own :
    ∃ after, (hostConn ownSite).request = some after ∧
      after.SameCallbacks (setCallbacks ownSite (requestAt 1 (ascii "/"))) := by
  obtain ⟨found, here⟩ : ∃ found, (pathConn ownSite).request = some found := Option.isSome_iff_exists.mp (by decide +kernel)
  obtain ⟨after, there⟩ : ∃ after, (hostConn ownSite).request = some after := Option.isSome_iff_exists.mp (by decide +kernel)
  have resolved : VhostResolved ownSite root 1 (ascii "/") {} after :=
    .http1 (fun _ _ => rfl) rfl here ⟨.refl found, rfl⟩ here rfl rfl (by decide +kernel) there
  have new : ({} : Request).Unresolved root := ⟨rfl, rfl, rfl⟩
  have replaces : Replaces ownSite root 1 (pathNew (ascii "/")) := ⟨.inl (by decide +kernel), .inr (by decide +kernel)⟩
  exact ⟨after, there, (vhost_replaces_callbacks new resolved).mpr replaces⟩

/-- The default callback of a virtual host is not called: the request keeps the default of the parent. -/
theorem vhost_callbacks_kept :
    findVhost (gencbSite [] []) root (ascii "a.example") = some 1 ∧
      (hostConn (gencbSite [] [])).request.map Request.handler = some ⟨some 0, 0⟩ ∧
      (setCallbacks (gencbSite [] []) (requestAt 1 (ascii "/"))).handler = ⟨some 9, 0⟩ := by
  decide +kernel

end Evhtp
