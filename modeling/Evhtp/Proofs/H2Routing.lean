import Evhtp.Proofs.H2Calls

/-! Requests and virtual hosts on an HTTP/2 connection. A host name is looked up from the structure the connection is
at, which moves to the one that is found and stays there for all streams. -/

namespace Evhtp

/-- Hooks that leave the callbacks of their requests alone. -/
def H2Env.Quiet (env : H2Env) : Prop := ∀ clock id hook, (env.app clock id hook).handler = none

/-- A request goes where its own authority says: to the virtual host with this name, or where the connection was
accepted for. -/
structure Request.RoutedByAuthority (site : Site) (request : Request) : Prop where
  htp : request.htp = routedTo site root request.host
  handler : ∀ path, request.path = some path → request.handler = selected site (routedTo site root request.host) path

/-- What is known of a request: it has the callback for its path where it is, and it is at the right place once its
virtual host is known. -/
structure Request.Handled (site : Site) (request : Request) : Prop where
  handler : ∀ path, request.path = some path → request.handler = selected site request.htp path
  resolved : request.flags.vhostResolved = true → request.htp = routedTo site root request.host
  unresolved : request.flags.vhostResolved = false → request.host = none

def Chooses (site : Site) (htp : Nat) (path : Path) (handler : Handler) : Prop :=
  (lookup site htp path).isSome ∨ handler.cb = none ∨ handler = (site.htp htp).defaults

/-- The place where the connection is does not show: a host name leads to the same structure from there, and the
callback that a request has had before does not stay. -/
def GoesRight (site : Site) (s : Session) : H2Event → Prop
  | .header id name value => name = ascii ":path" → ∀ request ∈ s.conn.userData id,
      Chooses site request.htp (pathNew (splitTarget value).1) request.handler
  | .frame (.headers id _ _) => ∀ request ∈ s.conn.userData id, request.flags.vhostResolved = false →
      let found := (evhtpHeaderFind request.headersIn (ascii "host")).bind (findVhost site s.conn.htp)
      found.getD request.htp = routedTo site root (evhtpHeaderFind request.headersIn (ascii "host")) ∧
        ∀ vhost ∈ found, ∀ path ∈ request.path, Chooses site vhost path request.handler
  | _ => True

instance (site : Site) (htp : Nat) (path : Path) (handler : Handler) : Decidable (Chooses site htp path handler) :=
  inferInstanceAs (Decidable (_ ∨ _ ∨ _))

instance (site : Site) (s : Session) (event : H2Event) : Decidable (GoesRight site s event) :=
  match event with
  | .header _ _ _ => inferInstanceAs (Decidable (_ → ∀ request ∈ _, _))
  | .frame (.headers _ _ _) => inferInstanceAs (Decidable (∀ request ∈ _, _ → _ ∧ _))
  | .frame (.data _ _) | .frame (.goaway _) | .frame .other => .isTrue trivial
  | .beginHeaders _ _ | .dataChunk _ _ | .streamClose _ | .act _ | .free _ => .isTrue trivial

/-- All requests are treated right, and were when a hook or a callback was called for them. -/
structure H2Conn.Handles (site : Site) (c : H2Conn) : Prop where
  live : ∀ id request, (c.streams id).request = some request → request.Handled site
  called : ∀ call ∈ c.log, ∀ request, call.request = some request → request.Handled site

section
variable {site : Site} {env : H2Env} {request request' : Request}

theorem Request.Handled.sameWay (handled : request.Handled site) (same : request.SameWay request') : request'.Handled site := by
  obtain ⟨route, flag⟩ := same
  refine ⟨fun path here => ?_, fun resolved => ?_, fun unresolved => ?_⟩
  · unfold Request.handler
    rw [route.cb, route.cbarg, route.htp]
    exact handled.handler path (route.path ▸ here)
  · rw [route.htp, route.host]
    exact handled.resolved (flag ▸ resolved)
  · rw [route.host]
    exact handled.unresolved (flag ▸ unresolved)

theorem Request.Handled.of_setCallbacks
    (chooses : ∀ path, request.path = some path → Chooses site request.htp path request.handler)
    (resolved : request.flags.vhostResolved = true → request.htp = routedTo site root request.host)
    (unresolved : request.flags.vhostResolved = false → request.host = none) : (setCallbacks site request).Handled site := by
  have same := setCallbacks_redirected site request
  have flag : (setCallbacks site request).flags = request.flags := by
    obtain ⟨_, _, _, _, only⟩ := setCallbacks_only site request
    rw [only]
  refine ⟨fun path here => ?_, ?_, ?_⟩
  · cases before : request.path with
    | none =>
      rw [setCallbacks_bare site before, before] at here
      cases here
    | some old =>
      obtain ⟨handler, path', there, text⟩ := setCallbacks_handler site before
      cases there.symm.trans here
      rw [handler, same.htp, selected_sameText text]
      exact reselected_eq_selected.mpr (chooses old before)
  · rw [flag, same.htp, same.host]
    exact resolved
  · rw [flag, same.host]
    exact unresolved

theorem Request.Handled.chooses (handled : request.Handled site) {path : Path} (here : request.path = some path) :
    Chooses site request.htp path request.handler := by
  rw [handled.handler path here]
  exact reselected_eq_selected.mp (reselected_selected site request.htp path)

theorem Request.Handled.setCallbacks (handled : request.Handled site) : (setCallbacks site request).Handled site :=
  .of_setCallbacks (fun _ here => handled.chooses here) handled.resolved handled.unresolved

end

theorem sameWay_steady : Steady Request.SameWay where
  refl := .refl
  trans := .trans
  finish _ := ⟨⟨rfl, rfl, rfl, rfl, rfl⟩, rfl⟩

theorem H2Env.Quiet.stores {env : H2Env} (quiet : env.Quiet) : Stores env Request.SameWay := by
  intro request clock id hook handler stored
  rw [quiet] at stored
  cases stored

def Deed.Stays (deed : Deed) : Prop := deed ≠ .route

theorem route_moves : ¬ Deed.route.Stays := fun differs => differs rfl

namespace H2Conn.Handles
variable {site : Site} {env : H2Env} {id : Nat} {c after : H2Conn}

theorem of_carried (handles : c.Handles site) (carried : ∀ id, Carried Request.SameWay id c after) (log : after.log = c.log) :
    after.Handles site := by
  refine ⟨fun id request here => ?_, log ▸ handles.called⟩
  obtain ⟨before, found, same⟩ := carried id request here
  exact (handles.live id before found).sameWay same

theorem onRequest (handles : c.Handles site) (f : Request → Request) (way : ∀ request : Request, request.SameWay (f request)) :
    (c.onRequest id f).Handles site :=
  handles.of_carried (fun _ => sameWay_steady.carried_onRequest f way) rfl

theorem redirect (handles : c.Handles site) {f : Request → Request}
    (handled : ∀ request, (c.streams id).request = some request → (f request).Handled site) : (c.onRequest id f).Handles site := by
  refine ⟨fun other request here => ?_, handles.called⟩
  by_cases same : other = id
  · subst same
    unfold H2Conn.onRequest at here
    rw [H2Conn.modify_self] at here
    obtain ⟨before, found, rfl⟩ := Option.map_eq_some_iff.mp here
    exact handled before found
  · rw [H2Conn.onRequest, H2Conn.modify_other _ _ same] at here
    exact handles.live other request here

theorem call (quiet : env.Quiet) (handles : c.Handles site) (hook : AppHook) : (c.call env id hook).2.Handles site := by
  have calling := call_calling env id hook c
  refine ⟨fun other request here => ?_, fun call member request here => ?_⟩
  · obtain ⟨before, found, same⟩ := sameWay_steady.carried_call quiet.stores hook request here
    exact (handles.live other before found).sameWay same
  · rw [calling.log] at member
    rcases List.mem_append.mp member with old | new
    · exact handles.called call old request here
    · cases List.mem_singleton.mp new
      exact handles.live id request here

/-- What callbacks do without sending a request elsewhere. -/
theorem of_touches {may : Deed → Prop} (quiet : env.Quiet) (stays : ¬ may .route) (handles : c.Handles site)
    (touches : Touches env id may c after) : after.Handles site := by
  induction touches with
  | refl => exact handles
  | tail _ touch ih =>
    have edits : Edits may Request.SameWay := fun _ way => way.resolve_left stays
    have carried : ∀ other, Carried Request.SameWay other _ _ := fun other => sameWay_steady.carried quiet.stores edits (.single touch)
    cases touch with
    | call hook => exact ih.call quiet hook
    | edit | detach | clear | reset | move => exact ih.of_carried carried rfl

theorem of_same (handles : c.Handles site) (streams : after.streams = c.streams) (log : after.log = c.log) : after.Handles site :=
  ⟨streams ▸ handles.live, log ▸ handles.called⟩

theorem dataChunk (quiet : env.Quiet) (handles : c.Handles site) (data : Bytes) :
    (onDataChunkRecv env id data c).2.Handles site := by
  have status : ∀ {c : H2Conn} (status : Nat), c.Handles site → (c.onRequest id (·.setStatus status)).Handles site :=
    fun status handles => handles.onRequest _ fun _ => ⟨⟨rfl, rfl, rfl, rfl, rfl⟩, rfl⟩
  unfold onDataChunkRecv
  split
  · exact handles
  · split
    · exact handles
    · split
      · exact (status _ handles).of_same rfl rfl
      · have hooked : (c.hookBody env id data).2.Handles site := (handles.call quiet (.read (c.scratch ++ data))).of_same rfl rfl
        have noted := status (c.hookBody env id data).1.res hooked
        dsimp only
        generalize (c.hookBody env id data).2.onRequest id _ = marked at noted ⊢
        have taken : (if (c.hookBody env id data).1.res = resOk then marked.takeScratch id else marked).Handles site := by
          split
          · refine of_same (noted.onRequest (fun request => { request with bufferIn := request.bufferIn ++ marked.scratch }) ?_) rfl rfl
            exact fun _ => ⟨⟨rfl, rfl, rfl, rfl, rfl⟩, rfl⟩
          · exact noted
        exact taken.of_same rfl rfl

theorem onPath (quiet : env.Quiet) (handles : c.Handles site) {target : Bytes}
    (chooses : ∀ request, (c.streams id).request = some request →
      Chooses site request.htp (pathNew (splitTarget target).1) request.handler) :
    (onPath site env id target c).2.Handles site := by
  have routed : (c.onRequest id fun request =>
      Evhtp.setCallbacks site (request.setUri { request.requireUri with path := some (pathNew (splitTarget target).1) })).Handles site := by
    refine handles.redirect fun request here => ?_
    have handled := handles.live id request here
    refine .of_setCallbacks (fun path named => ?_) handled.resolved handled.unresolved
    cases named
    exact chooses request here
  have called : H2Conn.Handles site (H2Conn.call env id (.path (splitTarget target).1) _).2 := routed.call quiet _
  unfold Evhtp.onPath
  dsimp only
  split
  · next query request _ there =>
    split
    · next uri set =>
      refine called.redirect fun other here => ?_
      cases there.symm.trans here
      exact (called.live id request there).sameWay ⟨.setUri request (uriSetQuery_path set), rfl⟩
    · exact called
  · exact called

end H2Conn.Handles

theorem H2Conn.onRequest_onRequest (c : H2Conn) (id : Nat) (f g : Request → Request) :
    (c.onRequest id f).onRequest id g = c.onRequest id fun request => g (f request) := by
  have same : ((c.onRequest id f).onRequest id g).streams = (c.onRequest id fun request => g (f request)).streams := by
    funext other
    by_cases own : other = id
    · subst own
      unfold H2Conn.onRequest
      rw [modify_self, modify_self, modify_self]
      dsimp only
      rw [Option.map_map]
      rfl
    · unfold H2Conn.onRequest
      rw [modify_other _ _ own, modify_other _ _ own, modify_other _ _ own]
  exact congrArg (fun streams => { c with streams }) same

theorem H2Conn.lookupHost_resolved (c : H2Conn) (site : Site) (id : Nat) (host : Bytes) :
    (c.onRequest id Request.resolved).lookupHost site id host =
      match findVhost site c.htp host with
      | some vhost => { c.onRequest id fun request =>
          setCallbacks site { request.resolved with host := some host, htp := vhost } with htp := vhost }
      | none => c.onRequest id fun request => { request.resolved with host := some host } := by
  unfold H2Conn.lookupHost
  dsimp only
  rw [H2Conn.onRequest_onRequest]
  split
  · next vhost found =>
    change findVhost site c.htp host = some vhost at found
    rw [found, H2Conn.onRequest_onRequest]
  · next missing =>
    change findVhost site c.htp host = none at missing
    rw [missing]

namespace H2Conn.Handles
variable {site : Site} {env : H2Env} {id : Nat} {c after : H2Conn} {request : Request}

theorem lookupHost (handles : c.Handles site) (host : Bytes)
    (way : ∀ other, (c.streams id).request = some other → request.SameWay other)
    (right : (findVhost site c.htp host).getD request.htp = routedTo site root (some host))
    (chooses : ∀ vhost ∈ findVhost site c.htp host, ∀ path ∈ request.path, Chooses site vhost path request.handler) :
    ((c.onRequest id Request.resolved).lookupHost site id host).Handles site := by
  rw [H2Conn.lookupHost_resolved]
  split
  · next vhost found =>
    rw [found] at right
    refine of_same (c := c.onRequest id fun request => setCallbacks site { request.resolved with host := some host, htp := vhost })
      (handles.redirect fun other here => ?_) rfl rfl
    obtain ⟨route, -⟩ := way other here
    refine .of_setCallbacks (fun path named => ?_) (fun _ => right) nofun
    have before : request.path = some path := route.path.symm.trans named
    have same : other.handler = request.handler := by
      unfold Request.handler
      rw [route.cb, route.cbarg]
    change Chooses site vhost path other.handler
    rw [same]
    exact chooses vhost found path before
  · next missing =>
    rw [missing] at right
    refine handles.redirect fun other here => ?_
    obtain ⟨route, -⟩ := way other here
    exact ⟨(handles.live id other here).handler, fun _ => route.htp.trans right, nofun⟩

theorem resolveVhost (quiet : env.Quiet) (handles : c.Handles site)
    (way : ∀ other, (c.streams id).request = some other → request.SameWay other)
    (right : request.flags.vhostResolved = false →
      let found := (evhtpHeaderFind request.headersIn (ascii "host")).bind (findVhost site c.htp)
      found.getD request.htp = routedTo site root (evhtpHeaderFind request.headersIn (ascii "host")) ∧
        ∀ vhost ∈ found, ∀ path ∈ request.path, Chooses site vhost path request.handler) :
    (resolveVhost site env id request c).2.Handles site := by
  unfold Evhtp.resolveVhost
  split
  · exact handles
  · next unresolved =>
    have unresolved : request.flags.vhostResolved = false := by simpa using unresolved
    obtain ⟨right, chooses⟩ := right unresolved
    dsimp only
    split
    · next nameless =>
      rw [nameless] at right
      refine handles.redirect fun other here => ?_
      obtain ⟨route, flag⟩ := way other here
      have handled := handles.live id other here
      refine ⟨handled.handler, fun _ => ?_, nofun⟩
      change other.htp = routedTo site root other.host
      rw [handled.unresolved (flag.trans unresolved), route.htp]
      exact right
    · next host named =>
      rw [named] at right chooses
      have looked : ((c.onRequest id Request.resolved).lookupHost site id host).Handles site :=
        handles.lookupHost host way right chooses
      have gated : Touches env id Deed.Stays ((c.onRequest id Request.resolved).lookupHost site id host)
          (gate env id (.hostname host) _).2 := .gate nofun nofun
      exact looked.of_touches quiet route_moves gated

theorem headersComplete (quiet : env.Quiet) (handles : c.Handles site) : (headersComplete site env id c).Handles site := by
  have set : (c.onRequest id (setCallbacks site)).Handles site :=
    handles.redirect fun request here => (handles.live id request here).setCallbacks
  have gated : Touches env id Deed.Stays (c.onRequest id (setCallbacks site))
      (gate env id .headers (c.onRequest id (setCallbacks site))).2 := .gate nofun nofun
  have dispatched : Touches env id Deed.Stays (gate env id .headers (c.onRequest id (setCallbacks site))).2
      (h2Dispatch env id (gate env id .headers (c.onRequest id (setCallbacks site))).2) := .dispatch (fun _ _ => nofun) nofun nofun
  unfold Evhtp.headersComplete
  dsimp only
  split
  · exact set.of_touches quiet route_moves (gated.trans dispatched)
  · exact set.of_touches quiet route_moves gated

theorem headersStart_htp (request : Request) : (headersStart env id request c).2.htp = c.htp := by
  unfold headersStart
  split
  · rfl
  · exact (call_calling env id .headersStart _).htp

theorem headersFrame (quiet : env.Quiet) (handles : c.Handles site) {s : Session} (conn : s.conn = c) (endHeaders endStream : Bool)
    (right : GoesRight site s (.frame (.headers id endHeaders endStream))) :
    (handleH2HeadersFrame site env id endHeaders endStream c).2.Handles site := by
  unfold handleH2HeadersFrame
  split
  · split
    · exact handles
    · next request found =>
      have marked : (if endStream then c.onRequest id Request.endStream else c).Handles site ∧
          Carried Request.SameWay id c (if endStream then c.onRequest id Request.endStream else c) ∧
          (if endStream then c.onRequest id Request.endStream else c).htp = c.htp := by
        have way : ∀ request : Request, request.SameWay request.endStream := fun _ => ⟨⟨rfl, rfl, rfl, rfl, rfl⟩, rfl⟩
        split
        · exact ⟨handles.onRequest _ way, sameWay_steady.carried_onRequest _ way, rfl⟩
        · exact ⟨handles, sameWay_steady.carried_refl c, rfl⟩
      dsimp only
      generalize (if endStream then c.onRequest id Request.endStream else c) = ended at marked ⊢
      obtain ⟨marked, carried, htp⟩ := marked
      have starting : Touches env id Deed.Stays ended (headersStart env id request ended).2 := .headersStart nofun request
      have started := marked.of_touches quiet route_moves starting
      split
      · have edits : Edits Deed.Stays Request.SameWay := fun _ way => way.resolve_left route_moves
        have carried := sameWay_steady.carried_trans carried (sameWay_steady.carried quiet.stores edits starting)
        have way : ∀ other, ((headersStart env id request ended).2.streams id).request = some other → request.SameWay other := by
          intro other here
          obtain ⟨before, there, same⟩ := carried other here
          cases (userData_request found).symm.trans there
          exact same
        have resolved : (Evhtp.resolveVhost site env id request (headersStart env id request ended).2).2.Handles site := by
          refine started.resolveVhost quiet way ?_
          rw [headersStart_htp, htp, ← conn]
          exact right request (conn ▸ found)
        split
        · exact resolved.headersComplete quiet
        · exact resolved
      · exact started
  · exact handles

theorem beginHeaders (handles : c.Handles site) (request : Bool) : (serverOnBeginHeaders env id request c).2.Handles site := by
  cases request with
  | false => exact handles
  | true =>
    refine ⟨fun other request here => ?_, handles.called⟩
    by_cases same : other = id
    · subst same
      rw [beginHeaders_self] at here
      cases here
      unfold h2StreamNew h2RequestNew
      cases env.cached c.clock with
      | none => exact ⟨nofun, nofun, fun _ => rfl⟩
      | some cached =>
        refine ⟨fun path named => ?_, nofun, fun _ => rfl⟩
        change (cached.uri.map uriClear).bind Uri.path = some path at named
        cases old : cached.uri <;> rw [old] at named <;> cases named
    · rw [beginHeaders_other env c same] at here
      exact handles.live other request here

theorem pathHeader (quiet : env.Quiet) (handles : c.Handles site) {value : Bytes}
    (chooses : ∀ request, c.userData id = some request →
      Chooses site request.htp (pathNew (splitTarget value).1) request.handler) :
    (serverOnHeader site env id (ascii ":path") value c).2.Handles site := by
  have pseudo : (ascii ":path").head? = some 58 := by decide
  have other : ascii ":path" ≠ ascii ":method" := by decide
  unfold serverOnHeader
  split
  · exact handles
  · next request found =>
    unfold onPseudoHeader
    rw [if_pos pseudo, if_neg other, if_pos rfl]
    refine handles.onPath quiet fun other here => ?_
    cases (userData_request found).symm.trans here
    exact chooses request found

theorem run (quiet : env.Quiet) {s : Session} {event : H2Event} (handles : s.conn.Handles site) (right : GoesRight site s event) :
    (event.run site env s.conn).2.Handles site := by
  cases event with
  | beginHeaders id request => exact handles.beginHeaders request
  | header id name value =>
    by_cases isPath : name = ascii ":path"
    · subst isPath
      exact handles.pathHeader quiet fun request found => right rfl request found
    · have touches : Touches env id Deed.Stays s.conn (serverOnHeader site env id name value s.conn).2 :=
        .header nofun (fun _ _ => nofun) (fun same => absurd same isPath) value
      exact handles.of_touches quiet route_moves touches
  | frame received =>
    cases received with
    | headers id endHeaders endStream => exact handles.headersFrame quiet rfl endHeaders endStream right
    | data id endStream =>
      have frame : ∃ marked, (marked = s.conn ∨ marked = s.conn.onRequest id Request.endStream) ∧
          Touches env id Deed.Stays marked (handleH2DataFrame env id endStream s.conn).2 :=
        Touches.dataFrame nofun (fun _ _ => nofun) nofun nofun endStream
      obtain ⟨marked, rfl | rfl, touches⟩ := frame
      · exact handles.of_touches quiet route_moves touches
      · refine of_touches quiet route_moves (handles.onRequest _ fun _ => ?_) touches
        exact ⟨⟨rfl, rfl, rfl, rfl, rfl⟩, rfl⟩
    | goaway last => exact H2Event.run_goaway (fun _ _ handles => handles.call quiet .error) handles
    | other => exact handles
  | dataChunk id data => exact handles.dataChunk quiet data
  | streamClose id =>
    have closed : Touches env id Deed.Stays s.conn (serverOnStreamClose env id s.conn).2 := .streamClose nofun nofun
    exact handles.of_touches quiet route_moves closed
  | act actions =>
    have acts : H2Conn.Acts (fun _ => True) s.conn (runH2Actions actions s.conn) := runH2Actions_acts (fun _ _ => trivial) s.conn
    exact handles.of_carried (fun id => sameWay_steady.carried_finish (acts.streams id)) acts.log
  | free id =>
    have freed : Touches env id Deed.Stays s.conn (h2RequestFree env id s.conn) := .free nofun nofun
    unfold H2Event.run
    dsimp only
    split
    · exact handles.of_touches quiet route_moves freed
    · exact handles

end H2Conn.Handles

theorem Request.Handled.routed {site : Site} {request : Request} (handled : request.Handled site)
    (resolved : request.flags.vhostResolved = true) : request.RoutedByAuthority site := by
  have here := handled.resolved resolved
  exact ⟨here, here ▸ handled.handler⟩

/-- Requests with the same host and path go the same way. -/
theorem Request.RoutedByAuthority.unique {site : Site} {first second : Request} (one : first.RoutedByAuthority site)
    (two : second.RoutedByAuthority site) (host : first.host = second.host) {path path' : Path}
    (here : first.path = some path) (there : second.path = some path') (same : path.SameText path') :
    first.htp = second.htp ∧ first.handler = second.handler := by
  rw [one.htp, two.htp, one.handler path here, two.handler path' there, host, selected_sameText same]
  exact ⟨rfl, rfl⟩

theorem handles_reached {site : Site} {env : H2Env} (quiet : env.Quiet) {start s : Session} (fresh : start.Fresh)
    (reached : Session.Reaches site env (GoesRight site) start s) : s.conn.Handles site := by
  apply reached.invariant
  · refine ⟨fun id request here => ?_, fun call member => ?_⟩
    · rw [fresh.streams id] at here
      cases here
    · rw [fresh.log] at member
      cases member
  · intro s event after right stepped handles
    rw [stepped.conn]
    exact handles.run quiet right

/-- Where every event goes right, requests go where their own authority says, and the same host and path lead to the
same structure and callback whatever happens to other streams. -/
theorem h2_authority_routing (site : Site) {env : H2Env} (quiet : env.Quiet) {start s : Session} (fresh : start.Fresh)
    (reached : Session.Reaches site env (GoesRight site) start s) :
    (∀ id request, (s.conn.streams id).request = some request → request.flags.vhostResolved = true →
      request.RoutedByAuthority site) ∧
    (∀ call ∈ s.conn.log, ∀ request, call.request = some request → request.flags.vhostResolved = true →
      request.RoutedByAuthority site) ∧
    (∀ {env' : H2Env} {start' s' : Session}, env'.Quiet → start'.Fresh → Session.Reaches site env' (GoesRight site) start' s' →
      ∀ id id' request request' path path', (s.conn.streams id).request = some request → request.flags.vhostResolved = true →
        (s'.conn.streams id').request = some request' → request'.flags.vhostResolved = true → request.host = request'.host →
        request.path = some path → request'.path = some path' → path.SameText path' →
        request.htp = request'.htp ∧ request.handler = request'.handler) := by
  have handles := handles_reached quiet fresh reached
  refine ⟨fun id request here resolved => ?_, fun call member request here resolved => ?_, ?_⟩
  · exact (handles.live id request here).routed resolved
  · exact (handles.called call member request here).routed resolved
  · intro env' start' s' quiet' fresh' reached' id id' request request' path path' here resolved there resolved' host
      named named' same
    have handles' := handles_reached quiet' fresh' reached'
    have one := (handles.live id request here).routed resolved
    have two := (handles'.live id' request' there).routed resolved'
    exact one.unique two host named named' same

def askFor (id : Nat) (host : String) : List H2Event :=
  headOf id "GET" [(":authority", host)] ++ [.frame (.headers id true false)]

theorem plainH2_quiet : plainH2.Quiet := fun _ _ _ => rfl

/-- The unknown host comes first here. -/
theorem h2_authority_routing_one :
    ∃ s, Session.Reaches hostedSite plainH2 (GoesRight hostedSite) {} s ∧
      ∃ other request, (s.conn.streams 1).request = some other ∧ (s.conn.streams 3).request = some request ∧
        (other.host = some (ascii "b.example") ∧ other.htp = root ∧ other.RoutedByAuthority hostedSite) ∧
        request.host = some (ascii "a.example") ∧ request.htp = 1 ∧ request.cb = some 7 ∧ request.RoutedByAuthority hostedSite := by
  have run : ((Runs.run (Session.step hostedSite plainH2) (GoesRight hostedSite) {}
      (askFor 1 "b.example" ++ askFor 3 "a.example")).bind fun s =>
        (s.conn.streams 1).request.bind fun other => (s.conn.streams 3).request.map fun request =>
          ((other.host, other.htp, other.flags.vhostResolved),
            request.host, request.htp, request.cb, request.flags.vhostResolved)) =
      some ((some (ascii "b.example"), root, true), some (ascii "a.example"), 1, some 7, true) := by
    decide +kernel
  obtain ⟨s, taken, seen⟩ := Option.bind_eq_some_iff.mp run
  obtain ⟨other, there, seen⟩ := Option.bind_eq_some_iff.mp seen
  obtain ⟨request, here, seen⟩ := Option.map_eq_some_iff.mp seen
  simp only [Prod.mk.injEq] at seen
  obtain ⟨⟨otherHost, otherHtp, otherResolved⟩, host, htp, cb, resolved⟩ := seen
  have reached := Runs.Reaches.of_run taken
  obtain ⟨live, -, -⟩ := h2_authority_routing hostedSite plainH2_quiet fresh_session reached
  exact ⟨s, reached, other, request, there, here, ⟨otherHost, otherHtp, live 1 other there otherResolved⟩, host, htp, cb,
    live 3 request here resolved⟩

/-- A request for an unknown host goes to the virtual host of an earlier one. Had it come first, it would not have. -/
theorem h2_authority_routing_two :
    (∃ s, Session.Reaches hostedSite plainH2 (fun _ _ => True) {} s ∧
      ∃ request, (s.conn.streams 3).request = some request ∧ request.flags.vhostResolved = true ∧
        request.host = some (ascii "b.example") ∧ findVhost hostedSite root (ascii "b.example") = none ∧
        request.htp = 1 ∧ ¬ request.RoutedByAuthority hostedSite) ∧
    ∃ s, Session.Reaches hostedSite plainH2 (fun _ _ => True) {} s ∧
      (s.conn.streams 3).request.map (fun request => (request.host, request.htp)) = some (some (ascii "b.example"), root) := by
  have unknown : findVhost hostedSite root (ascii "b.example") = none := by decide +kernel
  constructor
  · have run : ((({} : Session).steps hostedSite plainH2 (askFor 1 "a.example" ++ askFor 3 "b.example")).bind fun s =>
        (s.conn.streams 3).request.map fun request => (request.flags.vhostResolved, request.host, request.htp)) =
        some (true, some (ascii "b.example"), 1) := by
      decide +kernel
    obtain ⟨s, taken, seen⟩ := Option.bind_eq_some_iff.mp run
    obtain ⟨request, here, seen⟩ := Option.map_eq_some_iff.mp seen
    obtain ⟨resolved, seen⟩ := Prod.mk.inj seen
    obtain ⟨host, htp⟩ := Prod.mk.inj seen
    refine ⟨s, Session.Reaches.steps .start (fun _ _ _ => trivial) taken, request, here, resolved, host, unknown, htp, fun routed => ?_⟩
    have wanted := routed.htp
    rw [htp, host] at wanted
    unfold routedTo at wanted
    rw [Option.bind_some, unknown] at wanted
    cases wanted
  · have run : ((({} : Session).steps hostedSite plainH2 (askFor 3 "b.example" ++ askFor 1 "a.example")).map fun s =>
        (s.conn.streams 3).request.map fun request => (request.host, request.htp)) =
        some (some (some (ascii "b.example"), root)) := by
      decide +kernel
    obtain ⟨s, taken, seen⟩ := Option.map_eq_some_iff.mp run
    exact ⟨s, Session.Reaches.steps .start (fun _ _ _ => trivial) taken, seen⟩

end Evhtp
