import Evhtp.Proofs.BodyLimit
import Evhtp.Proofs.Routes

/-! Requests and virtual hosts on an HTTP/1.x connection. A host name is looked up from the structure the connection
was at when the request began, and that is not always the one it was accepted for. -/

namespace Evhtp

def handledBy (site : Site) (began : Nat) (host : Option Bytes) (path : Path) : Handler :=
  match host.bind (findVhost site began) with
  | none => selected site began path
  | some vhost => reselected site vhost path (selected site began path)

/-- Where a request has gone so far, in terms of where it began. -/
structure Request.Routed (site : Site) (request : Request) : Prop where
  htp : request.htp = routedTo site request.began request.host
  bare : request.path = none → request.cb = none
  handler : ∀ path, request.path = some path → request.handler = handledBy site request.began request.host path

/-- A request goes where its own host name says: to the virtual host with this name, or where the connection was
accepted for. -/
def Request.RoutedByHost (site : Site) (path : Path) (request : Request) : Prop :=
  request.htp = routedTo site root request.host ∧ request.handler = selected site (routedTo site root request.host) path

/-- The place where a request begins does not show: its host name leads to the same structure from there, and the
virtual host has a callback for the path, or the default of the virtual host would have been taken anyway. -/
def RoutesRight (site : Site) (began : Nat) (host : Option Bytes) (path : Path) : Prop :=
  routedTo site began host = routedTo site root host ∧
    ∀ vhost, host.bind (findVhost site began) = some vhost →
      (lookup site vhost path).isSome ∨ (selected site began path).cb = none ∨ selected site began path = (site.htp vhost).defaults

section
variable {site : Site} {env : Env} {request request' : Request} {path : Path}

theorem handledBy_sameText {path' : Path} (same : path.SameText path') (began : Nat) (host : Option Bytes) :
    handledBy site began host path' = handledBy site began host path := by
  unfold handledBy
  rw [selected_sameText same]
  split
  · rfl
  · exact reselected_sameText same _

theorem Request.Routed.of_sameRoute (routed : request.Routed site) (began : request'.began = request.began)
    (same : request.SameRoute request') : request'.Routed site := by
  refine ⟨?_, fun bare => ?_, fun path here => ?_⟩
  · rw [same.htp, began, same.host]
    exact routed.htp
  · rw [same.cb]
    exact routed.bare (same.path ▸ bare)
  · unfold Request.handler
    rw [same.cb, same.cbarg, began, same.host]
    exact routed.handler path (same.path ▸ here)

theorem Request.Routed.of_setCallbacks (htp : request.htp = routedTo site request.began request.host)
    (bare : request.path = none → request.cb = none)
    (selects : ∀ path, request.path = some path →
      reselected site request.htp path request.handler = handledBy site request.began request.host path) :
    (setCallbacks site request).Routed site := by
  have same := setCallbacks_redirected site request
  cases here : request.path with
  | none =>
    rw [setCallbacks_bare site here]
    exact ⟨htp, fun _ => bare here, fun path there => nomatch here.symm.trans there⟩
  | some path =>
    obtain ⟨handler, path', there, text⟩ := setCallbacks_handler site here
    refine ⟨?_, fun absent => (nomatch absent.symm.trans there), fun other found => ?_⟩
    · rw [same.htp, same.began, same.host]
      exact htp
    · cases there.symm.trans found
      rw [handler, same.began, same.host, handledBy_sameText text]
      exact selects path here

def Request.withPath (request : Request) (p : Parser) (data : Bytes) : Request :=
  { request.setUri { request.requireUri with path := some (pathNew data), scheme := p.scheme } with method := p.method }

theorem Request.Routed.on_path (routed : request.Routed site) (nameless : request.host = none) (bare : request.path = none)
    (p : Parser) (data : Bytes) : (setCallbacks site (request.withPath p data)).Routed site := by
  have stays : request.htp = request.began := by
    rw [routed.htp, nameless]
    rfl
  refine .of_setCallbacks routed.htp (fun absent => nomatch absent) fun path here => ?_
  rw [reselected_new _ (routed.bare bare)]
  change selected site request.htp path = handledBy site request.began request.host path
  rw [nameless, stays]
  rfl

theorem Request.Routed.on_host (routed : request.Routed site) (nameless : request.host = none) {vhost : Nat} {name : Bytes}
    (found : findVhost site request.began name = some vhost) :
    (setCallbacks site { request with host := some name, htp := vhost }).Routed site := by
  refine .of_setCallbacks ?_ routed.bare fun path here => ?_
  · change vhost = ((some name).bind (findVhost site request.began)).getD request.began
    rw [Option.bind_some, found]
    rfl
  · have before : request.handler = selected site request.began path := by
      rw [routed.handler path here, nameless]
      rfl
    change reselected site vhost path request.handler = handledBy site request.began (some name) path
    unfold handledBy
    rw [Option.bind_some, found, before]

theorem Request.Routed.on_unknown_host (routed : request.Routed site) (nameless : request.host = none) {name : Bytes}
    (missing : findVhost site request.began name = none) : Request.Routed site { request with host := some name } := by
  refine ⟨?_, routed.bare, fun path here => ?_⟩
  · change request.htp = ((some name).bind (findVhost site request.began)).getD request.began
    rw [routed.htp, nameless, Option.bind_some, missing]
    rfl
  · change request.handler = handledBy site request.began (some name) path
    rw [routed.handler path here, nameless]
    unfold handledBy
    rw [Option.bind_some, missing]
    rfl

theorem Request.Routed.right_iff (routed : request.Routed site) (here : request.path = some path) :
    request.RoutedByHost site path ↔ RoutesRight site request.began request.host path := by
  unfold Request.RoutedByHost RoutesRight
  rw [routed.htp, routed.handler path here]
  refine and_congr_right fun same => ?_
  rw [← same]
  unfold handledBy routedTo
  cases found : request.host.bind (findVhost site request.began) with
  | none => simp
  | some vhost => simp [reselected_eq_selected]

end

/-- A request that is being read: its host name is looked up at most once, from where it began. -/
structure Directed (site : Site) (p : Parser) (conn : Conn) (request : Request) : Prop where
  routed : request.Routed site
  nameless : p.flags.haveHost = false → request.host = none ∧ conn.htp = request.began

structure Conn.Routes (site : Site) (conn : Conn) : Prop where
  noSni : conn.sni = none
  dispatched : ∀ request ∈ conn.dispatched, request.Routed site ∧ request.path ≠ none

def RouteStage (site : Site) (stage : Stage) (p : Parser) (conn : Conn) : Prop :=
  conn.Routes site ∧
    match stage with
    | .idle => True
    | .line => p.state ≠ .error → ∃ request, conn.request = some request ∧ Directed site p conn request ∧
        (p.state = .headLine → p.flags.haveHost = false ∧ request.path = none)
    | .target | .value => p.state ≠ .error → ∃ request, conn.request = some request ∧ Directed site p conn request
    | .done => p.state = .start ∨ p.state = .error

theorem hook_haveHost {σ : Type} (H : Hooks σ) (name : HookName) (data : Bytes) (s : Scan σ) :
    (hook H name data s).2.p.flags.haveHost = s.p.flags.haveHost := by
  obtain ⟨reply, -, replied⟩ := hook_replied H name data s
  rw [replied]
  unfold Parser.replied
  dsimp only
  split <;> rfl

section
variable {site : Site} {env : Env} {p p' : Parser} {conn after : Conn} {request : Request} {moved : Prop}

theorem Conn.Routes.of_reads (routes : conn.Routes site) (reads : conn.Reads moved after) : after.Routes site := by
  refine ⟨reads.sni.trans routes.noSni, ?_⟩
  rw [reads.dispatched]
  exact routes.dispatched

theorem Directed.of_reads (directed : Directed site p conn request) (here : conn.request = some request)
    (reads : conn.Reads False after) (haveHost : p'.flags.haveHost = p.flags.haveHost) :
    ∃ request', after.request = some request' ∧ Directed site p' after request' ∧ request'.path = request.path := by
  obtain ⟨request', there, -, began, route⟩ := reads.request request here
  have route := route id
  refine ⟨request', there, ⟨directed.routed.of_sameRoute began route, fun nameless => ?_⟩, route.path⟩
  obtain ⟨host, htp⟩ := directed.nameless (haveHost ▸ nameless)
  exact ⟨route.host.trans host, (reads.htp id).trans (htp.trans began.symm)⟩

theorem Directed.of_hook (env : Env) {name : HookName} (data : Bytes) (fires : Fires p name) (other : name ≠ .path)
    (routes : conn.Routes site) (here : conn.request = some request) (directed : Directed site p conn request) :
    (hook (requestPsets site env) name data ⟨p, conn⟩).2.user.Routes site ∧
      ∃ request', (hook (requestPsets site env) name data ⟨p, conn⟩).2.user.request = some request' ∧
        Directed site (hook (requestPsets site env) name data ⟨p, conn⟩).2.p
          (hook (requestPsets site env) name data ⟨p, conn⟩).2.user request' ∧ request'.path = request.path := by
  have haveHost := hook_haveHost (requestPsets site env) name data ⟨p, conn⟩
  by_cases body : name = .body
  · subst body
    rcases parseBodyHook_piece env data p here with ⟨-, -, -, reads⟩ | ⟨-, reads⟩
    · have refused : Directed site p (conn.refuse request data.length) request := ⟨directed.routed, directed.nameless⟩
      have kept : (conn.refuse request data.length).Routes site := ⟨routes.noSni, routes.dispatched⟩
      exact ⟨kept.of_reads reads, refused.of_reads here reads haveHost⟩
    · have received : Directed site p (conn.accept request data.length) (request.receive data.length) :=
        ⟨directed.routed.of_sameRoute rfl ⟨rfl, rfl, rfl, rfl, rfl⟩, directed.nameless⟩
      have kept : (conn.accept request data.length).Routes site := ⟨routes.noSni, routes.dispatched⟩
      exact ⟨kept.of_reads reads, received.of_reads rfl reads haveHost⟩
  · have reads : conn.Reads False (hook (requestPsets site env) name data ⟨p, conn⟩).2.user := by
      refine (hook_reads site env name data p conn ⟨fires.not_begin, body, fires.not_complete⟩).imp ?_
      rintro (path | host)
      · exact other path
      · subst host
        exact fires
    exact ⟨routes.of_reads reads, directed.of_reads here reads haveHost⟩

theorem Directed.of_path (data : Bytes) (routes : conn.Routes site) (here : conn.request = some request)
    (directed : Directed site p conn request) (unnamed : p.flags.haveHost = false) (bare : request.path = none)
    (haveHost : p'.flags.haveHost = p.flags.haveHost) :
    (parsePath site env data p conn).2.Routes site ∧
      ∃ request', (parsePath site env data p conn).2.request = some request' ∧
        Directed site p' (parsePath site env data p conn).2 request' := by
  obtain ⟨nameless, began⟩ := directed.nameless unnamed
  have same := setCallbacks_redirected site (request.withPath p data)
  have set : Directed site p (conn.setRequest (setCallbacks site (request.withPath p data)))
      (setCallbacks site (request.withPath p data)) :=
    ⟨directed.routed.on_path nameless bare p data, fun _ => ⟨same.host.trans nameless, began.trans same.began.symm⟩⟩
  have kept : (conn.setRequest (setCallbacks site (request.withPath p data))).Routes site := ⟨routes.noSni, routes.dispatched⟩
  have called : parsePath site env data p conn =
      appStatus env (.path data) p (conn.setRequest (setCallbacks site (request.withPath p data))) := by
    unfold parsePath withRequest
    rw [here]
    rfl
  have reads : Conn.Reads False (conn.setRequest (setCallbacks site (request.withPath p data)))
      (appStatus env (.path data) p (conn.setRequest (setCallbacks site (request.withPath p data)))).2 :=
    (appStatus_follows ..).reads
  rw [called]
  obtain ⟨request', there, directed, -⟩ := set.of_reads rfl reads haveHost
  exact ⟨kept.of_reads reads, request', there, directed⟩

def Conn.hosted (site : Site) (conn : Conn) (request : Request) (name : Bytes) : Conn :=
  match findVhost site conn.htp name with
  | some vhost => { conn with htp := vhost, request := some (setCallbacks site { request with host := some name, htp := vhost }) }
  | none => conn.setRequest { request with host := some name }

theorem Conn.hosted_directed (name : Bytes) (routes : conn.Routes site) (directed : Directed site p conn request)
    (unnamed : p.flags.haveHost = false) (named : p'.flags.haveHost = true) :
    (conn.hosted site request name).Routes site ∧
      ∃ request', (conn.hosted site request name).request = some request' ∧ Directed site p' (conn.hosted site request name) request' := by
  obtain ⟨nameless, began⟩ := directed.nameless unnamed
  unfold Conn.hosted
  split
  · next vhost found =>
    rw [began] at found
    exact ⟨⟨routes.noSni, routes.dispatched⟩, _, rfl, directed.routed.on_host nameless found, fun unnamed => nomatch named.symm.trans unnamed⟩
  · next missing =>
    rw [began] at missing
    exact ⟨⟨routes.noSni, routes.dispatched⟩, _, rfl, directed.routed.on_unknown_host nameless missing,
      fun unnamed => nomatch named.symm.trans unnamed⟩

theorem Directed.of_hostname (data : Bytes) (routes : conn.Routes site) (here : conn.request = some request)
    (directed : Directed site p conn request) (unnamed : p.flags.haveHost = false) (named : p'.flags.haveHost = true) :
    (parseHostname site env data p.sawHost conn).2.Routes site ∧
      ∃ request', (parseHostname site env data p.sawHost conn).2.request = some request' ∧
        Directed site p' (parseHostname site env data p.sawHost conn).2 request' := by
  have called : parseHostname site env data p.sawHost conn =
      appStatus env (.hostname data) p.sawHost (conn.hosted site request data) := by
    unfold parseHostname withRequest Conn.hosted
    split
    · next absent => cases here.symm.trans absent
    · next found there =>
      cases here.symm.trans there
      split
      · next name sni => cases routes.noSni.symm.trans sni
      · cases findVhost site conn.htp data <;> rfl
  obtain ⟨kept, request', there, hosted⟩ := conn.hosted_directed data routes directed unnamed named
  have reads : (conn.hosted site request data).Reads False (appStatus env (.hostname data) p.sawHost _).2 :=
    (appStatus_follows ..).reads
  rw [called]
  obtain ⟨last, found, directed, -⟩ := hosted.of_reads there reads rfl
  exact ⟨kept.of_reads reads, last, found, directed⟩

theorem Conn.Routes.complete (routes : conn.Routes site) (here : conn.request = some request) (directed : Directed site p conn request) :
    (parseFini env p' conn).2.Routes site := by
  rcases parseFini_completes env p' conn with same | ⟨old, called, there, same, dispatched, given, follows⟩
  · rw [same]
    exact routes
  · cases here.symm.trans there
    have routed : called.Routed site := by
      rcases same with rfl | rfl
      · exact directed.routed
      · exact directed.routed.of_sameRoute (queryFromBody_began request) (queryFromBody_sameRoute request)
    refine ⟨follows.sni.trans routes.noSni, fun request member => ?_⟩
    rw [follows.dispatched] at member
    rcases given with ⟨-, rfl⟩ | ⟨handled, rfl⟩
    · exact routes.dispatched request member
    · rcases List.mem_append.mp member with old | new
      · exact routes.dispatched request old
      · cases List.mem_singleton.mp new
        refine ⟨routed, fun bare => ?_⟩
        rw [routed.bare bare] at handled
        cases handled

theorem Conn.Begins.directed (begun : conn.Begins after) (routes : conn.Routes site) :
    after.Routes site ∧ ∃ request, after.request = some request ∧ Directed site p after request ∧ request.path = none := by
  obtain ⟨request, here, new⟩ := begun.request
  refine ⟨⟨begun.sni.trans routes.noSni, begun.dispatched ▸ routes.dispatched⟩, request, here, ⟨⟨?_, ?_, ?_⟩, ?_⟩, new.path⟩
  · rw [new.host, new.began]
    exact new.at_htp
  · exact fun _ => new.cb
  · exact fun path named => nomatch new.path.symm.trans named
  · exact fun _ => ⟨new.host, begun.htp.trans new.began.symm⟩

theorem Directed.of_silent (directed : Directed site p conn request) (silent : Silent p p') : Directed site p' conn request :=
  ⟨directed.routed, fun unnamed => directed.nameless (silent.haveHost ▸ unnamed)⟩

end

theorem RouteStage.known {site : Site} {name : HookName} {p : Parser} {conn : Conn} (held : RouteStage site name.before p conn)
    (alive : p.state ≠ .error) : ∃ request, conn.request = some request ∧ Directed site p conn request ∧
      (name.before = .line → p.state = .headLine → p.flags.haveHost = false ∧ request.path = none) := by
  obtain ⟨-, known⟩ := held
  cases before : name.before with
  | idle | done => cases name <;> cases before
  | line =>
    rw [before] at known
    obtain ⟨request, here, directed, first⟩ := known alive
    exact ⟨request, here, directed, fun _ => first⟩
  | target | value =>
    rw [before] at known
    obtain ⟨request, here, directed⟩ := known alive
    exact ⟨request, here, directed, nofun⟩

theorem routes_staged (site : Site) (env : Env) : StagedInvariant (requestPsets site env) (RouteStage site) where
  silent := by
    intro stage p p' conn held silent
    refine ⟨held.1, ?_⟩
    have running : p'.state ≠ .error → p.state ≠ .error := fun alive failed => alive (silent.error_stays failed)
    cases stage with
    | idle => trivial
    | line =>
      intro alive
      obtain ⟨request, here, directed, first⟩ := held.2 (running alive)
      refine ⟨request, here, directed.of_silent silent, fun line => ?_⟩
      have before : p.state = .headLine := by
        rcases silent.state with same | leads
        · exact same.symm.trans line
        · rw [line] at leads
          cases state : p.state <;> simp [state, ParserState.leads] at leads
      rw [silent.haveHost]
      exact first before
    | target | value =>
      intro alive
      obtain ⟨request, here, directed⟩ := held.2 (running alive)
      exact ⟨request, here, directed.of_silent silent⟩
    | done => exact held.2.elim silent.start_or_error fun failed => .inr (silent.error_stays failed)
  failed := by
    intro stage stage' p conn held failed
    refine ⟨held.1, ?_⟩
    cases stage' with
    | idle => trivial
    | line | target | value => exact fun alive => absurd failed alive
    | done => exact .inr failed
  status := by
    intro p conn _ _ held
    refine ⟨held.1, fun alive => ?_⟩
    obtain ⟨request, here, directed, -⟩ := held.2 alive
    exact ⟨request, here, directed⟩
  begins := by
    intro p conn _ _ held
    rcases hook_begins site env p.begin conn with ⟨failed, same⟩ | begun
    · refine ⟨?_, fun alive => absurd failed alive⟩
      rw [same]
      exact held.1
    · obtain ⟨routes, request, here, directed, bare⟩ := begun.directed held.1
      exact ⟨routes, fun _ => ⟨request, here, directed, fun _ => ⟨hook_haveHost .., bare⟩⟩⟩
  host := by
    intro p conn value here unnamed held
    obtain ⟨request, there, directed⟩ := held.2 (by simp [here])
    have named : (hook (requestPsets site env) .hostname value ⟨p.sawHost, conn⟩).2.p.flags.haveHost = true := hook_haveHost ..
    obtain ⟨routes, known⟩ := directed.of_hostname value held.1 there unnamed named
    exact ⟨routes, fun _ => known⟩
  completes := by
    intro p conn here _ held
    obtain ⟨request, there, directed, -⟩ := held.2 (by simp [here])
    exact ⟨held.1.complete there directed, hook_state_or_error ..⟩
  calls := by
    intro p conn name data fires held
    have line : (hook (requestPsets site env) name data ⟨p, conn⟩).2.p.state = .headLine → p.state = .headLine := by
      intro line
      rcases hook_state_or_error (requestPsets site env) name data ⟨p, conn⟩ with same | failed
      · exact same.symm.trans line
      · cases failed.symm.trans line
    by_cases isPath : name = .path
    · subst isPath
      obtain ⟨request, here, directed, first⟩ := held.2 fires.running
      obtain ⟨unnamed, bare⟩ := first fires
      have haveHost : (hook (requestPsets site env) .path data ⟨p, conn⟩).2.p.flags.haveHost = p.flags.haveHost := hook_haveHost ..
      obtain ⟨routes, known⟩ := directed.of_path data held.1 here unnamed bare haveHost
      exact ⟨routes, fun _ => known⟩
    · obtain ⟨request, here, directed, first⟩ := held.known fires.running
      obtain ⟨routes, request', there, directed', path⟩ := directed.of_hook env data fires isPath held.1 here
      have unnamed : p.flags.haveHost = false → (hook (requestPsets site env) name data ⟨p, conn⟩).2.p.flags.haveHost = false :=
        fun unnamed => (hook_haveHost ..).trans unnamed
      refine ⟨routes, ?_⟩
      cases name with
      | path => exact absurd rfl isPath
      | onMsgBegin | hostname | onMsgComplete => exact fires.elim
      | args | uri | hdrKey => exact fun _ => ⟨request', there, directed'⟩
      | method | scheme | host | port =>
        refine fun _ => ⟨request', there, directed', fun here => ?_⟩
        obtain ⟨first, bare⟩ := first rfl fires
        exact ⟨unnamed first, path.trans bare⟩
      | onHdrsBegin | hdrVal | onHdrsComplete | onNewChunk | onChunkComplete | onChunksComplete | body =>
        refine fun _ => ⟨request', there, directed', fun here => ?_⟩
        simp [Fires, line here] at fires

structure RouteHolds (site : Site) (p : Parser) (conn : Conn) : Prop where
  routes : conn.Routes site
  current : p.state ≠ .start → p.state ≠ .error → ∃ request, conn.request = some request ∧ Directed site p conn request ∧
    (p.state = .headLine → p.flags.haveHost = false ∧ request.path = none)

section
variable {site : Site} {env : Env} {p p' : Parser} {conn after : Conn}

theorem RouteHolds.of_reads (held : RouteHolds site p conn) (reads : conn.Reads False after) (state : p'.state = p.state)
    (haveHost : p'.flags.haveHost = p.flags.haveHost) : RouteHolds site p' after := by
  refine ⟨held.routes.of_reads reads, ?_⟩
  rw [state, haveHost]
  intro inside alive
  obtain ⟨request, here, directed, first⟩ := held.current inside alive
  obtain ⟨request', there, directed', path⟩ := directed.of_reads here reads haveHost
  exact ⟨request', there, directed', fun line => ⟨(first line).1, path.trans (first line).2⟩⟩

theorem routeHolds_unmoved (site : Site) : Unmoved (RouteHolds site) where
  follows held follows same := by
    obtain ⟨_, _, rfl⟩ := same
    exact held.of_reads follows.reads rfl rfl
  adjusts _ _ _ _ held := held.of_reads (Conn.reads_aside _ _ _ _ _ _) rfl rfl
  scratch held := held.of_reads (takeScratch_reads _) rfl rfl
  resumes held := held.of_reads (.refl _) rfl rfl

theorem RouteHolds.ends (held : RouteHolds site p conn) (here : p.state = .body) :
    RouteHolds site (hook (requestPsets site env) .onMsgComplete [] ⟨{ p with state := .start }, conn⟩).2.p
      (hook (requestPsets site env) .onMsgComplete [] ⟨{ p with state := .start }, conn⟩).2.user := by
  obtain ⟨request, there, directed, -⟩ := held.current (here ▸ nofun) (here ▸ nofun)
  have gone := hook_state_or_error (requestPsets site env) .onMsgComplete [] ⟨{ p with state := .start }, conn⟩
  exact ⟨held.routes.complete there directed, fun inside alive => absurd gone (not_or.mpr ⟨inside, alive⟩)⟩

theorem routes_invariant [Htstring] (site : Site) (env : Env) :
    ConnInvariant site env (fun _ _ => True) (RouteHolds site) where
  able := ⟨fun _ _ _ => trivial, fun _ _ _ _ _ => trivial, fun _ => trivial, fun _ => trivial⟩
  kept := routeHolds_unmoved site
  runs := by
    intro p conn fuel data _ held
    rcases (routes_staged site env).runs fuel data (s := ⟨p, conn⟩) (fun _ => ⟨held.routes, trivial⟩)
      (fun inside => ⟨held.routes, held.current inside⟩) with ⟨start, known⟩ | ⟨-, known⟩ | gone
    · exact ⟨known.1, fun inside => absurd start inside⟩
    · exact ⟨known.1, fun _ => known.2⟩
    · exact ⟨gone.1, fun inside alive => absurd gone.2 (not_or.mpr ⟨inside, alive⟩)⟩
  ends here held := held.ends here
  replied := by
    intro c request here _ held
    rcases replyDone_cases site env c request with ⟨-, -, freed, follows, flags, htp, same, start⟩ | ⟨parser, conn⟩
    · refine ⟨?_, fun inside => absurd start inside⟩
      rw [same]
      exact ⟨follows.sni.trans held.routes.noSni, follows.dispatched ▸ held.routes.dispatched⟩
    · have counted : RouteHolds site c.parser.toParser { c.conn with numRequests := c.conn.answered site } :=
        ⟨⟨held.routes.noSni, held.routes.dispatched⟩, fun inside alive => by
          obtain ⟨request, here, directed, first⟩ := held.current inside alive
          exact ⟨request, here, ⟨directed.routed, directed.nameless⟩, first⟩⟩
      rw [parser, conn]
      unfold htparserRunEof
      split
      · next here => exact counted.ends here.1
      · exact counted

end

/-- A request is dispatched where its own host name says exactly if the place where it began does not show. -/
theorem host_routing [Htstring] (site : Site) (env : Env) {start c : Connection} (fresh : start.Fresh) (noSni : start.conn.sni = none)
    (reached : Reaches site env (fun _ _ => True) start c) :
    ∀ request ∈ c.conn.dispatched, ∃ path, request.path = some path ∧
      (request.RoutedByHost site path ↔ RoutesRight site request.began request.host path) := by
  have first : start.At (RouteHolds site) := by
    refine ⟨⟨noSni, fun request member => ?_⟩, fun inside => absurd fresh.state inside⟩
    rw [fresh.dispatched] at member
    cases member
  intro request member
  have held := (routes_invariant site env).reaches (fun _ _ _ _ => trivial) first reached
  obtain ⟨routed, named⟩ := held.routes.dispatched request member
  obtain ⟨path, here⟩ := Option.ne_none_iff_exists'.mp named
  exact ⟨path, here, routed.right_iff here⟩

def requestFor (host : String) : Bytes := ascii "GET / HTTP/1.1\r\nHost: " ++ ascii host ++ ascii "\r\n\r\n"

def hostsInTurn : List Event :=
  [.arrive (requestFor "a.example"), .readcb, .flush 1000, .writecb, .arrive (requestFor "b.example"), .readcb]

def hostsAtOnce : List Event :=
  [.arrive (requestFor "a.example"), .readcb, .arrive (requestFor "b.example"), .readcb]

section
attribute [local instance] Plain.htstring

theorem host_routing_in_turn :
    ∃ c, Reaches hostedSite answering (fun _ _ => True) (connectionNew hostedSite defaultConfig) c ∧
      (c.conn.dispatched.map fun request => (request.htp, request.cb)) = [(1, some 7), (0, some 0)] ∧
      ∀ request ∈ c.conn.dispatched, ∃ path, request.path = some path ∧
        (request.RoutedByHost hostedSite path ↔ RoutesRight hostedSite request.began request.host path) := by
  have run : ((Runs.run (step hostedSite answering) (fun _ _ => True) (connectionNew hostedSite defaultConfig) hostsInTurn).map
      fun c => c.conn.dispatched.map fun request => (request.htp, request.cb)) = some [(1, some 7), (0, some 0)] := by
    decide +kernel
  obtain ⟨c, taken, routed⟩ := Option.map_eq_some_iff.mp run
  have reached := Runs.Reaches.of_run taken
  exact ⟨c, reached, routed, host_routing hostedSite answering (connectionNew_fresh ..) rfl reached⟩

/-- A request for an unknown host is read before the reply to one for a virtual host was sent. -/
theorem host_routing_at_once :
    ∃ c, Reaches hostedSite answering (fun _ _ => True) (connectionNew hostedSite defaultConfig) c ∧
      ∃ request ∈ c.conn.dispatched, request.host = some (ascii "b.example") ∧
        findVhost hostedSite root (ascii "b.example") = none ∧ request.htp = 1 ∧ request.cb = some 7 ∧
        ∀ path, ¬ request.RoutedByHost hostedSite path := by
  have run : ((Runs.run (step hostedSite answering) (fun _ _ => True) (connectionNew hostedSite defaultConfig) hostsAtOnce).bind
      fun c => c.conn.dispatched.getLast?.map fun request => (request.host, request.htp, request.cb)) =
        some (some (ascii "b.example"), 1, some 7) := by
    decide +kernel
  obtain ⟨c, taken, last⟩ := Option.bind_eq_some_iff.mp run
  obtain ⟨request, last, seen⟩ := Option.map_eq_some_iff.mp last
  obtain ⟨host, seen⟩ := Prod.mk.inj seen
  obtain ⟨htp, cb⟩ := Prod.mk.inj seen
  have unknown : findVhost hostedSite root (ascii "b.example") = none := by decide +kernel
  refine ⟨c, Runs.Reaches.of_run taken, request, List.mem_of_getLast? last, host, unknown, htp, cb, fun path right => ?_⟩
  have wanted := right.1
  rw [htp, host] at wanted
  unfold routedTo at wanted
  rw [Option.bind_some, unknown] at wanted
  cases wanted

end

end Evhtp
