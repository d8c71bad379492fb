import Evhtp.Routing

/-! Where a request ought to go, and where `htp__request_set_callbacks_` sends it. A virtual host has callbacks and
a default of its own; a request that already has a callback keeps it if there is none for its path. -/

namespace Evhtp

def selected (site : Site) (htp : Nat) (path : Path) : Handler :=
  match lookup site htp path with
  | some found => ⟨found.1.cb, found.1.cbarg⟩
  | none => (site.htp htp).defaults

/-- The structure for a host name: a virtual host of the structure it is looked up from, or this structure. -/
def routedTo (site : Site) (from_ : Nat) (host : Option Bytes) : Nat := (host.bind (findVhost site from_)).getD from_

/-- The callback of a request that had another one before. -/
def reselected (site : Site) (htp : Nat) (path : Path) (before : Handler) : Handler :=
  if (lookup site htp path).isNone ∧ before.cb.isSome then before else selected site htp path

def Path.SameText (path path' : Path) : Prop := path'.full = path.full ∧ path'.path = path.path

section
variable {site : Site} {htp : Nat} {path path' : Path}

theorem lookup_sameText (same : path.SameText path') : lookup site htp path' = lookup site htp path := by
  unfold lookup
  rw [same.1, same.2]

theorem selected_sameText (same : path.SameText path') : selected site htp path' = selected site htp path := by
  unfold selected
  rw [lookup_sameText same]

theorem reselected_sameText (same : path.SameText path') (before : Handler) :
    reselected site htp path' before = reselected site htp path before := by
  unfold reselected
  rw [lookup_sameText same, selected_sameText same]

theorem copyMatch_sameText (path : Path) : path.SameText path.copyMatch := by
  unfold Path.copyMatch
  dsimp only
  split <;> exact ⟨rfl, rfl⟩

theorem reselected_new (before : Handler) (none : before.cb = none) : reselected site htp path before = selected site htp path :=
  if_neg fun kept => by rw [none] at kept; cases kept.2

theorem reselected_selected (site : Site) (htp : Nat) (path : Path) :
    reselected site htp path (selected site htp path) = selected site htp path := ite_self _

/-- A request that keeps its callback goes where it ought to go only if it would have got this one. -/
theorem reselected_eq_selected {before : Handler} :
    reselected site htp path before = selected site htp path ↔
      (lookup site htp path).isSome ∨ before.cb = none ∨ before = (site.htp htp).defaults := by
  unfold reselected selected
  cases found : lookup site htp path with
  | some callback => simp
  | none =>
    cases had : before.cb with
    | none => simp
    | some cb => simp

end

/-- The same request as far as it decides where the request goes. -/
structure Request.SameRoute (before after : Request) : Prop where
  htp : after.htp = before.htp
  cb : after.cb = before.cb
  cbarg : after.cbarg = before.cbarg
  host : after.host = before.host
  path : after.path = before.path

theorem Request.SameRoute.refl (request : Request) : request.SameRoute request := ⟨rfl, rfl, rfl, rfl, rfl⟩

theorem Request.SameRoute.trans {first second third : Request} (one : first.SameRoute second) (two : second.SameRoute third) :
    first.SameRoute third :=
  ⟨two.htp.trans one.htp, two.cb.trans one.cb, two.cbarg.trans one.cbarg, two.host.trans one.host, two.path.trans one.path⟩

theorem Request.SameRoute.setUri (request : Request) {uri : Uri} (same : uri.path = request.requireUri.path) :
    request.SameRoute (request.setUri uri) := by
  refine ⟨rfl, rfl, rfl, rfl, same.trans ?_⟩
  unfold Request.requireUri Request.path
  cases request.uri <;> rfl

theorem uriSetQuery_path {uri uri' : Uri} {data : Bytes} {flags : QueryFlags} (set : uriSetQuery uri data flags = some uri') :
    uri'.path = uri.path := by
  obtain ⟨query, -, rfl⟩ := Option.map_eq_some_iff.mp set
  dsimp only
  split <;> rfl

theorem queryFromBody_sameRoute (request : Request) : request.SameRoute (queryFromBody request) := by
  unfold queryFromBody
  split
  · exact .refl request
  · next uri here =>
    refine .setUri request ?_
    unfold Request.requireUri
    rw [here]
    rfl

theorem queryFromBody_began (request : Request) : (queryFromBody request).began = request.began := by
  unfold queryFromBody
  split <;> rfl

theorem setCallbacks_only (site : Site) (request : Request) :
    ∃ uri hooks cb cbarg, setCallbacks site request = { request with uri, hooks, cb, cbarg } := by
  unfold setCallbacks
  split
  · exact ⟨request.uri, request.hooks, request.cb, request.cbarg, rfl⟩
  · split
    · exact ⟨request.uri, request.hooks, request.cb, request.cbarg, rfl⟩
    · unfold setCallbacksFor
      split
      · exact ⟨_, _, _, _, rfl⟩
      · split
        · exact ⟨_, request.hooks, request.cb, request.cbarg, rfl⟩
        · exact ⟨_, request.hooks, _, _, rfl⟩

structure Request.Redirected (before after : Request) : Prop where
  htp : after.htp = before.htp
  host : after.host = before.host
  began : after.began = before.began

theorem setCallbacks_redirected (site : Site) (request : Request) : request.Redirected (setCallbacks site request) := by
  obtain ⟨_, _, _, _, same⟩ := setCallbacks_only site request
  rw [same]
  exact ⟨rfl, rfl, rfl⟩

theorem setCallbacks_bare (site : Site) {request : Request} (bare : request.path = none) : setCallbacks site request = request := by
  unfold setCallbacks
  split
  · rfl
  · next uri here =>
    unfold Request.path at bare
    rw [here, Option.bind_some] at bare
    rw [bare]

theorem setCallbacks_handler (site : Site) {request : Request} {path : Path} (here : request.path = some path) :
    (setCallbacks site request).handler = reselected site request.htp path request.handler ∧
      ∃ path', (setCallbacks site request).path = some path' ∧ path.SameText path' := by
  obtain ⟨uri, there, known⟩ := Option.bind_eq_some_iff.mp here
  unfold setCallbacks
  rw [there]
  dsimp only
  rw [known]
  dsimp only
  unfold setCallbacksFor reselected selected
  cases found : lookup site request.htp path with
  | some callback => exact ⟨rfl, _, rfl, copyMatch_sameText _⟩
  | none =>
    dsimp only
    by_cases had : request.cb.isSome = true
    · rw [if_pos had, if_pos ⟨rfl, had⟩]
      exact ⟨rfl, _, rfl, copyMatch_sameText _⟩
    · rw [if_neg had, if_neg fun kept => had kept.2]
      exact ⟨rfl, _, rfl, copyMatch_sameText _⟩

def hostedSite : Site where
  htp id := if id = root then { vhosts := [1] } else
    { parent := some root, serverName := some (ascii "a.example"), callbacks := [⟨.hash (ascii "/"), some 7, 0, none⟩] }
  regexec _ _ := none

end Evhtp
