import Evhtp.Proofs.H2Dispatch

/-! The headers hook may store a callback of its own in the request. Each header block of a stream has the
callback looked up and the hook called again, so that only a stream without trailers keeps what was stored. -/

namespace Evhtp

def headersCalls (id : Nat) (log : List H2Call) : List H2Call := (callsOf id log).filter (·.hook = .headers)

/-- The callback in a request after a call, if the hook for the headers has stored one: later hooks may
replace it. -/
def H2Call.holds (held : Option Handler) (call : H2Call) : Option Handler :=
  if call.hook = .headers then call.reply.handler.or held else held.map fun handler => call.reply.handler.getD handler

def takenOver (calls : List H2Call) : Option Handler := calls.foldl H2Call.holds none

theorem takenOver_append (calls : List H2Call) (call : H2Call) :
    takenOver (calls ++ [call]) = call.holds (takenOver calls) := by
  unfold takenOver
  rw [List.foldl_append]
  rfl

theorem takenOver_none {calls : List H2Call} (unheard : ∀ call ∈ calls, call.hook ≠ .headers) : takenOver calls = none := by
  induction calls using List.reverseRecOn with
  | nil => rfl
  | append_singleton calls call ih =>
    have other : call.hook ≠ .headers := unheard call (List.mem_append_right _ List.mem_cons_self)
    rw [takenOver_append, ih fun call member => unheard call (List.mem_append_left _ member)]
    unfold H2Call.holds
    rw [if_neg other]
    rfl

/-- A callback that is called is the one that was stored. -/
def Stands (calls : List H2Call) : Prop :=
  ∀ before call after cb cbarg, calls = before ++ call :: after → call.hook = .callback cb cbarg →
    ∀ handler, takenOver before = some handler → handler = ⟨some cb, cbarg⟩

theorem Stands.append {calls : List H2Call} (stands : Stands calls) {call : H2Call}
    (new : ∀ cb cbarg, call.hook = .callback cb cbarg → ∀ handler, takenOver calls = some handler → handler = ⟨some cb, cbarg⟩) :
    Stands (calls ++ [call]) := by
  intro before other after cb cbarg place callback
  rcases split_snoc place with ⟨rfl, rfl⟩ | ⟨rest, place⟩
  · exact new cb cbarg callback
  · exact stands before other rest cb cbarg place callback

/-- The request has the callback that was stored, and so it was when the callback was called. -/
structure Held (id : Nat) (c : H2Conn) : Prop where
  request : ∀ handler, takenOver (callsOf id c.log) = some handler →
    ∀ request, (c.streams id).request = some request → request.handler = handler
  stands : Stands (callsOf id c.log)

section
variable {site : Site} {env : H2Env} {id : Nat} {c after : H2Conn}

theorem Held.silent (held : Held id c) (calls : callsOf id after.log = callsOf id c.log)
    (carried : Carried (fun before request => request.handler = before.handler) id c after) : Held id after := by
  refine ⟨fun handler taken request here => ?_, calls ▸ held.stands⟩
  obtain ⟨before, found, same⟩ := carried request here
  exact same.trans (held.request handler (calls ▸ taken) before found)

theorem Held.finish {answers : Prop} (held : Held id c) (calls : callsOf id after.log = callsOf id c.log)
    (either : after.streams id = c.streams id ∨ (after.streams id = (c.streams id).finish ∧ answers)) : Held id after := by
  refine held.silent calls fun request here => ?_
  rcases either with same | ⟨answered, _⟩
  · exact ⟨request, same ▸ here, rfl⟩
  · rw [answered] at here
    obtain ⟨before, found, rfl⟩ := Option.map_eq_some_iff.mp here
    exact ⟨before, found, rfl⟩

theorem Held.modify (held : Held id c) (f : Stream → Stream)
    (keeps : ∀ stream request, (f stream).request = some request →
      ∃ before, stream.request = some before ∧ request.handler = before.handler) : Held id (c.modify id f) := by
  refine held.silent rfl fun request here => ?_
  rw [H2Conn.modify_self] at here
  exact keeps _ request here

theorem Held.onRequest (held : Held id c) (f : Request → Request)
    (keeps : ∀ request, (f request).handler = request.handler) : Held id (c.onRequest id f) := by
  refine held.modify _ fun stream request here => ?_
  obtain ⟨before, found, rfl⟩ := Option.map_eq_some_iff.mp here
  exact ⟨before, found, keeps before⟩

theorem Stream.store_handler {stream : Stream} {handler : Option Handler} {request : Request}
    (here : (stream.store handler).request = some request) :
    ∃ before, stream.request = some before ∧ request.handler = handler.getD before.handler := by
  cases handler with
  | none => exact ⟨request, here, rfl⟩
  | some handler =>
    obtain ⟨before, found, rfl⟩ := Option.map_eq_some_iff.mp here
    exact ⟨before, found, rfl⟩

theorem call_handler (env : H2Env) (id : Nat) (hook : AppHook) (c : H2Conn) {request : Request}
    (here : ((c.call env id hook).2.streams id).request = some request) :
    ∃ before, (c.streams id).request = some before ∧
      request.handler = (c.entry env id hook).reply.handler.getD before.handler := by
  rcases (call_calling env id hook c).own with own | ⟨own, _⟩
  · rw [own] at here
    exact Stream.store_handler here
  · rw [own] at here
    obtain ⟨middle, there, rfl⟩ := Option.map_eq_some_iff.mp here
    obtain ⟨before, found, same⟩ := Stream.store_handler there
    exact ⟨before, found, same⟩

theorem Held.call (held : Held id c) {hook : AppHook} (other : hook ≠ .headers)
    (set : ∀ cb cbarg, hook = .callback cb cbarg → ∃ request, (c.streams id).request = some request ∧ request.handler = ⟨some cb, cbarg⟩) :
    Held id (c.call env id hook).2 := by
  have calls := callsOf_call env id hook c
  refine ⟨fun handler taken request here => ?_, ?_⟩
  · rw [calls, takenOver_append] at taken
    have taken : (takenOver (callsOf id c.log)).map _ = some handler := (if_neg other).symm.trans taken
    obtain ⟨old, before_taken, rfl⟩ := Option.map_eq_some_iff.mp taken
    obtain ⟨before, found, same⟩ := call_handler env id hook c here
    rw [same, held.request old before_taken before found]
  · rw [calls]
    refine held.stands.append fun cb cbarg callback handler taken => ?_
    obtain ⟨request, here, handler_eq⟩ := set cb cbarg callback
    rw [← held.request handler taken request here, handler_eq]

theorem headersHook_held (stands : Stands (callsOf id c.log)) (first : takenOver (callsOf id c.log) = none) :
    Held id (c.call env id .headers).2 := by
  have calls := callsOf_call env id .headers c
  refine ⟨fun handler taken request here => ?_, ?_⟩
  · rw [calls, takenOver_append, first] at taken
    have stored : (c.entry env id .headers).reply.handler = some handler := (Option.or_none ..).symm.trans taken
    obtain ⟨_, _, same⟩ := call_handler env id .headers c here
    rw [same, stored]
    rfl
  · rw [calls]
    exact stands.append fun cb cbarg callback => nomatch callback

theorem Held.free (held : Held id c) : Held id (h2RequestFree env id c) := by
  have called : Held id (c.call env id .requestFini).2 := held.call nofun nofun
  have cleared : Held id ((c.call env id .requestFini).2.modify id fun _ => {}) :=
    called.modify (fun _ => {}) fun _ _ here => nomatch here
  exact cleared.silent rfl fun request here => ⟨request, here, rfl⟩

theorem Held.dispatch (held : Held id c) : Held id (h2Dispatch env id c) := by
  unfold h2Dispatch
  split
  · exact held
  · next request here =>
    split
    · exact held
    · next cb set =>
      have called : Held id (c.call env id (.callback cb request.cbarg)).2 := by
        refine held.call nofun fun cb' cbarg equal => ⟨request, here, ?_⟩
        cases equal
        unfold Request.handler
        rw [set]
      dsimp only
      split
      · exact called.free
      · exact called

theorem Held.dataChunk (held : Held id c) (data : Bytes) : Held id (onDataChunkRecv env id data c).2 := by
  unfold onDataChunkRecv
  split
  · exact held
  · split
    · exact held
    · split
      · exact (held.onRequest (·.setStatus resDataTooLong) fun _ => rfl).silent rfl fun request here => ⟨request, here, rfl⟩
      · have called : Held id (c.call env id (.read (c.scratch ++ data))).2 := held.call nofun nofun
        have hooked : Held id (c.hookBody env id data).2 := called.silent rfl fun request here => ⟨request, here, rfl⟩
        have noted := hooked.onRequest (·.setStatus (c.hookBody env id data).1.res) fun _ => rfl
        dsimp only
        split
        · have taken := noted.onRequest (fun request => { request with bufferIn := request.bufferIn ++ (c.hookBody env id data).2.scratch }) fun _ => rfl
          exact taken.silent rfl fun request here => ⟨request, here, rfl⟩
        · exact noted.silent rfl fun request here => ⟨request, here, rfl⟩

theorem queryFromBody_handler (request : Request) : (queryFromBody request).handler = request.handler := by
  unfold queryFromBody
  split <;> rfl

theorem Held.dataFrame (held : Held id c) (endStream : Bool) : Held id (handleH2DataFrame env id endStream c).2 := by
  have ended : Held id (c.onRequest id Request.endStream) := held.onRequest _ fun _ => rfl
  unfold handleH2DataFrame
  split
  · split
    · exact held
    · dsimp only
      split
      · exact ended
      · have detached := ended.modify (fun stream => { stream with attached := false }) fun _ request here => ⟨request, here, rfl⟩
        refine (detached.onRequest _ fun request => ?_).dispatch
        split
        · exact queryFromBody_handler request
        · rfl
  · exact held

def Unheard (id : Nat) (c after : H2Conn) : Prop :=
  ∃ more, callsOf id after.log = callsOf id c.log ++ more ∧ ∀ call ∈ more, call.hook ≠ .headers

def Deed.NotHeaders : Deed → Prop
  | .hook called => called ≠ .headers
  | _ => True

theorem Unheard.refl (c : H2Conn) : Unheard id c c := ⟨[], by simp, by simp⟩

theorem Unheard.trans {first second third : H2Conn} (one : Unheard id first second) (two : Unheard id second third) :
    Unheard id first third := by
  obtain ⟨early, before, silent⟩ := one
  obtain ⟨late, after, silent'⟩ := two
  refine ⟨early ++ late, by rw [after, before, List.append_assoc], fun call member => ?_⟩
  exact (List.mem_append.mp member).elim (silent call) (silent' call)

theorem Unheard.call {hook : AppHook} (other : hook ≠ .headers) : Unheard id c (c.call env id hook).2 := by
  refine ⟨[c.entry env id hook], callsOf_call env id hook c, fun call member => ?_⟩
  rw [List.mem_singleton.mp member]
  exact other

theorem Uneventful.unheard (quiet : Uneventful id c after) : Unheard id c after := by
  obtain ⟨more, calls, undecided⟩ := quiet.calls
  refine ⟨more, calls, fun call member headers => ?_⟩
  have decided := undecided call member
  rw [headers] at decided
  cases decided

theorem Unheard.of_touches (touches : Touches env id Deed.NotHeaders c after) : Unheard id c after := by
  induction touches with
  | refl => exact .refl c
  | tail _ touch ih =>
    refine ih.trans ?_
    cases touch with
    | call hook other => exact .call other
    | edit | move | detach | clear | reset => exact ⟨[], (List.append_nil _).symm, by simp⟩

theorem Unheard.headersCalls (unheard : Unheard id c after) : headersCalls id after.log = headersCalls id c.log := by
  obtain ⟨more, calls, other⟩ := unheard
  have none : more.filter (·.hook = .headers) = [] :=
    List.filter_eq_nil_iff.mpr fun call member => by simp [other call member]
  unfold Evhtp.headersCalls
  rw [calls, List.filter_append, none, List.append_nil]

theorem Unheard.member (unheard : Unheard id c after) {call : H2Call} (member : call ∈ callsOf id c.log) :
    call ∈ callsOf id after.log := by
  obtain ⟨more, calls, _⟩ := unheard
  rw [calls]
  exact List.mem_append_left _ member

theorem takenOver_unheard (none : headersCalls id c.log = []) : takenOver (callsOf id c.log) = .none := by
  refine takenOver_none fun call member headers => ?_
  have kept : call ∈ headersCalls id c.log := List.mem_filter.mpr ⟨member, by simp [headers]⟩
  rw [none] at kept
  cases kept

theorem Stands.of_uncalled {calls : List H2Call} (uncalled : ∀ call ∈ calls, call.isCallback = false) : Stands calls := by
  intro before call after cb cbarg place callback
  have none := uncalled call (place ▸ List.mem_append_right _ List.mem_cons_self)
  unfold H2Call.isCallback at none
  rw [callback] at none
  cases none

theorem held_unheard (none : headersCalls id c.log = []) (uncalled : ∀ call ∈ callsOf id c.log, call.isCallback = false) :
    Held id c := by
  refine ⟨fun handler taken => ?_, .of_uncalled uncalled⟩
  rw [takenOver_unheard none] at taken
  cases taken

/-- The hook for the host name refuses the request, or the request is answered by then. -/
def H2Call.Stops (call : H2Call) : Prop :=
  (∃ name, call.hook = .hostname name) ∧ (call.reply.res ≠ resOk ∨
    (∃ request, call.request = some request ∧ request.flags.finished = true) ∨
    ∃ action ∈ call.reply.actions, action.1 = call.stream)

theorem gate_stops {hook : AppHook} (stopped : (gate env id hook c).1 = false) :
    (c.entry env id hook).reply.res ≠ resOk ∨
      (∃ request, (c.entry env id hook).request = some request ∧ request.flags.finished = true) ∨
      ∃ action ∈ (c.entry env id hook).reply.actions, action.1 = id := by
  unfold gate at stopped
  dsimp only at stopped
  split at stopped
  · next finished =>
    rcases (call_calling env id hook c).own with own | ⟨_, answers⟩
    · refine .inr (.inl ?_)
      unfold H2Conn.finished at finished
      rw [own] at finished
      obtain ⟨request, here, done⟩ := (Option.any_eq_true _ _).mp finished
      generalize (c.call env id hook).1.handler = stored at here
      cases stored with
      | none => exact ⟨request, here, done⟩
      | some handler =>
        obtain ⟨before, found, rfl⟩ := Option.map_eq_some_iff.mp here
        exact ⟨before, found, done⟩
    · exact .inr (.inr answers)
  · split at stopped
    · next refused => exact .inl refused
    · cases stopped

theorem gate_calls (env : H2Env) (id : Nat) (hook : AppHook) (c : H2Conn) :
    callsOf id (gate env id hook c).2.log = callsOf id c.log ++ [c.entry env id hook] := by
  unfold gate
  dsimp only
  split
  · exact callsOf_call env id hook c
  · split
    · exact callsOf_call env id hook c
    · exact callsOf_call env id hook c

theorem resolveVhost_stops {request : Request} (stopped : (resolveVhost site env id request c).1 = false) :
    ∃ call ∈ callsOf id (resolveVhost site env id request c).2.log, call.Stops := by
  unfold resolveVhost at stopped ⊢
  split at stopped
  · cases stopped
  · next unresolved =>
    dsimp only at stopped
    split at stopped
    · cases stopped
    · next host found =>
      rw [if_neg unresolved]
      dsimp only
      refine ⟨_, ?_, ⟨host, rfl⟩, gate_stops stopped⟩
      rw [gate_calls]
      exact List.mem_append_right _ List.mem_cons_self

/-- The last part of a first header block calls the hook for the headers once, and keeps what it stores. -/
theorem headersComplete_held (undispatched : Undispatched id c) (none : headersCalls id c.log = []) :
    Held id (headersComplete site env id c) ∧ (headersCalls id (headersComplete site env id c).log).length = 1 := by
  have stands : Stands (callsOf id (c.onRequest id (setCallbacks site)).log) := .of_uncalled undispatched.uncalled
  have called : Held id ((c.onRequest id (setCallbacks site)).call env id .headers).2 :=
    headersHook_held stands (takenOver_unheard (c := c.onRequest id (setCallbacks site)) none)
  have hooked : Held id (gate env id .headers (c.onRequest id (setCallbacks site))).2 := by
    unfold gate
    dsimp only
    split
    · exact called
    · split
      · exact called.silent rfl fun request here => ⟨request, here, rfl⟩
      · exact called
  have once : (headersCalls id (gate env id .headers (c.onRequest id (setCallbacks site))).2.log).length = 1 := by
    have none : headersCalls id (c.onRequest id (setCallbacks site)).log = [] := none
    unfold headersCalls at none ⊢
    rw [gate_calls, List.filter_append, none]
    rfl
  have dispatching : Touches env id Deed.NotHeaders (gate env id .headers (c.onRequest id (setCallbacks site))).2
      (h2Dispatch env id (gate env id .headers (c.onRequest id (setCallbacks site))).2) :=
    .dispatch nofun nofun trivial
  unfold headersComplete
  dsimp only
  split
  · refine ⟨hooked.dispatch, ?_⟩
    rw [(Unheard.of_touches dispatching).headersCalls]
    exact once
  · exact ⟨hooked, once⟩

theorem headersFrame_held (undispatched : Undispatched id c) (none : headersCalls id c.log = []) {endStream : Bool}
    (ran : handleH2HeadersFrame site env id true endStream c = (0, after)) :
    Held id after ∧ ((headersCalls id after.log).length = 1 ∨
      (headersCalls id after.log = [] ∧ ∃ call ∈ callsOf id after.log, call.Stops)) := by
  unfold handleH2HeadersFrame at ran
  rw [if_pos rfl] at ran
  split at ran
  · cases ran
  · next request _ =>
    have marked : Undispatched id (if endStream then c.onRequest id Request.endStream else c) ∧
        Unheard id c (if endStream then c.onRequest id Request.endStream else c) := by
      split
      · exact ⟨undispatched.ended, ⟨[], (List.append_nil _).symm, by simp⟩⟩
      · exact ⟨undispatched, .refl c⟩
    dsimp only at ran
    generalize (if endStream then c.onRequest id Request.endStream else c) = marked at marked ran
    obtain ⟨undispatched, ending⟩ := marked
    have starting : Touches env id Deed.Undecided marked (headersStart env id request marked).2 := by
      apply Touches.headersStart
      exact Eq.refl false
    have started := undispatched.uneventful (.of_touches starting)
    have resolving : Touches env id Deed.NotHeaders (headersStart env id request marked).2
        (resolveVhost site env id request (headersStart env id request marked).2).2 :=
      .resolveVhost trivial (fun _ equal => nomatch equal) trivial request
    have resolved : Waiting id (resolveVhost site env id request (headersStart env id request marked).2).2 ∧ _ :=
      started.resolveVhost request
    have unheard := (ending.trans (Uneventful.of_touches starting).unheard).trans (.of_touches resolving)
    have still := unheard.headersCalls.trans none
    split at ran
    · have equal := (congrArg Prod.snd ran).symm
      dsimp only at equal
      rw [equal]
      split
      · next goes =>
        obtain ⟨held, once⟩ := headersComplete_held (resolved.2 goes) still
        exact ⟨held, .inl once⟩
      · next stopped =>
        exact ⟨held_unheard still resolved.1.uncalled, .inr ⟨still, resolveVhost_stops (eq_false_of_ne_true stopped)⟩⟩
    · cases ran

end

structure HeadersHeard (id : Nat) (s : Session) : Prop where
  early : s.phase id = .idle ∨ s.phase id = .head → headersCalls id s.conn.log = []
  once : (headersCalls id s.conn.log).length ≤ 1
  ran : s.phase id = .body ∨ s.phase id = .ended →
    (headersCalls id s.conn.log).length = 1 ∨ ∃ call ∈ callsOf id s.conn.log, call.Stops
  held : Held id s.conn
  trailers : s.phase id ≠ .trailers

section
variable {site : Site} {env : H2Env} {id : Nat} {s after : Session} {event : H2Event}

/-- Events that call neither the hook for the headers nor change the phase for the better. -/
theorem HeadersHeard.unheard (heard : HeadersHeard id s) (unheard : Unheard id s.conn after.conn) (held : Held id after.conn)
    (early : after.phase id = .idle ∨ after.phase id = .head → s.phase id = .idle ∨ s.phase id = .head)
    (late : after.phase id = .body ∨ after.phase id = .ended → s.phase id = .body ∨ s.phase id = .ended)
    (trailers : after.phase id ≠ .trailers) : HeadersHeard id after := by
  have same := unheard.headersCalls
  refine ⟨fun phase => same.trans (heard.early (early phase)), same ▸ heard.once, fun phase => ?_, held, trailers⟩
  rw [same]
  refine (heard.ran (late phase)).imp_right fun stopped => ?_
  obtain ⟨call, member, stops⟩ := stopped
  exact ⟨call, unheard.member member, stops⟩

theorem Held.elsewhere (about : event.stream ≠ some id) {c : H2Conn} (held : Held id c) :
    Held id (event.run site env c).2 := by
  by_cases free : event = .free id
  · subst free
    unfold H2Event.run
    dsimp only
    split
    · exact held.free
    · exact held
  · refine H2Event.run_elsewhere (fun _ _ kept before => before.finish kept.calls kept.stream)
      (fun _ before => before.call nofun nofun) (fun actions c _ before => ?_) about free held
    have acts : H2Conn.Acts (fun _ => True) c (runH2Actions actions c) := runH2Actions_acts (fun _ _ => trivial) c
    exact before.finish (by rw [acts.log]) (acts.streams id)

theorem Held.streamClose {c : H2Conn} (held : Held id c) : Held id (serverOnStreamClose env id c).2 := by
  unfold serverOnStreamClose
  split
  · exact held.free
  · exact held

/-- Before the end of the first header block nothing is held. -/
theorem HeadersHeard.of_early (heard : HeadersHeard id s) (orderly : Orderly id after)
    (before : s.phase id = .idle ∨ s.phase id = .head) (head : after.phase id = .head)
    (unheard : Unheard id s.conn after.conn) : HeadersHeard id after := by
  have none := unheard.headersCalls.trans (heard.early before)
  have waiting := orderly.waiting (by simp [head]) (by simp [head])
  refine heard.unheard unheard (held_unheard none waiting.uncalled) (fun _ => before) ?_ ?_ <;> simp [head]

theorem HeadersHeard.headersFrame {endHeaders endStream : Bool} (heard : HeadersHeard id s) (orderly : Orderly id s)
    (stepped : s.Stepped site env (.frame (.headers id endHeaders endStream)) after) : HeadersHeard id after := by
  have advanced := stepped.phase id rfl
  have trailers := heard.trailers
  have phases : s.phase id = .head ∧ endHeaders = true ∧ (after.phase id = .body ∨ after.phase id = .ended) := by
    cases phase : s.phase id <;> cases endHeaders <;> cases endStream <;> simp_all [H2Event.advance]
  obtain ⟨head, rfl, late⟩ := phases
  have undispatched := (orderly.waiting (by simp [head]) (by simp [head])).undispatched (stepped.delivered id rfl)
  obtain ⟨held, ran⟩ := headersFrame_held undispatched (heard.early (.inr head)) stepped.ran
  refine ⟨fun early => ?_, ?_, fun _ => ran.imp_right And.right, held, ?_⟩
  · rcases late with late | late <;> rcases early with early | early <;> simp [late] at early
  · rcases ran with once | ⟨none, _⟩
    · exact once.le
    · simp [none]
  · rcases late with late | late <;> simp [late]

theorem HeadersHeard.step (heard : HeadersHeard id s) (orderly : Orderly id s) (allowed : event ≠ .beginHeaders id false)
    (stepped : s.Stepped site env event after) : HeadersHeard id after := by
  have conn := stepped.conn
  have next := orderly.step stepped
  by_cases about : event.stream = some id
  · have advanced := stepped.phase id about
    have trailers := heard.trailers
    cases event.about about with
    | beginHeaders request =>
      cases request with
      | false => exact absurd rfl allowed
      | true =>
        have phases : s.phase id = .idle ∧ after.phase id = .head := by
          cases phase : s.phase id <;> simp_all [H2Event.advance]
        refine heard.of_early next (.inl phases.1) phases.2 ⟨[], ?_, by simp⟩
        rw [conn, List.append_nil]
        rfl
    | header name value =>
      have phases : s.phase id = .head ∧ after.phase id = .head := by
        cases phase : s.phase id <;> simp_all [H2Event.advance]
      have quiet : Uneventful id s.conn after.conn := conn ▸ .run ⟨by simp, by simp, by simp⟩
      exact heard.of_early next (.inr phases.1) phases.2 quiet.unheard
    | headers endHeaders endStream =>
      exact heard.headersFrame orderly stepped
    | data endStream =>
      have phases : s.phase id = .body ∧ (after.phase id = .body ∨ after.phase id = .ended) := by
        cases phase : s.phase id <;> cases endStream <;> simp_all [H2Event.advance]
      obtain ⟨marked, same, touches⟩ : ∃ marked, (marked = s.conn ∨ marked = s.conn.onRequest id Request.endStream) ∧
          Touches env id Deed.NotHeaders marked (handleH2DataFrame env id endStream s.conn).2 :=
        Touches.dataFrame trivial (fun _ _ equal => by cases equal) (fun equal => by cases equal) trivial endStream
      have unheard : Unheard id s.conn after.conn := by
        rw [conn]
        rcases same with rfl | rfl
        · exact .of_touches touches
        · have ended : Unheard id s.conn (s.conn.onRequest id Request.endStream) := ⟨[], (List.append_nil _).symm, by simp⟩
          exact ended.trans (.of_touches touches)
      have held : Held id after.conn := conn ▸ heard.held.dataFrame endStream
      obtain ⟨body, late⟩ := phases
      refine heard.unheard unheard held (fun early => ?_) (fun _ => .inl body) ?_
      · rcases late with late | late <;> rcases early with early | early <;> simp [late] at early
      · rcases late with late | late <;> simp [late]
    | dataChunk chunk =>
      have phases : s.phase id = .body ∧ after.phase id = .body := by
        cases phase : s.phase id <;> simp_all [H2Event.advance]
      have quiet : Uneventful id s.conn after.conn := conn ▸ .run ⟨by simp, by simp, by simp⟩
      refine heard.unheard quiet.unheard (conn ▸ heard.held.dataChunk chunk) ?_ ?_ ?_ <;> simp [phases]
    | streamClose =>
      have closed : after.phase id = .closed := by
        cases phase : s.phase id <;> simp_all [H2Event.advance]
      have quiet : Uneventful id s.conn after.conn := conn ▸ .run ⟨by simp, by simp, by simp⟩
      refine heard.unheard quiet.unheard (conn ▸ heard.held.streamClose) ?_ ?_ ?_ <;> simp [closed]
  · have same := stepped.others id about
    have quiet : Uneventful id s.conn after.conn := by
      rw [conn]
      refine .run ⟨fun equal => ?_, fun _ _ equal => ?_, fun _ equal => ?_⟩ <;> exact about (equal ▸ rfl)
    refine heard.unheard quiet.unheard (conn ▸ heard.held.elsewhere about) ?_ ?_ ?_ <;> rw [same]
    · exact fun phase => phase
    · exact fun phase => phase
    · exact heard.trailers

theorem headersHeard_fresh (fresh : s.Fresh) : HeadersHeard id s := by
  have none : callsOf id s.conn.log = [] := by
    rw [fresh.log]
    rfl
  have unheard : headersCalls id s.conn.log = [] := by
    unfold headersCalls
    rw [none]
    rfl
  refine ⟨fun _ => unheard, by simp [unheard], ?_, held_unheard unheard (by simp [none]), ?_⟩
  · simp [fresh.phase id]
  · simp [fresh.phase id]

/-- The hook for the headers is called once, unless the hook for the host name keeps it from being called, and a
callback that it stores is the one that is called. -/
structure HeadersHookStands (id : Nat) (s : Session) : Prop where
  once : (headersCalls id s.conn.log).length ≤ 1
  ran : s.phase id = .body ∨ s.phase id = .ended →
    (headersCalls id s.conn.log).length = 1 ∨ ∃ call ∈ callsOf id s.conn.log, call.Stops
  stands : Stands (callsOf id s.conn.log)

/-- Without trailers the hook for the headers is called once and keeps the request that it takes over; if the
application leaves the request to its callback, the end of the stream has it called. -/
theorem h2_headers_hook_stands (site : Site) (env : H2Env) {start : Session} (fresh : start.Fresh) (id : Nat) :
    (∀ s, Session.Reaches site env (fun _ event => event ≠ .beginHeaders id false) start s → HeadersHookStands id s) ∧
      (Cooperative env id → ∀ s event after,
        Session.Reaches site env (fun _ event => event ≠ .beginHeaders id false ∧ event.Spares id) start s →
        event ≠ .beginHeaders id false → event.Spares id → s.step site env event = some after →
        after.phase id = .ended → s.phase id ≠ .ended →
        ∀ cb cbarg, takenOver (callsOf id after.conn.log) = some ⟨some cb, cbarg⟩ →
          (dispatches id after.conn.log).length = 1) := by
  refine ⟨fun s reached => ?_, ?_⟩
  · have both : Orderly id s ∧ HeadersHeard id s := by
      apply reached.invariant
      · exact ⟨orderly_fresh fresh, headersHeard_fresh fresh⟩
      · intro s event after allowed stepped before
        exact ⟨before.1.step stepped, before.2.step before.1 allowed stepped⟩
    exact ⟨both.2.once, both.2.ran, both.2.held.stands⟩
  · intro cooperative s event after reached allowed spares taken ended open_ cb cbarg held
    have all : Orderly id s ∧ HeadersHeard id s ∧ ((s.phase id).receiving = true → Alive id s.conn) := by
      apply reached.invariant
      · refine ⟨orderly_fresh fresh, headersHeard_fresh fresh, fun receiving => ?_⟩
        rw [fresh.phase id] at receiving
        cases receiving
      · intro s event after allowed stepped before
        obtain ⟨orderly, heard, alive⟩ := before
        exact ⟨orderly.step stepped, heard.step orderly allowed.1 stepped,
          (receiving_step cooperative allowed.2 stepped orderly alive).1⟩
    obtain ⟨orderly, heard, alive⟩ := all
    have stepped := Session.step_stepped taken
    have kept := (heard.step orderly allowed stepped).held
    rcases (receiving_step cooperative spares stepped orderly alive).2 ended open_ with dispatched | ⟨request, here, none⟩
    · exact dispatched.dispatches_length
    · have handler := kept.request _ held request here
      unfold Request.handler at handler
      rw [none] at handler
      cases handler

end

def takingH2 : H2Env where
  app clock _ hook := if hook = .headers ∧ clock ≤ 4 then { handler := some ⟨some 9, 7⟩ } else {}
  cached _ := none

theorem takingH2_cooperative (id : Nat) : Cooperative takingH2 id where
  silent clock _ hook _ action member := by
    unfold takingH2 at member
    dsimp only at member
    split at member <;> cases member
  accepts clock hook _ := by
    unfold takingH2
    dsimp only
    split <;> rfl

def routedSite : Site where
  htp _ := { callbacks := [⟨.hash (ascii "/"), some 5, 0, none⟩] }
  regexec _ _ := none

theorem h2_headers_hook_stands_get :
    ∃ s after, Session.Reaches routedSite takingH2 (fun _ event => event ≠ .beginHeaders 1 false ∧ event.Spares 1) {} s ∧
      s.step routedSite takingH2 (.frame (.headers 1 true true)) = some after ∧
      takenOver (callsOf 1 after.conn.log) = some ⟨some 9, 7⟩ ∧
      (dispatches 1 after.conn.log).length = 1 ∧ HeadersHookStands 1 after := by
  have run : (({} : Session).steps routedSite takingH2 getRequest).bind (fun s =>
      (s.step routedSite takingH2 (.frame (.headers 1 true true))).map fun after =>
        (s.phase 1, after.phase 1, takenOver (callsOf 1 after.conn.log))) =
      some (.head, .ended, some ⟨some 9, 7⟩) := by
    decide +kernel
  obtain ⟨s, before, run⟩ := Option.bind_eq_some_iff.mp run
  obtain ⟨after, taken, seen⟩ := Option.map_eq_some_iff.mp run
  obtain ⟨head, seen⟩ := Prod.mk.inj seen
  obtain ⟨ended, held⟩ := Prod.mk.inj seen
  have allowed : ∀ event ∈ getRequest, event ≠ .beginHeaders 1 false ∧ event.Spares 1 := by
    intro event member
    rcases mem_headOf member with rfl | ⟨_, _, rfl⟩
    · exact ⟨by simp, trivial⟩
    · exact ⟨by simp, trivial⟩
  have reached : Session.Reaches routedSite takingH2 (fun _ event => event ≠ .beginHeaders 1 false ∧ event.Spares 1) {} s :=
    Session.Reaches.steps .start (fun event member _ => allowed event member) before
  have whole : Session.Reaches routedSite takingH2 (fun _ event => event ≠ .beginHeaders 1 false) {} after := by
    have first : Session.Reaches routedSite takingH2 (fun _ event => event ≠ .beginHeaders 1 false) {} s :=
      Session.Reaches.steps .start (fun event member _ => (allowed event member).1) before
    refine .step first ?_ taken
    simp
  obtain ⟨stands, called⟩ := h2_headers_hook_stands routedSite takingH2 fresh_session 1
  exact ⟨s, after, reached, taken, held,
    called (takingH2_cooperative 1) s (.frame (.headers 1 true true)) after reached (by simp) trivial taken ended
      (by simp [head]) 9 7 held, stands after whole⟩

def trailedRequest : List H2Event :=
  getRequest ++ [.frame (.headers 1 true false), .beginHeaders 1 false, .header 1 (ascii "x") (ascii "y"),
    .frame (.headers 1 true true)]

/-- Trailers have the hook called again, and the callback that is registered replaces the one it had stored. -/
theorem h2_headers_hook_trailers :
    ∃ s, Session.Reaches routedSite takingH2 (fun _ _ => True) {} s ∧
      (headersCalls 1 s.conn.log).map (·.reply.handler) = [some ⟨some 9, 7⟩, none] ∧
      (dispatches 1 s.conn.log).map (·.hook) = [.callback 5 0] ∧ ¬ HeadersHookStands 1 s := by
  have run : ((({} : Session).steps routedSite takingH2 trailedRequest).map fun s =>
      ((headersCalls 1 s.conn.log).map (·.reply.handler), (dispatches 1 s.conn.log).map (·.hook))) =
      some ([some ⟨some 9, 7⟩, none], [.callback 5 0]) := by
    decide +kernel
  obtain ⟨s, taken, seen⟩ := Option.map_eq_some_iff.mp run
  obtain ⟨twice, other⟩ := Prod.mk.inj seen
  refine ⟨s, Session.Reaches.steps .start (fun _ _ _ => trivial) taken, twice, other, fun stands => ?_⟩
  have once := stands.once
  have two := congrArg List.length twice
  rw [List.length_map] at two
  rw [two] at once
  revert once
  decide

end Evhtp
