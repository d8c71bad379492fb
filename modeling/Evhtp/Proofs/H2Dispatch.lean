import Evhtp.Proofs.H2Calls

/-! When the callback of an HTTP/2 request is called: once at most, with the whole request, and not against
a hook. All events but the frames that complete a request leave the question as it is. -/

namespace Evhtp

def AppHook.isCallback : AppHook → Bool
  | .callback _ _ => true
  | _ => false

theorem AppHook.not_callback {hook : AppHook} (undecided : hook.decides = false) : hook.isCallback = false := by
  cases hook with
  | callback => cases undecided
  | _ => rfl

def H2Call.isCallback (call : H2Call) : Bool := call.hook.isCallback

/-- The hooks for the host name and for the headers can refuse the request. -/
def H2Call.refuses (call : H2Call) : Bool :=
  match call.hook with
  | .hostname _ | .headers => call.reply.res != resOk
  | _ => false

theorem H2Call.undecided {call : H2Call} (decides : call.hook.decides = false) :
    call.isCallback = false ∧ call.refuses = false := by
  refine ⟨AppHook.not_callback decides, ?_⟩
  unfold H2Call.refuses
  cases hook : call.hook <;> simp [AppHook.decides, hook] at decides ⊢

def dispatches (id : Nat) (log : List H2Call) : List H2Call := (callsOf id log).filter H2Call.isCallback

/-- The flags that matter: an answer is not taken back, and the end of the stream is as it was. -/
def SameEnd (before request : Request) : Prop :=
  (before.flags.finished = true → request.flags.finished = true) ∧ request.flags.endStream = before.flags.endStream

theorem sameEnd_steady : Steady SameEnd where
  refl _ := ⟨id, rfl⟩
  trans one two := ⟨two.1 ∘ one.1, two.2.trans one.2⟩
  finish _ := ⟨fun _ => rfl, rfl⟩

theorem sameEnd_stores {env : H2Env} : Stores env SameEnd := fun _ => ⟨id, rfl⟩

theorem Request.Edited.sameEnd {request edited : Request} (same : request.Edited edited) : SameEnd request edited :=
  ⟨same.finished.trans, same.endStream⟩

theorem sameEnd_edits {may : Deed → Prop} : Edits may SameEnd := fun edited _ => edited.sameEnd

structure Uneventful (id : Nat) (c after : H2Conn) : Prop where
  calls : ∃ more, callsOf id after.log = callsOf id c.log ++ more ∧ ∀ call ∈ more, call.hook.decides = false
  request : Carried SameEnd id c after
  resets : id ∈ c.resets → id ∈ after.resets

/-- The events of other streams, and those that neither begin a request nor are a frame of it. -/
structure H2Event.Aside (id : Nat) (event : H2Event) : Prop where
  begins : event ≠ .beginHeaders id true
  headers : ∀ endHeaders endStream, event ≠ .frame (.headers id endHeaders endStream)
  data : ∀ endStream, event ≠ .frame (.data id endStream)

namespace Uneventful
variable {site : Site} {env : H2Env} {id : Nat} {c : H2Conn} {after : H2Conn}

theorem silent (log : callsOf id after.log = callsOf id c.log) (request : Carried SameEnd id c after)
    (resets : id ∈ c.resets → id ∈ after.resets) : Uneventful id c after :=
  ⟨⟨[], by rw [log, List.append_nil], by simp⟩, request, resets⟩

theorem refl (c : H2Conn) : Uneventful id c c := silent rfl (sameEnd_steady.carried_refl c) fun member => member

theorem trans {first second third : H2Conn} (one : Uneventful id first second) (two : Uneventful id second third) :
    Uneventful id first third := by
  obtain ⟨early, before, quiet⟩ := one.calls
  obtain ⟨late, after, quiet'⟩ := two.calls
  refine ⟨⟨early ++ late, by rw [after, before, List.append_assoc], ?_⟩,
    sameEnd_steady.carried_trans one.request two.request, fun member => two.resets (one.resets member)⟩
  intro call member
  exact (List.mem_append.mp member).elim (quiet call) (quiet' call)

theorem same (streams : after.streams = c.streams) (log : after.log = c.log)
    (resets : after.resets = c.resets) : Uneventful id c after :=
  silent (by rw [log]) (sameEnd_steady.carried_same (congrFun streams id)) fun member => by rwa [resets]

theorem of_kept (kept : Kept env id c after) : Uneventful id c after :=
  silent kept.calls (sameEnd_steady.carried_finish kept.stream) kept.resets

theorem acts (actions : List (Nat × H2Action)) : Uneventful id c (runH2Actions actions c) := by
  have acts : H2Conn.Acts (fun _ => True) c (runH2Actions actions c) := runH2Actions_acts (fun _ _ => trivial) c
  exact silent (by rw [acts.log]) (sameEnd_steady.carried_finish (acts.streams id)) (acts.resets id)

theorem onRequest (f : Request → Request) (keeps : ∀ request, SameEnd request (f request)) :
    Uneventful id c (c.onRequest id f) :=
  silent rfl (sameEnd_steady.carried_onRequest f keeps) fun member => member

theorem call {hook : AppHook} (undecided : hook.decides = false) : Uneventful id c (c.call env id hook).2 := by
  have calling := call_calling env id hook c
  refine ⟨⟨[c.entry env id hook], ?_, ?_⟩, sameEnd_steady.carried_call sameEnd_stores hook, calling.resets id⟩
  · rw [calling.log, callsOf_append]
    simp [callsOf, H2Conn.entry]
  · intro call member
    rw [List.mem_singleton.mp member]
    exact undecided

theorem of_touches (touches : Touches env id Deed.Undecided c after) : Uneventful id c after := by
  induction touches with
  | refl => exact refl c
  | tail _ touch ih =>
    refine ih.trans ?_
    have request : Carried SameEnd id _ _ := sameEnd_steady.carried sameEnd_stores sameEnd_edits (.single touch)
    cases touch with
    | call hook undecided => exact call undecided
    | reset => exact silent rfl request fun member => List.mem_append_left _ member
    | edit | move | detach | clear => exact silent rfl request fun member => member

theorem dataChunk (data : Bytes) : Uneventful id c (onDataChunkRecv env id data c).2 := by
  unfold onDataChunkRecv
  split
  · exact refl c
  · split
    · exact refl c
    · split
      · exact (onRequest (·.setStatus resDataTooLong) fun _ => ⟨fun set => set, rfl⟩).trans (same rfl rfl rfl)
      · have called : Uneventful id c (c.call env id (.read (c.scratch ++ data))).2 := call rfl
        have hooked : Uneventful id c (c.hookBody env id data).2 := called.trans (same rfl rfl rfl)
        have noted := hooked.trans (onRequest (·.setStatus (c.hookBody env id data).1.res) fun _ => ⟨fun set => set, rfl⟩)
        dsimp only
        generalize (c.hookBody env id data).2.onRequest id _ = marked at noted ⊢
        have taken : Uneventful id c (if (c.hookBody env id data).1.res = resOk then marked.takeScratch id else marked) := by
          split
          · refine (noted.trans (onRequest (fun request => { request with bufferIn := request.bufferIn ++ marked.scratch })
              fun _ => ⟨fun set => set, rfl⟩)).trans (same rfl rfl rfl)
          · exact noted
        exact taken.trans (same rfl rfl rfl)

/-- Only the beginning of a request and the frames that may complete it make a difference. -/
theorem run {event : H2Event} (aside : event.Aside id) : Uneventful id c (event.run site env c).2 := by
  have freed : Touches env id Deed.Undecided c (h2RequestFree env id c) := .free rfl trivial
  have closed : Touches env id Deed.Undecided c (serverOnStreamClose env id c).2 := .streamClose rfl trivial
  by_cases about : event.stream = some id
  · cases event.about about with
    | beginHeaders request =>
      cases request with
      | true => exact absurd rfl aside.begins
      | false => exact refl c
    | header name value =>
      exact of_touches ((Touches.onHeader name value).mono Deed.Harmless.undecided)
    | headers endHeaders endStream =>
      exact absurd rfl (aside.headers endHeaders endStream)
    | data endStream =>
      exact absurd rfl (aside.data endStream)
    | dataChunk chunk =>
      exact dataChunk chunk
    | streamClose =>
      exact of_touches closed
  · by_cases free : event = .free id
    · subst free
      unfold H2Event.run
      dsimp only
      split
      · exact of_touches freed
      · exact refl c
    · exact H2Event.run_elsewhere (fun _ _ kept before => before.trans (of_kept kept))
        (fun _ before => before.trans (call rfl)) (fun actions _ _ before => before.trans (acts actions)) about free (refl c)

end Uneventful

def Answered (id : Nat) (c : H2Conn) : Prop := ∀ request, (c.streams id).request = some request → request.flags.finished = true

def Unended (id : Nat) (c : H2Conn) : Prop := ∀ request, (c.streams id).request = some request → request.flags.endStream = false

/-- The callback was not called, and if a hook refused the request the request is answered. -/
structure Undispatched (id : Nat) (c : H2Conn) : Prop where
  uncalled : ∀ call ∈ callsOf id c.log, call.isCallback = false
  refused : ∀ call ∈ callsOf id c.log, call.refuses = true → Answered id c

structure Waiting (id : Nat) (c : H2Conn) : Prop where
  uncalled : ∀ call ∈ callsOf id c.log, call.isCallback = false
  refused : ∀ call ∈ callsOf id c.log, call.refuses = true → id ∈ c.resets ∨ Answered id c

/-- The callback was called once: with the whole request, before any answer, and no hook had refused it. -/
def Dispatched (id : Nat) (c : H2Conn) : Prop :=
  ∃ before call rest, callsOf id c.log = before ++ call :: rest ∧ call.isCallback = true ∧
    (∀ other ∈ before ++ rest, other.isCallback = false) ∧ (∀ earlier ∈ before, earlier.refuses = false) ∧
    ∃ request, call.request = some request ∧ request.flags.endStream = true ∧ request.flags.finished = false

section
variable {site : Site} {env : H2Env} {id : Nat} {c after : H2Conn} {hook : AppHook} {request : Request}

theorem Uneventful.answered (quiet : Uneventful id c after) (answered : Answered id c) : Answered id after := by
  intro request here
  obtain ⟨before, found, kept⟩ := quiet.request request here
  exact kept.1 (answered before found)

theorem Uneventful.unended (quiet : Uneventful id c after) (unended : Unended id c) : Unended id after := by
  intro request here
  obtain ⟨before, found, kept⟩ := quiet.request request here
  exact kept.2.trans (unended before found)

theorem Uneventful.old (quiet : Uneventful id c after) {call : H2Call} (member : call ∈ callsOf id after.log) :
    call ∈ callsOf id c.log ∨ (call.isCallback = false ∧ call.refuses = false) := by
  obtain ⟨more, calls, undecided⟩ := quiet.calls
  rw [calls] at member
  exact (List.mem_append.mp member).imp_right fun new => H2Call.undecided (undecided call new)

theorem Undispatched.uneventful (undispatched : Undispatched id c) (quiet : Uneventful id c after) :
    Undispatched id after := by
  refine ⟨fun call member => ?_, fun call member refuses => ?_⟩
  · exact (quiet.old member).elim (undispatched.uncalled call) And.left
  · rcases quiet.old member with old | new
    · exact quiet.answered (undispatched.refused call old refuses)
    · exact absurd refuses (by simp [new.2])

theorem Undispatched.waiting (undispatched : Undispatched id c) : Waiting id c :=
  ⟨undispatched.uncalled, fun call member refuses => .inr (undispatched.refused call member refuses)⟩

theorem Waiting.undispatched (waiting : Waiting id c) (alive : id ∉ c.resets) : Undispatched id c :=
  ⟨waiting.uncalled, fun call member refuses => (waiting.refused call member refuses).resolve_left alive⟩

theorem Waiting.uneventful (waiting : Waiting id c) (quiet : Uneventful id c after) : Waiting id after := by
  refine ⟨fun call member => ?_, fun call member refuses => ?_⟩
  · exact (quiet.old member).elim (waiting.uncalled call) And.left
  · rcases quiet.old member with old | new
    · exact (waiting.refused call old refuses).imp quiet.resets quiet.answered
    · exact absurd refuses (by simp [new.2])

theorem Dispatched.uneventful (dispatched : Dispatched id c) (quiet : Uneventful id c after) : Dispatched id after := by
  obtain ⟨before, call, rest, calls, callback, single, heeded, complete⟩ := dispatched
  obtain ⟨more, grown, undecided⟩ := quiet.calls
  refine ⟨before, call, rest ++ more, by rw [grown, calls, List.append_assoc, List.cons_append], callback, ?_, heeded, complete⟩
  intro other member
  rw [← List.append_assoc] at member
  exact (List.mem_append.mp member).elim (single other) fun new => (H2Call.undecided (undecided other new)).1

theorem Undispatched.ended (undispatched : Undispatched id c) : Undispatched id (c.onRequest id Request.endStream) := by
  refine ⟨undispatched.uncalled, fun call member refuses request here => ?_⟩
  unfold H2Conn.onRequest at here
  rw [H2Conn.modify_self] at here
  obtain ⟨before, found, rfl⟩ := Option.map_eq_some_iff.mp here
  exact undispatched.refused call member refuses before found

theorem Carried.unended (carried : Carried SameEnd id c after) (unended : Unended id c) : Unended id after := by
  intro request here
  obtain ⟨before, found, kept⟩ := carried request here
  exact kept.2.trans (unended before found)

theorem Carried.answered (carried : Carried SameEnd id c after) (answered : Answered id c) : Answered id after := by
  intro request here
  obtain ⟨before, found, kept⟩ := carried request here
  exact kept.1 (answered before found)

theorem answered_of_finished (finished : c.finished id = true) : Answered id c := by
  intro request here
  simpa [H2Conn.finished, here] using finished

theorem unfinished (here : (c.streams id).request = some request) (unfinished : c.finished id = false) :
    request.flags.finished = false := by
  simpa [H2Conn.finished, here] using unfinished

theorem callsOf_call (env : H2Env) (id : Nat) (hook : AppHook) (c : H2Conn) :
    callsOf id (c.call env id hook).2.log = callsOf id c.log ++ [c.entry env id hook] := by
  rw [(call_calling env id hook c).log, callsOf_append]
  simp [callsOf, H2Conn.entry]

/-- After a hook that can refuse the request: either it goes on, as before, or it is answered or reset. -/
theorem Undispatched.gate (undispatched : Undispatched id c)
    (decision : hook.isCallback = false) :
    Waiting id (gate env id hook c).2 ∧
      ((gate env id hook c).1 = true → Undispatched id (gate env id hook c).2 ∧ (gate env id hook c).2.finished id = false) := by
  have calls := callsOf_call env id hook c
  have carried : Carried SameEnd id c (c.call env id hook).2 := sameEnd_steady.carried_call sameEnd_stores hook
  have uncalled : ∀ call ∈ callsOf id (c.call env id hook).2.log, call.isCallback = false := by
    intro call member
    rw [calls] at member
    rcases List.mem_append.mp member with old | new
    · exact undispatched.uncalled call old
    · rw [List.mem_singleton.mp new]
      exact decision
  unfold Evhtp.gate
  dsimp only
  split
  · next finished =>
    exact ⟨⟨uncalled, fun _ _ _ => .inr (answered_of_finished finished)⟩, nofun⟩
  · next open_ =>
    split
    · exact ⟨⟨uncalled, fun _ _ _ => .inl (List.mem_append_right _ (List.mem_singleton.mpr rfl))⟩, nofun⟩
    · next accepted =>
      have accepted : (c.entry env id hook).reply.res = resOk := Decidable.not_not.mp accepted
      have kept : Undispatched id (c.call env id hook).2 := by
        refine ⟨uncalled, fun call member refuses => ?_⟩
        rw [calls] at member
        rcases List.mem_append.mp member with old | new
        · exact carried.answered (undispatched.refused call old refuses)
        · rw [List.mem_singleton.mp new] at refuses
          unfold H2Call.refuses at refuses
          rw [accepted] at refuses
          split at refuses <;> simp at refuses
      exact ⟨kept.waiting, fun _ => ⟨kept, eq_false_of_ne_true open_⟩⟩

theorem Undispatched.dispatch (undispatched : Undispatched id c)
    (here : (c.streams id).request = some request) (ended : request.flags.endStream = true)
    (unfinished : request.flags.finished = false) :
    (request.cb = none ∧ h2Dispatch env id c = c) ∨ Dispatched id (h2Dispatch env id c) := by
  have accepted : ∀ call ∈ callsOf id c.log, call.refuses = false := by
    intro call member
    by_contra refuses
    have answered := undispatched.refused call member (eq_true_of_ne_false refuses) request here
    rw [unfinished] at answered
    cases answered
  unfold h2Dispatch
  rw [here]
  dsimp only
  split
  · next none => exact .inl ⟨none, rfl⟩
  · next cb _ =>
    have called : Dispatched id (c.call env id (.callback cb request.cbarg)).2 :=
      ⟨callsOf id c.log, _, [], callsOf_call .., rfl, by simpa using undispatched.uncalled, accepted, request, here, ended, unfinished⟩
    have freed : Touches env id Deed.Undecided (c.call env id (.callback cb request.cbarg)).2
        (h2RequestFree env id (c.call env id (.callback cb request.cbarg)).2) := .free rfl trivial
    split
    · exact .inr (called.uneventful (.of_touches freed))
    · exact .inr called

theorem Undispatched.headersComplete (undispatched : Undispatched id c) :
    Waiting id (headersComplete site env id c) ∨ (Dispatched id (headersComplete site env id c) ∧ ¬ Unended id c) := by
  have chosen : Uneventful id c (c.onRequest id (setCallbacks site)) :=
    .onRequest _ fun request => (setCallbacks_edited site request).sameEnd
  have gated : Waiting id (Evhtp.gate env id .headers (c.onRequest id (setCallbacks site))).2 ∧ _ :=
    (undispatched.uneventful chosen).gate rfl
  have touches : Touches env id (fun _ => True) c (Evhtp.gate env id .headers (c.onRequest id (setCallbacks site))).2 :=
    .headersHook trivial trivial trivial
  have carried : Carried SameEnd id c _ := sameEnd_steady.carried sameEnd_stores sameEnd_edits touches
  unfold Evhtp.headersComplete
  dsimp only
  split
  · next complete =>
    obtain ⟨goes, complete⟩ := complete
    obtain ⟨request, here, ended⟩ := (Option.any_eq_true _ _).mp complete
    obtain ⟨undispatched, open_⟩ := gated.2 goes
    rcases undispatched.dispatch here ended (unfinished here open_) with ⟨_, same⟩ | dispatched
    · rw [same]
      exact .inl gated.1
    · refine .inr ⟨dispatched, fun unended => ?_⟩
      rw [carried.unended unended request here] at ended
      cases ended
  · exact .inl gated.1

theorem Undispatched.resolveVhost (undispatched : Undispatched id c) (request : Request) :
    Waiting id (resolveVhost site env id request c).2 ∧
      ((resolveVhost site env id request c).1 = true → Undispatched id (resolveVhost site env id request c).2) := by
  have marking : Uneventful id c (c.onRequest id Request.resolved) := .onRequest _ fun _ => ⟨fun set => set, rfl⟩
  have marked := undispatched.uneventful marking
  unfold Evhtp.resolveVhost
  split
  · exact ⟨undispatched.waiting, fun _ => undispatched⟩
  · dsimp only
    split
    · exact ⟨marked.waiting, fun _ => marked⟩
    · next host _ =>
      have naming : Touches env id Deed.Undecided (c.onRequest id Request.resolved)
          ((c.onRequest id Request.resolved).lookupHost site id host) := .lookupHost trivial host
      have named := marked.uneventful (.of_touches naming)
      have gated : Waiting id (Evhtp.gate env id (.hostname host) _).2 ∧ _ := named.gate rfl
      exact ⟨gated.1, fun goes => (gated.2 goes).1⟩

theorem Undispatched.headersFrame (undispatched : Undispatched id c) (endHeaders endStream : Bool) :
    Waiting id (handleH2HeadersFrame site env id endHeaders endStream c).2 ∨
      (Dispatched id (handleH2HeadersFrame site env id endHeaders endStream c).2 ∧ (endStream = true ∨ ¬ Unended id c)) := by
  unfold handleH2HeadersFrame
  split
  · split
    · exact .inl undispatched.waiting
    · next request _ =>
      have marked : Undispatched id (if endStream then c.onRequest id Request.endStream else c) ∧
          (¬ Unended id (if endStream then c.onRequest id Request.endStream else c) → endStream = true ∨ ¬ Unended id c) := by
        split
        · next ended => exact ⟨undispatched.ended, fun _ => .inl ended⟩
        · exact ⟨undispatched, .inr⟩
      dsimp only
      generalize (if endStream then c.onRequest id Request.endStream else c) = marked at marked ⊢
      obtain ⟨undispatched, seen⟩ := marked
      have starting : Touches env id Deed.Undecided marked (Evhtp.headersStart env id request marked).2 := by
        apply Touches.headersStart
        exact Eq.refl false
      have started := undispatched.uneventful (.of_touches starting)
      split
      · have resolving : Touches env id (fun _ => True) (Evhtp.headersStart env id request marked).2
            (Evhtp.resolveVhost site env id request (Evhtp.headersStart env id request marked).2).2 :=
          .resolveVhost trivial (fun _ => trivial) trivial request
        have resolved : Waiting id (Evhtp.resolveVhost site env id request _).2 ∧ _ := started.resolveVhost request
        split
        · next goes =>
          rcases (resolved.2 goes).headersComplete with waiting | ⟨dispatched, ended⟩
          · exact .inl waiting
          · refine .inr ⟨dispatched, seen fun unended => ended ?_⟩
            exact (sameEnd_steady.carried sameEnd_stores sameEnd_edits resolving).unended ((sameEnd_steady.carried sameEnd_stores sameEnd_edits starting).unended unended)
        · exact .inl resolved.1
      · exact .inl started.waiting
  · exact .inl undispatched.waiting

def Request.withBody (request : Request) : Request :=
  if h2ShouldParseQueryBody request.endStream then queryFromBody request.endStream else request.endStream

theorem Request.withBody_edited (request : Request) : request.endStream.Edited request.withBody := by
  unfold Request.withBody
  split
  · exact queryFromBody_edited _
  · exact ⟨rfl, rfl, rfl⟩

theorem withBody_request (found : c.userData id = some request) :
    ((((c.onRequest id Request.endStream).modify id fun stream => { stream with attached := false }).onRequest id
      fun request => if h2ShouldParseQueryBody request then queryFromBody request else request).streams id).request =
      some request.withBody := by
  simp only [H2Conn.onRequest, H2Conn.modify_self, userData_request found]
  rfl

theorem Undispatched.dataFrame (undispatched : Undispatched id c) (endStream : Bool) :
    Waiting id (handleH2DataFrame env id endStream c).2 ∨
      (Dispatched id (handleH2DataFrame env id endStream c).2 ∧ endStream = true) := by
  unfold handleH2DataFrame
  split
  · next ended =>
    split
    · exact .inl undispatched.waiting
    · next request found =>
      dsimp only
      split
      · exact .inl undispatched.ended.waiting
      · next open_ =>
        have handing : Touches env id Deed.Undecided (c.onRequest id Request.endStream) _ := .handing trivial c
        have handed := undispatched.ended.uneventful (.of_touches handing)
        have edited := request.withBody_edited
        have unanswered := edited.finished.trans (eq_false_of_ne_true open_)
        rcases handed.dispatch (withBody_request found) edited.endStream unanswered with ⟨_, same⟩ | dispatched
        · rw [same]
          exact .inl handed.waiting
        · exact .inr ⟨dispatched, ended⟩
  · exact .inl undispatched.waiting

end

structure Orderly (id : Nat) (s : Session) : Prop where
  state : Waiting id s.conn ∨ (Dispatched id s.conn ∧ (s.phase id = .ended ∨ s.phase id = .closed))
  idle : s.phase id = .idle → ∀ call ∈ callsOf id s.conn.log, call.refuses = false
  head : s.phase id = .head → Unended id s.conn

section
variable {site : Site} {env : H2Env} {id : Nat} {s after : Session} {event : H2Event}

theorem Orderly.waiting (orderly : Orderly id s) (ended : s.phase id ≠ .ended) (closed : s.phase id ≠ .closed) :
    Waiting id s.conn :=
  orderly.state.resolve_right fun dispatched => dispatched.2.elim ended closed

theorem Orderly.begin (orderly : Orderly id s) (stepped : s.Stepped site env (.beginHeaders id true) after) :
    Orderly id after := by
  have conn : after.conn = (serverOnBeginHeaders env id true s.conn).2 := stepped.conn
  have advanced := stepped.phase id rfl
  have idle : s.phase id = .idle := by
    cases phase : s.phase id <;> simp [H2Event.advance, phase] at advanced ⊢
  have log : after.conn.log = s.conn.log := by rw [conn]; rfl
  refine ⟨.inl ⟨fun call member => ?_, fun call member refuses => ?_⟩, fun again => ?_, fun _ request here => ?_⟩
  · rw [log] at member
    exact (orderly.waiting (by simp [idle]) (by simp [idle])).uncalled call member
  · rw [log] at member
    rw [orderly.idle idle call member] at refuses
    cases refuses
  · exact absurd rfl (stepped.idle again).1
  · rw [conn, beginHeaders_self] at here
    cases here
    unfold h2StreamNew h2RequestNew
    dsimp only
    split <;> rfl

theorem Orderly.headersFrame {endHeaders endStream : Bool} (orderly : Orderly id s)
    (stepped : s.Stepped site env (.frame (.headers id endHeaders endStream)) after) : Orderly id after := by
  have conn : after.conn = (handleH2HeadersFrame site env id endHeaders endStream s.conn).2 := stepped.conn
  have advanced := stepped.phase id rfl
  have phases : (s.phase id = .head ∨ endStream = true) ∧ s.phase id ≠ .ended ∧ s.phase id ≠ .closed ∧
      after.phase id ≠ .idle ∧ after.phase id ≠ .head ∧ (endStream = true → after.phase id = .ended) := by
    cases phase : s.phase id <;> cases endHeaders <;> cases endStream <;>
      simp [H2Event.advance, phase] at advanced ⊢ <;> simp [← advanced]
  obtain ⟨once, ended, closed, idle, head, complete⟩ := phases
  have undispatched := (orderly.waiting ended closed).undispatched (stepped.delivered id rfl)
  refine ⟨?_, fun again => absurd again idle, fun again => absurd again head⟩
  rw [conn]
  rcases undispatched.headersFrame endHeaders endStream with waiting | ⟨dispatched, reason⟩
  · exact .inl waiting
  · refine .inr ⟨dispatched, .inl (complete ?_)⟩
    rcases once with head | ended
    · exact reason.resolve_right fun seen => seen (orderly.head head)
    · exact ended

theorem Orderly.dataFrame {endStream : Bool} (orderly : Orderly id s)
    (stepped : s.Stepped site env (.frame (.data id endStream)) after) : Orderly id after := by
  have conn : after.conn = (handleH2DataFrame env id endStream s.conn).2 := stepped.conn
  have advanced := stepped.phase id rfl
  have phases : s.phase id ≠ .ended ∧ s.phase id ≠ .closed ∧ after.phase id ≠ .idle ∧ after.phase id ≠ .head ∧
      (endStream = true → after.phase id = .ended) := by
    cases phase : s.phase id <;> cases endStream <;> simp [H2Event.advance, phase] at advanced ⊢ <;> simp [← advanced]
  obtain ⟨ended, closed, idle, head, complete⟩ := phases
  have undispatched := (orderly.waiting ended closed).undispatched (stepped.delivered id rfl)
  refine ⟨?_, fun again => absurd again idle, fun again => absurd again head⟩
  rw [conn]
  rcases undispatched.dataFrame endStream with waiting | ⟨dispatched, reason⟩
  · exact .inl waiting
  · exact .inr ⟨dispatched, .inl (complete reason)⟩

theorem H2Event.Aside.advance {phase next : Phase} (aside : event.Aside id) (about : event.stream = some id)
    (advanced : event.advance id phase = some next) :
    (next = .head → phase = .head) ∧ (phase = .ended ∨ phase = .closed → next = .closed) := by
  cases event.about about with
  | beginHeaders request =>
    cases request with
    | true => exact absurd rfl aside.begins
    | false =>
      cases phase <;> simp [H2Event.advance] at advanced ⊢
      simp [← advanced]
  | header name value =>
    cases phase <;> simp [H2Event.advance] at advanced ⊢
    simp [← advanced]
  | headers endHeaders endStream =>
    exact absurd rfl (aside.headers endHeaders endStream)
  | data endStream =>
    exact absurd rfl (aside.data endStream)
  | dataChunk chunk =>
    cases phase <;> simp [H2Event.advance] at advanced ⊢
    simp [← advanced]
  | streamClose =>
    cases phase <;> simp [H2Event.advance] at advanced ⊢ <;> simp [← advanced]

theorem Orderly.uneventful (orderly : Orderly id s) (stepped : s.Stepped site env event after) (aside : event.Aside id) :
    Orderly id after := by
  have quiet : Uneventful id s.conn after.conn := stepped.conn ▸ .run aside
  have phases : (after.phase id = .head → s.phase id = .head) ∧
      (s.phase id = .ended ∨ s.phase id = .closed → after.phase id = .ended ∨ after.phase id = .closed) := by
    by_cases about : event.stream = some id
    · obtain ⟨head, gone⟩ := aside.advance about (stepped.phase id about)
      exact ⟨head, fun before => .inr (gone before)⟩
    · rw [stepped.others id about]
      exact ⟨fun head => head, fun gone => gone⟩
  refine ⟨?_, fun idle call member => ?_, fun head => quiet.unended (orderly.head (phases.1 head))⟩
  · exact orderly.state.imp (·.uneventful quiet) fun dispatched => ⟨dispatched.1.uneventful quiet, phases.2 dispatched.2⟩
  · exact (quiet.old member).elim (orderly.idle (stepped.idle idle).2 call) And.right

theorem Orderly.step (orderly : Orderly id s) (stepped : s.Stepped site env event after) : Orderly id after := by
  by_cases begins : event = .beginHeaders id true
  · subst begins
    exact orderly.begin stepped
  · by_cases headers : ∃ endHeaders endStream, event = .frame (.headers id endHeaders endStream)
    · obtain ⟨endHeaders, endStream, rfl⟩ := headers
      exact orderly.headersFrame stepped
    · by_cases data : ∃ endStream, event = .frame (.data id endStream)
      · obtain ⟨endStream, rfl⟩ := data
        exact orderly.dataFrame stepped
      · exact orderly.uneventful stepped ⟨begins, fun _ _ equal => headers ⟨_, _, equal⟩, fun _ equal => data ⟨_, equal⟩⟩

theorem orderly_fresh (fresh : s.Fresh) : Orderly id s := by
  have none : callsOf id s.conn.log = [] := by
    rw [fresh.log]
    rfl
  refine ⟨.inl ⟨?_, ?_⟩, fun _ => ?_, fun head => ?_⟩
  · simp [none]
  · simp [none]
  · simp [none]
  · rw [fresh.phase id] at head
    cases head

end

/-- The application leaves a request to its callback: no other hook answers it, and none of its hooks fails. -/
structure Cooperative (env : H2Env) (id : Nat) : Prop where
  silent : ∀ clock stream hook, (stream = id → hook.isCallback = false) →
    ∀ action ∈ (env.app clock stream hook).actions, action.1 ≠ id
  accepts : ∀ clock hook, hook.isCallback = false → (env.app clock id hook).res = resOk

def Alive (id : Nat) (c : H2Conn) : Prop := ∃ request, c.streams id = ⟨some request, true⟩ ∧ request.flags.finished = false

section
variable {site : Site} {env : H2Env} {id : Nat} {c after : H2Conn} (cooperative : Cooperative env id)

theorem Alive.onRequest (alive : Alive id c) (f : Request → Request)
    (keeps : ∀ request, (f request).flags.finished = request.flags.finished) : Alive id (c.onRequest id f) := by
  obtain ⟨request, here, open_⟩ := alive
  refine ⟨f request, ?_, (keeps request).trans open_⟩
  unfold H2Conn.onRequest
  rw [H2Conn.modify_self, here]
  rfl

theorem Alive.userData (alive : Alive id c) : ∃ request, c.userData id = some request ∧ request.flags.finished = false := by
  obtain ⟨request, here, open_⟩ := alive
  refine ⟨request, ?_, open_⟩
  unfold H2Conn.userData
  rw [here]
  rfl

theorem Alive.unfinished (alive : Alive id c) : c.finished id = false := by
  obtain ⟨request, here, open_⟩ := alive
  unfold H2Conn.finished
  rw [here]
  exact open_

def Completed (id : Nat) (c : H2Conn) : Prop :=
  Dispatched id c ∨ ∃ request, (c.streams id).request = some request ∧ request.cb = none

theorem Undispatched.completed (undispatched : Undispatched id c) {request : Request}
    (here : (c.streams id).request = some request) (ended : request.flags.endStream = true)
    (unfinished : request.flags.finished = false) : Completed id (h2Dispatch env id c) := by
  rcases undispatched.dispatch here ended unfinished with ⟨none, same⟩ | dispatched
  · rw [same]
    exact .inr ⟨request, here, none⟩
  · exact .inl dispatched

include cooperative

variable (alive : Alive id c)
include alive

theorem Alive.kept (kept : Kept env id c after) : Alive id after := by
  rcases kept.stream with same | ⟨_, clock, stream, hook, other, action, member, target⟩
  · obtain ⟨request, here, open_⟩ := alive
    exact ⟨request, same.trans here, open_⟩
  · exact absurd target (cooperative.silent clock stream hook (fun own => absurd own other) action member)

theorem Alive.call {hook : AppHook} (decision : hook.isCallback = false) : Alive id (c.call env id hook).2 := by
  have calling := call_calling env id hook c
  rcases calling.own with own | ⟨_, action, member, target⟩
  · obtain ⟨request, here, open_⟩ := alive
    rw [here] at own
    generalize (c.call env id hook).1.handler = stored at own
    cases stored with
    | none => exact ⟨request, own, open_⟩
    | some handler => exact ⟨request.store handler, own, open_⟩
  · rw [calling.reply] at member
    exact absurd target (cooperative.silent _ _ _ (fun _ => decision) action member)

theorem Alive.touches (touches : Touches env id Deed.Harmless c after) : Alive id after := by
  induction touches with
  | refl => exact alive
  | tail _ touch ih =>
    cases touch with
    | edit f edited => exact ih.onRequest f fun request => (edited request).finished
    | move => exact ih
    | call hook harmless => exact ih.call cooperative (AppHook.not_callback harmless)
    | detach harmless | clear harmless | reset harmless => exact harmless.elim

theorem Alive.gate {hook : AppHook} (decision : hook.isCallback = false) :
    (gate env id hook c).1 = true ∧ Alive id (gate env id hook c).2 := by
  have called := alive.call cooperative decision
  have accepted : (c.call env id hook).1.res = resOk := cooperative.accepts _ hook decision
  unfold Evhtp.gate
  dsimp only
  rw [if_neg (by simp [called.unfinished]), if_neg (not_not_intro accepted)]
  exact ⟨rfl, called⟩

theorem Alive.headersStart (request : Request) :
    (headersStart env id request c).1 = true ∧ Alive id (headersStart env id request c).2 := by
  refine ⟨?_, alive.touches cooperative (.headersStart (Eq.refl false) request)⟩
  unfold Evhtp.headersStart
  split
  · rfl
  · exact beq_iff_eq.mpr (cooperative.accepts _ _ rfl)

theorem Alive.resolveVhost (request : Request) :
    (resolveVhost site env id request c).1 = true ∧ Alive id (resolveVhost site env id request c).2 := by
  have marked : Alive id (c.onRequest id Request.resolved) := alive.onRequest _ fun _ => rfl
  unfold Evhtp.resolveVhost
  split
  · exact ⟨rfl, alive⟩
  · dsimp only
    split
    · exact ⟨rfl, marked⟩
    · exact (marked.touches cooperative (.lookupHost trivial _)).gate cooperative rfl

theorem Alive.dataChunk (data : Bytes) : Alive id (onDataChunkRecv env id data c).2 := by
  unfold onDataChunkRecv
  split
  · exact alive
  · split
    · exact alive
    · split
      · exact alive.onRequest _ fun _ => rfl
      · have called : Alive id (c.hookBody env id data).2 := alive.call cooperative rfl
        have noted := called.onRequest (·.setStatus (c.hookBody env id data).1.res) fun _ => rfl
        dsimp only
        split
        · exact noted.onRequest _ fun _ => rfl
        · exact noted

theorem headersHook (site : Site) :
    (Evhtp.gate env id .headers (c.onRequest id (setCallbacks site))).1 = true ∧
      Alive id (Evhtp.gate env id .headers (c.onRequest id (setCallbacks site))).2 ∧
      Carried SameEnd id c (Evhtp.gate env id .headers (c.onRequest id (setCallbacks site))).2 := by
  have chosen : Alive id (c.onRequest id (setCallbacks site)) :=
    alive.onRequest _ fun request => (setCallbacks_edited site request).finished
  have touches : Touches env id (fun _ => True) c (Evhtp.gate env id .headers (c.onRequest id (setCallbacks site))).2 :=
    .headersHook trivial trivial trivial
  obtain ⟨goes, hooked⟩ : (Evhtp.gate env id .headers _).1 = true ∧ _ := chosen.gate cooperative rfl
  exact ⟨goes, hooked, sameEnd_steady.carried sameEnd_stores sameEnd_edits touches⟩

theorem Alive.headersComplete (unended : Unended id c) : Alive id (headersComplete site env id c) := by
  obtain ⟨_, hooked, carried⟩ := headersHook cooperative alive site
  unfold Evhtp.headersComplete
  dsimp only
  rw [if_neg]
  · exact hooked
  · rintro ⟨_, complete⟩
    obtain ⟨request, here, ended⟩ := (Option.any_eq_true _ _).mp complete
    rw [carried.unended unended request here] at ended
    cases ended

theorem Alive.completes (undispatched : Undispatched id c)
    (ended : ∀ request, (c.streams id).request = some request → request.flags.endStream = true) :
    Completed id (Evhtp.headersComplete site env id c) := by
  obtain ⟨goes, hooked, carried⟩ := headersHook cooperative alive site
  have chosen : Uneventful id c (c.onRequest id (setCallbacks site)) :=
    .onRequest _ fun request => (setCallbacks_edited site request).sameEnd
  have gated : Waiting id (Evhtp.gate env id .headers (c.onRequest id (setCallbacks site))).2 ∧ _ :=
    (undispatched.uneventful chosen).gate rfl
  obtain ⟨request, here, open_⟩ := hooked
  have here : ((Evhtp.gate env id .headers (c.onRequest id (setCallbacks site))).2.streams id).request = some request := by
    rw [here]
  obtain ⟨before, found, same⟩ := carried request here
  have complete := same.2.trans (ended before found)
  unfold Evhtp.headersComplete
  dsimp only
  rw [if_pos ⟨goes, by rw [here]; exact complete⟩]
  exact (gated.2 goes).1.completed here complete open_

theorem Alive.headersBlock (site : Site) (endStream : Bool) :
    ∃ last, handleH2HeadersFrame site env id true endStream c = (0, Evhtp.headersComplete site env id last) ∧
      Alive id last ∧ (Undispatched id c → Undispatched id last) ∧
      Carried SameEnd id (if endStream then c.onRequest id Request.endStream else c) last := by
  obtain ⟨request, found, _⟩ := alive.userData
  have marked : Alive id (if endStream then c.onRequest id Request.endStream else c) ∧
      (Undispatched id c → Undispatched id (if endStream then c.onRequest id Request.endStream else c)) := by
    split
    · exact ⟨alive.onRequest _ fun _ => rfl, Undispatched.ended⟩
    · exact ⟨alive, fun undispatched => undispatched⟩
  unfold handleH2HeadersFrame
  rw [found, if_pos rfl]
  dsimp only
  generalize (if endStream then c.onRequest id Request.endStream else c) = marked_ at marked ⊢
  obtain ⟨marked, open_⟩ := marked
  obtain ⟨starts, started⟩ := marked.headersStart cooperative request
  have starting : Touches env id Deed.Harmless marked_ (Evhtp.headersStart env id request marked_).2 :=
    .headersStart (Eq.refl false) request
  obtain ⟨goes, resolved⟩ : (Evhtp.resolveVhost site env id request _).1 = true ∧ _ := started.resolveVhost cooperative request
  have resolving : Touches env id (fun _ => True) (Evhtp.headersStart env id request marked_).2
      (Evhtp.resolveVhost site env id request (Evhtp.headersStart env id request marked_).2).2 :=
    .resolveVhost trivial (fun _ => trivial) trivial request
  rw [if_pos starts, if_pos goes]
  refine ⟨_, rfl, resolved, fun undispatched => ?_, ?_⟩
  · have begun := (open_ undispatched).uneventful (.of_touches (starting.mono Deed.Harmless.undecided))
    exact (begun.resolveVhost request).2 goes
  · exact sameEnd_steady.carried_trans (sameEnd_steady.carried sameEnd_stores sameEnd_edits starting) (sameEnd_steady.carried sameEnd_stores sameEnd_edits resolving)

theorem Alive.headersFrame (unended : Unended id c) : Alive id (handleH2HeadersFrame site env id true false c).2 := by
  obtain ⟨last, equal, last_alive, _, carried⟩ := alive.headersBlock cooperative site false
  rw [equal]
  exact last_alive.headersComplete cooperative (carried.unended unended)

theorem Alive.headersFrame_completed (undispatched : Undispatched id c) :
    Completed id (handleH2HeadersFrame site env id true true c).2 := by
  obtain ⟨last, equal, last_alive, open_, carried⟩ := alive.headersBlock cooperative site true
  rw [equal]
  refine last_alive.completes cooperative (open_ undispatched) fun request here => ?_
  obtain ⟨before, found, same⟩ := carried request here
  simp only [if_true, H2Conn.onRequest, H2Conn.modify_self] at found
  obtain ⟨_, _, rfl⟩ := Option.map_eq_some_iff.mp found
  exact same.2

omit cooperative in
theorem Alive.dataFrame_completed (undispatched : Undispatched id c) : Completed id (handleH2DataFrame env id true c).2 := by
  obtain ⟨request, found, open_⟩ := alive.userData
  have edited := request.withBody_edited
  have handing : Touches env id Deed.Undecided (c.onRequest id Request.endStream) _ := .handing trivial c
  have handed := undispatched.ended.uneventful (.of_touches handing)
  unfold handleH2DataFrame
  rw [found, if_pos rfl]
  dsimp only
  rw [if_neg (by simp [open_])]
  exact handed.completed (withBody_request found) edited.endStream (edited.finished.trans open_)

end

def H2Event.Spares (id : Nat) : H2Event → Prop
  | .act actions => ∀ action ∈ actions, action.1 ≠ id
  | .free other => other ≠ id
  | _ => True

def Phase.receiving : Phase → Bool
  | .head | .body | .trailers => true
  | _ => false

section
variable {site : Site} {env : H2Env} {id : Nat} {s after : Session} {event : H2Event}

theorem Alive.elsewhere (cooperative : Cooperative env id) (spares : event.Spares id) (about : event.stream ≠ some id)
    {c : H2Conn} (alive : Alive id c) : Alive id (event.run site env c).2 := by
  refine H2Event.run_elsewhere (fun _ _ kept before => before.kept cooperative kept)
    (fun _ before => before.call cooperative rfl) (fun actions c equal before => ?_) about ?_ alive
  · subst equal
    have only : ∀ action ∈ actions, action.1 ≠ id := spares
    have acts : H2Conn.Acts (· ≠ id) c (runH2Actions actions c) := runH2Actions_acts only c
    obtain ⟨request, here, open_⟩ := before
    rcases acts.streams id with same | ⟨_, different⟩
    · exact ⟨request, same.trans here, open_⟩
    · exact absurd rfl different
  · rintro rfl
    exact spares rfl

/-- A request that the application leaves to its callback is alive until the stream ends, and then its
callback is called. -/
theorem receiving_step (cooperative : Cooperative env id) (spares : event.Spares id) (stepped : s.Stepped site env event after)
    (orderly : Orderly id s) (alive : (s.phase id).receiving = true → Alive id s.conn) :
    ((after.phase id).receiving = true → Alive id after.conn) ∧
      (after.phase id = .ended → s.phase id ≠ .ended → Completed id after.conn) := by
  have conn := stepped.conn
  by_cases about : event.stream = some id
  · have advanced := stepped.phase id about
    have undispatched : s.phase id ≠ .ended → s.phase id ≠ .closed → event.delivers = some id → Undispatched id s.conn :=
      fun ended closed delivers => (orderly.waiting ended closed).undispatched (stepped.delivered id delivers)
    have head := orderly.head
    rw [conn]
    generalize s.phase id = phase at *
    generalize after.phase id = next at *
    cases event.about about with
    | beginHeaders request =>
      cases request with
      | true =>
        have next_head : next = .head := by cases phase <;> simp_all [H2Event.advance]
        subst next_head
        refine ⟨fun _ => ⟨h2StreamNew env _ s.conn, if_pos rfl, ?_⟩, by rintro ⟨⟩⟩
        unfold h2StreamNew h2RequestNew
        dsimp only
        split <;> rfl
      | false =>
        have phases : phase = .body ∧ next = .trailers := by cases phase <;> simp_all [H2Event.advance]
        obtain ⟨rfl, rfl⟩ := phases
        exact ⟨fun _ => alive rfl, by rintro ⟨⟩⟩
    | header name value =>
      have phases : next = phase ∧ (phase = .head ∨ phase = .trailers) := by cases phase <;> simp_all [H2Event.advance]
      obtain ⟨rfl, early⟩ := phases
      refine ⟨fun receiving => (alive receiving).touches cooperative (.onHeader name value), fun ended open_ => absurd ended open_⟩
    | headers endHeaders endStream =>
      have phases : endHeaders = true ∧ ((phase = .head ∧ endStream = false ∧ next = .body) ∨
          ((phase = .head ∨ phase = .trailers) ∧ endStream = true ∧ next = .ended)) := by
        cases phase <;> cases endHeaders <;> cases endStream <;> simp_all [H2Event.advance]
      obtain ⟨rfl, ⟨rfl, rfl, rfl⟩ | ⟨early, rfl, rfl⟩⟩ := phases
      · exact ⟨fun _ => (alive rfl).headersFrame cooperative (head rfl), by rintro ⟨⟩⟩
      · refine ⟨by rintro ⟨⟩, fun _ _ => ?_⟩
        rcases early with rfl | rfl <;> exact (alive rfl).headersFrame_completed cooperative (undispatched (by simp) (by simp) rfl)
    | data endStream =>
      have phases : phase = .body ∧ ((endStream = false ∧ next = .body) ∨ (endStream = true ∧ next = .ended)) := by
        cases phase <;> cases endStream <;> simp_all [H2Event.advance]
      obtain ⟨rfl, ⟨rfl, rfl⟩ | ⟨rfl, rfl⟩⟩ := phases
      · exact ⟨fun _ => alive rfl, by rintro ⟨⟩⟩
      · exact ⟨by rintro ⟨⟩, fun _ _ => (alive rfl).dataFrame_completed (undispatched (by simp) (by simp) rfl)⟩
    | dataChunk chunk =>
      have phases : phase = .body ∧ next = .body := by cases phase <;> simp_all [H2Event.advance]
      obtain ⟨rfl, rfl⟩ := phases
      exact ⟨fun _ => (alive rfl).dataChunk cooperative chunk, by rintro ⟨⟩⟩
    | streamClose =>
      have next_closed : next = .closed := by cases phase <;> simp_all [H2Event.advance]
      subst next_closed
      exact ⟨by rintro ⟨⟩, by rintro ⟨⟩⟩
  · rw [stepped.others id about, conn]
    exact ⟨fun receiving => (alive receiving).elsewhere cooperative spares about, fun ended open_ => absurd ended open_⟩

theorem Dispatched.dispatches_length {c : H2Conn} (dispatched : Dispatched id c) : (dispatches id c.log).length = 1 := by
  obtain ⟨before, call, rest, calls, callback, single, _⟩ := dispatched
  have early : before.filter H2Call.isCallback = [] :=
    List.filter_eq_nil_iff.mpr fun other member => by simp [single other (List.mem_append_left _ member)]
  have late : rest.filter H2Call.isCallback = [] :=
    List.filter_eq_nil_iff.mpr fun other member => by simp [single other (List.mem_append_right _ member)]
  unfold dispatches
  rw [calls, List.filter_append, early, List.filter_cons_of_pos callback, late]
  rfl

/-- The callback is called at most once, after the end of the stream, with a request that is not answered, and never
after a hook has refused the request. -/
structure DispatchOrderly (id : Nat) (s : Session) : Prop where
  once : (dispatches id s.conn.log).length ≤ 1
  complete : ∀ call ∈ dispatches id s.conn.log, (s.phase id = .ended ∨ s.phase id = .closed) ∧
    ∃ request, call.request = some request ∧ request.flags.endStream = true ∧ request.flags.finished = false
  heeded : ∀ before call after, callsOf id s.conn.log = before ++ call :: after → call.isCallback = true →
    ∀ earlier ∈ before, earlier.refuses = false

theorem Waiting.dispatchOrderly (waiting : Waiting id s.conn) : DispatchOrderly id s := by
  have none : dispatches id s.conn.log = [] :=
    List.filter_eq_nil_iff.mpr fun call member => by simp [waiting.uncalled call member]
  refine ⟨by simp [none], by simp [none], fun before call after place callback => ?_⟩
  have uncalled := waiting.uncalled call (place ▸ List.mem_append_right _ List.mem_cons_self)
  rw [callback] at uncalled
  cases uncalled

theorem Dispatched.dispatchOrderly (dispatched : Dispatched id s.conn)
    (gone : s.phase id = .ended ∨ s.phase id = .closed) : DispatchOrderly id s := by
  have length := dispatched.dispatches_length
  obtain ⟨before, call, rest, calls, callback, single, heeded, complete⟩ := dispatched
  have same : ∀ other, other ∈ before ++ call :: rest → other.isCallback = true → other = call := by
    intro other member called
    rcases List.mem_append.mp member with early | late
    · rw [single other (List.mem_append_left _ early)] at called
      cases called
    · rcases List.mem_cons.mp late with equal | late
      · exact equal
      · rw [single other (List.mem_append_right _ late)] at called
        cases called
  refine ⟨length.le, fun other member => ⟨gone, ?_⟩, fun early other late place called => ?_⟩
  · obtain ⟨member, called⟩ := List.mem_filter.mp member
    rw [same other (calls ▸ member) called]
    exact complete
  · rw [calls] at place
    rcases List.append_eq_append_iff.mp place with ⟨middle, rfl, tail⟩ | ⟨middle, rfl, _⟩
    · cases middle with
      | nil => simpa using heeded
      | cons first middle =>
        have member : other ∈ rest := (List.cons.inj tail).2 ▸ List.mem_append_right _ List.mem_cons_self
        rw [single other (List.mem_append_right _ member)] at called
        cases called
    · exact fun earlier member => heeded earlier (List.mem_append_left _ member)

/-- The callback of a request is called at most once and never against a hook; if the application leaves the request
to its callback, the end of the stream has it called. -/
theorem h2_dispatch_orderly (site : Site) (env : H2Env) {start : Session} (fresh : start.Fresh) (id : Nat) :
    (∀ s, Session.Reaches site env (fun _ _ => True) start s → DispatchOrderly id s) ∧
      (Cooperative env id → ∀ s event after, Session.Reaches site env (fun _ event => event.Spares id) start s →
        event.Spares id → s.step site env event = some after → after.phase id = .ended → s.phase id ≠ .ended →
        (dispatches id after.conn.log).length = 1 ∨
          ∃ request, (after.conn.streams id).request = some request ∧ request.cb = none) := by
  refine ⟨fun s reached => ?_, fun cooperative s event after reached spares taken ended open_ => ?_⟩
  · have orderly : Orderly id s := reached.invariant (orderly_fresh fresh) fun _ _ _ _ stepped orderly => orderly.step stepped
    rcases orderly.state with waiting | ⟨dispatched, gone⟩
    · exact waiting.dispatchOrderly
    · exact dispatched.dispatchOrderly gone
  · have both : Orderly id s ∧ ((s.phase id).receiving = true → Alive id s.conn) := by
      apply reached.invariant
      · refine ⟨orderly_fresh fresh, fun receiving => ?_⟩
        rw [fresh.phase id] at receiving
        cases receiving
      · intro s event after spares stepped before
        exact ⟨before.1.step stepped, (receiving_step cooperative spares stepped before.1 before.2).1⟩
    have completed := (receiving_step cooperative spares (Session.step_stepped taken) both.1 both.2).2 ended open_
    exact completed.imp_left Dispatched.dispatches_length

end

theorem plainH2_cooperative (id : Nat) : Cooperative plainH2 id where
  silent _ _ _ _ _ member := by cases member
  accepts _ _ _ := rfl

def getRequest : List H2Event := headOf 1 "GET" []

theorem h2_dispatch_orderly_get :
    ∃ s after, Session.Reaches plainSite plainH2 (fun _ event => event.Spares 1) {} s ∧
      s.step plainSite plainH2 (.frame (.headers 1 true true)) = some after ∧ DispatchOrderly 1 after ∧
      ((dispatches 1 after.conn.log).length = 1 ∨
        ∃ request, (after.conn.streams 1).request = some request ∧ request.cb = none) := by
  have run : (({} : Session).steps plainSite plainH2 getRequest).bind (fun s =>
      (s.step plainSite plainH2 (.frame (.headers 1 true true))).map fun after => (s.phase 1, after.phase 1)) =
      some (.head, .ended) := by
    decide +kernel
  obtain ⟨s, before, run⟩ := Option.bind_eq_some_iff.mp run
  obtain ⟨after, taken, phases⟩ := Option.map_eq_some_iff.mp run
  obtain ⟨head, ended⟩ := Prod.mk.inj phases
  have reached : Session.Reaches plainSite plainH2 (fun _ event => event.Spares 1) {} s := by
    refine Session.Reaches.steps .start (fun event member _ => ?_) before
    rcases mem_headOf member with rfl | ⟨_, _, rfl⟩ <;> trivial
  have all : Session.Reaches plainSite plainH2 (fun _ _ => True) {} after := by
    have first : Session.Reaches plainSite plainH2 (fun _ _ => True) {} s :=
      Session.Reaches.steps .start (fun _ _ _ => trivial) before
    exact .step first trivial taken
  obtain ⟨orderly, called⟩ := h2_dispatch_orderly plainSite plainH2 fresh_session 1
  exact ⟨s, after, reached, taken, orderly after all,
    called (plainH2_cooperative 1) s (.frame (.headers 1 true true)) after reached trivial taken ended (by simp [head])⟩

end Evhtp
