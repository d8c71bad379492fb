import Mathlib.Logic.Relation
import Evhtp.H2
import Evhtp.Proofs.Routes

/-! What the callbacks of an HTTP/2 connection leave alone. The application may answer any request from any
of its hooks; apart from that a callback touches the stream it is called for only. -/

namespace Evhtp

@[simp]
theorem H2Conn.modify_self (c : H2Conn) (id : Nat) (f : Stream → Stream) : (c.modify id f).streams id = f (c.streams id) :=
  if_pos rfl

theorem H2Conn.modify_other (c : H2Conn) {id other : Nat} (f : Stream → Stream) (different : other ≠ id) :
    (c.modify id f).streams other = c.streams other :=
  if_neg different

theorem beginHeaders_self (env : H2Env) (id : Nat) (c : H2Conn) :
    (serverOnBeginHeaders env id true c).2.streams id = ⟨some (h2StreamNew env id c), true⟩ :=
  if_pos rfl

theorem beginHeaders_other (env : H2Env) (c : H2Conn) {id other : Nat} (different : other ≠ id) :
    (serverOnBeginHeaders env id true c).2.streams other = c.streams other :=
  if_neg different

theorem userData_request {c : H2Conn} {id : Nat} {request : Request} (found : c.userData id = some request) :
    (c.streams id).request = some request := by
  unfold H2Conn.userData at found
  split at found
  · exact found
  · cases found

theorem split_snoc {α : Type} {xs before after : List α} {x y : α} (equal : xs ++ [x] = before ++ y :: after) :
    (xs = before ∧ x = y) ∨ ∃ rest, xs = before ++ y :: rest := by
  rcases List.eq_nil_or_concat after with rfl | ⟨rest, last, rfl⟩
  · obtain ⟨same, last⟩ := List.append_inj' equal rfl
    exact .inl ⟨same, List.head_eq_of_cons_eq last⟩
  · have same : xs ++ [x] = (before ++ y :: rest) ++ [last] := by simpa using equal
    exact .inr ⟨rest, (List.append_inj' same rfl).1⟩

def Stream.finish (stream : Stream) : Stream := { stream with request := stream.request.map Request.finish }

theorem Stream.finish_finish (stream : Stream) : stream.finish.finish = stream.finish := by
  cases stream with
  | mk request attached => cases request <;> rfl

def callsOf (id : Nat) (log : List H2Call) : List H2Call := log.filter (·.stream = id)

theorem callsOf_append (id : Nat) (first second : List H2Call) :
    callsOf id (first ++ second) = callsOf id first ++ callsOf id second :=
  List.filter_append ..

/-- Calls on the requests of some streams: they are answered and maybe reset, and nothing else happens. -/
structure H2Conn.Acts (targets : Nat → Prop) (c after : H2Conn) : Prop where
  htp : after.htp = c.htp
  pending : after.pending = c.pending
  maxBodySize : after.maxBodySize = c.maxBodySize
  bodyBytesRead : after.bodyBytesRead = c.bodyBytesRead
  scratch : after.scratch = c.scratch
  clock : after.clock = c.clock
  log : after.log = c.log
  pieces : after.pieces = c.pieces
  resets : ∀ id ∈ c.resets, id ∈ after.resets
  streams : ∀ id, after.streams id = c.streams id ∨ (after.streams id = (c.streams id).finish ∧ targets id)

section
variable {targets : Nat → Prop}

theorem H2Conn.Acts.refl (c : H2Conn) : H2Conn.Acts targets c c :=
  ⟨rfl, rfl, rfl, rfl, rfl, rfl, rfl, rfl, fun _ member => member, fun _ => .inl rfl⟩

theorem H2Conn.Acts.trans {first second third : H2Conn} (one : H2Conn.Acts targets first second)
    (two : H2Conn.Acts targets second third) : H2Conn.Acts targets first third := by
  refine ⟨two.htp.trans one.htp, two.pending.trans one.pending, two.maxBodySize.trans one.maxBodySize,
    two.bodyBytesRead.trans one.bodyBytesRead, two.scratch.trans one.scratch, two.clock.trans one.clock,
    two.log.trans one.log, two.pieces.trans one.pieces, fun id member => two.resets id (one.resets id member), fun id => ?_⟩
  rcases one.streams id with same | ⟨answered, target⟩ <;> rcases two.streams id with same' | ⟨answered', target'⟩
  · exact .inl (same'.trans same)
  · exact .inr ⟨by rw [answered', same], target'⟩
  · exact .inr ⟨same'.trans answered, target⟩
  · exact .inr ⟨by rw [answered', answered, Stream.finish_finish], target⟩

theorem H2Action.run_acts (action : H2Action) {id : Nat} (target : targets id) (c : H2Conn) :
    H2Conn.Acts targets c (action.run id c) := by
  have streams : ∀ other, (c.onRequest id Request.finish).streams other = c.streams other ∨
      ((c.onRequest id Request.finish).streams other = (c.streams other).finish ∧ targets other) := by
    intro other
    by_cases same : other = id
    · subst same
      exact .inr ⟨c.modify_self other _, target⟩
    · exact .inl (c.modify_other _ same)
  have answered : H2Conn.Acts targets c (c.onRequest id Request.finish) :=
    ⟨rfl, rfl, rfl, rfl, rfl, rfl, rfl, rfl, fun _ member => member, streams⟩
  cases action with
  | sendReply | sendReplyEnd => exact answered
  | resetStream =>
    unfold H2Action.run
    dsimp only
    split
    · exact ⟨rfl, rfl, rfl, rfl, rfl, rfl, rfl, rfl, fun _ member => List.mem_append_left _ member, streams⟩
    · exact .refl c

theorem runH2Actions_acts {actions : List (Nat × H2Action)} (only : ∀ action ∈ actions, targets action.1) (c : H2Conn) :
    H2Conn.Acts targets c (runH2Actions actions c) := by
  induction actions generalizing c with
  | nil => exact .refl c
  | cons action actions ih =>
    have first := action.2.run_acts (only action List.mem_cons_self) c
    exact first.trans (ih (fun other member => only other (List.mem_cons_of_mem _ member)) _)

end

def Stream.store (stream : Stream) : Option Handler → Stream
  | none => stream
  | some handler => { stream with request := stream.request.map (·.store handler) }

theorem H2Conn.store_eq (c : H2Conn) (id : Nat) (handler : Option Handler) :
    c.store id handler = c.modify id (·.store handler) := by
  cases handler with
  | some handler => rfl
  | none =>
    have same : (fun other => if other = id then (c.streams other).store none else c.streams other) = c.streams := by
      funext other
      split <;> rfl
    simp only [H2Conn.store, H2Conn.modify, same]

def H2Conn.entry (c : H2Conn) (env : H2Env) (id : Nat) (hook : AppHook) : H2Call :=
  ⟨id, hook, (c.streams id).request, env.app c.clock id hook⟩

/-- A call of the application: it is recorded, a callback may be stored, requests may be answered. -/
structure Calling (env : H2Env) (id : Nat) (hook : AppHook) (c : H2Conn) (called : H2Reply × H2Conn) : Prop where
  reply : called.1 = env.app c.clock id hook
  htp : called.2.htp = c.htp
  pending : called.2.pending = c.pending
  maxBodySize : called.2.maxBodySize = c.maxBodySize
  bodyBytesRead : called.2.bodyBytesRead = c.bodyBytesRead
  scratch : called.2.scratch = c.scratch
  log : called.2.log = c.log ++ [c.entry env id hook]
  pieces : called.2.pieces = c.pieces
  resets : ∀ other ∈ c.resets, other ∈ called.2.resets
  own : called.2.streams id = (c.streams id).store called.1.handler ∨
    (called.2.streams id = ((c.streams id).store called.1.handler).finish ∧ ∃ action ∈ called.1.actions, action.1 = id)
  others : ∀ other, other ≠ id → called.2.streams other = c.streams other ∨
    (called.2.streams other = (c.streams other).finish ∧ ∃ action ∈ called.1.actions, action.1 = other)

theorem call_calling (env : H2Env) (id : Nat) (hook : AppHook) (c : H2Conn) : Calling env id hook c (c.call env id hook) := by
  let targets (other : Nat) : Prop := ∃ action ∈ (env.app c.clock id hook).actions, action.1 = other
  have acts : H2Conn.Acts targets _ _ := runH2Actions_acts (fun action member => ⟨action, member, rfl⟩)
    (({ c with clock := c.clock + 1, log := c.log ++ [c.entry env id hook] } : H2Conn).modify id
      (·.store (env.app c.clock id hook).handler))
  unfold H2Conn.call
  dsimp only
  rw [H2Conn.store_eq]
  refine ⟨rfl, acts.htp, acts.pending, acts.maxBodySize, acts.bodyBytesRead, acts.scratch, acts.log, acts.pieces,
    acts.resets, ?_, fun other different => ?_⟩
  · have own := acts.streams id
    rwa [H2Conn.modify_self] at own
  · have others := acts.streams other
    rwa [H2Conn.modify_other _ _ different] at others

/-- A change of a request that concerns neither its body nor its end nor its answer. -/
structure Request.Edited (request edited : Request) : Prop where
  bufferIn : edited.bufferIn = request.bufferIn
  finished : edited.flags.finished = request.flags.finished
  endStream : edited.flags.endStream = request.flags.endStream

theorem setCallbacks_edited (site : Site) (request : Request) : request.Edited (setCallbacks site request) := by
  obtain ⟨_, _, _, _, same⟩ := setCallbacks_only site request
  rw [same]
  exact ⟨rfl, rfl, rfl⟩

theorem queryFromBody_resolved (request : Request) :
    (queryFromBody request).flags.vhostResolved = request.flags.vhostResolved := by
  unfold queryFromBody
  split <;> rfl

theorem queryFromBody_edited (request : Request) : request.Edited (queryFromBody request) := by
  unfold queryFromBody
  split <;> exact ⟨rfl, rfl, rfl⟩

theorem setCallbacks_headersIn (site : Site) (request : Request) : (setCallbacks site request).headersIn = request.headersIn := by
  obtain ⟨_, _, _, _, same⟩ := setCallbacks_only site request
  rw [same]

theorem queryFromBody_headersIn (request : Request) : (queryFromBody request).headersIn = request.headersIn := by
  unfold queryFromBody
  split <;> rfl

/-- A request that goes where it went, whether its virtual host is known or not. -/
def Request.SameWay (before after : Request) : Prop :=
  before.SameRoute after ∧ after.flags.vhostResolved = before.flags.vhostResolved

theorem Request.SameWay.refl (request : Request) : request.SameWay request := ⟨.refl request, rfl⟩

theorem Request.SameWay.trans {first second third : Request} (one : first.SameWay second) (two : second.SameWay third) :
    first.SameWay third := ⟨one.1.trans two.1, two.2.trans one.2⟩

/-- What a callback may do besides changing the request: send it elsewhere, add a header, call a hook, take the request
from nghttp2, free it, have the stream reset. -/
inductive Deed where
  | route
  | header
  | hook (hook : AppHook)
  | detach
  | clear
  | reset

/-- One thing that a callback for a stream does. It may also move the connection to a virtual host. -/
inductive Touch (env : H2Env) (id : Nat) (may : Deed → Prop) (c : H2Conn) : H2Conn → Prop
  | edit (f : Request → Request) (edited : ∀ request : Request, request.Edited (f request))
      (way : may .route ∨ ∀ request : Request, request.SameWay (f request))
      (heads : may .header ∨ ∀ request : Request, (f request).headersIn = request.headersIn) :
      Touch env id may c (c.onRequest id f)
  | move (htp : Nat) : Touch env id may c { c with htp }
  | call (hook : AppHook) (allowed : may (.hook hook)) : Touch env id may c (c.call env id hook).2
  | detach (allowed : may .detach) : Touch env id may c (c.modify id fun stream => { stream with attached := false })
  | clear (allowed : may .clear) (pending : List Nat) : Touch env id may c { c.modify id fun _ => {} with pending }
  | reset (allowed : may .reset) : Touch env id may c (c.submitRst id)

def Touches (env : H2Env) (id : Nat) (may : Deed → Prop) : H2Conn → H2Conn → Prop :=
  Relation.ReflTransGen (Touch env id may)

/-- The hooks that are called before it is known whether a request is dispatched, and after that. -/
def AppHook.decides : AppHook → Bool
  | .hostname _ | .headers | .callback _ _ => true
  | _ => false

def Deed.Undecided : Deed → Prop
  | .hook called => called.decides = false
  | _ => True

def Deed.Harmless : Deed → Prop
  | .hook called => called.decides = false
  | .route | .header => True
  | _ => False

/-- The headers of the request and the stream it belongs to stay the same. -/
def Deed.KeepsHeaders (deed : Deed) : Prop := deed ≠ .header ∧ deed ≠ .detach

theorem Deed.Harmless.undecided : ∀ deed : Deed, deed.Harmless → deed.Undecided
  | .hook _, harmless => harmless
  | .route, _ | .header, _ => trivial

namespace Touches
variable {site : Site} {env : H2Env} {id : Nat} {may : Deed → Prop} {c : H2Conn}

theorem refl (c : H2Conn) : Touches env id may c c := Relation.ReflTransGen.refl

theorem trans {first second third : H2Conn} (one : Touches env id may first second)
    (two : Touches env id may second third) : Touches env id may first third :=
  Relation.ReflTransGen.trans one two

theorem edit (f : Request → Request) (edited : ∀ request : Request, request.Edited (f request))
    (way : ∀ request : Request, request.SameWay (f request))
    (heads : ∀ request : Request, (f request).headersIn = request.headersIn) : Touches env id may c (c.onRequest id f) :=
  .single (.edit f edited (.inr way) (.inr heads))

theorem route (allowed : may .route) (f : Request → Request) (edited : ∀ request : Request, request.Edited (f request))
    (heads : ∀ request : Request, (f request).headersIn = request.headersIn) : Touches env id may c (c.onRequest id f) :=
  .single (.edit f edited (.inl allowed) (.inr heads))

theorem call {hook : AppHook} (allowed : may (.hook hook)) : Touches env id may c (c.call env id hook).2 := .single (.call hook allowed)

theorem mono {wider : Deed → Prop} {after : H2Conn} (implies : ∀ deed, may deed → wider deed)
    (touches : Touches env id may c after) : Touches env id wider c after := by
  refine Relation.ReflTransGen.mono (fun _ _ touch => ?_) _ _ touches
  cases touch with
  | edit f edited way heads => exact .edit f edited (way.imp_left (implies _)) (heads.imp_left (implies _))
  | move htp => exact .move htp
  | call hook allowed => exact .call hook (implies _ allowed)
  | detach allowed => exact .detach (implies _ allowed)
  | clear allowed pending => exact .clear (implies _ allowed) pending
  | reset allowed => exact .reset (implies _ allowed)

theorem free (finished : may (.hook .requestFini)) (cleared : may .clear) : Touches env id may c (h2RequestFree env id c) :=
  (call finished).trans (.single (.clear cleared _))

theorem headersStart (allowed : may (.hook .headersStart)) (request : Request) :
    Touches env id may c (headersStart env id request c).2 := by
  unfold Evhtp.headersStart
  split
  · exact refl c
  · exact (edit Request.started (fun _ => ⟨rfl, rfl, rfl⟩) (fun _ => ⟨⟨rfl, rfl, rfl, rfl, rfl⟩, rfl⟩) fun _ => rfl).trans
      (call allowed)

theorem onPath (target : Bytes) (routes : may .route) (allowed : may (.hook (.path (splitTarget target).1))) :
    Touches env id may c (onPath site env id target c).2 := by
  have hooked : ∀ path, Touches env id may c ((c.onRequest id fun request =>
      setCallbacks site (request.setUri { request.requireUri with path })).call env id (.path (splitTarget target).1)).2 :=
    fun path => by
      refine .trans (route routes _ (fun request => ?_) fun request => ?_) (call allowed)
      · have edited := setCallbacks_edited site (request.setUri { request.requireUri with path })
        exact ⟨edited.bufferIn, edited.finished, edited.endStream⟩
      · exact setCallbacks_headersIn site _
  unfold Evhtp.onPath
  dsimp only
  split
  · split
    · exact (hooked _).trans (route routes _ (fun _ => ⟨rfl, rfl, rfl⟩) fun _ => rfl)
    · exact hooked _
  · exact hooked _

/-- A header calls hooks that decide nothing, and only that for the path sends the request elsewhere. -/
theorem header {name : Bytes} (heads : may .header) (hooks : ∀ hook : AppHook, hook.decides = false → may (.hook hook))
    (routes : name = ascii ":path" → may .route) (value : Bytes) :
    Touches env id may c (serverOnHeader site env id name value c).2 := by
  unfold serverOnHeader
  split
  · exact refl c
  · split
    · unfold onPseudoHeader
      split
      · exact edit _ (fun _ => ⟨rfl, rfl, rfl⟩) (fun _ => ⟨⟨rfl, rfl, rfl, rfl, rfl⟩, rfl⟩) fun _ => rfl
      · split
        · next isPath => exact onPath _ (routes isPath) (hooks _ rfl)
        · split
          · exact edit _ (fun _ => ⟨rfl, rfl, rfl⟩) (fun request => ⟨.setUri request rfl, rfl⟩) fun _ => rfl
          · split
            · exact .single (.edit _ (fun _ => ⟨rfl, rfl, rfl⟩) (.inr fun _ => ⟨⟨rfl, rfl, rfl, rfl, rfl⟩, rfl⟩) (.inl heads))
            · exact refl c
    · next request _ _ =>
      have started : Touches env id may c (Evhtp.headersStart env id request c).2 := headersStart (hooks _ rfl) request
      dsimp only
      split
      · refine started.trans (.trans (.single (.edit _ (fun _ => ?_) (.inr fun _ => ?_) (.inl heads))) (call (hooks _ rfl)))
        · exact ⟨rfl, rfl, rfl⟩
        · exact ⟨⟨rfl, rfl, rfl, rfl, rfl⟩, rfl⟩
      · exact started

theorem onHeader (name value : Bytes) :
    Touches env id Deed.Harmless c (serverOnHeader site env id name value c).2 :=
  header trivial (fun _ undecided => undecided) (fun _ => trivial) value

theorem streamClose (finished : may (.hook .requestFini)) (cleared : may .clear) : Touches env id may c (serverOnStreamClose env id c).2 := by
  unfold serverOnStreamClose
  split
  · exact free finished cleared
  · exact refl c

theorem lookupHost (routes : may .route) (host : Bytes) : Touches env id may c (c.lookupHost site id host) := by
  have named : Touches env id may c (c.onRequest id fun request => { request with host := some host }) :=
    route routes _ (fun _ => ⟨rfl, rfl, rfl⟩) fun _ => rfl
  unfold H2Conn.lookupHost
  dsimp only
  split
  · next vhost _ =>
    refine (named.trans (route routes (fun request => setCallbacks site { request with htp := vhost }) (fun request => ?_)
      fun _ => setCallbacks_headersIn site _)).trans (.single (.move vhost))
    have edited := setCallbacks_edited site { request with htp := vhost }
    exact ⟨edited.bufferIn, edited.finished, edited.endStream⟩
  · exact named

theorem gate {hook : AppHook} (allowed : may (.hook hook)) (reset : may .reset) : Touches env id may c (gate env id hook c).2 := by
  have called : Touches env id may c (c.call env id hook).2 := call allowed
  unfold Evhtp.gate
  dsimp only
  split
  · exact called
  · split
    · exact called.trans (.single (.reset reset))
    · exact called

theorem resolveVhost (routes : may .route) (allowed : ∀ name, may (.hook (.hostname name))) (reset : may .reset) (request : Request) :
    Touches env id may c (resolveVhost site env id request c).2 := by
  have marked : Touches env id may c (c.onRequest id Request.resolved) :=
    route routes _ (fun _ => ⟨rfl, rfl, rfl⟩) fun _ => rfl
  unfold Evhtp.resolveVhost
  split
  · exact refl c
  · dsimp only
    split
    · exact marked
    · exact (marked.trans (lookupHost routes _)).trans (gate (allowed _) reset)

theorem dispatch (called : ∀ cb cbarg, may (.hook (.callback cb cbarg))) (finished : may (.hook .requestFini))
    (cleared : may .clear) : Touches env id may c (h2Dispatch env id c) := by
  unfold h2Dispatch
  split
  · exact refl c
  · split
    · exact refl c
    · dsimp only
      split
      · exact (call (called _ _)).trans (free finished cleared)
      · exact call (called _ _)

theorem headersHook (routes : may .route) (allowed : may (.hook .headers)) (reset : may .reset) :
    Touches env id may c (Evhtp.gate env id .headers (c.onRequest id (setCallbacks site))).2 :=
  (route routes _ (setCallbacks_edited site) (setCallbacks_headersIn site)).trans (gate allowed reset)

theorem headersComplete : Touches env id Deed.KeepsHeaders c (headersComplete site env id c) := by
  have hooked : Touches env id Deed.KeepsHeaders c (Evhtp.gate env id .headers (c.onRequest id (setCallbacks site))).2 :=
    headersHook ⟨nofun, nofun⟩ ⟨nofun, nofun⟩ ⟨nofun, nofun⟩
  unfold Evhtp.headersComplete
  dsimp only
  split
  · exact hooked.trans (dispatch (fun _ _ => ⟨nofun, nofun⟩) ⟨nofun, nofun⟩ ⟨nofun, nofun⟩)
  · exact hooked

theorem headersFrame (endHeaders endStream : Bool) :
    ∃ marked, (marked = c ∨ marked = c.onRequest id Request.endStream) ∧
      Touches env id Deed.KeepsHeaders marked (handleH2HeadersFrame site env id endHeaders endStream c).2 := by
  unfold handleH2HeadersFrame
  split
  · split
    · exact ⟨c, .inl rfl, refl c⟩
    · next request _ =>
      have ended : (if endStream then c.onRequest id Request.endStream else c) = c ∨
          (if endStream then c.onRequest id Request.endStream else c) = c.onRequest id Request.endStream := by
        cases endStream
        · exact .inl rfl
        · exact .inr rfl
      refine ⟨_, ended, ?_⟩
      dsimp only
      generalize (if endStream then c.onRequest id Request.endStream else c) = marked
      have started : Touches env id Deed.KeepsHeaders marked (Evhtp.headersStart env id request marked).2 :=
        headersStart ⟨nofun, nofun⟩ request
      split
      · have resolved : Touches env id Deed.KeepsHeaders marked
            (Evhtp.resolveVhost site env id request (Evhtp.headersStart env id request marked).2).2 :=
          started.trans (resolveVhost ⟨nofun, nofun⟩ (fun _ => ⟨nofun, nofun⟩) ⟨nofun, nofun⟩ request)
        split
        · exact resolved.trans headersComplete
        · exact resolved
      · exact started
  · exact ⟨c, .inl rfl, refl c⟩

theorem handing (detached : may .detach) (c : H2Conn) :
    Touches env id may (c.onRequest id Request.endStream)
      (((c.onRequest id Request.endStream).modify id fun stream => { stream with attached := false }).onRequest id
        fun request => if h2ShouldParseQueryBody request then queryFromBody request else request) := by
  refine .trans (.single (.detach detached)) (.edit _ (fun request => ?_) (fun request => ?_) fun request => ?_)
  · split
    · exact queryFromBody_edited request
    · exact ⟨rfl, rfl, rfl⟩
  · split
    · exact ⟨queryFromBody_sameRoute request, queryFromBody_resolved request⟩
    · exact ⟨.refl request, rfl⟩
  · split
    · exact queryFromBody_headersIn request
    · rfl

theorem dataFrame (detached : may .detach) (called : ∀ cb cbarg, may (.hook (.callback cb cbarg)))
    (finished : may (.hook .requestFini)) (cleared : may .clear) (endStream : Bool) :
    ∃ marked, (marked = c ∨ marked = c.onRequest id Request.endStream) ∧
      Touches env id may marked (handleH2DataFrame env id endStream c).2 := by
  unfold handleH2DataFrame
  split
  · split
    · exact ⟨c, .inl rfl, refl c⟩
    · refine ⟨_, .inr rfl, ?_⟩
      dsimp only
      split
      · exact refl _
      · exact (handing detached c).trans (dispatch called finished cleared)
  · exact ⟨c, .inl rfl, refl c⟩

end Touches

/-- A relation between a request and what becomes of it when it is answered. -/
structure Steady (kept : Request → Request → Prop) : Prop where
  refl : ∀ request, kept request request
  trans : ∀ {first second third}, kept first second → kept second third → kept first third
  finish : ∀ request, kept request request.finish

/-- The relation does not depend on the callbacks that hooks store in their requests. -/
def Stores (env : H2Env) (kept : Request → Request → Prop) : Prop :=
  ∀ {request clock id hook handler}, (env.app clock id hook).handler = some handler → kept request (request.store handler)

/-- The relation holds for what callbacks do with a request apart from its body and its end. -/
def Edits (may : Deed → Prop) (kept : Request → Request → Prop) : Prop :=
  ∀ {request edited}, request.Edited edited → may .route ∨ request.SameWay edited → kept request edited

/-- The request of a stream, if there is one, is one that was there and is related to what it was. -/
def Carried (kept : Request → Request → Prop) (id : Nat) (c after : H2Conn) : Prop :=
  ∀ request, (after.streams id).request = some request → ∃ before, (c.streams id).request = some before ∧ kept before request

section
variable {env : H2Env} {id : Nat} {may : Deed → Prop} {c : H2Conn} {kept : Request → Request → Prop} (steady : Steady kept)
include steady

theorem Steady.carried_refl (c : H2Conn) : Carried kept id c c := fun request here => ⟨request, here, steady.refl request⟩

theorem Steady.carried_trans {first second third : H2Conn} (one : Carried kept id first second)
    (two : Carried kept id second third) : Carried kept id first third := by
  intro request here
  obtain ⟨middle, there, later⟩ := two request here
  obtain ⟨before, found, earlier⟩ := one middle there
  exact ⟨before, found, steady.trans earlier later⟩

theorem Steady.carried_same {after : H2Conn} (same : after.streams id = c.streams id) : Carried kept id c after :=
  fun request here => ⟨request, same ▸ here, steady.refl request⟩

theorem Steady.carried_finish {after : H2Conn} {answers : Prop}
    (either : after.streams id = c.streams id ∨ (after.streams id = (c.streams id).finish ∧ answers)) :
    Carried kept id c after := by
  rcases either with same | ⟨answered, _⟩
  · exact steady.carried_same same
  · intro request here
    rw [answered] at here
    obtain ⟨before, found, rfl⟩ := Option.map_eq_some_iff.mp here
    exact ⟨before, found, steady.finish before⟩

theorem Steady.carried_modify {other : Nat} (f : Stream → Stream)
    (keeps : ∀ stream request, (f stream).request = some request →
      ∃ before, stream.request = some before ∧ kept before request) :
    Carried kept id c (c.modify other f) := by
  by_cases same : id = other
  · subst same
    intro request here
    rw [H2Conn.modify_self] at here
    exact keeps _ request here
  · exact steady.carried_same (c.modify_other f same)

theorem Steady.carried_onRequest {other : Nat} (f : Request → Request) (keeps : ∀ request, kept request (f request)) :
    Carried kept id c (c.onRequest other f) := by
  refine steady.carried_modify _ fun stream request here => ?_
  obtain ⟨before, found, rfl⟩ := Option.map_eq_some_iff.mp here
  exact ⟨before, found, keeps before⟩

theorem Steady.carried_call (stores : Stores env kept) {other : Nat} (hook : AppHook) :
    Carried kept id c (c.call env other hook).2 := by
  have calling := call_calling env other hook c
  by_cases same : id = other
  · subst same
    have stored : Carried kept id c (c.modify id (·.store (c.call env id hook).1.handler)) := by
      rw [← H2Conn.store_eq]
      cases stored : (c.call env id hook).1.handler with
      | none => exact steady.carried_refl c
      | some handler => exact steady.carried_onRequest _ fun _ => stores stored
    have own := calling.own
    rw [← H2Conn.modify_self c id (·.store (c.call env id hook).1.handler)] at own
    exact steady.carried_trans stored (steady.carried_finish own)
  · exact steady.carried_finish (calling.others id same)

theorem Steady.carried (stores : Stores env kept) (edits : Edits may kept) {other : Nat} {after : H2Conn}
    (touches : Touches env other may c after) : Carried kept id c after := by
  induction touches with
  | refl => exact steady.carried_refl c
  | tail _ touch ih =>
    refine steady.carried_trans ih ?_
    cases touch with
    | edit f edited way => exact steady.carried_onRequest f fun request => edits (edited request) (way.imp_right (· request))
    | call hook => exact steady.carried_call stores hook
    | detach => exact steady.carried_modify _ fun _ request here => ⟨request, here, steady.refl request⟩
    | clear =>
      refine steady.carried_trans (steady.carried_modify (fun _ => {}) ?_) (steady.carried_same rfl)
      intro _ _ here
      cases here
    | reset | move => exact steady.carried_same rfl

end

def AnsweredBy (env : H2Env) (id : Nat) : Prop :=
  ∃ clock stream hook, stream ≠ id ∧ ∃ action ∈ (env.app clock stream hook).actions, action.1 = id

/-- What is left of a stream and of the calls for it when a callback for another stream has run. -/
structure Kept (env : H2Env) (id : Nat) (c after : H2Conn) : Prop where
  stream : after.streams id = c.streams id ∨ (after.streams id = (c.streams id).finish ∧ AnsweredBy env id)
  calls : callsOf id after.log = callsOf id c.log
  resets : id ∈ c.resets → id ∈ after.resets

inductive H2Event.About (id : Nat) : H2Event → Prop
  | beginHeaders (request : Bool) : About id (.beginHeaders id request)
  | header (name value : Bytes) : About id (.header id name value)
  | headers (endHeaders endStream : Bool) : About id (.frame (.headers id endHeaders endStream))
  | data (endStream : Bool) : About id (.frame (.data id endStream))
  | dataChunk (bytes : Bytes) : About id (.dataChunk id bytes)
  | streamClose : About id (.streamClose id)

theorem H2Event.about {id : Nat} (event : H2Event) (about : event.stream = some id) : About id event := by
  cases event with
  | frame received => cases received <;> cases about <;> constructor
  | _ => cases about <;> constructor

theorem H2Event.run_goaway {site : Site} {env : H2Env} {last : Nat} {holds : H2Conn → Prop}
    (error : ∀ c id, holds c → holds (c.call env id .error).2) {c : H2Conn} (before : holds c) :
    holds ((H2Event.frame (.goaway last)).run site env c).2 := by
  change holds ((c.pending.filter (· > last)).foldl (fun c id => (c.call env id .error).2) c)
  generalize c.pending.filter (· > last) = ids
  induction ids generalizing c with
  | nil => exact before
  | cons id ids ih => exact ih (error c id before)

namespace Kept
variable {site : Site} {env : H2Env} {id other : Nat} {c : H2Conn} {after : H2Conn}

theorem refl (c : H2Conn) : Kept env id c c := ⟨.inl rfl, rfl, fun member => member⟩

theorem trans {first second third : H2Conn} (one : Kept env id first second) (two : Kept env id second third) :
    Kept env id first third := by
  refine ⟨?_, two.calls.trans one.calls, fun member => two.resets (one.resets member)⟩
  rcases one.stream with same | ⟨answered, reason⟩ <;> rcases two.stream with same' | ⟨answered', reason'⟩
  · exact .inl (same'.trans same)
  · exact .inr ⟨by rw [answered', same], reason'⟩
  · exact .inr ⟨same'.trans answered, reason⟩
  · exact .inr ⟨by rw [answered', answered, Stream.finish_finish], reason⟩

theorem same (streams : after.streams = c.streams) (log : after.log = c.log)
    (resets : after.resets = c.resets) : Kept env id c after :=
  ⟨.inl (congrFun streams id), by rw [log], fun member => by rwa [resets]⟩

variable (different : id ≠ other)
include different

theorem modify (f : Stream → Stream) : Kept env id c (c.modify other f) :=
  ⟨.inl (c.modify_other f different), rfl, fun member => member⟩

theorem onRequest (f : Request → Request) : Kept env id c (c.onRequest other f) := modify different _

theorem call (hook : AppHook) : Kept env id c (c.call env other hook).2 := by
  have calling := call_calling env other hook c
  refine ⟨(calling.others id different).imp_right fun answered => ⟨answered.1, ?_⟩, ?_, calling.resets id⟩
  · exact ⟨c.clock, other, hook, different.symm, answered.2⟩
  rw [calling.log, callsOf_append]
  simp [callsOf, H2Conn.entry, different.symm]

theorem of_touches {may : Deed → Prop} (touches : Touches env other may c after) : Kept env id c after := by
  induction touches with
  | refl => exact refl c
  | tail _ touch ih =>
    refine ih.trans ?_
    cases touch with
    | edit f => exact onRequest different f
    | call hook => exact call different hook
    | detach => exact modify different _
    | clear => exact (modify different fun _ => {}).trans (same rfl rfl rfl)
    | reset => exact ⟨.inl rfl, rfl, fun member => List.mem_append_left _ member⟩
    | move => exact same rfl rfl rfl

theorem dataChunk (data : Bytes) : Kept env id c (onDataChunkRecv env other data c).2 := by
  unfold onDataChunkRecv
  split
  · exact refl c
  · split
    · exact refl c
    · split
      · exact (onRequest different _).trans (same rfl rfl rfl)
      · have hooked : Kept env id c (c.hookBody env other data).2 :=
          (call different (.read (c.scratch ++ data))).trans (same rfl rfl rfl)
        have noted := hooked.trans (onRequest different (·.setStatus (c.hookBody env other data).1.res))
        dsimp only
        generalize (c.hookBody env other data).2.onRequest other _ = marked at noted ⊢
        have taken : Kept env id c (if (c.hookBody env other data).1.res = resOk then marked.takeScratch other else marked) := by
          split
          · exact (noted.trans (onRequest different _)).trans (same rfl rfl rfl)
          · exact noted
        exact taken.trans (same rfl rfl rfl)

theorem run {event : H2Event} (about : event.stream = some other ∨ event = .free other) :
    Kept env id c (event.run site env c).2 := by
  have marked : ∀ {may after}, (∃ marked, (marked = c ∨ marked = c.onRequest other Request.endStream) ∧
      Touches env other may marked after) → Kept env id c after := by
    rintro may after ⟨marked, rfl | rfl, touches⟩
    · exact of_touches different touches
    · exact (onRequest different _).trans (of_touches different touches)
  rcases about with about | rfl
  · cases event.about about with
    | beginHeaders request =>
      unfold H2Event.run serverOnBeginHeaders
      dsimp only
      split
      · exact (modify different fun _ => ⟨some (h2StreamNew env _ c), true⟩).trans (same rfl rfl rfl)
      · exact refl c
    | header name value =>
      exact of_touches different (Touches.onHeader name value)
    | headers endHeaders endStream =>
      exact marked (Touches.headersFrame endHeaders endStream)
    | data endStream =>
      exact @marked (fun _ => True) _ (Touches.dataFrame trivial (fun _ _ => trivial) trivial trivial endStream)
    | dataChunk data =>
      exact dataChunk different data
    | streamClose =>
      have closed : Touches env other (fun _ => True) c (serverOnStreamClose env other c).2 := .streamClose trivial trivial
      exact of_touches different closed
  · unfold H2Event.run
    dsimp only
    split
    · have freed : Touches env other (fun _ => True) c (h2RequestFree env other c) := .free trivial trivial
      exact of_touches different freed
    · exact refl c

end Kept

/-- What the events that are not about a stream preserve: it is kept, and GOAWAY calls the hook for errors. -/
theorem H2Event.run_elsewhere {site : Site} {env : H2Env} {id : Nat} {event : H2Event} {holds : H2Conn → Prop}
    (kept : ∀ c after, Kept env id c after → holds c → holds after)
    (error : ∀ c, holds c → holds (c.call env id .error).2)
    (acts : ∀ actions c, event = .act actions → holds c → holds (runH2Actions actions c))
    (elsewhere : event.stream ≠ some id) (notFreed : event ≠ .free id) {c : H2Conn} (before : holds c) :
    holds (event.run site env c).2 := by
  have about : ∀ other, event.stream = some other ∨ event = .free other → holds (event.run site env c).2 := by
    intro other about
    have different : id ≠ other := by
      rintro rfl
      exact about.elim elsewhere notFreed
    exact kept _ _ (Kept.run different about) before
  cases event with
  | beginHeaders other request => exact about other (.inl rfl)
  | header other name value => exact about other (.inl rfl)
  | frame received =>
    cases received with
    | headers other endHeaders endStream => exact about other (.inl rfl)
    | data other endStream => exact about other (.inl rfl)
    | goaway last =>
      refine run_goaway (fun c other before => ?_) before
      by_cases same : id = other
      · exact same ▸ error c before
      · exact kept _ _ (Kept.call same .error) before
    | other => exact before
  | dataChunk other data => exact about other (.inl rfl)
  | streamClose other => exact about other (.inl rfl)
  | act actions => exact acts actions c rfl before
  | free other => exact about other (.inr rfl)

structure Session.Fresh (s : Session) : Prop where
  phase : ∀ id, s.phase id = .idle
  streams : ∀ id, s.conn.streams id = {}
  scratch : s.conn.scratch = []
  bodyBytesRead : s.conn.bodyBytesRead = 0
  log : s.conn.log = []
  pieces : s.conn.pieces = []

/-- What a step of a session does: the callback succeeds, and nghttp2 has gone on with the stream. -/
structure Session.Stepped (site : Site) (env : H2Env) (s : Session) (event : H2Event) (after : Session) : Prop where
  ran : event.run site env s.conn = (0, after.conn)
  delivered : ∀ id, event.delivers = some id → id ∉ s.conn.resets
  phase : ∀ id, event.stream = some id → event.advance id (s.phase id) = some (after.phase id)
  others : ∀ id, event.stream ≠ some id → after.phase id = s.phase id

variable {site : Site} {env : H2Env} {s after : Session} {event : H2Event} {id : Nat}

theorem Session.step_stepped {site : Site} {env : H2Env} {s after : Session} {event : H2Event}
    (taken : s.step site env event = some after) : s.Stepped site env event after := by
  unfold Session.step at taken
  split at taken
  · cases taken
  · next alive =>
    have delivered : ∀ id, event.delivers = some id → id ∉ s.conn.resets := by
      intro id delivers member
      simp [delivers, member] at alive
    split at taken
    · next nobody =>
      dsimp only at taken
      split at taken
      · next ok =>
        cases taken
        refine ⟨Prod.ext ok rfl, delivered, fun id about => ?_, fun _ _ => rfl⟩
        rw [nobody] at about
        cases about
      · cases taken
    · next id stream =>
      split at taken
      · cases taken
      · next phase advanced =>
        dsimp only at taken
        split at taken
        · next ok =>
          cases taken
          refine ⟨Prod.ext ok rfl, delivered, fun other about => ?_, fun other different => if_neg ?_⟩
          · rw [stream] at about
            cases about
            simpa using advanced
          · rintro rfl
            exact different stream
        · cases taken

theorem Session.Stepped.conn (stepped : s.Stepped site env event after) : after.conn = (event.run site env s.conn).2 := by
  rw [stepped.ran]

theorem H2Event.advance_begun (phase : Phase) (about : event.stream = some id) : event.advance id phase ≠ some .idle := by
  cases event.about about with
  | beginHeaders request =>
    cases phase <;> cases request <;> simp [H2Event.advance]
  | header name value =>
    cases phase <;> simp [H2Event.advance]
  | headers endHeaders endStream =>
    cases phase <;> cases endHeaders <;> cases endStream <;> simp [H2Event.advance]
  | data endStream =>
    cases phase <;> cases endStream <;> simp [H2Event.advance]
  | dataChunk data =>
    cases phase <;> simp [H2Event.advance]
  | streamClose =>
    cases phase <;> simp [H2Event.advance]

theorem Session.Stepped.idle
    (stepped : s.Stepped site env event after) (idle : after.phase id = .idle) :
    event.stream ≠ some id ∧ s.phase id = .idle := by
  by_cases about : event.stream = some id
  · exact absurd (idle ▸ stepped.phase id about) (H2Event.advance_begun _ about)
  · exact ⟨about, stepped.others id about ▸ idle⟩

theorem Session.Reaches.invariant {allowed : Session → H2Event → Prop} {start : Session}
    {holds : Session → Prop} (reached : Session.Reaches site env allowed start s) (first : holds start)
    (step : ∀ s event after, allowed s event → s.Stepped site env event after → holds s → holds after) : holds s :=
  Runs.Reaches.invariant reached first fun held allowed taken => step _ _ _ allowed (step_stepped taken) held

theorem Session.Reaches.steps {allowed : Session → H2Event → Prop} {start : Session}
    {events : List H2Event} (reached : Session.Reaches site env allowed start s)
    (always : ∀ event ∈ events, ∀ between : Session, allowed between event) (taken : s.steps site env events = some after) :
    Session.Reaches site env allowed start after := by
  induction events generalizing s with
  | nil =>
    cases taken
    exact reached
  | cons event events ih =>
    obtain ⟨next, first, rest⟩ := Option.bind_eq_some_iff.mp taken
    exact ih (.step reached (always event List.mem_cons_self s) first)
      (fun event member => always event (List.mem_cons_of_mem _ member)) rest

def plainSite : Site where
  htp _ := {}
  regexec _ _ := none

def plainH2 : H2Env where
  app _ _ _ := {}
  cached _ := none

/-- The header block of a request for `/`, with all that nghttp2 asks of one. -/
def headOf (id : Nat) (method : String) (fields : List (String × String)) : List H2Event :=
  .beginHeaders id true :: ([(":method", method), (":scheme", "https"), (":path", "/")] ++ fields).map
    fun field => .header id (ascii field.1) (ascii field.2)

theorem mem_headOf {id : Nat} {method : String} {fields : List (String × String)} {event : H2Event}
    (member : event ∈ headOf id method fields) : event = .beginHeaders id true ∨ ∃ name value, event = .header id name value := by
  rcases List.mem_cons.mp member with begins | member
  · exact .inl begins
  · obtain ⟨field, -, rfl⟩ := List.mem_map.mp member
    exact .inr ⟨_, _, rfl⟩

theorem fresh_session : ({} : Session).Fresh := ⟨fun _ => rfl, fun _ => rfl, rfl, rfl, rfl, rfl⟩

end Evhtp
