import Evhtp.Proofs.H2Calls

/-! Bodies on an HTTP/2 connection. Each stream ought to have a buffer of its own; there is one scratch
buffer for all of them. It is as good as long as no other stream has left anything in it. -/

namespace Evhtp

def SameBody (before request : Request) : Prop := request.bufferIn = before.bufferIn

theorem sameBody_steady : Steady SameBody where
  refl _ := rfl
  trans one two := Eq.trans two one
  finish _ := rfl

theorem sameBody_stores {env : H2Env} : Stores env SameBody := fun _ => rfl

theorem sameBody_edits {may : Deed → Prop} : Edits may SameBody := fun edited _ => edited.bufferIn

/-- Nothing happens to bodies: what is in the buffer of a request was there before. -/
structure BodiesKept (c after : H2Conn) : Prop where
  scratch : after.scratch = c.scratch
  pieces : after.pieces = c.pieces
  maxBodySize : after.maxBodySize = c.maxBodySize
  bodyBytesRead : after.bodyBytesRead = c.bodyBytesRead
  buffers : ∀ id, Carried SameBody id c after

namespace BodiesKept
variable {site : Site} {env : H2Env} {id : Nat} {c : H2Conn} {after : H2Conn}

theorem refl (c : H2Conn) : BodiesKept c c := ⟨rfl, rfl, rfl, rfl, fun _ => sameBody_steady.carried_refl c⟩

theorem trans {first second third : H2Conn} (one : BodiesKept first second) (two : BodiesKept second third) :
    BodiesKept first third :=
  ⟨two.scratch.trans one.scratch, two.pieces.trans one.pieces, two.maxBodySize.trans one.maxBodySize,
    two.bodyBytesRead.trans one.bodyBytesRead, fun id => sameBody_steady.carried_trans (one.buffers id) (two.buffers id)⟩

theorem acts {targets : Nat → Prop} (acts : H2Conn.Acts targets c after) : BodiesKept c after :=
  ⟨acts.scratch, acts.pieces, acts.maxBodySize, acts.bodyBytesRead, fun id =>
    sameBody_steady.carried_finish (acts.streams id)⟩

theorem call (hook : AppHook) : BodiesKept c (c.call env id hook).2 := by
  have calling := call_calling env id hook c
  exact ⟨calling.scratch, calling.pieces, calling.maxBodySize, calling.bodyBytesRead, fun _ =>
    sameBody_steady.carried_call sameBody_stores hook⟩

theorem onRequest (f : Request → Request) (keeps : ∀ request, (f request).bufferIn = request.bufferIn) :
    BodiesKept c (c.onRequest id f) :=
  ⟨rfl, rfl, rfl, rfl, fun _ => sameBody_steady.carried_onRequest f keeps⟩

theorem of_touches {may : Deed → Prop} (touches : Touches env id may c after) : BodiesKept c after := by
  induction touches with
  | refl => exact refl c
  | tail _ touch ih =>
    refine ih.trans ?_
    have buffers : ∀ other, Carried SameBody other _ _ := fun other => sameBody_steady.carried sameBody_stores sameBody_edits (.single touch)
    cases touch with
    | call hook => exact call hook
    | edit | detach | clear | reset | move => exact ⟨rfl, rfl, rfl, rfl, buffers⟩

/-- Only data and the beginning of a request change anything about bodies. -/
theorem run {event : H2Event} (noData : ∀ id data, event ≠ .dataChunk id data) (noBegin : ∀ id, event ≠ .beginHeaders id true) :
    BodiesKept c (event.run site env c).2 := by
  have marked : ∀ {id may after}, (∃ marked, (marked = c ∨ marked = c.onRequest id Request.endStream) ∧
      Touches env id may marked after) → BodiesKept c after := by
    rintro id may after ⟨marked, rfl | rfl, touches⟩
    · exact of_touches touches
    · exact (onRequest Request.endStream fun _ => rfl).trans (of_touches touches)
  cases event with
  | beginHeaders id request =>
    cases request with
    | true => exact absurd rfl (noBegin id)
    | false => exact refl c
  | header id name value => exact of_touches (Touches.onHeader name value)
  | frame received =>
    cases received with
    | headers id endHeaders endStream => exact marked (Touches.headersFrame endHeaders endStream)
    | data id endStream => exact @marked id (fun _ => True) _ (Touches.dataFrame trivial (fun _ _ => trivial) trivial trivial endStream)
    | goaway last => exact H2Event.run_goaway (fun _ _ kept => kept.trans (call .error)) (refl c)
    | other => exact refl c
  | dataChunk id data => exact absurd rfl (noData id data)
  | streamClose id =>
    have closed : Touches env id (fun _ => True) c (serverOnStreamClose env id c).2 := .streamClose trivial trivial
    exact of_touches closed
  | act actions =>
    have answered : H2Conn.Acts (fun _ => True) c (runH2Actions actions c) := runH2Actions_acts (fun _ _ => trivial) c
    exact acts answered
  | free id =>
    have freed : Touches env id (fun _ => True) c (h2RequestFree env id c) := .free trivial trivial
    unfold H2Event.run
    dsimp only
    split
    · exact of_touches freed
    · exact refl c

end BodiesKept

/-- The buffer that a stream ought to have for itself: what its hook has left, which it is given again, and
what went to the request. -/
structure OwnBuffer where
  left : Bytes := []
  kept : Bytes := []
  deriving DecidableEq, Repr

/-- A piece of the body: the hook drains some of what it is given, and the rest is the request's if the hook
returns `EVHTP_RES_OK`. -/
def OwnBuffer.receive (own : OwnBuffer) (piece : H2Piece) : OwnBuffer :=
  match piece.given with
  | none => own
  | some (_, reply) =>
    let rest := (own.left ++ piece.data).drop reply.drain
    if reply.res = resOk then ⟨[], own.kept ++ rest⟩ else ⟨rest, own.kept⟩

def ownBuffer (id : Nat) (pieces : List H2Piece) : OwnBuffer := (pieces.filter (·.stream = id)).foldl OwnBuffer.receive {}

theorem ownBuffer_append (id : Nat) (pieces : List H2Piece) (piece : H2Piece) :
    ownBuffer id (pieces ++ [piece]) =
      if piece.stream = id then (ownBuffer id pieces).receive piece else ownBuffer id pieces := by
  unfold ownBuffer
  rw [List.filter_append, List.foldl_append]
  by_cases own : piece.stream = id
  · simp [own]
  · simp [own]

/-- Bodies do not mix: every hook was given what its own stream had left and its new data, and a request has
what its hook left of its own stream. -/
structure BodiesIsolated (c : H2Conn) : Prop where
  given : ∀ before piece after buf reply, c.pieces = before ++ piece :: after → piece.given = some (buf, reply) →
    buf = (ownBuffer piece.stream before).left ++ piece.data
  kept : ∀ id request, (c.streams id).request = some request → request.bufferIn = (ownBuffer id c.pieces).kept

/-- The invariant behind it: what is in the scratch buffer is of one stream, and no other has left anything. -/
structure Unmixed (s : Session) : Prop extends BodiesIsolated s.conn where
  idle : ∀ id, s.phase id = .idle → ∀ piece ∈ s.conn.pieces, piece.stream ≠ id
  owner : ∃ id, s.conn.scratch = (ownBuffer id s.conn.pieces).left ∧
    ∀ other, other ≠ id → (ownBuffer other s.conn.pieces).left = []

/-- Data arrives only when no other stream has left any of its own in the scratch buffer. -/
def OthersDrained (s : Session) (event : H2Event) : Prop :=
  ∀ id data, event = .dataChunk id data → ∀ other, other ≠ id → (ownBuffer other s.conn.pieces).left = []

/-- Data that was given to the hook: what is not drained goes to the request, or stays in the scratch buffer. -/
structure Received (id : Nat) (data : Bytes) (c : H2Conn) (reply : H2Reply) (after : H2Conn) : Prop where
  pieces : after.pieces = c.pieces ++ [⟨id, data, some (c.scratch ++ data, reply)⟩]
  scratch : after.scratch = if reply.res = resOk then [] else (c.scratch ++ data).drop reply.drain
  maxBodySize : after.maxBodySize = c.maxBodySize
  bodyBytesRead : after.bodyBytesRead = c.bodyBytesRead + data.length
  own : ∀ request, (after.streams id).request = some request →
    ∃ before, (c.streams id).request = some before ∧
      request.bufferIn = before.bufferIn ++ if reply.res = resOk then (c.scratch ++ data).drop reply.drain else []
  others : ∀ other request, other ≠ id → (after.streams other).request = some request →
    ∃ before, (c.streams other).request = some before ∧ request.bufferIn = before.bufferIn

section
variable {env : H2Env} {id : Nat} {data : Bytes} {c : H2Conn}

theorem takeScratch_own {request : Request} (here : ((c.takeScratch id).streams id).request = some request) :
    ∃ before, (c.streams id).request = some before ∧ request.bufferIn = before.bufferIn ++ c.scratch := by
  change ((c.onRequest id _).streams id).request = some request at here
  unfold H2Conn.onRequest at here
  rw [H2Conn.modify_self] at here
  obtain ⟨before, found, rfl⟩ := Option.map_eq_some_iff.mp here
  exact ⟨before, found, rfl⟩

theorem takeScratch_other {other : Nat} (different : other ≠ id) : (c.takeScratch id).streams other = c.streams other :=
  if_neg different

/-- A callback that takes data either drops it, as the request is answered, or gives it to the hook. -/
theorem dataChunk_received {after : H2Conn} (ran : onDataChunkRecv env id data c = (0, after)) :
    after = c ∨ ∃ reply, Received id data c reply after := by
  unfold onDataChunkRecv at ran
  split at ran
  · cases ran
  · split at ran
    · cases ran
      exact .inl rfl
    · split at ran
      · cases ran
      · refine .inr ⟨(c.hookBody env id data).1, ?_⟩
        have called : BodiesKept c (c.call env id (.read (c.scratch ++ data))).2 := .call _
        have noted : BodiesKept c ((c.call env id (.read (c.scratch ++ data))).2.onRequest id
            (·.setStatus (c.hookBody env id data).1.res)) := called.trans (.onRequest _ fun _ => rfl)
        have after_eq := (congrArg Prod.snd ran).symm
        dsimp only at after_eq
        split at after_eq
        · next ok =>
          rw [after_eq]
          refine ⟨rfl, (if_pos ok).symm, noted.maxBodySize, congrArg (· + data.length) noted.bodyBytesRead,
            fun request here => ?_, fun other request different here => ?_⟩
          · rw [if_pos ok]
            obtain ⟨middle, there, taken⟩ := takeScratch_own here
            obtain ⟨before, found, same⟩ := noted.buffers id middle there
            exact ⟨before, found, taken.trans (congrArg (· ++ _) same)⟩
          · change ((H2Conn.takeScratch _ id).streams other).request = some request at here
            rw [takeScratch_other different] at here
            exact noted.buffers other request here
        · next paused =>
          rw [after_eq]
          refine ⟨rfl, (if_neg paused).symm, noted.maxBodySize, congrArg (· + data.length) noted.bodyBytesRead,
            fun request here => ?_, fun other request _ here => noted.buffers other request here⟩
          simp only [if_neg paused, List.append_nil]
          exact noted.buffers id request here

/-- A stream whose data arrives has the scratch buffer to itself, if no other stream has left anything. -/
theorem Unmixed.scratch_own {s : Session} (unmixed : Unmixed s)
    (drained : ∀ other, other ≠ id → (ownBuffer other s.conn.pieces).left = []) :
    s.conn.scratch = (ownBuffer id s.conn.pieces).left := by
  obtain ⟨owner, scratch, others⟩ := unmixed.owner
  by_cases same : id = owner
  · rw [same]
    exact scratch
  · rw [scratch, drained owner (Ne.symm same), others id same]

theorem Unmixed.received {s : Session} {reply : H2Reply} {after : H2Conn} {phase : Nat → Phase} (unmixed : Unmixed s)
    (drained : ∀ other, other ≠ id → (ownBuffer other s.conn.pieces).left = [])
    (received : Received id data s.conn reply after)
    (begun : phase id ≠ .idle) (others : ∀ other, other ≠ id → phase other = s.phase other) : Unmixed ⟨after, phase⟩ := by
  have scratch := unmixed.scratch_own drained
  have own : ownBuffer id after.pieces =
      if reply.res = resOk then ⟨[], (ownBuffer id s.conn.pieces).kept ++ (s.conn.scratch ++ data).drop reply.drain⟩
      else ⟨(s.conn.scratch ++ data).drop reply.drain, (ownBuffer id s.conn.pieces).kept⟩ := by
    rw [received.pieces, ownBuffer_append, if_pos rfl, scratch]
    rfl
  have foreign : ∀ other, other ≠ id → ownBuffer other after.pieces = ownBuffer other s.conn.pieces := by
    intro other different
    rw [received.pieces, ownBuffer_append, if_neg different.symm]
  refine { given := ?_, kept := ?_, idle := ?_, owner := ⟨id, ?_, ?_⟩ }
  · intro before piece rest buf given place piece_given
    dsimp only at place
    rw [received.pieces] at place
    rcases split_snoc place with ⟨rfl, rfl⟩ | ⟨rest, earlier⟩
    · cases piece_given
      exact congrArg (· ++ data) scratch
    · exact unmixed.given before piece rest buf given earlier piece_given
  · intro other request here
    by_cases same : other = id
    · subst same
      obtain ⟨before, found, taken⟩ := received.own request here
      rw [own, taken, unmixed.kept _ before found]
      split
      · rfl
      · exact List.append_nil _
    · obtain ⟨before, found, equal⟩ := received.others other request same here
      exact equal.trans ((unmixed.kept other before found).trans (congrArg OwnBuffer.kept (foreign other same).symm))
  · intro other idle piece member
    have different : other ≠ id := by
      rintro rfl
      exact begun idle
    have member : piece ∈ s.conn.pieces ++ [_] := received.pieces ▸ member
    rcases List.mem_append.mp member with old | new
    · exact unmixed.idle other (others other different ▸ idle) piece old
    · rw [List.mem_singleton.mp new]
      exact different.symm
  · rw [received.scratch, own]
    split <;> rfl
  · intro other different
    rw [foreign other different, drained other different]

end

variable {site : Site} {env : H2Env} {id : Nat} {s after : Session}

theorem beginHeaders_buffers {env : H2Env} {id : Nat} {c : H2Conn} :
    ∀ other request, (((serverOnBeginHeaders env id true c).2).streams other).request = some request →
      (other = id ∧ request.bufferIn = []) ∨ (c.streams other).request = some request := by
  intro other request here
  by_cases same : other = id
  · refine .inl ⟨same, ?_⟩
    subst same
    rw [beginHeaders_self] at here
    cases here
    unfold h2StreamNew h2RequestNew
    dsimp only
    split <;> rfl
  · rw [beginHeaders_other env c same] at here
    exact .inr here

theorem Unmixed.kept_of (unmixed : Unmixed s) (kept : BodiesKept s.conn after.conn)
    (begun : ∀ id, after.phase id = .idle → s.phase id = .idle) : Unmixed after := by
  refine { given := ?_, kept := ?_, idle := ?_, owner := ?_ }
  · rw [kept.pieces]
    exact unmixed.given
  · intro id request here
    obtain ⟨before, found, same⟩ := kept.buffers id request here
    rw [same, kept.pieces]
    exact unmixed.kept id before found
  · intro id idle
    rw [kept.pieces]
    exact unmixed.idle id (begun id idle)
  · rw [kept.pieces, kept.scratch]
    exact unmixed.owner

theorem Unmixed.begin (unmixed : Unmixed s) (stepped : s.Stepped site env (.beginHeaders id true) after) : Unmixed after := by
  have conn : after.conn = (serverOnBeginHeaders env id true s.conn).2 := stepped.conn
  have pieces : after.conn.pieces = s.conn.pieces := by rw [conn]; rfl
  have scratch : after.conn.scratch = s.conn.scratch := by rw [conn]; rfl
  have fresh : s.phase id = .idle := by
    have advanced := stepped.phase id rfl
    cases phase : s.phase id <;> simp [H2Event.advance, phase] at advanced ⊢
  refine { given := pieces ▸ unmixed.given, kept := fun other request here => ?_, idle := fun other idle => ?_,
           owner := pieces ▸ scratch ▸ unmixed.owner }
  · rw [conn] at here
    rw [pieces]
    rcases beginHeaders_buffers other request here with ⟨rfl, empty⟩ | before
    · have none : s.conn.pieces.filter (·.stream = other) = [] := by
        apply List.filter_eq_nil_iff.mpr
        intro piece member
        simpa using unmixed.idle other fresh piece member
      unfold ownBuffer
      rw [empty, none]
      rfl
    · exact unmixed.kept other request before
  · rw [pieces]
    exact unmixed.idle other (stepped.idle idle).2

theorem unmixed_step {event : H2Event} (allowed : OthersDrained s event)
    (stepped : s.Stepped site env event after) (unmixed : Unmixed s) : Unmixed after := by
  by_cases data : ∃ id data, event = .dataChunk id data
  · obtain ⟨id, data, rfl⟩ := data
    rcases dataChunk_received stepped.ran with same | ⟨reply, received⟩
    · exact unmixed.kept_of (same ▸ .refl _) fun id idle => (stepped.idle idle).2
    · refine unmixed.received (allowed id data rfl) received (fun idle => (stepped.idle idle).1 rfl) fun other different => ?_
      apply stepped.others
      exact fun same => different (Option.some.inj same).symm
  · by_cases begins : ∃ id, event = .beginHeaders id true
    · obtain ⟨id, rfl⟩ := begins
      exact unmixed.begin stepped
    · refine unmixed.kept_of ?_ fun id idle => (stepped.idle idle).2
      rw [stepped.conn]
      exact .run (fun id chunk equal => data ⟨id, chunk, equal⟩) fun id equal => begins ⟨id, equal⟩

theorem unmixed_fresh (fresh : s.Fresh) : Unmixed s := by
  refine { given := ?_, kept := ?_, idle := ?_, owner := ⟨0, ?_, ?_⟩ }
  · intro before piece after buf reply place
    rw [fresh.pieces] at place
    simp at place
  · intro id request here
    rw [fresh.streams id] at here
    cases here
  · intro id _ piece member
    rw [fresh.pieces] at member
    cases member
  · rw [fresh.scratch, fresh.pieces]
    rfl
  · intro other _
    rw [fresh.pieces]
    rfl

/-- Bodies do not mix on any connection on which data arrives only when no other stream has left any of its
own in the scratch buffer. -/
theorem h2_bodies_isolated (site : Site) (env : H2Env) {start s : Session} (fresh : start.Fresh)
    (reached : Session.Reaches site env OthersDrained start s) : BodiesIsolated s.conn :=
  (reached.invariant (unmixed_fresh fresh) fun _ _ _ => unmixed_step).toBodiesIsolated

def openUploads : List H2Event :=
  headOf 1 "POST" [] ++ .frame (.headers 1 true false) :: headOf 3 "POST" [] ++ [.frame (.headers 3 true false)]

def uploadData : List H2Event := [.dataChunk 1 (ascii "secret"), .dataChunk 3 (ascii "x")]

theorem h2_bodies_isolated_uploads :
    ∃ s, Session.Reaches plainSite plainH2 OthersDrained {} s ∧
      s.conn.pieces.map H2Piece.stream = [1, 3] ∧ BodiesIsolated s.conn := by
  have opened : ((({} : Session).steps plainSite plainH2 openUploads).map (·.conn.pieces)) = some [] := by decide +kernel
  obtain ⟨two, opened, none⟩ := Option.map_eq_some_iff.mp opened
  have data : (({} : Session).steps plainSite plainH2 openUploads).bind (fun s =>
      (s.step plainSite plainH2 (.dataChunk 1 (ascii "secret"))).bind fun one =>
        (one.step plainSite plainH2 (.dataChunk 3 (ascii "x"))).map fun s => (one.conn.pieces, s.conn.pieces)) =
      some ([⟨1, ascii "secret", some (ascii "secret", {})⟩],
        [⟨1, ascii "secret", some (ascii "secret", {})⟩, ⟨3, ascii "x", some (ascii "x", {})⟩]) := by
    decide +kernel
  rw [opened, Option.bind_some] at data
  obtain ⟨one, first, data⟩ := Option.bind_eq_some_iff.mp data
  obtain ⟨s, second, pieces⟩ := Option.map_eq_some_iff.mp data
  obtain ⟨earlier, later⟩ := Prod.mk.inj pieces
  have reached : Session.Reaches plainSite plainH2 OthersDrained {} s := by
    refine .step (.step (Session.Reaches.steps .start ?_ opened) ?_ first) ?_ second
    · intro event member s id data equal
      subst equal
      simp [openUploads, headOf] at member
    · intro id data _ other _
      rw [none]
      rfl
    · intro id data equal other different
      cases equal
      rw [earlier]
      by_cases own : other = 1
      · subst own
        decide
      · simp [ownBuffer, Ne.symm own]
  refine ⟨s, reached, ?_, h2_bodies_isolated plainSite plainH2 fresh_session reached⟩
  rw [later]
  rfl

def waitingH2 : H2Env where
  app _ stream hook :=
    match hook with
    | .read _ => if stream = 1 then { res := resPause } else {}
    | _ => {}
  cached _ := none

/-- What one upload has left is given to the hook of another and becomes part of its body. -/
theorem h2_bodies_mixed :
    ∃ s, Session.Reaches plainSite waitingH2 (fun _ _ => True) {} s ∧ ¬ BodiesIsolated s.conn ∧
      (s.conn.streams 3).request.map (·.bufferIn) = some (ascii "secretx") := by
  have run : ((({} : Session).steps plainSite waitingH2 (openUploads ++ uploadData)).map fun s =>
      ((s.conn.streams 3).request.map (·.bufferIn), (ownBuffer 3 s.conn.pieces).kept)) =
      some (some (ascii "secretx"), ascii "x") := by
    decide +kernel
  obtain ⟨s, taken, seen⟩ := Option.map_eq_some_iff.mp run
  obtain ⟨buffer, own⟩ := Prod.mk.inj seen
  refine ⟨s, Session.Reaches.steps .start (fun _ _ _ => trivial) taken, fun isolated => ?_, buffer⟩
  obtain ⟨request, here, mixed⟩ := Option.map_eq_some_iff.mp buffer
  have pure := isolated.kept 3 request here
  rw [own, mixed] at pure
  revert pure
  decide

end Evhtp
