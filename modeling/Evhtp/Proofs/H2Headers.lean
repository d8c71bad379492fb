import Evhtp.Proofs.H2Calls

/-! Headers on an HTTP/2 connection. nghttp2 delivers the header blocks of many streams, with the calls of the
application between them. The headers of a request are those that came on its own stream, in their order. -/

namespace Evhtp

/-- The header that an event adds to the request of a stream; `:authority` is the only pseudo-header that becomes one. -/
def H2Event.headerOf (id : Nat) : H2Event → Option NullKv
  | .header stream name value =>
    if stream ≠ id then none
    else if name.head? ≠ some 58 then some ⟨cString name, some (cString value)⟩
    else if name = ascii ":authority" then some ⟨ascii "host", some (cString value)⟩
    else none
  | _ => none

/-- The phases in which nghttp2 may still deliver headers. -/
def Phase.Open (phase : Phase) : Prop := phase = .head ∨ phase = .body ∨ phase = .trailers

/-- The request of a stream, if there is one, has certain headers, and nghttp2 knows it while the stream is open. -/
def H2Conn.Bears (id : Nat) (headers : Option (List NullKv)) (opened : Prop) (c : H2Conn) : Prop :=
  ∀ request, (c.streams id).request = some request → headers = some request.headersIn ∧ (opened → (c.streams id).attached = true)

namespace H2Conn.Bears
variable {site : Site} {env : H2Env} {id : Nat} {headers : Option (List NullKv)} {opened : Prop} {c after : H2Conn}

theorem mono {later : Prop} (bears : c.Bears id headers opened) (implies : later → opened) : c.Bears id headers later := by
  intro request here
  obtain ⟨same, attached⟩ := bears request here
  exact ⟨same, fun still => attached (implies still)⟩

theorem map {f : Request → Request} {headers' : Option (List NullKv)} (bears : c.Bears id headers opened)
    (mapped : after.streams id = { c.streams id with request := (c.streams id).request.map f })
    (becomes : ∀ request, headers = some request.headersIn → headers' = some (f request).headersIn) :
    after.Bears id headers' opened := by
  intro request here
  rw [mapped] at here ⊢
  obtain ⟨before, found, rfl⟩ := Option.map_eq_some_iff.mp here
  obtain ⟨same, attached⟩ := bears before found
  exact ⟨becomes before same, attached⟩

theorem onRequest (bears : c.Bears id headers opened) {f : Request → Request}
    (keeps : ∀ request, (f request).headersIn = request.headersIn) : (c.onRequest id f).Bears id headers opened := by
  apply bears.map (c.modify_self id _)
  intro request same
  rw [same, keeps]

theorem append {received : List NullKv} (bears : c.Bears id (some received) opened) (kv : NullKv) :
    (c.onRequest id fun request => { request with headersIn := request.headersIn ++ [kv] }).Bears id (some (received ++ [kv])) opened := by
  apply bears.map (c.modify_self id _)
  intro request same
  rw [Option.some.inj same]

theorem cleared {pending : List Nat} : H2Conn.Bears id headers opened { c.modify id fun _ => {} with pending } := by
  intro request here
  change ((c.modify id fun _ => {}).streams id).request = some request at here
  rw [H2Conn.modify_self] at here
  cases here

theorem free : (h2RequestFree env id c).Bears id headers opened := cleared

section
variable (bears : c.Bears id headers opened)
include bears

theorem finish {answers : Prop}
    (either : after.streams id = c.streams id ∨ (after.streams id = (c.streams id).finish ∧ answers)) :
    after.Bears id headers opened := by
  rcases either with same | ⟨answered, _⟩
  · intro request here
    rw [same] at here ⊢
    exact bears request here
  · exact bears.map answered fun _ same => same

theorem call (hook : AppHook) : (c.call env id hook).2.Bears id headers opened := by
  have stored : (c.modify id (·.store (c.call env id hook).1.handler)).Bears id headers opened := by
    rw [← H2Conn.store_eq]
    cases (c.call env id hook).1.handler with
    | none => exact bears
    | some handler => exact bears.onRequest fun _ => rfl
  apply stored.finish
  rw [H2Conn.modify_self]
  exact (call_calling env id hook c).own

/-- What callbacks do to a request without adding a header to it. -/
theorem touches (touches : Touches env id Deed.KeepsHeaders c after) : after.Bears id headers opened := by
  induction touches with
  | refl => exact bears
  | tail _ touch ih =>
    cases touch with
    | edit f _ _ heads => exact ih.onRequest (heads.resolve_left fun adds => adds.1 rfl)
    | call hook => exact ih.call hook
    | detach detaches => exact absurd rfl detaches.2
    | clear => exact cleared
    | reset | move => exact ih

theorem headersFrame (endHeaders endStream : Bool) :
    (handleH2HeadersFrame site env id endHeaders endStream c).2.Bears id headers opened := by
  obtain ⟨marked, rfl | rfl, touches⟩ := @Touches.headersFrame site env id c endHeaders endStream
  · exact bears.touches touches
  · apply Bears.touches _ touches
    exact bears.onRequest fun _ => rfl

theorem dataFrame (endStream : Bool) :
    (handleH2DataFrame env id endStream c).2.Bears id headers (opened ∧ endStream = false) := by
  have marked : (c.onRequest id Request.endStream).Bears id headers opened := bears.onRequest fun _ => rfl
  unfold handleH2DataFrame
  split
  · next ended =>
    split
    · exact bears.mono And.left
    · dsimp only
      split
      · exact marked.mono And.left
      · refine touches ?_ (.dispatch (fun _ _ => ⟨nofun, nofun⟩) ⟨nofun, nofun⟩ ⟨nofun, nofun⟩)
        apply onRequest
        · intro request here
          rw [H2Conn.modify_self] at here
          exact ⟨(marked request here).1, fun still => absurd (ended.symm.trans still.2) (by decide)⟩
        · intro request
          split
          · exact queryFromBody_headersIn request
          · rfl
  · exact bears.mono And.left

theorem dataChunk (data : Bytes) : (onDataChunkRecv env id data c).2.Bears id headers opened := by
  unfold onDataChunkRecv
  split
  · exact bears
  · split
    · exact bears
    · split
      · exact bears.onRequest (f := (·.setStatus resDataTooLong)) fun _ => rfl
      · have called : (c.hookBody env id data).2.Bears id headers opened := bears.call (.read (c.scratch ++ data))
        have noted := called.onRequest (f := (·.setStatus (c.hookBody env id data).1.res)) fun _ => rfl
        dsimp only
        split
        · exact noted.onRequest (f := fun request => { request with bufferIn := request.bufferIn ++ (c.hookBody env id data).2.scratch })
            fun _ => rfl
        · exact noted

theorem elsewhere {event : H2Event} (elsewhere : event.stream ≠ some id) :
    (event.run site env c).2.Bears id headers opened := by
  by_cases freed : event = .free id
  · subst freed
    unfold H2Event.run
    dsimp only
    split
    · exact free
    · exact bears
  · apply H2Event.run_elsewhere _ _ _ elsewhere freed bears
    · intro c after kept bears
      exact bears.finish kept.stream
    · intro c bears
      exact bears.call .error
    · intro actions c _ bears
      have acts : H2Conn.Acts (fun _ => True) c (runH2Actions actions c) := runH2Actions_acts (fun _ _ => trivial) c
      exact bears.finish (acts.streams id)

end

theorem pseudoHeader {received : List NullKv} (bears : c.Bears id (some received) opened) (name value : Bytes) :
    (onPseudoHeader site env id name value c).2.Bears id
      (some (received ++ (if name = ascii ":authority" then some ⟨ascii "host", some (cString value)⟩ else none).toList)) opened := by
  by_cases authority : name = ascii ":authority"
  · subst authority
    unfold onPseudoHeader
    rw [if_pos rfl, if_pos rfl, if_neg (by decide), if_neg (by decide), if_neg (by decide)]
    exact bears.append _
  · rw [if_neg authority, Option.toList_none, List.append_nil]
    unfold onPseudoHeader
    rw [if_neg authority]
    split
    · exact bears.onRequest fun _ => rfl
    · split
      · exact bears.touches (.onPath value ⟨nofun, nofun⟩ ⟨nofun, nofun⟩)
      · split
        · exact bears.onRequest fun _ => rfl
        · exact bears

theorem header {received : List NullKv} {name value : Bytes} (bears : c.Bears id (some received) opened) (isOpen : opened)
    (ran : serverOnHeader site env id name value c = (0, after)) :
    after.Bears id (some (received ++ (H2Event.headerOf id (.header id name value)).toList)) opened := by
  unfold serverOnHeader at ran
  split at ran
  · next gone =>
    cases ran
    intro request here
    unfold H2Conn.userData at gone
    rw [if_pos ((bears request here).2 isOpen), here] at gone
    cases gone
  · next request _ =>
    split at ran
    · next pseudo =>
      have added : (onPseudoHeader site env id name value c).2.Bears id _ opened := bears.pseudoHeader name value
      rw [ran] at added
      simpa [H2Event.headerOf, pseudo] using added
    · next regular =>
      dsimp only at ran
      split at ran
      · cases ran
        have started : (headersStart env id request c).2.Bears id _ opened :=
          bears.touches (.headersStart ⟨nofun, nofun⟩ request)
        apply call
        simpa [H2Event.headerOf, regular] using started.append ⟨cString name, some (cString value)⟩
      · cases ran

end H2Conn.Bears

/-- Only the beginning of a request opens a stream. -/
theorem H2Event.advance_open {event : H2Event} {id : Nat} {phase next : Phase} (about : event.stream = some id)
    (advanced : event.advance id phase = some next) :
    (phase = .idle ∧ event = .beginHeaders id true) ∨ (phase ≠ .idle ∧ (next.Open → phase.Open)) := by
  cases event.about about
  all_goals grind [H2Event.advance, Phase.Open]

theorem H2Event.headerOf_elsewhere {event : H2Event} {id : Nat} (elsewhere : event.stream ≠ some id) : event.headerOf id = none := by
  cases event with
  | header stream name value => exact if_pos fun same => elsewhere (congrArg some same)
  | _ => rfl

/-- The request of a stream has the headers that were received on it. -/
structure Session.HeadersOf (id : Nat) (received : List NullKv) (s : Session) : Prop where
  fresh : s.phase id = .idle → received = []
  bears : s.conn.Bears id (if s.phase id = .idle then none else some received) (s.phase id).Open

section
variable {site : Site} {env : H2Env} {id : Nat} {received : List NullKv} {s after : Session} {event : H2Event}

theorem Session.HeadersOf.begins (stepped : s.Stepped site env (.beginHeaders id true) after) :
    after.conn.Bears id (some []) (after.phase id).Open := by
  have stream : after.conn.streams id = ⟨some (h2StreamNew env id s.conn), true⟩ :=
    stepped.conn ▸ beginHeaders_self env id s.conn
  intro request here
  rw [stream] at here ⊢
  cases here
  refine ⟨?_, fun _ => rfl⟩
  unfold h2StreamNew h2RequestNew
  dsimp only
  split <;> rfl

theorem Session.HeadersOf.about (held : s.HeadersOf id received) (stepped : s.Stepped site env event after)
    (about : event.stream = some id) :
    after.conn.Bears id (some (received ++ (event.headerOf id).toList)) (after.phase id).Open := by
  have advanced := stepped.phase id about
  rcases H2Event.advance_open about advanced with ⟨idle, rfl⟩ | ⟨begun, still⟩
  · rw [held.fresh idle]
    exact begins stepped
  · have bears := held.bears
    rw [if_neg begun] at bears
    have silent : event.headerOf id = none → (event.run site env s.conn).2.Bears id (some received) (after.phase id).Open →
        after.conn.Bears id (some (received ++ (event.headerOf id).toList)) (after.phase id).Open := by
      intro none after
      rw [none, Option.toList_none, List.append_nil, stepped.conn]
      exact after
    cases event.about about with
    | header name value =>
      have isOpen : (s.phase id).Open := by
        grind [H2Event.advance, Phase.Open]
      exact (bears.header isOpen stepped.ran).mono still
    | data endStream =>
      apply silent rfl
      apply (bears.dataFrame endStream).mono
      intro later
      grind [H2Event.advance, Phase.Open]
    | headers endHeaders endStream => exact silent rfl ((bears.headersFrame endHeaders endStream).mono still)
    | dataChunk data => exact silent rfl ((bears.dataChunk data).mono still)
    | beginHeaders request =>
      cases request with
      | true => grind [H2Event.advance]
      | false => exact silent rfl (bears.mono still)
    | streamClose =>
      apply silent rfl
      unfold H2Event.run serverOnStreamClose
      dsimp only
      split
      · exact H2Conn.Bears.free
      · exact bears.mono still

theorem Session.HeadersOf.step (held : s.HeadersOf id received) (stepped : s.Stepped site env event after) :
    after.HeadersOf id (received ++ (event.headerOf id).toList) := by
  by_cases about : event.stream = some id
  · have begun : after.phase id ≠ .idle := fun idle => (stepped.idle idle).1 about
    refine ⟨fun idle => absurd idle begun, ?_⟩
    rw [if_neg begun]
    exact held.about stepped about
  · rw [H2Event.headerOf_elsewhere about, Option.toList_none, List.append_nil]
    have same := stepped.others id about
    refine ⟨fun idle => held.fresh (same ▸ idle), ?_⟩
    rw [same, stepped.conn]
    exact held.bears.elsewhere about

theorem Session.HeadersOf.steps {events : List H2Event} (held : s.HeadersOf id received)
    (ran : s.steps site env events = some after) : after.HeadersOf id (received ++ events.filterMap (H2Event.headerOf id)) := by
  induction events generalizing s received with
  | nil =>
    cases ran
    simpa using held
  | cons event events ih =>
    obtain ⟨next, first, rest⟩ := Option.bind_eq_some_iff.mp ran
    have later := ih (held.step (step_stepped first)) rest
    cases header : event.headerOf id <;> simpa [header] using later

/-- Whatever happens on the other streams, and whatever the application does, a request has the headers that
were received on its own stream, and no others. -/
theorem headers_of_stream {start : Session} {events : List H2Event} {request : Request} (fresh : start.Fresh)
    (ran : start.steps site env events = some s) (here : (s.conn.streams id).request = some request) :
    request.headersIn = events.filterMap (H2Event.headerOf id) := by
  have first : start.HeadersOf id [] := by
    refine ⟨fun _ => rfl, fun request here => ?_⟩
    rw [fresh.streams id] at here
    cases here
  obtain ⟨same, _⟩ := (first.steps ran).bears request here
  split at same
  · cases same
  · exact (Option.some.inj same).symm

/-- The trailers of a request come after the head of another one. -/
def mixedHeaders : List H2Event :=
  headOf 1 "GET" [(":authority", "h"), ("a", "1")] ++ .frame (.headers 1 true false) ::
    headOf 3 "GET" [("b", "2")] ++ [.frame (.headers 3 true false),
      .beginHeaders 1 false, .header 1 (ascii "c") (ascii "3"), .frame (.headers 1 true true)]

theorem headers_of_stream_mixed : ∃ s request, ({} : Session).steps plainSite plainH2 mixedHeaders = some s ∧
    (s.conn.streams 1).request = some request ∧ request.headersIn =
      [⟨ascii "host", some (ascii "h")⟩, ⟨ascii "a", some (ascii "1")⟩, ⟨ascii "c", some (ascii "3")⟩] := by
  have run : ((({} : Session).steps plainSite plainH2 mixedHeaders).bind fun s => (s.conn.streams 1).request).isSome = true := by
    decide +kernel
  obtain ⟨request, found⟩ := Option.isSome_iff_exists.mp run
  obtain ⟨s, ran, here⟩ := Option.bind_eq_some_iff.mp found
  exact ⟨s, request, ran, here, (headers_of_stream fresh_session ran here).trans (by decide)⟩

end

end Evhtp
