import Evhtp.Proofs.H2Calls

/-! Which failures of one stream end the whole HTTP/2 connection: nghttp2 gives up when a callback returns
another value than 0, and the connection is freed with all its streams. -/

namespace Evhtp

theorem uriSetQuery_none (uri : Uri) (query : Bytes) (flags : QueryFlags) :
    uriSetQuery uri query flags = none ↔ uriSetQuery {} query flags = none := by
  unfold uriSetQuery
  simp only [Option.map_eq_none_iff]

def StartFails (env : H2Env) (id : Nat) (request : Request) (c : H2Conn) : Prop :=
  request.flags.hdrsStart = false ∧ (env.app c.clock id .headersStart).res ≠ resOk

/-- A `:path` with a query that cannot be parsed, or the first header, if the hook before it fails. -/
def HeaderFaults (site : Site) (env : H2Env) (id : Nat) (name value : Bytes) (request : Request) (c : H2Conn) : Prop :=
  (name = ascii ":path" ∧ ∃ query, (splitTarget value).2 = some query ∧
    uriSetQuery {} query (site.htp c.htp).parserFlags = none) ∨
  (name.head? ≠ some 58 ∧ StartFails env id request c)

/-- Data that ends the connection: the body gets too long, or the hook for the body fails. -/
def DataFaults (env : H2Env) (id : Nat) (data : Bytes) (request : Request) (c : H2Conn) : Prop :=
  request.flags.finished = false ∧
    ((c.maxBodySize > 0 ∧ c.bodyBytesRead + data.length ≥ c.maxBodySize) ∨
      ((env.app c.clock id (.read (c.scratch ++ data))).res ≠ resOk ∧
        (env.app c.clock id (.read (c.scratch ++ data))).res ≠ resPause))

/-- The failures of one stream that end the connection. A stream without a request is one whose request the
application has freed. -/
def H2Event.Faults (site : Site) (env : H2Env) (c : H2Conn) : H2Event → Prop
  | .header id name value => ∃ request, c.userData id = some request ∧ HeaderFaults site env id name value request c
  | .frame (.headers id true _) =>
    c.userData id = none ∨ ∃ request, c.userData id = some request ∧ StartFails env id request c
  | .frame (.data id true) => c.userData id = none
  | .dataChunk id data => c.userData id = none ∨ ∃ request, c.userData id = some request ∧ DataFaults env id data request c
  | _ => False

section
variable {site : Site} {env : H2Env} {id : Nat} {c : H2Conn} {request : Request}

theorem headersStart_fails (env : H2Env) (id : Nat) (request : Request) (c : H2Conn) :
    (headersStart env id request c).1 = false ↔ StartFails env id request c := by
  unfold headersStart StartFails
  cases started : request.flags.hdrsStart with
  | true => simp
  | false =>
    have reply : ((c.onRequest id Request.started).call env id .headersStart).1 = env.app c.clock id .headersStart := rfl
    simp [reply]

theorem call_isSome (hook : AppHook) : ((c.call env id hook).2.streams id).request.isSome = (c.streams id).request.isSome := by
  have stored : ∀ handler, ((c.streams id).store handler).request.isSome = (c.streams id).request.isSome := by
    intro handler
    cases handler with
    | none => rfl
    | some handler => exact Option.isSome_map
  rcases (call_calling env id hook c).own with own | ⟨own, _⟩
  · rw [own]
    exact stored _
  · rw [own]
    exact Option.isSome_map.trans (stored _)

theorem onPath_ok (found : (c.streams id).request = some request) (target : Bytes) :
    (onPath site env id target c).1 = 0 ↔ ¬ ∃ query, (splitTarget target).2 = some query ∧
      uriSetQuery {} query (site.htp c.htp).parserFlags = none := by
  unfold onPath
  dsimp only
  generalize hooked_eq : (H2Conn.call env id (.path (splitTarget target).1) _).2 = hooked
  have htp : hooked.htp = c.htp := by
    rw [← hooked_eq]
    exact (call_calling ..).htp
  have live : (hooked.streams id).request.isSome = true := by
    rw [← hooked_eq, call_isSome]
    unfold H2Conn.onRequest
    rw [H2Conn.modify_self, found]
    rfl
  obtain ⟨request, here⟩ := Option.isSome_iff_exists.mp live
  rw [here, htp]
  cases (splitTarget target).2 with
  | none => simp
  | some query =>
    dsimp only
    cases parsed : uriSetQuery request.requireUri query (site.htp c.htp).parserFlags with
    | some uri =>
      have parses : uriSetQuery {} query (site.htp c.htp).parserFlags ≠ none := by
        intro fails
        rw [(uriSetQuery_none _ _ _).mpr fails] at parsed
        cases parsed
      simp [parses]
    | none =>
      have fails := (uriSetQuery_none _ _ _).mp parsed
      simp [fails, callbackFailure]

theorem onPseudoHeader_ok (found : (c.streams id).request = some request) (name value : Bytes) :
    (onPseudoHeader site env id name value c).1 = 0 ↔ ¬ (name = ascii ":path" ∧ ∃ query, (splitTarget value).2 = some query ∧
      uriSetQuery {} query (site.htp c.htp).parserFlags = none) := by
  unfold onPseudoHeader
  by_cases path : name = ascii ":path"
  · subst path
    rw [if_neg (by decide), if_pos rfl, onPath_ok found]
    simp
  · rw [if_neg path]
    refine iff_of_true ?_ (fun fails => path fails.1)
    split
    · rfl
    · split
      · rfl
      · split <;> rfl

theorem onHeader_ok (found : c.userData id = some request) (name value : Bytes) :
    (serverOnHeader site env id name value c).1 = 0 ↔ ¬ HeaderFaults site env id name value request c := by
  have here : (c.streams id).request = some request := by
    unfold H2Conn.userData at found
    split at found
    · exact found
    · cases found
  unfold serverOnHeader HeaderFaults
  rw [found]
  dsimp only
  by_cases pseudo : name.head? = some 58
  · rw [if_pos pseudo, onPseudoHeader_ok here]
    simp [pseudo]
  · rw [if_neg pseudo]
    have regular : name ≠ ascii ":path" := by
      rintro rfl
      exact pseudo rfl
    rw [← headersStart_fails env id request c]
    cases (headersStart env id request c).1 with
    | true => simp [regular]
    | false => simp [pseudo, callbackFailure]

theorem headersFrame_ok (found : c.userData id = some request) (endStream : Bool) :
    (handleH2HeadersFrame site env id true endStream c).1 = 0 ↔ ¬ StartFails env id request c := by
  have clock : (if endStream then c.onRequest id Request.endStream else c).clock = c.clock := by
    split <;> rfl
  unfold handleH2HeadersFrame
  rw [if_pos rfl, found]
  dsimp only
  generalize (if endStream then c.onRequest id Request.endStream else c) = marked at clock
  have fails := headersStart_fails env id request marked
  unfold StartFails at fails ⊢
  rw [← clock, ← fails]
  cases (headersStart env id request marked).1 with
  | true => simp
  | false => simp [callbackFailure]

theorem dataChunk_ok (found : c.userData id = some request) (data : Bytes) :
    (onDataChunkRecv env id data c).1 = 0 ↔ ¬ DataFaults env id data request c := by
  have reply : (c.hookBody env id data).1 = env.app c.clock id (.read (c.scratch ++ data)) := rfl
  unfold onDataChunkRecv DataFaults
  rw [found]
  dsimp only
  rw [reply]
  cases finished : request.flags.finished with
  | true => simp
  | false =>
    by_cases gone : c.maxBodySize > 0 ∧ c.bodyBytesRead + data.length ≥ c.maxBodySize
    · simp [gone]
    · rw [if_neg (by simp), if_neg gone]
      by_cases taken : (env.app c.clock id (.read (c.scratch ++ data))).res = resOk ∨
          (env.app c.clock id (.read (c.scratch ++ data))).res = resPause
      · rw [if_pos taken]
        refine iff_of_true rfl ?_
        rintro ⟨_, limit | ⟨refused, refused'⟩⟩
        · exact gone limit
        · exact taken.elim refused refused'
      · simp only [if_neg taken]
        have refused := not_or.mp taken
        simp [refused]

/-- A callback succeeds unless its stream fails in one of these ways. -/
theorem h2_callback_succeeds (site : Site) (env : H2Env) (event : H2Event) (c : H2Conn) :
    (event.run site env c).1 = 0 ↔ ¬ event.Faults site env c := by
  cases event with
  | beginHeaders id request => cases request <;> simp [H2Event.run, serverOnBeginHeaders, H2Event.Faults]
  | header id name value =>
    cases found : c.userData id with
    | none => simp [H2Event.run, serverOnHeader, H2Event.Faults, found]
    | some request => simpa [H2Event.run, H2Event.Faults, found] using onHeader_ok found name value
  | frame received =>
    cases received with
    | headers id endHeaders endStream =>
      cases endHeaders with
      | false => simp [H2Event.run, onFrameRecv, handleH2HeadersFrame, H2Event.Faults]
      | true =>
        cases found : c.userData id with
        | none => simp [H2Event.run, onFrameRecv, handleH2HeadersFrame, H2Event.Faults, found]
        | some request => simpa [H2Event.run, onFrameRecv, H2Event.Faults, found] using headersFrame_ok found endStream
    | data id endStream =>
      cases endStream with
      | false => simp [H2Event.run, onFrameRecv, handleH2DataFrame, H2Event.Faults]
      | true =>
        cases found : c.userData id with
        | none => simp [H2Event.run, onFrameRecv, handleH2DataFrame, H2Event.Faults, found]
        | some request =>
          simp only [H2Event.run, onFrameRecv, handleH2DataFrame, H2Event.Faults, found, if_true]
          split <;> simp
    | goaway last => simp [H2Event.run, onFrameRecv, handleH2GoawayFrame, H2Event.Faults]
    | other => simp [H2Event.run, onFrameRecv, H2Event.Faults]
  | dataChunk id data =>
    cases found : c.userData id with
    | none => simp [H2Event.run, onDataChunkRecv, H2Event.Faults, found]
    | some request => simpa [H2Event.run, H2Event.Faults, found] using dataChunk_ok found data
  | streamClose id =>
    unfold H2Event.run serverOnStreamClose
    dsimp only
    split <;> simp [H2Event.Faults]
  | act actions => simp [H2Event.run, H2Event.Faults]
  | free id => simp [H2Event.run, H2Event.Faults]

end

def failingH2 : H2Env where
  app _ stream hook :=
    match hook with
    | .read _ => if stream = 3 then { res := resError } else {}
    | _ => {}
  cached _ := none

/-- Two open requests; the failure of one ends the connection. -/
theorem h2_callback_fails :
    ∃ s, Session.Reaches plainSite failingH2 (fun _ _ => True) {} s ∧
      (s.conn.streams 1).request.isSome = true ∧
      ((H2Event.dataChunk 3 (ascii "x")).run plainSite failingH2 s.conn).1 ≠ 0 ∧
      (s.step plainSite failingH2 (.dataChunk 3 (ascii "x"))).isNone = true := by
  have run : ((({} : Session).steps plainSite failingH2
      (headOf 1 "POST" [] ++ .frame (.headers 1 true false) :: headOf 3 "POST" [] ++ [.frame (.headers 3 true false)])).map
      fun s => ((s.conn.streams 1).request.isSome, ((H2Event.dataChunk 3 (ascii "x")).run plainSite failingH2 s.conn).1,
        (s.step plainSite failingH2 (.dataChunk 3 (ascii "x"))).isNone)) = some (true, -1, true) := by
    decide +kernel
  obtain ⟨s, taken, seen⟩ := Option.map_eq_some_iff.mp run
  obtain ⟨live, seen⟩ := Prod.mk.inj seen
  obtain ⟨fails, gone⟩ := Prod.mk.inj seen
  refine ⟨s, Session.Reaches.steps .start (fun _ _ _ => trivial) taken, live, ?_, gone⟩
  rw [fails]
  decide

end Evhtp
