import Evhtp.Proofs.ConnectionRules
import Evhtp.Proofs.Routes

/-! What the parser's hooks do to a connection. Three of them matter for the life of a request: a message
begins, a piece of its body arrives, the message is complete. The others read on. -/

namespace Evhtp

/-- The same connection and request after more of the request was read; only if it was `moved` may it go elsewhere. -/
structure Conn.Reads (moved : Prop) (before after : Conn) : Prop extends before.SameRecords after where
  htp : ¬ moved → after.htp = before.htp
  absent : before.request = none → after.request = none
  request : ∀ request, before.request = some request → ∃ request', after.request = some request' ∧
    request'.received = request.received ∧ request'.began = request.began ∧ (¬ moved → request.SameRoute request')

theorem Request.Follows.sameRoute {before after : Request} (follows : before.Follows after) : before.SameRoute after :=
  ⟨follows.htp, follows.cb, follows.cbarg, follows.host, congrArg (·.bind Uri.path) follows.uri⟩

section
variable {moved : Prop}

theorem Conn.Follows.reads {before after : Conn} (follows : before.Follows after) : before.Reads moved after := by
  refine ⟨follows.toSameRecords, fun _ => follows.htp, follows.absent, fun request here => ?_⟩
  obtain ⟨request', there, same⟩ := follows.request request here
  exact ⟨request', there, same.received, same.began, fun _ => same.sameRoute⟩

theorem Conn.Reads.trans {first second third : Conn} (one : first.Reads moved second) (two : second.Reads moved third) :
    first.Reads moved third := by
  refine ⟨one.toSameRecords.trans two.toSameRecords, fun stays => (two.htp stays).trans (one.htp stays),
    fun none => two.absent (one.absent none), fun request here => ?_⟩
  obtain ⟨middle, there, received, began, route⟩ := one.request request here
  obtain ⟨last, found, received', began', route'⟩ := two.request middle there
  exact ⟨last, found, received'.trans received, began'.trans began, fun stays => (route stays).trans (route' stays)⟩

theorem Conn.Reads.refl (conn : Conn) : conn.Reads moved conn := (Conn.Follows.refl conn).reads

theorem Conn.Reads.imp {before after : Conn} {moved' : Prop} (implies : moved → moved') (reads : before.Reads moved after) :
    before.Reads moved' after :=
  { reads with
    htp := fun stays => reads.htp fun moves => stays (implies moves)
    request := fun request here => by
      obtain ⟨request', there, received, began, route⟩ := reads.request request here
      exact ⟨request', there, received, began, fun stays => route fun moves => stays (implies moves)⟩ }

end

section
variable {site : Site} {env : Env} {p : Parser} {conn : Conn} {request : Request} {moved : Prop}

theorem Conn.reads_aside (conn : Conn) (flags : ConnFlags) (scratch output : Bytes) (reading resumeActive : Bool) :
    conn.Reads moved { conn with flags, scratch, output, reading, resumeActive } :=
  ⟨⟨rfl, rfl, rfl, rfl, rfl, rfl⟩, fun _ => rfl, id, fun request here => ⟨request, here, rfl, rfl, fun _ => .refl request⟩⟩

theorem Conn.reads_of_request (here : conn.request = some request) {request' : Request} (htp : Nat)
    (received : request'.received = request.received) (began : request'.began = request.began)
    (route : ¬ moved → htp = conn.htp ∧ request.SameRoute request') :
    conn.Reads moved { conn with request := some request', htp } := by
  refine ⟨⟨rfl, rfl, rfl, rfl, rfl, rfl⟩, fun stays => (route stays).1, fun none => ?_, fun request'' there => ⟨request', rfl, ?_⟩⟩
  · cases here.symm.trans none
  · cases here.symm.trans there
    exact ⟨received, began, fun stays => (route stays).2⟩

theorem Conn.setRequest_reads (here : conn.request = some request) {request' : Request}
    (received : request'.received = request.received) (began : request'.began = request.began)
    (route : request.SameRoute request') : conn.Reads moved (conn.setRequest request') :=
  conn.reads_of_request here conn.htp received began fun _ => ⟨rfl, route⟩

theorem withRequest_reads {body : Request → HookReply × Conn}
    (reads : ∀ request, conn.request = some request → conn.Reads moved (body request).2) :
    conn.Reads moved (withRequest p conn body).2 := by
  unfold withRequest
  split
  · exact .refl conn
  · next request here => exact reads request here

theorem setCallbacks_reads (site : Site) (request : Request) :
    (setCallbacks site request).received = request.received ∧ (setCallbacks site request).began = request.began := by
  obtain ⟨_, _, _, _, same⟩ := setCallbacks_only site request
  rw [same]
  exact ⟨rfl, rfl⟩

theorem sendContinue_follows (site : Site) (p : Parser) (conn : Conn) : conn.Follows (sendContinue site p conn) := by
  unfold sendContinue
  split
  · exact .refl conn
  · next request here =>
    split
    · exact ⟨⟨rfl, rfl, rfl, rfl, rfl, rfl⟩, rfl, rfl, rfl, (List.append_ne_nil_of_left_ne_nil · _), id,
        fun request here => ⟨request, here, .refl request⟩⟩
    · exact .refl conn

theorem parseHostname_reads (moves : moved) (data : Bytes) : conn.Reads moved (parseHostname site env data p conn).2 := by
  refine withRequest_reads fun request here => ?_
  split
  · exact (appStatus_follows ..).reads
  · dsimp only
    split
    · next vhost _ =>
      obtain ⟨received, began⟩ := setCallbacks_reads site { request with host := some data, htp := vhost }
      have named := conn.reads_of_request here vhost received began fun stays => absurd moves stays
      exact named.trans (appStatus_follows ..).reads
    · have named : conn.Reads moved { conn with request := some { request with host := some data }, htp := conn.htp } :=
        conn.reads_of_request here conn.htp rfl rfl fun stays => absurd moves stays
      exact named.trans (appStatus_follows ..).reads

theorem parsePath_reads (moves : moved) (data : Bytes) : conn.Reads moved (parsePath site env data p conn).2 := by
  refine withRequest_reads fun request here => ?_
  dsimp only
  obtain ⟨received, began⟩ := setCallbacks_reads site
    { request.setUri { request.requireUri with path := some (pathNew data), scheme := p.scheme } with method := p.method }
  have set := conn.reads_of_request here conn.htp received began fun stays => absurd moves stays
  exact set.trans (appStatus_follows ..).reads

theorem parseHeaders_reads : conn.Reads moved (parseHeaders site env p conn).2 := by
  refine withRequest_reads fun request here => ?_
  have read : conn.Reads moved (conn.setRequest (request.headRead p)) :=
    conn.setRequest_reads here rfl rfl ⟨rfl, rfl, rfl, rfl, rfl⟩
  obtain ⟨called, -⟩ := runApp_follows env .headers p (conn.setRequest (request.headRead p))
  dsimp only
  generalize runApp env .headers p (conn.setRequest (request.headRead p)) = result at called ⊢
  have noted : Conn.Follows (conn.setRequest (request.headRead p)) (result.2.2.setStatus result.1) :=
    called.trans (Conn.setStatus_follows ..)
  split
  · exact read.trans (noted.trans (sendContinue_follows ..)).reads
  · split
    · exact read.trans noted.reads
    · exact read.trans (noted.trans (sendContinue_follows ..)).reads

theorem parsePort_reads (data : Bytes) : conn.Reads moved (parsePort data p conn).2 := by
  refine withRequest_reads fun request here => ?_
  have required : conn.Reads moved (conn.setRequest (request.setUri request.requireUri)) :=
    conn.setRequest_reads here rfl rfl (.setUri request rfl)
  dsimp only
  split
  · exact required.trans (Conn.setStatus_follows ..).reads
  · split
    · exact required.trans (Conn.setStatus_follows ..).reads
    · exact conn.setRequest_reads here rfl rfl (.setUri request rfl)

theorem parseArgs_reads (data : Bytes) : conn.Reads moved (parseArgs site data p conn).2 := by
  refine withRequest_reads fun request here => ?_
  split
  · exact (Conn.setStatus_follows ..).reads
  · next uri set => exact conn.setRequest_reads here rfl rfl (.setUri request (uriSetQuery_path set))

theorem parseHeaderVal_reads (data : Bytes) : conn.Reads moved (parseHeaderVal env data p conn).2 := by
  refine withRequest_reads fun request here => ?_
  split
  · exact (Conn.setStatus_follows ..).reads
  · next headersIn _ =>
    have set : conn.Reads moved (conn.setRequest { request with headersIn }) :=
      conn.setRequest_reads here rfl rfl ⟨rfl, rfl, rfl, rfl, rfl⟩
    exact set.trans (appStatus_follows ..).reads

/-- All hooks but those for the beginning, the body and the end of a message read on. The path and the host name
decide where the request goes. -/
theorem hook_reads (site : Site) (env : Env) (name : HookName) (data : Bytes) (p : Parser) (conn : Conn)
    (reads : name ≠ .onMsgBegin ∧ name ≠ .body ∧ name ≠ .onMsgComplete) :
    conn.Reads (name = .path ∨ name = .hostname) (hook (requestPsets site env) name data ⟨p, conn⟩).2.user := by
  have same : ∀ {moved hook}, conn.Reads moved (parseChunkHook env hook p conn).2 :=
    withRequest_reads fun _ _ => (appStatus_follows ..).reads
  cases name with
  | onMsgBegin => exact absurd rfl reads.1
  | body => exact absurd rfl reads.2.1
  | onMsgComplete => exact absurd rfl reads.2.2
  | method | scheme | uri => exact .refl conn
  | host => exact withRequest_reads fun request here => conn.setRequest_reads here rfl rfl (.setUri request rfl)
  | port => exact parsePort_reads data
  | path => exact parsePath_reads (.inl rfl) data
  | args => exact parseArgs_reads data
  | onHdrsBegin => exact same
  | hdrKey => exact withRequest_reads fun request here => conn.setRequest_reads here rfl rfl ⟨rfl, rfl, rfl, rfl, rfl⟩
  | hdrVal => exact parseHeaderVal_reads data
  | hostname => exact parseHostname_reads (.inr rfl) data
  | onHdrsComplete => exact parseHeaders_reads
  | onNewChunk | onChunkComplete | onChunksComplete => exact same

structure Request.New (htp : Nat) (request : Request) : Prop where
  at_htp : request.htp = htp
  began : request.began = htp
  host : request.host = none
  path : request.path = none
  cb : request.cb = none
  received : request.received = 0
  flags : request.flags = {}

/-- A message begins: a request that was answered is freed, and there is a new one. -/
structure Conn.Begins (before after : Conn) : Prop extends before.SameRecords after where
  answered : ∀ old, before.request = some old → old.flags.finished = true
  request : ∃ request, after.request = some request ∧ request.New before.htp
  htp : after.htp = before.htp

theorem requestNew_new (env : Env) (conn : Conn) : ∃ request, (requestNew env conn).request = some request ∧ request.New conn.htp := by
  unfold requestNew
  cases env.cached conn.clock with
  | none => exact ⟨_, rfl, rfl, rfl, rfl, rfl, rfl, rfl, rfl⟩
  | some cached =>
    refine ⟨_, rfl, rfl, rfl, rfl, ?_, rfl, rfl, rfl⟩
    change (cached.uri.map uriClear).bind Uri.path = none
    cases cached.uri <;> rfl

theorem requestNew_begins {freed : Conn} (answered : ∀ old, conn.request = some old → old.flags.finished = true)
    (freeing : conn.Follows freed) (request : Option Request) : conn.Begins (requestNew env { freed with request }) := by
  have begun := requestNew_new env { freed with request }
  exact ⟨⟨freeing.sni, freeing.dispatched, freeing.bodies, freeing.maxBodySize, freeing.bodyBytesRead, freeing.numRequests⟩,
    answered, freeing.htp ▸ begun, freeing.htp⟩

theorem hookReply_refuses (p : Parser) : (hookReply (-1) p).rc ≠ 0 := by
  simp [hookReply]

theorem parseStart_begins (env : Env) (p : Parser) (conn : Conn) :
    ((parseStart env p conn).1.rc ≠ 0 ∧ (parseStart env p conn).2 = conn) ∨ conn.Begins (parseStart env p conn).2 := by
  unfold parseStart
  split
  · exact .inl ⟨hookReply_refuses p, rfl⟩
  · split
    · next absent =>
      exact .inr (requestNew_begins (fun old here => nomatch absent.symm.trans here) (.refl conn) conn.request)
    · next old here =>
      split
      · next finished =>
        refine .inr (requestNew_begins (fun other there => ?_) (runApp_follows env .requestFini p conn).1 none)
        cases here.symm.trans there
        exact finished
      · exact .inl ⟨hookReply_refuses p, rfl⟩

def Conn.refuse (conn : Conn) (request : Request) (length : Nat) : Conn :=
  { conn with bodies := conn.bodies ++ [request.piece length true] }

def Conn.accept (conn : Conn) (request : Request) (length : Nat) : Conn :=
  { conn.setRequest (request.receive length) with
    bodies := conn.bodies ++ [request.piece length false]
    bodyBytesRead := conn.bodyBytesRead + length }

theorem takeScratch_reads (conn : Conn) : conn.Reads moved conn.takeScratch := by
  unfold Conn.takeScratch
  split
  · exact .refl conn
  · next request here =>
    have taken : conn.Reads moved (conn.setRequest { request with bufferIn := request.bufferIn ++ conn.scratch }) :=
      conn.setRequest_reads here rfl rfl ⟨rfl, rfl, rfl, rfl, rfl⟩
    exact taken.trans (Conn.reads_aside _ conn.flags [] conn.output conn.reading conn.resumeActive)

theorem Conn.Reads.count {before after : Conn} (reads : before.Reads moved after) (length : Nat) :
    Conn.Reads moved { before with bodyBytesRead := before.bodyBytesRead + length }
      { after with bodyBytesRead := after.bodyBytesRead + length } :=
  { reads with bodyBytesRead := congrArg (· + length) reads.bodyBytesRead }

theorem parseBodyHook_piece (env : Env) (data : Bytes) (p : Parser) (here : conn.request = some request) :
    (conn.maxBodySize > 0 ∧ conn.bodyBytesRead + data.length ≥ conn.maxBodySize ∧
        (parseBodyHook env data p conn).1.rc ≠ 0 ∧ (conn.refuse request data.length).Reads moved (parseBodyHook env data p conn).2) ∨
      (¬ (conn.maxBodySize > 0 ∧ conn.bodyBytesRead + data.length ≥ conn.maxBodySize) ∧
        (conn.accept request data.length).Reads moved (parseBodyHook env data p conn).2) := by
  unfold parseBodyHook withRequest
  split
  · next absent => cases here.symm.trans absent
  · next found there =>
    cases here.symm.trans there
    split
    · next full =>
      refine .inl ⟨full.1, full.2, hookReply_refuses p, ?_⟩
      have failed : (conn.refuse request data.length).Reads moved _ :=
        Conn.reads_aside _ { conn.flags with error := true } conn.scratch conn.output conn.reading conn.resumeActive
      exact failed.trans (Conn.setStatus_follows ..).reads
    · next fits =>
      refine .inr ⟨fits, ?_⟩
      have taken : Conn.Reads moved { conn.setRequest (request.receive data.length) with
          bodies := conn.bodies ++ [request.piece data.length false] } _ :=
        Conn.reads_aside _ conn.flags (conn.scratch ++ data) conn.output conn.reading conn.resumeActive
      have called := taken.trans (runApp_follows env (.read (conn.scratch ++ data)) p _).1.reads
      have noted := called.trans (Conn.setStatus_follows _ (env.app conn.clock (.read (conn.scratch ++ data))).res).reads
      have kept := noted.trans (takeScratch_reads _)
      dsimp only
      split
      · exact noted.count data.length
      · split
        · exact noted.count data.length
        · exact kept.count data.length

theorem parseFini_completes (env : Env) (p : Parser) (conn : Conn) :
    (parseFini env p conn).2 = conn ∨ ∃ request called, conn.request = some request ∧
      (called = request ∨ called = queryFromBody request) ∧ ∃ dispatched,
        (called.cb = none ∧ dispatched = conn.dispatched ∨ called.cb.isSome ∧ dispatched = conn.dispatched ++ [called]) ∧
        Conn.Follows { conn with request := some called, dispatched } (parseFini env p conn).2 := by
  unfold parseFini
  split
  · exact .inl rfl
  · split
    · exact .inl rfl
    · next request here =>
      refine .inr ⟨request, if shouldParseQueryBody request p then queryFromBody request else request, here, ?_, ?_⟩
      · split
        · exact .inr rfl
        · exact .inl rfl
      · generalize (if shouldParseQueryBody request p then queryFromBody request else request) = called
        dsimp only
        unfold dispatch
        split
        · next absent => exact ⟨conn.dispatched, .inl ⟨absent, rfl⟩, .refl _⟩
        · next cb present =>
          exact ⟨conn.dispatched ++ [called], .inr ⟨by rw [present]; rfl, rfl⟩, (runApp_follows ..).1⟩

theorem hook_refused {name : HookName} {data : Bytes} (present : name ≠ .method ∧ name ≠ .scheme ∧ name ≠ .uri)
    (refused : ((requestPsets site env).call ⟨name, data⟩ p conn).1.rc ≠ 0) :
    (hook (requestPsets site env) name data ⟨p, conn⟩).2.p.state = .error := by
  rw [hook_state, hook_psets site env data p conn present]
  simp [refused]

theorem hook_begins (site : Site) (env : Env) (p : Parser) (conn : Conn) :
    ((hook (requestPsets site env) .onMsgBegin [] ⟨p, conn⟩).2.p.state = .error ∧
        (hook (requestPsets site env) .onMsgBegin [] ⟨p, conn⟩).2.user = conn) ∨
      conn.Begins (hook (requestPsets site env) .onMsgBegin [] ⟨p, conn⟩).2.user := by
  rcases parseStart_begins env p conn with ⟨refused, same⟩ | begun
  · exact .inl ⟨hook_refused (by decide) refused, same⟩
  · exact .inr begun

end

end Evhtp
