import Evhtp.Proofs.BodyLimit

/-! Who resumes a paused parser. The hooks for the headers and for the body pause it, and the read callback
then pauses the connection; the resume callback resumes both, unless there is output to wait for. -/

namespace Evhtp

def Conn.Held (conn : Conn) : Prop := conn.flags.paused = true ∨ conn.resumeActive = true

/-- The connection waits for output, and the write callback is going to run. -/
def Connection.Drains (c : Connection) : Prop :=
  c.conn.flags.waiting = true ∧ (c.conn.output ≠ [] ∨ c.writePending = true)

/-- The parser runs, or something is going to happen to the connection. -/
def Connection.Attended (c : Connection) : Prop :=
  c.closed = none → c.parser.flags.paused = true → c.conn.Held ∨ c.Drains

/-- A paused parser has someone to resume it, and when all events have run and the output is drained it runs. -/
structure Connection.Resumable (c : Connection) : Prop where
  resumer : c.parser.flags.paused = true →
    c.conn.flags.paused = true ∨ c.conn.flags.waiting = true ∨ c.conn.resumeActive = true
  settled : c.conn.flags.paused = false → c.conn.resumeActive = false → c.conn.output = [] → c.writePending = false →
    c.parser.flags.paused = false

/-- The write callback does not find the parser of a waiting connection paused. -/
def ParserRuns (c : Connection) (event : Event) : Prop :=
  event = .writecb → c.conn.flags.waiting = true → c.conn.flags.paused = false → c.parser.flags.paused = false

instance (c : Connection) (event : Event) : Decidable (ParserRuns c event) :=
  inferInstanceAs (Decidable (_ → _ → _ → _))

section
variable {conn : Conn} {request : Request} {p : Parser}

theorem Conn.Held.pause (conn : Conn) : (evhtpRequestPause conn).Held := by
  unfold evhtpRequestPause evhtpConnectionPause
  split
  · next paused => exact .inl paused
  · exact .inl rfl

theorem Conn.Held.resume (held : conn.Held) : (evhtpConnectionResume conn).Held := by
  unfold evhtpConnectionResume
  split
  · exact .inr rfl
  · exact held

theorem Action.run_held (action : Action) (held : conn.Held) : (action.run p conn request).2.Held := by
  cases action with
  | pause => exact .pause conn
  | resume => exact held.resume
  | addHeader | addBuffer | sendReply | sendReplyStart | sendReplyBody | sendReplyEnd | sendReplyChunkStart | sendReplyChunk
  | sendReplyChunkEnd | drain | takeOwnership => exact held

theorem runActions_held (actions : List Action) (held : conn.Held) : (runActions actions p conn).2.Held := by
  induction actions generalizing p conn with
  | nil => exact held
  | cons action actions ih =>
    unfold runActions
    split
    · exact held
    · exact ih (action.run_held held)

theorem runApp_held (env : Env) (hook : AppHook) (held : conn.Held) : (runApp env hook p conn).2.2.Held :=
  runActions_held _ held

end

theorem Conn.status_setStatus {conn : Conn} {request : Request} (here : conn.request = some request) (status : Nat) :
    (conn.setStatus status).status = some status := by
  simp [Conn.status, Conn.setStatus, here, Request.setStatus]

theorem sendContinue_status (site : Site) (p : Parser) (conn : Conn) : (sendContinue site p conn).status = conn.status := by
  unfold sendContinue
  split
  · rfl
  · split <;> rfl

theorem runApp_status (env : Env) (hook : AppHook) (p : Parser) {conn : Conn} {request : Request}
    (here : conn.request = some request) :
    ((runApp env hook p conn).2.2.setStatus (runApp env hook p conn).1).status = some (runApp env hook p conn).1 := by
  obtain ⟨_, there, _⟩ := (runApp_follows env hook p conn).1.request request here
  exact Conn.status_setStatus there _

structure Pauses (name : HookName) (called : HookReply × Conn) : Prop where
  name : name = .onHdrsComplete ∨ name = .body
  rc : called.1.rc = 0
  status : called.2.status = some resPause

section
variable {site : Site} {env : Env} {p : Parser} {conn : Conn}

theorem parseHeaders_pauses (paused : (parseHeaders site env p conn).1.pause = true) :
    Pauses .onHdrsComplete (parseHeaders site env p conn) := by
  unfold parseHeaders withRequest at paused ⊢
  split at paused
  · cases paused
  · next request _ =>
    dsimp only at paused ⊢
    split at paused
    · next asked =>
      rw [if_pos asked]
      refine ⟨.inl rfl, rfl, (sendContinue_status ..).trans ?_⟩
      exact (runApp_status env .headers p rfl).trans (congrArg some asked)
    · split at paused <;> cases paused

theorem parseBodyHook_pauses {data : Bytes} (paused : (parseBodyHook env data p conn).1.pause = true) :
    Pauses .body (parseBodyHook env data p conn) := by
  unfold parseBodyHook withRequest at paused ⊢
  split at paused
  · cases paused
  · next request _ =>
    dsimp only at paused ⊢
    split at paused
    · cases paused
    · next fits =>
      rw [if_neg fits]
      split at paused
      · next asked =>
        rw [if_pos asked]
        refine ⟨.inr rfl, rfl, ?_⟩
        exact (runApp_status env _ p rfl).trans (congrArg some asked)
      · split at paused <;> cases paused

theorem withRequest_unpaused {body : Request → HookReply × Conn} (kept : ∀ request, (body request).1.pause = false) :
    (withRequest p conn body).1.pause = false := by
  unfold withRequest
  split
  · rfl
  · exact kept _

/-- Only the hooks for the headers and for the body pause the parser. -/
theorem requestPsets_pauses {event : HookEvent} (paused : ((requestPsets site env).call event p conn).1.pause = true) :
    Pauses event.name ((requestPsets site env).call event p conn) := by
  obtain ⟨name, data⟩ := event
  have refute : ((requestPsets site env).call ⟨name, data⟩ p conn).1.pause = false →
      Pauses name ((requestPsets site env).call ⟨name, data⟩ p conn) := fun running => nomatch running.symm.trans paused
  cases name with
  | onHdrsComplete => exact parseHeaders_pauses paused
  | body => exact parseBodyHook_pauses paused
  | method | scheme | uri => cases paused
  | host | onHdrsBegin | hdrKey | onNewChunk | onChunkComplete | onChunksComplete | path =>
    exact refute (withRequest_unpaused fun _ => rfl)
  | port =>
    refine refute (withRequest_unpaused fun request => ?_)
    dsimp only
    split
    · rfl
    · split <;> rfl
  | args | hdrVal =>
    refine refute (withRequest_unpaused fun request => ?_)
    split <;> rfl
  | hostname =>
    refine refute (withRequest_unpaused fun request => ?_)
    split
    · rfl
    · dsimp only
      split <;> rfl
  | onMsgBegin =>
    apply refute
    change (parseStart env p conn).1.pause = false
    unfold parseStart
    split
    · rfl
    · split
      · rfl
      · split <;> rfl
  | onMsgComplete =>
    apply refute
    change (parseFini env p conn).1.pause = false
    unfold parseFini
    split
    · rfl
    · split <;> rfl

end

/-- Where the parser may be when it is paused: past the head of a message, or failed. -/
def ParserState.pausable : ParserState → Bool
  | .body | .trailers | .complete | .error => true
  | _ => false

/-- During a run from a parser that is not paused: what paused it has set the status of the request. -/
def PauseStage (stage : Stage) (p : Parser) (conn : Conn) : Prop :=
  p.flags.paused = true → conn.status = some resPause ∧ p.state.pausable = true ∧ (stage = .line ∨ p.state = .error)

section
variable {site : Site} {env : Env} {p : Parser} {conn : Conn}

theorem Fires.unpaused {name : HookName} (fires : Fires p name) (held : PauseStage name.before p conn) :
    p.flags.paused = false := by
  by_contra paused
  obtain ⟨_, state, stage⟩ := held (Bool.not_eq_false _ ▸ paused)
  cases name with
  | method | scheme | host | port | path | args | uri | onHdrsBegin =>
    rw [show p.state = _ from fires] at state
    cases state
  | hdrVal =>
    have failed : p.state = .error := stage.resolve_left nofun
    exact fires.elim (fun here => nomatch here.symm.trans failed) fun here => nomatch here.symm.trans failed
  | hdrKey | onHdrsComplete | onNewChunk | onChunkComplete | body | onChunksComplete => exact paused fires.2
  | onMsgBegin | hostname | onMsgComplete => exact fires

theorem hook_pauseStage {name : HookName} (data : Bytes) (stage : Stage) (running : p.flags.paused = false)
    (past : name = .onHdrsComplete ∨ name = .body → p.state.pausable = true ∧ stage = .line) :
    PauseStage stage (hook (requestPsets site env) name data ⟨p, conn⟩).2.p
      (hook (requestPsets site env) name data ⟨p, conn⟩).2.user := by
  unfold hook
  split
  · intro paused
    have asked : ((requestPsets site env).call ⟨name, data⟩ p conn).1.pause = true := by
      by_cases accepted : ((requestPsets site env).call ⟨name, data⟩ p conn).1.rc = 0
      all_goals simpa [Parser.replied, Parser.fail, accepted, running] using paused
    obtain ⟨name, rc, status⟩ := requestPsets_pauses asked
    obtain ⟨state, line⟩ := past name
    refine ⟨status, ?_, .inl line⟩
    simpa [Parser.replied, rc] using state
  · intro paused
    cases running.symm.trans paused

theorem Silent.pausable {p' : Parser} (silent : Silent p p') (pausable : p.state.pausable = true) :
    p'.state.pausable = true := by
  rcases silent.state with same | leads
  · rwa [same]
  · revert leads pausable
    cases p.state <;> cases p'.state <;> decide

theorem pauses_staged (site : Site) (env : Env) : StagedInvariant (requestPsets site env) PauseStage where
  silent := by
    intro stage p p' conn held silent paused
    obtain ⟨status, state, place⟩ := held (silent.paused.symm.trans paused)
    exact ⟨status, silent.pausable state, place.imp id silent.error_stays⟩
  failed held failed paused := by
    obtain ⟨status, state, _⟩ := held paused
    exact ⟨status, state, .inr failed⟩
  status _ here held paused := by
    obtain ⟨_, state, _⟩ := held paused
    rw [here] at state
    cases state
  begins _ running _ := hook_pauseStage [] .line running (by simp)
  host value here _ held := by
    refine hook_pauseStage value .value ?_ (by simp)
    by_contra paused
    obtain ⟨_, state, _⟩ := held (Bool.not_eq_false _ ▸ paused)
    rw [here] at state
    cases state
  completes _ running _ := hook_pauseStage [] .done running (by simp)
  calls name data fires held := by
    refine hook_pauseStage data name.after (fires.unpaused held) fun name => ?_
    rcases name with rfl | rfl
    · rcases fires.1 with here | here <;> exact ⟨by rw [here]; rfl, rfl⟩
    · exact ⟨by rw [fires.1]; rfl, rfl⟩

variable [Htstring]

/-- A run that ends with the parser paused leaves that in the status of the request. -/
theorem run_pauses (site : Site) (env : Env) (fuel : Nat) (data : Bytes) (running : p.flags.paused = false)
    (paused : (runLoop (requestPsets site env) fuel data ⟨p, conn⟩).1.p.flags.paused = true) :
    (runLoop (requestPsets site env) fuel data ⟨p, conn⟩).1.user.status = some resPause := by
  have held : PauseStage p.state.stage p conn := fun stopped => nomatch running.symm.trans stopped
  rcases (pauses_staged site env).runLoop fuel data (s := ⟨p, conn⟩) held with known | known
  · exact (known paused).1
  · exact (known paused).1

end

namespace Connection
variable {env : Env} {c : Connection}

theorem Attended.running (running : c.parser.flags.paused = false) : c.Attended :=
  fun _ paused => nomatch running.symm.trans paused

theorem Attended.flush (attended : c.Attended) (count : Nat) : (c.flush count).Attended := by
  intro alive paused
  refine (attended alive paused).imp id fun drains => ⟨drains.1, ?_⟩
  by_cases drained : c.conn.output.drop count = []
  · exact .inr (by simp [Connection.flush, drained])
  · exact .inl drained

theorem Attended.close (c : Connection) (reason : Closed) : (c.close reason).Attended := nofun

theorem Attended.called {p : Parser} {conn : Conn} (attended : c.Attended) (follows : c.conn.Follows conn)
    (held : c.conn.Held → conn.Held) (same : SameParser c.parser.toParser p) :
    Connection.Attended { c with conn, parser := { c.parser with toParser := p } } := by
  obtain ⟨_, _, rfl⟩ := same
  intro alive paused
  refine (attended alive paused).imp held fun drains => ⟨follows.waiting.trans drains.1, ?_⟩
  exact drains.2.imp follows.output id

theorem Attended.app (attended : c.Attended) (hook : AppHook) : (c.app env hook).Attended := by
  obtain ⟨follows, same⟩ := runApp_follows env hook c.parser.toParser c.conn
  exact attended.called follows (runApp_held env hook) same

theorem Attended.act (attended : c.Attended) (actions : List Action) : (c.act actions).Attended := by
  obtain ⟨follows, same⟩ := runActions_follows actions c.parser.toParser c.conn
  unfold Connection.act
  dsimp only
  split
  · exact attended.called follows (runActions_held actions) same
  · exact .close _ _

theorem readDone_attended (nread avail : Nat)
    (known : c.parser.flags.paused = true → c.conn.status = some resPause ∨ c.conn.Held ∨ c.Drains) :
    (readDone env nread avail c).Attended := by
  unfold readDone
  split
  · exact .close _ _
  · split
    · exact .close _ _
    · dsimp only
      split
      · exact fun _ _ => .inl (.pause c.conn)
      · next other =>
        have attended : Connection.Attended { c with input := c.input.drop nread } :=
          fun _ paused => (known paused).resolve_left other
        split
        · exact .close _ _
        · split
          · exact attended.called (evhtpConnectionResume_follows c.conn) Conn.Held.resume (.refl _)
          · exact attended

end Connection

section
variable [Htstring] {site : Site} {env : Env} {c : Connection}

theorem parse_attended (attended : c.Attended) (alive : c.closed = none)
    (paused : (c.parse site env).1.parser.flags.paused = true) :
    (c.parse site env).1.conn.status = some resPause ∨ (c.parse site env).1.conn.Held ∨ (c.parse site env).1.Drains := by
  by_cases running : c.parser.flags.paused = false
  · exact .inl (run_pauses site env _ _ running paused)
  · have stopped : c.parser.flags.paused = true := Bool.not_eq_false _ ▸ running
    have same : (c.parse site env).1.conn = c.conn.setStatus resOk :=
      congrArg (·.1.user) (runLoop_stopped (requestPsets site env) (runFuel c.input) c.input
        (s := ⟨c.parser.toParser, c.conn.setStatus resOk⟩) (.inr stopped))
    unfold Connection.Drains
    rw [same]
    exact .inr (attended alive stopped)

theorem readcb_attended (attended : c.Attended) (alive : c.closed = none) : (readcb site env c).Attended := by
  unfold readcb
  split
  · exact attended
  · split
    · exact attended
    · exact Connection.readDone_attended _ _ (parse_attended attended alive)

omit [Htstring] in
theorem writeDone_attended (attended : c.Attended) : (writeDone site env c).Attended := by
  unfold writeDone
  split
  · exact attended
  · split
    · exact attended
    · unfold replyDone
      extract_lets max numRequests keepalive
      split
      -- the parser is initialised for the next message
      · exact fun _ paused => nomatch paused
      · exact .close _ _

/-- Without the parser of a waiting connection being paused, the write callback leaves no one behind. -/
theorem writecb_attended (runs : c.conn.flags.waiting = true → c.conn.flags.paused = false → c.parser.flags.paused = false)
    (attended : c.Attended) (alive : c.closed = none) : (writecb site env { c with writePending := false }).Attended := by
  unfold writecb
  split
  · exact .close _ _
  · split
    · next paused => exact fun _ _ => .inl (.inl paused)
    · next open_ =>
      have unpaused : c.conn.flags.paused = false := Bool.not_eq_true _ ▸ open_
      have before : Connection.Attended { c with writePending := false } := by
        intro _ paused
        rcases attended alive paused with held | drains
        · exact .inl held
        · exact nomatch (runs drains.1 unpaused).symm.trans paused
      have called : (Connection.app env .write { c with writePending := false }).Attended := before.app .write
      dsimp only
      split
      · next waits =>
        have parsed : ({ c with writePending := false } : Connection).conn.flags.waiting = true :=
          (runApp_follows env .write c.parser.toParser c.conn).1.waiting.symm.trans waits
        have running : (Connection.app env .write { c with writePending := false }).stopWaiting.parser.flags.paused = false := by
          obtain ⟨_, _, same⟩ := (runApp_follows env .write c.parser.toParser c.conn).2
          exact (congrArg (·.flags.paused) same).trans (runs parsed unpaused)
        have stopped : (Connection.app env .write { c with writePending := false }).stopWaiting.Attended :=
          .running running
        split
        · exact readcb_attended stopped alive
        · exact writeDone_attended stopped
      · exact writeDone_attended called

theorem resumecb_attended (alive : c.closed = none) : (resumecb site env c).Attended := by
  unfold resumecb
  dsimp only
  split
  · exact .close _ _
  · split
    · next output => exact fun _ _ => .inr ⟨rfl, .inl output⟩
    · split
      · exact readcb_attended (.running rfl) alive
      · next running =>
        have running : c.unpause.parser.flags.paused = false := Bool.not_eq_true _ ▸ running
        split
        · exact readcb_attended (.running running) alive
        · exact .running running

omit [Htstring] in
theorem eventcb_attended (eof : Bool) : (eventcb site env eof c).Attended := by
  unfold eventcb
  extract_lets ended conn marked
  split
  · next paused => exact fun _ _ => .inl (.inl paused)
  · exact .close _ _

theorem step_attended {event : Event} {after : Connection} (runs : ParserRuns c event) (attended : c.Attended)
    (taken : step site env c event = some after) : after.Attended := by
  unfold step at taken
  split at taken
  · cases taken
  · next open_ =>
    have alive : c.closed = none := Option.not_isSome_iff_eq_none.mp open_
    cases event with
    | arrive data =>
      dsimp only at taken
      split at taken
      · cases taken
        exact attended
      · cases taken
    | flush count =>
      dsimp only at taken
      split at taken
      · cases taken
        exact attended.flush count
      · cases taken
    | readcb =>
      dsimp only at taken
      split at taken
      · cases taken
        have before : Connection.Attended { c with readPending := false } := attended
        exact readcb_attended before alive
      · cases taken
    | writecb =>
      dsimp only at taken
      split at taken
      · cases taken
        exact writecb_attended (runs rfl) attended alive
      · cases taken
    | resumecb =>
      dsimp only at taken
      split at taken
      · cases taken
        exact resumecb_attended alive
      · cases taken
    | eventcb eof =>
      cases taken
      exact eventcb_attended eof
    | act actions =>
      cases taken
      exact attended.act actions

end

theorem Connection.Attended.resumable {c : Connection} (attended : c.Attended) (alive : c.closed = none) : c.Resumable := by
  constructor
  · intro paused
    rcases attended alive paused with (held | active) | drains
    · exact .inl held
    · exact .inr (.inr active)
    · exact .inr (.inl drains.1)
  · intro unpaused inactive drained idle
    by_contra running
    rcases attended alive (Bool.not_eq_false _ ▸ running) with (held | active) | ⟨_, output | pending⟩
    · cases unpaused.symm.trans held
    · cases inactive.symm.trans active
    · exact output drained
    · cases idle.symm.trans pending

/-- A paused parser has someone to resume it, as long as the write callback of a waiting connection does not find it
paused. -/
theorem paused_parser_resumable [Htstring] (site : Site) (env : Env) {start c : Connection}
    (running : start.parser.flags.paused = false) (reached : Reaches site env ParserRuns start c) (alive : c.closed = none) :
    c.Resumable := by
  have attended : c.Attended := by
    clear alive
    induction reached with
    | start => exact .running running
    | step _ runs taken ih => exact step_attended runs ih taken
  exact attended.resumable alive

def holdingBack : Env where
  app _ hook :=
    match hook with
    | .headers => { res := resPause }
    | .callback .. => { actions := [.sendReply 200] }
    | _ => {}
  cached _ := none

def smallUpload : Bytes := ascii "POST / HTTP/1.1\r\nContent-Length: 2\r\n\r\nok"

def expectingUpload : Bytes := ascii "POST / HTTP/1.1\r\nExpect: 100-continue\r\nContent-Length: 2\r\n\r\n"

section
attribute [local instance] Plain.htstring

theorem paused_parser_resumable_upload :
    ∃ c later, Reaches plainSite holdingBack ParserRuns (connectionNew plainSite defaultConfig) c ∧
      Reaches plainSite holdingBack ParserRuns (connectionNew plainSite defaultConfig) later ∧
      c.parser.flags.paused = true ∧ c.Resumable ∧ later.conn.dispatched.length = 1 ∧ later.Resumable := by
  have run : ((Runs.run (step plainSite holdingBack) ParserRuns (connectionNew plainSite defaultConfig)
      [.arrive smallUpload, .readcb]).bind fun c =>
        (Runs.run (step plainSite holdingBack) ParserRuns c [.act [.resume], .resumecb, .flush 1000, .writecb]).map fun later =>
          ((c.closed, c.parser.flags.paused), later.closed, later.conn.dispatched.length)) =
      some ((none, true), none, 1) := by
    decide +kernel
  obtain ⟨c, first, run⟩ := Option.bind_eq_some_iff.mp run
  obtain ⟨later, second, seen⟩ := Option.map_eq_some_iff.mp run
  obtain ⟨⟨alive, paused⟩, alive', one⟩ := (Prod.mk.inj seen).imp Prod.mk.inj Prod.mk.inj
  have reached := Runs.Reaches.of_run first
  have further := reached.run (fun _ _ permitted => permitted) second
  exact ⟨c, later, reached, further, paused, paused_parser_resumable _ _ rfl reached alive, one,
    paused_parser_resumable _ _ rfl further alive'⟩

/-- A request that was held back is resumed before the interim reply is written. -/
theorem paused_parser_stranded :
    ∃ c, Reaches plainSite holdingBack (fun _ _ => True) (connectionNew plainSite defaultConfig) c ∧ c.closed = none ∧
      c.conn.flags.paused = false ∧ c.conn.resumeActive = false ∧ c.conn.output = [] ∧ c.writePending = false ∧
      c.parser.flags.paused = true ∧ ¬ c.Resumable := by
  have run : ((Runs.run (step plainSite holdingBack) (fun _ _ => True) (connectionNew plainSite defaultConfig)
      [.arrive expectingUpload, .readcb, .act [.resume], .resumecb, .flush 1000, .writecb]).map fun c =>
        (c.closed, c.conn.flags.paused, c.conn.resumeActive, c.conn.output, c.writePending, c.parser.flags.paused)) =
      some (none, false, false, [], false, true) := by
    decide +kernel
  obtain ⟨c, taken, seen⟩ := Option.map_eq_some_iff.mp run
  simp only [Prod.mk.injEq] at seen
  obtain ⟨alive, unpaused, inactive, drained, idle, paused⟩ := seen
  refine ⟨c, Runs.Reaches.of_run taken, alive, unpaused, inactive, drained, idle, paused, fun resumable => ?_⟩
  cases (resumable.settled unpaused inactive drained idle).symm.trans paused

end

end Evhtp
