import Evhtp.Proofs.Actions
import Evhtp.Proofs.HookRules

/-! An invariant rule for the events of an HTTP/1.x connection. Most of what the callbacks do concerns flags
and the reply; an invariant about what was read has to be looked at in three places: a run of the parser, the
end of a message by end of file, and the end of a reply. -/

namespace Evhtp

/-- A property of a connection that does not depend on the reply, the flags and the events. -/
structure Unmoved (holds : Parser → Conn → Prop) : Prop where
  follows : ∀ {p p' conn conn'}, holds p conn → conn.Follows conn' → SameParser p p' → holds p' conn'
  adjusts : ∀ {p conn} flags output reading resumeActive, holds p conn →
    holds p { conn with flags, output, reading, resumeActive }
  scratch : ∀ {p conn}, holds p conn → holds p conn.takeScratch
  resumes : ∀ {p conn}, holds p conn → holds p.resume conn

/-- The rules for an invariant: the parser runs only where it is ready for it. -/
structure ConnInvariant [Htstring] (site : Site) (env : Env) (ready holds : Parser → Conn → Prop) : Prop where
  able : Unmoved ready
  kept : Unmoved holds
  runs : ∀ {p conn} fuel data, ready p conn → holds p conn →
    holds (runLoop (requestPsets site env) fuel data ⟨p, conn⟩).1.p (runLoop (requestPsets site env) fuel data ⟨p, conn⟩).1.user
  ends : ∀ {p conn}, p.state = .body → holds p conn →
    holds (hook (requestPsets site env) .onMsgComplete [] ⟨{ p with state := .start }, conn⟩).2.p
      (hook (requestPsets site env) .onMsgComplete [] ⟨{ p with state := .start }, conn⟩).2.user
  replied : ∀ {c : Connection} {request}, c.conn.request = some request → request.flags.finished = true →
    holds c.parser.toParser c.conn →
    holds (replyDone site env c request).parser.toParser (replyDone site env c request).conn

def Connection.At (holds : Parser → Conn → Prop) (c : Connection) : Prop := holds c.parser.toParser c.conn

def Connection.Parses (c : Connection) : Event → Prop
  | .readcb | .resumecb => True
  | .writecb => c.conn.flags.waiting = true ∧ c.input ≠ []
  | _ => False

instance (c : Connection) (event : Event) : Decidable (c.Parses event) :=
  match event with
  | .readcb | .resumecb => .isTrue trivial
  | .writecb => inferInstanceAs (Decidable (_ ∧ _))
  | .arrive _ | .flush _ | .eventcb _ | .act _ => .isFalse id

namespace Unmoved
variable {env : Env} {holds : Parser → Conn → Prop} {c : Connection} (rules : Unmoved holds)
include rules

variable (held : c.At holds)
include held

theorem conn {conn : Conn} (follows : c.conn.Follows conn) : Connection.At holds { c with conn } :=
  rules.follows held follows (.refl _)

theorem app (hook : AppHook) : (c.app env hook).At holds := by
  obtain ⟨follows, parser⟩ := runApp_follows env hook c.parser.toParser c.conn
  exact rules.follows held follows parser

theorem errorHook : (c.errorHook env).At holds := by
  unfold Connection.errorHook
  split
  · exact rules.app held .error
  · exact held

theorem act (actions : List Action) : (c.act actions).At holds := by
  obtain ⟨follows, parser⟩ := runActions_follows actions c.parser.toParser c.conn
  unfold Connection.act
  dsimp only
  split
  · exact rules.follows held follows parser
  · exact rules.follows held follows parser

theorem readDone (nread avail : Nat) : (readDone env nread avail c).At holds := by
  unfold Evhtp.readDone
  split
  · exact held
  · split
    · exact rules.errorHook held
    · dsimp only
      split
      · exact rules.conn held ((c.conn.setStatus_follows resPause).trans (evhtpConnectionPause_follows _))
      · split
        · exact rules.errorHook held
        · split
          · exact rules.conn held (evhtpConnectionResume_follows c.conn)
          · exact held

theorem stopWaiting : c.stopWaiting.At holds :=
  rules.adjusts { c.conn.flags with waiting := false } c.conn.output true c.conn.resumeActive held

theorem unpause : c.unpause.At holds := by
  have running : holds c.parser.toParser { c.conn with flags := { c.conn.flags with paused := false } } :=
    rules.adjusts _ c.conn.output c.conn.reading c.conn.resumeActive held
  exact rules.scratch (rules.follows running (Conn.setStatus_follows _ resOk) (.refl _))

end Unmoved

namespace ConnInvariant
variable [Htstring] {site : Site} {env : Env} {ready holds : Parser → Conn → Prop} {c : Connection}
  (rules : ConnInvariant site env ready holds)
include rules

theorem readcb (able : c.At ready) (held : c.At holds) : (readcb site env c).At holds := by
  unfold Evhtp.readcb
  split
  · exact held
  · split
    · exact held
    · have started := rules.kept.conn held (c.conn.setStatus_follows resOk)
      have able := rules.able.conn able (c.conn.setStatus_follows resOk)
      have parsed : (c.parse site env).1.At holds := rules.runs (runFuel c.input) c.input able started
      exact rules.kept.readDone parsed _ _

theorem runEof (held : c.At holds) :
    holds (htparserRunEof (requestPsets site env) c.parser c.conn).1.toParser
      (htparserRunEof (requestPsets site env) c.parser c.conn).2 := by
  unfold htparserRunEof
  split
  · next here => exact rules.ends here.1 held
  · exact held

theorem writeDone (held : c.At holds) : (writeDone site env c).At holds := by
  unfold Evhtp.writeDone
  split
  · exact held
  · next request here =>
    split
    · exact held
    · next done =>
      have finished : request.flags.finished = true := by
        simpa using (not_or.mp done).1
      exact rules.replied here finished held

theorem writecb (able : c.conn.flags.waiting = true ∧ c.input ≠ [] → c.At ready) (held : c.At holds) :
    (writecb site env c).At holds := by
  unfold Evhtp.writecb
  split
  · exact held
  · split
    · exact held
    · have called : (c.app env .write).At holds := rules.kept.app held .write
      have waiting : (c.app env .write).conn.flags.waiting = c.conn.flags.waiting := (runApp_follows env .write _ _).1.waiting
      dsimp only
      split
      · next waits =>
        have stopped := rules.kept.stopWaiting called
        split
        · next input =>
          have able : (c.app env .write).At ready := rules.able.app (able ⟨waiting ▸ waits, input⟩) .write
          exact rules.readcb (rules.able.stopWaiting able) stopped
        · exact rules.writeDone stopped
      · exact rules.writeDone called

theorem resumecb (able : c.At ready) (held : c.At holds) : (resumecb site env c).At holds := by
  have able := rules.able.unpause able
  have held := rules.kept.unpause held
  unfold Evhtp.resumecb
  dsimp only
  split
  · exact held
  · split
    · exact rules.kept.adjusts _ c.unpause.conn.output c.unpause.conn.reading c.unpause.conn.resumeActive held
    · have able : Connection.At ready { c.unpause with conn := { c.unpause.conn with reading := true } } :=
        rules.able.adjusts c.unpause.conn.flags c.unpause.conn.output true c.unpause.conn.resumeActive able
      have held : Connection.At holds { c.unpause with conn := { c.unpause.conn with reading := true } } :=
        rules.kept.adjusts c.unpause.conn.flags c.unpause.conn.output true c.unpause.conn.resumeActive held
      split
      · refine rules.readcb ?_ ?_
        · exact rules.able.follows (rules.able.resumes able) (Conn.setStatus_follows _ resPause) (.refl _)
        · exact rules.kept.follows (rules.kept.resumes held) (Conn.setStatus_follows _ resPause) (.refl _)
      · split
        · exact rules.readcb able held
        · exact held

theorem eventcb (held : c.At holds) (eof : Bool) : (eventcb site env eof c).At holds := by
  have ended : holds (if eof then htparserRunEof (requestPsets site env) c.parser c.conn else (c.parser, c.conn)).1.toParser
      (if eof then htparserRunEof (requestPsets site env) c.parser c.conn else (c.parser, c.conn)).2 := by
    split
    · exact rules.runEof held
    · exact held
  unfold Evhtp.eventcb
  dsimp only
  generalize (if eof then htparserRunEof (requestPsets site env) c.parser c.conn else (c.parser, c.conn)) = ended_ at ended ⊢
  have marked : Connection.At holds
      { c with parser := ended_.1, conn := { ended_.2 with flags := { ended_.2.flags with error := true } } } :=
    rules.kept.adjusts _ ended_.2.output ended_.2.reading ended_.2.resumeActive ended
  have called : (Connection.errorHook env _).At holds := rules.kept.errorHook marked
  split
  · exact rules.kept.adjusts _ _ _ _ called
  · exact called

theorem step {event : Event} {after : Connection} (able : c.Parses event → c.At ready) (held : c.At holds)
    (taken : step site env c event = some after) : after.At holds := by
  unfold Evhtp.step at taken
  split at taken
  · cases taken
  · cases event with
    | arrive data =>
      dsimp only at taken
      split at taken
      · cases taken
        exact held
      · cases taken
    | flush count =>
      dsimp only at taken
      split at taken
      · cases taken
        exact rules.kept.adjusts c.conn.flags _ c.conn.reading c.conn.resumeActive held
      · cases taken
    | readcb =>
      dsimp only at taken
      split at taken
      · cases taken
        exact rules.readcb (c := { c with readPending := false }) (able trivial) held
      · cases taken
    | writecb =>
      dsimp only at taken
      split at taken
      · cases taken
        exact rules.writecb (c := { c with writePending := false }) able held
      · cases taken
    | resumecb =>
      dsimp only at taken
      split at taken
      · cases taken
        exact rules.resumecb (c := { c with conn := { c.conn with resumeActive := false } })
          (rules.able.adjusts c.conn.flags c.conn.output c.conn.reading false (able trivial))
          (rules.kept.adjusts c.conn.flags c.conn.output c.conn.reading false held)
      · cases taken
    | eventcb eof =>
      cases taken
      exact rules.eventcb held eof
    | act actions =>
      cases taken
      exact rules.kept.act held actions

theorem reaches {allowed : Connection → Event → Prop} {start : Connection}
    (able : ∀ c event, allowed c event → c.Parses event → c.At ready) (first : start.At holds)
    (reached : Reaches site env allowed start c) : c.At holds :=
  reached.invariant first fun held permitted taken => rules.step (able _ _ permitted) held taken

end ConnInvariant

end Evhtp
