import Evhtp.Proofs.ConnectionHooks

/-! Invariants of a connection that follow the course of its messages: what is known before a message begins,
what is known while it is read, and what is known in any case. -/

namespace Evhtp

/-- A property of a connection that calls of the application and the callbacks around the parser keep. -/
structure Conn.Stable (holds : Conn → Prop) : Prop where
  follows : ∀ {conn after : Conn}, holds conn → conn.Follows after → holds after
  adjusts : ∀ {conn : Conn} flags output reading resumeActive, holds conn →
    holds { conn with flags, output, reading, resumeActive }
  scratch : ∀ {conn : Conn}, holds conn → holds conn.takeScratch
  counted : ∀ {conn : Conn} {numRequests : Nat}, holds conn → conn.numRequests ≤ numRequests → holds { conn with numRequests }

/-- What does not change while a request is read does not depend on the reply and the flags either. -/
theorem Conn.Stable.of_reads {holds : Conn → Prop} (reads : ∀ {conn after : Conn}, holds conn → conn.Reads True after → holds after)
    (counted : ∀ {conn : Conn} {numRequests : Nat}, holds conn → conn.numRequests ≤ numRequests → holds { conn with numRequests }) :
    Conn.Stable holds where
  follows held follows := reads held follows.reads
  adjusts _ _ _ _ held := reads held (Conn.reads_aside _ _ _ _ _ _)
  scratch held := reads held (takeScratch_reads _)
  counted := counted

theorem Conn.Stable.unmoved {holds : Conn → Prop} (stable : Conn.Stable holds) :
    Unmoved fun p conn => p.state = .start → holds conn where
  follows held follows same start := by
    obtain ⟨_, _, rfl⟩ := same
    exact stable.follows (held start) follows
  adjusts flags output reading resumeActive held start := stable.adjusts flags output reading resumeActive (held start)
  scratch held start := stable.scratch (held start)
  resumes held start := held start

def Conn.answered (site : Site) (conn : Conn) : Nat :=
  if (site.htp conn.htp).maxKeepaliveRequests > 0 then conn.numRequests + 1 else conn.numRequests

structure MessageRules (site : Site) (between within always : Conn → Prop) : Prop where
  before_stable : Conn.Stable between
  within_stable : Conn.Stable within
  always_stable : Conn.Stable always
  begins : ∀ {conn after : Conn}, always conn → between conn → conn.Begins after → always after ∧ within after
  reads : ∀ {conn after : Conn}, always conn → within conn → conn.Reads True after → always after ∧ within after
  refuses : ∀ {conn : Conn} {request : Request} (length : Nat), always conn → within conn → conn.request = some request →
    conn.maxBodySize > 0 ∧ conn.bodyBytesRead + length ≥ conn.maxBodySize →
    always (conn.refuse request length) ∧ within (conn.refuse request length)
  accepts : ∀ {conn : Conn} {request : Request} (length : Nat), always conn → within conn → conn.request = some request →
    ¬ (conn.maxBodySize > 0 ∧ conn.bodyBytesRead + length ≥ conn.maxBodySize) →
    always (conn.accept request length) ∧ within (conn.accept request length)
  completes : ∀ {conn : Conn} {request called : Request} {dispatched : List Request}, always conn → within conn →
    conn.request = some request → called = request ∨ called = queryFromBody request →
    (called.cb = none ∧ dispatched = conn.dispatched ∨ called.cb.isSome ∧ dispatched = conn.dispatched ++ [called]) →
    always { conn with request := some called, dispatched }
  frees : ∀ {conn freed : Conn} {request : Request} flags htp, always conn → conn.request = some request →
    request.flags.finished = true → request.flags.keepalive = true →
    ¬ ((site.htp conn.htp).maxKeepaliveRequests > 0 ∧ conn.answered site ≥ (site.htp conn.htp).maxKeepaliveRequests) →
    Conn.Follows { conn with numRequests := conn.answered site } freed →
    always { freed with request := none, flags, bodyBytesRead := 0, htp }

theorem Conn.le_answered (site : Site) (conn : Conn) : conn.numRequests ≤ conn.answered site := by
  unfold Conn.answered
  split
  · exact Nat.le_succ _
  · exact Nat.le_refl _

/-- The end of a reply: the connection goes on without the request, or it is closed after all. -/
theorem replyDone_cases [Htstring] (site : Site) (env : Env) (c : Connection) (request : Request) :
    (request.flags.keepalive = true ∧
        ¬ ((site.htp c.conn.htp).maxKeepaliveRequests > 0 ∧ c.conn.answered site ≥ (site.htp c.conn.htp).maxKeepaliveRequests) ∧
        ∃ freed, Conn.Follows { c.conn with numRequests := c.conn.answered site } freed ∧
          ∃ flags htp, (replyDone site env c request).conn = { freed with request := none, flags, bodyBytesRead := 0, htp } ∧
            (replyDone site env c request).parser.state = .start) ∨
      ((replyDone site env c request).parser =
          (htparserRunEof (requestPsets site env) c.parser { c.conn with numRequests := c.conn.answered site }).1 ∧
        (replyDone site env c request).conn =
          (htparserRunEof (requestPsets site env) c.parser { c.conn with numRequests := c.conn.answered site }).2) := by
  by_cases stays : (request.flags.keepalive && !(decide ((site.htp c.conn.htp).maxKeepaliveRequests > 0 ∧
      c.conn.answered site ≥ (site.htp c.conn.htp).maxKeepaliveRequests))) = true
  · obtain ⟨keepalive, below⟩ := Bool.and_eq_true_iff.mp stays
    have freeing := (runApp_follows env .requestFini c.parser.toParser { c.conn with numRequests := c.conn.answered site }).1
    have same : replyDone site env c request = _ := if_pos stays
    rw [same]
    exact .inl ⟨keepalive, by simpa only [Bool.not_eq_true', decide_eq_false_iff_not] using below, _, freeing, _, _, rfl, rfl⟩
  · have same : replyDone site env c request = _ := if_neg stays
    rw [same]
    exact .inr ⟨rfl, rfl⟩

def MessageStage (between within always : Conn → Prop) (stage : Stage) (p : Parser) (conn : Conn) : Prop :=
  always conn ∧
    match stage with
    | .idle => p.state ≠ .error → between conn
    | .line | .target | .value => p.state ≠ .error → within conn
    | .done => p.state = .start ∨ p.state = .error

def MessageHolds (within always : Conn → Prop) (p : Parser) (conn : Conn) : Prop :=
  always conn ∧ (p.state ≠ .start → p.state ≠ .error → within conn)

theorem Fires.running {p : Parser} {name : HookName} (fires : Fires p name) : p.state ≠ .error := by
  intro failed
  cases name <;> simp [Fires, failed] at fires

theorem Fires.not_begin {p : Parser} {name : HookName} (fires : Fires p name) : name ≠ .onMsgBegin := by
  rintro rfl
  exact fires

theorem Fires.not_complete {p : Parser} {name : HookName} (fires : Fires p name) : name ≠ .onMsgComplete := by
  rintro rfl
  exact fires

namespace MessageRules
variable {site : Site} {env : Env} {between within always : Conn → Prop} {p : Parser} {conn : Conn}
  (rules : MessageRules site between within always)
include rules

theorem body (data : Bytes) (held : always conn) (inside : within conn) :
    always (parseBodyHook env data p conn).2 ∧ within (parseBodyHook env data p conn).2 := by
  cases here : conn.request with
  | none =>
    have same : (parseBodyHook env data p conn).2 = conn := by
      unfold parseBodyHook withRequest
      rw [here]
    rw [same]
    exact ⟨held, inside⟩
  | some request =>
    rcases parseBodyHook_piece env data p here with ⟨limit, full, -, reads⟩ | ⟨fits, reads⟩
    · obtain ⟨held, inside⟩ := rules.refuses data.length held inside here ⟨limit, full⟩
      exact rules.reads held inside reads
    · obtain ⟨held, inside⟩ := rules.accepts data.length held inside here fits
      exact rules.reads held inside reads

theorem fini (held : always conn) (inside : within conn) : always (parseFini env p conn).2 := by
  rcases parseFini_completes env p conn with same | ⟨request, called, here, same, dispatched, given, follows⟩
  · rw [same]
    exact held
  · exact rules.always_stable.follows (rules.completes held inside here same given) follows

theorem ended (env : Env) (start : p.state = .start) (held : always conn) (inside : within conn) :
    always (hook (requestPsets site env) .onMsgComplete [] ⟨p, conn⟩).2.user ∧
      ((hook (requestPsets site env) .onMsgComplete [] ⟨p, conn⟩).2.p.state = .start ∨
        (hook (requestPsets site env) .onMsgComplete [] ⟨p, conn⟩).2.p.state = .error) := by
  have gone := hook_state_or_error (requestPsets site env) .onMsgComplete [] ⟨p, conn⟩
  rw [start] at gone
  exact ⟨rules.fini held inside, gone⟩

theorem gone (here : p.state = .body) (held : MessageHolds within always p conn) :
    MessageHolds within always (hook (requestPsets site env) .onMsgComplete [] ⟨{ p with state := .start }, conn⟩).2.p
      (hook (requestPsets site env) .onMsgComplete [] ⟨{ p with state := .start }, conn⟩).2.user := by
  have inside : within conn := held.2 (here ▸ nofun) (here ▸ nofun)
  have start : ({ p with state := .start } : Parser).state = .start := rfl
  obtain ⟨kept, gone⟩ := rules.ended env start held.1 inside
  exact ⟨kept, fun inside alive => absurd gone (not_or.mpr ⟨inside, alive⟩)⟩

theorem staged (env : Env) : StagedInvariant (requestPsets site env) (MessageStage between within always) where
  silent := by
    intro stage p p' conn held silent
    refine ⟨held.1, ?_⟩
    have running : p'.state ≠ .error → p.state ≠ .error := fun alive failed => alive (silent.error_stays failed)
    cases stage with
    | idle | line | target | value => exact fun alive => held.2 (running alive)
    | done => exact held.2.elim silent.start_or_error fun failed => .inr (silent.error_stays failed)
  failed held failed := by
    refine ⟨held.1, ?_⟩
    split
    · exact fun alive => absurd failed alive
    · exact fun alive => absurd failed alive
    · exact fun alive => absurd failed alive
    · exact fun alive => absurd failed alive
    · exact .inr failed
  status _ _ held := held
  begins := by
    intro p conn here _ held
    rcases hook_begins site env p.begin conn with ⟨failed, same⟩ | begun
    · refine ⟨?_, fun alive => absurd failed alive⟩
      rw [same]
      exact held.1
    · obtain ⟨kept, inside⟩ := rules.begins held.1 (held.2 (here ▸ nofun)) begun
      exact ⟨kept, fun _ => inside⟩
  host := by
    intro p conn value here _ held
    have reads := (hook_reads site env .hostname value p.sawHost conn (by decide)).imp fun _ => trivial
    obtain ⟨kept, inside⟩ := rules.reads held.1 (held.2 (here ▸ nofun)) reads
    exact ⟨kept, fun _ => inside⟩
  completes := by
    intro p conn here _ held
    exact rules.ended env rfl held.1 (held.2 (here ▸ nofun))
  calls := by
    intro p conn name data fires held
    have inside : within conn := by
      have known := held.2
      cases name <;> exact known fires.running
    have kept : always (hook (requestPsets site env) name data ⟨p, conn⟩).2.user ∧
        within (hook (requestPsets site env) name data ⟨p, conn⟩).2.user := by
      by_cases body : name = .body
      · subst body
        exact rules.body data held.1 inside
      · exact rules.reads held.1 inside ((hook_reads site env name data p conn ⟨fires.not_begin, body, fires.not_complete⟩).imp
          fun _ => trivial)
    refine ⟨kept.1, ?_⟩
    cases name <;> exact fun _ => kept.2

theorem eof {parser : Htparser} (held : MessageHolds within always parser.toParser conn) :
    MessageHolds within always (htparserRunEof (requestPsets site env) parser conn).1.toParser
      (htparserRunEof (requestPsets site env) parser conn).2 := by
  unfold htparserRunEof
  split
  · next here =>
    exact rules.gone here.1 held
  · exact held

variable [Htstring]

theorem free {c : Connection} {request : Request} (here : c.conn.request = some request) (finished : request.flags.finished = true)
    (held : MessageHolds within always c.parser.toParser c.conn) :
    MessageHolds within always (replyDone site env c request).parser.toParser (replyDone site env c request).conn := by
  rcases replyDone_cases site env c request with ⟨keepalive, below, freed, follows, flags, htp, same, start⟩ | ⟨parser, same⟩
  · refine ⟨?_, fun inside => absurd start inside⟩
    rw [same]
    exact rules.frees flags htp held.1 here finished keepalive below follows
  · have counted : MessageHolds within always c.parser.toParser { c.conn with numRequests := c.conn.answered site } :=
      ⟨rules.always_stable.counted held.1 (c.conn.le_answered site), fun inside alive =>
        rules.within_stable.counted (held.2 inside alive) (c.conn.le_answered site)⟩
    rw [same, parser]
    exact rules.eof counted

theorem invariant (env : Env) :
    ConnInvariant site env (fun p conn => p.state = .start → between conn) (MessageHolds within always) where
  able := rules.before_stable.unmoved
  kept := {
    follows := fun held follows same => by
      obtain ⟨_, _, rfl⟩ := same
      exact ⟨rules.always_stable.follows held.1 follows, fun inside alive =>
        rules.within_stable.follows (held.2 inside alive) follows⟩
    adjusts := fun flags output reading resumeActive held =>
      ⟨rules.always_stable.adjusts flags output reading resumeActive held.1, fun inside alive =>
        rules.within_stable.adjusts flags output reading resumeActive (held.2 inside alive)⟩
    scratch := fun held => ⟨rules.always_stable.scratch held.1, fun inside alive =>
      rules.within_stable.scratch (held.2 inside alive)⟩
    resumes := fun held => held }
  runs := by
    intro p conn fuel data able held
    rcases (rules.staged env).runs fuel data (s := ⟨p, conn⟩) (fun start => ⟨held.1, fun _ => able start⟩)
      (fun inside => ⟨held.1, held.2 inside⟩) with ⟨start, known⟩ | ⟨-, known⟩ | gone
    · exact ⟨known.1, fun inside => absurd start inside⟩
    · exact ⟨known.1, fun _ => known.2⟩
    · exact ⟨gone.1, fun inside alive => absurd gone.2 (not_or.mpr ⟨inside, alive⟩)⟩
  ends := rules.gone
  replied := rules.free

end MessageRules

end Evhtp
