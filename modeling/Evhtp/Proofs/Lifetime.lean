import Evhtp.Proofs.BodyLimit

/-! The end of a connection: after a request that does not keep it alive, or after a number of requests. Both are
decided when a reply was sent, for the request that is current then; so they hold as long as no other request has
taken its place. -/

namespace Evhtp

/-- The parser is run between two messages only when the last request is gone. -/
def RequestGone (c : Connection) (event : Event) : Prop :=
  c.Parses event → c.parser.state = .start → c.conn.request = none

instance (c : Connection) (event : Event) : Decidable (RequestGone c event) :=
  inferInstanceAs (Decidable (_ → _ → _))

/-- No more requests were dispatched than the limit allows, and no more than were answered, but for the one that is
current. -/
structure Conn.Counted (limit : Nat) (conn : Conn) : Prop where
  bounded : conn.dispatched.length ≤ limit
  idle : conn.request = none → conn.dispatched.length ≤ conn.numRequests ∧ conn.dispatched.length < limit
  current : conn.dispatched.length ≤ conn.numRequests + 1

def Conn.Room (limit : Nat) (conn : Conn) : Prop :=
  conn.dispatched.length ≤ conn.numRequests ∧ conn.dispatched.length < limit

theorem requestNone_stable : Conn.Stable fun conn => conn.request = none :=
  .of_reads (fun absent reads => reads.absent absent) fun absent _ => absent

section
variable {limit : Nat} {conn after : Conn}

theorem Conn.Room.of_reads (room : conn.Room limit) (reads : conn.Reads True after) : after.Room limit := by
  unfold Conn.Room
  rw [reads.dispatched, reads.numRequests]
  exact room

theorem Conn.Room.counted (room : conn.Room limit) : conn.Counted limit ∧ conn.Room limit :=
  ⟨⟨room.2.le, fun _ => room, room.1.trans (Nat.le_succ _)⟩, room⟩

theorem Conn.Counted.of_reads (counted : conn.Counted limit) (reads : conn.Reads True after) : after.Counted limit := by
  refine ⟨?_, fun absent => ?_, ?_⟩
  · rw [reads.dispatched]
    exact counted.bounded
  · rw [reads.dispatched, reads.numRequests]
    apply counted.idle
    cases here : conn.request with
    | none => rfl
    | some request =>
      obtain ⟨request', there, -⟩ := reads.request request here
      cases absent.symm.trans there
  · rw [reads.dispatched, reads.numRequests]
    exact counted.current

theorem keepalive_rules (site : Site) (positive : 0 < limit) (limited : ∀ id, (site.htp id).maxKeepaliveRequests = limit) :
    MessageRules site (fun conn => conn.request = none) (Conn.Room limit) (Conn.Counted limit) where
  before_stable := requestNone_stable
  within_stable := .of_reads Conn.Room.of_reads fun room more => ⟨room.1.trans more, room.2⟩
  always_stable := .of_reads Conn.Counted.of_reads fun counted more =>
    ⟨counted.bounded, fun absent => ⟨(counted.idle absent).1.trans more, (counted.idle absent).2⟩,
      counted.current.trans (Nat.succ_le_succ more)⟩
  begins counted absent begun := by
    apply Conn.Room.counted
    unfold Conn.Room
    rw [begun.dispatched, begun.numRequests]
    exact counted.idle absent
  reads counted room reads := ⟨counted.of_reads reads, room.of_reads reads⟩
  refuses _ _ room _ _ := Conn.Room.counted room
  accepts _ _ room _ _ := Conn.Room.counted room
  completes counted room _ _ given := by
    rcases given with ⟨-, rfl⟩ | ⟨-, rfl⟩
    · exact ⟨counted.bounded, nofun, counted.current⟩
    · refine ⟨?_, nofun, ?_⟩
      · rw [List.length_append]
        exact room.2
      · rw [List.length_append]
        exact Nat.succ_le_succ room.1
  frees := by
    intro conn freed request flags htp counted _ _ _ below follows
    have answered : conn.answered site = conn.numRequests + 1 := if_pos (by rw [limited]; exact positive)
    rw [limited, answered] at below
    have few := counted.current
    apply And.left
    apply Conn.Room.counted
    unfold Conn.Room
    dsimp only
    rw [follows.dispatched, follows.numRequests, answered]
    dsimp only
    omega

end

/-- A request that does not keep the connection alive was read, and `dispatched` are all requests so far. -/
structure LastRead (dispatched : List Request) (p : Parser) (conn : Conn) : Prop where
  state : p.state = .start ∨ p.state = .error
  same : conn.dispatched = dispatched
  last : ∃ request, conn.request = some request ∧ request.flags.keepalive = false

theorem lastRead_unmoved (dispatched : List Request) : Unmoved (LastRead dispatched) where
  follows := by
    intro p p' conn conn' ended follows same
    obtain ⟨_, _, rfl⟩ := same
    obtain ⟨request, here, closes⟩ := ended.last
    obtain ⟨request', there, same⟩ := follows.request request here
    exact ⟨ended.state, follows.dispatched.trans ended.same, request', there, same.keepalive.trans closes⟩
  adjusts _ _ _ _ ended := ⟨ended.state, ended.same, ended.last⟩
  scratch := by
    intro p conn ended
    obtain ⟨request, here, closes⟩ := ended.last
    unfold Conn.takeScratch
    split
    · exact ended
    · next found there =>
      cases here.symm.trans there
      exact ⟨ended.state, ended.same, _, rfl, closes⟩
  resumes ended := ⟨ended.state, ended.same, ended.last⟩

theorem lastRead_invariant [Htstring] (site : Site) (env : Env) (dispatched : List Request) :
    ConnInvariant site env (fun p conn => p.state = .start → conn.request = none) (LastRead dispatched) where
  able := requestNone_stable.unmoved
  kept := lastRead_unmoved dispatched
  runs := by
    intro p conn fuel data able ended
    obtain ⟨request, here, -⟩ := ended.last
    rcases ended.state with start | failed
    · cases here.symm.trans (able start)
    · rw [runLoop_stopped _ _ _ (.inl failed)]
      exact ended
  ends := by
    intro p conn here ended
    rcases ended.state with start | failed
    · cases here.symm.trans start
    · cases here.symm.trans failed
  replied := by
    intro c request here _ ended
    obtain ⟨found, there, closes⟩ := ended.last
    cases here.symm.trans there
    have gone : ¬ (c.parser.state = .body ∧ c.parser.body = .identity) := by
      rintro ⟨inside, -⟩
      rcases ended.state with start | failed
      · cases inside.symm.trans start
      · cases inside.symm.trans failed
    rcases replyDone_cases site env c request with ⟨keepalive, -⟩ | ⟨parser, conn⟩
    · cases keepalive.symm.trans closes
    · rw [parser, conn, htparserRunEof, if_neg gone]
      exact ⟨ended.state, ended.same, ended.last⟩

/-- If the last request is gone before more is read, none is dispatched after one that does not keep the connection
alive, and no more than the limit says. -/
theorem connection_lifetime [Htstring] (site : Site) (env : Env) {start c : Connection} (fresh : start.Fresh)
    (reached : Reaches site env RequestGone start c) :
    (∀ request, c.conn.request = some request → request.flags.keepalive = false → c.parser.state = .start →
      ∀ later, Reaches site env RequestGone c later → later.conn.dispatched = c.conn.dispatched) ∧
    (∀ limit, 0 < limit → (∀ id, (site.htp id).maxKeepaliveRequests = limit) → c.conn.dispatched.length ≤ limit) := by
  refine ⟨fun request here closes start later further => ?_, fun limit positive limited => ?_⟩
  · have ended : c.At (LastRead c.conn.dispatched) := ⟨.inl start, rfl, request, here, closes⟩
    exact ((lastRead_invariant site env c.conn.dispatched).reaches (fun _ _ => id) ended further).same
  · have first : start.At (MessageHolds (Conn.Room limit) (Conn.Counted limit)) := by
      refine ⟨⟨?_, fun _ => ⟨?_, ?_⟩, ?_⟩, fun inside => absurd fresh.state inside⟩
      all_goals simp [fresh.dispatched, positive]
    exact (((keepalive_rules site positive limited).invariant env).reaches (fun _ _ => id) first reached).1.bounded

def lastRequest : Bytes := ascii "GET / HTTP/1.1\r\nConnection: close\r\n\r\n"

def plainRequest : Bytes := ascii "GET / HTTP/1.1\r\n\r\n"

def onceSite : Site where
  htp _ := { maxKeepaliveRequests := 1 }
  regexec _ _ := none

section
attribute [local instance] Plain.htstring

theorem connection_lifetime_last :
    ∃ c later, Reaches onceSite answering RequestGone (connectionNew onceSite defaultConfig) c ∧
      Reaches onceSite answering RequestGone c later ∧ c.conn.dispatched.length = 1 ∧ later.closed = some .lastReply ∧
      later.conn.dispatched = c.conn.dispatched ∧ c.conn.dispatched.length ≤ 1 := by
  have run : ((Runs.run (step onceSite answering) RequestGone (connectionNew onceSite defaultConfig)
      [.arrive lastRequest, .readcb]).bind fun c =>
        (Runs.run (step onceSite answering) RequestGone c [.arrive plainRequest, .flush 1000, .writecb]).map fun later =>
          ((c.conn.request.map (·.flags.keepalive), c.parser.state), c.conn.dispatched.length, later.closed)) =
      some ((some false, .start), 1, some .lastReply) := by
    decide +kernel
  obtain ⟨c, first, run⟩ := Option.bind_eq_some_iff.mp run
  obtain ⟨later, second, seen⟩ := Option.map_eq_some_iff.mp run
  obtain ⟨last, seen⟩ := Prod.mk.inj seen
  obtain ⟨last, state⟩ := Prod.mk.inj last
  obtain ⟨one, closed⟩ := Prod.mk.inj seen
  obtain ⟨request, here, closes⟩ := Option.map_eq_some_iff.mp last
  have reached := Runs.Reaches.of_run first
  have further := Runs.Reaches.of_run second
  obtain ⟨ends, bound⟩ := connection_lifetime onceSite answering (connectionNew_fresh onceSite defaultConfig) reached
  exact ⟨c, later, reached, further, one, closed, ends request here closes state later further, bound 1 (by decide) fun _ => rfl⟩

/-- A second request is read before the reply to the first was sent. -/
theorem connection_lifetime_exceeded :
    ∃ c later, Reaches onceSite answering (fun _ _ => True) (connectionNew onceSite defaultConfig) c ∧
      (c.conn.request.map fun request => (request.flags.keepalive, request.flags.finished)) = some (false, true) ∧
      c.parser.state = .start ∧ Reaches onceSite answering (fun _ _ => True) c later ∧
      later.conn.dispatched ≠ c.conn.dispatched ∧ ¬ later.conn.dispatched.length ≤ 1 := by
  have run : ((Runs.run (step onceSite answering) (fun _ _ => True) (connectionNew onceSite defaultConfig)
      [.arrive lastRequest, .readcb]).bind fun c =>
        (Runs.run (step onceSite answering) (fun _ _ => True) c [.arrive plainRequest, .readcb]).map fun later =>
          ((c.conn.request.map fun request => (request.flags.keepalive, request.flags.finished), c.parser.state),
            c.conn.dispatched.length, later.conn.dispatched.length)) =
      some ((some (false, true), .start), 1, 2) := by
    decide +kernel
  obtain ⟨c, first, run⟩ := Option.bind_eq_some_iff.mp run
  obtain ⟨later, second, seen⟩ := Option.map_eq_some_iff.mp run
  obtain ⟨last, seen⟩ := Prod.mk.inj seen
  obtain ⟨last, state⟩ := Prod.mk.inj last
  obtain ⟨one, two⟩ := Prod.mk.inj seen
  refine ⟨c, later, Runs.Reaches.of_run first, last, state, Runs.Reaches.of_run second, fun same => ?_, ?_⟩
  · rw [same, one] at two
    cases two
  · rw [two]
    decide

end

end Evhtp
