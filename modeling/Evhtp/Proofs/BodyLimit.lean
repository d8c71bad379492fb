import Mathlib.Algebra.Order.BigOperators.Group.List
import Mathlib.Algebra.Order.Ring.Nat
import Evhtp.Proofs.MessageRules
import Evhtp.Proofs.H2Bodies

/-! The limit on the size of a body. The bytes are counted on the connection; the count is that of the current
request as long as it is zero whenever a message begins, and on HTTP/2 as long as no other stream has had data. -/

namespace Evhtp

/-- A connection that was accepted: nothing was read from it. -/
structure Connection.Fresh (c : Connection) : Prop where
  state : c.parser.state = .start
  request : c.conn.request = none
  bodyBytesRead : c.conn.bodyBytesRead = 0
  numRequests : c.conn.numRequests = 0
  dispatched : c.conn.dispatched = []
  bodies : c.conn.bodies = []

/-- A piece of a body is refused if it makes its own body reach the limit, and only then. -/
def Conn.LimitPerRequest (limit : Nat) (conn : Conn) : Prop :=
  ∀ piece ∈ conn.bodies, (piece.refused = true ↔ limit ≤ piece.received + piece.length)

/-- The parser is run between two messages only when the bytes of the last body were forgotten. -/
def CountCleared (c : Connection) (event : Event) : Prop :=
  c.Parses event → c.parser.state = .start → c.conn.bodyBytesRead = 0

instance (c : Connection) (event : Event) : Decidable (CountCleared c event) :=
  inferInstanceAs (Decidable (_ → _ → _))

structure Conn.Limited (limit : Nat) (conn : Conn) : Prop where
  pieces : conn.LimitPerRequest limit
  maxBodySize : conn.maxBodySize = limit

/-- The bytes that are counted are those of the request. -/
def Conn.Matched (conn : Conn) : Prop := ∀ request, conn.request = some request → conn.bodyBytesRead = request.received

section
variable {limit : Nat} {conn after : Conn}

theorem Conn.Limited.of_reads (limited : conn.Limited limit) (reads : conn.Reads True after) : after.Limited limit := by
  refine ⟨?_, reads.maxBodySize.trans limited.maxBodySize⟩
  unfold Conn.LimitPerRequest
  rw [reads.bodies]
  exact limited.pieces

theorem Conn.Matched.of_reads (matched : conn.Matched) (reads : conn.Reads True after) : after.Matched := by
  intro request here
  cases found : conn.request with
  | none => cases here.symm.trans (reads.absent found)
  | some old =>
    obtain ⟨request', there, received, -⟩ := reads.request old found
    cases here.symm.trans there
    rw [reads.bodyBytesRead, received]
    exact matched old found

theorem Conn.Limited.add (limited : conn.Limited limit) {piece : BodyPiece}
    (right : piece.refused = true ↔ limit ≤ piece.received + piece.length) :
    ∀ other ∈ conn.bodies ++ [piece], (other.refused = true ↔ limit ≤ other.received + other.length) :=
  List.forall_mem_append.mpr ⟨limited.pieces, List.forall_mem_singleton.mpr right⟩

theorem limit_rules (site : Site) (positive : 0 < limit) :
    MessageRules site (fun conn => conn.bodyBytesRead = 0) Conn.Matched (Conn.Limited limit) where
  before_stable := .of_reads (fun zero reads => reads.bodyBytesRead.trans zero) fun zero _ => zero
  within_stable := .of_reads Conn.Matched.of_reads fun matched _ => matched
  always_stable := .of_reads Conn.Limited.of_reads fun limited _ => ⟨limited.pieces, limited.maxBodySize⟩
  begins limited zero begun := by
    obtain ⟨request, here, new⟩ := begun.request
    refine ⟨⟨?_, begun.maxBodySize.trans limited.maxBodySize⟩, fun other there => ?_⟩
    · unfold Conn.LimitPerRequest
      rw [begun.bodies]
      exact limited.pieces
    · cases here.symm.trans there
      rw [begun.bodyBytesRead, zero, new.received]
  reads limited matched reads := ⟨limited.of_reads reads, matched.of_reads reads⟩
  refuses length limited matched here full := by
    refine ⟨⟨limited.add ⟨fun _ => ?_, fun _ => rfl⟩, limited.maxBodySize⟩, matched⟩
    have reached := full.2
    rw [matched _ here, limited.maxBodySize] at reached
    exact reached
  accepts length limited matched here fits := by
    refine ⟨⟨limited.add ⟨nofun, fun reached => absurd ?_ fits⟩, limited.maxBodySize⟩, ?_⟩
    · rw [limited.maxBodySize, matched _ here]
      exact ⟨positive, reached⟩
    · intro other there
      cases there
      exact congrArg (· + length) (matched _ here)
  completes limited _ _ _ _ := ⟨limited.pieces, limited.maxBodySize⟩
  frees _ _ limited _ _ _ _ follows := by
    refine ⟨?_, follows.maxBodySize.trans limited.maxBodySize⟩
    unfold Conn.LimitPerRequest
    rw [follows.bodies]
    exact limited.pieces

end

def receivedOn (id : Nat) (pieces : List H2Piece) : Nat := ((pieces.filter (·.stream = id)).map (·.data.length)).sum

def receivedTotal (pieces : List H2Piece) : Nat := (pieces.map (·.data.length)).sum

/-- Data is refused with `EVHTP_RES_DATA_TOO_LONG`: the callback fails, and no hook is called. -/
def H2Conn.Refuses (env : H2Env) (id : Nat) (data : Bytes) (c : H2Conn) : Prop :=
  onDataChunkRecv env id data c =
    (-1, { c.onRequest id (·.setStatus resDataTooLong) with error := true, pieces := c.pieces ++ [⟨id, data, none⟩] })

/-- Data is refused if it makes the body of its own stream reach the limit, and only then. -/
def H2Conn.LimitPerStream (env : H2Env) (limit : Nat) (id : Nat) (data : Bytes) (c : H2Conn) : Prop :=
  c.Refuses env id data ↔ limit ≤ receivedOn id c.pieces + data.length

structure H2Conn.CountsAll (limit : Nat) (c : H2Conn) : Prop where
  maxBodySize : c.maxBodySize = limit
  bodyBytesRead : c.bodyBytesRead = receivedTotal c.pieces

section
variable {site : Site} {env : H2Env} {limit : Nat}

theorem countsAll_step {s after : Session} {event : H2Event} (stepped : s.Stepped site env event after)
    (counts : s.conn.CountsAll limit) : after.conn.CountsAll limit := by
  by_cases data : ∃ id data, event = .dataChunk id data
  · obtain ⟨id, data, rfl⟩ := data
    rcases dataChunk_received stepped.ran with same | ⟨reply, received⟩
    · exact same ▸ counts
    · refine ⟨received.maxBodySize.trans counts.maxBodySize, ?_⟩
      rw [received.bodyBytesRead, received.pieces, counts.bodyBytesRead]
      simp [receivedTotal]
  · by_cases begins : ∃ id, event = .beginHeaders id true
    · obtain ⟨id, rfl⟩ := begins
      rw [stepped.conn]
      exact ⟨counts.maxBodySize, counts.bodyBytesRead⟩
    · have kept : BodiesKept s.conn after.conn := by
        rw [stepped.conn]
        exact .run (fun id chunk equal => data ⟨id, chunk, equal⟩) fun id equal => begins ⟨id, equal⟩
      refine ⟨kept.maxBodySize.trans counts.maxBodySize, ?_⟩
      rw [kept.bodyBytesRead, kept.pieces]
      exact counts.bodyBytesRead

theorem H2Conn.CountsAll.refuses_iff {c : H2Conn} (counts : c.CountsAll limit) (env : H2Env) (positive : 0 < limit)
    {id : Nat} {request : Request} (live : c.userData id = some request) (unanswered : request.flags.finished = false) (data : Bytes) :
    c.Refuses env id data ↔ limit ≤ receivedTotal c.pieces + data.length := by
  have full : (c.maxBodySize > 0 ∧ c.bodyBytesRead + data.length ≥ c.maxBodySize) ↔
      limit ≤ receivedTotal c.pieces + data.length := by
    rw [counts.maxBodySize, counts.bodyBytesRead]
    exact and_iff_right positive
  rw [← full]
  constructor
  · intro refused
    by_contra fits
    have given : (onDataChunkRecv env id data c).2.pieces =
        c.pieces ++ [⟨id, data, some (c.scratch ++ data, (c.hookBody env id data).1)⟩] := by
      unfold onDataChunkRecv
      simp only [live, unanswered, if_neg fits, Bool.false_eq_true, if_false]
      split <;> rfl
    rw [refused] at given
    have same := List.append_cancel_left given
    cases List.singleton_inj.mp same
  · intro full
    unfold H2Conn.Refuses onDataChunkRecv
    simp only [live, unanswered, if_pos full, Bool.false_eq_true, if_false]

theorem receivedOn_le_total (id : Nat) (pieces : List H2Piece) : receivedOn id pieces ≤ receivedTotal pieces := by
  unfold receivedOn receivedTotal
  exact (List.filter_sublist.map _).sum_le_sum fun _ _ => Nat.zero_le _

theorem countsAll_reached {start s : Session} (fresh : start.Fresh) (limited : start.conn.maxBodySize = limit)
    (reached : Session.Reaches site env (fun _ _ => True) start s) : s.conn.CountsAll limit := by
  apply reached.invariant
  · refine ⟨limited, ?_⟩
    rw [fresh.bodyBytesRead, fresh.pieces]
    rfl
  · exact fun _ _ _ _ stepped counts => countsAll_step stepped counts

end

/-- On HTTP/1.x the limit applies to each request if the count is cleared before each message; on HTTP/2, data is
treated by the limit on its own body exactly if its own body reaches the limit or all bodies together do not. -/
theorem body_limit_per_request [Htstring] {limit : Nat} (positive : 0 < limit) :
    (∀ (site : Site) (env : Env) (start c : Connection), start.Fresh → start.conn.maxBodySize = limit →
      Reaches site env CountCleared start c → c.conn.LimitPerRequest limit) ∧
    (∀ (site : Site) (env : H2Env) (start s : Session), start.Fresh → start.conn.maxBodySize = limit →
      Session.Reaches site env (fun _ _ => True) start s → ∀ id data request, s.conn.userData id = some request →
        request.flags.finished = false →
        (s.conn.LimitPerStream env limit id data ↔
          limit ≤ receivedOn id s.conn.pieces + data.length ∨ receivedTotal s.conn.pieces + data.length < limit)) := by
  refine ⟨fun site env start c fresh limited reached => ?_,
    fun site env start s fresh limited reached id data request live unanswered => ?_⟩
  · have first : start.At (MessageHolds Conn.Matched (Conn.Limited limit)) := by
      refine ⟨⟨?_, limited⟩, fun inside => absurd fresh.state inside⟩
      unfold Conn.LimitPerRequest
      rw [fresh.bodies]
      exact nofun
    have held := ((limit_rules site positive).invariant env).reaches (fun _ _ => id) first reached
    exact held.1.pieces
  · have refuses := (countsAll_reached fresh limited reached).refuses_iff env positive live unanswered data
    have less := receivedOn_le_total id s.conn.pieces
    unfold H2Conn.LimitPerStream
    rw [refuses]
    omega

def answering : Env where
  app _ hook :=
    match hook with
    | .callback .. => { actions := [.sendReply 200] }
    | _ => {}
  cached _ := none

def limitedSite : Site where
  htp _ := { maxBodySize := 10 }
  regexec _ _ := none

def upload : Bytes := ascii "POST / HTTP/1.1\r\nContent-Length: 6\r\n\r\nsecret"

def uploadAndReply : List Event := [.arrive upload, .readcb, .flush 1000, .writecb, .arrive upload, .readcb]

def uploadTwice : List Event := [.arrive upload, .readcb, .arrive upload, .readcb]

def limitedSession : Session where
  conn := { maxBodySize := 10 }

theorem limitedSession_fresh : limitedSession.Fresh := ⟨fun _ => rfl, fun _ => rfl, rfl, rfl, rfl, rfl⟩

theorem connectionNew_fresh (site : Site) (config : Http1config) : (connectionNew site config).Fresh :=
  ⟨rfl, rfl, rfl, rfl, rfl, rfl⟩

section
attribute [local instance] Plain.htstring

theorem body_limit_per_request_uploads :
    (∃ c, Reaches limitedSite answering CountCleared (connectionNew limitedSite defaultConfig) c ∧
      c.conn.bodies = [⟨0, 6, false⟩, ⟨0, 6, false⟩] ∧ c.conn.LimitPerRequest 10) ∧
    ∃ s, Session.Reaches plainSite plainH2 (fun _ _ => True) limitedSession s ∧
      s.conn.LimitPerStream plainH2 10 1 (ascii "secret") := by
  obtain ⟨connections, sessions⟩ := body_limit_per_request (by decide : 0 < 10)
  constructor
  · have run : ((Runs.run (step limitedSite answering) CountCleared (connectionNew limitedSite defaultConfig) uploadAndReply).map
        (·.conn.bodies)) = some [⟨0, 6, false⟩, ⟨0, 6, false⟩] := by
      decide +kernel
    obtain ⟨c, taken, bodies⟩ := Option.map_eq_some_iff.mp run
    have reached := Runs.Reaches.of_run taken
    exact ⟨c, reached, bodies, connections _ _ _ _ (connectionNew_fresh ..) rfl reached⟩
  · have run : ((limitedSession.steps plainSite plainH2 openUploads).map fun s =>
        ((s.conn.userData 1).map (·.flags.finished), s.conn.pieces)) = some (some false, []) := by
      decide +kernel
    obtain ⟨s, taken, seen⟩ := Option.map_eq_some_iff.mp run
    obtain ⟨live, pieces⟩ := Prod.mk.inj seen
    obtain ⟨request, live, unanswered⟩ := Option.map_eq_some_iff.mp live
    have reached : Session.Reaches plainSite plainH2 (fun _ _ => True) limitedSession s :=
      Session.Reaches.steps .start (fun _ _ _ => trivial) taken
    refine ⟨s, reached, ?_⟩
    apply (sessions _ _ _ _ limitedSession_fresh rfl reached 1 (ascii "secret") request live unanswered).mpr
    rw [pieces]
    exact .inr (by decide)

/-- The second of two requests is refused because of the body of the first. -/
theorem body_limit_shared :
    (∃ c, Reaches limitedSite answering (fun _ _ => True) (connectionNew limitedSite defaultConfig) c ∧
      ¬ c.conn.LimitPerRequest 10) ∧
    ∃ s, Session.Reaches plainSite plainH2 (fun _ _ => True) limitedSession s ∧
      (s.conn.userData 3).map (·.flags.finished) = some false ∧ ¬ s.conn.LimitPerStream plainH2 10 3 (ascii "secret") := by
  constructor
  · have run : ((Runs.run (step limitedSite answering) (fun _ _ => True) (connectionNew limitedSite defaultConfig) uploadTwice).map
        (·.conn.bodies)) = some [⟨0, 6, false⟩, ⟨0, 6, true⟩] := by
      decide +kernel
    obtain ⟨c, taken, bodies⟩ := Option.map_eq_some_iff.mp run
    refine ⟨c, Runs.Reaches.of_run taken, fun limited => ?_⟩
    have second := limited ⟨0, 6, true⟩ (by rw [bodies]; simp)
    revert second
    decide
  · have run : ((limitedSession.steps plainSite plainH2 (openUploads ++ [.dataChunk 1 (ascii "secret")])).map fun s =>
        ((s.conn.userData 3).map (·.flags.finished), receivedTotal s.conn.pieces, receivedOn 3 s.conn.pieces)) =
          some (some false, 6, 0) := by
      decide +kernel
    obtain ⟨s, taken, seen⟩ := Option.map_eq_some_iff.mp run
    obtain ⟨live, counts⟩ := Prod.mk.inj seen
    obtain ⟨total, own⟩ := Prod.mk.inj counts
    obtain ⟨request, here, unanswered⟩ := Option.map_eq_some_iff.mp live
    have reached : Session.Reaches plainSite plainH2 (fun _ _ => True) limitedSession s :=
      Session.Reaches.steps .start (fun _ _ _ => trivial) taken
    have counted := countsAll_reached limitedSession_fresh rfl reached
    have refused : s.conn.Refuses plainH2 3 (ascii "secret") := by
      apply (counted.refuses_iff plainH2 (by decide) here unanswered _).mpr
      rw [total]
      decide
    refine ⟨s, reached, live, fun limited => ?_⟩
    have own_reaches := limited.mp refused
    rw [own] at own_reaches
    revert own_reaches
    decide

end

end Evhtp
