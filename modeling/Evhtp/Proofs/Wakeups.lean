import Evhtp.Proofs.QueueShape

/-! No command is left behind. Whenever the target leaves `mpsc_queue_poll` with commands still in the queue, a
thread that is between its insertion and its write of the eventfd, or a write that was not read yet, is the reason;
so a target at rest, with no thread in `evthr_defer` and nothing to read, has run every command. -/

namespace Evhtp
open Links Runs

/-- The command of a thread that has not exchanged the head of the queue yet. -/
def Defer.holding : Defer → Option Nat
  | .inserting address .clear | .inserting address .exchange => some address
  | .outside | .inserting _ (.link _) | .waking => none

def Defer.linking : Defer → Option (QueueNode × QueueNode)
  | .inserting address (.link prev) => some (prev, .cmd address)
  | .outside | .inserting _ .clear | .inserting _ .exchange | .waking => none

/-- The command is in the queue and the eventfd is still to be written for it. -/
def Defer.due : Defer → Bool
  | .inserting _ (.link _) | .waking => true
  | .outside | .inserting _ .clear | .inserting _ .exchange => false

def Target.linking : Target → Option (QueueNode × QueueNode)
  | .polling (.insertStub _ (.link prev)) => some (prev, .stub)
  | _ => none

namespace Threads

def Linking (s : Threads) (first second : QueueNode) : Prop :=
  (∃ producer, (s.producers producer).linking = some (first, second)) ∨ s.target.linking = some (first, second)

/-- Nothing will wake the target but a command that is still to be inserted. -/
def Asleep (s : Threads) : Prop := s.eventfd = 0 ∧ ∀ producer, (s.producers producer).due = false

/-- Addresses are used for one command at a time. -/
structure Owned (s : Threads) (chain : List QueueNode) : Prop where
  queued : ∀ {address}, .cmd address ∈ chain → s.busy address = true
  held : ∀ {producer address}, (s.producers producer).holding = some address →
    s.busy address = true ∧ .cmd address ∉ chain ∧ s.target ≠ .running (.cmd address)
  cleared : ∀ {producer address}, s.producers producer = .inserting address .exchange →
    s.queue.next (.cmd address) = none
  apart : ∀ {producer other address insert insert'}, s.producers producer = .inserting address insert →
    s.producers other = .inserting address insert' → producer = other
  ran : ∀ {node}, s.target = .running node → ∃ address, node = .cmd address ∧ s.busy address = true ∧ node ∉ chain

def Knows (s : Threads) (chain : List QueueNode) : Prop :=
  match s.target with
  | .outside => s.Asleep → chain = [.stub]
  | .running _ | .polling .loadTail => True
  | .polling (.loadNext tail) => tail = s.queue.tail
  | .polling .loadHeadAtStub => s.queue.tail = .stub ∧ (s.Asleep → chain = [.stub])
  | .polling (.passStub next) => s.queue.tail = .stub ∧ s.queue.next .stub = some next
  | .polling (.loadNextPastStub tail) => tail = s.queue.tail ∧ tail ≠ .stub
  | .polling (.loadHead tail) => tail = s.queue.tail ∧ tail ≠ .stub ∧ (s.Asleep → chain = [tail])
  | .polling (.insertStub tail .clear) => tail = s.queue.tail ∧ tail ≠ .stub ∧ .stub ∉ chain
  | .polling (.insertStub tail .exchange) =>
    tail = s.queue.tail ∧ tail ≠ .stub ∧ .stub ∉ chain ∧ s.queue.next .stub = none
  | .polling (.insertStub tail (.link _)) | .polling (.loadNextAgain tail) =>
    tail = s.queue.tail ∧ tail ≠ .stub ∧ .stub ∈ chain
  | .polling (.storeTail tail next) => tail = s.queue.tail ∧ tail ≠ .stub ∧ s.queue.next tail = some next

def commands (s : Threads) (nodes : List QueueNode) : List Command :=
  nodes.filterMap fun
    | .stub => none
    | .cmd address => some (s.command address)

def inHand (s : Threads) : List QueueNode :=
  match s.target with
  | .running node => [node]
  | .outside | .polling _ => []

def inserted (s : Threads) (chain : List QueueNode) : List Command :=
  s.executed ++ s.commands (s.inHand ++ chain)

def entered (s : Threads) (producer : Nat) : Nat :=
  if (s.producers producer).holding.isSome then s.deferred producer - 1 else s.deferred producer

/-- The commands of each thread were inserted in the order in which it deferred them. -/
structure Ordered (s : Threads) (chain : List QueueNode) : Prop where
  named : ∀ {producer address}, (s.producers producer).holding = some address →
    s.command address = ⟨producer, s.deferred producer - 1⟩ ∧ 0 < s.deferred producer
  order : ∀ producer, (s.inserted chain).filter (·.producer = producer) =
    (List.range (s.entered producer)).map (Command.mk producer)

structure Valid (s : Threads) (chain : List QueueNode) : Prop where
  shape : Shape s.queue s.Linking chain
  owned : s.Owned chain
  knows : s.Knows chain
  ordered : s.Ordered chain

variable {s : Threads} {chain : List QueueNode} {producer address : Nat}
variable {after : Threads}

@[simp] theorem setProducer_same (s : Threads) (producer : Nat) (defer : Defer) :
    (s.setProducer producer defer).producers producer = defer := by
  simp [setProducer]

theorem setProducer_other (s : Threads) {producer other : Nat} (defer : Defer) (different : other ≠ producer) :
    (s.setProducer producer defer).producers other = s.producers other := by
  simp [setProducer, different]

theorem Owned.inserting_busy (owned : s.Owned chain) (shape : Shape s.queue s.Linking chain) {insert : Insert}
    (inserting : s.producers producer = .inserting address insert) : s.busy address = true := by
  cases insert with
  | clear | exchange => exact (owned.held (by rw [inserting]; rfl)).1
  | link prev =>
    have pending : s.Linking prev (.cmd address) := .inl ⟨producer, by rw [inserting]; rfl⟩
    exact owned.queued (shape.pending pending).1.right_mem

theorem linking_inserting {defer : Defer} {first second : QueueNode} (linking : defer.linking = some (first, second)) :
    ∃ address, defer = .inserting address (.link first) ∧ second = .cmd address := by
  cases defer with
  | outside | waking => cases linking
  | inserting address insert =>
    cases insert with
    | clear | exchange => cases linking
    | link prev =>
      cases linking
      exact ⟨address, rfl, rfl⟩

theorem linking_stub {target : Target} {first second : QueueNode} (linking : target.linking = some (first, second)) :
    second = .stub := by
  unfold Target.linking at linking
  split at linking <;> cases linking
  rfl

theorem holding_inserting {defer : Defer} (holding : defer.holding = some address) :
    ∃ insert, defer = .inserting address insert ∧ ∀ prev, insert ≠ .link prev := by
  cases defer with
  | outside | waking => cases holding
  | inserting other insert =>
    cases insert with
    | link prev => cases holding
    | clear =>
      cases holding
      exact ⟨_, rfl, nofun⟩
    | exchange =>
      cases holding
      exact ⟨_, rfl, nofun⟩

/-- What the target knows stays true while other threads insert commands and store links. -/
theorem Knows.kept (knows : s.Knows chain) (after : Threads) (chain' : List QueueNode) (tail_mem : s.queue.tail ∈ chain)
    (target : after.target = s.target) (tail : after.queue.tail = s.queue.tail)
    (stub : .stub ∈ chain' ↔ .stub ∈ chain) (sleep : after.Asleep → s.Asleep ∧ chain' = chain)
    (stored : ∀ {node next}, node ∈ chain → s.queue.next node = some next → after.queue.next node = some next)
    (unset : .stub ∉ chain → s.queue.next .stub = none → after.queue.next .stub = none) : after.Knows chain' := by
  unfold Knows at knows ⊢
  rw [target, tail]
  have woken {alone : List QueueNode} (slept : s.Asleep → chain = alone) (asleep : after.Asleep) : chain' = alone := by
    obtain ⟨before, same⟩ := sleep asleep
    exact same.trans (slept before)
  generalize s.target = place at knows
  match place, knows with
  | .outside, slept => exact woken slept
  | .running _, _ => trivial
  | .polling .loadTail, _ => trivial
  | .polling (.loadNext _), here => exact here
  | .polling .loadHeadAtStub, ⟨here, slept⟩ => exact ⟨here, woken slept⟩
  | .polling (.passStub _), ⟨here, next⟩ => exact ⟨here, stored (here ▸ tail_mem) next⟩
  | .polling (.loadNextPastStub _), here => exact here
  | .polling (.loadHead _), ⟨here, real, slept⟩ => exact ⟨here, real, woken slept⟩
  | .polling (.insertStub _ .clear), ⟨here, real, absent⟩ => exact ⟨here, real, fun member => absent (stub.mp member)⟩
  | .polling (.insertStub _ .exchange), ⟨here, real, absent, free⟩ =>
    exact ⟨here, real, fun member => absent (stub.mp member), unset absent free⟩
  | .polling (.insertStub _ (.link _)), ⟨here, real, member⟩ => exact ⟨here, real, stub.mpr member⟩
  | .polling (.loadNextAgain _), ⟨here, real, member⟩ => exact ⟨here, real, stub.mpr member⟩
  | .polling (.storeTail _ _), ⟨here, real, next⟩ => exact ⟨here, real, stored (here ▸ tail_mem) next⟩

theorem linking_start (defer : Defer) (quiet : (s.producers producer).linking = none) (first second : QueueNode) :
    (s.setProducer producer defer).Linking first second ↔
      s.Linking first second ∨ defer.linking = some (first, second) := by
  constructor
  · rintro (⟨other, linking⟩ | linking)
    · by_cases same : other = producer
      · subst same
        rw [setProducer_same] at linking
        exact .inr linking
      · rw [setProducer_other _ _ same] at linking
        exact .inl (.inl ⟨other, linking⟩)
    · exact .inl (.inr linking)
  · rintro ((⟨other, linking⟩ | linking) | linking)
    · have different : other ≠ producer := by
        rintro rfl
        exact nomatch quiet.symm.trans linking
      exact .inl ⟨other, by rwa [setProducer_other _ _ different]⟩
    · exact .inr linking
    · exact .inl ⟨producer, by rwa [setProducer_same]⟩

theorem linking_done (defer : Defer) {prev : QueueNode} (shape : Shape s.queue s.Linking chain) (owned : s.Owned chain)
    (was : s.producers producer = .inserting address (.link prev)) (done : defer.linking = none)
    (first second : QueueNode) :
    s.Linking first second ∧ first ≠ prev ↔ (s.setProducer producer defer).Linking first second := by
  have pending : s.Linking prev (.cmd address) := .inl ⟨producer, by rw [was]; rfl⟩
  constructor
  · rintro ⟨⟨other, linking⟩ | linking, different⟩
    · have apart : other ≠ producer := by
        rintro rfl
        rw [was] at linking
        cases linking
        exact different rfl
      exact .inl ⟨other, by rwa [setProducer_other _ _ apart]⟩
    · exact .inr linking
  · rintro (⟨other, linking⟩ | linking)
    · by_cases same : other = producer
      · subst same
        rw [setProducer_same, done] at linking
        cases linking
      · rw [setProducer_other _ _ same] at linking
        refine ⟨.inl ⟨other, linking⟩, ?_⟩
        rintro rfl
        have second_eq := (shape.pending (.inl ⟨other, linking⟩)).1.right_unique shape.distinct (shape.pending pending).1
        subst second_eq
        obtain ⟨_, there, same_node⟩ := linking_inserting linking
        cases same_node
        exact same (owned.apart there was)
    · refine ⟨.inr linking, ?_⟩
      rintro rfl
      have second_eq := (shape.pending (.inr linking)).1.right_unique shape.distinct (shape.pending pending).1
      exact nomatch second_eq.symm.trans (linking_stub linking)

theorem commands_congr {nodes : List QueueNode}
    (same : ∀ {address}, .cmd address ∈ nodes → after.command address = s.command address) :
    after.commands nodes = s.commands nodes := by
  unfold commands
  apply List.filterMap_congr
  intro node member
  cases node with
  | stub => rfl
  | cmd address => exact congrArg some (same member)

theorem Owned.inHand_busy (owned : s.Owned chain) (member : .cmd address ∈ s.inHand ++ chain) :
    s.busy address = true := by
  rcases List.mem_append.mp member with held | queued
  · unfold inHand at held
    split at held
    next node running =>
      obtain ⟨other, same, busy, _⟩ := owned.ran running
      have node_eq := List.mem_singleton.mp held
      cases node_eq.trans same
      exact busy
    all_goals cases held
  · exact owned.queued queued

theorem Valid.take (valid : s.Valid chain) (outside : s.producers producer = .outside) (free : s.busy address = false) :
    (s.take producer address).Valid chain := by
  have fresh {other insert} (there : s.producers other = .inserting address insert) : False :=
    nomatch free.symm.trans (valid.owned.inserting_busy valid.shape there)
  have quiet : (s.producers producer).linking = none := by rw [outside]; rfl
  have others {other : Nat} (different : other ≠ producer) :
      (s.take producer address).producers other = s.producers other := setProducer_other _ _ different
  have own : (s.take producer address).producers producer = .inserting address .clear := setProducer_same _ _ _
  constructor
  · apply valid.shape.congr
    intro first second
    refine (Iff.trans ?_ (linking_start (.inserting address .clear) quiet first second).symm)
    simp [Defer.linking]
  · constructor
    · intro other queued
      show (if other = address then true else s.busy other) = true
      split
      · rfl
      · exact valid.owned.queued queued
    · intro other node holding
      by_cases same : other = producer
      · subst same
        rw [own] at holding
        cases holding
        refine ⟨if_pos rfl, ?_, ?_⟩
        · intro queued
          exact nomatch free.symm.trans (valid.owned.queued queued)
        · intro running
          obtain ⟨_, same, busy, _⟩ := valid.owned.ran running
          cases same
          exact nomatch free.symm.trans busy
      · rw [others same] at holding
        obtain ⟨busy, absent, apart⟩ := valid.owned.held holding
        refine ⟨?_, absent, apart⟩
        show (if node = address then true else s.busy node) = true
        split
        · rfl
        · exact busy
    · intro other node exchanging
      by_cases same : other = producer
      · subst same
        rw [own] at exchanging
        cases exchanging
      · rw [others same] at exchanging
        exact valid.owned.cleared exchanging
    · intro one two node insert insert' first second
      by_cases same : one = producer <;> by_cases same' : two = producer
      · exact same.trans same'.symm
      · subst same
        rw [own] at first
        rw [others same'] at second
        cases first
        exact (fresh second).elim
      · subst same'
        rw [own] at second
        rw [others same] at first
        cases second
        exact (fresh first).elim
      · rw [others same] at first
        rw [others same'] at second
        exact valid.owned.apart first second
    · intro node running
      obtain ⟨other, same, busy, absent⟩ := valid.owned.ran running
      refine ⟨other, same, ?_, absent⟩
      show (if other = address then true else s.busy other) = true
      split
      · rfl
      · exact busy
  · apply valid.knows.kept (s.take producer address) chain valid.shape.tail_mem rfl rfl Iff.rfl
    · rintro ⟨unread, notDue⟩
      refine ⟨⟨unread, fun other => ?_⟩, rfl⟩
      by_cases same : other = producer
      · rw [same, outside]
        rfl
      · rw [← others same]
        exact notDue other
    · exact fun _ next => next
    · exact fun _ next => next
  · constructor
    · intro other node holding
      by_cases same : other = producer
      · subst same
        rw [own] at holding
        cases holding
        simp [Threads.take]
      · rw [others same] at holding
        obtain ⟨named, positive⟩ := valid.ordered.named holding
        have different : node ≠ address := by
          rintro rfl
          exact nomatch free.symm.trans (valid.owned.held holding).1
        simpa [Threads.take, different, same] using And.intro named positive
    · intro other
      have entered : (s.take producer address).entered other = s.entered other := by
        unfold entered
        by_cases same : other = producer
        · subst same
          rw [own, outside]
          simp [Threads.take, Defer.holding]
        · rw [others same]
          simp [Threads.take, same]
      have inserted : (s.take producer address).inserted chain = s.inserted chain := by
        unfold inserted
        refine congrArg (s.executed ++ ·) (commands_congr ?_)
        intro node member
        have different : node ≠ address := by
          rintro rfl
          exact nomatch free.symm.trans (valid.owned.inHand_busy member)
        exact if_neg different
      rw [entered, inserted]
      exact valid.ordered.order other

theorem Owned.advance {chain' : List QueueNode} {insert : Insert} (owned : s.Owned chain)
    (shape : Shape s.queue s.Linking chain) (was : s.producers producer = .inserting address insert)
    (own : ∀ {node insert'}, after.producers producer = .inserting node insert' → node = address)
    (others : ∀ {other}, other ≠ producer → after.producers other = s.producers other)
    (busy : after.busy = s.busy) (target : after.target = s.target)
    (members : ∀ {node}, .cmd node ∈ chain' → .cmd node ∈ chain ∨ node = address)
    (holding : ∀ {node}, (after.producers producer).holding = some node →
      .cmd address ∉ chain' ∧ (s.producers producer).holding = some address)
    (cleared : after.producers producer = .inserting address .exchange → after.queue.next (.cmd address) = none)
    (unset : ∀ {node}, .cmd node ∉ chain → node ≠ address → s.queue.next (.cmd node) = none →
      after.queue.next (.cmd node) = none) : after.Owned chain' := by
  have apart {other node insert'} (there : s.producers other = .inserting node insert') (different : other ≠ producer) :
      node ≠ address := by
    rintro rfl
    exact different (owned.apart there was)
  have back {other node insert'} (there : after.producers other = .inserting node insert') :
      ∃ insert, s.producers other = .inserting node insert := by
    by_cases same : other = producer
    · subst same
      rw [own there]
      exact ⟨insert, was⟩
    · exact ⟨insert', (others same).symm.trans there⟩
  constructor
  · intro node member
    rw [busy]
    rcases members member with queued | rfl
    · exact owned.queued queued
    · exact owned.inserting_busy shape was
  · intro other node held
    rw [busy, target]
    by_cases same : other = producer
    · subst same
      obtain ⟨_, there, _⟩ := holding_inserting held
      obtain rfl := own there
      obtain ⟨absent, before⟩ := holding held
      obtain ⟨taken, _, running⟩ := owned.held before
      exact ⟨taken, absent, running⟩
    · rw [others same] at held
      obtain ⟨taken, absent, running⟩ := owned.held held
      refine ⟨taken, fun member => ?_, running⟩
      obtain ⟨_, there, _⟩ := holding_inserting held
      rcases members member with queued | rfl
      · exact absent queued
      · exact apart there same rfl
  · intro other node exchanging
    by_cases same : other = producer
    · subst same
      obtain rfl := own exchanging
      exact cleared exchanging
    · rw [others same] at exchanging
      have held : (s.producers other).holding = some node := by rw [exchanging]; rfl
      exact unset (owned.held held).2.1 (apart exchanging same) (owned.cleared exchanging)
  · intro one two node insert' insert'' first second
    obtain ⟨_, first⟩ := back first
    obtain ⟨_, second⟩ := back second
    exact owned.apart first second
  · intro node running
    rw [target] at running
    obtain ⟨other, rfl, taken, absent⟩ := owned.ran running
    rw [busy]
    refine ⟨other, rfl, taken, fun member => ?_⟩
    rcases members member with queued | rfl
    · exact absent queued
    · cases insert with
      | clear | exchange => exact (owned.held (by rw [was]; rfl)).2.2 running
      | link prev => exact absent (shape.pending (.inl ⟨producer, by rw [was]; rfl⟩)).1.right_mem

theorem Ordered.advance (ordered : s.Ordered chain) (command : after.command = s.command)
    (deferred : after.deferred = s.deferred) (executed : after.executed = s.executed) (target : after.target = s.target)
    (holding : ∀ other, (after.producers other).holding = (s.producers other).holding) : after.Ordered chain := by
  have inserted : after.inserted chain = s.inserted chain := by
    simp only [inserted, commands, inHand, command, executed, target]
  have entered (other : Nat) : after.entered other = s.entered other := by
    simp only [entered, holding, deferred]
  constructor
  · intro other node held
    rw [command, deferred]
    exact ordered.named ((holding other).symm.trans held)
  · intro other
    rw [inserted, entered]
    exact ordered.order other

theorem setProducer_keeps {α : Type} (f : Defer → α) {defer : Defer} (same : f defer = f (s.producers producer)) (other : Nat) :
    f ((s.setProducer producer defer).producers other) = f (s.producers other) := by
  by_cases here : other = producer
  · rw [here, setProducer_same, same]
  · rw [setProducer_other _ _ here]

theorem Valid.clear (valid : s.Valid chain) (was : s.producers producer = .inserting address .clear) :
    (s.insert producer address .clear).Valid chain := by
  have held : (s.producers producer).holding = some address := by rw [was]; rfl
  have quiet : (s.producers producer).linking = none := by rw [was]; rfl
  obtain ⟨_, absent, _⟩ := valid.owned.held held
  have own : (s.insert producer address .clear).producers producer = .inserting address .exchange :=
    setProducer_same _ _ _
  have kept {node : QueueNode} (member : node ∈ chain) :
      (s.insert producer address .clear).queue.next node = s.queue.next node :=
    s.queue.storeNext_other none (ne_of_mem_of_not_mem member absent)
  constructor
  · apply (valid.shape.clear absent).congr
    intro first second
    refine Iff.trans ?_ (linking_start (.inserting address .exchange) quiet first second).symm
    simp [Defer.linking]
  · apply valid.owned.advance valid.shape was
    · intro node insert there
      cases own.symm.trans there
      rfl
    · exact fun different => setProducer_other _ _ different
    · rfl
    · rfl
    · exact fun member => .inl member
    · exact fun _ => ⟨absent, held⟩
    · exact fun _ => s.queue.storeNext_same _ _
    · intro node _ different unset
      exact (s.queue.storeNext_other none (by simpa using different)).trans unset
  · apply valid.knows.kept (s.insert producer address .clear) chain valid.shape.tail_mem rfl rfl Iff.rfl
    · rintro ⟨unread, notDue⟩
      have due : (Defer.inserting address .exchange).due = (s.producers producer).due := by rw [was]; rfl
      exact ⟨⟨unread, fun other => (setProducer_keeps Defer.due due other).symm.trans (notDue other)⟩, rfl⟩
    · exact fun member next => (kept member).trans next
    · have different : QueueNode.stub ≠ .cmd address := nofun
      exact fun _ unset => (s.queue.storeNext_other none different).trans unset
  · exact valid.ordered.advance rfl rfl rfl rfl (setProducer_keeps Defer.holding (by rw [was]; rfl))

theorem Valid.exchange (valid : s.Valid chain) (was : s.producers producer = .inserting address .exchange) :
    (s.insert producer address .exchange).Valid (chain ++ [.cmd address]) := by
  have held : (s.producers producer).holding = some address := by rw [was]; rfl
  have quiet : (s.producers producer).linking = none := by rw [was]; rfl
  obtain ⟨_, absent, _⟩ := valid.owned.held held
  have own : (s.insert producer address .exchange).producers producer = .inserting address (.link s.queue.head) :=
    setProducer_same _ _ _
  have others {other : Nat} (different : other ≠ producer) :
      (s.insert producer address .exchange).producers other = s.producers other := setProducer_other _ _ different
  constructor
  · apply (valid.shape.exchange absent (valid.owned.cleared was)).congr
    intro first second
    refine Iff.trans ?_ (linking_start (.inserting address (.link s.queue.head)) quiet first second).symm
    simp [Defer.linking, eq_comm]
  · apply valid.owned.advance valid.shape was
    · intro node insert there
      cases own.symm.trans there
      rfl
    · exact others
    · rfl
    · rfl
    · intro node member
      simpa using member
    · intro node holding
      rw [own] at holding
      cases holding
    · intro exchanging
      cases own.symm.trans exchanging
    · exact fun _ _ unset => unset
  · apply valid.knows.kept (s.insert producer address .exchange) _ valid.shape.tail_mem rfl rfl
    · simp
    · rintro ⟨_, notDue⟩
      have due := notDue producer
      rw [own] at due
      cases due
    · exact fun _ next => next
    · exact fun _ unset => unset
  · obtain ⟨named, positive⟩ := valid.ordered.named held
    have inserted : (s.insert producer address .exchange).inserted (chain ++ [.cmd address]) =
        s.inserted chain ++ [⟨producer, s.deferred producer - 1⟩] := by
      show s.executed ++ s.commands (s.inHand ++ (chain ++ [.cmd address])) = _
      simp [Threads.inserted, commands, named]
    constructor
    · intro other node holding
      by_cases same : other = producer
      · subst same
        rw [own] at holding
        cases holding
      · rw [others same] at holding
        exact valid.ordered.named holding
    · intro other
      rw [inserted, List.filter_append, valid.ordered.order other]
      unfold entered
      by_cases same : other = producer
      · subst same
        rw [own, held]
        have more : s.deferred other = s.deferred other - 1 + 1 := by omega
        show _ = (List.range (s.deferred other)).map (Command.mk other)
        rw [more, List.range_succ]
        simp
      · rw [others same]
        simp [Ne.symm same]
        rfl

theorem Valid.link {prev : QueueNode} (valid : s.Valid chain)
    (was : s.producers producer = .inserting address (.link prev)) :
    (s.insert producer address (.link prev)).Valid chain := by
  have pending : s.Linking prev (.cmd address) := .inl ⟨producer, by rw [was]; rfl⟩
  obtain ⟨linked, free⟩ := valid.shape.pending pending
  have own : (s.insert producer address (.link prev)).producers producer = .waking := setProducer_same _ _ _
  constructor
  · exact (valid.shape.link pending).congr (linking_done .waking valid.shape valid.owned was rfl)
  · apply valid.owned.advance valid.shape was
    · intro node insert there
      cases own.symm.trans there
    · exact fun different => setProducer_other _ _ different
    · rfl
    · rfl
    · exact fun member => .inl member
    · intro node holding
      rw [own] at holding
      cases holding
    · intro exchanging
      cases own.symm.trans exchanging
    · intro node absent _ unset
      exact (s.queue.storeNext_other _ (ne_of_mem_of_not_mem linked.left_mem absent).symm).trans unset
  · apply valid.knows.kept (s.insert producer address (.link prev)) chain valid.shape.tail_mem rfl rfl Iff.rfl
    · rintro ⟨unread, notDue⟩
      have due := notDue producer
      rw [own] at due
      cases due
    · intro node next _ stored
      have different : node ≠ prev := by
        rintro rfl
        exact nomatch free.symm.trans stored
      exact (s.queue.storeNext_other _ different).trans stored
    · intro absent unset
      exact (s.queue.storeNext_other _ (ne_of_mem_of_not_mem linked.left_mem absent).symm).trans unset
  · exact valid.ordered.advance rfl rfl rfl rfl (setProducer_keeps Defer.holding (by rw [was]; rfl))

theorem Valid.wake (valid : s.Valid chain) (was : s.producers producer = .waking) :
    (s.wake producer).Valid chain := by
  have quiet : (s.producers producer).linking = none := by rw [was]; rfl
  have back {other node insert} (there : (s.setProducer producer .outside).producers other = .inserting node insert) :
      s.producers other = .inserting node insert := by
    by_cases same : other = producer
    · subst same
      rw [setProducer_same] at there
      cases there
    · rwa [setProducer_other _ _ same] at there
  have holding (other : Nat) : ((s.setProducer producer .outside).producers other).holding = (s.producers other).holding :=
    setProducer_keeps Defer.holding (by rw [was]; rfl) other
  constructor
  · apply valid.shape.congr
    intro first second
    refine Iff.trans ?_ (linking_start .outside quiet first second).symm
    simp [Defer.linking]
  · constructor
    · exact valid.owned.queued
    · exact fun held => valid.owned.held ((holding _).symm.trans held)
    · exact fun there => valid.owned.cleared (back there)
    · exact fun first second => valid.owned.apart (back first) (back second)
    · exact valid.owned.ran
  · apply valid.knows.kept (s.wake producer) chain valid.shape.tail_mem rfl rfl Iff.rfl
    · rintro ⟨unread, _⟩
      cases unread
    · exact fun _ next => next
    · exact fun _ next => next
  · exact valid.ordered.advance rfl rfl rfl rfl holding

theorem Owned.target {chain' : List QueueNode} (owned : s.Owned chain)
    (producers : after.producers = s.producers) (busy : after.busy = s.busy)
    (members : ∀ {node}, node ∈ chain' → node = .stub ∨ node ∈ chain)
    (running : ∀ {node}, after.target = .running node → ∃ address, node = .cmd address ∧ node ∈ chain ∧ node ∉ chain')
    (unset : ∀ {address}, .cmd address ∉ chain → s.queue.next (.cmd address) = none →
      after.queue.next (.cmd address) = none) : after.Owned chain' := by
  have inside {address : Nat} (member : .cmd address ∈ chain') : .cmd address ∈ chain :=
    (members member).resolve_left nofun
  constructor
  · intro address member
    rw [busy]
    exact owned.queued (inside member)
  · intro producer address held
    rw [producers] at held
    obtain ⟨taken, absent, _⟩ := owned.held held
    rw [busy]
    refine ⟨taken, fun member => absent (inside member), fun there => ?_⟩
    obtain ⟨_, _, member, _⟩ := running there
    exact absent member
  · intro producer address exchanging
    rw [producers] at exchanging
    have held : (s.producers producer).holding = some address := by rw [exchanging]; rfl
    exact unset (owned.held held).2.1 (owned.cleared exchanging)
  · intro producer other address insert insert' first second
    rw [producers] at first second
    exact owned.apart first second
  · intro node there
    obtain ⟨address, rfl, member, absent⟩ := running there
    rw [busy]
    exact ⟨address, rfl, owned.queued member, absent⟩

theorem Ordered.target {chain' : List QueueNode} (ordered : s.Ordered chain)
    (producers : after.producers = s.producers) (command : after.command = s.command)
    (deferred : after.deferred = s.deferred) (inserted : after.inserted chain' = s.inserted chain) :
    after.Ordered chain' := by
  constructor
  · intro producer address held
    rw [producers] at held
    rw [command, deferred]
    exact ordered.named held
  · intro producer
    have entered : after.entered producer = s.entered producer := by
      simp only [Threads.entered, producers, deferred]
    rw [inserted, entered]
    exact ordered.order producer

theorem linking_quiet (producers : after.producers = s.producers) (quiet : s.target.linking = none)
    (quiet' : after.target.linking = none) (first second : QueueNode) : s.Linking first second ↔ after.Linking first second := by
  simp [Linking, producers, quiet, quiet']

theorem Valid.look {place : Target} (valid : s.Valid chain) (quiet : s.target.linking = none) (idle : s.inHand = [])
    (quiet' : place.linking = none) (idle' : ∀ node, place ≠ .running node)
    (knows : ({ s with target := place } : Threads).Knows chain) :
    ({ s with target := place } : Threads).Valid chain := by
  constructor
  · exact valid.shape.congr (linking_quiet rfl quiet quiet')
  · apply valid.owned.target
    · rfl
    · rfl
    · exact fun member => .inr member
    · exact fun there => absurd there (idle' _)
    · exact fun _ unset => unset
  · exact knows
  · refine valid.ordered.target rfl rfl rfl ?_
    have still : ({ s with target := place } : Threads).inHand = [] := by
      cases place with
      | running node => exact absurd rfl (idle' node)
      | outside | polling _ => rfl
    unfold inserted
    rw [still, idle]
    rfl

theorem Asleep.not_linking (asleep : s.Asleep) (quiet : s.target.linking = none) (first second : QueueNode) :
    ¬s.Linking first second := by
  rintro (⟨producer, linking⟩ | linking)
  · obtain ⟨address, there, _⟩ := linking_inserting linking
    have due := asleep.2 producer
    rw [there] at due
    cases due
  · exact nomatch quiet.symm.trans linking

variable (valid : s.Valid chain)
include valid

/-- A target that finds the first node without a link has all of the queue before it, or will be woken. -/
theorem Valid.alone (quiet : s.target.linking = none) (next : s.queue.next s.queue.tail = none)
    (asleep : s.Asleep) : chain = [s.queue.tail] :=
  valid.shape.alone next (asleep.not_linking quiet s.queue.tail)

theorem Valid.afterNext {tail : QueueNode} (quiet : s.target.linking = none) (idle : s.inHand = [])
    (here : tail = s.queue.tail) (real : tail ≠ .stub) :
    ({ s with target := .polling (.afterNext tail (s.queue.next tail)) } : Threads).Valid chain := by
  cases next : s.queue.next tail with
  | some node => exact valid.look quiet idle rfl nofun ⟨here, real, next⟩
  | none =>
    refine valid.look quiet idle rfl nofun ⟨here, real, fun asleep => ?_⟩
    rw [here] at next ⊢
    exact valid.alone quiet next asleep

theorem Valid.readCmd (outside : s.target = .outside) : s.readCmd.Valid chain := by
  have looked : ({ s with target := .polling .loadTail } : Threads).Valid chain := by
    apply valid.look
    · rw [outside]
      rfl
    · unfold inHand
      rw [outside]
    · rfl
    · exact nofun
    · trivial
  constructor
  · exact looked.shape
  · exact ⟨looked.owned.queued, looked.owned.held, looked.owned.cleared, looked.owned.apart, looked.owned.ran⟩
  · trivial
  · exact ⟨looked.ordered.named, looked.ordered.order⟩

theorem Valid.passStub {next : QueueNode} (there : s.target = .polling (.passStub next)) :
    ∃ chain', (s.poll (.passStub next)).Valid chain' := by
  have knows := valid.knows
  unfold Knows at knows
  rw [there] at knows
  obtain ⟨here, linked⟩ := knows
  obtain ⟨rest, rfl, member, shape⟩ := valid.shape.pass (here ▸ linked)
  have absent : .stub ∉ rest := here ▸ (List.nodup_cons.mp valid.shape.distinct).1
  refine ⟨rest, ?_⟩
  constructor
  · exact shape.congr (linking_quiet rfl (by rw [there]; rfl) rfl)
  · apply valid.owned.target
    · rfl
    · rfl
    · exact fun member => .inr (List.mem_cons_of_mem _ member)
    · exact nofun
    · exact fun _ unset => unset
  · exact ⟨rfl, ne_of_mem_of_not_mem member absent⟩
  · refine valid.ordered.target rfl rfl rfl ?_
    show s.executed ++ s.commands ([] ++ rest) = s.executed ++ s.commands (s.inHand ++ s.queue.tail :: rest)
    unfold inHand
    rw [there, here]
    rfl

theorem Valid.storeTail {tail next : QueueNode}
    (there : s.target = .polling (.storeTail tail next)) : ∃ chain', (s.poll (.storeTail tail next)).Valid chain' := by
  have knows := valid.knows
  unfold Knows at knows
  rw [there] at knows
  obtain ⟨rfl, real, linked⟩ := knows
  obtain ⟨rest, rfl, member, shape⟩ := valid.shape.pass linked
  have absent := (List.nodup_cons.mp valid.shape.distinct).1
  refine ⟨rest, ?_⟩
  constructor
  · exact shape.congr (linking_quiet rfl (by rw [there]; rfl) rfl)
  · apply valid.owned.target
    · rfl
    · rfl
    · exact fun member => .inr (List.mem_cons_of_mem _ member)
    · rintro node ⟨⟩
      cases tail : s.queue.tail with
      | stub => exact absurd tail real
      | cmd address => exact ⟨address, rfl, by simp, tail ▸ absent⟩
    · exact fun _ unset => unset
  · trivial
  · refine valid.ordered.target rfl rfl rfl ?_
    show s.executed ++ s.commands ([s.queue.tail] ++ rest) = s.executed ++ s.commands (s.inHand ++ s.queue.tail :: rest)
    unfold inHand
    rw [there]
    rfl

theorem Valid.clearStub {tail : QueueNode}
    (there : s.target = .polling (.insertStub tail .clear)) : (s.poll (.insertStub tail .clear)).Valid chain := by
  have knows := valid.knows
  unfold Knows at knows
  rw [there] at knows
  obtain ⟨here, real, absent⟩ := knows
  constructor
  · exact (valid.shape.clear absent).congr (linking_quiet rfl (by rw [there]; rfl) rfl)
  · apply valid.owned.target
    · rfl
    · rfl
    · exact fun member => .inr member
    · exact nofun
    · intro address _ unset
      have different : QueueNode.cmd address ≠ .stub := nofun
      exact (s.queue.storeNext_other none different).trans unset
  · exact ⟨here, real, absent, s.queue.storeNext_same _ _⟩
  · refine valid.ordered.target rfl rfl rfl ?_
    unfold inserted inHand
    rw [there]
    rfl

theorem Valid.exchangeStub {tail : QueueNode}
    (there : s.target = .polling (.insertStub tail .exchange)) :
    (s.poll (.insertStub tail .exchange)).Valid (chain ++ [.stub]) := by
  have knows := valid.knows
  unfold Knows at knows
  rw [there] at knows
  obtain ⟨here, real, absent, cleared⟩ := knows
  constructor
  · apply (valid.shape.exchange absent cleared).congr
    intro first second
    show s.Linking first second ∨ _ ↔ _ ∨ some (s.queue.head, QueueNode.stub) = _
    unfold Linking
    rw [there]
    simp only [Target.linking, reduceCtorEq, or_false, Option.some.injEq, Prod.mk.injEq]
    exact or_congr Iff.rfl (and_congr eq_comm eq_comm)
  · apply valid.owned.target
    · rfl
    · rfl
    · intro node member
      rcases List.mem_append.mp member with member | stub
      · exact .inr member
      · exact .inl (List.mem_singleton.mp stub)
    · exact nofun
    · exact fun _ unset => unset
  · exact ⟨here, real, by simp⟩
  · refine valid.ordered.target rfl rfl rfl ?_
    show s.executed ++ s.commands ([] ++ (chain ++ [.stub])) = s.executed ++ s.commands (s.inHand ++ chain)
    unfold inHand
    rw [there]
    simp [commands]

theorem Valid.linkStub {tail prev : QueueNode}
    (there : s.target = .polling (.insertStub tail (.link prev))) :
    (s.poll (.insertStub tail (.link prev))).Valid chain := by
  have knows := valid.knows
  unfold Knows at knows
  rw [there] at knows
  have pending : s.Linking prev .stub := .inr (by rw [there]; rfl)
  obtain ⟨linked, _⟩ := valid.shape.pending pending
  constructor
  · apply (valid.shape.link pending).congr
    intro first second
    constructor
    · rintro ⟨linking | linking, different⟩
      · exact .inl linking
      · rw [there] at linking
        cases linking
        exact absurd rfl different
    · rintro (⟨producer, linking⟩ | linking)
      · refine ⟨.inl ⟨producer, linking⟩, ?_⟩
        rintro rfl
        obtain ⟨_, _, second_eq⟩ := linking_inserting linking
        have stub := (valid.shape.pending (.inl ⟨producer, linking⟩)).1.right_unique valid.shape.distinct linked
        exact nomatch second_eq.symm.trans stub
      · cases linking
  · apply valid.owned.target
    · rfl
    · rfl
    · exact fun member => .inr member
    · exact nofun
    · intro address absent unset
      exact (s.queue.storeNext_other _ (ne_of_mem_of_not_mem linked.left_mem absent).symm).trans unset
  · exact knows
  · refine valid.ordered.target rfl rfl rfl ?_
    unfold inserted inHand
    rw [there]
    rfl

theorem Valid.poll {poll : Poll} (there : s.target = .polling poll) : ∃ chain', (s.poll poll).Valid chain' := by
  have knows := valid.knows
  unfold Knows at knows
  rw [there] at knows
  have idle : s.inHand = [] := by
    unfold inHand
    rw [there]
  cases poll with
  | loadTail => exact ⟨chain, valid.look (by rw [there]; rfl) idle rfl nofun rfl⟩
  | loadNext tail =>
    have quiet : s.target.linking = none := by rw [there]; rfl
    by_cases stub : tail = .stub
    · subst stub
      cases next : s.queue.next .stub with
      | none =>
        have polled : s.poll (.loadNext .stub) = { s with target := .polling .loadHeadAtStub } := by
          simp [Threads.poll, Poll.step, next]
        rw [polled]
        refine ⟨chain, valid.look quiet idle rfl nofun ⟨knows.symm, fun asleep => ?_⟩⟩
        have only := valid.alone quiet (knows ▸ next) asleep
        rwa [← knows] at only
      | some node =>
        have polled : s.poll (.loadNext .stub) = { s with target := .polling (.passStub node) } := by
          simp [Threads.poll, Poll.step, next]
        rw [polled]
        exact ⟨chain, valid.look quiet idle rfl nofun ⟨knows.symm, next⟩⟩
    · have polled : s.poll (.loadNext tail) = { s with target := .polling (.afterNext tail (s.queue.next tail)) } := by
        simp [Threads.poll, Poll.step, stub]
      rw [polled]
      exact ⟨chain, valid.afterNext quiet idle knows stub⟩
  | loadHeadAtStub =>
    have polled : s.poll .loadHeadAtStub = { s with target := .outside } := by
      by_cases stub : s.queue.head = .stub <;> simp [Threads.poll, Poll.step, stub]
    rw [polled]
    exact ⟨chain, valid.look (by rw [there]; rfl) idle rfl nofun knows.2⟩
  | passStub next => exact valid.passStub there
  | loadNextPastStub tail => exact ⟨chain, valid.afterNext (by rw [there]; rfl) idle knows.1 knows.2⟩
  | loadHead tail =>
    have quiet : s.target.linking = none := by rw [there]; rfl
    obtain ⟨here, real, slept⟩ := knows
    by_cases last : tail = s.queue.head
    · have polled : s.poll (.loadHead tail) = { s with target := .polling (.insertStub tail .clear) } := by
        simp [Threads.poll, Poll.step, last]
      rw [polled]
      have only : chain = [tail] := eq_singleton valid.shape.distinct (here ▸ valid.shape.tail) (last ▸ valid.shape.head)
      refine ⟨chain, valid.look quiet idle rfl nofun ⟨here, real, ?_⟩⟩
      rw [only]
      simpa using Ne.symm real
    · have polled : s.poll (.loadHead tail) = { s with target := .outside } := by
        simp [Threads.poll, Poll.step, last]
      rw [polled]
      refine ⟨chain, valid.look quiet idle rfl nofun fun asleep => ?_⟩
      have only := slept asleep
      have head := valid.shape.head
      rw [only] at head
      exact absurd (Option.some.inj head) last
  | insertStub tail insert =>
    cases insert with
    | clear => exact ⟨chain, valid.clearStub there⟩
    | exchange => exact ⟨chain ++ [.stub], valid.exchangeStub there⟩
    | link prev => exact ⟨chain, valid.linkStub there⟩
  | loadNextAgain tail =>
    have quiet : s.target.linking = none := by rw [there]; rfl
    obtain ⟨here, real, member⟩ := knows
    cases next : s.queue.next tail with
    | some node =>
      have polled : s.poll (.loadNextAgain tail) = { s with target := .polling (.storeTail tail node) } := by
        simp [Threads.poll, Poll.step, next]
      rw [polled]
      exact ⟨chain, valid.look quiet idle rfl nofun ⟨here, real, next⟩⟩
    | none =>
      have polled : s.poll (.loadNextAgain tail) = { s with target := .outside } := by
        simp [Threads.poll, Poll.step, next]
      rw [polled]
      refine ⟨chain, valid.look quiet idle rfl nofun fun asleep => ?_⟩
      rw [here] at next real
      rw [valid.alone quiet next asleep] at member
      exact absurd (List.mem_singleton.mp member).symm real
  | storeTail tail next => exact valid.storeTail there

theorem Valid.runCallback (there : s.target = .running (.cmd address)) : (s.runCallback address).Valid chain := by
  obtain ⟨_, same, _, absent⟩ := valid.owned.ran there
  cases same
  have other_busy {node : Nat} (different : node ≠ address) : (s.runCallback address).busy node = s.busy node :=
    if_neg different
  constructor
  · exact valid.shape.congr (linking_quiet rfl (by rw [there]; rfl) rfl)
  · constructor
    · intro node member
      rw [other_busy (by rintro rfl; exact absent member)]
      exact valid.owned.queued member
    · intro producer node held
      obtain ⟨taken, outside, apart⟩ := valid.owned.held held
      rw [other_busy (by rintro rfl; exact apart there)]
      exact ⟨taken, outside, nofun⟩
    · exact valid.owned.cleared
    · exact valid.owned.apart
    · exact nofun
  · trivial
  · refine valid.ordered.target rfl rfl rfl ?_
    show s.executed ++ [s.command address] ++ s.commands ([] ++ chain) = s.executed ++ s.commands (s.inHand ++ chain)
    unfold inHand
    rw [there]
    simp [commands]

omit valid

theorem Valid.initial : ({} : Threads).Valid [.stub] := by
  constructor
  · constructor
    · rfl
    · rfl
    · exact List.nodup_singleton _
    · rfl
    · exact fun linked => absurd linked not_adjacent_singleton
    · rintro first second (⟨_, linking⟩ | linking) <;> cases linking
  · constructor
    · intro address member
      simp at member
    · exact nofun
    · exact nofun
    · exact nofun
    · exact nofun
  · exact fun _ => rfl
  · constructor
    · exact nofun
    · intro producer
      rfl

theorem Valid.step {event : ThreadStep} (valid : s.Valid chain) (taken : s.step event = some after) :
    ∃ chain', after.Valid chain' := by
  cases event with
  | defer producer address =>
    obtain ⟨⟨outside, free⟩, rfl⟩ : _ ∧ s.take producer address = after := by simpa [Threads.step] using taken
    exact ⟨chain, valid.take outside free⟩
  | advance producer =>
    unfold Threads.step at taken
    cases was : s.producers producer with
    | outside => simp [was] at taken
    | waking =>
      simp only [was, Option.some.injEq] at taken
      exact ⟨chain, taken ▸ valid.wake was⟩
    | inserting address insert =>
      simp only [was, Option.some.injEq] at taken
      subst taken
      cases insert with
      | clear => exact ⟨chain, valid.clear was⟩
      | exchange => exact ⟨chain ++ [.cmd address], valid.exchange was⟩
      | link prev => exact ⟨chain, valid.link was⟩
  | readCmd =>
    obtain ⟨⟨outside, _⟩, rfl⟩ : _ ∧ s.readCmd = after := by simpa [Threads.step] using taken
    exact ⟨chain, valid.readCmd outside⟩
  | poll =>
    unfold Threads.step at taken
    cases there : s.target with
    | polling poll =>
      simp only [there, Option.some.injEq] at taken
      exact taken ▸ valid.poll there
    | outside => simp [there] at taken
    | running node => simp [there] at taken
  | run =>
    unfold Threads.step at taken
    cases there : s.target with
    | polling poll => simp [there] at taken
    | outside => simp [there] at taken
    | running node =>
      cases node with
      | stub => simp [there] at taken
      | cmd address =>
        simp only [there, Option.some.injEq] at taken
        exact ⟨chain, taken ▸ valid.runCallback there⟩

theorem Valid.reached (reached : Runs.Reaches Threads.step (fun _ _ => True) {} s) : ∃ chain, s.Valid chain := by
  apply reached.invariant
  · exact ⟨[.stub], initial⟩
  · rintro before after event ⟨chain, valid⟩ _ taken
    exact valid.step taken

/-- A target at rest, with no thread in `evthr_defer` and nothing to read, has run all commands. -/
theorem Valid.rested (valid : s.Valid chain) (returned : ∀ producer, s.producers producer = .outside)
    (unread : s.eventfd = 0) (resting : s.target = .outside) (producer : Nat) :
    s.executed.filter (·.producer = producer) = (List.range (s.deferred producer)).map (Command.mk producer) := by
  have asleep : s.Asleep := ⟨unread, fun producer => by rw [returned]; rfl⟩
  have empty : chain = [.stub] := by
    have knows := valid.knows
    unfold Threads.Knows at knows
    rw [resting] at knows
    exact knows asleep
  have inserted : s.inserted chain = s.executed := by
    unfold Threads.inserted Threads.inHand
    rw [resting, empty]
    exact List.append_nil _
  have ordered := valid.ordered.order producer
  unfold Threads.entered at ordered
  rw [inserted, returned] at ordered
  exact ordered

theorem executed_iff {command : Command} (order : s.executed.filter (·.producer = command.producer) =
      (List.range (s.deferred command.producer)).map (Command.mk command.producer)) :
    command ∈ s.executed ↔ command.number < s.deferred command.producer := by
  have member : command ∈ s.executed ↔ command ∈ s.executed.filter (·.producer = command.producer) := by simp
  rw [member, order]
  constructor
  · intro inRange
    obtain ⟨number, below, same⟩ := List.mem_map.mp inRange
    rw [← same]
    exact List.mem_range.mp below
  · intro below
    exact List.mem_map.mpr ⟨command.number, List.mem_range.mpr below, rfl⟩

end Threads

/-- A target at rest with nothing to read, while no thread is in `evthr_defer`, has run every command exactly once,
and those of each thread in the order in which it deferred them. -/
theorem no_lost_wakeup {s : Threads} (reached : Runs.Reaches Threads.step (fun _ _ => True) {} s)
    (returned : ∀ producer, s.producers producer = .outside) (unread : s.eventfd = 0) (resting : s.target = .outside) :
    s.executed.Nodup ∧ (∀ command, command ∈ s.executed ↔ command.number < s.deferred command.producer) ∧
      ∀ producer, s.executed.filter (·.producer = producer) =
        (List.range (s.deferred producer)).map (Command.mk producer) := by
  obtain ⟨chain, valid⟩ := Threads.Valid.reached reached
  have order := valid.rested returned unread resting
  refine ⟨?_, fun command => Threads.executed_iff (order command.producer), order⟩
  rw [List.nodup_iff_count_le_one]
  intro command
  rw [← List.count_filter (p := fun other => other.producer = command.producer) (by simp), order]
  apply List.nodup_iff_count_le_one.mp
  exact List.nodup_range.map fun _ _ same => (Command.mk.inj same).2

/-- Two threads defer a command each; the second one has exchanged the head and not stored its link when the target
stops at it, and wakes it again. -/
def halfwayInsert : List ThreadStep :=
  [.defer 0 10, .advance 0, .advance 0, .advance 0, .defer 1 11, .advance 1, .advance 1, .advance 0,
    .readCmd, .poll, .poll, .poll, .poll, .poll, .advance 1, .advance 1,
    .readCmd, .poll, .poll, .poll, .run, .poll, .poll, .poll, .poll, .poll, .poll, .poll, .poll, .run,
    .poll, .poll, .poll]

def afterHalfway : Option Threads := Runs.run Threads.step (fun _ _ => True) {} halfwayInsert

theorem no_lost_wakeup_halfway : ∃ s, afterHalfway = some s ∧ s.executed = [⟨0, 0⟩, ⟨1, 0⟩] ∧ s.executed.Nodup := by
  have ran : afterHalfway.isSome := by decide +kernel
  obtain ⟨s, taken⟩ := Option.isSome_iff_exists.mp ran
  have seen : afterHalfway.map (fun s => (s.eventfd, s.target, s.executed)) = some (0, .outside, [⟨0, 0⟩, ⟨1, 0⟩]) := by
    decide +kernel
  have producers : ∀ producer, afterHalfway.map (·.producers producer) = some .outside
    | 0 | 1 => by decide +kernel
    | _ + 2 => rfl
  rw [taken] at seen producers
  simp only [Option.map_some, Option.some.injEq, Prod.mk.injEq] at seen producers
  obtain ⟨unread, resting, executed⟩ := seen
  exact ⟨s, taken, executed, (no_lost_wakeup (Runs.Reaches.start.run (fun _ _ _ => trivial) taken) producers unread resting).1⟩

end Evhtp
