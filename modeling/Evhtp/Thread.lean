import Evhtp.Lib.Runs

/-! Commands that threads defer to one another. A command goes into the queue of mpsc-queue.h, which any number of
threads insert into and one polls, and an eventfd wakes the thread that polls. Every atomic operation on the queue
and every read or write of the eventfd is one step, and the steps of the threads interleave freely. -/

namespace Evhtp

/-- `struct mpsc_queue_node`: the stub of the queue, or the node of a command, which is its address. -/
inductive QueueNode where
  | stub
  | cmd (address : Nat)
  deriving DecidableEq, Repr

/-- `struct mpsc_queue`, with the link of every node. -/
structure MpscQueue where
  head : QueueNode := .stub
  tail : QueueNode := .stub
  next : QueueNode → Option QueueNode := fun _ => none

def MpscQueue.storeNext (queue : MpscQueue) (node : QueueNode) (next : Option QueueNode) : MpscQueue :=
  { queue with next := fun other => if other = node then next else queue.next other }

def MpscQueue.storeTail (queue : MpscQueue) (tail : QueueNode) : MpscQueue := { queue with tail }

/-- Where a thread is in `mpsc_queue_insert_list`, called for one node: what it does next. -/
inductive Insert where
  | clear
  | exchange
  | link (prev : QueueNode)
  deriving DecidableEq, Repr

/-- The next operation of `mpsc_queue_insert_list`, and where the thread is after it. -/
def Insert.step (insert : Insert) (node : QueueNode) (queue : MpscQueue) : Option Insert × MpscQueue :=
  match insert with
  | .clear => (some .exchange, queue.storeNext node none)
  | .exchange => (some (.link queue.head), { queue with head := node })
  | .link prev => (none, queue.storeNext prev (some node))

/-- Where a thread is in `mpsc_queue_poll`: what it does next. -/
inductive Poll where
  | loadTail
  | loadNext (tail : QueueNode)
  | loadHeadAtStub
  | passStub (next : QueueNode)
  | loadNextPastStub (tail : QueueNode)
  | loadHead (tail : QueueNode)
  | insertStub (tail : QueueNode) (insert : Insert)
  | loadNextAgain (tail : QueueNode)
  | storeTail (tail next : QueueNode)
  deriving DecidableEq, Repr

/-- The `mpsc_queue_poll_result`, with the node of an item. -/
inductive PollResult where
  | empty
  | item (node : QueueNode)
  | retry
  deriving DecidableEq, Repr

/-- A node that is not the stub is an item if another one follows it. -/
def Poll.afterNext (tail : QueueNode) : Option QueueNode → Poll
  | some next => .storeTail tail next
  | none => .loadHead tail

/-- The next operation of `mpsc_queue_poll`, and where the thread is after it, or what it returns. -/
def Poll.step (poll : Poll) (queue : MpscQueue) : (Poll ⊕ PollResult) × MpscQueue :=
  match poll with
  | .loadTail => (.inl (.loadNext queue.tail), queue)
  | .loadNext tail =>
    if tail = .stub then
      match queue.next tail with
      | none => (.inl .loadHeadAtStub, queue)
      | some next => (.inl (.passStub next), queue)
    else (.inl (.afterNext tail (queue.next tail)), queue)
  | .loadHeadAtStub => (.inr (if queue.head = .stub then .empty else .retry), queue)
  | .passStub next => (.inl (.loadNextPastStub next), queue.storeTail next)
  | .loadNextPastStub tail => (.inl (.afterNext tail (queue.next tail)), queue)
  | .loadHead tail => (if tail = queue.head then .inl (.insertStub tail .clear) else .inr .retry, queue)
  | .insertStub tail insert =>
    let after := insert.step .stub queue
    (.inl (match after.1 with
      | some insert => .insertStub tail insert
      | none => .loadNextAgain tail), after.2)
  | .loadNextAgain tail =>
    match queue.next tail with
    | some next => (.inl (.storeTail tail next), queue)
    | none => (.inr .retry, queue)
  | .storeTail tail next => (.inr (.item tail), queue.storeTail next)

/-- A command, by the thread that deferred it and its number among the commands of this thread. -/
structure Command where
  producer : Nat
  number : Nat
  deriving DecidableEq, Repr

/-- Where a thread is in `evthr_defer`. -/
inductive Defer where
  | outside
  | inserting (address : Nat) (insert : Insert)
  | waking
  deriving DecidableEq, Repr

/-- Where the target is in `_evthr_read_cmd`. -/
inductive Target where
  | outside
  | polling (poll : Poll)
  | running (node : QueueNode)
  deriving DecidableEq, Repr

/-- The threads that defer commands to one target. `busy` are the addresses of the commands that are not free: a
command is taken from the sender's cache or from `calloc`. The last two fields are not part of the source: the
number of commands each thread has deferred, and the commands that were run. -/
structure Threads where
  queue : MpscQueue := {}
  eventfd : Nat := 0
  producers : Nat → Defer := fun _ => .outside
  target : Target := .outside
  busy : Nat → Bool := fun _ => false
  command : Nat → Command := fun _ => ⟨0, 0⟩
  deferred : Nat → Nat := fun _ => 0
  executed : List Command := []

def Threads.setProducer (s : Threads) (producer : Nat) (defer : Defer) : Threads :=
  { s with producers := fun other => if other = producer then defer else s.producers other }

/-- A step of one of the threads: a producer enters `evthr_defer` and fills in a command, or goes on in it; the
event loop calls `_evthr_read_cmd`, which reads the eventfd; the target goes on in `mpsc_queue_poll`, or runs the
command it has and recycles it. -/
inductive ThreadStep where
  | defer (producer address : Nat)
  | advance (producer : Nat)
  | readCmd
  | poll
  | run
  deriving DecidableEq, Repr

/-- The beginning of `evthr_defer`: the command is nobody else's until it is inserted. -/
def Threads.take (s : Threads) (producer address : Nat) : Threads :=
  { s.setProducer producer (.inserting address .clear) with
    busy := fun other => if other = address then true else s.busy other
    command := fun other => if other = address then ⟨producer, s.deferred producer⟩ else s.command other
    deferred := fun other => if other = producer then s.deferred other + 1 else s.deferred other }

/-- `mpsc_queue_insert` in `evthr_defer`. -/
def Threads.insert (s : Threads) (producer address : Nat) (insert : Insert) : Threads :=
  let after := insert.step (.cmd address) s.queue
  { s.setProducer producer (match after.1 with
      | some insert => .inserting address insert
      | none => .waking) with queue := after.2 }

def Threads.wake (s : Threads) (producer : Nat) : Threads :=
  { s.setProducer producer .outside with eventfd := s.eventfd + 1 }

/-- `_evthr_read_cmd` reads the eventfd, which resets it, and begins to poll. -/
def Threads.readCmd (s : Threads) : Threads := { s with eventfd := 0, target := .polling .loadTail }

/-- `mpsc_queue_poll` in `_evthr_run_callbacks`, which goes on for as long as there are items. -/
def Threads.poll (s : Threads) (poll : Poll) : Threads :=
  let after := poll.step s.queue
  { s with
    queue := after.2
    target := match after.1 with
      | .inl poll => .polling poll
      | .inr (.item node) => .running node
      | .inr .empty | .inr .retry => .outside }

/-- The callback of a command, which is recycled or freed after it. -/
def Threads.runCallback (s : Threads) (address : Nat) : Threads :=
  { s with
    executed := s.executed ++ [s.command address]
    busy := fun other => if other = address then false else s.busy other
    target := .polling .loadTail }

def Threads.step (s : Threads) (event : ThreadStep) : Option Threads :=
  match event with
  | .defer producer address =>
    if s.producers producer = .outside ∧ s.busy address = false then some (s.take producer address) else none
  | .advance producer =>
    match s.producers producer with
    | .outside => none
    | .inserting address insert => some (s.insert producer address insert)
    | .waking => some (s.wake producer)
  | .readCmd => if s.target = .outside ∧ s.eventfd ≠ 0 then some s.readCmd else none
  | .poll =>
    match s.target with
    | .polling poll => some (s.poll poll)
    | .outside | .running _ => none
  | .run =>
    match s.target with
    | .running (.cmd address) => some (s.runCallback address)
    | .running .stub | .outside | .polling _ => none

end Evhtp
