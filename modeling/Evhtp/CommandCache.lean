import Evhtp.Lib.Runs

/-! The cache of commands of one sender. A command that a worker of the pool has run goes into the ring of
spsc_queue.h, from which the sender takes it when it defers the next one. Every load and store of the ring is one
step, and the steps of the workers and of the sender interleave freely. -/

namespace Evhtp

/-- `struct producer_q` and `struct consumer_q`, and the buffer they share. -/
structure SpscQueue where
  cap : Nat
  head : Nat := 0
  tail : Nat := 0
  cachedTail : Nat := 0
  cachedHead : Nat := 0
  slots : Nat → Nat := fun _ => 0

def SpscQueue.next (queue : SpscQueue) (index : Nat) : Nat := if index + 1 = queue.cap then 0 else index + 1

/-- What lies between the tail and the head. -/
def SpscQueue.contents (queue : SpscQueue) : List Nat :=
  (List.range ((queue.head + queue.cap - queue.tail) % queue.cap)).map fun i =>
    queue.slots ((queue.tail + i) % queue.cap)

/-- Where a worker is in `spsc_enqueue`: what it does next. -/
inductive Enqueue where
  | loadHead
  | loadCached (head : Nat)
  | loadTail (head : Nat)
  | storeCached (head tail : Nat)
  | checkCached (head : Nat)
  | storeSlot (head : Nat)
  | storeHead (head : Nat)
  deriving DecidableEq, Repr

/-- The next load or store of `spsc_enqueue`, and where the worker is after it, or whether it succeeded. -/
def Enqueue.step (enqueue : Enqueue) (data : Nat) (queue : SpscQueue) : (Enqueue ⊕ Bool) × SpscQueue :=
  match enqueue with
  | .loadHead => (.inl (.loadCached queue.head), queue)
  | .loadCached head => (.inl (if queue.next head = queue.cachedTail then .loadTail head else .storeSlot head), queue)
  | .loadTail head => (.inl (.storeCached head queue.tail), queue)
  | .storeCached head tail => (.inl (.checkCached head), { queue with cachedTail := tail })
  | .checkCached head => (if queue.next head = queue.cachedTail then .inr false else .inl (.storeSlot head), queue)
  | .storeSlot head =>
    (.inl (.storeHead head), { queue with slots := fun i => if i = head then data else queue.slots i })
  | .storeHead head => (.inr true, { queue with head := queue.next head })

/-- Where the sender is in `spsc_dequeue`: what it does next. -/
inductive Dequeue where
  | loadTail
  | loadCached (tail : Nat)
  | loadHead (tail : Nat)
  | storeCached (tail head : Nat)
  | checkCached (tail : Nat)
  | loadSlot (tail : Nat)
  | storeTail (tail data : Nat)
  deriving DecidableEq, Repr

/-- The next load or store of `spsc_dequeue`, and where the sender is after it, or what is returned. -/
def Dequeue.step (dequeue : Dequeue) (queue : SpscQueue) : (Dequeue ⊕ Option Nat) × SpscQueue :=
  match dequeue with
  | .loadTail => (.inl (.loadCached queue.tail), queue)
  | .loadCached tail => (.inl (if tail = queue.cachedHead then .loadHead tail else .loadSlot tail), queue)
  | .loadHead tail => (.inl (.storeCached tail queue.head), queue)
  | .storeCached tail head => (.inl (.checkCached tail), { queue with cachedHead := head })
  | .checkCached tail => (if tail = queue.cachedHead then .inr none else .inl (.loadSlot tail), queue)
  | .loadSlot tail => (.inl (.storeTail tail (queue.slots tail)), queue)
  | .storeTail tail data => (.inr (some data), { queue with tail := queue.next tail })

/-- Where the sender is in `evthr_defer`. -/
inductive Sender where
  | outside
  | dequeuing (dequeue : Dequeue)
  | allocating
  | sending (cmd : Nat)
  deriving DecidableEq, Repr

/-- Where a worker is in `_evthr_run_callbacks`. -/
inductive Worker where
  | idle
  | running (cmd : Nat)
  | enqueuing (cmd : Nat) (enqueue : Enqueue)
  deriving DecidableEq, Repr

/-- A call of `spsc_enqueue` that reported success, or one of `spsc_dequeue` that returned a command. -/
inductive CacheEvent where
  | enqueued (cmd : Nat)
  | dequeued (cmd : Nat)
  deriving DecidableEq, Repr

/-- A sender and the workers of a pool, with the commands that each worker still has to run. `used` are the
addresses that were allocated and not freed. The log is not part of the source. -/
structure Pool where
  cache : SpscQueue
  sender : Sender := .outside
  workers : Nat → Worker := fun _ => .idle
  queues : Nat → List Nat := fun _ => []
  used : Nat → Bool := fun _ => false
  log : List CacheEvent := []

/-- A step of the sender or of a worker: the sender enters `evthr_defer`, goes on in `spsc_dequeue`, allocates a
command, or sends it to a worker of its choice; a worker runs the next command, enters `spsc_enqueue` with it, or
goes on in it. -/
inductive PoolStep where
  | defer
  | dequeue
  | allocate (address : Nat)
  | send (worker : Nat)
  | run (worker : Nat)
  | recycle (worker : Nat)
  | enqueue (worker : Nat)
  deriving DecidableEq, Repr

namespace Pool

def setWorker (s : Pool) (worker : Nat) (place : Worker) : Pool :=
  { s with workers := fun other => if other = worker then place else s.workers other }

def setQueue (s : Pool) (worker : Nat) (queue : List Nat) : Pool :=
  { s with queues := fun other => if other = worker then queue else s.queues other }

def setUsed (s : Pool) (address : Nat) (used : Bool) : Pool :=
  { s with used := fun other => if other = address then used else s.used other }

/-- `spsc_dequeue` in `evthr_defer`: without a command in the cache one is allocated. -/
def dequeue (s : Pool) (dequeue : Dequeue) : Pool :=
  let after := dequeue.step s.cache
  match after.1 with
  | .inl dequeue => { s with cache := after.2, sender := .dequeuing dequeue }
  | .inr none => { s with cache := after.2, sender := .allocating }
  | .inr (some cmd) => { s with cache := after.2, sender := .sending cmd, log := s.log ++ [.dequeued cmd] }

/-- `spsc_enqueue` in `_evthr_run_callbacks`: a command the cache has no room for is freed. -/
def enqueue (s : Pool) (worker cmd : Nat) (enqueue : Enqueue) : Pool :=
  let after := enqueue.step cmd s.cache
  match after.1 with
  | .inl enqueue => { s.setWorker worker (.enqueuing cmd enqueue) with cache := after.2 }
  | .inr true => { s.setWorker worker .idle with cache := after.2, log := s.log ++ [.enqueued cmd] }
  | .inr false => { (s.setWorker worker .idle).setUsed cmd false with cache := after.2 }

def step (s : Pool) (event : PoolStep) : Option Pool :=
  match event with
  | .defer => if s.sender = .outside then some { s with sender := .dequeuing .loadTail } else none
  | .dequeue =>
    match s.sender with
    | .dequeuing dequeue => some (s.dequeue dequeue)
    | .outside | .allocating | .sending _ => none
  | .allocate address =>
    if s.sender = .allocating ∧ s.used address = false then
      some { s.setUsed address true with sender := .sending address }
    else none
  | .send worker =>
    match s.sender with
    | .sending cmd => some { s.setQueue worker (s.queues worker ++ [cmd]) with sender := .outside }
    | .outside | .allocating | .dequeuing _ => none
  | .run worker =>
    match s.workers worker, s.queues worker with
    | .idle, cmd :: rest => some ((s.setQueue worker rest).setWorker worker (.running cmd))
    | _, _ => none
  | .recycle worker =>
    match s.workers worker with
    | .running cmd => some (s.setWorker worker (.enqueuing cmd .loadHead))
    | .idle | .enqueuing _ _ => none
  | .enqueue worker =>
    match s.workers worker with
    | .enqueuing cmd enqueue => some (s.enqueue worker cmd enqueue)
    | .idle | .running _ => none

end Pool

end Evhtp
