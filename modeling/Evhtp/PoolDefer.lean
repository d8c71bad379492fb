import Mathlib.Algebra.Group.Nat.Defs
import Evhtp.Thread

/-! What `evthr_defer` and `evthr_pool_defer` return. A command that was allocated goes into the queue of its target
before the eventfd is written, and the call returns what became of the write; so the outcomes of `calloc` and of
`write` are part of the steps here. Commands, queues and targets are those of `Threads`, one of them for each thread. -/

namespace Evhtp

/-- `evthr_res`, with all of its codes. -/
inductive EvthrResult where
  | ok
  | backlog
  | retry
  | nocb
  | fatal
  deriving DecidableEq, Repr

/-- What `write` did with the eventfd: it took all of `value`, or it did not, with `EAGAIN` in `errno` or not. -/
inductive Written where
  | whole
  | failed (again : Bool)
  deriving DecidableEq, Repr

/-- What `evthr_defer` returns after the write. -/
def Written.res : Written → EvthrResult
  | .whole => .ok
  | .failed true => .retry
  | .failed false => .fatal

def getSecondIndex (i n : Nat) : Nat :=
  if n ≤ 1 then i
  else
    let step := if n / 2 = 0 then 1 else n / 2
    (i + step) % n

/-- A call of `evthr_defer` or of `evthr_pool_defer` that got past the checks of its arguments. The number is not part
of the source: it tells the calls apart. -/
structure DeferCall where
  number : Nat
  cb : Nat
  arg : Nat
  deriving DecidableEq, Repr

/-- Where a thread is in `evthr_pool_defer`, or in `evthr_defer`, which may be called from there: what it does next. -/
inductive Deferring where
  | ticket
  | loadFirst (i j : Nat)
  | loadSecond (i j backlog : Nat)
  | count (thread : Nat)
  | take (thread : Nat)
  | sending (thread : Nat)
  deriving DecidableEq, Repr

/-- A pool, and threads that are in none: the numbers below `nthreads` are those of the pool. `busy` are the commands
that are not free, and `stored` is what `evthr_defer` put into the commands for each thread. The last two fields are
not part of the source: how many calls there were, and what they returned. -/
structure DeferPool where
  nthreads : Nat
  nextChoice : Nat := 0
  tails : Nat → Nat := fun _ => 0
  threads : Nat → Threads := fun _ => {}
  callers : Nat → Option (DeferCall × Deferring) := fun _ => none
  busy : Nat → Bool := fun _ => false
  stored : Nat → Command → Option DeferCall := fun _ _ => none
  calls : Nat := 0
  returned : List (Nat × EvthrResult) := []

/-- A step of one of the threads. A caller enters `evthr_defer` with a thread and a callback, each of which may be
NULL, or `evthr_pool_defer`; it goes on in the choice of a thread; it takes a command, which its cache or else `calloc`
gave it; it goes on in `mpsc_queue_insert`; or it writes the eventfd. The last three are the steps of a target. -/
inductive DeferStep where
  | defer (caller : Nat) (thread cb : Option Nat) (arg : Nat)
  | poolDefer (caller : Nat) (pool : Bool) (cb : Option Nat) (arg : Nat)
  | choose (caller : Nat)
  | take (caller : Nat) (cached allocated : Option Nat)
  | insert (caller : Nat)
  | write (caller : Nat) (written : Written)
  | readCmd (thread : Nat)
  | poll (thread : Nat)
  | run (thread : Nat)
  deriving DecidableEq, Repr

/-- The step is a write of the eventfd that fails. -/
def DeferStep.failsWrite : DeferStep → Bool
  | .write _ (.failed _) => true
  | .write _ .whole | .defer _ _ _ _ | .poolDefer _ _ _ _ | .choose _ | .take _ _ _ | .insert _ | .readCmd _ | .poll _
  | .run _ => false

namespace DeferPool

def setThread (s : DeferPool) (thread : Nat) (state : Threads) : DeferPool :=
  { s with threads := fun other => if other = thread then state else s.threads other }

def setCaller (s : DeferPool) (caller : Nat) (place : Option (DeferCall × Deferring)) : DeferPool :=
  { s with callers := fun other => if other = caller then place else s.callers other }

def enter (s : DeferPool) (caller cb arg : Nat) (place : Deferring) : DeferPool :=
  { s.setCaller caller (some (⟨s.calls, cb, arg⟩, place)) with calls := s.calls + 1 }

def refuse (s : DeferPool) (res : EvthrResult) : DeferPool :=
  { s with calls := s.calls + 1, returned := s.returned ++ [(s.calls, res)] }

def leave (s : DeferPool) (caller : Nat) (call : DeferCall) (res : EvthrResult) : DeferPool :=
  { s.setCaller caller none with returned := s.returned ++ [(call.number, res)] }

def defer (s : DeferPool) (caller : Nat) (thread cb : Option Nat) (arg : Nat) : DeferPool :=
  match thread, cb with
  | none, _ => s.refuse .fatal
  | some _, none => s.refuse .nocb
  | some thread, some cb => s.enter caller cb arg (.take thread)

/-- The checks of `evthr_pool_defer`. The threads of a pool are not NULL, and neither is the callback when
`evthr_defer` is called from here, so that its checks pass. -/
def poolDefer (s : DeferPool) (caller : Nat) (pool : Bool) (cb : Option Nat) (arg : Nat) : DeferPool :=
  if pool = false then s.refuse .fatal
  else
    match cb with
    | none => s.refuse .nocb
    | some cb =>
      if s.nthreads = 0 then s.refuse .fatal
      else if s.nthreads = 1 then s.enter caller cb arg (.take 0)
      else s.enter caller cb arg .ticket

/-- The next atomic operation of the choice of a thread in `evthr_pool_defer`. -/
def choose (s : DeferPool) (caller : Nat) (call : DeferCall) : Deferring → Option DeferPool
  | .ticket =>
    let i := s.nextChoice % s.nthreads
    some { s.setCaller caller (some (call, .loadFirst i (getSecondIndex i s.nthreads))) with
      nextChoice := (s.nextChoice + 1) % 2 ^ 32 }
  | .loadFirst i j =>
    let backlog := s.tails i
    some (s.setCaller caller (some (call, if backlog = 0 then .count i else .loadSecond i j backlog)))
  | .loadSecond i j first =>
    let second := s.tails j
    some (s.setCaller caller (some (call, .count (if second = 0 then j else if first ≤ second then i else j))))
  | .count thread =>
    some { s.setCaller caller (some (call, .take thread)) with
      tails := fun other => if other = thread then (s.tails other + 1) % 2 ^ 64 else s.tails other }
  | .take _ | .sending _ => none

def store (s : DeferPool) (caller thread address : Nat) (call : DeferCall) (state : Threads) : DeferPool :=
  let command : Command := ⟨caller, (s.threads thread).deferred caller⟩
  { (s.setThread thread state).setCaller caller (some (call, .sending thread)) with
    busy := fun other => if other = address then true else s.busy other
    stored := fun other => if other = thread then
        fun filled => if filled = command then some call else s.stored other filled
      else s.stored other }

/-- `evthr_defer` takes a command, or returns because there is none. -/
def take (s : DeferPool) (caller thread : Nat) (call : DeferCall) (cached allocated : Option Nat) : Option DeferPool :=
  match cached.or allocated with
  | none => some (s.leave caller call .fatal)
  | some address =>
    if s.busy address = false then
      ((s.threads thread).step (.defer caller address)).map (s.store caller thread address call)
    else none

def write (s : DeferPool) (caller thread : Nat) (call : DeferCall) (written : Written) : DeferPool :=
  let state := s.threads thread
  (s.setThread thread (match written with
    | .whole => state.wake caller
    | .failed _ => state.setProducer caller .outside)).leave caller call written.res

/-- The target runs a command, which is free after it. -/
def run (s : DeferPool) (thread : Nat) : Option DeferPool :=
  match (s.threads thread).target with
  | .running (.cmd address) =>
    some { s.setThread thread ((s.threads thread).runCallback address) with
      busy := fun other => if other = address then false else s.busy other }
  | .running .stub | .outside | .polling _ => none

def step (s : DeferPool) (event : DeferStep) : Option DeferPool :=
  match event with
  | .defer caller thread cb arg => if s.callers caller = none then some (s.defer caller thread cb arg) else none
  | .poolDefer caller pool cb arg => if s.callers caller = none then some (s.poolDefer caller pool cb arg) else none
  | .choose caller => (s.callers caller).bind fun at_ => s.choose caller at_.1 at_.2
  | .take caller cached allocated =>
    match s.callers caller with
    | some (call, .take thread) => s.take caller thread call cached allocated
    | _ => none
  | .insert caller =>
    match s.callers caller with
    | some (_, .sending thread) =>
      match (s.threads thread).producers caller with
      | .inserting address insert => some (s.setThread thread ((s.threads thread).insert caller address insert))
      | .outside | .waking => none
    | _ => none
  | .write caller written =>
    match s.callers caller with
    | some (call, .sending thread) =>
      if (s.threads thread).producers caller = .waking then some (s.write caller thread call written) else none
    | _ => none
  | .readCmd thread => ((s.threads thread).step .readCmd).map (s.setThread thread)
  | .poll thread => ((s.threads thread).step .poll).map (s.setThread thread)
  | .run thread => s.run thread

/-- The calls whose callbacks a thread has run: `cb(thread, arg, ...)` for each of them. -/
def invoked (s : DeferPool) (thread : Nat) : List DeferCall :=
  (s.threads thread).executed.filterMap (s.stored thread)

end DeferPool

end Evhtp
