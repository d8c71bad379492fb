import Evhtp.Lib.Runs

/-! `evthr_pool_defer_all_sync`: a caller defers one command to every thread of a pool and waits for all of them.
The commands refer to a context on the caller's stack, with a mutex, a condition and the number of threads that
have not run theirs yet. -/

namespace Evhtp

/-- The `EVTHR_RES_` codes of `evthr_defer`, for a thread and a callback that are there. -/
inductive EvthrRes where
  | ok
  | retry
  | fatal
  deriving DecidableEq, Repr

/-- What happens in `evthr_defer`: `calloc` fails, or the command is inserted and the eventfd is written; the write
may fail with `EAGAIN` or otherwise. -/
inductive DeferOutcome where
  | delivered
  | noMemory
  | again
  | writeFailed
  deriving DecidableEq, Repr

/-- The result of the write, once the command is in the queue of the thread. -/
def DeferOutcome.res : DeferOutcome → EvthrRes
  | .delivered => .ok
  | .again => .retry
  | .noMemory | .writeFailed => .fatal

/-- Where the caller is in `evthr_pool_defer_all_sync`: what it does next. -/
inductive SyncCaller where
  | deferring (thread : Nat)
  | writing (thread : Nat)
  | locking
  | testing
  | waiting
  | woken
  | unlocking
  | returned (res : EvthrRes)
  deriving DecidableEq, Repr

/-- `pthread_cond_signal`: a caller that sleeps is woken, and on another one the signal is lost. -/
def SyncCaller.signalled : SyncCaller → SyncCaller
  | .waiting => .woken
  | caller => caller

/-- Where a thread of the pool is with its command, which runs `defer_sync_cb`: what it does next. -/
inductive SyncWorker where
  | none
  | queued
  | calling
  | locking
  | decrementing
  | signalling
  | unlocking
  | done
  deriving DecidableEq, Repr

/-- The command is in the queue of the thread, or the thread is still in `defer_sync_cb`. -/
def SyncWorker.refers : SyncWorker → Bool
  | .none | .done => false
  | .queued | .calling | .locking | .decrementing | .signalling | .unlocking => true

inductive Holder where
  | caller
  | worker (thread : Nat)
  deriving DecidableEq, Repr

/-- The caller, its context and the threads of the pool. `ran` is not part of the source: how often the callback
was called on a thread. -/
structure DeferSync where
  caller : SyncCaller := .deferring 0
  workers : Nat → SyncWorker := fun _ => .none
  mutex : Option Holder := none
  nthreads : Nat
  ran : Nat → Nat := fun _ => 0

inductive SyncStep where
  | caller
  | worker (thread : Nat)
  deriving DecidableEq, Repr

namespace DeferSync

def setWorker (s : DeferSync) (thread : Nat) (worker : SyncWorker) : DeferSync :=
  { s with workers := fun other => if other = thread then worker else s.workers other }

/-- The caller. In `pthread_cond_wait` it gives up the mutex and sleeps; once woken it takes the mutex again. A step of a
caller that sleeps is a wake-up without a signal, which POSIX allows. -/
def callerStep (size : Nat) (outcome : Nat → DeferOutcome) (s : DeferSync) : Option DeferSync :=
  match s.caller with
  | .deferring thread =>
    if thread < size then
      if outcome thread = .noMemory then some { s with caller := .returned .fatal }
      else some { s.setWorker thread .queued with caller := .writing thread }
    else some { s with caller := .locking }
  | .writing thread =>
    if (outcome thread).res = .ok then some { s with caller := .deferring (thread + 1) }
    else some { s with caller := .returned (outcome thread).res }
  | .locking | .woken =>
    if s.mutex = none then some { s with mutex := some .caller, caller := .testing } else none
  | .testing =>
    if s.nthreads > 0 then some { s with mutex := none, caller := .waiting } else some { s with caller := .unlocking }
  | .waiting => some { s with caller := .woken }
  | .unlocking => some { s with mutex := none, caller := .returned .ok }
  | .returned _ => none

/-- A thread of the pool: the callback the caller has given, then `--ctx->nthreads` and the signal, with the mutex. -/
def workerStep (thread : Nat) (s : DeferSync) : Option DeferSync :=
  match s.workers thread with
  | .none | .done => none
  | .queued => some (s.setWorker thread .calling)
  | .calling =>
    some { s.setWorker thread .locking with
      ran := fun other => if other = thread then s.ran other + 1 else s.ran other }
  | .locking =>
    if s.mutex = none then some { s.setWorker thread .decrementing with mutex := some (.worker thread) } else none
  | .decrementing => some { s.setWorker thread .signalling with nthreads := s.nthreads - 1 }
  | .signalling => some { s.setWorker thread .unlocking with caller := s.caller.signalled }
  | .unlocking => some { s.setWorker thread .done with mutex := none }

/-- A step for a pool of some size, if the thread can take it. -/
def step (size : Nat) (outcome : Nat → DeferOutcome) (s : DeferSync) : SyncStep → Option DeferSync
  | .caller => s.callerStep size outcome
  | .worker thread => s.workerStep thread

end DeferSync

/-- `evthr_pool_defer_all_completed`: the callback is `defer_completed_cb`, which also defers a completion to the sender.
`posted` are the threads whose completions are in the queue of the sender. -/
structure DeferCompleted extends DeferSync where
  posted : List Nat := []

/-- A step. What `evthr_defer` returns in `defer_completed_cb`, `reply` for each thread, is not looked at. -/
def DeferCompleted.step (size : Nat) (outcome reply : Nat → DeferOutcome) (s : DeferCompleted) (event : SyncStep) :
    Option DeferCompleted :=
  (s.toDeferSync.step size outcome event).map fun after => ⟨after,
    match event with
    | .worker thread => if s.workers thread = .calling ∧ reply thread ≠ .noMemory then s.posted ++ [thread] else s.posted
    | .caller => s.posted⟩

end Evhtp
