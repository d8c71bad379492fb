import Evhtp.DeferSync
import Mathlib.Data.Finset.Card
import Mathlib.Order.Nat

/-! What `evthr_pool_defer_all_sync` leaves behind. If every thread was given its command, the caller returns after
the last one has let go of the mutex. If a thread was not, the caller returns at once, and the commands that are
already queued refer to a context that is gone. -/

namespace Evhtp
open Runs

namespace SyncWorker

def decremented : SyncWorker → Bool
  | .signalling | .unlocking | .done => true
  | .none | .queued | .calling | .locking | .decrementing => false

def locked : SyncWorker → Bool
  | .decrementing | .signalling | .unlocking => true
  | .none | .queued | .calling | .locking | .done => false

def calls : SyncWorker → Nat
  | .none | .queued | .calling => 0
  | .locking | .decrementing | .signalling | .unlocking | .done => 1

theorem refers_of_decremented {worker : SyncWorker} (decremented : worker.decremented = true)
    (unlocked : worker.locked = false) : worker.refers = false := by
  cases worker <;> trivial

theorem calls_of_done {worker : SyncWorker} (given : worker ≠ .none) (finished : worker.refers = false) :
    worker.calls = 1 := by
  cases worker <;> trivial

end SyncWorker

namespace SyncCaller

def given (size : Nat) : SyncCaller → Nat
  | .deferring thread => thread
  | .writing thread => thread + 1
  | .locking | .testing | .waiting | .woken | .unlocking | .returned _ => size

def locked : SyncCaller → Bool
  | .testing | .unlocking => true
  | .deferring _ | .writing _ | .locking | .waiting | .woken | .returned _ => false

def finished : SyncCaller → Bool
  | .unlocking | .returned _ => true
  | .deferring _ | .writing _ | .locking | .testing | .waiting | .woken => false

theorem signalled_like (caller : SyncCaller) (size : Nat) : caller.signalled.given size = caller.given size ∧
    caller.signalled.locked = caller.locked ∧ caller.signalled.finished = caller.finished := by
  cases caller <;> exact ⟨rfl, rfl, rfl⟩

end SyncCaller

namespace DeferSync

/-- After the return no thread refers to the context, and with `EVTHR_RES_OK` the callback ran once on every thread. -/
def LeavesNothing (size : Nat) (s : DeferSync) : Prop :=
  ∀ res, s.caller = .returned res →
    (∀ thread, (s.workers thread).refers = false) ∧ (res = .ok → ∀ thread < size, s.ran thread = 1)

/-- The threads that still have to decrement `nthreads`. -/
def remaining (size : Nat) (s : DeferSync) : Finset Nat :=
  (Finset.range size).filter fun thread => (s.workers thread).decremented = false

/-- A pool in which every `evthr_defer` so far returned `EVTHR_RES_OK`. -/
structure Valid (size : Nat) (s : DeferSync) : Prop where
  within : s.caller.given size ≤ size
  given : ∀ thread, s.workers thread ≠ .none ↔ thread < s.caller.given size
  count : s.nthreads = (s.remaining size).card
  worker : ∀ thread, s.mutex = some (.worker thread) ↔ (s.workers thread).locked = true
  caller : s.mutex = some .caller ↔ s.caller.locked = true
  finished : s.caller.finished = true → ∀ thread, (s.workers thread).refers = false
  ran : ∀ thread, s.ran thread = (s.workers thread).calls

variable {size : Nat} {outcome : Nat → DeferOutcome} {s after : DeferSync} {thread : Nat} {worker : SyncWorker}

@[simp] theorem setWorker_same : (s.setWorker thread worker).workers thread = worker := if_pos rfl

@[simp] theorem setWorker_other {other : Nat} (different : other ≠ thread) :
    (s.setWorker thread worker).workers other = s.workers other := if_neg different

theorem valid_start (size : Nat) : Valid size { nthreads := size } where
  within := Nat.zero_le size
  given thread := ⟨fun absurdity => absurd rfl absurdity, nofun⟩
  count := by simp [remaining, SyncWorker.decremented]
  worker thread := ⟨nofun, nofun⟩
  caller := ⟨nofun, nofun⟩
  finished := nofun
  ran thread := rfl

variable (valid : s.Valid size)
include valid

theorem Valid.leavesNothing : s.LeavesNothing size := by
  intro res returned
  have finished := valid.finished (by rw [returned]; rfl)
  refine ⟨finished, fun _ thread inside => ?_⟩
  have given : s.workers thread ≠ .none := (valid.given thread).mpr (by rw [returned]; exact inside)
  rw [valid.ran]
  exact SyncWorker.calls_of_done given (finished thread)

/-- With the mutex and `nthreads` at zero, every thread is done. -/
theorem Valid.allDone (testing : s.caller = .testing) (zero : s.nthreads = 0) :
    ∀ thread, (s.workers thread).refers = false := by
  intro thread
  by_cases inside : thread < size
  · have none_left : s.remaining size = ∅ := Finset.card_eq_zero.mp (valid.count.symm.trans zero)
    have decremented : (s.workers thread).decremented = true := by
      by_contra not_yet
      have left : thread ∈ s.remaining size :=
        Finset.mem_filter.mpr ⟨Finset.mem_range.mpr inside, Bool.eq_false_of_not_eq_true not_yet⟩
      simp [none_left] at left
    have held : s.mutex = some .caller := valid.caller.mpr (by rw [testing]; rfl)
    have unlocked : (s.workers thread).locked = false := by
      apply Bool.eq_false_of_not_eq_true
      intro locked
      cases held.symm.trans ((valid.worker thread).mpr locked)
    exact SyncWorker.refers_of_decremented decremented unlocked
  · have absent : s.workers thread = .none := by
      by_contra given
      exact inside (Nat.lt_of_lt_of_le ((valid.given thread).mp given) valid.within)
    rw [absent]
    rfl

theorem Valid.moveCaller (caller : SyncCaller) (mutex : Option Holder)
    (given : caller.given size = s.caller.given size)
    (others : ∀ thread, mutex = some (.worker thread) ↔ s.mutex = some (.worker thread))
    (own : mutex = some .caller ↔ caller.locked = true)
    (finished : caller.finished = true → ∀ thread, (s.workers thread).refers = false) :
    Valid size { s with caller := caller, mutex := mutex } where
  within := given ▸ valid.within
  given thread := (valid.given thread).trans (by rw [given])
  count := valid.count
  worker thread := (others thread).trans (valid.worker thread)
  caller := own
  finished := finished
  ran := valid.ran

theorem Valid.take (free : s.mutex = none) (waits : s.caller.given size = size) :
    Valid size { s with mutex := some .caller, caller := .testing } := by
  refine valid.moveCaller .testing (some .caller) waits.symm (fun thread => ⟨nofun, ?_⟩)
    ⟨fun _ => rfl, fun _ => rfl⟩ nofun
  intro held
  cases free.symm.trans held

theorem Valid.release (held : s.caller.locked = true) (caller : SyncCaller)
    (given : caller.given size = s.caller.given size) (unlocked : caller.locked = false)
    (finished : caller.finished = true → s.caller.finished = true) :
    Valid size { s with mutex := none, caller := caller } := by
  refine valid.moveCaller caller none given (fun thread => ⟨nofun, ?_⟩) ⟨nofun, ?_⟩
    (fun done => valid.finished (finished done))
  · intro other
    cases (valid.caller.mpr held).symm.trans other
  · intro locked
    cases unlocked.symm.trans locked

theorem Valid.defer (deferring : s.caller = .deferring thread) (inside : thread < size) :
    Valid size { s.setWorker thread .queued with caller := .writing thread } := by
  have absent : s.workers thread = .none := by
    by_contra given
    have before := (valid.given thread).mp given
    rw [deferring] at before
    exact Nat.lt_irrefl _ before
  have kept {α : Type} (f : SyncWorker → α) (same : f .queued = f .none) (other : Nat) :
      f ((s.setWorker thread .queued).workers other) = f (s.workers other) := by
    by_cases target : other = thread
    · rw [target, setWorker_same, absent, same]
    · rw [setWorker_other target]
  refine ⟨inside, fun other => ?_, ?_, fun other => ?_, ?_, nofun, fun other => ?_⟩
  · by_cases target : other = thread
    · subst target
      exact ⟨fun _ => Nat.lt_succ_self _, fun _ => by simp⟩
    · have before := valid.given other
      rw [deferring] at before
      simp only [setWorker_other target, before, SyncCaller.given]
      omega
  · simp only [remaining, kept SyncWorker.decremented rfl]
    exact valid.count
  · rw [kept SyncWorker.locked rfl]
    exact valid.worker other
  · refine valid.caller.trans ?_
    rw [deferring]
    rfl
  · rw [kept SyncWorker.calls rfl]
    exact valid.ran other

theorem Valid.callerStep (delivered : ∀ thread < size, outcome thread = .delivered)
    (taken : s.callerStep size outcome = some after) : after.Valid size := by
  unfold DeferSync.callerStep at taken
  have free (unlocked : s.caller.locked = false) : s.mutex ≠ some .caller :=
    fun held => nomatch (valid.caller.mp held).symm.trans unlocked
  cases place : s.caller with
  | deferring thread =>
    by_cases inside : thread < size
    · simp only [place, inside, delivered thread inside, if_true, reduceCtorEq, if_false, Option.some.injEq] at taken
      subst taken
      exact valid.defer place inside
    · have within := valid.within
      rw [place] at within
      have last : size = thread := Nat.le_antisymm (Nat.le_of_not_lt inside) within
      simp only [place, inside, if_false, Option.some.injEq] at taken
      subst taken
      refine valid.moveCaller .locking s.mutex (by rw [place]; exact last) (fun _ => Iff.rfl)
        ⟨fun held => ?_, nofun⟩ nofun
      exact absurd held (free (by rw [place]; rfl))
  | writing thread =>
    have inside := valid.within
    rw [place] at inside
    simp only [place, delivered thread inside, DeferOutcome.res, if_true, Option.some.injEq] at taken
    subst taken
    refine valid.moveCaller (.deferring (thread + 1)) s.mutex (by rw [place]; rfl) (fun _ => Iff.rfl)
      ⟨fun held => ?_, nofun⟩ nofun
    exact absurd held (free (by rw [place]; rfl))
  | locking | woken =>
    simp only [place, Option.ite_none_right_eq_some, Option.some.injEq] at taken
    obtain ⟨open_, rfl⟩ := taken
    exact valid.take open_ (by rw [place]; rfl)
  | waiting =>
    simp only [place, Option.some.injEq] at taken
    subst taken
    refine valid.moveCaller .woken s.mutex (by rw [place]; rfl) (fun _ => Iff.rfl) ⟨fun held => ?_, nofun⟩ nofun
    exact absurd held (free (by rw [place]; rfl))
  | testing =>
    have held : s.caller.locked = true := by rw [place]; rfl
    by_cases positive : s.nthreads > 0
    · simp only [place, positive, if_true, Option.some.injEq] at taken
      subst taken
      exact valid.release held .waiting (by rw [place]; rfl) rfl nofun
    · simp only [place, positive, if_false, Option.some.injEq] at taken
      subst taken
      refine valid.moveCaller .unlocking s.mutex (by rw [place]; rfl) (fun _ => Iff.rfl)
        ⟨fun _ => rfl, fun _ => valid.caller.mpr held⟩ ?_
      exact fun _ => valid.allDone place (Nat.eq_zero_of_not_pos positive)
  | unlocking =>
    simp only [place, Option.some.injEq] at taken
    subst taken
    exact valid.release (by rw [place]; rfl) (.returned .ok) (by rw [place]; rfl) rfl (fun _ => by rw [place]; rfl)
  | returned res =>
    simp only [place] at taken
    cases taken

theorem Valid.moveWorker (thread : Nat) (worker : SyncWorker) (mutex : Option Holder)
    (nthreads : Nat) (ran : Nat → Nat) (refers : (s.workers thread).refers = true) (given : worker ≠ .none)
    (count : nthreads = ((s.setWorker thread worker).remaining size).card)
    (own : mutex = some (.worker thread) ↔ worker.locked = true)
    (others : ∀ {holder}, holder ≠ .worker thread → (mutex = some holder ↔ s.mutex = some holder))
    (called : ran thread = worker.calls) (uncalled : ∀ {other}, other ≠ thread → ran other = s.ran other) :
    Valid size { s.setWorker thread worker with mutex := mutex, nthreads := nthreads, ran := ran } := by
  have callers : mutex = some .caller ↔ s.mutex = some .caller := others nofun
  refine ⟨valid.within, fun other => ?_, count, fun other => ?_, callers.trans valid.caller, ?_, fun other => ?_⟩
  · by_cases target : other = thread
    · subst target
      have before : s.workers other ≠ .none := fun absent => by
        rw [absent] at refers
        cases refers
      exact ⟨fun _ => (valid.given other).mp before, fun _ => by simpa using given⟩
    · simp only [setWorker_other target]
      exact valid.given other
  · by_cases target : other = thread
    · subst target
      simpa using own
    · simp only [setWorker_other target]
      refine (others ?_).trans (valid.worker other)
      exact fun same => target (Holder.worker.inj same)
  · intro finished
    cases (valid.finished finished thread).symm.trans refers
  · by_cases target : other = thread
    · subst target
      simpa using called
    · simp only [setWorker_other target]
      exact (uncalled target).trans (valid.ran other)

omit valid

theorem remaining_kept (same : worker.decremented = (s.workers thread).decremented) :
    (s.setWorker thread worker).remaining size = s.remaining size := by
  apply Finset.filter_congr
  intro other _
  by_cases target : other = thread
  · rw [target, setWorker_same, same]
  · rw [setWorker_other target]

theorem remaining_decremented (decremented : worker.decremented = true) :
    (s.setWorker thread worker).remaining size = (s.remaining size).erase thread := by
  ext other
  by_cases target : other = thread
  · simp [remaining, target, decremented]
  · simp [remaining, target]

theorem Valid.goOn (valid : s.Valid size) (given : worker ≠ .none) (refers : (s.workers thread).refers = true)
    (decremented : worker.decremented = (s.workers thread).decremented) (locked : worker.locked = (s.workers thread).locked)
    (calls : worker.calls = (s.workers thread).calls) : (s.setWorker thread worker).Valid size := by
  apply valid.moveWorker thread worker s.mutex s.nthreads s.ran refers given
  · rw [remaining_kept decremented]
    exact valid.count
  · rw [locked]
    exact valid.worker thread
  · exact fun _ => Iff.rfl
  · rw [calls]
    exact valid.ran thread
  · exact fun _ => rfl

theorem Valid.signal (valid : s.Valid size) : Valid size { s with caller := s.caller.signalled } := by
  obtain ⟨given, locked, finished⟩ := s.caller.signalled_like size
  refine valid.moveCaller s.caller.signalled s.mutex given (fun _ => Iff.rfl) ?_ ?_
  · rw [locked]
    exact valid.caller
  · rw [finished]
    exact valid.finished

theorem Valid.workerStep (valid : s.Valid size) (taken : s.workerStep thread = some after) : after.Valid size := by
  unfold DeferSync.workerStep at taken
  have called := valid.ran thread
  have holds := valid.worker thread
  cases place : s.workers thread with
  | none | done =>
    simp only [place] at taken
    cases taken
  | queued =>
    simp only [place, Option.some.injEq] at taken
    subst taken
    apply valid.goOn <;> simp [place, SyncWorker.refers, SyncWorker.decremented, SyncWorker.locked, SyncWorker.calls]
  | signalling =>
    simp only [place, Option.some.injEq] at taken
    subst taken
    have moved : (s.setWorker thread .unlocking).Valid size := by
      apply valid.goOn <;> simp [place, SyncWorker.refers, SyncWorker.decremented, SyncWorker.locked, SyncWorker.calls]
    exact moved.signal
  | calling =>
    simp only [place, Option.some.injEq] at taken
    subst taken
    rw [place] at called holds
    apply valid.moveWorker thread _ s.mutex s.nthreads
    · rw [place]; rfl
    · exact nofun
    · rw [remaining_kept (by rw [place]; rfl)]
      exact valid.count
    · exact holds
    · exact fun _ => Iff.rfl
    · rw [if_pos rfl, called]
      rfl
    · exact fun different => if_neg different
  | locking =>
    simp only [place, Option.ite_none_right_eq_some, Option.some.injEq] at taken
    obtain ⟨free, rfl⟩ := taken
    rw [place] at called
    apply valid.moveWorker thread _ (some (.worker thread)) s.nthreads s.ran
    · rw [place]; rfl
    · exact nofun
    · rw [remaining_kept (by rw [place]; rfl)]
      exact valid.count
    · exact ⟨fun _ => rfl, fun _ => rfl⟩
    · intro holder different
      exact ⟨fun same => absurd (Option.some.inj same).symm different, fun held => nomatch free.symm.trans held⟩
    · exact called
    · exact fun _ => rfl
  | decrementing =>
    simp only [place, Option.some.injEq] at taken
    subst taken
    have inside : thread < size :=
      Nat.lt_of_lt_of_le ((valid.given thread).mp (by rw [place]; exact nofun)) valid.within
    rw [place] at called holds
    apply valid.moveWorker thread _ s.mutex (s.nthreads - 1) s.ran
    · rw [place]; rfl
    · exact nofun
    · have counted : thread ∈ s.remaining size :=
        Finset.mem_filter.mpr ⟨Finset.mem_range.mpr inside, by rw [place]; rfl⟩
      rw [remaining_decremented rfl, Finset.card_erase_of_mem counted, valid.count]
    · exact holds
    · exact fun _ => Iff.rfl
    · exact called
    · exact fun _ => rfl
  | unlocking =>
    simp only [place, Option.some.injEq] at taken
    subst taken
    have held : s.mutex = some (.worker thread) := holds.mpr (by rw [place]; rfl)
    rw [place] at called
    apply valid.moveWorker thread _ none s.nthreads s.ran
    · rw [place]; rfl
    · exact nofun
    · rw [remaining_kept (by rw [place]; rfl)]
      exact valid.count
    · exact ⟨nofun, nofun⟩
    · intro holder different
      exact ⟨nofun, fun other => absurd (Option.some.inj (other.symm.trans held)) different⟩
    · exact called
    · exact fun _ => rfl

theorem Valid.step {event : SyncStep} (valid : s.Valid size)
    (delivered : ∀ thread < size, outcome thread = .delivered)
    (taken : s.step size outcome event = some after) : after.Valid size := by
  cases event with
  | caller => exact valid.callerStep delivered taken
  | worker thread => exact valid.workerStep taken

def Untouched (s : DeferSync) : Prop :=
  (s.caller = .deferring 0 ∨ s.caller = .returned .fatal) ∧ ∀ thread, s.workers thread = .none

theorem Untouched.leavesNothing (untouched : s.Untouched) : s.LeavesNothing size := by
  intro res returned
  refine ⟨fun thread => by rw [untouched.2 thread]; rfl, ?_⟩
  rintro rfl
  rcases untouched.1 with start | failed
  · cases start.symm.trans returned
  · cases failed.symm.trans returned

/-- Without memory for the first command nothing happens but the return. -/
theorem Untouched.step {event : SyncStep} (untouched : s.Untouched) (inhabited : 0 < size)
    (first : outcome 0 = .noMemory) (taken : s.step size outcome event = some after) : after.Untouched := by
  obtain ⟨place, idle⟩ := untouched
  cases event with
  | caller =>
    rcases place with start | failed
    · simp only [DeferSync.step, DeferSync.callerStep, start, inhabited, first, if_true, Option.some.injEq] at taken
      subst taken
      exact ⟨.inr rfl, idle⟩
    · simp only [DeferSync.step, DeferSync.callerStep, failed] at taken
      cases taken
  | worker thread =>
    simp only [DeferSync.step, DeferSync.workerStep, idle thread] at taken
    cases taken

def given (size thread : Nat) : DeferSync :=
  { caller := .deferring thread, workers := fun other => if other < thread then .queued else .none, nthreads := size }

theorem given_queued (size thread : Nat) : (given size thread).setWorker thread .queued =
    { given size (thread + 1) with caller := .deferring thread } := by
  unfold setWorker given
  congr
  funext other
  grind

theorem given_reached (before : ∀ other < thread, outcome other = .delivered) (inside : thread ≤ size) :
    Reaches (step size outcome) (fun _ _ => True) { nthreads := size } (given size thread) := by
  induction thread with
  | zero => exact .start
  | succ thread ih =>
    have delivered : outcome thread = .delivered := before thread (Nat.lt_succ_self thread)
    have reached := ih (fun other below => before other (Nat.lt_succ_of_lt below)) (Nat.le_of_succ_le inside)
    have queued : (given size thread).step size outcome .caller =
        some { given size (thread + 1) with caller := .writing thread } := by
      have room : thread < size := inside
      have inserted := given_queued size thread
      simp only [step, callerStep, given, room, delivered, if_true, reduceCtorEq, if_false] at inserted ⊢
      rw [inserted]
    have written : ({ given size (thread + 1) with caller := .writing thread } : DeferSync).step size outcome .caller =
        some (given size (thread + 1)) := by
      simp [step, callerStep, delivered, DeferOutcome.res, given]
    exact .step (.step reached trivial queued) trivial written

/-- The caller returns with the first `evthr_defer` that fails; the commands before it are queued, and its own if it
was the write. -/
theorem failed_reached (before : ∀ other < thread, outcome other = .delivered) (inside : thread < size)
    (failed : outcome thread ≠ .delivered) :
    ∃ s res, Reaches (step size outcome) (fun _ _ => True) { nthreads := size } s ∧ s.caller = .returned res ∧
      ∀ other, other < thread ∨ other = thread ∧ outcome thread ≠ .noMemory → s.workers other = .queued := by
  have reached := given_reached before (Nat.le_of_lt inside)
  by_cases memory : outcome thread = .noMemory
  · have stopped : (given size thread).step size outcome .caller =
        some { given size thread with caller := .returned .fatal } := by
      simp only [step, callerStep, given, inside, memory, if_true]
    refine ⟨_, .fatal, .step reached trivial stopped, rfl, ?_⟩
    rintro other (below | ⟨-, inserted⟩)
    · exact if_pos below
    · exact absurd memory inserted
  · have queued : (given size thread).step size outcome .caller =
        some { (given size thread).setWorker thread .queued with caller := .writing thread } := by
      simp only [step, callerStep, given, inside, memory, if_true, if_false]
    have unwritten : (outcome thread).res ≠ .ok := by
      cases result : outcome thread with
      | delivered => exact absurd result failed
      | noMemory | again | writeFailed => exact nofun
    have stopped : ({ (given size thread).setWorker thread .queued with caller := .writing thread } : DeferSync).step
        size outcome .caller = some { (given size thread).setWorker thread .queued with
          caller := .returned (outcome thread).res } := if_neg unwritten
    refine ⟨_, _, .step (.step reached trivial queued) trivial stopped, rfl, ?_⟩
    rintro other (below | ⟨rfl, -⟩)
    · exact (setWorker_other (Nat.ne_of_lt below)).trans (if_pos below)
    · exact setWorker_same

/-- Nothing is left behind in any interleaving exactly if every `evthr_defer` returns `EVTHR_RES_OK`, or the first one
already fails before its command is inserted. -/
theorem defer_all_sync_leaves_nothing (size : Nat) (outcome : Nat → DeferOutcome) :
    (∀ s, Reaches (step size outcome) (fun _ _ => True) { nthreads := size } s → s.LeavesNothing size) ↔
      (∀ thread < size, outcome thread = .delivered) ∨ (0 < size ∧ outcome 0 = .noMemory) := by
  constructor
  · intro nothing
    by_contra neither
    obtain ⟨undelivered, inserted⟩ := not_or.mp neither
    have fails : ∃ thread, thread < size ∧ outcome thread ≠ .delivered := by
      by_contra none_fails
      exact undelivered fun thread inside => by_contra fun failed => none_fails ⟨thread, inside, failed⟩
    obtain ⟨inside, failed⟩ := Nat.find_spec fails
    have before : ∀ other < Nat.find fails, outcome other = .delivered := fun other below =>
      by_contra fun earlier => Nat.find_min fails below ⟨Nat.lt_trans below inside, earlier⟩
    obtain ⟨s, res, reached, returned, queued⟩ := failed_reached before inside failed
    -- Thread 0 has its command, as one of those before the failure or as the one whose eventfd failed.
    have first : s.workers 0 = .queued := by
      apply queued
      rcases Nat.eq_zero_or_pos (Nat.find fails) with zero | later
      · refine .inr ⟨zero.symm, fun memory => inserted ⟨Nat.lt_of_le_of_lt (Nat.zero_le _) inside, ?_⟩⟩
        rwa [zero] at memory
      · exact .inl later
    have gone := (nothing s reached res returned).1 0
    rw [first] at gone
    cases gone
  · rintro (delivered | ⟨inhabited, memory⟩) s reached
    · have valid : s.Valid size := reached.invariant (valid_start size) fun valid _ taken => valid.step delivered taken
      exact valid.leavesNothing
    · have untouched : s.Untouched := reached.invariant ⟨.inl rfl, fun _ => rfl⟩
        fun untouched _ taken => untouched.step inhabited memory taken
      exact untouched.leavesNothing

/-- Two threads, and no memory for the command of the second one. -/
theorem defer_all_sync_leaves_queued :
    ∃ s, Reaches (step 2 (fun thread => if thread = 1 then .noMemory else .delivered)) (fun _ _ => True)
      { nthreads := 2 } s ∧ ¬s.LeavesNothing 2 := by
  let outcome : Nat → DeferOutcome := fun thread => if thread = 1 then .noMemory else .delivered
  have reached : Reaches (step 2 outcome) (fun _ _ => True) { nthreads := 2 } (given 2 1) :=
    given_reached (by decide) (by decide)
  have stopped : (given 2 1).step 2 outcome .caller = some { given 2 1 with caller := .returned .fatal } := rfl
  refine ⟨_, .step reached trivial stopped, ?_⟩
  intro nothing
  cases (nothing .fatal rfl).1 0

end DeferSync

end Evhtp
