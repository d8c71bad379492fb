import Evhtp.Proofs.DeferAllSync
import Mathlib.Algebra.Order.BigOperators.Group.Finset

/-! `evthr_pool_defer_all_sync` comes to its end. A caller that sleeps is woken by the thread that decrements `nthreads` to
zero, which cannot get between the test of `nthreads` and the wait; and every step that is not a wake-up without a signal
leaves less to do. With `evthr_pool_defer_all_completed` all completions are posted by then. -/

namespace Evhtp

/-- The constructors stand in the order of the steps. -/
def SyncWorker.left (worker : SyncWorker) : Nat := 7 - worker.ctorIdx

def SyncCaller.left (size : Nat) : SyncCaller → Nat
  | .deferring thread => 2 * (size - thread) + 5
  | .writing thread => 2 * (size - thread) + 4
  | .locking | .woken => 3
  | .testing => 2
  | .waiting | .unlocking => 1
  | .returned _ => 0

/-- How many threads have got their commands for sure if the call can still return `EVTHR_RES_OK`. -/
def SyncCaller.delivered (size : Nat) : SyncCaller → Nat
  | .deferring thread | .writing thread => thread
  | .locking | .testing | .waiting | .woken | .unlocking | .returned .ok => size
  | .returned .retry | .returned .fatal => 0

namespace DeferSync
variable {size : Nat} {outcome : Nat → DeferOutcome} {s after : DeferSync} {thread : Nat} {worker : SyncWorker}
  {event : SyncStep}

/-- `pthread_cond_wait` does not return on its own: a caller that sleeps is left to the signals. -/
def Unprompted (s : DeferSync) (event : SyncStep) : Prop := event = .caller ∧ s.caller = .waiting

/-- What is left to do. A signal may send the caller through one more test of `nthreads`. -/
def rank (size : Nat) (s : DeferSync) : Nat :=
  s.caller.left size + 3 * ∑ thread ∈ Finset.range size, (s.workers thread).left

/-- A call whose commands are delivered. The signal for a caller that sleeps is not lost: once `nthreads` is zero, the
thread that has decremented it is about to signal. -/
structure Succeeds (size : Nat) (s : DeferSync) : Prop where
  valid : s.Valid size
  ok : ∀ res, s.caller = .returned res → res = .ok
  prompted : s.caller = .waiting → s.nthreads = 0 → ∃ thread, s.workers thread = .signalling

theorem succeeds_start (size : Nat) : Succeeds size { nthreads := size } := ⟨valid_start size, nofun, nofun⟩

/-- What a thread does in one step, apart from the mutex and the callback. -/
theorem workerStep_cases (taken : s.workerStep thread = some after) :
    s.workers thread ≠ .none ∧ ∃ worker, after.workers = (s.setWorker thread worker).workers ∧
      worker.left < (s.workers thread).left ∧
      (worker = .signalling ∧ after.caller = s.caller ∨
        s.workers thread = .signalling ∧ after.caller = s.caller.signalled ∨
        s.workers thread ≠ .signalling ∧ after.caller = s.caller ∧ after.nthreads = s.nthreads) := by
  unfold workerStep at taken
  cases place : s.workers thread with
  | none | done =>
    simp only [place] at taken
    cases taken
  | locking =>
    simp only [place, Option.ite_none_right_eq_some, Option.some.injEq] at taken
    obtain ⟨-, rfl⟩ := taken
    exact ⟨nofun, _, rfl, by decide, .inr (.inr ⟨nofun, rfl, rfl⟩)⟩
  | decrementing =>
    simp only [place, Option.some.injEq] at taken
    subst taken
    exact ⟨nofun, _, rfl, by decide, .inl ⟨rfl, rfl⟩⟩
  | signalling =>
    simp only [place, Option.some.injEq] at taken
    subst taken
    exact ⟨nofun, _, rfl, by decide, .inr (.inl ⟨rfl, rfl⟩)⟩
  | queued | calling | unlocking =>
    simp only [place, Option.some.injEq] at taken
    subst taken
    exact ⟨nofun, _, rfl, by decide, .inr (.inr ⟨nofun, rfl, rfl⟩)⟩

theorem Succeeds.prompts (succeeds : s.Succeeds size) (taken : s.workerStep thread = some after)
    (sleeps : after.caller = .waiting) (zero : after.nthreads = 0) : ∃ thread, after.workers thread = .signalling := by
  obtain ⟨-, worker, workers, -, ⟨rfl, -⟩ | ⟨-, caller⟩ | ⟨other, caller, nthreads⟩⟩ := workerStep_cases taken
  · exact ⟨thread, by rw [workers, setWorker_same]⟩
  · rw [caller] at sleeps
    cases before : s.caller <;> simp [before, SyncCaller.signalled] at sleeps
  · obtain ⟨prompter, signalling⟩ := succeeds.prompted (caller ▸ sleeps) (nthreads ▸ zero)
    have different : prompter ≠ thread := fun here => other (here ▸ signalling)
    exact ⟨prompter, by rw [workers, setWorker_other different, signalling]⟩

theorem Succeeds.step (succeeds : s.Succeeds size) (delivered : ∀ thread < size, outcome thread = .delivered)
    (taken : s.step size outcome event = some after) : after.Succeeds size := by
  have within := succeeds.valid.within
  have before := succeeds.ok
  refine ⟨succeeds.valid.step delivered taken, ?_, ?_⟩
  · cases event <;>
      grind [DeferSync.step, callerStep, workerStep, setWorker, DeferOutcome.res, SyncCaller.given, SyncCaller.signalled]
  · cases event with
    | caller => grind [DeferSync.step, callerStep, setWorker]
    | worker thread => exact succeeds.prompts taken

theorem sum_setWorker (inside : thread < size) (less : worker.left < (s.workers thread).left) :
    ∑ other ∈ Finset.range size, ((s.setWorker thread worker).workers other).left <
      ∑ other ∈ Finset.range size, (s.workers other).left := by
  apply Finset.sum_lt_sum
  · intro other _
    by_cases same : other = thread
    · rw [same, setWorker_same]
      exact Nat.le_of_lt less
    · rw [setWorker_other same]
  · refine ⟨thread, Finset.mem_range.mpr inside, ?_⟩
    rwa [setWorker_same]

theorem Valid.inside (valid : s.Valid size) (given : s.workers thread ≠ .none) : thread < size :=
  Nat.lt_of_lt_of_le ((valid.given thread).mp given) valid.within

theorem Valid.workerLowers (valid : s.Valid size) (taken : s.workerStep thread = some after) :
    after.rank size < s.rank size := by
  obtain ⟨given, worker, workers, less, kind⟩ := workerStep_cases taken
  have caller : after.caller = s.caller ∨ after.caller = s.caller.signalled := by
    rcases kind with ⟨-, same⟩ | ⟨-, woken⟩ | ⟨-, same, -⟩
    · exact .inl same
    · exact .inr woken
    · exact .inl same
  have sum := sum_setWorker (valid.inside given) less
  have woken : s.caller.signalled.left size ≤ s.caller.left size + 2 := by
    cases s.caller <;> simp [SyncCaller.signalled, SyncCaller.left]
  unfold rank
  rw [workers]
  rcases caller with same | same <;> rw [same] <;> omega

/-- Every step of the caller but a wake-up without a signal leaves less to do. -/
theorem Valid.callerLowers (valid : s.Valid size) (delivered : ∀ thread < size, outcome thread = .delivered)
    (awake : s.caller ≠ .waiting) (taken : s.callerStep size outcome = some after) : after.rank size < s.rank size := by
  have within := valid.within
  unfold rank
  by_cases defers : ∃ thread < size, s.caller = .deferring thread
  · obtain ⟨thread, inside, place⟩ := defers
    have absent : s.workers thread = .none := by grind [valid.given, SyncCaller.given]
    have sum := sum_setWorker inside (show SyncWorker.left .queued < (s.workers thread).left by rw [absent]; decide)
    simp only [DeferSync.callerStep, place, inside, delivered thread inside, if_true, reduceCtorEq, if_false,
      Option.some.injEq] at taken
    subst taken
    simp only [place, SyncCaller.left]
    omega
  · have same : after.workers = s.workers ∧ after.caller.left size < s.caller.left size := by
      cases place : s.caller <;> grind [DeferSync.callerStep, SyncCaller.left, SyncCaller.given, DeferOutcome.res]
    rw [same.1]
    omega

theorem workerStep_some (refers : (s.workers thread).refers = true) (free : s.mutex = none ∨ (s.workers thread).locked = true) :
    ∃ after, s.workerStep thread = some after := by
  unfold workerStep
  cases place : s.workers thread with
  | none | done =>
    rw [place] at refers
    cases refers
  | locking =>
    rw [place] at free
    exact ⟨_, if_pos (free.resolve_right nofun)⟩
  | queued | calling | decrementing | signalling | unlocking => exact ⟨_, rfl⟩

theorem refers_of_locked {worker : SyncWorker} (locked : worker.locked = true) : worker.refers = true := by
  cases worker <;> trivial

/-- Someone who is not the caller has the mutex, and goes on; or nobody has it. -/
theorem Valid.holderMoves (valid : s.Valid size) (unlocked : s.caller.locked = false) :
    s.mutex = none ∨ ∃ thread after, s.workerStep thread = some after := by
  cases held : s.mutex with
  | none => exact .inl rfl
  | some holder =>
    cases holder with
    | caller => cases (valid.caller.mp held).symm.trans unlocked
    | worker thread =>
      have locked := (valid.worker thread).mp held
      exact .inr ⟨thread, workerStep_some (refers_of_locked locked) (.inr locked)⟩

/-- A caller that sleeps has a thread to wait for. -/
theorem Succeeds.sleeperMoves (succeeds : s.Succeeds size) (sleeps : s.caller = .waiting) :
    ∃ thread after, s.workerStep thread = some after := by
  obtain ⟨valid, -, prompted⟩ := succeeds
  rcases valid.holderMoves (by rw [sleeps]; rfl) with free | moves
  · rcases Nat.eq_zero_or_pos s.nthreads with zero | left
    · obtain ⟨thread, signalling⟩ := prompted sleeps zero
      exact ⟨thread, workerStep_some (by rw [signalling]; rfl) (.inl free)⟩
    · rw [valid.count] at left
      obtain ⟨thread, member⟩ := Finset.card_pos.mp left
      obtain ⟨inside, remains⟩ := Finset.mem_filter.mp member
      have given : s.workers thread ≠ .none := by
        rw [valid.given, sleeps]
        exact Finset.mem_range.mp inside
      refine ⟨thread, workerStep_some ?_ (.inl free)⟩
      cases place : s.workers thread <;> grind [SyncWorker.refers, SyncWorker.decremented]
  · exact moves

theorem Succeeds.moves (succeeds : s.Succeeds size) :
    s.caller = .returned .ok ∨ ∃ event after, ¬ Unprompted s event ∧ s.step size outcome event = some after := by
  cases place : s.caller with
  | returned res => exact .inl (succeeds.ok res place ▸ rfl)
  | waiting =>
    obtain ⟨thread, after, taken⟩ := succeeds.sleeperMoves place
    exact .inr ⟨.worker thread, after, nofun, taken⟩
  | locking | woken =>
    rcases succeeds.valid.holderMoves (by rw [place]; rfl) with free | ⟨thread, after, taken⟩
    · exact .inr ⟨.caller, _, by simp [Unprompted, place], by simp only [DeferSync.step, callerStep, place]; exact if_pos free⟩
    · exact .inr ⟨.worker thread, after, nofun, taken⟩
  | deferring | writing | testing | unlocking =>
    have moves : ∃ after, s.callerStep size outcome = some after := by
      simp only [callerStep, place]
      repeat' split
      all_goals exact ⟨_, rfl⟩
    obtain ⟨after, taken⟩ := moves
    exact .inr ⟨.caller, after, by simp [Unprompted, place], taken⟩

theorem delivered_step (before : ∀ thread < s.caller.delivered size, outcome thread = .delivered)
    (taken : s.step size outcome event = some after) : ∀ thread < after.caller.delivered size, outcome thread = .delivered := by
  cases event with
  | caller =>
    have ok (thread : Nat) (ok : (outcome thread).res = .ok) : outcome thread = .delivered := by
      cases result : outcome thread <;> simp [result, DeferOutcome.res] at ok ⊢
    have failed (res : EvthrRes) (failed : res ≠ .ok) : SyncCaller.delivered size (.returned res) = 0 := by
      cases res <;> trivial
    grind [DeferSync.step, callerStep, SyncCaller.delivered]
  | worker thread =>
    obtain ⟨-, _, -, -, kind⟩ := workerStep_cases taken
    have same : s.caller.signalled.delivered size = s.caller.delivered size := by cases s.caller <;> rfl
    rcases kind with ⟨-, caller⟩ | ⟨-, caller⟩ | ⟨-, caller, -⟩ <;> simpa only [caller, same] using before

end DeferSync

namespace DeferCompleted
variable {size : Nat} {outcome reply : Nat → DeferOutcome} {s after : DeferCompleted}

/-- Each thread that ran the callback has posted one completion, unless there was no memory for it. -/
structure Posts (size : Nat) (reply : Nat → DeferOutcome) (s : DeferCompleted) : Prop where
  valid : s.Valid size
  once : s.posted.Nodup
  posted : ∀ thread, thread ∈ s.posted ↔ s.ran thread = 1 ∧ reply thread ≠ .noMemory

theorem Posts.step {event : SyncStep} (posts : s.Posts size reply) (delivered : ∀ thread < size, outcome thread = .delivered)
    (taken : s.step size outcome reply event = some after) : after.Posts size reply := by
  obtain ⟨sync, stepped, rfl⟩ := Option.map_eq_some_iff.mp taken
  refine ⟨posts.valid.step delivered stepped, ?_, ?_⟩
  · cases event with
    | caller => exact posts.once
    | worker thread =>
      dsimp only
      split
      · next calls =>
        have silent : s.ran thread = 0 := by rw [posts.valid.ran, calls.1]; rfl
        have new : thread ∉ s.posted := by simp [posts.posted, silent]
        exact List.nodup_append.mpr ⟨posts.once, List.nodup_singleton _, by grind⟩
      · exact posts.once
  · intro other
    have before := posts.posted other
    have ran := posts.valid.ran other
    cases event with
    | caller => grind [DeferSync.step, DeferSync.callerStep, DeferSync.setWorker]
    | worker thread =>
      have running := posts.valid.ran thread
      grind [DeferSync.step, DeferSync.workerStep, DeferSync.setWorker, SyncWorker.calls]

/-- When `evthr_pool_defer_all_completed` returns `EVTHR_RES_OK`, the completions of all threads are in the queue of the
sender, one for each thread, but for those for which there was no memory. -/
theorem completions_posted (reached : Runs.Reaches (step size outcome reply) (fun _ _ => True) ⟨{ nthreads := size }, []⟩ s)
    (returned : s.caller = .returned .ok) : s.posted.Perm ((List.range size).filter (reply · ≠ .noMemory)) := by
  have delivered : ∀ thread < s.caller.delivered size, outcome thread = .delivered := by
    apply reached.invariant
    · exact nofun
    · intro state after event before _ taken
      obtain ⟨sync, stepped, rfl⟩ := Option.map_eq_some_iff.mp taken
      exact DeferSync.delivered_step before stepped
  rw [returned] at delivered
  have posts : s.Posts size reply := by
    refine reached.invariant ⟨DeferSync.valid_start size, List.nodup_nil, ?_⟩ fun posts _ taken => posts.step delivered taken
    simp
  refine (List.perm_ext_iff_of_nodup posts.once (List.nodup_range.filter _)).mpr fun thread => ?_
  have once := (posts.valid.leavesNothing .ok returned).2 rfl thread
  have ran := posts.valid.ran thread
  rw [posts.posted]
  by_cases inside : thread < size
  · simp [once inside, inside]
  · have absent : s.workers thread = .none := by
      by_contra there
      exact inside (posts.valid.inside there)
    rw [absent] at ran
    simp [ran, inside, SyncWorker.calls]

/-- The second of two threads comes first. -/
theorem completions_posted_two :
    ∃ s : DeferCompleted, s.caller = .returned .ok ∧ s.posted = [1, 0] ∧ s.posted.Perm ((List.range 2).filter fun _ => true) := by
  let events : List SyncStep := List.replicate 5 .caller ++ List.replicate 6 (.worker 1) ++ List.replicate 6 (.worker 0) ++
    List.replicate 3 .caller
  have ran : Runs.run (step 2 (fun _ => .delivered) fun _ => .delivered) (fun _ _ => True) ⟨{ nthreads := 2 }, []⟩ events =
      some _ := rfl
  exact ⟨_, rfl, rfl, completions_posted (Runs.Reaches.of_run ran) rfl⟩

end DeferCompleted

end Evhtp
