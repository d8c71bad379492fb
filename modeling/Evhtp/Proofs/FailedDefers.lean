import Evhtp.Proofs.DeferInvariants

/-! A call of `evthr_defer` that fails. One that fails before the insertion leaves nothing behind. One whose write of
the eventfd fails leaves its command in the queue: the next write that succeeds wakes the target, which runs it. -/

namespace Evhtp
open Runs

/-- How far `mpsc_queue_poll` is from its return. -/
def Poll.rank : Poll → Nat
  | .loadTail => 10
  | .loadNext _ => 9
  | .passStub _ => 8
  | .loadNextPastStub _ => 7
  | .loadHead _ => 6
  | .insertStub _ .clear => 5
  | .insertStub _ .exchange => 4
  | .insertStub _ (.link _) => 3
  | .loadNextAgain _ => 2
  | .loadHeadAtStub | .storeTail _ _ => 1

theorem Poll.rank_step (poll next : Poll) (queue : MpscQueue) (stepped : (poll.step queue).1 = .inl next) :
    next.rank < poll.rank := by
  have passed (tail : QueueNode) (link : Option QueueNode) : (Poll.afterNext tail link).rank ≤ 6 := by
    cases link <;> simp [afterNext, rank]
  cases poll with
  | loadTail =>
    cases stepped
    simp [rank]
  | loadNext tail =>
    simp only [step] at stepped
    split at stepped
    · split at stepped <;> (cases stepped; simp [rank])
    · cases stepped
      exact Nat.lt_of_le_of_lt (passed tail (queue.next tail)) (by simp [rank])
  | loadHeadAtStub => cases stepped
  | passStub next =>
    cases stepped
    simp [rank]
  | loadNextPastStub tail =>
    cases stepped
    exact Nat.lt_succ_of_le (passed tail (queue.next tail))
  | loadHead tail =>
    simp only [step] at stepped
    split at stepped <;> cases stepped
    simp [rank]
  | insertStub tail insert => cases insert <;> (cases stepped; simp [Insert.step, rank])
  | loadNextAgain tail =>
    simp only [step] at stepped
    split at stepped <;> cases stepped
    simp [rank]
  | storeTail tail next => cases stepped

def Target.rank : Target → Nat
  | .polling poll => poll.rank
  | .outside | .running _ => 0

namespace Threads

variable {s after : Threads}

def left (s : Threads) (chain : List QueueNode) : Nat :=
  11 * (s.commands (s.inHand ++ chain)).length + s.target.rank

theorem Ordered.inserted_length {chain chain' : List QueueNode} (ordered : s.Ordered chain)
    (ordered' : after.Ordered chain') (producers : after.producers = s.producers)
    (deferred : after.deferred = s.deferred) : (after.inserted chain').length = (s.inserted chain).length := by
  have entered (producer : Nat) : after.entered producer = s.entered producer := by
    unfold entered
    rw [producers, deferred]
  apply List.Perm.length_eq
  apply List.perm_iff_count.mpr
  intro command
  rw [← List.count_filter (p := fun other => other.producer = command.producer) (by simp), ordered'.order, entered,
    ← ordered.order, List.count_filter (by simp)]

theorem Ordered.left_lt {chain chain' : List QueueNode} (ordered : s.Ordered chain) (ordered' : after.Ordered chain')
    (producers : after.producers = s.producers) (deferred : after.deferred = s.deferred)
    (less : 11 * s.executed.length + after.target.rank < 11 * after.executed.length + s.target.rank) :
    after.left chain' < s.left chain := by
  have same := ordered.inserted_length ordered' producers deferred
  unfold inserted at same
  simp only [List.length_append] at same
  unfold left
  omega

theorem rank_poll {poll : Poll} (there : s.target = .polling poll) : (s.poll poll).target.rank < s.target.rank := by
  have positive : 0 < poll.rank := by
    unfold Poll.rank
    split <;> decide
  unfold Threads.poll
  rw [there]
  simp only
  split
  next next stepped => exact poll.rank_step next s.queue stepped
  next => exact positive
  next => exact positive
  next => exact positive

end Threads

namespace DeferPool

variable {s after : DeferPool} {event : DeferStep} {thread caller : Nat} {call : DeferCall}

def Unused (s : DeferPool) (thread : Nat) : Prop := ∀ caller call, s.callers caller ≠ some (call, .sending thread)

/-- The caller can go on until it returns, with a write of the eventfd that succeeds. -/
def Finishes (s : DeferPool) (caller thread : Nat) : Prop :=
  ∃ after, Runs.Reaches DeferPool.step Anything s after ∧ after.callers caller = none ∧
    (∀ other, other ≠ caller → after.callers other = s.callers other) ∧ 0 < (after.threads thread).eventfd

theorem finishes_waking (there : s.callers caller = some (call, .sending thread))
    (waking : (s.threads thread).producers caller = .waking) : s.Finishes caller thread := by
  have stepped : s.step (.write caller .whole) = some (s.write caller thread call .whole) := by
    simp [step, there, waking]
  refine ⟨s.write caller thread call .whole, .step .start trivial stepped, setCaller_same _ _ _, ?_, ?_⟩
  · exact fun other different => setCaller_other _ _ different
  · simp [DeferPool.write, leave, setCaller, Threads.wake]

theorem finishes_insert {address : Nat} {insert : Insert} (there : s.callers caller = some (call, .sending thread))
    (inserting : (s.threads thread).producers caller = .inserting address insert)
    (later : (s.setThread thread ((s.threads thread).insert caller address insert)).Finishes caller thread) :
    s.Finishes caller thread := by
  have stepped : s.step (.insert caller) =
      some (s.setThread thread ((s.threads thread).insert caller address insert)) := by
    simp [step, there, inserting]
  obtain ⟨after, reached, rest⟩ := later
  exact ⟨after, (Runs.Reaches.step .start trivial stepped).trans reached, rest⟩

theorem Sends.finishes (sends : s.Sends) (there : s.callers caller = some (call, .sending thread)) :
    s.Finishes caller thread := by
  have next {s : DeferPool} {address : Nat} (insert : Insert) : ((s.setThread thread
      ((s.threads thread).insert caller address insert)).threads thread).producers caller =
        (insert.step (.cmd address) (s.threads thread).queue).1.elim .waking (.inserting address) := by
    rw [setThread_same]
    refine (Threads.setProducer_same _ _ _).trans ?_
    cases (insert.step (.cmd address) (s.threads thread).queue).1 <;> rfl
  have linking {s : DeferPool} {address : Nat} {prev : QueueNode} (there : s.callers caller = some (call, .sending thread))
      (inserting : (s.threads thread).producers caller = .inserting address (.link prev)) : s.Finishes caller thread :=
    finishes_insert there inserting (finishes_waking there (next _))
  have exchanging {s : DeferPool} {address : Nat} (there : s.callers caller = some (call, .sending thread))
      (inserting : (s.threads thread).producers caller = .inserting address .exchange) : s.Finishes caller thread :=
    finishes_insert there inserting (linking there (next _))
  cases was : (s.threads thread).producers caller with
  | outside => exact absurd was (sends.sending there).1
  | waking => exact finishes_waking there was
  | inserting address insert =>
    cases insert with
    | clear => exact finishes_insert there was (exchanging there (next _))
    | exchange => exact exchanging there was
    | link prev => exact linking there was

theorem Sound.returns (sound : s.Sound) (thread : Nat) :
    ∃ after, Runs.Reaches DeferPool.step Anything s after ∧ after.Unused thread := by
  have first (count : Nat) : ∃ after, Runs.Reaches DeferPool.step Anything s after ∧
      (∀ caller < count, ∀ call, after.callers caller ≠ some (call, .sending thread)) ∧
      ∀ caller, count ≤ caller → after.callers caller = s.callers caller := by
    induction count with
    | zero => exact ⟨s, .start, nofun, fun _ _ => rfl⟩
    | succ count ih =>
      obtain ⟨middle, reached, done, others⟩ := ih
      by_cases inside : ∃ call, middle.callers count = some (call, .sending thread)
      · obtain ⟨call, there⟩ := inside
        obtain ⟨after, reached', returned, same, _⟩ := (sound.later reached).sends.finishes there
        refine ⟨after, reached.trans reached', ?_, ?_⟩
        · intro caller below call inside
          rcases Nat.lt_succ_iff_lt_or_eq.mp below with before | rfl
          · exact done caller before call (same caller (Nat.ne_of_lt before) ▸ inside)
          · cases returned.symm.trans inside
        · intro caller above
          rw [same caller (by omega)]
          exact others caller (by omega)
      · refine ⟨middle, reached, ?_, fun caller above => others caller (by omega)⟩
        intro caller below call there
        rcases Nat.lt_succ_iff_lt_or_eq.mp below with before | rfl
        · exact done caller before call there
        · exact inside ⟨call, there⟩
  obtain ⟨bound, bounded⟩ := sound.bounded
  obtain ⟨after, reached, done, others⟩ := first bound
  refine ⟨after, reached, fun caller call there => ?_⟩
  by_cases below : caller < bound
  · exact done caller below call there
  · have idle := (others caller (by omega)).trans (bounded.callers caller (by omega))
    cases idle.symm.trans there

theorem Sound.wakes (sound : s.Sound) (unused : s.Unused thread) :
    ∃ after, Runs.Reaches DeferPool.step Anything s after ∧ after.Unused thread ∧ 0 < (after.threads thread).eventfd := by
  obtain ⟨bound, bounded⟩ := sound.bounded
  have idle := bounded.callers bound (Nat.le_refl _)
  have outside : (s.threads thread).producers bound = .outside := by
    by_contra busy
    obtain ⟨call, there⟩ := sound.sends.inside busy
    exact unused bound call there
  have called : s.step (.defer bound (some thread) (some 0) 0) = some (s.enter bound 0 0 (.take thread)) := by
    simp [step, idle, defer]
  have given : (s.enter bound 0 0 (.take thread)).step (.take bound none (some bound)) =
      some ((s.enter bound 0 0 (.take thread)).store bound thread bound ⟨s.calls, 0, 0⟩
        ((s.threads thread).take bound bound)) := by
    have there : (s.enter bound 0 0 (.take thread)).callers bound = some (⟨s.calls, 0, 0⟩, .take thread) :=
      setCaller_same _ _ _
    have free : (s.enter bound 0 0 (.take thread)).busy bound = false := bounded.busy bound (Nat.le_refl _)
    have stepped : ((s.enter bound 0 0 (.take thread)).threads thread).step (.defer bound bound) =
        some ((s.threads thread).take bound bound) := if_pos ⟨outside, bounded.threads thread bound (Nat.le_refl _)⟩
    simp only [step, there, take, Option.none_or, free, stepped, Option.map_some, if_true]
  have reached : Runs.Reaches DeferPool.step Anything s _ := .step (.step .start trivial called) trivial given
  obtain ⟨after, reached', returned, same, woken⟩ := (sound.later reached).sends.finishes (setCaller_same _ _ _)
  refine ⟨after, reached.trans reached', ?_, woken⟩
  intro caller call inside
  by_cases own : caller = bound
  · subst own
    cases returned.symm.trans inside
  · rw [same caller own] at inside
    rcases setCaller_cases inside with ⟨now, _⟩ | ⟨_, before⟩
    · exact own now
    · rcases setCaller_cases before with ⟨now, _⟩ | ⟨_, before⟩
      · exact own now
      · exact unused caller call before

/-- The target of a thread is left alone from some state on. -/
structure Alone (start : DeferPool) (thread : Nat) (before : Threads) (s : DeferPool)
    (now : Threads × List QueueNode) : Prop where
  shadowed : s.Shadowed thread now.1
  valid : now.1.Valid now.2
  eventfd : now.1.eventfd = before.eventfd
  unread : (s.threads thread).eventfd = (start.threads thread).eventfd
  callers : s.callers = start.callers

theorem Alone.step {start : DeferPool} {before full full' : Threads} {chain : List QueueNode} {own : ThreadStep}
    (alone : Alone start thread before s (full, chain)) (stepped : full.step own = some full')
    (shadows : (after.threads thread).Shadows full') (producers : full'.producers = full.producers)
    (deferred : full'.deferred = full.deferred) (eventfd : full'.eventfd = full.eventfd)
    (unread : (after.threads thread).eventfd = (s.threads thread).eventfd) (callers : after.callers = s.callers)
    (less : 11 * full.executed.length + full'.target.rank < 11 * full'.executed.length + full.target.rank) :
    ∃ next, Alone start thread before after next ∧ next.1.left next.2 < full.left chain := by
  obtain ⟨chain', valid⟩ := alone.valid.step stepped
  refine ⟨(full', chain'), ⟨⟨.step alone.shadowed.1 trivial stepped, shadows⟩, valid, ?_, ?_, ?_⟩, ?_⟩
  · exact eventfd.trans alone.eventfd
  · exact unread.trans alone.unread
  · exact callers.trans alone.callers
  · exact alone.valid.ordered.left_lt valid.ordered producers deferred less

theorem Shadowed.rests {start : DeferPool} {before : Threads} (shadowed : start.Shadowed thread before) :
    ∃ after last, Runs.Reaches DeferPool.step Anything start after ∧ Alone start thread before after last ∧
      last.1.target = .outside := by
  obtain ⟨chain, valid⟩ := Threads.Valid.reached shadowed.1
  have initially : Alone start thread before start (before, chain) := ⟨shadowed, valid, rfl, rfl, rfl⟩
  apply Runs.Reaches.exists_of_rank (fun now => now.1.left now.2) _ initially
  rintro s ⟨full, chain⟩ alone
  obtain ⟨eventfd, fewer, state⟩ := alone.shadowed.2
  cases there : full.target with
  | outside => exact .inl rfl
  | polling poll =>
    have there' : (s.threads thread).target = .polling poll := by rw [state, there]
    have taken : s.step (.poll thread) = some (s.setThread thread ((s.threads thread).poll poll)) := by
      simp only [DeferPool.step, Threads.step_polling there', Option.map_some]
    have less : ∃ next, Alone start thread before (s.setThread thread ((s.threads thread).poll poll)) next ∧
        next.1.left next.2 < full.left chain := by
      refine alone.step (Threads.step_polling there) ?_ rfl rfl rfl ?_ rfl ?_
      · rw [setThread_same, state]
        exact ⟨eventfd, fewer, rfl⟩
      · rw [setThread_same]
        rfl
      · exact Nat.add_lt_add_left (Threads.rank_poll there) _
    obtain ⟨next, alone, less⟩ := less
    exact .inr ⟨_, _, next, trivial, taken, alone, less⟩
  | running node =>
    obtain ⟨address, rfl, _⟩ := alone.valid.owned.ran there
    have there' : (s.threads thread).target = .running (.cmd address) := by rw [state, there]
    have taken : s.step (.run thread) = some { s.setThread thread ((s.threads thread).runCallback address) with
        busy := fun other => if other = address then false else s.busy other } := by
      simp only [DeferPool.step, DeferPool.run, there']
    have less : ∃ next, Alone start thread before { s.setThread thread ((s.threads thread).runCallback address) with
        busy := fun other => if other = address then false else s.busy other } next ∧
        next.1.left next.2 < full.left chain := by
      refine alone.step (Threads.step_running there) ?_ rfl rfl rfl ?_ rfl ?_
      · change ((s.setThread thread _).threads thread).Shadows _
        rw [setThread_same, state]
        exact ⟨eventfd, fewer, rfl⟩
      · change ((s.setThread thread _).threads thread).eventfd = _
        rw [setThread_same]
        rfl
      · have executed : (full.runCallback address).executed.length = full.executed.length + 1 := by
          simp [Threads.runCallback]
        have rank : (full.runCallback address).target.rank = 10 := rfl
        omega
    obtain ⟨next, alone, less⟩ := less
    exact .inr ⟨_, _, next, trivial, taken, alone, less⟩

/-- Whatever has happened, the threads can go on in such a way that a thread runs all it was given. -/
theorem Sound.completes (sound : s.Sound) (thread : Nat) : ∃ after, Runs.Reaches DeferPool.step Anything s after ∧
    ∀ {caller call}, after.Given thread caller call → call ∈ after.invoked thread := by
  obtain ⟨returned, toReturned, unused⟩ := sound.returns thread
  obtain ⟨woken, toWoken, unused, unread⟩ := (sound.later toReturned).wakes unused
  obtain ⟨full, shadowed⟩ := (sound.later (toReturned.trans toWoken)).shadowed thread
  obtain ⟨free, ⟨full', chain⟩, toFree, alone, resting⟩ := shadowed.rests
  -- the target reads the eventfd, and so does the shadow
  obtain ⟨eventfd, fewer, state⟩ := alone.shadowed.2
  have pending : (free.threads thread).target = .outside ∧ (free.threads thread).eventfd ≠ 0 := by
    rw [alone.unread]
    exact ⟨by rw [state]; exact resting, Nat.ne_of_gt unread⟩
  have read : free.step (.readCmd thread) = some (free.setThread thread (free.threads thread).readCmd) := by
    simp only [DeferPool.step, Threads.step, if_pos pending, Option.map_some]
  have shadowed : (free.setThread thread (free.threads thread).readCmd).Shadowed thread full'.readCmd := by
    have unread' : full'.target = .outside ∧ full'.eventfd ≠ 0 := by
      rw [state] at pending
      exact ⟨resting, Nat.ne_of_gt (Nat.lt_of_lt_of_le (Nat.pos_of_ne_zero pending.2) fewer)⟩
    have stepped : full'.step .readCmd = some full'.readCmd := if_pos unread'
    refine ⟨.step alone.shadowed.1 trivial stepped, ?_⟩
    rw [setThread_same, state]
    exact ⟨0, Nat.le_refl 0, rfl⟩
  obtain ⟨last, ⟨quiet, chain'⟩, toLast, done, resting'⟩ := shadowed.rests
  have reached := ((toReturned.trans toWoken).trans toFree).trans ((Runs.Reaches.step .start trivial read).trans toLast)
  refine ⟨last, reached, ?_⟩
  obtain ⟨_, _, now⟩ := done.shadowed.2
  have outside (caller : Nat) : quiet.producers caller = .outside := by
    by_contra busy
    have busy' : (last.threads thread).producers caller ≠ .outside := by
      rw [now]
      exact busy
    obtain ⟨call, there⟩ := (sound.later reached).sends.inside busy'
    rw [done.callers] at there
    exact unused caller call (alone.callers ▸ there)
  rintro caller call ⟨number, below, filled⟩
  have executed : ⟨caller, number⟩ ∈ quiet.executed := by
    apply (Threads.executed_iff (done.valid.rested outside done.eventfd resting' caller)).mpr
    rw [now] at below
    exact below
  apply List.mem_filterMap.mpr
  refine ⟨⟨caller, number⟩, ?_, filled⟩
  rw [now]
  exact executed

theorem Given.later (given : s.Given thread caller call) (reached : Runs.Reaches DeferPool.step Anything s after) :
    after.Given thread caller call := by
  apply reached.invariant given
  rintro before after event given - taken
  exact given.step (step_cases taken)

/-- Nothing is left of a call that fails elsewhere than at the write. -/
theorem Numbered.returned {number : Nat} {res : EvthrResult} (numbered : s.Numbered) (steps : s.StepTo event after)
    (returns : after.returned = s.returned ++ [(number, res)]) (failed : res ≠ .ok)
    (written : event.failsWrite = false) : after.Gone number := by
  have unreturned {entry : Nat × EvthrResult} : s.returned ≠ s.returned ++ [entry] := by simp
  cases steps with
  | enter => exact absurd returns unreturned
  | refuse =>
    cases List.append_cancel_left returns
    refine ⟨Nat.lt_succ_self _, fun there => Nat.ne_of_lt (numbered.issued there), ?_⟩
    exact fun filled => Nat.ne_of_lt (numbered.filled filled)
  | move => exact absurd returns unreturned
  | fail there =>
    cases List.append_cancel_left returns
    refine ⟨numbered.issued there, ?_, fun filled => numbered.unfilled there rfl filled⟩
    intro other call' place now
    rcases setCaller_cases now with ⟨_, none⟩ | ⟨different, before⟩
    · cases none
    · exact fun same => different (numbered.apart before there same)
  | store | insert => exact absurd returns unreturned
  | @write _ _ _ outcome =>
    cases List.append_cancel_left returns
    cases outcome with
    | whole => exact absurd rfl failed
    | failed again => cases written
  | work => exact absurd returns unreturned

end DeferPool

open DeferPool in
/-- That the callback of a call that fails is never run is the case exactly if it does not fail at the write: the
command is in the queue of its target then, and whatever has happened, the threads can go on in such a way that it is
run. -/
theorem failed_defer_silent {nthreads number : Nat} {s after : DeferPool} {event : DeferStep} {res : EvthrResult}
    (reached : Runs.Reaches DeferPool.step Anything { nthreads } s) (taken : s.step event = some after)
    (returns : after.returned = s.returned ++ [(number, res)]) :
    (res ≠ .ok → ∀ later, Runs.Reaches DeferPool.step Anything after later →
      ∀ thread, ∀ call ∈ later.invoked thread, call.number ≠ number) ↔ event.failsWrite = false := by
  have sound := (Sound.start nthreads).later reached
  have steps := step_cases taken
  constructor
  · intro silent
    by_contra fails
    cases event with
    | write caller written =>
      cases written with
      | whole => exact fails rfl
      | failed again =>
        cases steps with
        | write there waking =>
          have given := (sound.sends.sending there).2.step (step_cases taken)
          obtain ⟨later, onwards, runs⟩ := (sound.later (.step .start trivial taken)).completes _
          cases List.append_cancel_left returns
          refine silent ?_ later onwards _ _ (runs (given.later onwards)) rfl
          cases again <;> nofun
        | enter unwritten => exact fails unwritten
        | refuse unwritten => exact fails unwritten
        | work unwritten => exact fails unwritten
    | _ => exact fails rfl
  · intro written failed later onwards thread call invoked
    have gone : later.Gone number := by
      apply onwards.invariant (sound.numbered.returned steps returns failed written)
      rintro _ _ _ gone - taken
      exact gone.step (step_cases taken)
    obtain ⟨command, _, filled⟩ := List.mem_filterMap.mp invoked
    exact gone.unstored filled

def afterCall : Option DeferPool :=
  Runs.run DeferPool.step (fun _ _ => True) { nthreads := 1 } [.poolDefer 3 true (some 5) 6]

/-- `calloc` fails in this call. -/
theorem failed_defer_silent_unallocated : ∃ after, afterCall.bind (·.step (.take 3 none none)) = some after ∧
    after.returned = [(0, .fatal)] ∧ ∀ later, Runs.Reaches DeferPool.step Anything after later →
      ∀ thread, ∀ call ∈ later.invoked thread, call.number ≠ 0 := by
  have ran : (afterCall.bind (·.step (.take 3 none none))).isSome := by decide +kernel
  obtain ⟨after, taken⟩ := Option.isSome_iff_exists.mp ran
  obtain ⟨s, called, failed⟩ := Option.bind_eq_some_iff.mp taken
  have before : afterCall.map (·.returned) = some [] := by decide +kernel
  have returned : (afterCall.bind (·.step (.take 3 none none))).map (·.returned) = some [(0, .fatal)] := by decide +kernel
  rw [called, Option.map_some, Option.some.injEq] at before
  rw [taken, Option.map_some, Option.some.injEq] at returned
  have returns : after.returned = s.returned ++ [(0, .fatal)] := by
    rw [before]
    exact returned
  have reached := Runs.Reaches.start.run (fun _ _ _ => trivial) called
  exact ⟨after, taken, returned, (failed_defer_silent reached failed returns).mpr rfl nofun⟩

def afterUnwritten : Option DeferPool :=
  Runs.run DeferPool.step (fun _ _ => True) { nthreads := 1 } [.poolDefer 1 true (some 5) 6, .take 1 none (some 10),
    .insert 1, .insert 1, .insert 1, .write 1 (.failed true)]

/-- Thread 2 defers another one, and the thread of the pool runs the first command that it finds. -/
def nextDefer : List DeferStep :=
  [.poolDefer 2 true (some 7) 8, .take 2 none (some 11), .insert 2, .insert 2, .insert 2, .write 2 .whole,
    .readCmd 0, .poll 0, .poll 0, .poll 0, .poll 0, .poll 0, .run 0]

def afterNext : Option DeferPool := afterUnwritten.bind (Runs.run DeferPool.step (fun _ _ => True) · nextDefer)

/-- The call returns `EVTHR_RES_RETRY`, and its callback is run with its argument after the next call. -/
theorem failed_defer_runs : ∃ s later, Runs.Reaches DeferPool.step Anything { nthreads := 1 } s ∧
    s.returned = [(0, .retry)] ∧ s.invoked 0 = [] ∧ Runs.Reaches DeferPool.step Anything s later ∧
    later.returned = [(0, .retry), (1, .ok)] ∧ later.invoked 0 = [⟨0, 5, 6⟩] := by
  have ran : afterNext.isSome := by decide +kernel
  obtain ⟨later, taken⟩ := Option.isSome_iff_exists.mp ran
  obtain ⟨s, first, second⟩ := Option.bind_eq_some_iff.mp taken
  have seen : afterUnwritten.map (fun s => (s.returned, s.invoked 0)) = some ([(0, .retry)], []) := by decide +kernel
  have seen' : afterNext.map (fun s => (s.returned, s.invoked 0)) =
      some ([(0, .retry), (1, .ok)], [⟨0, 5, 6⟩]) := by decide +kernel
  rw [first] at seen
  rw [taken] at seen'
  simp only [Option.map_some, Option.some.injEq, Prod.mk.injEq] at seen seen'
  refine ⟨s, later, ?_, seen.1, seen.2, ?_, seen'⟩
  · exact Runs.Reaches.start.run (fun _ _ _ => trivial) first
  · exact Runs.Reaches.start.run (fun _ _ _ => trivial) second

end Evhtp
