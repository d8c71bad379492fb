import Evhtp.Proofs.DeferInvariants

/-! Which of its two candidates `evthr_pool_defer` chooses. The counters it compares are never decremented, so they are
the numbers of commands that the pool has given to the threads since it was made, and not their backlogs. -/

namespace Evhtp

/-- A pool with a record of its calls, which is not part of the source: `chosen` are the numbers of the calls of
`evthr_pool_defer` that have counted a thread, with this thread, and `failed` are the calls that got no command. -/
structure LoadedPool where
  pool : DeferPool
  chosen : List (Nat × Nat) := []
  failed : List Nat := []

namespace LoadedPool

def start (nthreads : Nat) : LoadedPool := { pool := { nthreads } }

def counted (s : LoadedPool) : DeferStep → List (Nat × Nat)
  | .choose caller =>
    match s.pool.callers caller with
    | some (call, .count thread) => [(call.number, thread)]
    | _ => []
  | _ => []

def unserved (s : LoadedPool) : DeferStep → List Nat
  | .take caller none none => (s.pool.callers caller).toList.map fun at_ => at_.1.number
  | _ => []

def step (s : LoadedPool) (event : DeferStep) : Option LoadedPool :=
  (s.pool.step event).map fun pool =>
    { pool, chosen := s.chosen ++ s.counted event, failed := s.failed ++ s.unserved event }

/-- The commands that were deferred to a thread through the pool and that it has not run yet. -/
def outstanding (s : LoadedPool) (thread : Nat) : Nat :=
  s.chosen.countP fun entry => entry.2 == thread && entry.1 ∉ s.failed && entry.1 ∉ (s.pool.invoked thread).map DeferCall.number

/-- The commands of the pool that a thread has run, and the calls for it that got no command. -/
def finished (s : LoadedPool) (thread : Nat) : Nat :=
  s.chosen.countP fun entry =>
    entry.2 == thread && (entry.1 ∈ s.failed || entry.1 ∈ (s.pool.invoked thread).map DeferCall.number)

/-- Of the candidates `i` and `j`, the one that was chosen has no more outstanding commands than the other. -/
def Prefers (s : LoadedPool) (i j chosen : Nat) : Prop :=
  (chosen = i ∧ s.outstanding i ≤ s.outstanding j) ∨ (chosen = j ∧ s.outstanding j ≤ s.outstanding i)

end LoadedPool

def givenTo (chosen : List (Nat × Nat)) (thread : Nat) : Nat := chosen.countP (·.2 == thread)

/-- Of two candidates, the one that was given fewer commands is behind in finished ones by no more than in given ones.
`earlier` are the calls that were counted when the call read how many its first candidate was given. -/
def LoadedPool.KeepsUp (s : LoadedPool) (earlier : List (Nat × Nat)) (i j : Nat) : Prop :=
  if givenTo earlier i % 2 ^ 64 ≤ givenTo s.chosen j % 2 ^ 64
  then s.finished j + givenTo s.chosen i ≤ s.finished i + givenTo s.chosen j
  else s.finished i + givenTo s.chosen j ≤ s.finished j + givenTo s.chosen i

/-- The counter of the first candidate, as a call has read it or is about to read it. -/
def DeferPool.firstBacklog (s : DeferPool) : Deferring → Nat
  | .loadFirst i _ => s.tails i
  | .loadSecond _ _ backlog => backlog
  | .ticket | .count _ | .take _ | .sending _ => 0

theorem getSecondIndex_apart {i n : Nat} (several : 2 ≤ n) (inside : i < n) :
    i ≠ getSecondIndex i n ∧ getSecondIndex i n < n := by
  have half : ¬ n / 2 = 0 := by omega
  have within : getSecondIndex i n < n := by
    unfold getSecondIndex
    rw [if_neg (by omega)]
    exact Nat.mod_lt _ (by omega)
  refine ⟨fun same => ?_, within⟩
  unfold getSecondIndex at same
  rw [if_neg (by omega)] at same
  simp only [if_neg half] at same
  by_cases past : i + n / 2 < n
  · rw [Nat.mod_eq_of_lt past] at same
    omega
  · rw [Nat.mod_eq_sub_mod (by omega), Nat.mod_eq_of_lt (by omega)] at same
    omega

/-- Only the choice of a thread changes the counters, and nothing else brings a call to its candidates. -/
theorem DeferPool.StepTo.unchosen {s after : DeferPool} {event : DeferStep} (steps : s.StepTo event after)
    (other : ∀ caller, event ≠ .choose caller) :
    after.nthreads = s.nthreads ∧ after.tails = s.tails ∧ ∀ {caller call place}, place.candidates ≠ none →
      after.callers caller = some (call, place) → s.callers caller = some (call, place) := by
  have elsewhere {s : DeferPool} {caller : Nat} {next : Option (DeferCall × Deferring)}
      (none : ∀ call place, next = some (call, place) → place.candidates = none) {other : Nat} {call : DeferCall}
      {place : Deferring} (between : place.candidates ≠ Option.none)
      (there : (s.setCaller caller next).callers other = some (call, place)) : s.callers other = some (call, place) := by
    rcases setCaller_cases there with ⟨-, here⟩ | ⟨-, there⟩
    · exact absurd (none call place here) between
    · exact there
  cases steps with
  | enter _ _ _ none =>
    refine ⟨rfl, rfl, elsewhere ?_⟩
    rintro _ _ ⟨⟩
    exact none
  | refuse => exact ⟨rfl, rfl, fun _ there => there⟩
  | move => exact absurd rfl (other _)
  | fail => exact ⟨rfl, rfl, elsewhere (by simp)⟩
  | store =>
    refine ⟨rfl, rfl, elsewhere (s := s.setThread _ _) ?_⟩
    rintro _ _ ⟨⟩
    rfl
  | insert => exact ⟨rfl, rfl, fun _ there => there⟩
  | write => exact ⟨rfl, rfl, elsewhere (s := s.setThread _ _) (by simp)⟩
  | work => exact ⟨rfl, rfl, fun _ there => there⟩

namespace LoadedPool

/-- What the counters count, and what a call knows of its candidates. -/
structure Measured (n : Nat) (s : LoadedPool) : Prop where
  nthreads : s.pool.nthreads = n
  totals : ∀ thread, s.pool.tails thread = givenTo s.chosen thread % 2 ^ 64
  apart : ∀ {caller call place i j}, s.pool.callers caller = some (call, place) → place.candidates = some (i, j) →
    i ≠ j ∧ i < n ∧ j < n
  read : ∀ {caller call i j first}, s.pool.callers caller = some (call, .loadSecond i j first) →
    first ≠ 0 ∧ ∃ front, front <+: s.chosen ∧ first = givenTo front i % 2 ^ 64

variable {n caller : Nat} {s after : LoadedPool} {event : DeferStep} {call : DeferCall}

theorem measured_start (n : Nat) : (start n).Measured n :=
  ⟨rfl, fun _ => rfl, by simp [start], by simp [start]⟩

theorem givenTo_append (chosen more : List (Nat × Nat)) (thread : Nat) :
    givenTo (chosen ++ more) thread = givenTo chosen thread + givenTo more thread := List.countP_append

/-- A call goes on: what is new about it has to be shown, and the others are where they were. -/
theorem Measured.move (measured : s.Measured n) {next : Deferring} {nextChoice : Nat} {tails : Nat → Nat}
    {more : List (Nat × Nat)} (totals : ∀ thread, tails thread = givenTo (s.chosen ++ more) thread % 2 ^ 64)
    (apart : ∀ {i j}, next.candidates = some (i, j) → i ≠ j ∧ i < n ∧ j < n)
    (read : ∀ {i j first}, next = .loadSecond i j first → first ≠ 0 ∧ first = givenTo s.chosen i % 2 ^ 64) :
    Measured n { s with
      pool := { s.pool.setCaller caller (some (call, next)) with nextChoice, tails }, chosen := s.chosen ++ more } := by
  refine ⟨measured.nthreads, totals, fun there between => ?_, fun there => ?_⟩
  · rcases DeferPool.setCaller_cases there with ⟨-, here⟩ | ⟨-, there⟩
    · cases here
      exact apart between
    · exact measured.apart there between
  · rcases DeferPool.setCaller_cases there with ⟨-, here⟩ | ⟨-, there⟩
    · cases here
      obtain ⟨some, same⟩ := read rfl
      exact ⟨some, s.chosen, List.prefix_append .., same⟩
    · obtain ⟨some, front, past, same⟩ := measured.read there
      exact ⟨some, front, past.trans (List.prefix_append ..), same⟩

theorem Measured.choose (measured : s.Measured n) (several : 2 ≤ n) (taken : s.step (.choose caller) = some after) :
    after.Measured n := by
  obtain ⟨pool, stepped, rfl⟩ := Option.map_eq_some_iff.mp taken
  obtain ⟨⟨call, place⟩, there, chosen⟩ := Option.bind_eq_some_iff.mp stepped
  have same (thread : Nat) : s.pool.tails thread = givenTo (s.chosen ++ []) thread % 2 ^ 64 := by
    rw [List.append_nil]
    exact measured.totals thread
  rw [show s.unserved (.choose caller) = [] from rfl, List.append_nil]
  simp only [counted, there]
  cases place with
  | ticket =>
    cases chosen
    refine measured.move same ?_ (by simp)
    rintro i j ⟨⟩
    rw [measured.nthreads]
    have inside : s.pool.nextChoice % n < n := Nat.mod_lt _ (by omega)
    obtain ⟨apart, within⟩ := getSecondIndex_apart several inside
    exact ⟨apart, inside, within⟩
  | loadFirst i j =>
    cases chosen
    have apart := measured.apart there rfl
    by_cases none : s.pool.tails i = 0
    · simp only [none, if_true]
      exact measured.move same (by simp [Deferring.candidates]) (by simp)
    · simp only [none, if_false]
      refine measured.move same ?_ ?_
      · rintro _ _ ⟨⟩
        exact apart
      · rintro _ _ _ ⟨⟩
        exact ⟨none, measured.totals i⟩
  | loadSecond i j first =>
    cases chosen
    exact measured.move same (by simp [Deferring.candidates]) (by simp)
  | count thread =>
    cases chosen
    refine measured.move (fun other => ?_) (by simp [Deferring.candidates]) (by simp)
    rw [givenTo_append]
    split
    next here =>
      rw [measured.totals, here]
      simp [givenTo]
    next different =>
      rw [measured.totals]
      simp [givenTo, Ne.symm different]
  | take thread => cases chosen
  | sending thread => cases chosen

theorem Measured.step (measured : s.Measured n) (several : 2 ≤ n) (taken : s.step event = some after) :
    after.Measured n := by
  by_cases choosing : ∃ caller, event = .choose caller
  · obtain ⟨caller, rfl⟩ := choosing
    exact measured.choose several taken
  · have other (caller : Nat) : event ≠ .choose caller := fun same => choosing ⟨caller, same⟩
    have counts : s.counted event = [] := by
      cases event with
      | choose caller => exact absurd rfl (other caller)
      | _ => rfl
    obtain ⟨pool, stepped, rfl⟩ := Option.map_eq_some_iff.mp taken
    obtain ⟨nthreads, tails, callers⟩ := (DeferPool.step_cases stepped).unchosen other
    rw [counts, List.append_nil]
    refine ⟨nthreads.trans measured.nthreads, fun thread => ?_, fun there between => ?_, fun there => ?_⟩
    · exact (congrFun tails thread).trans (measured.totals thread)
    · exact measured.apart (callers (by simp [between]) there) between
    · exact measured.read (callers (by simp [Deferring.candidates]) there)

/-- What a call chooses when it has read the counters. -/
theorem Measured.choice (measured : s.Measured n) {place : Deferring} {i j chosen : Nat}
    (there : s.pool.callers caller = some (call, place)) (between : place.candidates = some (i, j))
    (taken : s.step (.choose caller) = some after) (decided : after.pool.callers caller = some (call, .count chosen)) :
    chosen = if s.pool.firstBacklog place ≤ s.pool.tails j then i else j := by
  obtain ⟨pool, stepped, rfl⟩ := Option.map_eq_some_iff.mp taken
  simp only [DeferPool.step, there, Option.bind_some] at stepped
  cases place with
  | loadFirst i j =>
    cases between
    cases stepped
    simp only [DeferPool.setCaller_same, Option.some.injEq, Prod.mk.injEq, true_and] at decided
    split at decided
    next none =>
      cases decided
      simp [DeferPool.firstBacklog, none]
    next => cases decided
  | loadSecond i j first =>
    cases between
    cases stepped
    simp only [DeferPool.setCaller_same, Option.some.injEq, Prod.mk.injEq, true_and, Deferring.count.injEq] at decided
    have some := (measured.read there).1
    rw [← decided, DeferPool.firstBacklog]
    split
    next none => rw [none, if_neg (by omega)]
    next => rfl
  | ticket | count | take | sending => cases between

end LoadedPool

open LoadedPool

theorem LoadedPool.outstanding_add_finished (s : LoadedPool) (thread : Nat) :
    s.outstanding thread + s.finished thread = givenTo s.chosen thread := by
  unfold outstanding finished givenTo
  induction s.chosen with
  | nil => rfl
  | cons entry chosen ih =>
    simp only [List.countP_cons]
    grind

/-- The candidates of a call are two threads of the pool. The call compares how many commands they were given since the
pool was made, and prefers the less loaded one if and only if the one that was given fewer has kept up with the other. -/
theorem pool_defer_prefers {n : Nat} (several : 2 ≤ n) {s : LoadedPool}
    (reached : Runs.Reaches LoadedPool.step Anything (LoadedPool.start n) s) {caller : Nat} {call : DeferCall} {place : Deferring}
    {i j : Nat} (there : s.pool.callers caller = some (call, place)) (between : place.candidates = some (i, j)) :
    (i ≠ j ∧ i < n ∧ j < n) ∧ (∀ thread, s.pool.tails thread = givenTo s.chosen thread % 2 ^ 64) ∧
      ∃ earlier, earlier <+: s.chosen ∧ s.pool.firstBacklog place = givenTo earlier i % 2 ^ 64 ∧
        ∀ {after chosen}, s.step (.choose caller) = some after → after.pool.callers caller = some (call, .count chosen) →
          (s.Prefers i j chosen ↔ s.KeepsUp earlier i j) := by
  have measured : s.Measured n :=
    reached.invariant (measured_start n) fun measured _ taken => measured.step several taken
  have apart := measured.apart there between
  obtain ⟨earlier, front, read⟩ : ∃ earlier, earlier <+: s.chosen ∧ s.pool.firstBacklog place = givenTo earlier i % 2 ^ 64 := by
    cases place with
    | loadFirst =>
      cases between
      exact ⟨s.chosen, List.prefix_refl _, measured.totals i⟩
    | loadSecond =>
      cases between
      exact (measured.read there).2
    | ticket | count | take | sending => cases between
  refine ⟨apart, measured.totals, earlier, front, read, fun taken decided => ?_⟩
  have first := s.outstanding_add_finished i
  have second := s.outstanding_add_finished j
  rw [measured.choice there between taken decided, measured.totals, read]
  unfold Prefers KeepsUp
  split <;> simp [apart.1, apart.1.symm] <;> omega

def callOn (address : Nat) : List DeferStep :=
  [.poolDefer 1 true (some 5) 6, .choose 1, .choose 1, .choose 1, .take 1 none (some address), .insert 1, .insert 1,
    .insert 1, .write 1 .whole]

/-- Two threads are given a command each, and one of them runs its own; then there is a third call. -/
def thirdCall (served : Nat) : List DeferStep :=
  callOn 10 ++ callOn 11 ++ .readCmd served :: List.replicate 10 (.poll served) ++
    [.run served, .poolDefer 1 true (some 5) 6, .choose 1, .choose 1]

theorem thirdCall_reached {served first second : Nat}
    (run : ((Runs.run LoadedPool.step Anything (LoadedPool.start 2) (thirdCall served)).map fun s =>
      (s.pool.callers 1, s.pool.tails 1, givenTo s.chosen 0, givenTo s.chosen 1, s.finished 0, s.finished 1)) =
        some (some (⟨2, 5, 6⟩, .loadSecond 0 1 1), 1, 1, 1, first, second)) :
    ∃ s after, Runs.Reaches LoadedPool.step Anything (LoadedPool.start 2) s ∧
      s.pool.callers 1 = some (⟨2, 5, 6⟩, .loadSecond 0 1 1) ∧ s.step (.choose 1) = some after ∧
      after.pool.callers 1 = some (⟨2, 5, 6⟩, .count 0) ∧ (givenTo s.chosen 0 = 1 ∧ givenTo s.chosen 1 = 1) ∧
      s.finished 0 = first ∧ s.finished 1 = second := by
  obtain ⟨s, taken, same⟩ := Option.map_eq_some_iff.mp run
  simp only [Prod.mk.injEq] at same
  obtain ⟨there, tail, given, given', finished, finished'⟩ := same
  have stepped : s.step (.choose 1) = some { s with pool := s.pool.setCaller 1 (some (⟨2, 5, 6⟩, .count 0)) } := by
    simp [LoadedPool.step, DeferPool.step, DeferPool.choose, counted, unserved, there, tail]
  exact ⟨s, _, .run .start (fun _ _ _ => trivial) taken, there, stepped, DeferPool.setCaller_same .., ⟨given, given'⟩, finished,
    finished'⟩

/-- The first thread has run its command, and is chosen again. -/
theorem pool_defer_prefers_served :
    ∃ s after, Runs.Reaches LoadedPool.step Anything (LoadedPool.start 2) s ∧
      s.pool.callers 1 = some (⟨2, 5, 6⟩, .loadSecond 0 1 1) ∧ s.step (.choose 1) = some after ∧
      after.pool.callers 1 = some (⟨2, 5, 6⟩, .count 0) ∧ s.Prefers 0 1 0 := by
  obtain ⟨s, after, reached, there, taken, decided, given, finished⟩ := @thirdCall_reached 0 1 0 (by decide +kernel)
  obtain ⟨-, -, earlier, -, read, prefers⟩ := pool_defer_prefers (by decide) reached there rfl
  refine ⟨s, after, reached, there, taken, decided, (prefers taken decided).mpr ?_⟩
  unfold KeepsUp
  rw [← read]
  simp [DeferPool.firstBacklog, given, finished]

/-- The second thread has run its command, and the next one goes to the first thread all the same. -/
theorem pool_defer_loaded :
    ∃ s after, Runs.Reaches LoadedPool.step Anything (LoadedPool.start 2) s ∧
      s.pool.callers 1 = some (⟨2, 5, 6⟩, .loadSecond 0 1 1) ∧ s.outstanding 0 = 1 ∧ s.outstanding 1 = 0 ∧
      s.step (.choose 1) = some after ∧ after.pool.callers 1 = some (⟨2, 5, 6⟩, .count 0) ∧ ¬ s.Prefers 0 1 0 := by
  obtain ⟨s, after, reached, there, taken, decided, given, finished⟩ := @thirdCall_reached 1 0 1 (by decide +kernel)
  have first : s.outstanding 0 = 1 := by
    have := s.outstanding_add_finished 0
    omega
  have second : s.outstanding 1 = 0 := by
    have := s.outstanding_add_finished 1
    omega
  exact ⟨s, after, reached, there, first, second, taken, decided, by simp [Prefers, first, second]⟩

end Evhtp
