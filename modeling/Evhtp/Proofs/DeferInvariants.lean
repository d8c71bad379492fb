import Evhtp.Proofs.Wakeups
import Evhtp.PoolDefer

/-! What holds whatever the callers of `evthr_defer` do and whatever becomes of their writes. The calls are told apart
by their numbers; a caller is in the queue of the thread it sends to, and this thread was given its command; and a
thread differs from one whose eventfd was written every time by no more than the eventfd. -/

namespace Evhtp
open Runs

abbrev Anything {σ ε : Type} : σ → ε → Prop := fun _ _ => True

def Deferring.unsent : Deferring → Bool
  | .sending _ => false
  | .ticket | .loadFirst _ _ | .loadSecond _ _ _ | .count _ | .take _ => true

def Deferring.candidates : Deferring → Option (Nat × Nat)
  | .loadFirst i j | .loadSecond i j _ => some (i, j)
  | .ticket | .count _ | .take _ | .sending _ => none

namespace Threads

variable {s after : Threads} {event : ThreadStep} {caller : Nat}

theorem step_inserting {address : Nat} {insert : Insert} (was : s.producers caller = .inserting address insert) :
    s.step (.advance caller) = some (s.insert caller address insert) := by
  simp [step, was]

theorem step_waking (was : s.producers caller = .waking) : s.step (.advance caller) = some (s.wake caller) := by
  simp [step, was]

theorem step_polling {poll : Poll} (there : s.target = .polling poll) : s.step .poll = some (s.poll poll) := by
  simp [step, there]

theorem step_running {address : Nat} (there : s.target = .running (.cmd address)) :
    s.step .run = some (s.runCallback address) := by
  simp [step, there]

theorem own_step {own : ThreadStep} (target : own ∈ [ThreadStep.readCmd, .poll, .run]) (taken : s.step own = some after) :
    after.producers = s.producers ∧ after.deferred = s.deferred ∧
      ∀ address, s.busy address = false → after.busy address = false := by
  rcases List.mem_cons.mp target with rfl | target
  · obtain ⟨_, rfl⟩ : _ ∧ s.readCmd = after := by simpa [step] using taken
    exact ⟨rfl, rfl, fun _ => id⟩
  rcases List.mem_cons.mp target with rfl | target
  · cases there : s.target with
    | polling poll =>
      cases (step_polling there).symm.trans taken
      exact ⟨rfl, rfl, fun _ => id⟩
    | outside => simp [step, there] at taken
    | running node => simp [step, there] at taken
  · obtain rfl := List.mem_singleton.mp target
    rcases there : s.target with _ | poll | (_ | address)
    · simp [step, there] at taken
    · simp [step, there] at taken
    · simp [step, there] at taken
    · cases (step_running there).symm.trans taken
      refine ⟨rfl, rfl, fun other free => ?_⟩
      simp only [runCallback]
      split
      · rfl
      · exact free

/-- The thread as it would be if every write of its eventfd had succeeded. -/
def Shadows (state full : Threads) : Prop := ∃ eventfd ≤ full.eventfd, state = { full with eventfd }

variable {full : Threads}

theorem Shadows.step (shadows : s.Shadows full) (taken : s.step event = some after) :
    ∃ full', full.step event = some full' ∧ after.Shadows full' := by
  obtain ⟨eventfd, fewer, rfl⟩ := shadows
  cases event with
  | defer producer address =>
    obtain ⟨enabled, rfl⟩ : _ ∧ Threads.take _ producer address = after := by simpa [Threads.step] using taken
    exact ⟨full.take producer address, if_pos enabled, eventfd, fewer, rfl⟩
  | advance producer =>
    cases was : full.producers producer with
    | outside => simp [Threads.step, was] at taken
    | inserting address insert =>
      cases (step_inserting (by exact was)).symm.trans taken
      exact ⟨_, step_inserting was, eventfd, fewer, rfl⟩
    | waking =>
      cases (step_waking (by exact was)).symm.trans taken
      exact ⟨_, step_waking was, eventfd + 1, Nat.succ_le_succ fewer, rfl⟩
  | readCmd =>
    obtain ⟨⟨outside, unread⟩, rfl⟩ : (full.target = .outside ∧ eventfd ≠ 0) ∧ Threads.readCmd _ = after := by
      simpa [Threads.step] using taken
    exact ⟨full.readCmd, if_pos ⟨outside, by omega⟩, 0, Nat.le_refl 0, rfl⟩
  | poll =>
    cases there : full.target with
    | polling poll =>
      cases (step_polling (by exact there)).symm.trans taken
      exact ⟨_, step_polling there, eventfd, fewer, rfl⟩
    | outside => simp [Threads.step, there] at taken
    | running node => simp [Threads.step, there] at taken
  | run =>
    cases there : full.target with
    | polling poll => simp [Threads.step, there] at taken
    | outside => simp [Threads.step, there] at taken
    | running node =>
      cases node with
      | stub => simp [Threads.step, there] at taken
      | cmd address =>
        cases (step_running (by exact there)).symm.trans taken
        exact ⟨_, step_running there, eventfd, fewer, rfl⟩

/-- A write that fails is one that succeeds to the shadow. -/
theorem Shadows.unwoken (shadows : s.Shadows full) (waking : s.producers caller = .waking) :
    ∃ full', full.step (.advance caller) = some full' ∧ (s.setProducer caller .outside).Shadows full' := by
  obtain ⟨eventfd, fewer, rfl⟩ := shadows
  exact ⟨full.wake caller, step_waking waking, eventfd, Nat.le_succ_of_le fewer, rfl⟩

end Threads

namespace DeferPool

variable {s after : DeferPool} {event : DeferStep}

inductive StepTo (s : DeferPool) : DeferStep → DeferPool → Prop
  | enter {event caller cb arg place} : event.failsWrite = false → s.callers caller = none → place.unsent = true →
      place.candidates = none → StepTo s event (s.enter caller cb arg place)
  | refuse {event res} : event.failsWrite = false → StepTo s event (s.refuse res)
  | move {caller call place next nextChoice tails} : s.callers caller = some (call, place) → place.unsent = true →
      next.unsent = true →
      StepTo s (.choose caller) { s.setCaller caller (some (call, next)) with nextChoice, tails }
  | fail {caller call thread cached allocated} : s.callers caller = some (call, .take thread) →
      StepTo s (.take caller cached allocated) (s.leave caller call .fatal)
  | store {caller call thread cached allocated address} : s.callers caller = some (call, .take thread) →
      (s.threads thread).producers caller = .outside →  (s.threads thread).busy address = false →
      StepTo s (.take caller cached allocated)
        (s.store caller thread address call ((s.threads thread).take caller address))
  | insert {caller call thread address insert} : s.callers caller = some (call, .sending thread) →
      (s.threads thread).producers caller = .inserting address insert →
      StepTo s (.insert caller) (s.setThread thread ((s.threads thread).insert caller address insert))
  | write {caller call thread written} : s.callers caller = some (call, .sending thread) →
      (s.threads thread).producers caller = .waking →
      StepTo s (.write caller written) (s.write caller thread call written)
  | work {event own thread state busy} : event.failsWrite = false → own ∈ [ThreadStep.readCmd, .poll, .run] →
      (s.threads thread).step own = some state → (∀ address, s.busy address = false → busy address = false) →
      StepTo s event { s.setThread thread state with busy }

theorem step_cases (taken : s.step event = some after) : s.StepTo event after := by
  cases event with
  | defer caller thread cb arg =>
    obtain ⟨idle, rfl⟩ : s.callers caller = none ∧ s.defer caller thread cb arg = after := by
      simpa [step] using taken
    cases thread with
    | none => exact .refuse rfl
    | some thread =>
      cases cb with
      | none => exact .refuse rfl
      | some cb => exact .enter rfl idle rfl rfl
  | poolDefer caller pool cb arg =>
    obtain ⟨idle, rfl⟩ : s.callers caller = none ∧ s.poolDefer caller pool cb arg = after := by
      simpa [step] using taken
    unfold poolDefer
    split
    · exact .refuse rfl
    · split
      · exact .refuse rfl
      · split
        · exact .refuse rfl
        · split
          · exact .enter rfl idle rfl rfl
          · exact .enter rfl idle rfl rfl
  | choose caller =>
    obtain ⟨⟨call, place⟩, there, chosen⟩ := Option.bind_eq_some_iff.mp taken
    cases place with
    | ticket =>
      cases chosen
      exact .move there rfl rfl
    | loadFirst i j =>
      cases chosen
      refine .move there rfl ?_
      split <;> rfl
    | loadSecond i j first =>
      cases chosen
      exact .move there rfl rfl
    | count thread =>
      cases chosen
      exact .move there rfl rfl
    | take thread => cases chosen
    | sending thread => cases chosen
  | take caller cached allocated =>
    simp only [step] at taken
    split at taken
    next call thread there =>
      unfold take at taken
      split at taken
      · cases taken
        exact .fail there
      · split at taken
        · obtain ⟨state, stepped, rfl⟩ := Option.map_eq_some_iff.mp taken
          obtain ⟨⟨outside, free⟩, rfl⟩ : _ ∧ Threads.take _ _ _ = state := by simpa [Threads.step] using stepped
          exact .store there outside free
        · cases taken
    next => cases taken
  | insert caller =>
    simp only [step] at taken
    split at taken
    next call thread there =>
      split at taken
      next address insert inserting =>
        cases taken
        exact .insert there inserting
      next => cases taken
      next => cases taken
    next => cases taken
  | write caller written =>
    simp only [step] at taken
    split at taken
    next call thread there =>
      split at taken
      next waking =>
        cases taken
        exact .write there waking
      next => cases taken
    next => cases taken
  | readCmd thread =>
    obtain ⟨state, stepped, rfl⟩ := Option.map_eq_some_iff.mp taken
    exact .work rfl (by simp) stepped fun _ => id
  | poll thread =>
    obtain ⟨state, stepped, rfl⟩ := Option.map_eq_some_iff.mp taken
    exact .work rfl (by simp) stepped fun _ => id
  | run thread =>
    simp only [step, run] at taken
    split at taken
    next address running =>
      cases taken
      have stepped : (s.threads thread).step .run = some ((s.threads thread).runCallback address) := by
        simp [Threads.step, running]
      refine .work rfl (by simp) stepped ?_
      intro other free
      split
      · rfl
      · exact free
    next => cases taken
    next => cases taken
    next => cases taken

variable {thread other caller : Nat} {call : DeferCall} {state : Threads}
  {address : Nat} {place : Option (DeferCall × Deferring)}
@[simp] theorem setThread_same (s : DeferPool) (thread : Nat) (state : Threads) :
    (s.setThread thread state).threads thread = state := by
  simp [setThread]

theorem setThread_other (s : DeferPool) (state : Threads) (different : other ≠ thread) :
    (s.setThread thread state).threads other = s.threads other := by
  simp [setThread, different]

@[simp] theorem setCaller_same (s : DeferPool) (caller : Nat) (place : Option (DeferCall × Deferring)) :
    (s.setCaller caller place).callers caller = place := by
  simp [setCaller]

theorem setCaller_other (s : DeferPool) (place : Option (DeferCall × Deferring))
    (different : other ≠ caller) : (s.setCaller caller place).callers other = s.callers other := by
  simp [setCaller, different]

theorem setCaller_cases {next : Deferring}
    (there : (s.setCaller caller place).callers other = some (call, next)) :
    (other = caller ∧ place = some (call, next)) ∨ (other ≠ caller ∧ s.callers other = some (call, next)) := by
  by_cases same : other = caller
  · subst same
    exact .inl ⟨rfl, (setCaller_same s other place).symm.trans there⟩
  · exact .inr ⟨same, (setCaller_other s place same).symm.trans there⟩

theorem store_cases {call' : DeferCall} {command : Command}
    (filled : (s.store caller thread address call state).stored other command = some call') :
    call' = call ∨ s.stored other command = some call' := by
  by_cases same : other = thread ∧ command = ⟨caller, (s.threads thread).deferred caller⟩
  · left
    simpa [store, same.1, same.2] using filled.symm
  · right
    rw [← filled]
    simp only [store]
    split
    next there => exact (if_neg fun equal => same ⟨there, equal⟩).symm
    next => rfl

structure Numbered (s : DeferPool) : Prop where
  issued : ∀ {caller call place}, s.callers caller = some (call, place) → call.number < s.calls
  apart : ∀ {caller other call call' place place'}, s.callers caller = some (call, place) →
    s.callers other = some (call', place') → call.number = call'.number → caller = other
  filled : ∀ {thread command call}, s.stored thread command = some call → call.number < s.calls
  unfilled : ∀ {caller call place thread command call'}, s.callers caller = some (call, place) → place.unsent = true →
    s.stored thread command = some call' → call'.number ≠ call.number

structure Gone (s : DeferPool) (number : Nat) : Prop where
  issued : number < s.calls
  returned : ∀ {caller call place}, s.callers caller = some (call, place) → call.number ≠ number
  unstored : ∀ {thread command call}, s.stored thread command = some call → call.number ≠ number

theorem Gone.step {number : Nat} (gone : s.Gone number) (steps : s.StepTo event after) : after.Gone number := by
  have others {caller other : Nat} {place : Option (DeferCall × Deferring)}
      (returned : ∀ {call next}, place = some (call, next) → call.number ≠ number) {call : DeferCall} {next : Deferring}
      (there : (s.setCaller caller place).callers other = some (call, next)) : call.number ≠ number := by
    rcases setCaller_cases there with ⟨_, now⟩ | ⟨_, before⟩
    · exact returned now
    · exact gone.returned before
  cases steps with
  | enter _ idle unsent =>
    refine ⟨Nat.lt_succ_of_lt gone.issued, others ?_, gone.unstored⟩
    rintro call next ⟨⟩
    exact Nat.ne_of_gt gone.issued
  | refuse => exact ⟨Nat.lt_succ_of_lt gone.issued, gone.returned, gone.unstored⟩
  | move there unsent =>
    refine ⟨gone.issued, others ?_, gone.unstored⟩
    rintro call next ⟨⟩
    exact gone.returned there
  | fail there => exact ⟨gone.issued, others (by rintro _ _ ⟨⟩), gone.unstored⟩
  | store there outside free =>
    refine ⟨gone.issued, others ?_, ?_⟩
    · rintro call next ⟨⟩
      exact gone.returned there
    · intro thread command call filled
      rcases store_cases filled with rfl | before
      · exact gone.returned there
      · exact gone.unstored before
  | insert there inserting => exact ⟨gone.issued, gone.returned, gone.unstored⟩
  | write there waking => exact ⟨gone.issued, others (by rintro _ _ ⟨⟩), gone.unstored⟩
  | work => exact ⟨gone.issued, gone.returned, gone.unstored⟩

/-- A caller goes on with its call, begins a new one or returns, and may store what it is called with. -/
theorem Numbered.setCaller (numbered : s.Numbered)
    (callers : after.callers = (s.setCaller caller place).callers) (calls : s.calls ≤ after.calls)
    (stored : ∀ {thread command call}, after.stored thread command = some call →
      s.stored thread command = some call ∨ ∃ before, s.callers caller = some (call, before))
    (given : ∀ {call next}, place = some (call, next) → call.number < after.calls ∧
      (∀ {other call' place'}, other ≠ caller → s.callers other = some (call', place') → call'.number ≠ call.number) ∧
      (next.unsent = true → ∀ {thread command call'}, after.stored thread command = some call' →
        call'.number ≠ call.number)) : after.Numbered := by
  constructor
  · intro other call next there
    rw [callers] at there
    rcases setCaller_cases there with ⟨_, now⟩ | ⟨_, before⟩
    · exact (given now).1
    · exact Nat.lt_of_lt_of_le (numbered.issued before) calls
  · intro first second call call' next next' there there' same
    rw [callers] at there there'
    rcases setCaller_cases there with ⟨rfl, now⟩ | ⟨different, before⟩ <;>
      rcases setCaller_cases there' with ⟨rfl, now'⟩ | ⟨different', before'⟩
    · rfl
    · exact absurd same.symm ((given now).2.1 different' before')
    · exact absurd same ((given now').2.1 different before)
    · exact numbered.apart before before' same
  · intro thread command call filled
    rcases stored filled with before | ⟨_, own⟩
    · exact Nat.lt_of_lt_of_le (numbered.filled before) calls
    · exact Nat.lt_of_lt_of_le (numbered.issued own) calls
  · intro other call next thread command call' there unsent filled
    rw [callers] at there
    rcases setCaller_cases there with ⟨_, now⟩ | ⟨different, here⟩
    · exact (given now).2.2 unsent filled
    · rcases stored filled with before | ⟨_, own⟩
      · exact numbered.unfilled here unsent before
      · exact fun same => different (numbered.apart here own same.symm)

theorem Numbered.step (numbered : s.Numbered) (steps : s.StepTo event after) : after.Numbered := by
  cases steps with
  | enter _ idle unsent =>
    apply numbered.setCaller (by exact rfl) (by exact Nat.le_succ _) (by exact .inl)
    rintro call next ⟨⟩
    refine ⟨Nat.lt_succ_self _, fun _ before => Nat.ne_of_lt (numbered.issued before), ?_⟩
    exact fun _ _ _ _ filled => Nat.ne_of_lt (numbered.filled filled)
  | refuse =>
    refine ⟨fun there => Nat.lt_succ_of_lt (numbered.issued there), numbered.apart, ?_, numbered.unfilled⟩
    exact fun filled => Nat.lt_succ_of_lt (numbered.filled filled)
  | move there unsent =>
    apply numbered.setCaller (by exact rfl) (by exact Nat.le_refl _) (by exact .inl)
    rintro call next ⟨⟩
    refine ⟨numbered.issued there, fun different before same => different (numbered.apart before there same), ?_⟩
    exact fun _ _ _ _ filled => numbered.unfilled there unsent filled
  | fail there =>
    apply numbered.setCaller (by exact rfl) (by exact Nat.le_refl _) (by exact .inl)
    rintro call next ⟨⟩
  | store there outside free =>
    apply numbered.setCaller (by exact rfl) (by exact Nat.le_refl _)
    · intro thread command call filled
      rcases store_cases filled with rfl | before
      · exact .inr ⟨_, there⟩
      · exact .inl before
    · rintro call next ⟨⟩
      exact ⟨numbered.issued there, fun different before same => different (numbered.apart before there same), nofun⟩
  | insert there inserting => exact ⟨numbered.issued, numbered.apart, numbered.filled, numbered.unfilled⟩
  | write there waking =>
    apply numbered.setCaller (by exact rfl) (by exact Nat.le_refl _) (by exact .inl)
    rintro call next ⟨⟩
  | work => exact ⟨numbered.issued, numbered.apart, numbered.filled, numbered.unfilled⟩

def Given (s : DeferPool) (thread caller : Nat) (call : DeferCall) : Prop :=
  ∃ number < (s.threads thread).deferred caller, s.stored thread ⟨caller, number⟩ = some call

theorem Given.kept (given : s.Given thread caller call)
    (deferred : ∀ thread caller, (s.threads thread).deferred caller ≤ (after.threads thread).deferred caller)
    (stored : after.stored = s.stored) : after.Given thread caller call := by
  obtain ⟨number, below, filled⟩ := given
  exact ⟨number, Nat.lt_of_lt_of_le below (deferred thread caller), stored ▸ filled⟩

theorem setThread_deferred
    (deferred : ∀ caller, (s.threads thread).deferred caller ≤ state.deferred caller) (other caller : Nat) :
    (s.threads other).deferred caller ≤ ((s.setThread thread state).threads other).deferred caller := by
  by_cases same : other = thread
  · subst same
    rw [setThread_same]
    exact deferred caller
  · exact Nat.le_of_eq (by rw [setThread_other s state same])

theorem store_given {otherCaller : Nat} {call' : DeferCall}
    (given : s.Given other otherCaller call') :
    (s.store caller thread address call ((s.threads thread).take caller address)).Given other otherCaller call' := by
  obtain ⟨number, below, filled⟩ := given
  refine ⟨number, ?_, ?_⟩
  · refine Nat.lt_of_lt_of_le below (setThread_deferred ?_ other otherCaller)
    intro producer
    simp only [Threads.take]
    split <;> omega
  · simp only [store]
    split
    next same =>
      subst same
      -- the command that is filled in has the next number
      refine (if_neg ?_).trans filled
      intro equal
      obtain ⟨rfl, rfl⟩ := Command.mk.inj equal
      exact Nat.lt_irrefl _ below
    next => exact filled

theorem Given.step (given : s.Given thread caller call)
    (steps : s.StepTo event after) : after.Given thread caller call := by
  cases steps with
  | enter | refuse | move | fail => exact given
  | store => exact store_given given
  | insert => exact given.kept (setThread_deferred (fun _ => Nat.le_refl _)) rfl
  | @write _ _ _ written =>
    refine given.kept (setThread_deferred (fun _ => ?_)) rfl
    cases written <;> exact Nat.le_refl _
  | work _ own stepped =>
    refine given.kept (setThread_deferred (fun caller => ?_)) rfl
    exact Nat.le_of_eq (by rw [(Threads.own_step own stepped).2.1])

structure Sends (s : DeferPool) : Prop where
  inside : ∀ {thread caller}, (s.threads thread).producers caller ≠ .outside →
    ∃ call, s.callers caller = some (call, .sending thread)
  sending : ∀ {caller call thread}, s.callers caller = some (call, .sending thread) →
    (s.threads thread).producers caller ≠ .outside ∧ s.Given thread caller call

theorem Sends.update (sends : s.Sends) (steps : s.StepTo event after)
    (others : ∀ other, other ≠ caller → after.callers other = s.callers other ∧
      ∀ thread, (after.threads thread).producers other = (s.threads thread).producers other)
    (inside : ∀ thread, (after.threads thread).producers caller ≠ .outside →
      ∃ call, after.callers caller = some (call, .sending thread))
    (sending : ∀ call thread, after.callers caller = some (call, .sending thread) →
      (after.threads thread).producers caller ≠ .outside ∧ after.Given thread caller call) : after.Sends := by
  constructor
  · intro thread other busy
    by_cases same : other = caller
    · exact same ▸ inside thread (same ▸ busy)
    · rw [(others other same).1]
      exact sends.inside ((others other same).2 thread ▸ busy)
  · intro other call thread there
    by_cases same : other = caller
    · subst same
      exact sending call thread there
    · obtain ⟨busy, given⟩ := sends.sending ((others other same).1 ▸ there)
      exact ⟨(others other same).2 thread ▸ busy, given.step steps⟩

/-- A caller that does not send, and is not about to, changes nothing of this. -/
theorem Sends.aside (sends : s.Sends)
    (steps : s.StepTo event after) (callers : after.callers = (s.setCaller caller place).callers)
    (threads : after.threads = s.threads) (was : ∀ call thread, s.callers caller ≠ some (call, .sending thread))
    (now : ∀ call thread, place ≠ some (call, .sending thread)) : after.Sends := by
  apply sends.update steps
  · intro other different
    rw [callers, threads, setCaller_other s place different]
    exact ⟨rfl, fun _ => rfl⟩
  · intro thread busy
    rw [threads] at busy
    obtain ⟨call, there⟩ := sends.inside busy
    exact absurd there (was call thread)
  · intro call thread there
    rw [callers, setCaller_same] at there
    exact absurd there (now call thread)

theorem Sends.within (sends : s.Sends) (caller : Nat) (steps : s.StepTo event after)
    (threads : after.threads = (s.setThread thread state).threads)
    (others : ∀ other, other ≠ caller → after.callers other = s.callers other ∧
      state.producers other = (s.threads thread).producers other)
    (was : ∀ call other, s.callers caller = some (call, .sending other) → other = thread)
    (inside : state.producers caller ≠ .outside → ∃ call, after.callers caller = some (call, .sending thread))
    (sending : ∀ call other, after.callers caller = some (call, .sending other) →
      other = thread ∧ state.producers caller ≠ .outside ∧ after.Given thread caller call) : after.Sends := by
  apply sends.update steps
  · intro other different
    refine ⟨(others other different).1, fun there => ?_⟩
    rw [threads]
    by_cases same : there = thread
    · rw [same, setThread_same]
      exact (others other different).2
    · rw [setThread_other s state same]
  · intro there busy
    rw [threads] at busy
    by_cases same : there = thread
    · rw [same, setThread_same] at busy
      exact same ▸ inside busy
    · rw [setThread_other s state same] at busy
      obtain ⟨call, before⟩ := sends.inside busy
      exact absurd (was call there before) same
  · intro call there now
    obtain ⟨rfl, busy, given⟩ := sending call there now
    rw [threads, setThread_same]
    exact ⟨busy, given⟩

theorem Sends.step (sends : s.Sends) (steps : s.StepTo event after) : after.Sends := by
  have steps' := steps
  cases steps with
  | enter _ idle unsent =>
    refine sends.aside steps' (by exact rfl) (by exact rfl) ?_ ?_
    · intro call thread there
      cases idle.symm.trans there
    · rintro call thread ⟨⟩
      cases unsent
  | refuse => exact ⟨sends.inside, sends.sending⟩
  | move there unsent next =>
    refine sends.aside steps' (by exact rfl) (by exact rfl) ?_ ?_
    · intro call thread there'
      cases there.symm.trans there'
      cases unsent
    · rintro call thread ⟨⟩
      cases next
  | fail there =>
    refine sends.aside steps' (by exact rfl) (by exact rfl) ?_ ?_
    · intro call thread there'
      cases there.symm.trans there'
    · rintro call thread ⟨⟩
  | @store caller call thread _ _ address there outside free =>
    refine sends.within caller steps' (by exact rfl) (fun other different => ⟨?_, ?_⟩) ?_ ?_ ?_
    · exact setCaller_other _ _ different
    · exact Threads.setProducer_other _ _ different
    · intro call other there'
      cases there.symm.trans there'
    · exact fun _ => ⟨call, setCaller_same _ _ _⟩
    · intro call' other now
      cases (setCaller_same (s.setThread thread _) caller _).symm.trans now
      refine ⟨rfl, ?_, (s.threads thread).deferred caller, ?_, ?_⟩
      · intro outside
        cases (Threads.setProducer_same _ _ _).symm.trans outside
      · simp [store, Threads.take, setCaller]
      · simp [store]
  | @insert caller call thread address insert there inserting =>
    refine sends.within caller steps' (by exact rfl) (fun other different => ⟨rfl, ?_⟩) ?_ ?_ ?_
    · exact Threads.setProducer_other _ _ different
    · intro call' other there'
      cases there.symm.trans there'
      rfl
    · exact fun _ => ⟨call, there⟩
    · intro call' other now
      cases there.symm.trans now
      refine ⟨rfl, ?_, (sends.sending there).2.step steps'⟩
      intro outside
      cases insert <;> cases (Threads.setProducer_same _ _ _).symm.trans outside
  | @write caller call thread written there waking =>
    refine sends.within caller steps' (by exact rfl) (fun other different => ⟨?_, ?_⟩) ?_ ?_ ?_
    · exact setCaller_other _ _ different
    · cases written <;> exact Threads.setProducer_other _ _ different
    · intro call' other there'
      cases there.symm.trans there'
      rfl
    · intro busy
      refine absurd ?_ busy
      cases written <;> exact Threads.setProducer_same _ _ _
    · intro call' other now
      cases (setCaller_same (s.setThread thread _) caller _).symm.trans now
  | @work _ _ thread state _ _ own stepped =>
    have producers (other caller : Nat) :
        ((s.setThread thread state).threads other).producers caller = (s.threads other).producers caller := by
      by_cases same : other = thread
      · rw [same, setThread_same, (Threads.own_step own stepped).1]
      · rw [setThread_other s state same]
    constructor
    · intro other caller busy
      exact sends.inside (producers other caller ▸ busy)
    · intro caller call other there
      exact ⟨(producers other caller).symm ▸ (sends.sending there).1, (sends.sending there).2.step steps'⟩

structure Bounded (s : DeferPool) (bound : Nat) : Prop where
  callers : ∀ caller, bound ≤ caller → s.callers caller = none
  busy : ∀ address, bound ≤ address → s.busy address = false
  threads : ∀ thread address, bound ≤ address → (s.threads thread).busy address = false

theorem Bounded.next {bound : Nat} (bounded : s.Bounded bound) (caller address : Nat)
    (callers : ∀ other, other ≠ caller → after.callers other = s.callers other)
    (busy : ∀ other, other ≠ address → s.busy other = false → after.busy other = false)
    (threads : ∀ thread other, other ≠ address → (s.threads thread).busy other = false →
      (after.threads thread).busy other = false) : ∃ bound, after.Bounded bound := by
  refine ⟨bound + caller + address + 1, ?_, ?_, ?_⟩
  · intro other above
    rw [callers other (by omega)]
    exact bounded.callers other (by omega)
  · intro other above
    exact busy other (by omega) (bounded.busy other (by omega))
  · intro thread other above
    exact threads thread other (by omega) (bounded.threads thread other (by omega))

theorem setThread_busy
    (kept : (s.threads thread).busy address = false → state.busy address = false) (other : Nat)
    (free : (s.threads other).busy address = false) : ((s.setThread thread state).threads other).busy address = false := by
  by_cases same : other = thread
  · subst same
    rw [setThread_same]
    exact kept free
  · rw [setThread_other s state same]
    exact free

theorem Bounded.step {bound : Nat} (bounded : s.Bounded bound) (steps : s.StepTo event after) :
    ∃ bound, after.Bounded bound := by
  cases steps with
  | @enter _ caller =>
    exact bounded.next caller 0 (fun _ different => setCaller_other _ _ different) (fun _ _ => id) (fun _ _ _ => id)
  | refuse => exact ⟨bound, bounded.callers, bounded.busy, bounded.threads⟩
  | @move caller =>
    exact bounded.next caller 0 (fun _ different => setCaller_other _ _ different) (fun _ _ => id) (fun _ _ _ => id)
  | @fail caller =>
    exact bounded.next caller 0 (fun _ different => setCaller_other _ _ different) (fun _ _ => id) (fun _ _ _ => id)
  | @store caller call thread _ _ address =>
    refine bounded.next caller address (fun _ different => setCaller_other _ _ different) ?_ ?_
    · intro other different free
      exact (if_neg different).trans free
    · intro there other different
      exact setThread_busy (fun free => (if_neg different).trans free) there
  | insert => exact bounded.next 0 0 (fun _ _ => rfl) (fun _ _ => id) (fun there _ _ => setThread_busy (by exact id) there)
  | @write caller _ _ written =>
    refine bounded.next caller 0 (fun _ different => setCaller_other _ _ different) (fun _ _ => id) (fun there _ _ => ?_)
    apply setThread_busy
    cases written <;> exact id
  | work _ own stepped busy =>
    refine bounded.next 0 0 (fun _ _ => rfl) (fun other _ => busy other) (fun there other _ => ?_)
    exact setThread_busy ((Threads.own_step own stepped).2.2 other) there

def Shadowed (s : DeferPool) (thread : Nat) (full : Threads) : Prop :=
  Runs.Reaches Threads.step Anything {} full ∧ (s.threads thread).Shadows full

theorem Shadowed.step {full : Threads} (shadowed : s.Shadowed thread full)
    (steps : s.StepTo event after) : ∃ full', after.Shadowed thread full' := by
  obtain ⟨reached, shadows⟩ := shadowed
  -- a step of the thread itself, or of another one
  have change {own : Nat} {state : Threads} (threads : after.threads = (s.setThread own state).threads)
      (next : thread = own → ∃ event full', full.step event = some full' ∧ state.Shadows full') :
      ∃ full', after.Shadowed thread full' := by
    unfold Shadowed
    rw [threads]
    by_cases same : thread = own
    · obtain ⟨event, full', stepped, follows⟩ := next same
      rw [same, setThread_same]
      exact ⟨full', .step reached trivial stepped, follows⟩
    · rw [setThread_other s state same]
      exact ⟨full, reached, shadows⟩
  cases steps with
  | enter | refuse | move | fail => exact ⟨full, reached, shadows⟩
  | @store caller _ own _ _ address _ outside free =>
    refine change (by exact rfl) ?_
    rintro rfl
    exact ⟨.defer caller address, shadows.step (if_pos ⟨outside, free⟩)⟩
  | @insert caller _ own _ _ _ inserting =>
    refine change (by exact rfl) ?_
    rintro rfl
    exact ⟨.advance caller, shadows.step (Threads.step_inserting inserting)⟩
  | @write caller _ own written _ waking =>
    refine change (by exact rfl) ?_
    rintro rfl
    refine ⟨.advance caller, ?_⟩
    cases written with
    | whole => exact shadows.step (Threads.step_waking waking)
    | failed again => exact shadows.unwoken waking
  | @work _ event own _ _ _ _ stepped =>
    refine change (by exact rfl) ?_
    rintro rfl
    exact ⟨event, shadows.step stepped⟩

structure Sound (s : DeferPool) : Prop where
  numbered : s.Numbered
  sends : s.Sends
  bounded : ∃ bound, s.Bounded bound
  shadowed : ∀ thread, ∃ full, s.Shadowed thread full

theorem Sound.start (nthreads : Nat) : ({ nthreads } : DeferPool).Sound := by
  refine ⟨⟨nofun, nofun, nofun, nofun⟩, ⟨?_, nofun⟩, ⟨0, fun _ _ => rfl, fun _ _ => rfl, fun _ _ _ => rfl⟩, ?_⟩
  · exact fun busy => absurd rfl busy
  · exact fun thread => ⟨{}, .start, 0, Nat.le_refl 0, rfl⟩

theorem Sound.later (sound : s.Sound) (reached : Runs.Reaches DeferPool.step Anything s after) : after.Sound := by
  apply reached.invariant sound
  rintro before after event sound - taken
  have steps := step_cases taken
  obtain ⟨bound, bounded⟩ := sound.bounded
  refine ⟨sound.numbered.step steps, sound.sends.step steps, bounded.step steps, fun thread => ?_⟩
  obtain ⟨full, shadowed⟩ := sound.shadowed thread
  exact shadowed.step steps

end DeferPool

end Evhtp
