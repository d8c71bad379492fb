import Evhtp.Proofs.SpscRing
import Mathlib.Data.List.Nodup

/-! Recycled commands. With one worker at a time in `spsc_enqueue` the cache of a sender hands out each command that
was put into it once, and loses none; with two of them at once it does not. -/

namespace Evhtp
open Runs

def CacheEvent.cmd : CacheEvent → Nat
  | .enqueued cmd | .dequeued cmd => cmd

/-- The enqueue of a command reported success, and it was not dequeued since. -/
def Cached (log : List CacheEvent) (cmd : Nat) : Prop :=
  (log.filter (·.cmd = cmd)).getLast? = some (.enqueued cmd)

/-- Between two calls that return a command it is enqueued. -/
def Once (log : List CacheEvent) : Prop :=
  ∀ cmd before between after, log = before ++ .dequeued cmd :: (between ++ .dequeued cmd :: after) →
    .enqueued cmd ∈ between

/-- No command is handed out twice, and none that was enqueued is overwritten before it is dequeued. -/
structure Pool.Recycles (s : Pool) : Prop where
  once : Once s.log
  kept : ∀ cmd, Cached s.log cmd → cmd ∈ s.cache.contents

def Worker.inside : Worker → Bool
  | .enqueuing _ _ => true
  | .idle | .running _ => false

/-- A worker enters `spsc_enqueue` while no other one is in it. -/
def oneAtATime (s : Pool) (event : PoolStep) : Prop :=
  ∀ worker, event = .recycle worker → ∀ other, (s.workers other).inside = false

def Worker.holds : Worker → Option Nat
  | .idle => none
  | .running cmd | .enqueuing cmd _ => some cmd

inductive Place where
  | free
  | sender
  | queue (worker : Nat)
  | worker (worker : Nat)
  | ring
  deriving DecidableEq

variable {log : List CacheEvent} {cmd other : Nat}

theorem cached_enqueued (log : List CacheEvent) (cmd : Nat) : Cached (log ++ [.enqueued cmd]) cmd := by
  simp [Cached, CacheEvent.cmd]

theorem not_cached_dequeued (log : List CacheEvent) (cmd : Nat) : ¬Cached (log ++ [.dequeued cmd]) cmd := by
  simp [Cached, CacheEvent.cmd]

theorem cached_other {event : CacheEvent} (different : event.cmd ≠ cmd) : Cached (log ++ [event]) cmd ↔ Cached log cmd := by
  simp [Cached, different]

theorem Once.concat {event : CacheEvent} (once : Once log)
    (again : ∀ {cmd before between}, event = .dequeued cmd → log = before ++ .dequeued cmd :: between →
      .enqueued cmd ∈ between) : Once (log ++ [event]) := by
  intro cmd before between after split
  rcases List.eq_nil_or_concat after with rfl | ⟨rest, last, rfl⟩
  · have parts : log ++ [event] = (before ++ .dequeued cmd :: between) ++ [.dequeued cmd] := by simpa using split
    obtain ⟨heads, ends⟩ := List.append_inj' parts rfl
    exact again (List.singleton_inj.mp ends) heads
  · have parts : log ++ [event] = (before ++ .dequeued cmd :: (between ++ .dequeued cmd :: rest)) ++ [last] := by
      simpa using split
    exact once cmd before between rest (List.append_inj' parts rfl).1

theorem Once.enqueued (once : Once log) (cmd : Nat) : Once (log ++ [.enqueued cmd]) := once.concat nofun

/-- A command that waits was enqueued after it was last returned. -/
theorem Once.dequeued (once : Once log) (waiting : Cached log cmd) : Once (log ++ [.dequeued cmd]) := by
  apply once.concat
  rintro _ before between ⟨⟩ rfl
  unfold Cached at waiting
  rw [List.filter_append, List.filter_cons_of_pos (by simp [CacheEvent.cmd]), List.getLast?_append] at waiting
  cases last : (between.filter (·.cmd = cmd)).getLast? with
  | none => simp [List.getLast?_cons, last] at waiting
  | some event =>
    have event_eq : event = .enqueued cmd := by simpa [List.getLast?_cons, last] using waiting
    rw [event_eq] at last
    exact (List.mem_filter.mp (List.mem_of_getLast? last)).1

namespace Pool

def Located (s : Pool) (cached : List Nat) (cmd : Nat) : Place → Prop
  | .free => s.used cmd = false
  | .sender => s.sender = .sending cmd
  | .queue worker => cmd ∈ s.queues worker
  | .worker worker => (s.workers worker).holds = some cmd
  | .ring => cmd ∈ cached

structure Placed (s : Pool) (cached : List Nat) (place : Nat → Place) : Prop where
  located : ∀ {cmd at_}, s.Located cached cmd at_ → place cmd = at_
  distinct : cached.Nodup
  lined : ∀ worker, (s.queues worker).Nodup

/-- The cache of a sender, into which `all` was enqueued and from which the first `taken` were dequeued. -/
structure Valid (s : Pool) (all : List Nat) (taken : Nat) (place : Nat → Place) : Prop where
  ring : Ring s.cache all taken
  solo : ∀ {worker other}, (s.workers worker).inside = true → (s.workers other).inside = true → worker = other
  enqueuing : ∀ {worker cmd enqueue}, s.workers worker = .enqueuing cmd enqueue → enqueue.Knows cmd s.cache all taken
  dequeuing : ∀ {dequeue}, s.sender = .dequeuing dequeue → dequeue.Knows s.cache all taken
  waiting : ∀ cmd, Cached s.log cmd ↔ cmd ∈ all.drop taken
  once : Once s.log
  placed : s.Placed (all.drop taken) place

variable {s after : Pool} {all cached cached' : List Nat} {taken worker : Nat} {place : Nat → Place}

theorem Valid.recycles (valid : s.Valid all taken place) : s.Recycles where
  once := valid.once
  kept cmd waiting := by
    rw [valid.ring.contents]
    exact (valid.waiting cmd).mp waiting

theorem Placed.move {source target : Place} (placed : s.Placed cached place) (was : s.Located cached cmd source)
    (moved : ∀ {other at_}, after.Located cached' other at_ →
      (other = cmd ∧ at_ = target) ∨ (s.Located cached other at_ ∧ ¬(other = cmd ∧ at_ = source)))
    (distinct : cached'.Nodup) (lined : ∀ worker, (after.queues worker).Nodup) :
    after.Placed cached' (Function.update place cmd target) where
  located {other at_} located := by
    rcases moved located with ⟨rfl, rfl⟩ | ⟨located, elsewhere⟩
    · exact Function.update_self _ _ _
    · have different : other ≠ cmd := by
        rintro rfl
        exact elsewhere ⟨rfl, (placed.located located).symm.trans (placed.located was)⟩
      rw [Function.update_of_ne different]
      exact placed.located located
  distinct := distinct
  lined := lined

theorem Placed.stay (placed : s.Placed cached place)
    (same : ∀ {cmd at_}, after.Located cached cmd at_ → s.Located cached cmd at_)
    (queues : after.queues = s.queues) : after.Placed cached place where
  located located := placed.located (same located)
  distinct := placed.distinct
  lined worker := queues ▸ placed.lined worker

@[simp] theorem setWorker_same (s : Pool) (worker : Nat) (state : Worker) :
    (s.setWorker worker state).workers worker = state := by
  simp [setWorker]

theorem setWorker_other (s : Pool) {worker other : Nat} (state : Worker) (different : other ≠ worker) :
    (s.setWorker worker state).workers other = s.workers other := by
  simp [setWorker, different]

@[simp] theorem setQueue_same (s : Pool) (worker : Nat) (queue : List Nat) :
    (s.setQueue worker queue).queues worker = queue := by
  simp [setQueue]

theorem setQueue_other (s : Pool) {worker other : Nat} (queue : List Nat) (different : other ≠ worker) :
    (s.setQueue worker queue).queues other = s.queues other := by
  simp [setQueue, different]

theorem Valid.defer (valid : s.Valid all taken place) :
    ({ s with sender := .dequeuing .loadTail } : Pool).Valid all taken place := by
  constructor
  · exact valid.ring
  · exact valid.solo
  · exact valid.enqueuing
  · rintro dequeue ⟨⟩
    trivial
  · exact valid.waiting
  · exact valid.once
  · refine valid.placed.stay (fun {cmd at_} located => ?_) rfl
    cases at_ with
    | sender => cases located
    | free | queue | worker | ring => exact located

theorem Valid.allocate {address : Nat} (valid : s.Valid all taken place) (free : s.used address = false) :
    ({ s.setUsed address true with sender := .sending address } : Pool).Valid all taken
      (Function.update place address .sender) := by
  constructor
  · exact valid.ring
  · exact valid.solo
  · exact valid.enqueuing
  · exact nofun
  · exact valid.waiting
  · exact valid.once
  · have was : s.Located (all.drop taken) address .free := free
    refine valid.placed.move was (fun {other at_} located => ?_) valid.placed.distinct valid.placed.lined
    cases at_ with
    | sender =>
      cases located
      exact .inl ⟨rfl, rfl⟩
    | free =>
      have unused : (if other = address then true else s.used other) = false := located
      split at unused
      next => cases unused
      next different => exact .inr ⟨unused, fun same => different same.1⟩
    | queue | worker | ring => exact .inr ⟨located, nofun⟩

theorem Valid.send (valid : s.Valid all taken place) (sending : s.sender = .sending cmd) :
    ({ s.setQueue worker (s.queues worker ++ [cmd]) with sender := .outside } : Pool).Valid all taken
      (Function.update place cmd (.queue worker)) := by
  have was : s.Located (all.drop taken) cmd .sender := sending
  constructor
  · exact valid.ring
  · exact valid.solo
  · exact valid.enqueuing
  · exact nofun
  · exact valid.waiting
  · exact valid.once
  · refine valid.placed.move was (fun {other at_} located => ?_) valid.placed.distinct fun other => ?_
    · cases at_ with
      | sender => cases located
      | queue box =>
        by_cases same : box = worker
        · subst same
          have member : other ∈ s.queues box ++ [cmd] := by
            simpa only [Located, setQueue_same] using located
          rcases List.mem_append.mp member with member | last
          · exact .inr ⟨member, nofun⟩
          · exact .inl ⟨List.mem_singleton.mp last, rfl⟩
        · have member : other ∈ s.queues box := by
            simpa only [Located, setQueue_other _ _ same] using located
          exact .inr ⟨member, nofun⟩
      | free | worker | ring => exact .inr ⟨located, nofun⟩
    · by_cases same : other = worker
      · subst same
        show ((s.setQueue other _).queues other).Nodup
        rw [setQueue_same]
        refine (valid.placed.lined other).append (List.nodup_singleton cmd) (List.disjoint_singleton.mpr fun member => ?_)
        have inQueue : s.Located (all.drop taken) cmd (.queue other) := member
        exact nomatch (valid.placed.located inQueue).symm.trans (valid.placed.located was)
      · show ((s.setQueue worker _).queues other).Nodup
        rw [setQueue_other _ _ same]
        exact valid.placed.lined other

theorem setWorker_inside {state : Worker} (same : state.inside = true → (s.workers worker).inside = true) {other : Nat}
    (inside : ((s.setWorker worker state).workers other).inside = true) : (s.workers other).inside = true := by
  by_cases here : other = worker
  · subst here
    rw [setWorker_same] at inside
    exact same inside
  · rwa [setWorker_other _ _ here] at inside

theorem Valid.setWorker_solo {state : Worker} (valid : s.Valid all taken place)
    (same : state.inside = true → (s.workers worker).inside = true) {one two : Nat}
    (first : ((s.setWorker worker state).workers one).inside = true)
    (second : ((s.setWorker worker state).workers two).inside = true) : one = two :=
  valid.solo (setWorker_inside same first) (setWorker_inside same second)

theorem Valid.run {rest : List Nat} (valid : s.Valid all taken place)
    (lined : s.queues worker = cmd :: rest) :
    ((s.setQueue worker rest).setWorker worker (.running cmd)).Valid all taken
      (Function.update place cmd (.worker worker)) := by
  have was : s.Located (all.drop taken) cmd (.queue worker) := by
    show cmd ∈ s.queues worker
    rw [lined]
    exact List.mem_cons_self
  have distinct : (cmd :: rest).Nodup := lined ▸ valid.placed.lined worker
  obtain ⟨absent, distinct⟩ := List.nodup_cons.mp distinct
  constructor
  · exact valid.ring
  · have outside : (Worker.running cmd).inside = true → (s.workers worker).inside = true := nofun
    intro one two first second
    exact valid.setWorker_solo outside first second
  · intro other item enqueue there
    by_cases same : other = worker
    · subst same
      rw [setWorker_same] at there
      cases there
    · rw [setWorker_other _ _ same] at there
      exact valid.enqueuing there
  · exact valid.dequeuing
  · exact valid.waiting
  · exact valid.once
  · refine valid.placed.move was (fun {other at_} located => ?_) valid.placed.distinct fun other => ?_
    · cases at_ with
      | worker one =>
        by_cases same : one = worker
        · subst same
          have held : (Worker.running cmd).holds = some other := by
            simpa only [Located, setWorker_same] using located
          cases held
          exact .inl ⟨rfl, rfl⟩
        · have held : ((s.setQueue worker rest).workers one).holds = some other := by
            simpa only [Located, setWorker_other _ _ same] using located
          exact .inr ⟨held, nofun⟩
      | queue box =>
        by_cases same : box = worker
        · subst same
          have member : other ∈ rest := by
            simpa only [Located, setWorker, setQueue_same] using located
          refine .inr ⟨?_, ?_⟩
          · show other ∈ s.queues box
            rw [lined]
            exact List.mem_cons_of_mem cmd member
          · rintro ⟨rfl, _⟩
            exact absent member
        · have member : other ∈ s.queues box := by
            simpa only [Located, setWorker, setQueue_other _ _ same] using located
          refine .inr ⟨member, ?_⟩
          rintro ⟨_, ⟨⟩⟩
          exact same rfl
      | free | sender | ring => exact .inr ⟨located, nofun⟩
    · show ((s.setQueue worker rest).queues other).Nodup
      by_cases same : other = worker
      · subst same
        rw [setQueue_same]
        exact distinct
      · rw [setQueue_other _ _ same]
        exact valid.placed.lined other

theorem Placed.setWorker {state : Worker} (placed : s.Placed cached place)
    (holds : state.holds = (s.workers worker).holds) : (s.setWorker worker state).Placed cached place := by
  refine placed.stay (fun {cmd at_} located => ?_) rfl
  cases at_ with
  | worker other =>
    by_cases same : other = worker
    · subst same
      have held : state.holds = some cmd := by simpa only [Located, setWorker_same] using located
      exact holds.symm.trans held
    · simpa only [Located, setWorker_other _ _ same] using located
  | free | queue | sender | ring => exact located

theorem Valid.recycle (valid : s.Valid all taken place) (running : s.workers worker = .running cmd)
    (alone : ∀ other, (s.workers other).inside = false) :
    (s.setWorker worker (.enqueuing cmd .loadHead)).Valid all taken place := by
  have only {other : Nat} (inside : ((s.setWorker worker (.enqueuing cmd .loadHead)).workers other).inside = true) :
      other = worker := by
    by_contra different
    rw [setWorker_other _ _ different, alone] at inside
    cases inside
  constructor
  · exact valid.ring
  · exact fun first second => (only first).trans (only second).symm
  · intro other item enqueue there
    have same := only (by rw [there]; rfl)
    subst same
    rw [setWorker_same] at there
    cases there
    trivial
  · exact valid.dequeuing
  · exact valid.waiting
  · exact valid.once
  · exact valid.placed.setWorker (by rw [running]; rfl)

/-- A step of `spsc_dequeue` takes nothing away from what the thread in `spsc_enqueue` knows. -/
theorem dequeue_leaves {enqueue : Enqueue} {dequeue : Dequeue} {queue : SpscQueue} {later data : Nat}
    (knows : enqueue.Knows data queue all taken) (more : taken ≤ later) :
    enqueue.Knows data (dequeue.step queue).2 all later := by
  have head : (dequeue.step queue).2.head = queue.head := by cases dequeue <;> rfl
  have cachedTail : (dequeue.step queue).2.cachedTail = queue.cachedTail := by cases dequeue <;> rfl
  have cap : (dequeue.step queue).2.cap = queue.cap := by cases dequeue <;> rfl
  have slots : (dequeue.step queue).2.slots = queue.slots := by cases dequeue <;> rfl
  unfold Enqueue.Knows at knows ⊢
  rw [head, cachedTail, cap, slots]
  match enqueue, knows with
  | .loadHead, _ => trivial
  | .loadCached _, here => exact here
  | .loadTail _, here => exact here
  | .checkCached _, here => exact here
  | .storeCached _ _, ⟨here, seen, before, loaded, near⟩ => exact ⟨here, seen, before.trans more, loaded, near⟩
  | .storeSlot _, ⟨here, seen, before, cached, fits⟩ => exact ⟨here, seen, before.trans more, cached, fits⟩
  | .storeHead _, ⟨here, ⟨seen, before, cached, fits⟩, stored⟩ =>
    exact ⟨here, ⟨seen, before.trans more, cached, fits⟩, stored⟩

/-- A step of `spsc_enqueue` takes nothing away from what the thread in `spsc_dequeue` knows. -/
theorem enqueue_leaves {enqueue : Enqueue} {dequeue : Dequeue} {queue : SpscQueue} {more : List Nat} {data : Nat}
    (knows : dequeue.Knows queue all taken) : dequeue.Knows (enqueue.step data queue).2 (all ++ more) taken := by
  have tail : (enqueue.step data queue).2.tail = queue.tail := by cases enqueue <;> rfl
  have cachedHead : (enqueue.step data queue).2.cachedHead = queue.cachedHead := by cases enqueue <;> rfl
  have cap : (enqueue.step data queue).2.cap = queue.cap := by cases enqueue <;> rfl
  have longer {seen : Nat} (within : seen ≤ all.length) : seen ≤ (all ++ more).length := by
    rw [List.length_append]
    omega
  unfold Dequeue.Knows at knows ⊢
  rw [tail, cachedHead, cap]
  match dequeue, knows with
  | .loadTail, _ => trivial
  | .loadCached _, here => exact here
  | .loadHead _, here => exact here
  | .checkCached _, here => exact here
  | .storeCached _ _, ⟨here, seen, after, within, loaded⟩ => exact ⟨here, seen, after, longer within, loaded⟩
  | .loadSlot _, ⟨here, seen, after, within, cached⟩ => exact ⟨here, seen, after, longer within, cached⟩
  | .storeTail _ _, ⟨here, ⟨seen, after, within, cached⟩, found⟩ =>
    refine ⟨here, ⟨seen, after, longer within, cached⟩, ?_⟩
    rw [List.getElem?_append_left (by omega)]
    exact found

theorem Valid.dequeue {dequeue : Dequeue} (valid : s.Valid all taken place) (there : s.sender = .dequeuing dequeue) :
    ∃ taken place, (s.dequeue dequeue).Valid all taken place := by
  have outcome := valid.ring.dequeue (valid.dequeuing there)
  have elsewhere (sender : Sender) (apart : ∀ cmd, sender ≠ .sending cmd) (cache : SpscQueue) :
      ({ s with cache, sender } : Pool).Placed (all.drop taken) place := by
    refine valid.placed.stay (fun {cmd at_} located => ?_) rfl
    cases at_ with
    | sender => exact absurd located (apart cmd)
    | free | queue | worker | ring => exact located
  unfold Pool.dequeue Dequeue.Outcome at *
  generalize result : dequeue.step s.cache = after at outcome ⊢
  have leaves {enqueue : Enqueue} {data later : Nat} (knows : enqueue.Knows data s.cache all taken)
      (more : taken ≤ later) : enqueue.Knows data after.2 all later := result ▸ dequeue_leaves knows more
  obtain ⟨next, cache⟩ := after
  match next, outcome with
  | .inl dequeue, ⟨ring, knows⟩ =>
    refine ⟨taken, place, ring, valid.solo, ?_, ?_, valid.waiting, valid.once,
      elsewhere (.dequeuing dequeue) nofun cache⟩
    · exact fun inside => leaves (valid.enqueuing inside) (Nat.le_refl taken)
    · rintro dequeue ⟨⟩
      exact knows
  | .inr none, ring =>
    refine ⟨taken, place, ring, valid.solo, ?_, nofun, valid.waiting, valid.once,
      elsewhere .allocating nofun cache⟩
    exact fun inside => leaves (valid.enqueuing inside) (Nat.le_refl taken)
  | .inr (some cmd), ⟨ring, found⟩ =>
    have first : all.drop taken = cmd :: all.drop (taken + 1) := by
      obtain ⟨inside, cmd_eq⟩ := List.getElem?_eq_some_iff.mp found
      rw [List.drop_eq_getElem_cons inside, cmd_eq]
    have was : s.Located (all.drop taken) cmd .ring := by
      show cmd ∈ all.drop taken
      rw [first]
      exact List.mem_cons_self
    obtain ⟨absent, distinct⟩ := List.nodup_cons.mp (first ▸ valid.placed.distinct)
    have later {item : Nat} : item ∈ all.drop taken ↔ item = cmd ∨ item ∈ all.drop (taken + 1) := by
      rw [first, List.mem_cons]
    refine ⟨taken + 1, Function.update place cmd .sender, ring, valid.solo, ?_, nofun, ?_, ?_, ?_⟩
    · exact fun inside => leaves (valid.enqueuing inside) (Nat.le_succ taken)
    · intro item
      by_cases same : item = cmd
      · subst same
        exact iff_of_false (not_cached_dequeued _ _) absent
      · rw [cached_other (by simpa [CacheEvent.cmd] using Ne.symm same), valid.waiting, later]
        simp [same]
    · exact valid.once.dequeued ((valid.waiting cmd).mpr was)
    · refine valid.placed.move was (fun {other at_} located => ?_) distinct valid.placed.lined
      cases at_ with
      | sender =>
        cases located
        exact .inl ⟨rfl, rfl⟩
      | ring =>
        refine .inr ⟨later.mpr (.inr located), ?_⟩
        rintro ⟨rfl, _⟩
        exact absent located
      | free | queue | worker => exact .inr ⟨located, nofun⟩

theorem Valid.alone {state : Worker} {other item : Nat} {enqueue : Enqueue} (valid : s.Valid all taken place)
    (here : (s.workers worker).inside = true)
    (inside : (s.setWorker worker state).workers other = .enqueuing item enqueue) : state = .enqueuing item enqueue := by
  by_cases same : other = worker
  · rw [same, setWorker_same] at inside
    exact inside
  · rw [setWorker_other _ _ same] at inside
    exact absurd (valid.solo (by rw [inside]; rfl) here) same

theorem idle_located {one item : Nat} (located : (s.setWorker worker .idle).Located cached item (.worker one)) :
    s.Located cached item (.worker one) ∧ ¬(item = cmd ∧ Place.worker one = .worker worker) := by
  have held : ((s.setWorker worker .idle).workers one).holds = some item := located
  by_cases same : one = worker
  · rw [same, setWorker_same] at held
    cases held
  · rw [setWorker_other _ _ same] at held
    refine ⟨held, ?_⟩
    rintro ⟨_, ⟨⟩⟩
    exact same rfl

theorem Placed.enqueued (placed : s.Placed cached place) (was : s.Located cached cmd (.worker worker)) :
    (s.setWorker worker .idle).Placed (cached ++ [cmd]) (Function.update place cmd .ring) := by
  have fresh : cmd ∉ cached := by
    intro member
    have inRing : s.Located cached cmd .ring := member
    exact nomatch (placed.located inRing).symm.trans (placed.located was)
  refine placed.move was (fun {other at_} located => ?_) ?_ placed.lined
  · cases at_ with
    | worker one => exact .inr (idle_located located)
    | ring =>
      rcases List.mem_append.mp located with member | last
      · exact .inr ⟨member, nofun⟩
      · exact .inl ⟨List.mem_singleton.mp last, rfl⟩
    | free | queue | sender => exact .inr ⟨located, nofun⟩
  · exact placed.distinct.append (List.nodup_singleton cmd) (List.disjoint_singleton.mpr fresh)

theorem Placed.freed (placed : s.Placed cached place) (was : s.Located cached cmd (.worker worker)) :
    ((s.setWorker worker .idle).setUsed cmd false).Placed cached (Function.update place cmd .free) := by
  refine placed.move was (fun {other at_} located => ?_) placed.distinct placed.lined
  cases at_ with
  | worker one => exact .inr (idle_located located)
  | free =>
    have unused : (if other = cmd then false else s.used other) = false := located
    split at unused
    next same => exact .inl ⟨same, rfl⟩
    next different => exact .inr ⟨unused, nofun⟩
  | ring | queue | sender => exact .inr ⟨located, nofun⟩

theorem Valid.enqueue {enqueue : Enqueue} (valid : s.Valid all taken place)
    (there : s.workers worker = .enqueuing cmd enqueue) :
    ∃ all place, (s.enqueue worker cmd enqueue).Valid all taken place := by
  have outcome := valid.ring.enqueue (valid.enqueuing there)
  have here : (s.workers worker).inside = true := by rw [there]; rfl
  have was : s.Located (all.drop taken) cmd (.worker worker) := by
    show (s.workers worker).holds = some cmd
    rw [there]
    rfl
  have outside : Worker.idle.inside = true → (s.workers worker).inside = true := nofun
  unfold Pool.enqueue Enqueue.Outcome at *
  generalize result : enqueue.step cmd s.cache = after at outcome ⊢
  have leaves {dequeue : Dequeue} (more : List Nat) (knows : dequeue.Knows s.cache all taken) :
      dequeue.Knows after.2 (all ++ more) taken := result ▸ enqueue_leaves knows
  obtain ⟨next, cache⟩ := after
  match next, outcome with
  | .inl enqueue, ⟨ring, knows⟩ =>
    refine ⟨all, place, ring, valid.setWorker_solo fun _ => here, ?_, ?_, valid.waiting, valid.once, ?_⟩
    · intro other item enqueue' inside
      cases valid.alone here inside
      exact knows
    · intro dequeue dequeuing
      simpa using leaves [] (valid.dequeuing dequeuing)
    · have placed : (s.setWorker worker (.enqueuing cmd enqueue)).Placed (all.drop taken) place :=
        valid.placed.setWorker (by rw [there]; rfl)
      exact ⟨placed.located, placed.distinct, placed.lined⟩
  | .inr true, ring =>
    have drop : (all ++ [cmd]).drop taken = all.drop taken ++ [cmd] :=
      List.drop_append_of_le_length valid.ring.taken_le
    refine ⟨all ++ [cmd], Function.update place cmd .ring, ring, valid.setWorker_solo outside, ?_, ?_, ?_, ?_, ?_⟩
    · exact fun inside => nomatch valid.alone here inside
    · exact fun dequeuing => leaves [cmd] (valid.dequeuing dequeuing)
    · intro item
      rw [drop]
      by_cases same : item = cmd
      · subst same
        exact iff_of_true (cached_enqueued _ _) (by simp)
      · rw [cached_other (by simpa [CacheEvent.cmd] using Ne.symm same), valid.waiting]
        simp [same]
    · exact valid.once.enqueued cmd
    · have placed := valid.placed.enqueued was
      rw [drop]
      exact ⟨placed.located, placed.distinct, placed.lined⟩
  | .inr false, ring =>
    have placed := valid.placed.freed was
    refine ⟨all, Function.update place cmd .free, ring, valid.setWorker_solo outside, ?_, ?_, valid.waiting, valid.once,
      placed.located, placed.distinct, placed.lined⟩
    · exact fun inside => nomatch valid.alone here inside
    · intro dequeue dequeuing
      simpa using leaves [] (valid.dequeuing dequeuing)

theorem Valid.initial {cap : Nat} (positive : 0 < cap) : ({ cache := { cap } } : Pool).Valid [] 0 fun _ => .free := by
  constructor
  · constructor
    · exact positive
    · exact (Nat.zero_mod cap).symm
    · exact (Nat.zero_mod cap).symm
    · exact Nat.le_refl 0
    · simpa using positive
    · exact nofun
    · exact ⟨0, Nat.le_refl 0, (Nat.zero_mod cap).symm, by simpa using positive⟩
    · exact ⟨0, Nat.le_refl 0, Nat.le_refl 0, (Nat.zero_mod cap).symm⟩
  · exact nofun
  · exact nofun
  · exact nofun
  · intro cmd
    simp [Cached]
  · intro cmd before between after split
    simp at split
  · refine ⟨fun {cmd at_} located => ?_, List.nodup_nil, fun _ => List.nodup_nil⟩
    cases at_ <;> first | rfl | cases located

/-- Every step of a thread keeps the cache valid, if workers enter `spsc_enqueue` one at a time. -/
theorem Valid.step {event : PoolStep} (valid : s.Valid all taken place) (alone : oneAtATime s event)
    (stepped : s.step event = some after) : ∃ all taken place, after.Valid all taken place := by
  unfold Pool.step at stepped
  cases event with
  | defer =>
    obtain ⟨_, stepped⟩ := Option.ite_none_right_eq_some.mp stepped
    cases stepped
    exact ⟨all, taken, place, valid.defer⟩
  | dequeue =>
    cases there : s.sender with
    | dequeuing dequeue =>
      simp only [there, Option.some.injEq] at stepped
      exact stepped ▸ ⟨all, valid.dequeue there⟩
    | outside | allocating => simp [there] at stepped
    | sending cmd => simp [there] at stepped
  | allocate address =>
    obtain ⟨⟨_, free⟩, stepped⟩ := Option.ite_none_right_eq_some.mp stepped
    cases stepped
    exact ⟨all, taken, _, valid.allocate free⟩
  | send worker =>
    cases there : s.sender with
    | sending cmd =>
      simp only [there, Option.some.injEq] at stepped
      exact stepped ▸ ⟨all, taken, _, valid.send there⟩
    | outside | allocating => simp [there] at stepped
    | dequeuing dequeue => simp [there] at stepped
  | run worker =>
    cases there : s.workers worker with
    | idle =>
      cases lined : s.queues worker with
      | nil => simp [there, lined] at stepped
      | cons cmd rest =>
        simp only [there, lined, Option.some.injEq] at stepped
        exact stepped ▸ ⟨all, taken, _, valid.run lined⟩
    | running cmd => simp [there] at stepped
    | enqueuing cmd enqueue => simp [there] at stepped
  | recycle worker =>
    cases there : s.workers worker with
    | running cmd =>
      simp only [there, Option.some.injEq] at stepped
      exact stepped ▸ ⟨all, taken, place, valid.recycle there (alone worker rfl)⟩
    | idle => simp [there] at stepped
    | enqueuing cmd enqueue => simp [there] at stepped
  | enqueue worker =>
    cases there : s.workers worker with
    | enqueuing cmd enqueue =>
      simp only [there, Option.some.injEq] at stepped
      obtain ⟨all, place, kept⟩ := valid.enqueue there
      exact stepped ▸ ⟨all, taken, place, kept⟩
    | idle => simp [there] at stepped
    | running cmd => simp [there] at stepped

end Pool

/-- In every run in which workers enter `spsc_enqueue` one at a time, no command is returned twice without being
enqueued in between, and every command that was enqueued is in the ring until it is dequeued. -/
theorem commands_recycled {cap : Nat} (positive : 0 < cap) {s : Pool}
    (reached : Reaches Pool.step oneAtATime { cache := { cap } } s) : s.Recycles := by
  obtain ⟨all, taken, place, valid⟩ : ∃ all taken place, s.Valid all taken place := by
    apply reached.invariant
    · exact ⟨[], 0, _, Pool.Valid.initial positive⟩
    · rintro before after event ⟨all, taken, place, valid⟩ alone stepped
      exact valid.step alone stepped
  exact valid.recycles

def firstCommand (address worker : Nat) : List PoolStep :=
  [.defer, .dequeue, .dequeue, .dequeue, .dequeue, .dequeue, .allocate address, .send worker, .run worker]

def PoolStep.recycles : PoolStep → Bool
  | .recycle _ => true
  | _ => false

def quietly (s : Pool) (events : List PoolStep) : Option Pool :=
  Runs.run Pool.step (fun _ event => event.recycles = false) s events

/-- A worker enters `spsc_enqueue`, and nobody else does in what follows. -/
def recycling (worker : Nat) (events : List PoolStep) (s : Pool) : Option Pool :=
  (s.step (.recycle worker)).bind fun s => quietly s events

theorem oneAtATime_of_not_recycles (s : Pool) (event : PoolStep) (quiet : event.recycles = false) : oneAtATime s event := by
  rintro worker rfl
  cases quiet

theorem recycling_reached {start before after : Pool} {worker : Nat} {events : List PoolStep}
    (reached : Reaches Pool.step oneAtATime start before) (alone : ∀ other, (before.workers other).inside = false)
    (taken : recycling worker events before = some after) : Reaches Pool.step oneAtATime start after := by
  obtain ⟨entered, first, rest⟩ := Option.bind_eq_some_iff.mp taken
  exact (Reaches.step reached (fun _ _ => alone) first).run oneAtATime_of_not_recycles rest

def ranCommands : Option Pool := quietly { cache := { cap := 64 } } (firstCommand 1 0 ++ firstCommand 2 1)

def recycledFirst : Option Pool := ranCommands.bind (recycling 0 (List.replicate 4 (.enqueue 0)))

/-- Two workers return a command each, and the sender takes both of them. -/
def reused : Option Pool :=
  recycledFirst.bind (recycling 1 (List.replicate 4 (.enqueue 1) ++ .defer :: List.replicate 7 .dequeue ++
    .send 0 :: .defer :: List.replicate 4 .dequeue))

theorem commands_recycled_reuse :
    ∃ s, reused = some s ∧ s.log = [.enqueued 1, .enqueued 2, .dequeued 1, .dequeued 2] ∧ s.Recycles := by
  have ended : reused.map (·.log) = some [.enqueued 1, .enqueued 2, .dequeued 1, .dequeued 2] := by decide +kernel
  obtain ⟨s, taken, log⟩ := Option.map_eq_some_iff.mp ended
  obtain ⟨middle, first, second⟩ := Option.bind_eq_some_iff.mp taken
  obtain ⟨before, ran, entered⟩ := Option.bind_eq_some_iff.mp first
  have alone : ∀ other, ranCommands.map (fun s => (s.workers other).inside) = some false
    | 0 | 1 => by decide +kernel
    | _ + 2 => rfl
  have alone' : ∀ other, recycledFirst.map (fun s => (s.workers other).inside) = some false
    | 0 | 1 => by decide +kernel
    | _ + 2 => rfl
  rw [ran] at alone
  rw [first] at alone'
  simp only [Option.map_some, Option.some.injEq] at alone alone'
  have reached := recycling_reached (Reaches.start.run oneAtATime_of_not_recycles ran) alone entered
  exact ⟨s, taken, log, commands_recycled (by decide) (recycling_reached reached alone' second)⟩

/-- Two workers are in `spsc_enqueue` at the same time and load the same head. -/
def collision : List PoolStep :=
  firstCommand 1 0 ++ firstCommand 2 1 ++ [.recycle 0, .recycle 1, .enqueue 0, .enqueue 1] ++
    [.enqueue 0, .enqueue 0, .enqueue 0, .enqueue 1, .enqueue 1, .enqueue 1]

/-- Both report success, and the second command has overwritten the first one. -/
theorem commands_recycled_collision :
    ∃ s, Runs.run Pool.step (fun _ _ => True) { cache := { cap := 64 } } collision = some s ∧
      s.log = [.enqueued 1, .enqueued 2] ∧ s.cache.contents = [2] ∧ ¬s.Recycles := by
  have ran : (Runs.run Pool.step (fun _ _ => True) { cache := { cap := 64 } } collision).map
      (fun s => (s.log, s.cache.contents)) = some ([.enqueued 1, .enqueued 2], [2]) := by
    decide +kernel
  obtain ⟨s, taken, seen⟩ := Option.map_eq_some_iff.mp ran
  obtain ⟨log, contents⟩ := Prod.mk.inj seen
  refine ⟨s, taken, log, contents, fun recycles => ?_⟩
  have waiting : Cached s.log 1 := by
    rw [log]
    rfl
  have kept := recycles.kept 1 waiting
  rw [contents] at kept
  simp at kept

end Evhtp
