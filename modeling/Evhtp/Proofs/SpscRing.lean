import Evhtp.CommandCache
import Mathlib.Data.Nat.ModEq

/-! The ring of spsc_queue.h, with one thread at a time in `spsc_enqueue` and one in `spsc_dequeue`. Head and tail
count the calls that succeeded, modulo the capacity; the copies each side keeps of the other's counter lag behind. -/

namespace Evhtp

/-- A ring into which `all` was enqueued, and from which the first `taken` were dequeued. -/
structure Ring (queue : SpscQueue) (all : List Nat) (taken : Nat) : Prop where
  positive : 0 < queue.cap
  head : queue.head = all.length % queue.cap
  tail : queue.tail = taken % queue.cap
  taken_le : taken ≤ all.length
  room : all.length < taken + queue.cap
  slots : ∀ {i}, taken ≤ i → i < all.length → all[i]? = some (queue.slots (i % queue.cap))
  cachedTail : ∃ seen, seen ≤ taken ∧ queue.cachedTail = seen % queue.cap ∧ all.length < seen + queue.cap
  cachedHead : ∃ seen, taken ≤ seen ∧ seen ≤ all.length ∧ queue.cachedHead = seen % queue.cap

def Enqueue.Knows (enqueue : Enqueue) (data : Nat) (queue : SpscQueue) (all : List Nat) (taken : Nat) : Prop :=
  let free := ∃ seen, seen ≤ taken ∧ queue.cachedTail = seen % queue.cap ∧ all.length + 1 < seen + queue.cap
  match enqueue with
  | .loadHead => True
  | .loadCached head | .loadTail head | .checkCached head => head = queue.head
  | .storeCached head tail =>
    head = queue.head ∧ ∃ seen, seen ≤ taken ∧ tail = seen % queue.cap ∧ all.length < seen + queue.cap
  | .storeSlot head => head = queue.head ∧ free
  | .storeHead head => head = queue.head ∧ free ∧ queue.slots head = data

def Dequeue.Knows (dequeue : Dequeue) (queue : SpscQueue) (all : List Nat) (taken : Nat) : Prop :=
  let present := ∃ seen, taken < seen ∧ seen ≤ all.length ∧ queue.cachedHead = seen % queue.cap
  match dequeue with
  | .loadTail => True
  | .loadCached tail | .loadHead tail | .checkCached tail => tail = queue.tail
  | .storeCached tail head =>
    tail = queue.tail ∧ ∃ seen, taken ≤ seen ∧ seen ≤ all.length ∧ head = seen % queue.cap
  | .loadSlot tail => tail = queue.tail ∧ present
  | .storeTail tail data => tail = queue.tail ∧ present ∧ all[taken]? = some data

variable {queue : SpscQueue} {all : List Nat} {taken data : Nat}

theorem SpscQueue.next_mod (positive : 0 < queue.cap) (count : Nat) :
    queue.next (count % queue.cap) = (count + 1) % queue.cap := by
  have below := Nat.mod_lt count positive
  unfold next
  rw [← Nat.mod_add_mod]
  split
  next last => rw [last, Nat.mod_self]
  next inside => exact (Nat.mod_eq_of_lt (by omega)).symm

/-- Counters less than the capacity apart have different indices. -/
theorem mod_ne_of_window {low high cap : Nat} (less : low < high) (near : high < low + cap) : low % cap ≠ high % cap := by
  intro same
  have divides : cap ∣ high - low := (Nat.modEq_iff_dvd' less.le).mp same
  exact absurd (Nat.le_of_dvd (by omega) divides) (by omega)

namespace Ring

variable (ring : Ring queue all taken)
include ring

theorem free (differs : queue.next queue.head ≠ queue.cachedTail) :
    ∃ seen, seen ≤ taken ∧ queue.cachedTail = seen % queue.cap ∧ all.length + 1 < seen + queue.cap := by
  obtain ⟨seen, before, cached, near⟩ := ring.cachedTail
  refine ⟨seen, before, cached, ?_⟩
  by_contra full
  have edge : all.length + 1 = seen + queue.cap := by omega
  apply differs
  rw [ring.head, SpscQueue.next_mod ring.positive, edge, cached]
  exact Nat.add_mod_right seen queue.cap

theorem present (differs : queue.tail ≠ queue.cachedHead) :
    ∃ seen, taken < seen ∧ seen ≤ all.length ∧ queue.cachedHead = seen % queue.cap := by
  obtain ⟨seen, after, within, cached⟩ := ring.cachedHead
  refine ⟨seen, Nat.lt_of_le_of_ne after ?_, within, cached⟩
  rintro rfl
  exact differs (ring.tail.trans cached.symm)

theorem storeSlot (fits : all.length + 1 < taken + queue.cap) :
    Ring { queue with slots := fun i => if i = queue.head then data else queue.slots i } all taken where
  positive := ring.positive
  head := ring.head
  tail := ring.tail
  taken_le := ring.taken_le
  room := ring.room
  slots {i} after before := by
    have different : i % queue.cap ≠ queue.head := by
      rw [ring.head]
      exact mod_ne_of_window before (by omega)
    simpa [different] using ring.slots after before
  cachedTail := ring.cachedTail
  cachedHead := ring.cachedHead

theorem storeHead (stored : queue.slots queue.head = data)
    (free : ∃ seen, seen ≤ taken ∧ queue.cachedTail = seen % queue.cap ∧ all.length + 1 < seen + queue.cap) :
    Ring { queue with head := queue.next queue.head } (all ++ [data]) taken where
  positive := ring.positive
  head := by
    show queue.next queue.head = _
    rw [ring.head, SpscQueue.next_mod ring.positive, List.length_append, List.length_singleton]
  tail := ring.tail
  taken_le := by
    have within := ring.taken_le
    simp only [List.length_append, List.length_singleton]
    omega
  room := by
    obtain ⟨seen, before, _, fits⟩ := free
    simp only [List.length_append, List.length_singleton]
    omega
  slots {i} after before := by
    rw [List.length_append, List.length_singleton] at before
    by_cases old : i < all.length
    · rw [List.getElem?_append_left old]
      exact ring.slots after old
    · have last : i = all.length := by omega
      subst last
      simp [← stored, ring.head]
  cachedTail := by
    obtain ⟨seen, before, cached, fits⟩ := free
    exact ⟨seen, before, cached, by simpa using fits⟩
  cachedHead := by
    obtain ⟨seen, after, within, cached⟩ := ring.cachedHead
    exact ⟨seen, after, by simp only [List.length_append, List.length_singleton]; omega, cached⟩

theorem storeTail
    (present : ∃ seen, taken < seen ∧ seen ≤ all.length ∧ queue.cachedHead = seen % queue.cap) :
    Ring { queue with tail := queue.next queue.tail } all (taken + 1) where
  positive := ring.positive
  head := ring.head
  tail := by
    show queue.next queue.tail = _
    rw [ring.tail, SpscQueue.next_mod ring.positive]
  taken_le := by
    obtain ⟨seen, after, within, _⟩ := present
    omega
  room := by
    have room := ring.room
    show all.length < taken + 1 + queue.cap
    omega
  slots {i} after before := ring.slots (by omega) before
  cachedTail := by
    obtain ⟨seen, before, cached, near⟩ := ring.cachedTail
    exact ⟨seen, by omega, cached, near⟩
  cachedHead := present

theorem contents : queue.contents = all.drop taken := by
  have within := ring.taken_le
  have near : all.length - taken < queue.cap := by
    have room := ring.room
    omega
  have count : (queue.head + queue.cap - queue.tail) % queue.cap = all.length - taken := by
    have tail_lt := Nat.mod_lt taken ring.positive
    have ahead : all.length % queue.cap = (taken % queue.cap + (all.length - taken)) % queue.cap := by
      rw [Nat.mod_add_mod, Nat.add_sub_cancel' within]
    rw [ring.head, ring.tail, ahead]
    generalize taken % queue.cap = tail at tail_lt
    generalize all.length - taken = count at near
    by_cases wraps : tail + count < queue.cap
    · have before : tail + count + queue.cap - tail = count + queue.cap := by omega
      rw [Nat.mod_eq_of_lt wraps, before, Nat.add_mod_right, Nat.mod_eq_of_lt near]
    · have after : tail + count - queue.cap + queue.cap - tail = count := by omega
      have wrapped : (tail + count) % queue.cap = tail + count - queue.cap := by
        rw [Nat.mod_eq_sub_mod (by omega), Nat.mod_eq_of_lt (by omega)]
      rw [wrapped, after, Nat.mod_eq_of_lt near]
  unfold SpscQueue.contents
  rw [count]
  apply List.ext_getElem?
  intro i
  rw [List.getElem?_map, List.getElem?_drop]
  by_cases inside : i < all.length - taken
  · rw [List.getElem?_range inside, ring.slots (Nat.le_add_right taken i) (by omega), ring.tail, Option.map_some,
      Nat.mod_add_mod]
  · rw [List.getElem?_eq_none (by simpa using inside), List.getElem?_eq_none (by omega)]
    rfl

end Ring

def Enqueue.Outcome (data : Nat) (all : List Nat) (taken : Nat) (after : (Enqueue ⊕ Bool) × SpscQueue) : Prop :=
  match after.1 with
  | .inl enqueue => Ring after.2 all taken ∧ enqueue.Knows data after.2 all taken
  | .inr true => Ring after.2 (all ++ [data]) taken
  | .inr false => Ring after.2 all taken

theorem Ring.enqueue {enqueue : Enqueue} (ring : Ring queue all taken) (knows : enqueue.Knows data queue all taken) :
    Enqueue.Outcome data all taken (enqueue.step data queue) := by
  cases enqueue with
  | loadHead => exact ⟨ring, rfl⟩
  | loadCached head =>
    obtain rfl : head = queue.head := knows
    by_cases full : queue.next queue.head = queue.cachedTail
    · simp [Enqueue.step, full, Enqueue.Outcome, Enqueue.Knows, ring]
    · simpa [Enqueue.step, full, Enqueue.Outcome, Enqueue.Knows, ring] using ring.free full
  | loadTail head => exact ⟨ring, knows, taken, Nat.le_refl _, ring.tail, ring.room⟩
  | storeCached head tail =>
    obtain ⟨here, seen, before, loaded, near⟩ := knows
    exact ⟨{ ring with cachedTail := ⟨seen, before, loaded, near⟩ }, here⟩
  | checkCached head =>
    obtain rfl : head = queue.head := knows
    by_cases full : queue.next queue.head = queue.cachedTail
    · simp [Enqueue.step, full, Enqueue.Outcome, ring]
    · simpa [Enqueue.step, full, Enqueue.Outcome, Enqueue.Knows, ring] using ring.free full
  | storeSlot head =>
    obtain ⟨rfl, seen, before, cached, fits⟩ := knows
    exact ⟨ring.storeSlot (by omega), rfl, ⟨seen, before, cached, fits⟩, if_pos rfl⟩
  | storeHead head =>
    obtain ⟨rfl, free, stored⟩ := knows
    exact ring.storeHead stored free

def Dequeue.Outcome (all : List Nat) (taken : Nat) (after : (Dequeue ⊕ Option Nat) × SpscQueue) : Prop :=
  match after.1 with
  | .inl dequeue => Ring after.2 all taken ∧ dequeue.Knows after.2 all taken
  | .inr (some data) => Ring after.2 all (taken + 1) ∧ all[taken]? = some data
  | .inr none => Ring after.2 all taken

theorem Ring.dequeue {dequeue : Dequeue} (ring : Ring queue all taken) (knows : dequeue.Knows queue all taken) :
    Dequeue.Outcome all taken (dequeue.step queue) := by
  cases dequeue with
  | loadTail => exact ⟨ring, rfl⟩
  | loadCached tail =>
    obtain rfl : tail = queue.tail := knows
    by_cases empty : queue.tail = queue.cachedHead
    · simp [Dequeue.step, empty, Dequeue.Outcome, Dequeue.Knows, ring]
    · simpa [Dequeue.step, empty, Dequeue.Outcome, Dequeue.Knows, ring] using ring.present empty
  | loadHead tail => exact ⟨ring, knows, all.length, ring.taken_le, Nat.le_refl _, ring.head⟩
  | storeCached tail head =>
    obtain ⟨here, seen, after, within, loaded⟩ := knows
    exact ⟨{ ring with cachedHead := ⟨seen, after, within, loaded⟩ }, here⟩
  | checkCached tail =>
    obtain rfl : tail = queue.tail := knows
    by_cases empty : queue.tail = queue.cachedHead
    · simp [Dequeue.step, empty, Dequeue.Outcome, ring]
    · simpa [Dequeue.step, empty, Dequeue.Outcome, Dequeue.Knows, ring] using ring.present empty
  | loadSlot tail =>
    obtain ⟨rfl, seen, after, within, cached⟩ := knows
    refine ⟨ring, rfl, ⟨seen, after, within, cached⟩, ?_⟩
    rw [ring.tail]
    exact ring.slots (Nat.le_refl _) (by omega)
  | storeTail tail data =>
    obtain ⟨rfl, present, found⟩ := knows
    exact ⟨ring.storeTail present, found⟩

end Evhtp
