import Evhtp.Thread
import Evhtp.Lib.Links

/-! The shape of the queue of mpsc-queue.h. Its nodes form a chain from the tail to the head in which each link is
either stored or about to be stored by the thread that inserted the later node. -/

namespace Evhtp
open Links

/-- The nodes of a queue in the order of their insertion; `linking` are the links still to be stored. -/
structure Shape (queue : MpscQueue) (linking : QueueNode → QueueNode → Prop) (chain : List QueueNode) : Prop where
  tail : chain.head? = some queue.tail
  head : chain.getLast? = some queue.head
  distinct : chain.Nodup
  last : queue.next queue.head = none
  linked : ∀ {first second}, Adjacent chain first second → queue.next first = some second ∨ linking first second
  pending : ∀ {first second}, linking first second → Adjacent chain first second ∧ queue.next first = none

variable {queue : MpscQueue} {linking other : QueueNode → QueueNode → Prop} {chain : List QueueNode}
  {node first second : QueueNode}

@[simp] theorem MpscQueue.storeNext_same (queue : MpscQueue) (node : QueueNode) (next : Option QueueNode) :
    (queue.storeNext node next).next node = next := by
  simp [storeNext]

theorem MpscQueue.storeNext_other (queue : MpscQueue) {node other : QueueNode} (next : Option QueueNode)
    (different : other ≠ node) : (queue.storeNext node next).next other = queue.next other := by
  simp [storeNext, different]

namespace Shape

variable (shape : Shape queue linking chain)
include shape

theorem tail_mem : queue.tail ∈ chain := List.mem_of_head? shape.tail

theorem head_mem : queue.head ∈ chain := List.mem_of_getLast? shape.head

theorem congr (same : ∀ first second, linking first second ↔ other first second) : Shape queue other chain where
  tail := shape.tail
  head := shape.head
  distinct := shape.distinct
  last := shape.last
  linked linked := (shape.linked linked).imp_right (same _ _).mp
  pending pending := shape.pending ((same _ _).mpr pending)

theorem clear (absent : node ∉ chain) : Shape (queue.storeNext node none) linking chain where
  tail := shape.tail
  head := shape.head
  distinct := shape.distinct
  last := (queue.storeNext_other none (ne_of_mem_of_not_mem shape.head_mem absent)).trans shape.last
  linked {first _} linked := by
    rw [queue.storeNext_other none (ne_of_mem_of_not_mem linked.left_mem absent)]
    exact shape.linked linked
  pending {first _} pending := by
    obtain ⟨linked, unset⟩ := shape.pending pending
    rw [queue.storeNext_other none (ne_of_mem_of_not_mem linked.left_mem absent)]
    exact ⟨linked, unset⟩

/-- The exchange of the head appends a node; the link to it is still to be stored. -/
theorem exchange (absent : node ∉ chain) (cleared : queue.next node = none) :
    Shape { queue with head := node } (fun first second => linking first second ∨ (first = queue.head ∧ second = node))
      (chain ++ [node]) where
  tail := by
    rw [List.head?_append, shape.tail]
    rfl
  head := List.getLast?_concat
  distinct := shape.distinct.append (List.nodup_singleton node) (List.disjoint_singleton.mpr absent)
  last := cleared
  linked linked := by
    rcases adjacent_concat.mp linked with linked | ⟨last, rfl⟩
    · exact (shape.linked linked).imp_right .inl
    · exact .inr (.inr ⟨Option.some.inj (last.symm.trans shape.head), rfl⟩)
  pending pending := by
    rcases pending with pending | ⟨rfl, rfl⟩
    · obtain ⟨linked, unset⟩ := shape.pending pending
      exact ⟨adjacent_concat.mpr (.inl linked), unset⟩
    · exact ⟨adjacent_concat.mpr (.inr ⟨shape.head, rfl⟩), shape.last⟩

theorem link (pending : linking first second) :
    Shape (queue.storeNext first (some second)) (fun before after => linking before after ∧ before ≠ first) chain where
  tail := shape.tail
  head := shape.head
  distinct := shape.distinct
  last := by
    have different : queue.head ≠ first := by
      intro same
      exact (shape.pending pending).1.ne_last shape.distinct (same ▸ shape.head)
    exact (queue.storeNext_other _ different).trans shape.last
  linked {before after} linked := by
    by_cases same : before = first
    · subst same
      rw [linked.right_unique shape.distinct (shape.pending pending).1]
      exact .inl (queue.storeNext_same _ _)
    · rw [queue.storeNext_other _ same]
      exact (shape.linked linked).imp_right fun waiting => ⟨waiting, same⟩
  pending := by
    rintro before after ⟨waiting, different⟩
    rw [queue.storeNext_other _ different]
    exact shape.pending waiting

/-- The first node, once it is linked to another one, is taken off. -/
theorem pass (next : queue.next queue.tail = some node) :
    ∃ rest, chain = queue.tail :: rest ∧ node ∈ rest ∧ Shape (queue.storeTail node) linking rest := by
  have more : chain ≠ [queue.tail] := by
    intro alone
    have same : queue.tail = queue.head := Option.some.inj (by simpa [alone] using shape.head)
    exact nomatch (same ▸ next).symm.trans shape.last
  obtain ⟨second, linked⟩ := adjacent_of_ne_singleton shape.tail more
  have second_eq : second = node := by
    rcases shape.linked linked with stored | pending
    · exact Option.some.inj (stored.symm.trans next)
    · exact nomatch (shape.pending pending).2.symm.trans next
  subst second_eq
  cases chain with
  | nil => exact absurd shape.tail nofun
  | cons item rest =>
    have item_eq : item = queue.tail := Option.some.inj shape.tail
    subst item_eq
    have distinct := shape.distinct
    obtain ⟨absent, restDistinct⟩ := List.nodup_cons.mp distinct
    have start : rest.head? = some second := by
      rcases adjacent_cons.mp linked with ⟨_, start⟩ | linked
      · exact start
      · exact absurd linked.left_mem absent
    refine ⟨rest, rfl, List.mem_of_head? start, ?_⟩
    exact {
      tail := start
      head := by
        have last := shape.head
        cases rest with
        | nil => cases start
        | cons next others => rwa [List.getLast?_cons_cons] at last
      distinct := restDistinct
      last := shape.last
      linked := fun linked => shape.linked (adjacent_cons.mpr (.inr linked))
      pending := by
        intro before after pending
        obtain ⟨linked, unset⟩ := shape.pending pending
        refine ⟨?_, unset⟩
        rcases adjacent_cons.mp linked with ⟨rfl, _⟩ | linked
        · exact nomatch unset.symm.trans next
        · exact linked }

theorem alone (next : queue.next queue.tail = none) (quiet : ∀ second, ¬linking queue.tail second) : chain = [queue.tail] := by
  by_contra more
  obtain ⟨second, linked⟩ := adjacent_of_ne_singleton shape.tail more
  rcases shape.linked linked with stored | pending
  · exact nomatch stored.symm.trans next
  · exact quiet second pending

end Shape

end Evhtp
