import DocetOS.DataStructures.HeapIndex
import DocetOS.Lib.PriorityQueue

/-!
# The heap is a bounded priority queue

With additions and top removals only, the heap stays ordered, so its root is a
minimum: every call is a call of the abstract queue that holds the nodes.

- `addNode_step`, `removeNode_step`: one call.
- `heap_refines_queue`: every run on a fresh heap.
-/

namespace DocetOS

open Lib

namespace MinHeap

/-- A call on a heap that is used as a queue. -/
inductive QueueCall where
  | addNode (elementToAdd valueToOrderBy : Nat)
  | removeNode

namespace QueueCall

/-- The heap after a call. -/
def next (heap : MinHeap) : QueueCall → MinHeap
  | .addNode x v => (heap.addNode x v).1
  | .removeNode => heap.removeNode.1

/-- The call with its status code, and with what `*_returnContent` is set to
when it is written. -/
def answer (heap : MinHeap) : QueueCall → PriorityQueue.Event MinHeapNode Nat
  | .addNode x v => .add ⟨x, v⟩ (decide ((heap.addNode x v).2 ≠ 0))
  | .removeNode => .removeMin heap.removeNode.2

end QueueCall

/-- The calls of the abstract queue of `n` nodes. -/
abbrev QueueStep (n : Nat) :
    Multiset MinHeapNode → PriorityQueue.Event MinHeapNode Nat → Multiset MinHeapNode → Prop :=
  PriorityQueue.Step MinHeapNode.nodeValue MinHeapNode.ptrToNodeContent n

variable {heap : MinHeap} {n : Nat}

@[simp] theorem card_nodes (heap : MinHeap) : heap.nodes.card = heap.currentNumNodes := by
  simp [nodes]

theorem nodes_eq_zero_iff : heap.nodes = 0 ↔ heap.currentNumNodes = 0 := by
  rw [← Multiset.card_eq_zero, card_nodes]

theorem removeNode_max (heap : MinHeap) :
    heap.removeNode.1.maxNumberOfNodes = heap.maxNumberOfNodes := by
  unfold removeNode
  split
  · rfl
  · exact heapDown_max heap 0

/-- `addNode` is refused exactly when the heap is full. -/
theorem addNode_status_eq_zero_iff (h : heap.WF) (x v : Nat) :
    (heap.addNode x v).2 = 0 ↔ heap.currentNumNodes = heap.maxNumberOfNodes := by
  constructor
  · intro hstatus
    by_contra hroom
    have hle := h.num_le
    rw [addNode_status h (by omega)] at hstatus
    exact absurd hstatus Nat.one_ne_zero
  · intro hfull
    rw [addNode_of_full h hfull]

/-- `removeNode` is refused exactly when the heap is empty. -/
theorem removeNode_eq_none_iff (h : heap.WF) :
    heap.removeNode.2 = none ↔ heap.currentNumNodes = 0 := by
  constructor
  · intro hnone
    by_contra hne
    rw [removeNode_eq h (Nat.pos_of_ne_zero hne)] at hnone
    cases hnone
  · intro hzero
    rw [removeNode_of_empty h hzero]

theorem addNode_step (h : heap.WF) (hn : heap.maxNumberOfNodes = n) (x v : Nat) :
    QueueStep n heap.nodes (QueueCall.answer heap (.addNode x v))
      (QueueCall.next heap (.addNode x v)).nodes := by
  simp only [QueueCall.answer, QueueCall.next]
  by_cases hfull : heap.currentNumNodes = heap.maxNumberOfNodes
  · rw [addNode_of_full h hfull]
    exact .refuse (by rw [card_nodes, hfull, hn])
  · have hroom : heap.currentNumNodes < heap.maxNumberOfNodes := by
      have hle := h.num_le
      omega
    rw [addNode_status h hroom, addNode_nodes h hroom]
    exact .add (by rw [card_nodes]; omega)

/-- The root goes, and no node that stays has a smaller value. -/
theorem removeNode_step (h : heap.WF) (ho : heap.Ordered) :
    QueueStep n heap.nodes (QueueCall.answer heap .removeNode)
      (QueueCall.next heap .removeNode).nodes := by
  simp only [QueueCall.answer, QueueCall.next]
  rcases Nat.eq_zero_or_pos heap.currentNumNodes with hzero | hpos
  · rw [removeNode_of_empty h hzero, nodes_eq_zero_iff.mpr hzero]
    exact .empty
  · have hnodes := heapDown_nodes h hpos
    have hleast : ∀ y ∈ (heap.heapDown 0).nodes,
        (heap.ptrToUnderlyingArray 0).nodeValue ≤ y.nodeValue := by
      intro y hy
      have hmem : y ∈ heap.nodes := hnodes ▸ Multiset.mem_cons_of_mem hy
      obtain ⟨i, hi, rfl⟩ := BinaryHeap.mem_contents.mp hmem
      exact BinaryHeap.Ordered.root_le ho i hi
    have hstep : QueueStep n _ _ _ := PriorityQueue.Step.removeMin hleast
    rw [hnodes] at hstep
    rw [removeNode_eq h hpos]
    exact hstep

/-- What every call of a run keeps. -/
structure IsQueue (n : Nat) (heap : MinHeap) : Prop where
  wf : heap.WF
  ordered : heap.Ordered
  max_eq : heap.maxNumberOfNodes = n

theorem IsQueue.next (h : IsQueue n heap) (call : QueueCall) : IsQueue n (call.next heap) := by
  cases call with
  | addNode x v =>
    exact ⟨addNode_wf h.wf x v, addNode_ordered h.wf h.ordered x v,
      (addNode_max heap x v).trans h.max_eq⟩
  | removeNode =>
    have hvalid : (Op.removeNode).Valid heap := trivial
    exact ⟨Op.apply_wf h.wf hvalid, (Op.apply_ordered_iff h.wf h.ordered hvalid).mpr trivial,
      (removeNode_max heap).trans h.max_eq⟩

theorem IsQueue.step (h : IsQueue n heap) (call : QueueCall) :
    QueueStep n heap.nodes (call.answer heap) (call.next heap).nodes := by
  cases call with
  | addNode x v => exact addNode_step h.wf h.max_eq x v
  | removeNode => exact removeNode_step h.wf h.ordered

/-- The heap after the run with these events is the queue of `n` nodes. -/
structure RefinesQueue (n : Nat) (events : List (PriorityQueue.Event MinHeapNode Nat))
    (heap : MinHeap) : Prop where
  /-- What is in the array is what was added and not yet removed. -/
  run : Run (QueueStep n) 0 events heap.nodes
  add_refused : ∀ x v, (heap.addNode x v).2 = 0 ↔ heap.nodes.card = n
  add_unchanged : ∀ x v, (heap.addNode x v).2 = 0 → (heap.addNode x v).1 = heap
  remove_refused : heap.removeNode.2 = none ↔ heap.nodes = 0
  remove_unchanged : heap.removeNode.2 = none → heap.removeNode.1 = heap

/-- **The heap is a bounded priority queue**: in every run of additions and top
removals on a fresh heap, the array holds the nodes added and not yet removed,
an addition is refused exactly when there are `n`, a removal exactly when there
is none, a refused call changes nothing, and a removal takes a node of minimal
value. -/
theorem heap_refines_queue {n : Nat} (hn : 0 < n) (hmax : n ≤ UINT32_MAX)
    (memory : Nat → MinHeapNode) (table : Nat → HashtableValue) (flag : Nat)
    (calls : List QueueCall) :
    RefinesQueue n
      (transcript QueueCall.next QueueCall.answer (newHeap n false memory table flag) calls)
      (calls.foldl QueueCall.next (newHeap n false memory table flag)) := by
  have hnew : IsQueue n (newHeap n false memory table flag) :=
    ⟨newHeap_wf hn hmax false memory table flag, newHeap_ordered n false memory table flag, rfl⟩
  have hheap : IsQueue n (calls.foldl QueueCall.next (newHeap n false memory table flag)) :=
    List.foldlRecOn calls QueueCall.next hnew fun heap h call _ => h.next call
  have hrun := Run.of_simulation nodes (fun _ call h => IsQueue.next h call)
    (fun _ call h => IsQueue.step h call) hnew calls
  refine ⟨hrun, ?_, ?_, ?_, ?_⟩
  · intro x v
    rw [addNode_status_eq_zero_iff hheap.wf, card_nodes, hheap.max_eq]
  · intro x v hstatus
    rw [addNode_of_full hheap.wf ((addNode_status_eq_zero_iff hheap.wf x v).mp hstatus)]
  · rw [removeNode_eq_none_iff hheap.wf, nodes_eq_zero_iff]
  · intro hnone
    rw [removeNode_of_empty hheap.wf ((removeNode_eq_none_iff hheap.wf).mp hnone)]

/-- Three additions to a heap of two nodes, the last of which is refused, and
three removals, the last of which finds the heap empty. -/
theorem heap_refines_queue_twoNodes :
    RefinesQueue 2
      (transcript QueueCall.next QueueCall.answer (plainHeap 2)
        [.addNode 101 7, .addNode 102 3, .addNode 103 5, .removeNode, .removeNode, .removeNode])
      ([.addNode 101 7, .addNode 102 3, .addNode 103 5, .removeNode, .removeNode,
        .removeNode].foldl QueueCall.next (plainHeap 2)) :=
  heap_refines_queue (by decide) (by decide) _ _ 0 _

end MinHeap

end DocetOS
