import DocetOS.DataStructures.HeapIndex

/-!
# Removal by index

What `OS_heap_removeNodeAt` does for any index and any nodes, ordered or not:

- `removeNodeAt_failsCleanly_iff`: an index that is out of range is refused and
  changes nothing, unless the heap is empty: `currentNumNodes - 1` is then the
  largest index there is.
- `removeNodeAt_removesAt`: an index in range takes out the node that is there,
  and only the subtree of this index and the last place change. The loop of
  `__heapDown` ends by one of its own breaks (`SiftsDown`).
- `removals_stayInside_iff`: the loop loads both children of every place it
  comes to, so it stays in the array exactly when the last node, on its way down
  from the hole, comes to no place whose second child would lie outside.
-/

namespace DocetOS

open Lib

namespace MinHeap

variable {heap : MinHeap} {index : Nat}

/-! ## Indices out of range -/

/-- A removal by index that reports 0, leaves `*_returnContent` alone and changes
nothing of the heap. -/
structure FailsCleanly (heap : MinHeap) (index : Nat) : Prop where
  refused : (heap.removeNodeAt index).2 = none
  unchanged : ∃ asserts, (heap.removeNodeAt index).1 = { heap with failedAsserts := asserts }

/-- On an empty heap the bound wraps around, and every index passes. -/
theorem removeNodeAt_of_empty (hempty : heap.currentNumNodes = 0) (hword : index ≤ UINT32_MAX) :
    (heap.removeNodeAt index).2 = some (heap.ptrToUnderlyingArray index).ptrToNodeContent := by
  have hbound : decr heap.currentNumNodes = UINT32_MAX := by
    rw [hempty]
    rfl
  unfold removeNodeAt
  rw [hbound, if_neg (by omega)]

theorem removeNodeAt_of_ge (hpos : heap.currentNumNodes ≠ 0) (hge : heap.currentNumNodes ≤ index) :
    heap.removeNodeAt index = ({ heap with failedAsserts := heap.failedAsserts + 1 }, none) := by
  unfold removeNodeAt
  rw [decr_of_pos (by omega), if_pos (by omega)]

theorem failsCleanly_iff (hge : heap.currentNumNodes ≤ index) (hword : index ≤ UINT32_MAX) :
    FailsCleanly heap index ↔ heap.currentNumNodes ≠ 0 := by
  constructor
  · rintro ⟨hrefused, -⟩ hempty
    rw [removeNodeAt_of_empty hempty hword] at hrefused
    cases hrefused
  · intro hpos
    have heq := removeNodeAt_of_ge hpos hge
    exact ⟨by rw [heq], _, by rw [heq]⟩

/-- **An index out of range**, after any calls on a fresh heap: it fails cleanly
exactly when the heap is not empty. -/
theorem removeNodeAt_failsCleanly_iff (n : Nat) (lookup : Bool) (memory : Nat → MinHeapNode)
    (table : Nat → HashtableValue) (flag : Nat) (ops : List Op) (index : Nat)
    (hge : (ops.foldl Op.apply (newHeap n lookup memory table flag)).currentNumNodes ≤ index)
    (hword : index ≤ UINT32_MAX) :
    FailsCleanly (ops.foldl Op.apply (newHeap n lookup memory table flag)) index ↔
      (ops.foldl Op.apply (newHeap n lookup memory table flag)).currentNumNodes ≠ 0 :=
  failsCleanly_iff hge hword

/-- Index 1 of a heap with one node. -/
theorem removeNodeAt_failsCleanly_iff_oneNode :
    FailsCleanly ([Op.addNode 101 1].foldl Op.apply (plainHeap 2)) 1 ↔
      ([Op.addNode 101 1].foldl Op.apply (plainHeap 2)).currentNumNodes ≠ 0 :=
  removeNodeAt_failsCleanly_iff 2 false _ _ 0 [.addNode 101 1] 1 (by decide) (by decide)

/-- A heap drained to empty hands out the node at index 0, which it does not
have any more. -/
theorem removeNodeAt_drained :
    ¬ ∀ (n : Nat) (lookup : Bool) (memory : Nat → MinHeapNode) (table : Nat → HashtableValue)
        (flag : Nat) (ops : List Op) (index : Nat), 0 < n → n ≤ UINT32_MAX →
        (ops.foldl Op.apply (newHeap n lookup memory table flag)).currentNumNodes ≤ index →
        index ≤ UINT32_MAX →
        FailsCleanly (ops.foldl Op.apply (newHeap n lookup memory table flag)) index := by
  intro h
  have hdrained := h 2 false (fun _ => ⟨NULL, 0⟩) (fun _ => ⟨none, 0, 0⟩) 0
    [.addNode 101 1, .removeNode] 0 (by decide) (by decide) (by decide) (by decide)
  exact absurd hdrained.refused (by decide)

/-! ## The loop of `__heapDown` without a step bound -/

/-- One round of the loop: the heap it leaves and the index it goes on with, or
`none` when it breaks. -/
def siftDownRound (maxValidIdx : Nat) (heap : MinHeap) (elemIdx : Nat) : Option (MinHeap × Nat) :=
  match BinaryHeap.smallerChild MinHeapNode.nodeValue heap.ptrToUnderlyingArray (maxValidIdx + 1)
    elemIdx with
  | none => none
  | some smallerChildIdx =>
    if (heap.ptrToUnderlyingArray elemIdx).nodeValue >
        (heap.ptrToUnderlyingArray smallerChildIdx).nodeValue then
      some (heap.swapNodes false elemIdx smallerChildIdx, smallerChildIdx)
    else none

/-- The loop from `elemIdx` on breaks with the heap `final`. -/
inductive SiftsDown (maxValidIdx : Nat) : MinHeap → Nat → MinHeap → Prop
  | stop {heap : MinHeap} {elemIdx : Nat} (breaks : siftDownRound maxValidIdx heap elemIdx = none) :
      SiftsDown maxValidIdx heap elemIdx heap
  | round {heap next final : MinHeap} {elemIdx child : Nat}
      (goesOn : siftDownRound maxValidIdx heap elemIdx = some (next, child))
      (rest : SiftsDown maxValidIdx next child final) : SiftsDown maxValidIdx heap elemIdx final

/-- `__heapDown` returns with the heap `final`. -/
def HeapDownEnds (heap : MinHeap) (indexOfNodeToRemove : Nat) (final : MinHeap) : Prop :=
  let elemIdx := decr heap.nextEmptyElement
  let heap := heap.fillHole indexOfNodeToRemove
  if elemIdx = indexOfNodeToRemove then final = heap
  else
    let maxValidIdx := decr heap.nextEmptyElement
    if maxValidIdx = UINT32_MAX then final = heap
    else SiftsDown maxValidIdx heap indexOfNodeToRemove final

theorem siftDown_succ (maxValidIdx f : Nat) (heap : MinHeap) (i : Nat) :
    siftDown maxValidIdx (f + 1) heap i =
      match siftDownRound maxValidIdx heap i with
      | none => heap
      | some (next, child) => siftDown maxValidIdx f next child := by
  simp only [siftDown, smallerChild_eq, siftDownRound]
  cases BinaryHeap.smallerChild MinHeapNode.nodeValue heap.ptrToUnderlyingArray
      (maxValidIdx + 1) i with
  | none => rfl
  | some c =>
    dsimp only
    split
    · rfl
    · rfl

/-- The loop goes on with a valid child. -/
theorem siftDownRound_some {maxValidIdx i child : Nat} {next : MinHeap}
    (h : siftDownRound maxValidIdx heap i = some (next, child)) :
    next = heap.swapNodes false i child ∧ child ≤ maxValidIdx ∧ i < child := by
  unfold siftDownRound at h
  cases hsome : BinaryHeap.smallerChild MinHeapNode.nodeValue heap.ptrToUnderlyingArray
      (maxValidIdx + 1) i with
  | none =>
    rw [hsome] at h
    cases h
  | some c =>
    obtain ⟨hcn, hc0, hci, -⟩ := BinaryHeap.smallerChild_some hsome
    have hic := BinaryHeap.parent_lt hc0
    rw [hsome] at h
    dsimp only at h
    split at h
    · obtain ⟨rfl, rfl⟩ := Prod.mk.inj (Option.some.inj h)
      exact ⟨rfl, by omega, by omega⟩
    · cases h

/-- The loop breaks before its step bound is reached: the index grows in every
round. -/
theorem siftDown_ends {maxValidIdx f i : Nat} (hf : maxValidIdx < i + f) :
    SiftsDown maxValidIdx heap i (siftDown maxValidIdx f heap i) := by
  induction f generalizing heap i with
  | zero =>
    refine .stop ?_
    cases hround : siftDownRound maxValidIdx heap i with
    | none => rfl
    | some round =>
      obtain ⟨next, child⟩ := round
      obtain ⟨-, hle, hlt⟩ := siftDownRound_some hround
      omega
  | succ f ih =>
    rw [siftDown_succ]
    cases hround : siftDownRound maxValidIdx heap i with
    | none => exact .stop hround
    | some round =>
      obtain ⟨next, child⟩ := round
      obtain ⟨-, hle, hlt⟩ := siftDownRound_some hround
      exact .round hround (ih (by omega))

theorem heapDown_ends (heap : MinHeap) (index : Nat) :
    HeapDownEnds heap index (heap.heapDown index) := by
  unfold HeapDownEnds heapDown
  dsimp only
  split
  · rfl
  · split
    · rfl
    · exact siftDown_ends (by omega)

/-! ## Indices in range -/

/-- A removal by index that returns, hands out the content at its index and takes
out this node, and nothing else. -/
structure RemovesAt (heap : MinHeap) (index : Nat) : Prop where
  ends : HeapDownEnds heap index (heap.removeNodeAt index).1
  returned : (heap.removeNodeAt index).2 =
    some (heap.ptrToUnderlyingArray index).ptrToNodeContent
  num : (heap.removeNodeAt index).1.currentNumNodes + 1 = heap.currentNumNodes
  nodes : BinaryHeap.contents (heap.removeNodeAt index).1.ptrToUnderlyingArray
      (heap.currentNumNodes - 1) =
    (BinaryHeap.contents heap.ptrToUnderlyingArray heap.currentNumNodes).erase
      (heap.ptrToUnderlyingArray index)
  /-- Only the subtree of the index and the last place change. -/
  elsewhere : ∀ k, ¬ BinaryHeap.InSubtree index k → k + 1 ≠ heap.currentNumNodes →
    (heap.removeNodeAt index).1.ptrToUnderlyingArray k = heap.ptrToUnderlyingArray k

theorem filled_of_ne {k : Nat} (hindex : k ≠ index) (hlast : k ≠ heap.currentNumNodes - 1) :
    heap.filled index k = heap.ptrToUnderlyingArray k := by
  unfold filled
  rw [Function.update_of_ne hlast, Function.update_of_ne hindex]

/-- `__heapDown` stays in the subtree of its index, but for the last place. -/
theorem heapDown_array_of_not_inSubtree (h : heap.WF) (hi : index < heap.currentNumNodes) {k : Nat}
    (hk : ¬ BinaryHeap.InSubtree index k) (hlast : k + 1 ≠ heap.currentNumNodes) :
    (heap.heapDown index).ptrToUnderlyingArray k = heap.ptrToUnderlyingArray k := by
  have hne : k ≠ index := fun heq => hk (heq ▸ .root)
  have hfilled : heap.filled index k = heap.ptrToUnderlyingArray k := filled_of_ne hne (by omega)
  rcases Nat.lt_or_ge (index + 1) heap.currentNumNodes with hlt | hge
  · rw [heapDown_array h hlt, BinaryHeap.siftDown_of_not_inSubtree hk, hfilled]
  · rw [heapDown_array_last h (by omega), hfilled]

/-- **Removal by index loses and duplicates nothing**, whatever the nodes are. -/
theorem removeNodeAt_removesAt (h : heap.WF) (hi : index < heap.currentNumNodes) :
    RemovesAt heap index := by
  have heq := removeNodeAt_eq hi
  have hnum := heapDown_num h hi
  constructor
  · rw [heq]
    exact heapDown_ends heap index
  · rw [heq]
  · rw [heq]
    show (heap.heapDown index).currentNumNodes + 1 = heap.currentNumNodes
    omega
  · rw [heq]
    show BinaryHeap.contents (heap.heapDown index).ptrToUnderlyingArray _ = heap.nodes.erase _
    rw [← heapDown_nodes h hi, Multiset.erase_cons_head, nodes, hnum]
  · rw [heq]
    intro k hk hlast
    exact heapDown_array_of_not_inSubtree h hi hk hlast

/-! ## The indices of a removal -/

/-- A removal by index is of a heap that is not empty: by `failsCleanly_iff`, it
either takes a node or fails cleanly. -/
def Op.Guarded (heap : MinHeap) : Op → Prop
  | .removeNodeAt _ => heap.currentNumNodes ≠ 0
  | _ => True

/-- Every removal by index of the run is guarded. -/
def GuardedRun : MinHeap → List Op → Prop
  | _, [] => True
  | heap, op :: ops => op.Guarded heap ∧ GuardedRun (op.apply heap) ops

instance (heap : MinHeap) : (op : Op) → Decidable (op.Guarded heap)
  | .addNode _ _ => inferInstanceAs (Decidable True)
  | .removeNode => inferInstanceAs (Decidable True)
  | .removeNodeAt _ => inferInstanceAs (Decidable (heap.currentNumNodes ≠ 0))

instance GuardedRun.decidable :
    (heap : MinHeap) → (ops : List Op) → Decidable (GuardedRun heap ops)
  | _, [] => inferInstanceAs (Decidable True)
  | heap, op :: ops =>
    have := GuardedRun.decidable (op.apply heap) ops
    inferInstanceAs (Decidable (_ ∧ _))

theorem Op.apply_wf_of_guarded (h : heap.WF) {op : Op} (hg : op.Guarded heap) :
    (op.apply heap).WF := by
  cases op with
  | addNode x v => exact Op.apply_wf h (show Op.Valid heap (.addNode x v) from trivial)
  | removeNode => exact Op.apply_wf h (show Op.Valid heap .removeNode from trivial)
  | removeNodeAt index =>
    rcases Nat.lt_or_ge index heap.currentNumNodes with hi | hge
    · exact Op.apply_wf h (show Op.Valid heap (.removeNodeAt index) from hi)
    · show (heap.removeNodeAt index).1.WF
      rw [removeNodeAt_of_ge hg hge]
      exact ⟨h.max_pos, h.max_le, h.next_eq, h.last_eq, h.num_le⟩

theorem GuardedRun.wf (h : heap.WF) {ops : List Op} (hg : GuardedRun heap ops) :
    (ops.foldl Op.apply heap).WF := by
  induction ops generalizing heap with
  | nil => exact h
  | cons op ops ih => exact ih (Op.apply_wf_of_guarded h hg.1) hg.2

/-- Index 1 of `sixNodes`, whose subtree holds 10, 11 and 12. -/
theorem removeNodeAt_removesAt_sixNodes :
    RemovesAt (sixNodes.foldl Op.apply (plainHeap 6)) 1 :=
  removeNodeAt_removesAt
    (GuardedRun.wf (newHeap_wf (by decide) (by decide) false _ _ 0) (by decide)) (by decide)

/-- The indices at which the loop of `__heapDown` reads and writes nodes. -/
def siftDownAccesses (maxValidIdx : Nat) : Nat → MinHeap → Nat → List Nat
  | 0, _, _ => []
  | f + 1, heap, elemIdx =>
    [getFirstChildIndex elemIdx, getSecondChildIndex elemIdx] ++
      match BinaryHeap.smallerChild MinHeapNode.nodeValue heap.ptrToUnderlyingArray
        (maxValidIdx + 1) elemIdx with
      | none => []
      | some smallerChildIdx =>
        [elemIdx, smallerChildIdx] ++
          if (heap.ptrToUnderlyingArray elemIdx).nodeValue >
              (heap.ptrToUnderlyingArray smallerChildIdx).nodeValue then
            -- the child is loaded once more for its table entry
            (heap.nodeContentIndexHashTable.elim [] fun _ => [smallerChildIdx]) ++
              [smallerChildIdx, elemIdx, smallerChildIdx] ++
              siftDownAccesses maxValidIdx f (heap.swapNodes false elemIdx smallerChildIdx)
                smallerChildIdx
          else []

/-- The indices at which `__heapDown` reads and writes nodes. -/
def heapDownAccesses (heap : MinHeap) (indexOfNodeToRemove : Nat) : List Nat :=
  let elemIdx := decr heap.nextEmptyElement
  (heap.nodeContentIndexHashTable.elim [] fun _ => [elemIdx, indexOfNodeToRemove]) ++
    [elemIdx, indexOfNodeToRemove, elemIdx, elemIdx] ++
    (let heap := heap.fillHole indexOfNodeToRemove
    if elemIdx = indexOfNodeToRemove then []
    else
      let maxValidIdx := decr heap.nextEmptyElement
      if maxValidIdx = UINT32_MAX then []
      else siftDownAccesses maxValidIdx (maxValidIdx + 1) heap indexOfNodeToRemove)

/-- The indices at which `OS_heap_removeNode` reads and writes nodes. -/
def removeNodeAccesses (heap : MinHeap) : List Nat :=
  if heap.nextEmptyElement = 0 then [] else 0 :: heap.heapDownAccesses 0

/-- The indices at which `OS_heap_removeNodeAt` reads and writes nodes. -/
def removeNodeAtAccesses (heap : MinHeap) (index : Nat) : List Nat :=
  if index > decr heap.currentNumNodes then [] else index :: heap.heapDownAccesses index

/-- The last node is the one removed, or on its way down from the hole it comes
to no place whose second child would lie outside the array. -/
def SinksInside (heap : MinHeap) (index : Nat) : Prop :=
  index + 1 = heap.currentNumNodes ∨
    ∀ e, BinaryHeap.SinksTo MinHeapNode.nodeValue heap.ptrToUnderlyingArray
        (heap.currentNumNodes - 1)
        (heap.ptrToUnderlyingArray (heap.currentNumNodes - 1)).nodeValue index e →
      getSecondChildIndex e < heap.maxNumberOfNodes

section Accesses

variable {maxValidIdx f i c bound : Nat}

theorem firstChildIndex_lt (i : Nat) : getFirstChildIndex i < getSecondChildIndex i := by
  unfold getFirstChildIndex getSecondChildIndex
  omega

/-- Of the indices of a round, that of the second child is the largest. -/
theorem siftDownAccesses_round (hsome : BinaryHeap.smallerChild MinHeapNode.nodeValue
      heap.ptrToUnderlyingArray (maxValidIdx + 1) i = some c) :
    (∀ k ∈ siftDownAccesses maxValidIdx (f + 1) heap i, k < bound) ↔
      getSecondChildIndex i < bound ∧
        ((heap.ptrToUnderlyingArray c).nodeValue < (heap.ptrToUnderlyingArray i).nodeValue →
          ∀ k ∈ siftDownAccesses maxValidIdx f (heap.swapNodes false i c) c, k < bound) := by
  obtain ⟨-, hc0, hci, -⟩ := BinaryHeap.smallerChild_some hsome
  have hic := BinaryHeap.parent_lt hc0
  have hfirst := firstChildIndex_lt i
  -- `c` is one of the two children, and the first one comes before the second
  have hchild : c ≤ getSecondChildIndex i := by
    have := BinaryHeap.child_cases hc0 hci
    unfold getSecondChildIndex
    omega
  constructor
  · intro hall
    constructor
    · exact hall _ (by simp [siftDownAccesses])
    · intro hlt k hk
      exact hall k (by simp [siftDownAccesses, hsome, hlt, hk])
  · rintro ⟨hsecond, hrest⟩ k hk
    simp only [siftDownAccesses, hsome, List.mem_append, List.mem_cons, List.not_mem_nil,
      or_false] at hk
    rcases hk with hk | hk | hk
    · omega
    · omega
    · split at hk
      · rename_i hlt
        rw [List.mem_append, List.mem_append] at hk
        rcases hk with (hk | hk) | hk
        · cases htable : heap.nodeContentIndexHashTable with
          | none => simp [htable] at hk
          | some table =>
            simp only [htable, Option.elim_some, List.mem_singleton] at hk
            omega
        · simp only [List.mem_cons, List.not_mem_nil, or_false] at hk
          omega
        · exact hrest hlt k hk
      · cases hk

/-- The loop stays below `bound` iff the second child of every place the node
comes to does. -/
theorem siftDownAccesses_lt_iff (hi : i ≤ maxValidIdx) (hf : maxValidIdx < i + f) :
    (∀ k ∈ siftDownAccesses maxValidIdx f heap i, k < bound) ↔
      ∀ e, BinaryHeap.SinksTo MinHeapNode.nodeValue heap.ptrToUnderlyingArray (maxValidIdx + 1)
          (heap.ptrToUnderlyingArray i).nodeValue i e → getSecondChildIndex e < bound := by
  induction f generalizing heap i with
  | zero => omega
  | succ f ih =>
    cases hsome : BinaryHeap.smallerChild MinHeapNode.nodeValue heap.ptrToUnderlyingArray
        (maxValidIdx + 1) i with
    | none =>
      have hfirst := firstChildIndex_lt i
      simp only [siftDownAccesses, hsome, BinaryHeap.sinksTo_of_none hsome, List.append_nil,
        List.mem_cons, List.not_mem_nil, or_false]
      constructor
      · rintro hall e rfl
        exact hall _ (.inr rfl)
      · intro hall k hk
        have := hall i rfl
        omega
    | some c =>
      obtain ⟨hcn, hc0, hci, -⟩ := BinaryHeap.smallerChild_some hsome
      have hic := BinaryHeap.parent_lt hc0
      -- the swap has not touched what lies below the child
      have hbelow : ∀ e, BinaryHeap.SinksTo MinHeapNode.nodeValue
            (heap.swapNodes false i c).ptrToUnderlyingArray (maxValidIdx + 1)
            ((heap.swapNodes false i c).ptrToUnderlyingArray c).nodeValue c e ↔
          BinaryHeap.SinksTo MinHeapNode.nodeValue heap.ptrToUnderlyingArray (maxValidIdx + 1)
            (heap.ptrToUnderlyingArray i).nodeValue c e := by
        intro e
        rw [swapNodes_array, BinaryHeap.swap_right]
        refine BinaryHeap.sinksTo_congr_iff ?_
        intro k hk _
        exact BinaryHeap.swap_of_ne (by omega) (by omega)
      have hrest := @ih (heap.swapNodes false i c) c (by omega) (by omega)
      simp only [hbelow] at hrest
      rw [siftDownAccesses_round hsome, hrest]
      constructor
      · rintro ⟨hsecond, hsinks⟩ e he
        rcases (BinaryHeap.sinksTo_of_some hsome).mp he with rfl | ⟨hlt, he⟩
        · exact hsecond
        · exact hsinks hlt e he
      · intro hall
        constructor
        · exact hall i (.here i)
        · intro hlt e he
          exact hall e (.further hsome hlt he)

end Accesses

/-- `__heapDown` stays in the array iff the last node does. -/
theorem heapDownAccesses_lt_iff (h : heap.WF) (hi : index < heap.currentNumNodes) :
    (∀ k ∈ heap.heapDownAccesses index, k < heap.maxNumberOfNodes) ↔ heap.SinksInside index := by
  have hle := h.num_le
  have hmax := h.max_le
  have hlast := decr_next h hi
  -- the accesses before the loop are to the hole and to the last node
  have hbefore : ∀ k ∈ (heap.nodeContentIndexHashTable.elim [] fun _ =>
      [heap.currentNumNodes - 1, index]) ++
        [heap.currentNumNodes - 1, index, heap.currentNumNodes - 1, heap.currentNumNodes - 1],
      k < heap.maxNumberOfNodes := by
    intro k hk
    cases htable : heap.nodeContentIndexHashTable with
    | none =>
      simp only [htable, Option.elim_none, List.nil_append, List.mem_cons, List.not_mem_nil,
        or_false] at hk
      omega
    | some table =>
      simp only [htable, Option.elim_some, List.mem_append, List.mem_cons, List.not_mem_nil,
        or_false] at hk
      omega
  unfold heapDownAccesses SinksInside
  dsimp only
  rw [hlast, fillHole_next h hi, List.forall_mem_append, and_iff_right hbefore]
  by_cases hlastNode : index + 1 = heap.currentNumNodes
  · rw [if_pos (by omega)]
    exact iff_of_true (fun k hk => absurd hk List.not_mem_nil) (.inl hlastNode)
  · obtain ⟨m, hm⟩ : ∃ m, heap.currentNumNodes - 1 = m + 1 := ⟨heap.currentNumNodes - 2, by omega⟩
    have hnonempty : m ≠ UINT32_MAX := by omega
    rw [hm, decr_succ, if_neg (by omega), if_neg hnonempty, or_iff_right hlastNode,
      siftDownAccesses_lt_iff (by omega) (by omega), fillHole_array h hi]
    have hvalue : heap.filled index index = heap.ptrToUnderlyingArray (m + 1) := by
      rw [filled_of_lt (by omega), if_pos rfl, hm]
    have hbelow : ∀ k, index < k → k < m + 1 → heap.filled index k = heap.ptrToUnderlyingArray k :=
      fun k hk hkm => filled_of_ne (by omega) (by omega)
    rw [hvalue]
    constructor
    · intro hall e he
      exact hall e ((BinaryHeap.sinksTo_congr_iff hbelow).mpr he)
    · intro hall e he
      exact hall e ((BinaryHeap.sinksTo_congr_iff hbelow).mp he)

theorem removeNodeAtAccesses_lt_iff (h : heap.WF) (hi : index < heap.currentNumNodes) :
    (∀ k ∈ heap.removeNodeAtAccesses index, k < heap.maxNumberOfNodes) ↔
      heap.SinksInside index := by
  have hle := h.num_le
  unfold removeNodeAtAccesses
  rw [decr_of_pos (by omega), if_neg (by omega), List.forall_mem_cons,
    heapDownAccesses_lt_iff h hi]
  exact and_iff_right (by omega)

theorem removeNodeAccesses_lt_iff (h : heap.WF) :
    (∀ k ∈ heap.removeNodeAccesses, k < heap.maxNumberOfNodes) ↔
      heap.currentNumNodes = 0 ∨ heap.SinksInside 0 := by
  have hmax := h.max_pos
  unfold removeNodeAccesses
  rw [h.next_eq]
  by_cases hempty : heap.currentNumNodes = 0
  · rw [if_pos hempty]
    exact iff_of_true (fun k hk => absurd hk List.not_mem_nil) (.inl hempty)
  · rw [if_neg hempty, List.forall_mem_cons, heapDownAccesses_lt_iff h (by omega),
      or_iff_right hempty]
    exact and_iff_right hmax

/-- A heap filled to at most half its array has room for both children of every
node. -/
theorem SinksInside.of_halfFull (hroom : 2 * heap.currentNumNodes ≤ heap.maxNumberOfNodes + 1)
    (hi : index < heap.currentNumNodes) : heap.SinksInside index := by
  by_cases hlast : index + 1 = heap.currentNumNodes
  · exact .inl hlast
  · refine .inr ?_
    intro e he
    have := he.lt (by omega)
    unfold getSecondChildIndex
    omega

/-- **The indices of a removal**, after any guarded calls on a fresh heap: both
removals stay in the array iff the last node sinks inside. -/
theorem removals_stayInside_iff {n : Nat} (hn : 0 < n) (hmax : n ≤ UINT32_MAX) (lookup : Bool)
    (memory : Nat → MinHeapNode) (table : Nat → HashtableValue) (flag : Nat) {ops : List Op}
    (hg : GuardedRun (newHeap n lookup memory table flag) ops) :
    let heap := ops.foldl Op.apply (newHeap n lookup memory table flag)
    ((∀ k ∈ heap.removeNodeAccesses, k < heap.maxNumberOfNodes) ↔
        heap.currentNumNodes = 0 ∨ heap.SinksInside 0) ∧
      ∀ index < heap.currentNumNodes,
        ((∀ k ∈ heap.removeNodeAtAccesses index, k < heap.maxNumberOfNodes) ↔
          heap.SinksInside index) := by
  intro heap
  have hwf : heap.WF := hg.wf (newHeap_wf hn hmax lookup memory table flag)
  constructor
  · exact removeNodeAccesses_lt_iff hwf
  · intro index hi
    exact removeNodeAtAccesses_lt_iff hwf hi

/-- Two nodes in an array of three. -/
theorem removals_stayInside_iff_twoNodes :
    let heap := [Op.addNode 101 1, .addNode 102 2].foldl Op.apply (plainHeap 3)
    ((∀ k ∈ heap.removeNodeAccesses, k < heap.maxNumberOfNodes) ↔
        heap.currentNumNodes = 0 ∨ heap.SinksInside 0) ∧
      ∀ index < heap.currentNumNodes,
        ((∀ k ∈ heap.removeNodeAtAccesses index, k < heap.maxNumberOfNodes) ↔
          heap.SinksInside index) :=
  removals_stayInside_iff (by decide) (by decide) false _ _ 0 (by decide)

/-- A full heap of two: taking the root loads the node at index 2, behind the
array. -/
theorem removeNode_leavesArray :
    ¬ ∀ (n : Nat) (lookup : Bool) (memory : Nat → MinHeapNode) (table : Nat → HashtableValue)
        (flag : Nat) (ops : List Op), 0 < n → n ≤ UINT32_MAX →
        ValidRun (newHeap n lookup memory table flag) ops →
        let heap := ops.foldl Op.apply (newHeap n lookup memory table flag)
        (∀ k ∈ heap.removeNodeAccesses, k < heap.maxNumberOfNodes) ∧
          ∀ index < heap.currentNumNodes,
            ∀ k ∈ heap.removeNodeAtAccesses index, k < heap.maxNumberOfNodes := by
  intro h
  have htwo := h 2 false (fun _ => ⟨NULL, 0⟩) (fun _ => ⟨none, 0, 0⟩) 0
    [.addNode 101 1, .addNode 102 2] (by decide) (by decide) (by decide)
  exact absurd htwo.1 (by decide)

end MinHeap

end DocetOS
