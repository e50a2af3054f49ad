import DocetOS.DataStructures.Heap
import DocetOS.Lib.BinaryHeap

/-!
# Heap order

The array part of the two sift loops is `BinaryHeap.siftUp` and
`BinaryHeap.siftDown`: the lookup table is written but never read by them. From
the library's rules:

- `addNode` and `removeNode` keep the order;
- `removeNodeAt index` keeps it exactly when the hole fits (`HoleFits`): the
  last node, which fills the hole and is only ever sifted *down*, must not be
  smaller than the parent of the hole.

`orderedThroughout_iff` lifts this to runs from a fresh heap: the order holds
after every operation iff the hole fits at every removal by index. A run in
which it does not is `removeNodeAt_breaks_order`.
-/

namespace DocetOS

open Lib

theorem getParentIndex_eq (i : Nat) : getParentIndex i = BinaryHeap.parent i := by
  unfold getParentIndex BinaryHeap.parent
  split
  · omega
  · split <;> omega

namespace MinHeap

/-- The pointer fields and the node count agree. -/
structure WF (heap : MinHeap) : Prop where
  max_pos : 0 < heap.maxNumberOfNodes
  max_le : heap.maxNumberOfNodes ≤ UINT32_MAX
  next_eq : heap.nextEmptyElement = heap.currentNumNodes
  last_eq : heap.lastArrayElement + 1 = heap.maxNumberOfNodes
  num_le : heap.currentNumNodes ≤ heap.maxNumberOfNodes

/-- No node has a smaller value than its parent. -/
def Ordered (heap : MinHeap) : Prop :=
  BinaryHeap.Ordered MinHeapNode.nodeValue heap.ptrToUnderlyingArray heap.currentNumNodes

/-- The nodes of the heap. -/
def nodes (heap : MinHeap) : Multiset MinHeapNode :=
  BinaryHeap.contents heap.ptrToUnderlyingArray heap.currentNumNodes

/-! ## The sift loops on the array -/

@[simp] theorem swapNodes_array (heap : MinHeap) (b : Bool) (i j : Nat) :
    (heap.swapNodes b i j).ptrToUnderlyingArray =
      BinaryHeap.swap heap.ptrToUnderlyingArray i j := rfl

/-- Fields the sift loops do not touch. -/
structure SameShape (heap heap' : MinHeap) : Prop where
  max : heap'.maxNumberOfNodes = heap.maxNumberOfNodes
  num : heap'.currentNumNodes = heap.currentNumNodes
  next : heap'.nextEmptyElement = heap.nextEmptyElement
  last : heap'.lastArrayElement = heap.lastArrayElement

theorem SameShape.refl (heap : MinHeap) : SameShape heap heap := ⟨rfl, rfl, rfl, rfl⟩

theorem SameShape.trans {h₁ h₂ h₃ : MinHeap} (h : SameShape h₁ h₂) (h' : SameShape h₂ h₃) :
    SameShape h₁ h₃ :=
  ⟨h'.max.trans h.max, h'.num.trans h.num, h'.next.trans h.next, h'.last.trans h.last⟩

theorem swapNodes_shape (heap : MinHeap) (b : Bool) (i j : Nat) :
    SameShape heap (heap.swapNodes b i j) := ⟨rfl, rfl, rfl, rfl⟩

theorem siftUp_array (f : Nat) (heap : MinHeap) (i : Nat) :
    (siftUp f heap i).ptrToUnderlyingArray =
      BinaryHeap.siftUp MinHeapNode.nodeValue f heap.ptrToUnderlyingArray i := by
  induction f generalizing heap i with
  | zero => rfl
  | succ f ih =>
    unfold siftUp BinaryHeap.siftUp
    simp only [getParentIndex_eq, gt_iff_lt]
    split
    · rfl
    · split
      · rw [ih, swapNodes_array]
      · rfl

theorem siftUp_shape (f : Nat) (heap : MinHeap) (i : Nat) : SameShape heap (siftUp f heap i) := by
  induction f generalizing heap i with
  | zero => exact .refl heap
  | succ f ih =>
    unfold siftUp
    dsimp only
    split
    · exact .refl heap
    · split
      · exact (swapNodes_shape heap true i _).trans (ih _ _)
      · exact .refl heap

/-- The child the loop of `__heapDown` compares with. -/
theorem smallerChild_eq (a : Nat → MinHeapNode) (maxValidIdx i : Nat) :
    (if getSecondChildIndex i ≤ maxValidIdx then
        some (if (a (getFirstChildIndex i)).nodeValue ≤ (a (getSecondChildIndex i)).nodeValue then
          getFirstChildIndex i else getSecondChildIndex i)
      else if getFirstChildIndex i ≤ maxValidIdx then some (getFirstChildIndex i)
      else none) =
    BinaryHeap.smallerChild MinHeapNode.nodeValue a (maxValidIdx + 1) i := by
  unfold BinaryHeap.smallerChild getSecondChildIndex getFirstChildIndex
  rw [show 2 * (i + 1) = 2 * i + 2 by omega]
  simp only [Nat.lt_succ_iff]

theorem siftDown_array (maxValidIdx f : Nat) (heap : MinHeap) (i : Nat) :
    (siftDown maxValidIdx f heap i).ptrToUnderlyingArray =
      BinaryHeap.siftDown MinHeapNode.nodeValue (maxValidIdx + 1) f
        heap.ptrToUnderlyingArray i := by
  induction f generalizing heap i with
  | zero => rfl
  | succ f ih =>
    unfold siftDown BinaryHeap.siftDown
    simp only [smallerChild_eq, gt_iff_lt]
    cases BinaryHeap.smallerChild MinHeapNode.nodeValue heap.ptrToUnderlyingArray
        (maxValidIdx + 1) i with
    | none => rfl
    | some c =>
      dsimp only
      split
      · rw [ih, swapNodes_array]
      · rfl

theorem siftDown_shape (maxValidIdx f : Nat) (heap : MinHeap) (i : Nat) :
    SameShape heap (siftDown maxValidIdx f heap i) := by
  induction f generalizing heap i with
  | zero => exact .refl heap
  | succ f ih =>
    unfold siftDown
    simp only [smallerChild_eq]
    split
    · exact .refl heap
    · split
      · exact (swapNodes_shape heap false i _).trans (ih _ _)
      · exact .refl heap

/-! ## `addNode` -/

theorem addNode_of_full {heap : MinHeap} (h : heap.WF)
    (hfull : heap.currentNumNodes = heap.maxNumberOfNodes) (x : Nat) (v : Nat) :
    heap.addNode x v = (heap, 0) := by
  unfold addNode
  have h₁ := h.last_eq
  have h₂ := h.next_eq
  rw [if_pos (by omega)]

theorem addNode_status {heap : MinHeap} (h : heap.WF)
    (hroom : heap.currentNumNodes < heap.maxNumberOfNodes) (x : Nat) (v : Nat) :
    (heap.addNode x v).2 = 1 := by
  unfold addNode
  have h₁ := h.last_eq
  have h₂ := h.next_eq
  rw [if_neg (by omega)]

/-- With room, the array after `addNode` is the array with the new node written
behind the last one and sifted up. -/
theorem addNode_array {heap : MinHeap} (h : heap.WF)
    (hroom : heap.currentNumNodes < heap.maxNumberOfNodes) (x : Nat) (v : Nat) :
    (heap.addNode x v).1.ptrToUnderlyingArray =
      BinaryHeap.siftUp MinHeapNode.nodeValue heap.currentNumNodes
        (Function.update heap.ptrToUnderlyingArray heap.currentNumNodes ⟨x, v⟩)
        heap.currentNumNodes := by
  unfold addNode
  have h₁ := h.last_eq
  have h₂ := h.next_eq
  rw [if_neg (by omega)]
  simp only [siftUp_array, h₂]

theorem addNode_num {heap : MinHeap} (h : heap.WF)
    (hroom : heap.currentNumNodes < heap.maxNumberOfNodes) (x : Nat) (v : Nat) :
    (heap.addNode x v).1.currentNumNodes = heap.currentNumNodes + 1 := by
  unfold addNode
  have h₁ := h.last_eq
  have h₂ := h.next_eq
  rw [if_neg (by omega)]
  dsimp only
  rw [(siftUp_shape _ _ _).next, h₂]

@[simp] theorem addNode_max (heap : MinHeap) (x : Nat) (v : Nat) :
    (heap.addNode x v).1.maxNumberOfNodes = heap.maxNumberOfNodes := by
  unfold addNode
  split
  · rfl
  · dsimp only
    rw [(siftUp_shape _ _ _).max]

theorem addNode_wf {heap : MinHeap} (h : heap.WF) (x : Nat) (v : Nat) :
    (heap.addNode x v).1.WF := by
  by_cases hroom : heap.currentNumNodes < heap.maxNumberOfNodes
  · have hnum := addNode_num h hroom x v
    refine ⟨by rw [addNode_max]; exact h.max_pos, by rw [addNode_max]; exact h.max_le, ?_, ?_,
      by rw [hnum, addNode_max]; exact hroom⟩
    · unfold addNode
      split
      · exact h.next_eq
      · rfl
    · rw [addNode_max, ← h.last_eq]
      unfold addNode
      split
      · rfl
      · dsimp only
        rw [(siftUp_shape _ _ _).last]
  · rw [addNode_of_full h (by have := h.num_le; omega)]
    exact h

/-- `addNode` with room adds its node. -/
theorem addNode_nodes {heap : MinHeap} (h : heap.WF)
    (hroom : heap.currentNumNodes < heap.maxNumberOfNodes) (x : Nat) (v : Nat) :
    (heap.addNode x v).1.nodes = ⟨x, v⟩ ::ₘ heap.nodes := by
  unfold nodes
  rw [addNode_num h hroom, addNode_array h hroom, BinaryHeap.contents_siftUp (Nat.lt_succ_self _),
    BinaryHeap.contents_succ, Function.update_self,
    BinaryHeap.contents_update_of_le (Nat.le_refl _)]

/-- **`addNode` keeps the order.** -/
theorem addNode_ordered {heap : MinHeap} (h : heap.WF) (ho : heap.Ordered) (x : Nat) (v : Nat) :
    (heap.addNode x v).1.Ordered := by
  by_cases hroom : heap.currentNumNodes < heap.maxNumberOfNodes
  · unfold Ordered
    rw [addNode_num h hroom, addNode_array h hroom]
    refine BinaryHeap.siftUp_ordered ⟨?_, ?_⟩ (Nat.lt_succ_self _) (Nat.le_refl _)
    · intro j hj hjn hne
      have hp := BinaryHeap.parent_lt hj
      rw [Function.update_of_ne hne, Function.update_of_ne (by omega)]
      exact ho j hj (by omega)
    · intro _ c hc hcn hcp
      have := BinaryHeap.parent_lt hc
      omega
  · rw [addNode_of_full h (by have := h.num_le; omega)]
    exact ho

/-! ## `__heapDown` -/

/-- The array after the last node has filled the hole. -/
def filled (heap : MinHeap) (index : Nat) : Nat → MinHeapNode :=
  Function.update
    (Function.update heap.ptrToUnderlyingArray index
      (heap.ptrToUnderlyingArray (heap.currentNumNodes - 1)))
    (heap.currentNumNodes - 1) { ptrToNodeContent := NULL, nodeValue := UINT32_MAX }

theorem filled_of_lt {heap : MinHeap} {index i : Nat} (hi : i < heap.currentNumNodes - 1) :
    heap.filled index i =
      if i = index then heap.ptrToUnderlyingArray (heap.currentNumNodes - 1)
      else heap.ptrToUnderlyingArray i := by
  unfold filled
  rw [Function.update_of_ne (by omega), Function.update_apply]

section HeapDown

variable {heap : MinHeap} {index : Nat}

theorem decr_next (h : heap.WF) (hi : index < heap.currentNumNodes) :
    decr heap.nextEmptyElement = heap.currentNumNodes - 1 := by
  rw [h.next_eq, decr_of_pos (by omega)]

theorem fillHole_array (h : heap.WF) (hi : index < heap.currentNumNodes) :
    (heap.fillHole index).ptrToUnderlyingArray = heap.filled index := by
  unfold fillHole filled
  dsimp only
  rw [decr_next h hi]

theorem fillHole_num (h : heap.WF) (hi : index < heap.currentNumNodes) :
    (heap.fillHole index).currentNumNodes = heap.currentNumNodes - 1 :=
  decr_next h hi

theorem fillHole_next (h : heap.WF) (hi : index < heap.currentNumNodes) :
    (heap.fillHole index).nextEmptyElement = heap.currentNumNodes - 1 :=
  decr_next h hi

theorem heapDown_num (h : heap.WF) (hi : index < heap.currentNumNodes) :
    (heap.heapDown index).currentNumNodes = heap.currentNumNodes - 1 := by
  have hnum := fillHole_num h hi
  unfold heapDown
  dsimp only
  split
  · exact hnum
  · split
    · exact hnum
    · rw [(siftDown_shape _ _ _ _).num, hnum]

@[simp] theorem heapDown_max (heap : MinHeap) (index : Nat) :
    (heap.heapDown index).maxNumberOfNodes = heap.maxNumberOfNodes := by
  unfold heapDown
  dsimp only
  split
  · rfl
  · split
    · rfl
    · rw [(siftDown_shape _ _ _ _).max]; rfl

theorem heapDown_wf (h : heap.WF) (hi : index < heap.currentNumNodes) :
    (heap.heapDown index).WF := by
  have hlast : (heap.heapDown index).lastArrayElement = heap.lastArrayElement := by
    unfold heapDown
    dsimp only
    split
    · rfl
    · split
      · rfl
      · rw [(siftDown_shape _ _ _ _).last]; rfl
  have hnext : (heap.heapDown index).nextEmptyElement = (heap.heapDown index).currentNumNodes := by
    unfold heapDown
    dsimp only
    split
    · rfl
    · split
      · rfl
      · rw [(siftDown_shape _ _ _ _).next, (siftDown_shape _ _ _ _).num]; rfl
  refine ⟨by rw [heapDown_max]; exact h.max_pos, by rw [heapDown_max]; exact h.max_le,
    hnext, ?_, ?_⟩
  · rw [hlast, heapDown_max]; exact h.last_eq
  · rw [heapDown_num h hi, heapDown_max]
    have := h.num_le
    omega

/-- Removing the last node moves nothing. -/
theorem heapDown_array_last (h : heap.WF) (hi : index + 1 = heap.currentNumNodes) :
    (heap.heapDown index).ptrToUnderlyingArray = heap.filled index := by
  have hin : index < heap.currentNumNodes := by omega
  have hlast : decr heap.nextEmptyElement = index := by rw [decr_next h hin]; omega
  unfold heapDown
  dsimp only
  rw [if_pos hlast, fillHole_array h hin]

/-- Removing another node sifts the one that filled its hole down. -/
theorem heapDown_array (h : heap.WF) (hi : index + 1 < heap.currentNumNodes) :
    (heap.heapDown index).ptrToUnderlyingArray =
      BinaryHeap.siftDown MinHeapNode.nodeValue (heap.currentNumNodes - 1)
        (heap.currentNumNodes - 1) (heap.filled index) index := by
  have hin : index < heap.currentNumNodes := by omega
  have hpos : 0 < heap.currentNumNodes - 1 := by omega
  have hnotlast : decr heap.nextEmptyElement ≠ index := by rw [decr_next h hin]; omega
  have hnotempty : heap.currentNumNodes - 1 - 1 ≠ UINT32_MAX := by
    have h₁ := h.num_le
    have h₂ := h.max_le
    omega
  unfold heapDown
  dsimp only
  rw [if_neg hnotlast, fillHole_next h hin, decr_of_pos hpos, if_neg hnotempty, siftDown_array,
    fillHole_array h hin, Nat.sub_add_cancel hpos]

/-- Removing a node does not touch those before it. -/
theorem heapDown_array_of_lt (h : heap.WF) (hi : index < heap.currentNumNodes) {k : Nat}
    (hk : k < index) :
    (heap.heapDown index).ptrToUnderlyingArray k = heap.ptrToUnderlyingArray k := by
  have hfilled : heap.filled index k = heap.ptrToUnderlyingArray k := by
    rw [filled_of_lt (by omega), if_neg (by omega)]
  rcases Nat.lt_or_ge (index + 1) heap.currentNumNodes with hlt | hge
  · rw [heapDown_array h hlt, BinaryHeap.siftDown_of_lt hk, hfilled]
  · rw [heapDown_array_last h (by omega), hfilled]

/-- The hole at `index` fits: the last node, which will fill it, is not smaller
than the parent of the hole (or the hole is the root or the last place). -/
def HoleFits (heap : MinHeap) (index : Nat) : Prop :=
  index = 0 ∨ index + 1 = heap.currentNumNodes ∨
    (heap.ptrToUnderlyingArray (BinaryHeap.parent index)).nodeValue ≤
      (heap.ptrToUnderlyingArray (heap.currentNumNodes - 1)).nodeValue

instance (heap : MinHeap) (index : Nat) : Decidable (heap.HoleFits index) :=
  inferInstanceAs (Decidable (_ ∨ _ ∨ _))

/-- The grandchildren of the hole are not smaller than its parent. -/
theorem filled_grand (ho : heap.Ordered) (hi : index + 1 < heap.currentNumNodes)
    (h0 : 0 < index) {c : Nat} (hc : 0 < c) (hcn : c < heap.currentNumNodes - 1)
    (hci : BinaryHeap.parent c = index) :
    (heap.filled index (BinaryHeap.parent index)).nodeValue ≤ (heap.filled index c).nodeValue := by
  have hp := BinaryHeap.parent_lt h0
  have hcp := BinaryHeap.parent_lt hc
  have h₁ := ho index h0 (by omega)
  have h₂ := ho c hc (by omega)
  rw [hci] at h₂
  rw [filled_of_lt (by omega), if_neg (by omega), filled_of_lt hcn, if_neg (by omega)]
  exact h₁.trans h₂

/-- **Removal by index**: the order survives exactly when the hole fits. -/
theorem heapDown_ordered_iff (h : heap.WF) (ho : heap.Ordered)
    (hi : index < heap.currentNumNodes) :
    (heap.heapDown index).Ordered ↔ heap.HoleFits index := by
  unfold Ordered
  rw [heapDown_num h hi]
  rcases Nat.lt_or_ge (index + 1) heap.currentNumNodes with hlt | hge
  · rw [heapDown_array h hlt]
    have hlast : heap.filled index index =
        heap.ptrToUnderlyingArray (heap.currentNumNodes - 1) := by
      rw [filled_of_lt (by omega), if_pos rfl]
    constructor
    · -- an order that survived means the node filling the hole was not too small
      intro hord
      by_contra hfit
      simp only [HoleFits, not_or, not_le] at hfit
      obtain ⟨h0, -, hv⟩ := hfit
      have h0' : 0 < index := by omega
      have hp := BinaryHeap.parent_lt h0'
      refine BinaryHeap.siftDown_undershoot
        (fun c hc hcn hci => filled_grand ho hlt h0' hc hcn hci) h0' (by omega) ?_ hord
      rw [hlast, filled_of_lt (by omega), if_neg (by omega)]
      exact hv
    · intro hfit
      refine BinaryHeap.siftDown_ordered ⟨?_, fun h0 c hc hcn hci =>
        filled_grand ho hlt h0 hc hcn hci⟩ (by omega)
      intro j hj hjn hji
      have hp := BinaryHeap.parent_lt hj
      rw [filled_of_lt (show BinaryHeap.parent j < _ by omega), if_neg hji, filled_of_lt hjn]
      split
      · rename_i hji'
        subst hji'
        rcases hfit with h0 | h1 | hv
        · omega
        · omega
        · exact hv
      · exact ho j hj (by omega)
  · have hlast : index + 1 = heap.currentNumNodes := by omega
    rw [heapDown_array_last h hlast]
    refine ⟨fun _ => .inr (.inl hlast), ?_⟩
    intro _
    refine (ho.mono (Nat.sub_le _ 1)).congr ?_
    intro i hi
    rw [filled_of_lt hi, if_neg (by omega)]

end HeapDown

/-! ## Operations and runs -/

/-- A call on a heap. -/
inductive Op where
  | addNode (elementToAdd valueToOrderBy : Nat)
  | removeNode
  | removeNodeAt (index : Nat)

/-- The heap after a call. -/
def Op.apply (heap : MinHeap) : Op → MinHeap
  | .addNode x v => (heap.addNode x v).1
  | .removeNode => heap.removeNode.1
  | .removeNodeAt index => (heap.removeNodeAt index).1

/-- The index of a removal by index is below the number of nodes. -/
def Op.Valid (heap : MinHeap) : Op → Prop
  | .removeNodeAt index => index < heap.currentNumNodes
  | _ => True

/-- The hole a removal by index leaves fits. -/
def Op.Fits (heap : MinHeap) : Op → Prop
  | .removeNodeAt index => heap.HoleFits index
  | _ => True

theorem removeNodeAt_eq {heap : MinHeap} {index : Nat} (hi : index < heap.currentNumNodes) :
    heap.removeNodeAt index =
      (heap.heapDown index, some (heap.ptrToUnderlyingArray index).ptrToNodeContent) := by
  unfold removeNodeAt
  rw [decr_of_pos (by omega), if_neg (by omega)]

theorem removeNode_eq {heap : MinHeap} (h : heap.WF) (hi : 0 < heap.currentNumNodes) :
    heap.removeNode =
      (heap.heapDown 0, some (heap.ptrToUnderlyingArray 0).ptrToNodeContent) := by
  unfold removeNode
  rw [h.next_eq, if_neg (by omega)]

theorem removeNode_of_empty {heap : MinHeap} (h : heap.WF) (hi : heap.currentNumNodes = 0) :
    heap.removeNode = (heap, none) := by
  unfold removeNode
  rw [h.next_eq, if_pos hi]

theorem Op.apply_wf {heap : MinHeap} (h : heap.WF) {op : Op} (hv : op.Valid heap) :
    (op.apply heap).WF := by
  cases op with
  | addNode x v => exact addNode_wf h x v
  | removeNode =>
    rcases Nat.eq_zero_or_pos heap.currentNumNodes with h0 | hpos
    · simp only [Op.apply, removeNode_of_empty h h0]; exact h
    · simp only [Op.apply, removeNode_eq h hpos]; exact heapDown_wf h hpos
  | removeNodeAt index =>
    simp only [Op.apply, removeNodeAt_eq hv]
    exact heapDown_wf h hv

/-- From an ordered heap, a call leaves an ordered heap iff its hole fits. -/
theorem Op.apply_ordered_iff {heap : MinHeap} (h : heap.WF) (ho : heap.Ordered) {op : Op}
    (hv : op.Valid heap) : (op.apply heap).Ordered ↔ op.Fits heap := by
  cases op with
  | addNode x v => exact iff_of_true (addNode_ordered h ho x v) trivial
  | removeNode =>
    refine iff_of_true ?_ trivial
    rcases Nat.eq_zero_or_pos heap.currentNumNodes with h0 | hpos
    · simp only [Op.apply, removeNode_of_empty h h0]; exact ho
    · simp only [Op.apply, removeNode_eq h hpos]
      exact (heapDown_ordered_iff h ho hpos).mpr (.inl rfl)
  | removeNodeAt index =>
    simp only [Op.apply, removeNodeAt_eq hv]
    exact heapDown_ordered_iff h ho hv

instance (heap : MinHeap) : Decidable heap.Ordered :=
  inferInstanceAs (Decidable (BinaryHeap.Ordered _ _ _))

instance (heap : MinHeap) : (op : Op) → Decidable (op.Valid heap)
  | .addNode _ _ => inferInstanceAs (Decidable True)
  | .removeNode => inferInstanceAs (Decidable True)
  | .removeNodeAt index => inferInstanceAs (Decidable (index < heap.currentNumNodes))

/-- Every call of the run has a valid index. -/
def ValidRun : MinHeap → List Op → Prop
  | _, [] => True
  | heap, op :: ops => op.Valid heap ∧ ValidRun (op.apply heap) ops

/-- The heap is ordered before the run and after every call of it. -/
def OrderedThroughout : MinHeap → List Op → Prop
  | heap, [] => heap.Ordered
  | heap, op :: ops => heap.Ordered ∧ OrderedThroughout (op.apply heap) ops

/-- Every removal by index of the run leaves a hole that fits. -/
def HolesFit : MinHeap → List Op → Prop
  | _, [] => True
  | heap, op :: ops => op.Fits heap ∧ HolesFit (op.apply heap) ops

instance ValidRun.decidable : (heap : MinHeap) → (ops : List Op) → Decidable (ValidRun heap ops)
  | _, [] => inferInstanceAs (Decidable True)
  | heap, op :: ops =>
    have := ValidRun.decidable (op.apply heap) ops
    inferInstanceAs (Decidable (_ ∧ _))

instance OrderedThroughout.decidable :
    (heap : MinHeap) → (ops : List Op) → Decidable (OrderedThroughout heap ops)
  | heap, [] => inferInstanceAs (Decidable heap.Ordered)
  | heap, op :: ops =>
    have := OrderedThroughout.decidable (op.apply heap) ops
    inferInstanceAs (Decidable (_ ∧ _))

theorem OrderedThroughout.head {heap : MinHeap} {ops : List Op}
    (h : OrderedThroughout heap ops) : heap.Ordered := by
  cases ops with
  | nil => exact h
  | cons op ops => exact h.1

/-- The run form of `Op.apply_ordered_iff`. -/
theorem orderedThroughout_iff_of_wf {heap : MinHeap} (h : heap.WF) (ho : heap.Ordered)
    {ops : List Op} (hv : ValidRun heap ops) :
    OrderedThroughout heap ops ↔ HolesFit heap ops := by
  induction ops generalizing heap with
  | nil => exact iff_of_true ho trivial
  | cons op ops ih =>
    have hstep := Op.apply_ordered_iff h ho hv.1
    have hwf := Op.apply_wf h hv.1
    constructor
    · rintro ⟨-, hrest⟩
      exact ⟨hstep.mp hrest.head, (ih hwf hrest.head hv.2).mp hrest⟩
    · rintro ⟨hfit, hrest⟩
      have ho' := hstep.mpr hfit
      exact ⟨ho, (ih hwf ho' hv.2).mpr hrest⟩

theorem newHeap_wf {n : Nat} (hn : 0 < n) (hmax : n ≤ UINT32_MAX) (lookup : Bool)
    (memory : Nat → MinHeapNode) (table : Nat → HashtableValue) (flag : Nat) :
    (newHeap n lookup memory table flag).WF where
  max_pos := hn
  max_le := hmax
  next_eq := rfl
  last_eq := by
    show decr n + 1 = n
    rw [decr_of_pos hn]
    omega
  num_le := Nat.zero_le _

theorem newHeap_ordered (n : Nat) (lookup : Bool) (memory : Nat → MinHeapNode)
    (table : Nat → HashtableValue) (flag : Nat) :
    (newHeap n lookup memory table flag).Ordered :=
  fun i _ hi => absurd hi (Nat.not_lt_zero i)

/-- **Order of a heap over its life**: in every run of additions, top removals
and removals by valid index on a fresh heap, the heap is ordered after every
call iff every removal by index leaves a hole that fits. -/
theorem orderedThroughout_iff {n : Nat} (hn : 0 < n) (hmax : n ≤ UINT32_MAX) (lookup : Bool)
    (memory : Nat → MinHeapNode) (table : Nat → HashtableValue) (flag : Nat) {ops : List Op}
    (hv : ValidRun (newHeap n lookup memory table flag) ops) :
    OrderedThroughout (newHeap n lookup memory table flag) ops ↔
      HolesFit (newHeap n lookup memory table flag) ops :=
  orderedThroughout_iff_of_wf (newHeap_wf hn hmax lookup memory table flag)
    (newHeap_ordered n lookup memory table flag) hv

/-- A heap of capacity `n` without lookup table over zeroed memory. -/
def plainHeap (n : Nat) : MinHeap := newHeap n false (fun _ => ⟨NULL, 0⟩) (fun _ => ⟨none, 0, 0⟩) 0

/-- Six nodes, of which the last (value 3) hangs below 2 and the third last
(value 11) below 10. -/
def sixNodes : List Op :=
  [.addNode 101 1, .addNode 102 10, .addNode 103 2, .addNode 104 11, .addNode 105 12,
    .addNode 106 3]

/-- The order at work: removing the node at index 1 of `sixNodes` leaves a hole
below the root, which any node fits. -/
theorem orderedThroughout_iff_sixNodes :
    OrderedThroughout (plainHeap 6) (sixNodes ++ [.removeNodeAt 1]) ↔
      HolesFit (plainHeap 6) (sixNodes ++ [.removeNodeAt 1]) :=
  orderedThroughout_iff (by decide) (by decide) false _ _ 0 (by decide)

/-- Removing the node at index 3 of `sixNodes` puts 3 below 10: the order does
not survive removals by index. -/
theorem removeNodeAt_breaks_order :
    ¬ ∀ (n : Nat) (lookup : Bool) (memory : Nat → MinHeapNode) (table : Nat → HashtableValue)
        (flag : Nat) (ops : List Op), 0 < n → n ≤ UINT32_MAX →
        ValidRun (newHeap n lookup memory table flag) ops →
        OrderedThroughout (newHeap n lookup memory table flag) ops := by
  intro h
  have hrun := h 6 false (fun _ => ⟨NULL, 0⟩) (fun _ => ⟨none, 0, 0⟩) 0
    (sixNodes ++ [.removeNodeAt 3]) (by decide) (by decide) (by decide)
  exact absurd hrun (by decide)

end MinHeap

end DocetOS
