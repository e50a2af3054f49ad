import DocetOS.DataStructures.HeapIndex

/-!
# The lookup table of a heap over its life

`Exact heap` says that the keys of the lookup table are exactly the contents of
the nodes. Every call keeps this except one: `__heapDown` at the last node takes
its entry out and puts it back, and no later call on this heap takes it out
before the content is added again.

`leakFreeThroughout_iff` lifts this to runs from a fresh heap: the table has one
entry for each node after every call, no insertion fails and no `ASSERT` is
reached, iff no removal takes the last node. `lookup_leaks` is a run that ends
in the `ASSERT`.

Stale entries do no harm as long as there is room for all contents a run ever
adds: `indexOfContent_exact`.
-/

namespace DocetOS

open Lib

namespace MinHeap

/-! ## Status codes of the insertions into the table -/

/-- The status codes of the insertions of the loop of `OS_heap_addNode`. -/
def siftUpPuts : Nat → MinHeap → Nat → List Nat
  | 0, _, _ => []
  | f + 1, heap, currentNodeIndex =>
    if currentNodeIndex = 0 then []
    else
      let parentNodeIndex := getParentIndex currentNodeIndex
      let node := heap.ptrToUnderlyingArray currentNodeIndex
      let parentNode := heap.ptrToUnderlyingArray parentNodeIndex
      if parentNode.nodeValue > node.nodeValue then
        (heap.nodeContentIndexHashTable.elim [] fun table =>
          swapIndexPuts table node.ptrToNodeContent currentNodeIndex parentNode.ptrToNodeContent
            parentNodeIndex) ++
          siftUpPuts f (heap.swapNodes true currentNodeIndex parentNodeIndex) parentNodeIndex
      else []

/-- The status codes of the insertions of the loop of `__heapDown`. -/
def siftDownPuts (maxValidIdx : Nat) : Nat → MinHeap → Nat → List Nat
  | 0, _, _ => []
  | f + 1, heap, elemIdx =>
    match BinaryHeap.smallerChild MinHeapNode.nodeValue heap.ptrToUnderlyingArray (maxValidIdx + 1)
      elemIdx with
    | none => []
    | some smallerChildIdx =>
      let currentNode := heap.ptrToUnderlyingArray elemIdx
      let childNode := heap.ptrToUnderlyingArray smallerChildIdx
      if currentNode.nodeValue > childNode.nodeValue then
        (heap.nodeContentIndexHashTable.elim [] fun table =>
          swapIndexPuts table currentNode.ptrToNodeContent elemIdx childNode.ptrToNodeContent
            smallerChildIdx) ++
          siftDownPuts maxValidIdx f (heap.swapNodes false elemIdx smallerChildIdx) smallerChildIdx
      else []

/-- The status codes of the insertions of `OS_heap_addNode`. -/
def addNodePuts (heap : MinHeap) (elementToAdd valueToOrderBy : Nat) : List Nat :=
  if heap.lastArrayElement < heap.nextEmptyElement then []
  else
    let currentNodeIndex := heap.nextEmptyElement
    (heap.nodeContentIndexHashTable.elim [] fun table =>
      [((table.remove elementToAdd).1.put elementToAdd currentNodeIndex
        .rejectMultipleValuesPerKey).2]) ++
      siftUpPuts currentNodeIndex { heap with
        ptrToUnderlyingArray := Function.update heap.ptrToUnderlyingArray currentNodeIndex
          { ptrToNodeContent := elementToAdd, nodeValue := valueToOrderBy }
        nodeContentIndexHashTable := heap.nodeContentIndexHashTable.map fun table =>
          indexNewNode table elementToAdd currentNodeIndex } currentNodeIndex

/-- The status codes of the insertions of `__heapDown`. -/
def heapDownPuts (heap : MinHeap) (indexOfNodeToRemove : Nat) : List Nat :=
  let elemIdx := decr heap.nextEmptyElement
  let lowest := (heap.ptrToUnderlyingArray elemIdx).ptrToNodeContent
  let removed := (heap.ptrToUnderlyingArray indexOfNodeToRemove).ptrToNodeContent
  (heap.nodeContentIndexHashTable.elim [] fun table =>
    [(((table.remove lowest).1.remove removed).1.put lowest indexOfNodeToRemove
      .rejectMultipleValuesPerKey).2]) ++
    (let heap := heap.fillHole indexOfNodeToRemove
    if elemIdx = indexOfNodeToRemove then []
    else
      let maxValidIdx := decr heap.nextEmptyElement
      if maxValidIdx = UINT32_MAX then []
      else siftDownPuts maxValidIdx (maxValidIdx + 1) heap indexOfNodeToRemove)

/-- The status codes of the insertions of a call. -/
def Op.puts (heap : MinHeap) : Op → List Nat
  | .addNode x v => heap.addNodePuts x v
  | .removeNode => if heap.nextEmptyElement = 0 then [] else heap.heapDownPuts 0
  | .removeNodeAt index =>
    if index > decr heap.currentNumNodes then [] else heap.heapDownPuts index

/-! ## The capacity of the table -/

/-- The capacity of the lookup table, if the heap has one. -/
def lookupCapacity (heap : MinHeap) : Option Nat :=
  heap.nodeContentIndexHashTable.map Hashtable.maximumCapacity

section Capacity

variable (heap : MinHeap)

@[simp] theorem swapNodes_lookupCapacity (assert : Bool) (i j : Nat) :
    (heap.swapNodes assert i j).lookupCapacity = heap.lookupCapacity := by
  cases h : heap.nodeContentIndexHashTable <;> simp [lookupCapacity, swapNodes, swapIndex, h]

theorem siftUp_lookupCapacity (f i : Nat) :
    (siftUp f heap i).lookupCapacity = heap.lookupCapacity := by
  induction f generalizing heap i with
  | zero => rfl
  | succ f ih =>
    simp only [siftUp]
    split
    · rfl
    · split
      · rw [ih, swapNodes_lookupCapacity]
      · rfl

theorem siftDown_lookupCapacity (maxValidIdx f i : Nat) :
    (siftDown maxValidIdx f heap i).lookupCapacity = heap.lookupCapacity := by
  induction f generalizing heap i with
  | zero => rfl
  | succ f ih =>
    simp only [siftDown]
    split
    · rfl
    · split
      · rw [ih, swapNodes_lookupCapacity]
      · rfl

theorem addNode_lookupCapacity (x v : Nat) :
    (heap.addNode x v).1.lookupCapacity = heap.lookupCapacity := by
  unfold addNode
  split
  · rfl
  · refine (siftUp_lookupCapacity _ _ _).trans ?_
    cases h : heap.nodeContentIndexHashTable <;> simp [lookupCapacity, indexNewNode, h]

theorem heapDown_lookupCapacity (index : Nat) :
    (heap.heapDown index).lookupCapacity = heap.lookupCapacity := by
  have hfill : (heap.fillHole index).lookupCapacity = heap.lookupCapacity := by
    cases h : heap.nodeContentIndexHashTable <;>
      simp [lookupCapacity, fillHole, indexFilledHole, h]
  unfold heapDown
  dsimp only
  split
  · exact hfill
  · split
    · exact hfill
    · rw [siftDown_lookupCapacity, hfill]

end Capacity

/-! ## Calls on a heap whose table knows its nodes -/

section Clean

variable {heap : MinHeap} {known : Finset Nat} {n i j x : Nat}

/-- An exchange finds both entries and enters both nodes again. -/
theorem Lookup.swapNodes_clean (h : Lookup known n heap) (assert : Bool) (hi : i < n) (hj : j < n)
    (hij : i ≠ j) :
    (heap.swapNodes assert i j).failedAsserts = heap.failedAsserts ∧
      ∀ status ∈ heap.nodeContentIndexHashTable.elim [] fun table =>
        swapIndexPuts table (heap.ptrToUnderlyingArray i).ptrToNodeContent i
          (heap.ptrToUnderlyingArray j).ptrToNodeContent j, status = 1 := by
  obtain ⟨table, htable, hindexes⟩ := h
  obtain ⟨-, hfound, hputs⟩ := hindexes.swapIndex_spec hi hj hij
  constructor
  · simp only [MinHeap.swapNodes, htable, Option.map_some, Option.elim_some, hfound, Nat.add_zero,
      ite_self]
  · rw [htable, Option.elim_some, hputs]
    simp

/-- No assertion of the loop of `OS_heap_addNode` fails, and no insertion. -/
theorem Lookup.siftUp_clean (h : Lookup known n heap) (f : Nat) (hi : i < n) :
    (MinHeap.siftUp f heap i).failedAsserts = heap.failedAsserts ∧
      ∀ status ∈ siftUpPuts f heap i, status = 1 := by
  induction f generalizing heap i with
  | zero => exact ⟨rfl, fun _ hs => absurd hs List.not_mem_nil⟩
  | succ f ih =>
    simp only [MinHeap.siftUp, siftUpPuts]
    split
    · exact ⟨rfl, fun _ hs => absurd hs List.not_mem_nil⟩
    · split
      · have hp : getParentIndex i < i := by
          rw [getParentIndex_eq]
          exact BinaryHeap.parent_lt (by omega)
        have hpn : getParentIndex i < n := by omega
        have hip : i ≠ getParentIndex i := by omega
        obtain ⟨hasserts, hputs⟩ := h.swapNodes_clean true hi hpn hip
        obtain ⟨hasserts', hputs'⟩ := ih (h.swapNodes true hi hpn hip) hpn
        exact ⟨hasserts'.trans hasserts, List.forall_mem_append.mpr ⟨hputs, hputs'⟩⟩
      · exact ⟨rfl, fun _ hs => absurd hs List.not_mem_nil⟩

/-- No insertion of the loop of `__heapDown` fails, and it has no assertions. -/
theorem Lookup.siftDown_clean (h : Lookup known (j + 1) heap) (f : Nat) (hi : i < j + 1) :
    (MinHeap.siftDown j f heap i).failedAsserts = heap.failedAsserts ∧
      ∀ status ∈ siftDownPuts j f heap i, status = 1 := by
  induction f generalizing heap i with
  | zero => exact ⟨rfl, fun _ hs => absurd hs List.not_mem_nil⟩
  | succ f ih =>
    simp only [MinHeap.siftDown, smallerChild_eq, siftDownPuts]
    cases hsome : BinaryHeap.smallerChild MinHeapNode.nodeValue heap.ptrToUnderlyingArray (j + 1)
        i with
    | none => exact ⟨rfl, fun _ hs => absurd hs List.not_mem_nil⟩
    | some c =>
      obtain ⟨hcn, hc0, hci, -⟩ := BinaryHeap.smallerChild_some hsome
      have hic := BinaryHeap.parent_lt hc0
      dsimp only
      split
      · have hne : i ≠ c := by omega
        obtain ⟨hasserts, hputs⟩ := h.swapNodes_clean false hi hcn hne
        obtain ⟨hasserts', hputs'⟩ := ih (h.swapNodes false hi hcn hne) hcn
        exact ⟨hasserts'.trans hasserts, List.forall_mem_append.mpr ⟨hputs, hputs'⟩⟩
      · exact ⟨rfl, fun _ hs => absurd hs List.not_mem_nil⟩

/-- No assertion of `OS_heap_addNode` fails, and no insertion. -/
theorem Lookup.addNode_clean (h : Lookup known heap.currentNumNodes heap) (hh : Holds known heap)
    (hx : x ∈ known) (hnew : x ∉ heap.contents) (v : Nat) :
    (heap.addNode x v).1.failedAsserts = heap.failedAsserts ∧
      ∀ status ∈ heap.addNodePuts x v, status = 1 := by
  have hroom := hh.num_lt hx hnew
  obtain ⟨table, htable, hindexes⟩ := h
  have hentered := hindexes.indexNewNode hx
    (fun i hi heq => hnew (mem_contents.mpr ⟨i, hi, heq⟩)) v
  obtain ⟨hkeyed, hmem⟩ := hindexes.keyed.remove x
  obtain ⟨table', hput, -, -⟩ :=
    hkeyed.put_of_not_mem hx (fun w hw => ((hmem _).mp hw).2 rfl) heap.currentNumNodes
  have hwritten : Lookup known (heap.currentNumNodes + 1) { heap with
      ptrToUnderlyingArray :=
        Function.update heap.ptrToUnderlyingArray heap.currentNumNodes ⟨x, v⟩
      nodeContentIndexHashTable := some (indexNewNode table x heap.currentNumNodes)
      nextEmptyElement := heap.currentNumNodes } := ⟨_, rfl, hentered⟩
  obtain ⟨hasserts, hputs⟩ :=
    hwritten.siftUp_clean heap.currentNumNodes (Nat.lt_succ_self heap.currentNumNodes)
  have hlast := hh.wf.last_eq
  have hnext := hh.wf.next_eq
  simp only [MinHeap.addNode, addNodePuts]
  rw [if_neg (by omega), if_neg (by omega)]
  simp only [hnext, htable, Option.map_some, Option.elim_some, hput]
  refine ⟨hasserts, ?_⟩
  intro status hs
  rcases List.mem_append.mp hs with hs | hs
  · exact List.mem_singleton.mp hs
  · exact hputs status hs

/-- The loop of `__heapDown` has no assertions. -/
theorem siftDown_failedAsserts (maxValidIdx f : Nat) (heap : MinHeap) (i : Nat) :
    (siftDown maxValidIdx f heap i).failedAsserts = heap.failedAsserts := by
  induction f generalizing heap i with
  | zero => rfl
  | succ f ih =>
    simp only [siftDown]
    split
    · rfl
    · split
      · rw [ih]
        rfl
      · rfl

theorem heapDown_failedAsserts (heap : MinHeap) (index : Nat) :
    (heap.heapDown index).failedAsserts = heap.failedAsserts := by
  unfold heapDown
  dsimp only
  split
  · rfl
  · split
    · rfl
    · rw [siftDown_failedAsserts]
      rfl

end Clean

/-! ## Exact tables -/

/-- The keys of the lookup table are the contents of the nodes, and the table has
room for as many as the heap. -/
structure Exact (heap : MinHeap) : Prop where
  wf : heap.WF
  nodup : heap.contents.Nodup
  lookup : Lookup heap.contents.toFinset heap.currentNumNodes heap
  capacity : heap.lookupCapacity = some heap.maxNumberOfNodes

/-- No entry of the lookup table has leaked, and no assertion has failed. -/
structure LeakFree (heap : MinHeap) : Prop where
  /-- There is one entry for each node. -/
  entries : ∃ table, heap.nodeContentIndexHashTable = some table ∧
    table.content.card = heap.currentNumNodes
  /-- A content that the heap does not hold is not found. -/
  absent : ∀ x ∉ heap.contents, (heap.indexOfContent x).2 = UINT32_MAX
  asserts : heap.failedAsserts = 0

section Exact

variable {heap : MinHeap} {known : Finset Nat} {x index : Nat}

theorem Exact.distinct (h : Exact heap) : Distinct heap.contents.toFinset heap :=
  ⟨h.wf, h.nodup, fun _ hy => Multiset.mem_toFinset.mpr hy⟩

theorem Lookup.setKnown {n : Nat} {known' : Finset Nat} (h : Lookup known n heap)
    (hcapacity : heap.lookupCapacity = some heap.maxNumberOfNodes) (hsub : known ⊆ known')
    (hroom : known'.card ≤ heap.maxNumberOfNodes) : Lookup known' n heap := by
  obtain ⟨table, htable, hindexes⟩ := h
  have hmax : table.maximumCapacity = heap.maxNumberOfNodes := by
    simpa [lookupCapacity, htable] using hcapacity
  exact ⟨table, htable,
    hindexes.setKnown (fun p hp => hsub (hindexes.keyed.mem_known p hp)) (hmax ▸ hroom)⟩

/-- Every key is the content of a node and every content is a key, so there are
as many entries as nodes. -/
theorem Exact.entries (h : Exact heap) :
    ∃ table, heap.nodeContentIndexHashTable = some table ∧
      table.content.card = heap.currentNumNodes := by
  obtain ⟨table, htable, hindexes⟩ := h.lookup
  refine ⟨table, htable, ?_⟩
  rw [← card_contents, ← Multiset.card_map Prod.fst table.content]
  have hkeys : table.content.map Prod.fst = heap.contents := by
    refine (Multiset.Nodup.ext hindexes.keyed.once h.nodup).mpr ?_
    intro x
    constructor
    · intro hx
      obtain ⟨p, hp, rfl⟩ := Multiset.mem_map.mp hx
      exact Multiset.mem_toFinset.mp (hindexes.keyed.mem_known p hp)
    · intro hx
      obtain ⟨i, hi, rfl⟩ := mem_contents.mp hx
      exact Multiset.mem_map.mpr ⟨_, hindexes.mem i hi, rfl⟩
  rw [hkeys]

theorem Exact.absent (h : Exact heap) (hx : x ∉ heap.contents) :
    (heap.indexOfContent x).2 = UINT32_MAX := by
  obtain ⟨table, htable, hindexes⟩ := h.lookup
  have hnot : ∀ w, (x, w) ∉ table.content := fun w hw =>
    hx (Multiset.mem_toFinset.mp (hindexes.keyed.mem_known _ hw))
  have hget := Hashtable.get_of_not_mem hindexes.keyed.wf hnot
  simp only [indexOfContent, htable, hget, if_true]

/-- The contents and one more are no more than the heap has room for, unless it
is full. -/
theorem Exact.known_insert (h : Exact heap) (hnew : x ∉ heap.contents)
    (hlt : heap.currentNumNodes < heap.maxNumberOfNodes) :
    (insert x heap.contents.toFinset).card ≤ heap.maxNumberOfNodes := by
  rw [Finset.card_insert_of_notMem (fun hx => hnew (Multiset.mem_toFinset.mp hx)),
    Multiset.toFinset_card_of_nodup h.nodup, card_contents]
  exact hlt

theorem Exact.addNode_exact (h : Exact heap) (hnew : x ∉ heap.contents)
    (hlt : heap.currentNumNodes < heap.maxNumberOfNodes) (v : Nat) :
    Exact (heap.addNode x v).1 := by
  have hroom := h.known_insert hnew hlt
  have hdistinct := h.distinct.mono (Finset.subset_insert x heap.contents.toFinset)
  have hholds : Holds (insert x heap.contents.toFinset) heap :=
    ⟨hdistinct.wf, hdistinct.nodup, hdistinct.mem_known, hroom⟩
  obtain ⟨hholds', hcontents⟩ := hholds.addNode (Finset.mem_insert_self _ _) hnew v
  have hlookup := (h.lookup.setKnown h.capacity (Finset.subset_insert x _) hroom).addNode hholds
    (Finset.mem_insert_self _ _) hnew v
  refine ⟨hholds'.wf, hholds'.nodup, ?_, ?_⟩
  · rw [hcontents, Multiset.toFinset_cons]
    exact hlookup
  · rw [addNode_lookupCapacity, addNode_max]
    exact h.capacity

theorem Exact.addNode_clean (h : Exact heap) (hnew : x ∉ heap.contents)
    (hlt : heap.currentNumNodes < heap.maxNumberOfNodes) (v : Nat) :
    (heap.addNode x v).1.failedAsserts = heap.failedAsserts ∧
      ∀ status ∈ heap.addNodePuts x v, status = 1 := by
  have hroom := h.known_insert hnew hlt
  have hdistinct := h.distinct.mono (Finset.subset_insert x heap.contents.toFinset)
  have hholds : Holds (insert x heap.contents.toFinset) heap :=
    ⟨hdistinct.wf, hdistinct.nodup, hdistinct.mem_known, hroom⟩
  exact (h.lookup.setKnown h.capacity (Finset.subset_insert x _) hroom).addNode_clean hholds
    (Finset.mem_insert_self _ _) hnew v

/-- Filling a hole that is not the last node leaves no entry of the node that
was there. -/
theorem Exact.fillHole (h : Exact heap) (hi : index + 1 < heap.currentNumNodes) :
    Lookup (heap.heapDown index).contents.toFinset (heap.currentNumNodes - 1)
      (heap.fillHole index) := by
  have hi' : index < heap.currentNumNodes := by omega
  obtain ⟨table, htable, hindexes⟩ := h.lookup
  have hlast : heap.currentNumNodes - 1 < heap.currentNumNodes := by omega
  have hfilled := hindexes.indexFilledHole hi'
  have hkeys : ∀ p ∈ (indexFilledHole table
      (heap.ptrToUnderlyingArray (heap.currentNumNodes - 1)).ptrToNodeContent
      (heap.ptrToUnderlyingArray index).ptrToNodeContent index).content,
      p.1 ∈ (heap.heapDown index).contents.toFinset := by
    intro p hp
    have hp' := Multiset.mem_toFinset.mp (hfilled.keyed.mem_known p hp)
    refine Multiset.mem_toFinset.mpr ((h.distinct.mem_heapDown hi' p.1).mpr ⟨?_, hp'⟩)
    -- the second removal took the entry out, and the insertion is of another content
    obtain ⟨hkeyed₁, hmem₁⟩ := hindexes.keyed.remove
      (heap.ptrToUnderlyingArray (heap.currentNumNodes - 1)).ptrToNodeContent
    obtain ⟨hkeyed₂, hmem₂⟩ := hkeyed₁.remove (heap.ptrToUnderlyingArray index).ptrToNodeContent
    rcases (hkeyed₂.put (hindexes.mem_known hlast) index).2 p hp with rfl | hp
    · intro heq
      have := hindexes.inj hlast hi' heq
      omega
    · exact ((hmem₂ p).mp hp).2
  have hmax : table.maximumCapacity = heap.maxNumberOfNodes := by
    simpa [lookupCapacity, htable] using h.capacity
  have hroom : (heap.heapDown index).contents.toFinset.card ≤ (indexFilledHole table
      (heap.ptrToUnderlyingArray (heap.currentNumNodes - 1)).ptrToNodeContent
      (heap.ptrToUnderlyingArray index).ptrToNodeContent index).maximumCapacity := by
    refine (Multiset.toFinset_card_le _).trans ?_
    rw [card_contents, heapDown_num h.wf hi']
    have hle := h.wf.num_le
    simp only [indexFilledHole, Hashtable.put_maximumCapacity, Hashtable.remove_maximumCapacity,
      hmax]
    omega
  refine ⟨indexFilledHole table
    (heap.ptrToUnderlyingArray (heap.currentNumNodes - 1)).ptrToNodeContent
    (heap.ptrToUnderlyingArray index).ptrToNodeContent index, ?_, ?_⟩
  · simp only [MinHeap.fillHole, htable, Option.map_some, decr_next h.wf hi']
  · rw [fillHole_array h.wf hi']
    exact hfilled.setKnown hkeys hroom

theorem Exact.heapDown_exact (h : Exact heap) (hi : index + 1 < heap.currentNumNodes) :
    Exact (heap.heapDown index) := by
  have hi' : index < heap.currentNumNodes := by omega
  obtain ⟨hdown, -⟩ := h.distinct.heapDown hi'
  refine ⟨hdown.wf, hdown.nodup, (h.fillHole hi).heapDown_of_fillHole h.wf hi', ?_⟩
  rw [heapDown_lookupCapacity, heapDown_max]
  exact h.capacity

/-- The insertions of `__heapDown` succeed. -/
theorem Exact.heapDown_clean (h : Exact heap) (hi : index + 1 < heap.currentNumNodes) :
    (heap.heapDown index).failedAsserts = heap.failedAsserts ∧
      ∀ status ∈ heap.heapDownPuts index, status = 1 := by
  have hi' : index < heap.currentNumNodes := by omega
  have hpos : 0 < heap.currentNumNodes - 1 := by omega
  obtain ⟨j, hj⟩ : ∃ j, heap.currentNumNodes - 1 = j + 1 := ⟨heap.currentNumNodes - 1 - 1, by omega⟩
  have hfill := h.fillHole hi
  rw [hj] at hfill
  obtain ⟨hasserts, hputs⟩ := hfill.siftDown_clean (j + 1) (show index < j + 1 by omega)
  have hmax := h.wf.max_le
  have hle := h.wf.num_le
  simp only [UINT32_MAX] at hmax
  -- the last node and the removed one have different contents, so the insertion finds no entry
  have hput : (heap.nodeContentIndexHashTable.elim [] fun table =>
      [(((table.remove (heap.ptrToUnderlyingArray (j + 1)).ptrToNodeContent).1.remove
        (heap.ptrToUnderlyingArray index).ptrToNodeContent).1.put
          (heap.ptrToUnderlyingArray (j + 1)).ptrToNodeContent index
            .rejectMultipleValuesPerKey).2]) = [1] := by
    obtain ⟨table, htable, hindexes⟩ := h.lookup
    obtain ⟨hkeyed₁, hmem₁⟩ := hindexes.keyed.remove
      (heap.ptrToUnderlyingArray (j + 1)).ptrToNodeContent
    obtain ⟨hkeyed₂, hmem₂⟩ := hkeyed₁.remove (heap.ptrToUnderlyingArray index).ptrToNodeContent
    obtain ⟨table₃, hput, -, -⟩ := hkeyed₂.put_of_not_mem
      (hindexes.mem_known (show j + 1 < heap.currentNumNodes by omega))
      (fun w hw => ((hmem₁ _).mp ((hmem₂ _).mp hw).1).2 rfl) index
    rw [htable, Option.elim_some, hput]
  simp only [MinHeap.heapDown, heapDownPuts, decr_next h.wf hi', fillHole_next h.wf hi', hj,
    decr_succ, hput]
  have hlast : j + 1 ≠ index := by omega
  have hnonempty : j ≠ UINT32_MAX := by
    simp only [UINT32_MAX]
    omega
  rw [if_neg hlast, if_neg hnonempty, if_neg hlast, if_neg hnonempty]
  refine ⟨hasserts, ?_⟩
  intro status hs
  rcases List.mem_append.mp hs with hs | hs
  · exact List.mem_singleton.mp hs
  · exact hputs status hs

/-- `__heapDown` at the last node leaves its entry behind. -/
theorem Exact.heapDown_last (h : Exact heap) (hi : index + 1 = heap.currentNumNodes) :
    ¬ LeakFree (heap.heapDown index) := by
  intro hfree
  have hi' : index < heap.currentNumNodes := by omega
  have hgone : (heap.ptrToUnderlyingArray index).ptrToNodeContent ∉
      (heap.heapDown index).contents :=
    fun hmem => ((h.distinct.mem_heapDown hi' _).mp hmem).1 rfl
  have hnone := hfree.absent _ hgone
  have hlastIdx : heap.currentNumNodes - 1 = index := by omega
  have hfill : heap.heapDown index = heap.fillHole index := by
    simp only [MinHeap.heapDown, decr_next h.wf hi', hlastIdx, if_true]
  obtain ⟨table, htable, hindexes⟩ := h.lookup
  have hfilled := hindexes.indexFilledHole hi'
  obtain ⟨hkeyed₁, hmem₁⟩ := hindexes.keyed.remove
    (heap.ptrToUnderlyingArray index).ptrToNodeContent
  obtain ⟨hkeyed₂, hmem₂⟩ := hkeyed₁.remove (heap.ptrToUnderlyingArray index).ptrToNodeContent
  obtain ⟨table₃, hput, hkeyed₃, hcontent⟩ := hkeyed₂.put_of_not_mem (hindexes.mem_known hi')
    (fun w hw => ((hmem₁ _).mp ((hmem₂ _).mp hw).1).2 rfl) index
  have htable₃ : (heap.heapDown index).nodeContentIndexHashTable = some table₃ := by
    rw [hfill]
    simp only [MinHeap.fillHole, htable, Option.map_some, decr_next h.wf hi', hlastIdx,
      MinHeap.indexFilledHole, hput]
  have hget := hkeyed₃.get_value (hcontent ▸ Multiset.mem_cons_self _ _)
  -- the table still gives the index, which is a valid one
  have hfound : ((heap.heapDown index).indexOfContent
      (heap.ptrToUnderlyingArray index).ptrToNodeContent).2 = index := by
    simp only [indexOfContent, htable₃, hget, Nat.one_ne_zero, if_false]
  have hmax := h.wf.max_le
  have hle := h.wf.num_le
  omega

end Exact

/-! ## Runs -/

/-- A new node has a content that the heap does not hold. -/
def Op.Fresh (heap : MinHeap) : Op → Prop
  | .addNode x _ => x ∉ heap.contents
  | _ => True

/-- A removal does not take the last node. -/
def Op.SparesLast (heap : MinHeap) : Op → Prop
  | .addNode _ _ => True
  | .removeNode => heap.currentNumNodes ≠ 1
  | .removeNodeAt index => index + 1 ≠ heap.currentNumNodes

/-- Every new node of the run is fresh. -/
def FreshRun : MinHeap → List Op → Prop
  | _, [] => True
  | heap, op :: ops => op.Fresh heap ∧ FreshRun (op.apply heap) ops

/-- No removal of the run takes the last node. -/
def SparesLastRun : MinHeap → List Op → Prop
  | _, [] => True
  | heap, op :: ops => op.SparesLast heap ∧ SparesLastRun (op.apply heap) ops

/-- After every call of the run the table is free of leaks, and every insertion
into it has succeeded. -/
def LeakFreeThroughout : MinHeap → List Op → Prop
  | _, [] => True
  | heap, op :: ops =>
    (LeakFree (op.apply heap) ∧ ∀ status ∈ op.puts heap, status = 1) ∧
      LeakFreeThroughout (op.apply heap) ops

section Runs

variable {heap : MinHeap}

theorem Exact.leakFree (h : Exact heap) (hasserts : heap.failedAsserts = 0) : LeakFree heap :=
  ⟨h.entries, fun _ hx => h.absent hx, hasserts⟩

/-- The step lemma: a call that spares the last node keeps the table exact. -/
theorem Exact.apply (h : Exact heap) {op : Op} (hv : op.Valid heap) (hf : op.Fresh heap)
    (hs : op.SparesLast heap) :
    Exact (op.apply heap) ∧ (op.apply heap).failedAsserts = heap.failedAsserts ∧
      ∀ status ∈ op.puts heap, status = 1 := by
  have hnext := h.wf.next_eq
  cases op with
  | addNode x v =>
    by_cases hfull : heap.currentNumNodes = heap.maxNumberOfNodes
    · have hlast := h.wf.last_eq
      simp only [Op.apply, Op.puts, addNodePuts, addNode_of_full h.wf hfull]
      rw [if_pos (by omega)]
      exact ⟨h, trivial, fun _ hs => absurd hs List.not_mem_nil⟩
    · have hle := h.wf.num_le
      have hlt : heap.currentNumNodes < heap.maxNumberOfNodes := by omega
      exact ⟨h.addNode_exact hf hlt v, h.addNode_clean hf hlt v⟩
  | removeNode =>
    rcases Nat.eq_zero_or_pos heap.currentNumNodes with hzero | hpos
    · simp only [Op.apply, Op.puts, removeNode_of_empty h.wf hzero]
      rw [if_pos (by omega)]
      exact ⟨h, trivial, fun _ hs => absurd hs List.not_mem_nil⟩
    · -- the first node is not the last one
      have hi : 0 + 1 < heap.currentNumNodes := by
        have hne : heap.currentNumNodes ≠ 1 := hs
        omega
      simp only [Op.apply, Op.puts, removeNode_eq h.wf hpos]
      rw [if_neg (by omega)]
      exact ⟨h.heapDown_exact hi, h.heapDown_clean hi⟩
  | removeNodeAt index =>
    have hi : index < heap.currentNumNodes := hv
    have hne : index + 1 ≠ heap.currentNumNodes := hs
    simp only [Op.apply, Op.puts, removeNodeAt_eq hi]
    rw [decr_of_pos (by omega), if_neg (by omega)]
    exact ⟨h.heapDown_exact (by omega), h.heapDown_clean (by omega)⟩

/-- A removal that takes the last node leaks. -/
theorem Exact.apply_last (h : Exact heap) {op : Op} (hv : op.Valid heap)
    (hs : ¬ op.SparesLast heap) : ¬ LeakFree (op.apply heap) := by
  cases op with
  | addNode x v => exact absurd trivial hs
  | removeNode =>
    have hone : heap.currentNumNodes = 1 := not_not.mp hs
    simp only [Op.apply, removeNode_eq h.wf (show 0 < heap.currentNumNodes by omega)]
    exact h.heapDown_last (by omega)
  | removeNodeAt index =>
    have hi : index < heap.currentNumNodes := hv
    simp only [Op.apply, removeNodeAt_eq hi]
    exact h.heapDown_last (not_not.mp hs)

/-- The run form of the two. -/
theorem Exact.throughout_iff (h : Exact heap) (hasserts : heap.failedAsserts = 0)
    {ops : List Op} (hv : ValidRun heap ops) (hf : FreshRun heap ops) :
    LeakFreeThroughout heap ops ↔ SparesLastRun heap ops := by
  induction ops generalizing heap with
  | nil => exact Iff.rfl
  | cons op ops ih =>
    by_cases hs : op.SparesLast heap
    · obtain ⟨hexact, hsame, hputs⟩ := h.apply hv.1 hf.1 hs
      have hzero := hsame.trans hasserts
      have hrest := ih hexact hzero hv.2 hf.2
      exact and_congr (iff_of_true ⟨hexact.leakFree hzero, hputs⟩ hs) hrest
    · exact iff_of_false (fun hall => h.apply_last hv.1 hs hall.1.1) fun hall => hs hall.1

end Runs

theorem newHeap_exact {n : Nat} (hn : 0 < n) (hmax : n ≤ UINT32_MAX)
    (memory : Nat → MinHeapNode) (table : Nat → HashtableValue) (flag : Nat) :
    Exact (newHeap n true memory table flag) where
  wf := newHeap_wf hn hmax true memory table flag
  nodup := Multiset.nodup_zero
  lookup := @newHeap_lookup ∅ n hn (Nat.zero_le n) memory table flag
  capacity := rfl

/-- **The lookup table over the life of a heap**: in every run of additions of
fresh contents, top removals and removals by valid index on a fresh heap, the
table has one entry for each node after every call, finds no content the heap
does not hold, refuses no insertion and meets no failing assertion iff no
removal takes the last node. -/
theorem leakFreeThroughout_iff {n : Nat} (hn : 0 < n) (hmax : n ≤ UINT32_MAX)
    (memory : Nat → MinHeapNode) (table : Nat → HashtableValue) (flag : Nat) {ops : List Op}
    (hv : ValidRun (newHeap n true memory table flag) ops)
    (hf : FreshRun (newHeap n true memory table flag) ops) :
    LeakFreeThroughout (newHeap n true memory table flag) ops ↔
      SparesLastRun (newHeap n true memory table flag) ops :=
  (newHeap_exact hn hmax memory table flag).throughout_iff rfl hv hf

instance (heap : MinHeap) : (op : Op) → Decidable (op.Fresh heap)
  | .addNode x _ => inferInstanceAs (Decidable (x ∉ heap.contents))
  | .removeNode => inferInstanceAs (Decidable True)
  | .removeNodeAt _ => inferInstanceAs (Decidable True)

instance FreshRun.decidable : (heap : MinHeap) → (ops : List Op) → Decidable (FreshRun heap ops)
  | _, [] => inferInstanceAs (Decidable True)
  | heap, op :: ops =>
    have := FreshRun.decidable (op.apply heap) ops
    inferInstanceAs (Decidable (_ ∧ _))

/-- A heap of capacity `n` with lookup table over zeroed memory. -/
def indexedHeap (n : Nat) : MinHeap :=
  newHeap n true (fun _ => ⟨NULL, 0⟩) (fun _ => ⟨none, 0, 0⟩) 0

/-- Two nodes, of which the first, at the root, is taken by index. -/
theorem leakFreeThroughout_iff_twoNodes :
    LeakFreeThroughout (indexedHeap 2) [.addNode 101 1, .addNode 102 2, .removeNodeAt 0] ↔
      SparesLastRun (indexedHeap 2) [.addNode 101 1, .addNode 102 2, .removeNodeAt 0] :=
  leakFreeThroughout_iff (by decide) (by decide) _ _ 0 (by decide) (by decide)

/-- A node that was alone in its heap leaves an entry behind. The next two nodes
fill a heap of two, the entry of the second is refused, and moving this node up
finds no entry to move: the assertion of `OS_heap_addNode` fails. -/
theorem lookup_leaks :
    let ops : List Op := [.addNode 101 1, .removeNode, .addNode 102 5, .addNode 103 2]
    (ValidRun (indexedHeap 2) ops ∧ FreshRun (indexedHeap 2) ops) ∧
      ¬ LeakFreeThroughout (indexedHeap 2) ops ∧
      (((indexedHeap 2).addNode 101 1).1.removeNode.1.indexOfContent 101).2 = 0 ∧
      (ops.foldl Op.apply (indexedHeap 2)).failedAsserts = 1 := by
  refine ⟨by decide, ?_, by decide, by decide⟩
  rintro ⟨-, ⟨hfree, -⟩, -⟩
  exact absurd (hfree.absent 101 (by decide)) (by decide)

/-! ## Indices of the nodes -/

/-- The lookup gives the index of every node, and no assertion has failed. -/
structure FindsEach (heap : MinHeap) : Prop where
  index : ∀ i < heap.currentNumNodes,
    (heap.indexOfContent (heap.ptrToUnderlyingArray i).ptrToNodeContent).2 = i
  asserts : heap.failedAsserts = 0

/-- After every call of the run the lookup gives the index of every node. -/
def FindsEachThroughout : MinHeap → List Op → Prop
  | _, [] => True
  | heap, op :: ops => FindsEach (op.apply heap) ∧ FindsEachThroughout (op.apply heap) ops

/-- The content a call adds. -/
def Op.added : Op → Finset Nat
  | .addNode x _ => {x}
  | _ => ∅

/-- The contents that the calls of a run add. -/
def addedContents (ops : List Op) : Finset Nat :=
  ops.foldr (fun op rest => op.added ∪ rest) ∅

/-- The table has room for all that are known and knows the nodes; stale entries
of other known contents may fill the rest of it. -/
structure Tracked (known : Finset Nat) (heap : MinHeap) : Prop where
  holds : Holds known heap
  lookup : Lookup known heap.currentNumNodes heap
  asserts : heap.failedAsserts = 0

section Tracked

variable {heap : MinHeap} {known : Finset Nat} {index : Nat}

/-- A content is at one index only, so the index found is the one asked about. -/
theorem Tracked.findsEach (h : Tracked known heap) : FindsEach heap := by
  refine ⟨?_, h.asserts⟩
  intro i hi
  obtain ⟨flagged, index, heq, hindex, hcontent, -⟩ :=
    h.lookup.indexOfContent (mem_contents.mpr ⟨i, hi, rfl⟩)
  obtain ⟨table, -, hindexes⟩ := h.lookup
  rw [heq]
  exact hindexes.inj hindex hi hcontent

theorem Tracked.heapDown (h : Tracked known heap) (hi : index < heap.currentNumNodes) :
    Tracked known (heap.heapDown index) where
  holds := (h.holds.heapDown hi).1
  lookup := h.lookup.heapDown h.holds.wf hi
  asserts := (heapDown_failedAsserts heap index).trans h.asserts

/-- The step lemma: the nodes stay known to the table. -/
theorem Tracked.apply (h : Tracked known heap) {op : Op} (hv : op.Valid heap)
    (hf : op.Fresh heap) (hknown : op.added ⊆ known) : Tracked known (op.apply heap) := by
  cases op with
  | addNode x v =>
    have hx : x ∈ known := hknown (Finset.mem_singleton_self x)
    have hclean := h.lookup.addNode_clean h.holds hx hf v
    exact ⟨(h.holds.addNode hx hf v).1, h.lookup.addNode h.holds hx hf v,
      hclean.1.trans h.asserts⟩
  | removeNode =>
    rcases Nat.eq_zero_or_pos heap.currentNumNodes with hzero | hpos
    · simp only [Op.apply, removeNode_of_empty h.holds.wf hzero]
      exact h
    · simp only [Op.apply, removeNode_eq h.holds.wf hpos]
      exact h.heapDown hpos
  | removeNodeAt index =>
    have hi : index < heap.currentNumNodes := hv
    simp only [Op.apply, removeNodeAt_eq hi]
    exact h.heapDown hi

theorem Tracked.throughout (h : Tracked known heap) {ops : List Op} (hv : ValidRun heap ops)
    (hf : FreshRun heap ops) (hknown : addedContents ops ⊆ known) :
    FindsEachThroughout heap ops := by
  induction ops generalizing heap with
  | nil => trivial
  | cons op ops ih =>
    obtain ⟨hop, hops⟩ := Finset.union_subset_iff.mp hknown
    have hnext := h.apply hv.1 hf.1 hop
    exact ⟨hnext.findsEach, ih hnext hv.2 hf.2 hops⟩

end Tracked

/-- **The lookup is exact for the nodes**: in every run of additions of fresh
contents, top removals and removals by valid index that adds no more contents
altogether than the heap has places, the lookup gives the index of every node
after every call, and no assertion fails. -/
theorem indexOfContent_exact {n : Nat} (hn : 0 < n) (hmax : n ≤ UINT32_MAX)
    (memory : Nat → MinHeapNode) (table : Nat → HashtableValue) (flag : Nat) {ops : List Op}
    (hv : ValidRun (newHeap n true memory table flag) ops)
    (hf : FreshRun (newHeap n true memory table flag) ops)
    (hroom : (addedContents ops).card ≤ n) :
    FindsEachThroughout (newHeap n true memory table flag) ops := by
  have hfresh : Tracked (addedContents ops) (newHeap n true memory table flag) :=
    ⟨newHeap_holds hn hmax hroom true memory table flag,
      newHeap_lookup hn hroom memory table flag, rfl⟩
  exact hfresh.throughout hv hf (Finset.Subset.refl _)

/-- Two contents in a heap of two; 101 comes back after it has left a stale
entry. -/
theorem indexOfContent_exact_twoContents :
    FindsEachThroughout (indexedHeap 2)
      [.addNode 101 1, .removeNode, .addNode 102 5, .addNode 101 2, .removeNodeAt 1] :=
  indexOfContent_exact (by decide) (by decide) _ _ 0 (by decide) (by decide) (by decide)

end MinHeap

end DocetOS
