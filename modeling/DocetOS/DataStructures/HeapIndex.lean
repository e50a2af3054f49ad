import DocetOS.DataStructures.HashtableKeys
import DocetOS.DataStructures.HeapOrder

/-!
# What a heap holds, and where

`Holds known heap`: the contents of the nodes are distinct and among the `known`
ones, for all of which there is room. `Lookup known heap n`: the lookup table
gives the index of each of the first `n` nodes. The operations keep both
whatever the order of the nodes is, so removing a content by the index that
`indexOfContent` gives removes this content.

The table is exact for the nodes only: `__heapDown` enters the last node again
when it is the one removed, and the entry stays until this content comes back.
-/

namespace DocetOS

open Lib

namespace MinHeap

/-- The contents of the nodes. -/
def contents (heap : MinHeap) : Multiset Nat :=
  heap.nodes.map MinHeapNode.ptrToNodeContent

variable {heap : MinHeap} {known : Finset Nat} {x index : Nat}

theorem mem_contents : x ∈ heap.contents ↔
    ∃ i < heap.currentNumNodes, (heap.ptrToUnderlyingArray i).ptrToNodeContent = x := by
  simp only [contents, nodes, Multiset.mem_map, BinaryHeap.mem_contents]
  constructor
  · rintro ⟨_, ⟨i, hi, rfl⟩, hx⟩
    exact ⟨i, hi, hx⟩
  · rintro ⟨i, hi, hx⟩
    exact ⟨_, ⟨i, hi, rfl⟩, hx⟩

@[simp] theorem card_contents (heap : MinHeap) : heap.contents.card = heap.currentNumNodes := by
  simp [contents, nodes]

/-- Filling the hole takes out the node that was there. -/
theorem filled_nodes (hi : index < heap.currentNumNodes) :
    heap.ptrToUnderlyingArray index ::ₘ
      BinaryHeap.contents (heap.filled index) (heap.currentNumNodes - 1) = heap.nodes := by
  obtain ⟨n, hn⟩ : ∃ n, heap.currentNumNodes = n + 1 := ⟨heap.currentNumNodes - 1, by omega⟩
  unfold nodes filled
  rw [hn, Nat.add_sub_cancel, BinaryHeap.contents_update_of_le (Nat.le_refl n),
    BinaryHeap.contents_succ]
  rcases Nat.lt_or_ge index n with hlt | hge
  · exact BinaryHeap.cons_contents_update hlt _
  · obtain rfl : index = n := by omega
    rw [BinaryHeap.contents_update_of_le (Nat.le_refl index)]

/-- `__heapDown` takes out the node at its index. -/
theorem heapDown_nodes (h : heap.WF) (hi : index < heap.currentNumNodes) :
    heap.ptrToUnderlyingArray index ::ₘ (heap.heapDown index).nodes = heap.nodes := by
  rw [← filled_nodes hi]
  unfold nodes
  rw [heapDown_num h hi]
  rcases Nat.lt_or_ge (index + 1) heap.currentNumNodes with hlt | hge
  · rw [heapDown_array h hlt, BinaryHeap.contents_siftDown (by omega)]
  · rw [heapDown_array_last h (by omega)]

/-! ## Distinct contents -/

/-- Distinct known contents. -/
structure Distinct (known : Finset Nat) (heap : MinHeap) : Prop where
  wf : heap.WF
  nodup : heap.contents.Nodup
  mem_known : ∀ x ∈ heap.contents, x ∈ known

namespace Distinct

theorem mono {known' : Finset Nat} (h : Distinct known heap) (hsub : known ⊆ known') :
    Distinct known' heap :=
  ⟨h.wf, h.nodup, fun x hx => hsub (h.mem_known x hx)⟩

/-- A known content that is absent fits in, if there is room for all that are
known. -/
theorem num_lt (h : Distinct known heap) (hroom : known.card ≤ heap.maxNumberOfNodes)
    (hx : x ∈ known) (hnew : x ∉ heap.contents) :
    heap.currentNumNodes < heap.maxNumberOfNodes := by
  have hsub : heap.contents.toFinset ⊆ known.erase x := by
    intro y hy
    have hy' := Multiset.mem_toFinset.mp hy
    exact Finset.mem_erase.mpr ⟨fun heq => hnew (heq ▸ hy'), h.mem_known y hy'⟩
  have hcard := Finset.card_le_card hsub
  rw [Multiset.toFinset_card_of_nodup h.nodup, card_contents, Finset.card_erase_of_mem hx] at hcard
  have hpos : 0 < known.card := Finset.card_pos.mpr ⟨x, hx⟩
  omega

/-- `addNode` adds a known content that the heap does not hold to a heap that is
not full. -/
theorem addNode (h : Distinct known heap) (hx : x ∈ known) (hnew : x ∉ heap.contents)
    (hlt : heap.currentNumNodes < heap.maxNumberOfNodes) (v : Nat) :
    Distinct known (heap.addNode x v).1 ∧ (heap.addNode x v).1.contents = x ::ₘ heap.contents := by
  have hcontents : (heap.addNode x v).1.contents = x ::ₘ heap.contents := by
    unfold contents
    rw [addNode_nodes h.wf hlt, Multiset.map_cons]
  refine ⟨{ wf := addNode_wf h.wf x v, nodup := ?_, mem_known := ?_ }, hcontents⟩
  · rw [hcontents]
    exact Multiset.nodup_cons.mpr ⟨hnew, h.nodup⟩
  · intro y hy
    rw [hcontents, Multiset.mem_cons] at hy
    rcases hy with rfl | hy
    · exact hx
    · exact h.mem_known y hy

/-- `__heapDown` removes the content at its index. -/
theorem heapDown (h : Distinct known heap) (hi : index < heap.currentNumNodes) :
    Distinct known (heap.heapDown index) ∧
      (heap.ptrToUnderlyingArray index).ptrToNodeContent ::ₘ (heap.heapDown index).contents =
        heap.contents := by
  have hcontents : (heap.ptrToUnderlyingArray index).ptrToNodeContent ::ₘ
      (heap.heapDown index).contents = heap.contents := by
    unfold contents
    rw [← heapDown_nodes h.wf hi, Multiset.map_cons]
  have hnodup := h.nodup
  rw [← hcontents, Multiset.nodup_cons] at hnodup
  refine ⟨{ wf := heapDown_wf h.wf hi, nodup := hnodup.2, mem_known := ?_ }, hcontents⟩
  intro y hy
  exact h.mem_known y (hcontents ▸ Multiset.mem_cons_of_mem hy)

/-- What the heap holds after a removal by index. -/
theorem mem_heapDown (h : Distinct known heap) (hi : index < heap.currentNumNodes) (y : Nat) :
    y ∈ (heap.heapDown index).contents ↔
      y ≠ (heap.ptrToUnderlyingArray index).ptrToNodeContent ∧ y ∈ heap.contents := by
  have hnodup := h.nodup
  have hcontents := (h.heapDown hi).2
  rw [← hcontents, Multiset.nodup_cons] at hnodup
  rw [← hcontents, Multiset.mem_cons]
  constructor
  · intro hy
    exact ⟨fun heq => hnodup.1 (heq ▸ hy), .inr hy⟩
  · rintro ⟨hne, hy⟩
    exact hy.resolve_left hne

end Distinct

/-- Distinct known contents, and room for all that are known. -/
structure Holds (known : Finset Nat) (heap : MinHeap) : Prop where
  wf : heap.WF
  nodup : heap.contents.Nodup
  mem_known : ∀ x ∈ heap.contents, x ∈ known
  room : known.card ≤ heap.maxNumberOfNodes

namespace Holds

theorem distinct (h : Holds known heap) : Distinct known heap := ⟨h.wf, h.nodup, h.mem_known⟩

theorem num_lt (h : Holds known heap) (hx : x ∈ known) (hnew : x ∉ heap.contents) :
    heap.currentNumNodes < heap.maxNumberOfNodes :=
  h.distinct.num_lt h.room hx hnew

/-- `addNode` adds a known content that the heap does not hold. -/
theorem addNode (h : Holds known heap) (hx : x ∈ known) (hnew : x ∉ heap.contents) (v : Nat) :
    Holds known (heap.addNode x v).1 ∧ (heap.addNode x v).1.contents = x ::ₘ heap.contents := by
  obtain ⟨hd, hcontents⟩ := h.distinct.addNode hx hnew (h.num_lt hx hnew) v
  have hroom : known.card ≤ (heap.addNode x v).1.maxNumberOfNodes := by
    rw [addNode_max]
    exact h.room
  exact ⟨⟨hd.wf, hd.nodup, hd.mem_known, hroom⟩, hcontents⟩

/-- `__heapDown` removes the content at its index. -/
theorem heapDown (h : Holds known heap) (hi : index < heap.currentNumNodes) :
    Holds known (heap.heapDown index) ∧
      (heap.ptrToUnderlyingArray index).ptrToNodeContent ::ₘ (heap.heapDown index).contents =
        heap.contents := by
  obtain ⟨hd, hcontents⟩ := h.distinct.heapDown hi
  have hroom : known.card ≤ (heap.heapDown index).maxNumberOfNodes := by
    rw [heapDown_max]
    exact h.room
  exact ⟨⟨hd.wf, hd.nodup, hd.mem_known, hroom⟩, hcontents⟩

end Holds

/-! ## The lookup table -/

/-- The status codes of the two insertions of `swapIndex`. -/
def swapIndexPuts (table : Hashtable) (a : Nat) (i : Nat) (b : Nat) (j : Nat) : List Nat :=
  let removed := ((table.remove a).1.remove b).1
  let put := removed.put a j .rejectMultipleValuesPerKey
  [put.2, (put.1.put b i .rejectMultipleValuesPerKey).2]

/-- The table gives the index of each of the first `n` nodes of `a`. -/
structure Indexes (known : Finset Nat) (table : Hashtable) (a : Nat → MinHeapNode) (n : Nat) :
    Prop where
  keyed : table.Keyed known
  mem : ∀ i < n, ((a i).ptrToNodeContent, i) ∈ table.content

namespace Indexes

variable {table : Hashtable} {a : Nat → MinHeapNode} {n i j : Nat}

theorem inj (h : Indexes known table a n) (hi : i < n) (hj : j < n)
    (heq : (a i).ptrToNodeContent = (a j).ptrToNodeContent) : i = j := by
  have hmem := h.mem i hi
  rw [heq] at hmem
  exact h.keyed.value_unique hmem (h.mem j hj)

theorem mem_known (h : Indexes known table a n) (hi : i < n) : (a i).ptrToNodeContent ∈ known :=
  h.keyed.mem_known _ (h.mem i hi)

/-- The keys may be known among others, if there is room for these. -/
theorem setKnown (h : Indexes known table a n) {known' : Finset Nat}
    (hmem : ∀ p ∈ table.content, p.1 ∈ known') (hroom : known'.card ≤ table.maximumCapacity) :
    Indexes known' table a n :=
  ⟨h.keyed.setKnown hmem hroom, h.mem⟩

/-- Exchanging two nodes and their entries: both removals find an entry, and both
insertions succeed. -/
theorem swapIndex_spec (h : Indexes known table a n) (hi : i < n) (hj : j < n) (hij : i ≠ j) :
    Indexes known
        (swapIndex table (a i).ptrToNodeContent i (a j).ptrToNodeContent j).1
        (BinaryHeap.swap a i j) n ∧
      (swapIndex table (a i).ptrToNodeContent i (a j).ptrToNodeContent j).2 = 0 ∧
      swapIndexPuts table (a i).ptrToNodeContent i (a j).ptrToNodeContent j = [1, 1] := by
  have hne : (a j).ptrToNodeContent ≠ (a i).ptrToNodeContent :=
    fun heq => hij (h.inj hj hi heq).symm
  -- the two removals, and then the insertions, whose keys the removals have made free
  obtain ⟨hkeyed₁, hmem₁⟩ := h.keyed.remove (a i).ptrToNodeContent
  obtain ⟨hkeyed₂, hmem₂⟩ := hkeyed₁.remove (a j).ptrToNodeContent
  obtain ⟨table₃, hput₃, hkeyed₃, hcontent₃⟩ := hkeyed₂.put_of_not_mem (h.mem_known hi)
    (fun w hw => ((hmem₁ _).mp ((hmem₂ _).mp hw).1).2 rfl) j
  have hnew : ∀ w, ((a j).ptrToNodeContent, w) ∉ table₃.content := by
    intro w hw
    rw [hcontent₃, Multiset.mem_cons, Prod.mk.injEq, hmem₂] at hw
    rcases hw with ⟨heq, -⟩ | hw
    · exact hne heq
    · exact hw.2 rfl
  obtain ⟨table₄, hput₄, hkeyed₄, hcontent₄⟩ := hkeyed₃.put_of_not_mem (h.mem_known hj) hnew i
  have htable : (MinHeap.swapIndex table (a i).ptrToNodeContent i (a j).ptrToNodeContent j).1 =
      table₄ := by
    simp only [MinHeap.swapIndex, hput₃, hput₄]
  -- both removals find an entry
  have hflag₁ := h.keyed.remove_flag (h.mem i hi)
  have hflag₂ := hkeyed₁.remove_flag ((hmem₁ _).mpr ⟨h.mem j hj, hne⟩)
  have hfound : (MinHeap.swapIndex table (a i).ptrToNodeContent i (a j).ptrToNodeContent j).2 =
      0 := by
    simp only [MinHeap.swapIndex, hflag₁, hflag₂, Nat.one_ne_zero, if_false]
  have hputs : swapIndexPuts table (a i).ptrToNodeContent i (a j).ptrToNodeContent j = [1, 1] := by
    simp only [swapIndexPuts, hput₃, hput₄]
  rw [htable]
  refine ⟨⟨hkeyed₄, ?_⟩, hfound, hputs⟩
  intro l hl
  rw [hcontent₄, hcontent₃, Multiset.mem_cons, Multiset.mem_cons, hmem₂, hmem₁]
  by_cases hlj : l = j
  · subst hlj
    rw [BinaryHeap.swap_right]
    exact .inr (.inl rfl)
  by_cases hli : l = i
  · subst hli
    rw [BinaryHeap.swap_left]
    exact .inl rfl
  · rw [BinaryHeap.swap_of_ne hli hlj]
    exact .inr (.inr ⟨⟨h.mem l hl, fun heq => hli (h.inj hl hi heq)⟩,
      fun heq => hlj (h.inj hl hj heq)⟩)

theorem swapIndex (h : Indexes known table a n) (hi : i < n) (hj : j < n) (hij : i ≠ j) :
    Indexes known
      (swapIndex table (a i).ptrToNodeContent i (a j).ptrToNodeContent j).1
      (BinaryHeap.swap a i j) n :=
  (h.swapIndex_spec hi hj hij).1

/-- Entering a node behind the others. -/
theorem indexNewNode (h : Indexes known table a n) (hx : x ∈ known)
    (hnew : ∀ i < n, (a i).ptrToNodeContent ≠ x) (v : Nat) :
    Indexes known (indexNewNode table x n) (Function.update a n ⟨x, v⟩) (n + 1) := by
  obtain ⟨hkeyed, hmem⟩ := h.keyed.remove x
  obtain ⟨table', hput, hkeyed', hcontent⟩ :=
    hkeyed.put_of_not_mem hx (fun w hw => ((hmem _).mp hw).2 rfl) n
  have htable : MinHeap.indexNewNode table x n = table' := by
    simp only [MinHeap.indexNewNode, hput]
  rw [htable]
  refine ⟨hkeyed', ?_⟩
  intro l hl
  rw [hcontent, Multiset.mem_cons, hmem]
  by_cases hln : l = n
  · subst hln
    rw [Function.update_self]
    exact .inl rfl
  · have hlt : l < n := by omega
    rw [Function.update_of_ne hln]
    exact .inr ⟨h.mem l hlt, hnew l hlt⟩

/-- Filling a hole with the last node. -/
theorem indexFilledHole (h : Indexes known table heap.ptrToUnderlyingArray heap.currentNumNodes)
    (hi : index < heap.currentNumNodes) :
    Indexes known
      (indexFilledHole table
        (heap.ptrToUnderlyingArray (heap.currentNumNodes - 1)).ptrToNodeContent
        (heap.ptrToUnderlyingArray index).ptrToNodeContent index)
      (heap.filled index) (heap.currentNumNodes - 1) := by
  have hlast : heap.currentNumNodes - 1 < heap.currentNumNodes := by omega
  obtain ⟨hkeyed₁, hmem₁⟩ := h.keyed.remove
    (heap.ptrToUnderlyingArray (heap.currentNumNodes - 1)).ptrToNodeContent
  obtain ⟨hkeyed₂, hmem₂⟩ := hkeyed₁.remove (heap.ptrToUnderlyingArray index).ptrToNodeContent
  -- both entries are gone, so that of the last node can be inserted anew
  obtain ⟨table₃, hput, hkeyed₃, hcontent⟩ := hkeyed₂.put_of_not_mem (h.mem_known hlast)
    (fun w hw => ((hmem₁ _).mp ((hmem₂ _).mp hw).1).2 rfl) index
  have htable : MinHeap.indexFilledHole table
      (heap.ptrToUnderlyingArray (heap.currentNumNodes - 1)).ptrToNodeContent
      (heap.ptrToUnderlyingArray index).ptrToNodeContent index = table₃ := by
    simp only [MinHeap.indexFilledHole, hput]
  rw [htable]
  refine ⟨hkeyed₃, ?_⟩
  intro l hl
  have hl' : l < heap.currentNumNodes := by omega
  rw [filled_of_lt hl, hcontent, Multiset.mem_cons, hmem₂, hmem₁]
  split
  · rename_i heq
    subst heq
    exact .inl rfl
  · rename_i hne
    refine .inr ⟨⟨h.mem l hl', ?_⟩, fun heq => hne (h.inj hl' hi heq)⟩
    intro heq
    have := h.inj hl' hlast heq
    omega

end Indexes

/-- The heap has a lookup table that knows its first `n` nodes. -/
def Lookup (known : Finset Nat) (n : Nat) (heap : MinHeap) : Prop :=
  ∃ table, heap.nodeContentIndexHashTable = some table ∧
    Indexes known table heap.ptrToUnderlyingArray n

namespace Lookup

variable {n i j : Nat}

theorem swapNodes (h : Lookup known n heap) (assert : Bool) (hi : i < n) (hj : j < n)
    (hij : i ≠ j) : Lookup known n (heap.swapNodes assert i j) := by
  obtain ⟨table, htable, hindexes⟩ := h
  refine ⟨_, ?_, hindexes.swapIndex hi hj hij⟩
  simp only [MinHeap.swapNodes, htable, Option.map_some]

theorem siftUp (h : Lookup known n heap) (f : Nat) (hi : i < n) :
    Lookup known n (siftUp f heap i) := by
  induction f generalizing heap i with
  | zero => exact h
  | succ f ih =>
    simp only [MinHeap.siftUp]
    split
    · exact h
    · split
      · have hp : getParentIndex i < i := by
          rw [getParentIndex_eq]
          exact BinaryHeap.parent_lt (by omega)
        exact ih (h.swapNodes true hi (by omega) (by omega)) (by omega)
      · exact h

theorem siftDown (h : Lookup known (j + 1) heap) (f : Nat) (hi : i < j + 1) :
    Lookup known (j + 1) (siftDown j f heap i) := by
  induction f generalizing heap i with
  | zero => exact h
  | succ f ih =>
    simp only [MinHeap.siftDown, smallerChild_eq]
    split
    · exact h
    · rename_i c hsome
      obtain ⟨hcn, hc0, hci, -⟩ := BinaryHeap.smallerChild_some hsome
      have hic := BinaryHeap.parent_lt hc0
      split
      · exact ih (h.swapNodes false hi hcn (by omega)) hcn
      · exact h

theorem addNode (h : Lookup known heap.currentNumNodes heap) (hh : Holds known heap)
    (hx : x ∈ known) (hnew : x ∉ heap.contents) (v : Nat) :
    Lookup known (heap.addNode x v).1.currentNumNodes (heap.addNode x v).1 := by
  have hroom := hh.num_lt hx hnew
  obtain ⟨table, htable, hindexes⟩ := h
  have hentered := hindexes.indexNewNode hx
    (fun i hi heq => hnew (mem_contents.mpr ⟨i, hi, heq⟩)) v
  have hlast := hh.wf.last_eq
  have hnext := hh.wf.next_eq
  rw [addNode_num hh.wf hroom]
  simp only [MinHeap.addNode]
  rw [if_neg (by omega)]
  simp only [hnext, htable, Option.map_some]
  have hwritten : Lookup known (heap.currentNumNodes + 1) { heap with
      ptrToUnderlyingArray :=
        Function.update heap.ptrToUnderlyingArray heap.currentNumNodes ⟨x, v⟩
      nodeContentIndexHashTable := some (indexNewNode table x heap.currentNumNodes)
      nextEmptyElement := heap.currentNumNodes } := ⟨_, rfl, hentered⟩
  obtain ⟨table', htable', hindexes'⟩ :=
    hwritten.siftUp heap.currentNumNodes (Nat.lt_succ_self heap.currentNumNodes)
  exact ⟨table', htable', hindexes'⟩

theorem fillHole (h : Lookup known heap.currentNumNodes heap) (hwf : heap.WF)
    (hi : index < heap.currentNumNodes) :
    Lookup known (heap.currentNumNodes - 1) (heap.fillHole index) := by
  obtain ⟨table, htable, hindexes⟩ := h
  refine ⟨indexFilledHole table
    (heap.ptrToUnderlyingArray (heap.currentNumNodes - 1)).ptrToNodeContent
    (heap.ptrToUnderlyingArray index).ptrToNodeContent index, ?_, ?_⟩
  · simp only [MinHeap.fillHole, htable, Option.map_some, decr_next hwf hi]
  · rw [fillHole_array hwf hi]
    exact hindexes.indexFilledHole hi

/-- The sift keeps the table that filling the hole has left. -/
theorem heapDown_of_fillHole (hfill : Lookup known (heap.currentNumNodes - 1) (heap.fillHole index))
    (hwf : heap.WF) (hi : index < heap.currentNumNodes) :
    Lookup known (heap.heapDown index).currentNumNodes (heap.heapDown index) := by
  rw [heapDown_num hwf hi]
  simp only [MinHeap.heapDown]
  split
  · exact hfill
  · rename_i hlast
    rw [decr_next hwf hi] at hlast
    have hpos : 0 < heap.currentNumNodes - 1 := by omega
    rw [fillHole_next hwf hi, decr_of_pos hpos]
    split
    · exact hfill
    · obtain ⟨j, hj⟩ : ∃ j, heap.currentNumNodes - 1 = j + 1 :=
        ⟨heap.currentNumNodes - 1 - 1, by omega⟩
      rw [hj] at hfill ⊢
      exact hfill.siftDown _ (by omega)

theorem heapDown (h : Lookup known heap.currentNumNodes heap) (hwf : heap.WF)
    (hi : index < heap.currentNumNodes) :
    Lookup known (heap.heapDown index).currentNumNodes (heap.heapDown index) :=
  (h.fillHole hwf hi).heapDown_of_fillHole hwf hi

/-- The index that `indexOfContent` gives is where the content is. -/
theorem indexOfContent (h : Lookup known heap.currentNumNodes heap) (hx : x ∈ heap.contents) :
    ∃ flagged index, heap.indexOfContent x =
        ({ heap with nodeContentIndexHashTable := some flagged }, index) ∧
      index < heap.currentNumNodes ∧
      (heap.ptrToUnderlyingArray index).ptrToNodeContent = x ∧
      Lookup known heap.currentNumNodes
        { heap with nodeContentIndexHashTable := some flagged } := by
  obtain ⟨table, htable, hindexes⟩ := h
  obtain ⟨index, hi, rfl⟩ := mem_contents.mp hx
  have hget := hindexes.keyed.get_value (hindexes.mem index hi)
  refine ⟨{ table with validValueFlag := 1 }, index, ?_, hi, rfl, _, rfl,
    { keyed := hindexes.keyed.setFlag 1, mem := hindexes.mem }⟩
  simp only [MinHeap.indexOfContent, htable, hget]
  rfl

end Lookup

/-! ## Heaps whose table may be full -/

/-- `indexOfContent` gives the index of a node with this content. -/
def Finds (heap : MinHeap) (x : Nat) : Prop :=
  (heap.indexOfContent x).2 < heap.currentNumNodes ∧
    (heap.ptrToUnderlyingArray (heap.indexOfContent x).2).ptrToNodeContent = x

instance (heap : MinHeap) (x : Nat) : Decidable (heap.Finds x) :=
  inferInstanceAs (Decidable (_ ∧ _))

/-- Looking an index up leaves the nodes alone. -/
theorem indexOfContent_heap (heap : MinHeap) (x : Nat) :
    ∃ table asserts, (heap.indexOfContent x).1 = { heap with
      nodeContentIndexHashTable := table
      failedAsserts := asserts } := by
  unfold MinHeap.indexOfContent
  split
  · exact ⟨_, _, rfl⟩
  · exact ⟨_, _, rfl⟩

/-- Removing a content that is found takes its node out and leaves room for another. -/
theorem removeFound (h : heap.WF) (hfinds : heap.Finds x) :
    ∃ removed node,
      ((heap.indexOfContent x).1.removeNodeAt (heap.indexOfContent x).2).1 = removed ∧
        removed.WF ∧ removed.currentNumNodes < removed.maxNumberOfNodes ∧
        node.ptrToNodeContent = x ∧ node ::ₘ removed.nodes = heap.nodes := by
  obtain ⟨hi, hcontent⟩ := hfinds
  obtain ⟨table, asserts, heq⟩ := indexOfContent_heap heap x
  generalize (heap.indexOfContent x).2 = index at hi hcontent ⊢
  rw [heq]
  set heap₁ : MinHeap := { heap with
    nodeContentIndexHashTable := table
    failedAsserts := asserts }
  have hwf₁ : heap₁.WF := ⟨h.max_pos, h.max_le, h.next_eq, h.last_eq, h.num_le⟩
  have hi₁ : index < heap₁.currentNumNodes := hi
  have hnum := heapDown_num hwf₁ hi₁
  have hle := hwf₁.num_le
  rw [removeNodeAt_eq hi₁]
  refine ⟨heap₁.heapDown index, heap.ptrToUnderlyingArray index, rfl, heapDown_wf hwf₁ hi₁, ?_,
    hcontent, heapDown_nodes hwf₁ hi₁⟩
  rw [heapDown_max]
  omega

/-- Removing a content that is found and adding it again replaces its node. -/
theorem readd_nodes (h : heap.WF) (hfinds : heap.Finds x) (v : Nat) :
    ∃ node rest, node.ptrToNodeContent = x ∧ node ::ₘ rest = heap.nodes ∧
      (((heap.indexOfContent x).1.removeNodeAt (heap.indexOfContent x).2).1.addNode x v).1.nodes =
        ⟨x, v⟩ ::ₘ rest := by
  obtain ⟨removed, node, hremoved, hwf, hroom, hcontent, hnodes⟩ := removeFound h hfinds
  rw [hremoved]
  exact ⟨node, removed.nodes, hcontent, hnodes, addNode_nodes hwf hroom x v⟩

/-- Distinct known contents. The lookup table has the index of each node as long
as there is room for all that are known; stale entries can fill it otherwise. -/
structure Indexed (known : Finset Nat) (heap : MinHeap) : Prop where
  distinct : Distinct known heap
  lookup : known.card ≤ heap.maxNumberOfNodes → Lookup known heap.currentNumNodes heap

namespace Indexed

theorem holds (h : Indexed known heap) (hroom : known.card ≤ heap.maxNumberOfNodes) :
    Holds known heap :=
  ⟨h.distinct.wf, h.distinct.nodup, h.distinct.mem_known, hroom⟩

theorem addNode (h : Indexed known heap) (hx : x ∈ known) (hnew : x ∉ heap.contents)
    (hlt : heap.currentNumNodes < heap.maxNumberOfNodes) (v : Nat) :
    Indexed known (heap.addNode x v).1 ∧ (heap.addNode x v).1.contents = x ::ₘ heap.contents := by
  obtain ⟨hd, hcontents⟩ := h.distinct.addNode hx hnew hlt v
  refine ⟨⟨hd, ?_⟩, hcontents⟩
  intro hroom
  rw [addNode_max] at hroom
  exact (h.lookup hroom).addNode (h.holds hroom) hx hnew v

theorem heapDown (h : Indexed known heap) (hi : index < heap.currentNumNodes) :
    Indexed known (heap.heapDown index) := by
  refine ⟨(h.distinct.heapDown hi).1, ?_⟩
  intro hroom
  rw [heapDown_max] at hroom
  exact (h.lookup hroom).heapDown h.distinct.wf hi

/-- With room for all that are known, every node is found. -/
theorem finds (h : Indexed known heap) (hroom : known.card ≤ heap.maxNumberOfNodes)
    (hx : x ∈ heap.contents) : heap.Finds x := by
  obtain ⟨_, index, heq, hi, hcontent, -⟩ := (h.lookup hroom).indexOfContent hx
  unfold Finds
  rw [heq]
  exact ⟨hi, hcontent⟩

theorem indexOfContent (h : Indexed known heap) (hx : x ∈ heap.contents) :
    Indexed known (heap.indexOfContent x).1 := by
  obtain ⟨table, asserts, heq⟩ := indexOfContent_heap heap x
  have hd : Distinct known (heap.indexOfContent x).1 := by
    rw [heq]
    exact ⟨⟨h.distinct.wf.max_pos, h.distinct.wf.max_le, h.distinct.wf.next_eq,
      h.distinct.wf.last_eq, h.distinct.wf.num_le⟩, h.distinct.nodup, h.distinct.mem_known⟩
  refine ⟨hd, ?_⟩
  intro hroom
  have hroom' : known.card ≤ heap.maxNumberOfNodes := by
    rw [heq] at hroom
    exact hroom
  obtain ⟨_, _, heq', -, -, hlookup⟩ := (h.lookup hroom').indexOfContent hx
  rw [heq']
  exact hlookup

/-- Removing a content that is found and adding it again keeps the contents. -/
theorem readd (h : Indexed known heap) (hx : x ∈ heap.contents) (hfinds : heap.Finds x)
    (v : Nat) :
    Indexed known
        (((heap.indexOfContent x).1.removeNodeAt (heap.indexOfContent x).2).1.addNode x v).1 ∧
      (((heap.indexOfContent x).1.removeNodeAt (heap.indexOfContent x).2).1.addNode x v).1.contents
        = heap.contents ∧
      (((heap.indexOfContent x).1.removeNodeAt
        (heap.indexOfContent x).2).1.addNode x v).1.maxNumberOfNodes = heap.maxNumberOfNodes := by
  -- only the node of the content is replaced
  have hcontents : (((heap.indexOfContent x).1.removeNodeAt
      (heap.indexOfContent x).2).1.addNode x v).1.contents = heap.contents := by
    obtain ⟨node, rest, hnode, hnodes, hreadd⟩ := readd_nodes h.distinct.wf hfinds v
    unfold contents
    rw [hreadd, ← hnodes, Multiset.map_cons, Multiset.map_cons, hnode]
  obtain ⟨hi, hcontent⟩ := hfinds
  obtain ⟨table, asserts, heq⟩ := indexOfContent_heap heap x
  have hindexed := h.indexOfContent hx
  generalize (heap.indexOfContent x).2 = index at hi hcontent hcontents ⊢
  rw [heq] at hindexed hcontents ⊢
  set heap₁ : MinHeap := { heap with
    nodeContentIndexHashTable := table
    failedAsserts := asserts }
  have hi₁ : index < heap₁.currentNumNodes := hi
  have hnum := heapDown_num hindexed.distinct.wf hi₁
  have hle := hindexed.distinct.wf.num_le
  rw [removeNodeAt_eq hi₁] at hcontents ⊢
  -- the node that was removed leaves a free one
  have hlt : (heap₁.heapDown index).currentNumNodes < (heap₁.heapDown index).maxNumberOfNodes := by
    rw [heapDown_max]
    omega
  have hnew : x ∉ (heap₁.heapDown index).contents := fun hmem =>
    ((hindexed.distinct.mem_heapDown hi₁ x).mp hmem).1 hcontent.symm
  refine ⟨((hindexed.heapDown hi₁).addNode (h.distinct.mem_known x hx) hnew hlt v).1, hcontents, ?_⟩
  rw [addNode_max, heapDown_max]

end Indexed

/-! ## Fresh heaps -/

theorem newHeap_holds {n : Nat} (hn : 0 < n) (hmax : n ≤ UINT32_MAX) (hroom : known.card ≤ n)
    (lookup : Bool) (memory : Nat → MinHeapNode) (table : Nat → HashtableValue) (flag : Nat) :
    Holds known (newHeap n lookup memory table flag) where
  wf := newHeap_wf hn hmax lookup memory table flag
  nodup := Multiset.nodup_zero
  mem_known _ hx := absurd hx (Multiset.notMem_zero _)
  room := hroom

theorem newHeap_lookup {n : Nat} (hn : 0 < n) (hroom : known.card ≤ n)
    (memory : Nat → MinHeapNode) (table : Nat → HashtableValue) (flag : Nat) :
    Lookup known 0 (newHeap n true memory table flag) :=
  ⟨_, rfl,
    { keyed := Hashtable.newHashtable_keyed hroom hn (by decide) table flag
      mem := fun i hi => absurd hi (Nat.not_lt_zero i) }⟩

end MinHeap

end DocetOS
