import DocetOS.DataStructures.Hashtable

/-!
# The min-heap (`heap.c`)

`ptrToUnderlyingArray` is the memory from the first node on, so that an access
beyond the array is an access to whatever lies there. The pointers
`nextEmptyElement` and `lastArrayElement` are kept as offsets from the first
node. Node indices stay below the number of nodes that fit in memory, so the
child indices do not wrap; `n - 1` on a count does (`decr`).

With quick index lookup enabled, `nodeContentIndexHashTable` maps the content
of a node to its index. Both sift loops exchange two nodes and then their two
table entries (`swapIndex`). `failedAsserts` is a history variable: it counts
the `ASSERT`s that have failed, which otherwise do nothing.
-/

namespace DocetOS

/-- `OS_minHeapNode_t`. -/
structure MinHeapNode where
  ptrToNodeContent : Nat
  nodeValue : Nat
deriving DecidableEq, Repr

/-- `OS_minHeap_t`. -/
structure MinHeap where
  ptrToUnderlyingArray : Nat → MinHeapNode
  nodeContentIndexHashTable : Option Hashtable
  maxNumberOfNodes : Nat
  currentNumNodes : Nat
  nextEmptyElement : Nat
  lastArrayElement : Nat
  failedAsserts : Nat

/-- `CONTENT_INDEX_LOOKUP_HASHTABLE_BUCKETS_NUM`. -/
def CONTENT_INDEX_LOOKUP_HASHTABLE_BUCKETS_NUM : Nat := 8

/-- `__getParentIndex`. -/
def getParentIndex (nodeIndexZeroBased : Nat) : Nat :=
  if nodeIndexZeroBased = 0 then 0
  else if nodeIndexZeroBased % 2 ≠ 0 then (nodeIndexZeroBased - 1) / 2
  else nodeIndexZeroBased / 2 - 1

/-- `OS_heap_getFirstChildIndex`. -/
def getFirstChildIndex (nodeIndexZeroBased : Nat) : Nat := 2 * nodeIndexZeroBased + 1

/-- `OS_heap_getSecondChildIndex`. -/
def getSecondChildIndex (nodeIndexZeroBased : Nat) : Nat := 2 * (nodeIndexZeroBased + 1)

namespace MinHeap

/-- `new_heap`: the array is cleared; `memory` is what lies beyond it, `table`
and `flag` what the block of the lookup table held. -/
def newHeap (maxNumberOfHeapNodes : Nat) (enableQuickNodeContentIndexLookup : Bool)
    (memory : Nat → MinHeapNode) (table : Nat → HashtableValue) (flag : Nat) : MinHeap where
  ptrToUnderlyingArray i :=
    if i < maxNumberOfHeapNodes then { ptrToNodeContent := NULL, nodeValue := UINT32_MAX }
    else memory i
  nodeContentIndexHashTable :=
    if enableQuickNodeContentIndexLookup then
      some (Hashtable.newHashtable maxNumberOfHeapNodes
        CONTENT_INDEX_LOOKUP_HASHTABLE_BUCKETS_NUM table flag)
    else none
  maxNumberOfNodes := maxNumberOfHeapNodes
  currentNumNodes := 0
  nextEmptyElement := 0
  lastArrayElement := decr maxNumberOfHeapNodes
  failedAsserts := 0

/-! ## The lookup table -/

/-- Enter a new node: drop a stale entry of its content, then store its index. -/
def indexNewNode (table : Hashtable) (content : Nat) (index : Nat) : Hashtable :=
  let table := (table.remove content).1
  (table.put content index .rejectMultipleValuesPerKey).1

/-- Exchange the entries of the nodes with contents `a` (at index `i`) and `b`
(at index `j`): two removals, then two insertions. The second component counts
the removals that found no entry. -/
def swapIndex (table : Hashtable) (a : Nat) (i : Nat) (b : Nat) (j : Nat) :
    Hashtable × Nat :=
  let table₁ := (table.remove a).1
  let table₂ := (table₁.remove b).1
  let table₃ := (table₂.put a j .rejectMultipleValuesPerKey).1
  let table₄ := (table₃.put b i .rejectMultipleValuesPerKey).1
  (table₄, (if table₁.validValueFlag = 0 then 1 else 0) +
    (if table₂.validValueFlag = 0 then 1 else 0))

/-- Exchange the nodes at `i` and `j` and their table entries. `assert` tells
whether the loop asserts that the entries were there. -/
def swapNodes (heap : MinHeap) (assert : Bool) (i j : Nat) : MinHeap :=
  let node := heap.ptrToUnderlyingArray i
  let other := heap.ptrToUnderlyingArray j
  let swapped := heap.nodeContentIndexHashTable.map fun table =>
    swapIndex table node.ptrToNodeContent i other.ptrToNodeContent j
  { heap with
      nodeContentIndexHashTable := swapped.map Prod.fst
      failedAsserts :=
        if assert then heap.failedAsserts + (swapped.elim 0 Prod.snd) else heap.failedAsserts
      ptrToUnderlyingArray :=
        Function.update (Function.update heap.ptrToUnderlyingArray i other) j node }

/-! ## Adding a node -/

/-- The sift-up loop of `OS_heap_addNode`. -/
def siftUp : Nat → MinHeap → Nat → MinHeap
  | 0, heap, _ => heap
  | f + 1, heap, currentNodeIndex =>
    if currentNodeIndex = 0 then heap
    else
      let parentNodeIndex := getParentIndex currentNodeIndex
      if (heap.ptrToUnderlyingArray parentNodeIndex).nodeValue >
          (heap.ptrToUnderlyingArray currentNodeIndex).nodeValue then
        siftUp f (heap.swapNodes true currentNodeIndex parentNodeIndex) parentNodeIndex
      else heap

/-- `OS_heap_addNode`; the second component is the status code. After a removal on an empty
heap the code's pointer is below the array, and its comparison of addresses would accept the
node that the comparison of indices refuses: the wrapped state is not modelled any further. -/
def addNode (heap : MinHeap) (elementToAdd : Nat) (valueToOrderBy : Nat) : MinHeap × Nat :=
  if heap.lastArrayElement < heap.nextEmptyElement then (heap, 0)
  else
    let currentNodeIndex := heap.nextEmptyElement
    let heap := { heap with
      ptrToUnderlyingArray := Function.update heap.ptrToUnderlyingArray currentNodeIndex
        { ptrToNodeContent := elementToAdd, nodeValue := valueToOrderBy }
      nodeContentIndexHashTable := heap.nodeContentIndexHashTable.map fun table =>
        indexNewNode table elementToAdd currentNodeIndex }
    -- the parent index shrinks in every round, so `currentNodeIndex` rounds are enough
    let heap := siftUp currentNodeIndex heap currentNodeIndex
    ({ heap with
        nextEmptyElement := heap.nextEmptyElement + 1
        currentNumNodes := heap.nextEmptyElement + 1 }, 1)

/-! ## Removing a node -/

/-- The sift-down loop of `__heapDown`. Both children are loaded before their
indices are compared with `maxValidIdx`. -/
def siftDown (maxValidIdx : Nat) : Nat → MinHeap → Nat → MinHeap
  | 0, heap, _ => heap
  | f + 1, heap, elemIdx =>
    let firstChildIdx := getFirstChildIndex elemIdx
    let secondChildIdx := getSecondChildIndex elemIdx
    let firstChild := heap.ptrToUnderlyingArray firstChildIdx
    let secondChild := heap.ptrToUnderlyingArray secondChildIdx
    let smallerChildIdx :=
      if secondChildIdx ≤ maxValidIdx then
        some (if firstChild.nodeValue ≤ secondChild.nodeValue then firstChildIdx
          else secondChildIdx)
      else if firstChildIdx ≤ maxValidIdx then some firstChildIdx
      else none
    match smallerChildIdx with
    | none => heap
    | some smallerChildIdx =>
      if (heap.ptrToUnderlyingArray elemIdx).nodeValue >
          (heap.ptrToUnderlyingArray smallerChildIdx).nodeValue then
        siftDown maxValidIdx f (heap.swapNodes false elemIdx smallerChildIdx) smallerChildIdx
      else heap

/-- The table part of `__heapDown` before the sift: the entries of the last
node and of the removed node go, and the last node is entered at the hole. When
the removed node is the last one, this enters it again. -/
def indexFilledHole (table : Hashtable) (lowest removed : Nat) (index : Nat) : Hashtable :=
  let table := (table.remove lowest).1
  let table := (table.remove removed).1
  (table.put lowest index .rejectMultipleValuesPerKey).1

/-- The part of `__heapDown` before the sift: the last node fills the hole at
`index` and is erased from its own place. -/
def fillHole (heap : MinHeap) (index : Nat) : MinHeap :=
  let elemIdx := decr heap.nextEmptyElement
  let lowestIdxNode := heap.ptrToUnderlyingArray elemIdx
  let nodeToRemove := heap.ptrToUnderlyingArray index
  { heap with
      nodeContentIndexHashTable := heap.nodeContentIndexHashTable.map fun table =>
        indexFilledHole table lowestIdxNode.ptrToNodeContent nodeToRemove.ptrToNodeContent index
      ptrToUnderlyingArray :=
        Function.update (Function.update heap.ptrToUnderlyingArray index lowestIdxNode) elemIdx
          { ptrToNodeContent := NULL, nodeValue := UINT32_MAX }
      nextEmptyElement := elemIdx
      currentNumNodes := elemIdx }

/-- `__heapDown`. -/
def heapDown (heap : MinHeap) (indexOfNodeToRemove : Nat) : MinHeap :=
  let elemIdx := decr heap.nextEmptyElement
  let heap := heap.fillHole indexOfNodeToRemove
  if elemIdx = indexOfNodeToRemove then heap
  else
    let maxValidIdx := decr heap.nextEmptyElement
    -- `maxValidIdx` is -1 when the heap is empty
    if maxValidIdx = UINT32_MAX then heap
    else siftDown maxValidIdx (maxValidIdx + 1) heap indexOfNodeToRemove

/-- `OS_heap_removeNode`: the heap, and the content returned unless the heap is
empty. -/
def removeNode (heap : MinHeap) : MinHeap × Option Nat :=
  if heap.nextEmptyElement = 0 then (heap, none)
  else (heap.heapDown 0, some (heap.ptrToUnderlyingArray 0).ptrToNodeContent)

/-- `OS_heap_removeNodeAt`; the bound is computed on a `uint32_t`. -/
def removeNodeAt (heap : MinHeap) (index : Nat) : MinHeap × Option Nat :=
  if index > decr heap.currentNumNodes then
    ({ heap with failedAsserts := heap.failedAsserts + 1 }, none)
  else (heap.heapDown index, some (heap.ptrToUnderlyingArray index).ptrToNodeContent)

/-- `OS_heap_indexOfContent`: the heap, whose table has its flag set, and the
index, `UINT32_MAX` when the table has none. -/
def indexOfContent (heap : MinHeap) (content : Nat) : MinHeap × Nat :=
  match heap.nodeContentIndexHashTable with
  | none => ({ heap with failedAsserts := heap.failedAsserts + 1 }, 0)
  | some table =>
    let (table, index) := table.get content
    ({ heap with nodeContentIndexHashTable := some table },
      if table.validValueFlag = 0 then UINT32_MAX else index)

end MinHeap

end DocetOS
