import DocetOS.DataStructures.Hashtable
import DocetOS.DataStructures.Mutex

/-!
# The memory cluster (`memcluster.c`)

The cluster carves one array of words into blocks. A block is named by the
address of its `OS_memBlock_t`, whose three words `nextMemblock`, `blockSize`
and `headPtr` lie in the array itself, in front of the words the block hands
out. The memory is therefore one function from (byte) addresses to words, and
every list of blocks is threaded through it.

Everything here is the code as one task runs it with nobody in between. A
function has no result where the C function does not return: it waits for a
mutex another task owns, or it searches pools that stay empty. The loops that
need not end take a bound on their rounds.
-/

namespace DocetOS

abbrev MEMPOOL_HASH_TABLE_BUCKET_NUM : Nat := 3
abbrev SMALLEST_BLOCK_SIZE : Nat := 4
abbrev LARGEST_BLOCK_SIZE : Nat := 8
abbrev NUMBER_OF_POOLS : Nat := LARGEST_BLOCK_SIZE - SMALLEST_BLOCK_SIZE + 1

/-- `sizeof(OS_memBlock_t)` in bytes. -/
abbrev SIZEOF_MEMBLOCK : Nat := 12

/-- `OS_memory_pool_t`. The lock is named by its index in `pool_locks`. -/
structure MemoryPool where
  freeBlocks : Nat
  blockSize : Nat
  memoryPoolLock : Nat
  firstMemoryBlock : Nat
deriving DecidableEq, Repr

/-- The static variables of the cluster and the memory. -/
structure Memcluster where
  memory : Nat → Nat
  pools : Nat → MemoryPool
  poolLocks : Nat → Mutex
  hashtableLock : Mutex
  allocatedBlocksBuckets : Nat → Nat
  clusterInUseFLAG : Nat

namespace Memcluster

/-! ## The fields of a block -/

def nextMemblock (c : Memcluster) (block : Nat) : Nat := c.memory block

def blockSize (c : Memcluster) (block : Nat) : Nat := c.memory (block + 4)

def headPtr (c : Memcluster) (block : Nat) : Nat := c.memory (block + 8)

def write (c : Memcluster) (address value : Nat) : Memcluster :=
  { c with memory := Function.update c.memory address value }

def setPool (c : Memcluster) (poolIdx : Nat) (pool : MemoryPool) : Memcluster :=
  { c with pools := Function.update c.pools poolIdx pool }

def setBucket (c : Memcluster) (bucketNumber block : Nat) : Memcluster :=
  { c with
      allocatedBlocksBuckets := Function.update c.allocatedBlocksBuckets bucketNumber block }

/-- The loops that set `words` words from `address` on to zero. -/
def clearWords : Nat → Nat → (Nat → Nat) → (Nat → Nat)
  | 0, _, memory => memory
  | words + 1, address, memory =>
    clearWords words (address + 4) (Function.update memory address NULL)

/-! ## Pools and buckets -/

/-- `__addBlockToPool`. -/
def addBlockToPool (c : Memcluster) (poolIdx block : Nat) : Memcluster :=
  let pool := c.pools poolIdx
  (c.write block pool.firstMemoryBlock).setPool poolIdx
    { pool with firstMemoryBlock := block, freeBlocks := pool.freeBlocks + 1 }

/-- The part of `__removeBlockFromPool` that takes the first block off the free
list. -/
def detachFirstBlock (c : Memcluster) (poolIdx : Nat) : Memcluster × Nat :=
  let pool := c.pools poolIdx
  let block := pool.firstMemoryBlock
  ((c.setPool poolIdx
      { pool with
          firstMemoryBlock := c.nextMemblock block
          freeBlocks := decr pool.freeBlocks }).write block NULL, block)

/-- The bucket a pointer to memory belongs to. -/
def bucketNumber (memoryPointer : Nat) : Nat :=
  djb2Hash memoryPointer % MEMPOOL_HASH_TABLE_BUCKET_NUM

/-- The part of `__placeBlockIntoBucket` between acquiring and releasing the
lock. -/
def linkBlock (c : Memcluster) (block : Nat) : Memcluster :=
  let bucket := bucketNumber (c.headPtr block)
  (c.setBucket bucket block).write block (c.allocatedBlocksBuckets bucket)

/-- `__placeBlockIntoBucket` by the task `caller`. -/
def placeBlockIntoBucket (c : Memcluster) (caller block : Nat) : Option Memcluster := do
  let lock ← c.hashtableLock.acquire caller
  let c := { c with hashtableLock := lock }.linkBlock block
  return { c with hashtableLock := c.hashtableLock.release caller }

/-- `__removeBlockFromPool` by the task `caller`. -/
def removeBlockFromPool (c : Memcluster) (caller poolIdx : Nat) : Option (Memcluster × Nat) := do
  let (c, block) := c.detachFirstBlock poolIdx
  let c ← c.placeBlockIntoBucket caller block
  return (c, block)

/-- The search loop of `__recoverBlockFromBucket`: the block before the match
(`NULL` when there is none) and the match. -/
def findBlock (c : Memcluster) (memoryPointer : Nat) :
    Nat → Nat → Nat → Option (Option (Nat × Nat))
  | 0, _, _ => none
  | fuel + 1, prevBlock, blockPtr =>
    if blockPtr = NULL then some none
    else if c.headPtr blockPtr ≠ memoryPointer then
      findBlock c memoryPointer fuel blockPtr (c.nextMemblock blockPtr)
    else some (some (prevBlock, blockPtr))

/-- The part of `__recoverBlockFromBucket` that takes the match out of its
bucket. -/
def unlinkBlock (c : Memcluster) (bucket prevBlock blockPtr : Nat) : Memcluster :=
  if prevBlock ≠ NULL then c.write prevBlock (c.nextMemblock blockPtr)
  else c.setBucket bucket (c.nextMemblock blockPtr)

/-- `__recoverBlockFromBucket` by the task `caller`; the block is `NULL` when no
block matches. -/
def recoverBlockFromBucket (c : Memcluster) (fuel caller memoryPointer : Nat) :
    Option (Memcluster × Nat) := do
  let lock ← c.hashtableLock.acquire caller
  let c := { c with hashtableLock := lock }
  let bucket := bucketNumber memoryPointer
  match ← c.findBlock memoryPointer fuel NULL (c.allocatedBlocksBuckets bucket) with
  | some (prevBlock, blockPtr) =>
    let c := c.unlinkBlock bucket prevBlock blockPtr
    return ({ c with hashtableLock := c.hashtableLock.release caller }, blockPtr)
  | none => return ({ c with hashtableLock := c.hashtableLock.release caller }, NULL)

/-! ## Initialisation -/

/-- The header `memory_cluster_init` writes at the start of a block. -/
def writeHeader (c : Memcluster) (block size : Nat) : Memcluster :=
  ((c.write (block + 4) size).write block NULL).write (block + 8) (block + SIZEOF_MEMBLOCK)

/-- The loop of `memory_cluster_init` that turns the remaining words into
blocks. Besides the cluster it returns the blocks it made, last one first. -/
def carve : Nat → Nat → Nat → Nat → Nat → Memcluster → List Nat → Memcluster × List Nat
  | 0, _, _, _, _, c, blocks => (c, blocks)
  | fuel + 1, counter, numSkips, memoryArray, memorySize, c, blocks =>
    if memorySize = 0 then (c, blocks)
    else
      let poolIdx := counter % NUMBER_OF_POOLS
      let blockSize := (c.pools poolIdx).blockSize
      let requiredMemoryForBlock := SIZEOF_MEMBLOCK / 4 + blockSize
      if requiredMemoryForBlock > memorySize then
        if numSkips + 1 < NUMBER_OF_POOLS then
          carve fuel (counter + 1) (numSkips + 1) memoryArray memorySize c blocks
        else (c, blocks)
      else
        let blockPtr := memoryArray
        let c := c.writeHeader blockPtr blockSize
        carve fuel (counter + 1) numSkips (memoryArray + 4 * requiredMemoryForBlock)
          (memorySize - requiredMemoryForBlock) (c.addBlockToPool poolIdx blockPtr)
          (blockPtr :: blocks)

/-- The first word the blocks may use, and how many there are. The test for
alignment reads `memoryArray + (sizeof(OS_memBlock_t) % 8) != 0`, so a word is
skipped whatever the alignment of the array, and an array without words wraps
the count. -/
def alignArray (memoryArray memorySize : Nat) : Nat × Nat :=
  if wrap (memoryArray + SIZEOF_MEMBLOCK % 8) ≠ 0 then (memoryArray + 4, decr memorySize)
  else (memoryArray, memorySize)

/-- The pools as the first loop of `memory_cluster_init` sets them up. -/
def emptyPools (i : Nat) : MemoryPool where
  freeBlocks := 0
  blockSize := 2 ^ (i + SMALLEST_BLOCK_SIZE)
  memoryPoolLock := i
  firstMemoryBlock := NULL

/-- `memory_cluster_init`, from whatever the variables held before, with the
blocks it made. -/
def memoryClusterInit (c : Memcluster) (memoryArray memorySize : Nat) : Memcluster × List Nat :=
  let c := { c with
    clusterInUseFLAG := 0
    memory := clearWords memorySize memoryArray c.memory }
  let (array, size) := alignArray memoryArray memorySize
  let c := { c with
    poolLocks := fun _ => initMutex
    pools := emptyPools }
  let (c, blocks) := carve (size + NUMBER_OF_POOLS) 0 0 array size c []
  ({ c with allocatedBlocksBuckets := fun _ => NULL }, blocks)

/-! ## `allocate` -/

/-- The smallest pool whose blocks fit the request. -/
def selectPool (c : Memcluster) (requiredSize : Nat) : Option Nat :=
  (List.range NUMBER_OF_POOLS).find? fun i => requiredSize ≤ (c.pools i).blockSize

/-- The pool the search tries after an empty one. -/
def nextPool (initialSelectedIdx selectedPoolIdx : Nat) : Nat :=
  if selectedPoolIdx + 1 < NUMBER_OF_POOLS then selectedPoolIdx + 1 else initialSelectedIdx

/-- `OS_mutex_acquire` on the lock of a pool. -/
def acquirePoolLock (c : Memcluster) (caller lockIdx : Nat) : Option Memcluster := do
  let lock ← (c.poolLocks lockIdx).acquire caller
  return { c with poolLocks := Function.update c.poolLocks lockIdx lock }

/-- `OS_mutex_release` on the lock of a pool. -/
def releasePoolLock (c : Memcluster) (caller lockIdx : Nat) : Memcluster :=
  { c with
      poolLocks := Function.update c.poolLocks lockIdx ((c.poolLocks lockIdx).release caller) }

/-- The search loop of `allocate`: it leaves with the lock of a pool that has a
free block. The lock of an empty pool is not given back before the next pool is
tried. -/
def searchPools (caller initialSelectedIdx : Nat) :
    Nat → Nat → Memcluster → Option (Memcluster × Nat)
  | 0, _, _ => none
  | fuel + 1, selectedPoolIdx, c => do
    let c ← c.acquirePoolLock caller (c.pools selectedPoolIdx).memoryPoolLock
    if (c.pools selectedPoolIdx).freeBlocks ≠ 0 then return (c, selectedPoolIdx)
    else searchPools caller initialSelectedIdx fuel (nextPool initialSelectedIdx selectedPoolIdx) c

/-- The end of `allocate`: the words handed out are cleared. -/
def clearBlock (c : Memcluster) (block : Nat) : Memcluster :=
  { c with
      memory := clearWords (c.blockSize block) (c.headPtr block) c.memory
      clusterInUseFLAG := 0 }

/-- `allocate` by the task `caller`. -/
def allocate (c : Memcluster) (fuel caller requiredSize : Nat) : Option (Memcluster × Nat) :=
  if requiredSize = 0 then some ({ c with clusterInUseFLAG := 0 }, NULL)
  else
    match c.selectPool requiredSize with
    | none => some ({ c with clusterInUseFLAG := 0 }, NULL)
    | some initialSelectedIdx => do
      let (c, selectedPoolIdx) ← searchPools caller initialSelectedIdx fuel initialSelectedIdx
        { c with clusterInUseFLAG := 1 }
      let (c, block) ← c.removeBlockFromPool caller selectedPoolIdx
      let c := c.releasePoolLock caller (c.pools selectedPoolIdx).memoryPoolLock
      let c := c.clearBlock block
      return (c, c.headPtr block)

/-! ## `deallocate` -/

/-- `deallocate` by the task `caller`. -/
def deallocate (c : Memcluster) (fuel caller memblockHeadPtr : Nat) : Option Memcluster := do
  let (c, block) ← { c with clusterInUseFLAG := 1 }.recoverBlockFromBucket fuel caller
    memblockHeadPtr
  if block = NULL then return { c with clusterInUseFLAG := 0 }
  else
    let poolIdx ← (List.range NUMBER_OF_POOLS).find? fun i =>
      (c.pools i).blockSize = c.blockSize block
    let c ← c.acquirePoolLock caller poolIdx
    let c := (c.addBlockToPool poolIdx block).releasePoolLock caller poolIdx
    return { c with clusterInUseFLAG := 0 }

end Memcluster

end DocetOS
