import DocetOS.OS.MemclusterBlocks

/-!
# No block is lost or handed out twice

The pieces of `MemclusterBlocks` are put together: what `memory_cluster_init`,
`allocate` and `deallocate` do to the lists of blocks (`memoryClusterInit_rep`,
`Rep.allocate`, `Rep.deallocate`), and from this what holds in every run of
calls on one array (`blocks_conserved`).
-/

namespace DocetOS.Memcluster

open Lib

/-! ## `memory_cluster_init` -/

/-- The cluster with empty buckets. -/
def emptyBuckets (c : Memcluster) : Memcluster :=
  { c with allocatedBlocksBuckets := fun _ => NULL }

section Init

variable {c : Memcluster} {start : Nat} {blocks : List Nat} {free : Nat → List Nat}

/-- The loop that carves the array keeps the blocks it has made in the free
lists of their pools. -/
theorem Rep.carve {fuel counter numSkips memoryArray memorySize : Nat}
    (h : c.emptyBuckets.Rep start memoryArray blocks free (fun _ => []) [])
    (hstart : start ≤ memoryArray) (hpos : 0 < memoryArray) :
    ∃ free stop, stop ≤ memoryArray + 4 * memorySize ∧
      (carve fuel counter numSkips memoryArray memorySize c blocks).1.emptyBuckets.Rep start stop
        (carve fuel counter numSkips memoryArray memorySize c blocks).2 free (fun _ => []) [] := by
  induction fuel generalizing counter numSkips memoryArray memorySize c blocks free with
  | zero => exact ⟨free, memoryArray, Nat.le_add_right _ _, h⟩
  | succ fuel ih =>
    unfold Memcluster.carve
    dsimp only
    have hi : counter % NUMBER_OF_POOLS < NUMBER_OF_POOLS := Nat.mod_lt _ (by decide)
    generalize counter % NUMBER_OF_POOLS = i at hi ⊢
    split
    · exact ⟨free, memoryArray, Nat.le_add_right _ _, h⟩
    · split
      · split
        · exact ih h hstart hpos
        · exact ⟨free, memoryArray, Nat.le_add_right _ _, h⟩
      · -- the block fits: its header is written and it goes to its pool
        rename_i hfit
        have harray : memoryArray + 12 + 4 * (c.pools i).blockSize =
            memoryArray + 4 * (SIZEOF_MEMBLOCK / 4 + (c.pools i).blockSize) := by
          simp only [SIZEOF_MEMBLOCK]
          omega
        have hsize : (c.writeHeader memoryArray (c.pools i).blockSize).blockSize memoryArray =
            (c.pools i).blockSize := by
          simp [Memcluster.writeHeader, write, blockSize]
        have hadd := (h.writeHeader hstart (Nat.ne_of_gt hpos) hi).addBlockToPool hi hsize
        rw [show c.emptyBuckets.pools = c.pools from rfl, harray] at hadd
        obtain ⟨free', stop, hstop, hrep⟩ :=
          @ih ((c.writeHeader memoryArray (c.pools i).blockSize).addBlockToPool i memoryArray) _ _
            (counter + 1) numSkips _ (memorySize - (SIZEOF_MEMBLOCK / 4 + (c.pools i).blockSize))
            hadd (by omega) (by omega)
        refine ⟨free', stop, ?_, hrep⟩
        simp only [SIZEOF_MEMBLOCK] at hfit hstop ⊢
        omega

/-- The bound of the loop is never reached: each round makes a block or skips
one of the pools. -/
theorem carve_bound {fuel more counter numSkips memoryArray memorySize : Nat} {c : Memcluster}
    {blocks : List Nat} (hf : memorySize + (NUMBER_OF_POOLS - numSkips) ≤ fuel) :
    Memcluster.carve (fuel + more) counter numSkips memoryArray memorySize c blocks =
      Memcluster.carve fuel counter numSkips memoryArray memorySize c blocks := by
  induction fuel generalizing counter numSkips memoryArray memorySize c blocks with
  | zero =>
    obtain rfl : memorySize = 0 := by omega
    cases more <;> rfl
  | succ fuel ih =>
    rw [Nat.succ_add]
    unfold Memcluster.carve
    dsimp only
    split
    · rfl
    · split
      · split
        · exact ih (by omega)
        · rfl
      · refine ih ?_
        simp only [SIZEOF_MEMBLOCK]
        omega

theorem alignArray_bounds {memoryArray memorySize : Nat} (hn : 1 ≤ memorySize)
    (hfit : memoryArray + 4 * memorySize ≤ 4294967296) :
    memoryArray ≤ (alignArray memoryArray memorySize).1 ∧
      0 < (alignArray memoryArray memorySize).1 ∧
      (alignArray memoryArray memorySize).1 + 4 * (alignArray memoryArray memorySize).2 ≤
        memoryArray + 4 * memorySize := by
  unfold alignArray
  rw [decr_of_pos hn]
  split
  · dsimp only
    omega
  · rename_i hskip
    have hzero : wrap (memoryArray + 4) = 0 := not_not.mp hskip
    have hpos : 0 < memoryArray := by
      by_contra h0
      obtain rfl : memoryArray = 0 := by omega
      exact absurd hzero (by decide)
    exact ⟨le_rfl, hpos, le_rfl⟩

theorem lists_nil : lists (fun _ => []) (fun _ => []) = fun _ => [] := by
  funext k
  cases k <;> rfl

/-- Before the first block is made, all lists are empty. -/
theorem emptyPools_rep (c : Memcluster) (start stop : Nat) (hc : c.pools = emptyPools) :
    c.emptyBuckets.Rep start stop [] (fun _ => []) (fun _ => []) [] where
  layout := ⟨by simp, by simp, by simp, by simp, .nil⟩
  pool_size i _ := by show (c.pools i).blockSize = _; rw [hc]; rfl
  pool_lock i _ := by show (c.pools i).memoryPoolLock = _; rw [hc]; rfl
  links := by
    rw [lists_nil]
    refine ⟨fun k _ => Path.nil_iff.mpr ?_, by simp⟩
    cases k with
    | inl i => show toPtr (c.pools i).firstMemoryBlock = none; rw [hc]; rfl
    | inr j => rfl
  cells := by simp [lists_nil]
  free_length i _ := by show (c.pools i).freeBlocks = _; rw [hc]; rfl
  sized _ _ _ hb := absurd hb List.not_mem_nil
  hashed _ _ _ hb := absurd hb List.not_mem_nil

/-- `memory_cluster_init` leaves every block it made in the free list of its
pool, whatever the number of words. -/
theorem memoryClusterInit_rep_of_start {memoryArray memorySize : Nat}
    (hstart : memoryArray ≤ (alignArray memoryArray memorySize).1)
    (hpos : 0 < (alignArray memoryArray memorySize).1) (previous : Memcluster) :
    ∃ free stop, stop ≤ (alignArray memoryArray memorySize).1 +
        4 * (alignArray memoryArray memorySize).2 ∧
      (memoryClusterInit previous memoryArray memorySize).1.Rep memoryArray stop
        (memoryClusterInit previous memoryArray memorySize).2 free (fun _ => []) [] := by
  have hempty := emptyPools_rep
    { previous with
        clusterInUseFLAG := 0
        memory := clearWords memorySize memoryArray previous.memory
        poolLocks := fun _ => initMutex
        pools := emptyPools } memoryArray (alignArray memoryArray memorySize).1 rfl
  exact @Rep.carve _ _ _ _ ((alignArray memoryArray memorySize).2 + NUMBER_OF_POOLS) 0 0 _
    (alignArray memoryArray memorySize).2 hempty hstart hpos

/-- **`memory_cluster_init`** leaves every block it made in the free list of its
pool, and all blocks inside the array. -/
theorem memoryClusterInit_rep {memoryArray memorySize : Nat} (hn : 1 ≤ memorySize)
    (hfit : memoryArray + 4 * memorySize ≤ 4294967296) (previous : Memcluster) :
    ∃ free stop, stop ≤ memoryArray + 4 * memorySize ∧
      (memoryClusterInit previous memoryArray memorySize).1.Rep memoryArray stop
        (memoryClusterInit previous memoryArray memorySize).2 free (fun _ => []) [] := by
  obtain ⟨hstart, hpos, hstop⟩ := alignArray_bounds hn hfit
  obtain ⟨free, stop, hstop', hrep⟩ := memoryClusterInit_rep_of_start hstart hpos previous
  exact ⟨free, stop, hstop'.trans hstop, hrep⟩

end Init

/-! ## `allocate` -/

/-- The blocks handed out: the chains of the buckets. -/
def allocated (bucket : Nat → List Nat) : Multiset Nat :=
  ∑ j ∈ Finset.range MEMPOOL_HASH_TABLE_BUCKET_NUM, (bucket j : Multiset Nat)

section Allocate

variable {c c' : Memcluster} {start stop : Nat} {blocks : List Nat} {free bucket : Nat → List Nat}
  {fuel caller : Nat}

theorem acquirePoolLock_eq {lockIdx : Nat} (h : c.acquirePoolLock caller lockIdx = some c') :
    ∃ locks, c' = { c with poolLocks := locks } := by
  simp only [acquirePoolLock, Option.bind_eq_bind, Option.bind_eq_some_iff, Option.pure_def,
    Option.some.injEq] at h
  obtain ⟨lock, -, rfl⟩ := h
  exact ⟨_, rfl⟩

/-- The search only takes locks, and ends at a pool with a free block. -/
theorem searchPools_eq {initialIdx idx i : Nat} (hinit : initialIdx < NUMBER_OF_POOLS)
    (hidx : idx < NUMBER_OF_POOLS)
    (h : searchPools caller initialIdx fuel idx c = some (c', i)) :
    i < NUMBER_OF_POOLS ∧ (c'.pools i).freeBlocks ≠ 0 ∧
      ∃ locks, c' = { c with poolLocks := locks } := by
  induction fuel generalizing idx c with
  | zero => cases h
  | succ fuel ih =>
    simp only [searchPools, Option.bind_eq_bind, Option.bind_eq_some_iff] at h
    obtain ⟨c₁, hlock, h⟩ := h
    obtain ⟨locks, rfl⟩ := acquirePoolLock_eq hlock
    split at h
    · rename_i hfree
      simp only [Option.pure_def, Option.some.injEq, Prod.mk.injEq] at h
      obtain ⟨rfl, rfl⟩ := h
      exact ⟨hidx, hfree, locks, rfl⟩
    · have hnext : nextPool initialIdx idx < NUMBER_OF_POOLS := by
        unfold nextPool
        split
        · assumption
        · exact hinit
      obtain ⟨hi, hfree, locks', rfl⟩ := ih hnext h
      exact ⟨hi, hfree, locks', rfl⟩

/-- The search starts at the smallest pool that fits and never goes below it. -/
theorem searchPools_le {initialIdx idx i : Nat} (hidx : initialIdx ≤ idx)
    (h : searchPools caller initialIdx fuel idx c = some (c', i)) : initialIdx ≤ i := by
  induction fuel generalizing idx c with
  | zero => cases h
  | succ fuel ih =>
    simp only [searchPools, Option.bind_eq_bind, Option.bind_eq_some_iff] at h
    obtain ⟨c₁, -, h⟩ := h
    split at h
    · simp only [Option.pure_def, Option.some.injEq, Prod.mk.injEq] at h
      exact h.2 ▸ hidx
    · refine ih ?_ h
      unfold nextPool
      split
      · exact Nat.le_succ_of_le hidx
      · exact le_rfl

theorem selectPool_lt {requiredSize i : Nat} (h : c.selectPool requiredSize = some i) :
    i < NUMBER_OF_POOLS :=
  List.mem_range.mp (List.mem_of_find?_eq_some h)

theorem selectPool_fits {requiredSize i : Nat} (h : c.selectPool requiredSize = some i) :
    requiredSize ≤ (c.pools i).blockSize := by
  simpa using List.find?_some h

/-- A free block of the pool the search ends at fits the request. -/
theorem Rep.fits {requiredSize initialIdx i b : Nat} {transit : List Nat}
    (h : c.Rep start stop blocks free bucket transit)
    (hsel : c.selectPool requiredSize = some initialIdx) (hle : initialIdx ≤ i)
    (hi : i < NUMBER_OF_POOLS) (hb : b ∈ free i) : requiredSize ≤ c.blockSize b := by
  rw [h.sized i hi b hb, h.pool_size i hi]
  have hfits := selectPool_fits hsel
  rw [h.pool_size initialIdx (selectPool_lt hsel)] at hfits
  exact hfits.trans (Nat.pow_le_pow_right (by decide) (Nat.add_le_add_right hle _))

/-- The block that goes to its bucket joins the allocated ones. -/
theorem allocated_push {j b : Nat} (hj : j < MEMPOOL_HASH_TABLE_BUCKET_NUM)
    (bucket : Nat → List Nat) :
    allocated (Function.update bucket j (b :: bucket j)) = b ::ₘ allocated bucket :=
  sum_coe_push (Finset.mem_range.mpr hj) bucket b

theorem allocated_drop {j b : Nat} (hj : j < MEMPOOL_HASH_TABLE_BUCKET_NUM)
    {bucket : Nat → List Nat} {l₁ l₂ : List Nat} (hl : bucket j = l₁ ++ b :: l₂) :
    b ::ₘ allocated (Function.update bucket j (l₁ ++ l₂)) = allocated bucket :=
  sum_coe_drop (Finset.mem_range.mpr hj) hl

theorem placeBlockIntoBucket_memory {b : Nat} (hc : c.placeBlockIntoBucket caller b = some c') :
    ∃ v, c'.memory = Function.update c.memory b v := by
  simp only [Memcluster.placeBlockIntoBucket, Option.bind_eq_bind, Option.bind_eq_some_iff,
    Option.pure_def, Option.some.injEq] at hc
  obtain ⟨lock, -, rfl⟩ := hc
  exact ⟨_, rfl⟩

/-- The buckets with the block in the one its memory hashes to. -/
def pushBucket (bucket : Nat → List Nat) (b : Nat) : Nat → List Nat :=
  Function.update bucket (bucketNumber (b + 12)) (b :: bucket (bucketNumber (b + 12)))

theorem allocated_pushBucket (bucket : Nat → List Nat) (b : Nat) :
    allocated (pushBucket bucket b) = b ::ₘ allocated bucket :=
  allocated_push (Nat.mod_lt _ (by decide)) bucket

theorem Rep.placeBlockIntoBucket {b : Nat} {transit : List Nat}
    (h : c.Rep start stop blocks free bucket (b :: transit))
    (hc : c.placeBlockIntoBucket caller b = some c') :
    c'.Rep start stop blocks free (pushBucket bucket b) transit := by
  simp only [Memcluster.placeBlockIntoBucket, Option.bind_eq_bind, Option.bind_eq_some_iff,
    Option.pure_def, Option.some.injEq] at hc
  obtain ⟨lock, -, rfl⟩ := hc
  have hlink := h.linkBlock
  rw [h.layout.headPtr_eq b h.transit_mem] at hlink
  exact hlink.of_eq rfl rfl rfl

/-- `__removeBlockFromPool` moves the first free block of a pool to its bucket. -/
theorem Rep.removeBlockFromPool {i b : Nat} (h : c.Rep start stop blocks free bucket [])
    (hi : i < NUMBER_OF_POOLS) (hfree : (c.pools i).freeBlocks ≠ 0)
    (hc : c.removeBlockFromPool caller i = some (c', b)) :
    ∃ l, free i = b :: l ∧
      c'.Rep start stop blocks (Function.update free i l) (pushBucket bucket b) [] := by
  simp only [Memcluster.removeBlockFromPool, Option.bind_eq_bind, Option.bind_eq_some_iff,
    Option.pure_def, Option.some.injEq, Prod.mk.injEq] at hc
  obtain ⟨c₁, hplace, rfl, hb⟩ := hc
  obtain ⟨b', l, hl, hb', hdetach⟩ := h.detachFirstBlock hi hfree
  obtain rfl : b' = b := hb'.symm.trans hb
  rw [hb'] at hplace
  exact ⟨l, hl, hdetach.placeBlockIntoBucket hplace⟩

/-- Of the memory it writes the pointer field of the block it takes. -/
theorem removeBlockFromPool_memory {i b : Nat}
    (hc : c.removeBlockFromPool caller i = some (c', b)) :
    ∃ v, c'.memory = Function.update c.memory b v := by
  simp only [Memcluster.removeBlockFromPool, Option.bind_eq_bind, Option.bind_eq_some_iff,
    Option.pure_def, Option.some.injEq, Prod.mk.injEq] at hc
  obtain ⟨c₁, hplace, rfl, rfl⟩ := hc
  obtain ⟨v, hv⟩ := placeBlockIntoBucket_memory hplace
  have hdetached : (c.detachFirstBlock i).1.memory =
      Function.update c.memory (c.detachFirstBlock i).2 NULL := rfl
  rw [hdetached, Function.update_idem] at hv
  exact ⟨v, hv⟩

/-- The block `b` is handed out to a request for `requiredSize` words: it moves
from the free blocks to the allocated ones, and of the memory its pointer field
and the words behind its header are written, these with 0. -/
structure HandsOut (c c' : Memcluster) (start stop : Nat) (blocks : List Nat)
    (bucket : Nat → List Nat) (requiredSize b : Nat) : Prop where
  mem : b ∈ blocks
  fits : requiredSize ≤ c.blockSize b
  memory : ∃ v, c'.memory =
    clearWords (c.blockSize b) (b + 12) (Function.update c.memory b v)
  rep : ∃ free' bucket', c'.Rep start stop blocks free' bucket' [] ∧
    allocated bucket' = b ::ₘ allocated bucket

/-- The end of `allocate` hands out the first free block of the pool the search
ended at. -/
theorem Rep.handsOut {c₁ c₂ : Memcluster} {requiredSize initialIdx i b : Nat} {locks : Nat → Mutex}
    {flag : Nat} (h : c.Rep start stop blocks free bucket [])
    (hsel : c.selectPool requiredSize = some initialIdx) (hle : initialIdx ≤ i)
    (hi : i < NUMBER_OF_POOLS) (hfree : (c.pools i).freeBlocks ≠ 0)
    (hc₁ : c₁ = { c with poolLocks := locks, clusterInUseFLAG := flag })
    (hremove : c₁.removeBlockFromPool caller i = some (c₂, b))
    (hc' : c' = (c₂.releasePoolLock caller (c₂.pools i).memoryPoolLock).clearBlock b) :
    HandsOut c c' start stop blocks bucket requiredSize b := by
  have hlocked : c₁.Rep start stop blocks free bucket [] := by
    subst hc₁
    exact h.of_eq rfl rfl rfl
  have hfree₁ : (c₁.pools i).freeBlocks ≠ 0 := by
    subst hc₁
    exact hfree
  obtain ⟨l, hl, hrep⟩ := hlocked.removeBlockFromPool hi hfree₁ hremove
  have hb : b ∈ free i := by
    rw [hl]
    exact List.mem_cons_self
  have hmem := hlocked.mem_blocks (inl_mem_indices hi) hb
  obtain ⟨v, hv⟩ := removeBlockFromPool_memory hremove
  have hmemory : c₂.memory = Function.update c.memory b v := by
    subst hc₁
    exact hv
  -- of the memory, only the link of the block has changed before it is cleared
  have hsize : c₂.blockSize b = c.blockSize b := by
    unfold blockSize
    rw [hmemory, Function.update_of_ne (by omega)]
  have hhead : c₂.headPtr b = b + 12 := hrep.layout.headPtr_eq b hmem
  have hreleased : (c₂.releasePoolLock caller (c₂.pools i).memoryPoolLock).Rep start stop
      blocks (Function.update free i l) (pushBucket bucket b) [] := hrep.of_eq rfl rfl rfl
  exact
    { mem := hmem
      fits := h.fits hsel hle hi hb
      memory := by
        refine ⟨v, ?_⟩
        rw [← hmemory, ← hsize, ← hhead, hc']
        rfl
      rep := ⟨_, _, hc' ▸ hreleased.clearBlock hmem, allocated_pushBucket bucket b⟩ }

/-- **`allocate`** hands out nothing and writes no memory, or it hands out one
block that was free. -/
theorem Rep.allocate_handsOut {requiredSize p : Nat} (h : c.Rep start stop blocks free bucket [])
    (hc : c.allocate fuel caller requiredSize = some (c', p)) :
    (p = NULL ∧ c'.memory = c.memory ∧ c'.pools = c.pools ∧
        c'.allocatedBlocksBuckets = c.allocatedBlocksBuckets) ∨
      ∃ b, p = b + 12 ∧ HandsOut c c' start stop blocks bucket requiredSize b := by
  unfold Memcluster.allocate at hc
  split at hc
  · simp only [Option.some.injEq, Prod.mk.injEq] at hc
    obtain ⟨rfl, rfl⟩ := hc
    exact .inl ⟨rfl, rfl, rfl, rfl⟩
  · split at hc
    · simp only [Option.some.injEq, Prod.mk.injEq] at hc
      obtain ⟨rfl, rfl⟩ := hc
      exact .inl ⟨rfl, rfl, rfl, rfl⟩
    · rename_i idx hsel
      simp only [Option.bind_eq_bind, Option.bind_eq_some_iff, Option.pure_def, Option.some.injEq,
        Prod.mk.injEq] at hc
      obtain ⟨⟨c₁, i⟩, hsearch, ⟨c₂, b⟩, hremove, rfl, rfl⟩ := hc
      have hidx := selectPool_lt hsel
      have hle := searchPools_le le_rfl hsearch
      obtain ⟨hi, hfree, locks, rfl⟩ := searchPools_eq hidx hidx hsearch
      have hout := h.handsOut hsel hle hi hfree rfl hremove rfl
      obtain ⟨_, _, hrep, -⟩ := hout.rep
      exact .inr ⟨b, hrep.layout.headPtr_eq b hout.mem, hout⟩

/-- What `allocate` does to the lists. -/
theorem Rep.allocate {requiredSize p : Nat} (h : c.Rep start stop blocks free bucket [])
    (hc : c.allocate fuel caller requiredSize = some (c', p)) :
    (p = NULL ∧ c'.Rep start stop blocks free bucket []) ∨
      ∃ b ∈ blocks, p = b + 12 ∧ ∃ free' bucket', c'.Rep start stop blocks free' bucket' [] ∧
        allocated bucket' = b ::ₘ allocated bucket := by
  rcases h.allocate_handsOut hc with ⟨hp, hm, hpl, hbk⟩ | ⟨b, hp, hout⟩
  · exact .inl ⟨hp, h.of_eq hm hpl hbk⟩
  · exact .inr ⟨b, hout.mem, hp, hout.rep⟩

end Allocate

/-! ## `deallocate` -/

section Deallocate

variable {c c' : Memcluster} {start stop : Nat} {blocks : List Nat} {free bucket : Nat → List Nat}
  {fuel caller p : Nat}

/-- The search of `__recoverBlockFromBucket` finds the first block of the chain
with the pointer, and the block before it. -/
theorem findBlock_eq {l : List Nat} {prev blockPtr : Nat} {r : Option (Nat × Nat)}
    (hl : Chain c.next (toPtr blockPtr) l) (hr : c.findBlock p fuel prev blockPtr = some r) :
    (r = none ∧ ∀ a ∈ l, c.headPtr a ≠ p) ∨
      ∃ l₁ b l₂, l = l₁ ++ b :: l₂ ∧ c.headPtr b = p ∧ r = some (l₁.getLast?.getD prev, b) := by
  induction fuel generalizing prev blockPtr l with
  | zero => cases hr
  | succ fuel ih =>
    unfold findBlock at hr
    split at hr
    · rename_i hnull
      obtain rfl := Option.some.inj hr
      subst hnull
      obtain rfl := hl.nil_of_none
      exact .inl ⟨rfl, by simp⟩
    · rename_i hne
      rw [toPtr_of_ne hne] at hl
      cases hl with
      | cons ht =>
        split at hr
        · rename_i hp
          rcases ih ht hr with ⟨hnone, hall⟩ | ⟨l₁, b, l₂, rfl, hb, hsome⟩
          · exact .inl ⟨hnone, List.forall_mem_cons.mpr ⟨hp, hall⟩⟩
          · refine .inr ⟨blockPtr :: l₁, b, l₂, rfl, hb, ?_⟩
            rw [hsome, List.getLast?_cons, Option.getD_some]
        · rename_i hp
          obtain rfl := Option.some.inj hr
          exact .inr ⟨[], blockPtr, _, rfl, not_not.mp hp, rfl⟩

/-- A block found for `p` is allocated; when none is found, no allocated block
has the head pointer `p`. -/
theorem Rep.recoverBlockFromBucket {b : Nat} (h : c.Rep start stop blocks free bucket [])
    (hc : c.recoverBlockFromBucket fuel caller p = some (c', b)) :
    (b = NULL ∧ (∀ a ∈ allocated bucket, c.headPtr a ≠ p) ∧ c'.memory = c.memory ∧
        c'.pools = c.pools ∧ c'.allocatedBlocksBuckets = c.allocatedBlocksBuckets) ∨
      b ≠ NULL ∧ c.headPtr b = p ∧ (∀ a ∉ blocks, c'.memory a = c.memory a) ∧
        ∃ bucket', c'.Rep start stop blocks free bucket' [b] ∧
          b ::ₘ allocated bucket' = allocated bucket := by
  have hj : bucketNumber p < MEMPOOL_HASH_TABLE_BUCKET_NUM := Nat.mod_lt _ (by decide)
  have hchain : Chain c.next (toPtr (c.allocatedBlocksBuckets (bucketNumber p)))
      (bucket (bucketNumber p)) := h.links.path (.inr (bucketNumber p)) (inr_mem_indices hj)
  simp only [Memcluster.recoverBlockFromBucket, Option.bind_eq_bind, Option.bind_eq_some_iff] at hc
  obtain ⟨lock, -, r, hfind, hc⟩ := hc
  have hfound := findBlock_eq (c := { c with hashtableLock := lock }) hchain hfind
  rcases hfound with ⟨rfl, hnone⟩ | ⟨l₁, b', l₂, hl, hb', rfl⟩
  · simp only [Option.pure_def, Option.some.injEq, Prod.mk.injEq] at hc
    obtain ⟨rfl, rfl⟩ := hc
    refine .inl ⟨rfl, ?_, rfl, rfl, rfl⟩
    intro a ha hap
    -- a block with this head pointer would be in the bucket searched
    obtain ⟨j, hj', haj⟩ := mem_sum_coe.mp ha
    have hhash := h.hashed j (Finset.mem_range.mp hj') a haj
    rw [hap] at hhash
    exact hnone a (hhash ▸ haj) hap
  · simp only [Option.pure_def, Option.some.injEq, Prod.mk.injEq] at hc
    obtain ⟨rfl, rfl⟩ := hc
    have hlocked :
        Memcluster.Rep { c with hashtableLock := lock } start stop blocks free bucket [] :=
      h.of_eq rfl rfl rfl
    have hunlink := hlocked.unlinkBlock hj hl
    refine .inr ⟨h.layout.ne_null b' ?_, hb', ?_, _, hunlink.of_eq rfl rfl rfl,
      allocated_drop hj hl⟩
    · exact hunlink.transit_mem
    · intro a ha
      exact hlocked.unlinkBlock_memory hj hl ha

/-- **`deallocate`** of the head pointer of an allocated block frees the block,
and writes pointer fields only. -/
theorem Rep.deallocate (h : c.Rep start stop blocks free bucket [])
    (hc : c.deallocate fuel caller p = some c') (hp : ∃ b ∈ allocated bucket, c.headPtr b = p) :
    ∃ b free' bucket', p = b + 12 ∧ (∀ a ∉ blocks, c'.memory a = c.memory a) ∧
      c'.Rep start stop blocks free' bucket' [] ∧
      b ::ₘ allocated bucket' = allocated bucket := by
  simp only [Memcluster.deallocate, Option.bind_eq_bind, Option.bind_eq_some_iff] at hc
  obtain ⟨⟨c₁, b⟩, hrec, hc⟩ := hc
  have hflag := h.inUse
  rcases hflag.recoverBlockFromBucket hrec with
    ⟨-, hnone, -⟩ | ⟨hb, hheadPtr, hmemory, bucket', hrep, halloc⟩
  · -- the pointer is that of a block, so the search does not end without one
    obtain ⟨b', hb', hpb⟩ := hp
    exact absurd hpb (hnone b' hb')
  · rw [if_neg hb] at hc
    simp only [Option.bind_eq_some_iff, Option.pure_def, Option.some.injEq] at hc
    obtain ⟨i, hpool, c₂, hlock, rfl⟩ := hc
    have hi : i < NUMBER_OF_POOLS := List.mem_range.mp (List.mem_of_find?_eq_some hpool)
    have hsize : (c₁.pools i).blockSize = c₁.blockSize b := by simpa using List.find?_some hpool
    -- the block is on its way from the bucket to the pool of its size
    obtain ⟨locks, rfl⟩ := acquirePoolLock_eq hlock
    have hlocked :
        Memcluster.Rep { c₁ with poolLocks := locks } start stop blocks free bucket' [b] :=
      hrep.of_eq rfl rfl rfl
    have hadd := hlocked.addBlockToPool hi hsize.symm
    have hmem : b ∈ blocks := hrep.transit_mem
    refine ⟨b, _, bucket', ?_, ?_, hadd.of_eq rfl rfl rfl, halloc⟩
    · rw [← hheadPtr]
      exact hflag.layout.headPtr_eq b hmem
    · intro a ha
      have hwrite := Function.update_of_ne (ne_of_mem_of_not_mem hmem ha).symm
        (c₁.pools i).firstMemoryBlock c₁.memory
      exact hwrite.trans (hmemory a ha)

/-- **`deallocate`** of any other pointer changes no list. -/
theorem Rep.deallocate_foreign (h : c.Rep start stop blocks free bucket [])
    (hc : c.deallocate fuel caller p = some c') (hp : ∀ b ∈ allocated bucket, c.headPtr b ≠ p) :
    c'.memory = c.memory ∧ c'.pools = c.pools ∧
      c'.allocatedBlocksBuckets = c.allocatedBlocksBuckets := by
  simp only [Memcluster.deallocate, Option.bind_eq_bind, Option.bind_eq_some_iff] at hc
  obtain ⟨⟨c₁, b⟩, hrec, hc⟩ := hc
  have hflag := h.inUse
  rcases hflag.recoverBlockFromBucket hrec with ⟨rfl, -, hm, hpl, hbk⟩ |
    ⟨-, hheadPtr, -, _, -, halloc⟩
  · simp only [if_true, Option.pure_def, Option.some.injEq] at hc
    subst hc
    exact ⟨hm, hpl, hbk⟩
  · refine absurd hheadPtr (hp b ?_)
    rw [← halloc]
    exact Multiset.mem_cons_self b _

/-- Whatever pointer it is passed, `deallocate` writes pointer fields only. -/
theorem Rep.deallocate_memory (h : c.Rep start stop blocks free bucket [])
    (hc : c.deallocate fuel caller p = some c') {a : Nat} (ha : a ∉ blocks) :
    c'.memory a = c.memory a := by
  by_cases hp : ∃ b ∈ allocated bucket, c.headPtr b = p
  · obtain ⟨b, _, _, -, hmemory, -⟩ := h.deallocate hc hp
    exact hmemory a ha
  · push Not at hp
    exact congrFun (h.deallocate_foreign hc hp).1 a

end Deallocate

/-! ## Runs -/

/-- The cluster and the pointers it has handed out that have not come back. -/
structure System where
  cluster : Memcluster
  live : List Nat

/-- A call by the task `caller`; `fuel` bounds the rounds of its loops. -/
inductive Call where
  | allocate (fuel caller requiredSize : Nat)
  | deallocate (fuel caller memblockHeadPtr : Nat)

/-- A call that returns. -/
def System.step (s : System) : Call → Option System
  | .allocate fuel caller requiredSize =>
    (s.cluster.allocate fuel caller requiredSize).map fun (cluster, p) =>
      { cluster, live := if p = NULL then s.live else p :: s.live }
  | .deallocate fuel caller p =>
    (s.cluster.deallocate fuel caller p).map fun cluster =>
      { cluster, live := s.live.erase p }

/-- The cluster after `memory_cluster_init` on the array, nothing handed out. -/
def freshSystem (previous : Memcluster) (memoryArray memorySize : Nat) : System where
  cluster := (memoryClusterInit previous memoryArray memorySize).1
  live := []

/-- The blocks `memory_cluster_init` makes of the array. -/
def carvedBlocks (previous : Memcluster) (memoryArray memorySize : Nat) : List Nat :=
  (memoryClusterInit previous memoryArray memorySize).2

/-- All runs of calls on one array. -/
def machine (previous : Memcluster) (memoryArray memorySize : Nat) : Machine System Call where
  init s := s = freshSystem previous memoryArray memorySize
  step := System.step

/-- What every run keeps: the blocks are accounted for, and the live pointers are
the head pointers of the allocated ones. -/
def Accounted (memoryArray stop : Nat) (blocks : List Nat) (s : System) : Prop :=
  ∃ free bucket, s.cluster.Rep memoryArray stop blocks free bucket [] ∧
    (s.live : Multiset Nat) = (allocated bucket).map (· + 12)

theorem allocated_mem_blocks {c : Memcluster} {start stop : Nat} {blocks : List Nat}
    {free bucket : Nat → List Nat} (h : c.Rep start stop blocks free bucket []) {b : Nat}
    (hb : b ∈ allocated bucket) : b ∈ blocks := by
  obtain ⟨j, hj, hb⟩ := mem_sum_coe.mp hb
  exact h.mem_blocks (inr_mem_indices (Finset.mem_range.mp hj)) hb

/-- The step lemma: a call keeps the blocks accounted for. -/
theorem Accounted.step {memoryArray stop : Nat} {blocks : List Nat} {s s' : System} {call : Call}
    (h : Accounted memoryArray stop blocks s) (hs : s.step call = some s') :
    Accounted memoryArray stop blocks s' := by
  obtain ⟨free, bucket, hrep, hlive⟩ := h
  cases call with
  | allocate fuel caller requiredSize =>
    obtain ⟨⟨c', p⟩, hcall, rfl⟩ := Option.map_eq_some_iff.mp hs
    rcases hrep.allocate hcall with ⟨rfl, hrep'⟩ | ⟨b, hb, rfl, free', bucket', hrep', halloc⟩
    · exact ⟨free, bucket, hrep', hlive⟩
    · refine ⟨free', bucket', hrep', ?_⟩
      have hne : b + 12 ≠ NULL := Nat.succ_ne_zero _
      simp only [if_neg hne]
      rw [halloc, Multiset.map_cons, ← hlive, Multiset.cons_coe]
  | deallocate fuel caller p =>
    obtain ⟨c', hcall, rfl⟩ := Option.map_eq_some_iff.mp hs
    by_cases hp : ∃ b ∈ allocated bucket, s.cluster.headPtr b = p
    · obtain ⟨b, free', bucket', rfl, -, hrep', halloc⟩ := hrep.deallocate hcall hp
      refine ⟨free', bucket', hrep', ?_⟩
      rw [← Multiset.coe_erase, hlive, ← halloc, Multiset.map_cons, Multiset.erase_cons_head]
    · -- a pointer that no allocated block has: the code finds nothing in the bucket
      push Not at hp
      obtain ⟨hm, hpl, hbk⟩ := hrep.deallocate_foreign hcall hp
      refine ⟨free, bucket, hrep.of_eq hm hpl hbk, ?_⟩
      have hnot : p ∉ s.live := by
        intro hmem
        rw [← Multiset.mem_coe, hlive] at hmem
        obtain ⟨b, hb, rfl⟩ := Multiset.mem_map.mp hmem
        exact hp b hb (hrep.layout.headPtr_eq b (allocated_mem_blocks hrep hb))
      rw [List.erase_of_not_mem hnot]
      exact hlive

/-- What holds between two calls. -/
structure Conserved (memoryArray memorySize : Nat) (blocks : List Nat)
    (free bucket : Nat → List Nat) (s : System) : Prop where
  /-- The extents of the blocks lie in the array. -/
  inside : ∀ b ∈ blocks,
    memoryArray ≤ b ∧ s.cluster.blockEnd b ≤ memoryArray + 4 * memorySize
  /-- The extents of the blocks do not meet. -/
  apart : blocks.Pairwise s.cluster.Apart
  /-- `free i` is the free list of pool `i`. -/
  freeList : ∀ i < NUMBER_OF_POOLS,
    Chain s.cluster.next (toPtr (s.cluster.pools i).firstMemoryBlock) (free i)
  /-- `bucket j` is the chain of bucket `j`. -/
  chain : ∀ j < MEMPOOL_HASH_TABLE_BUCKET_NUM,
    Chain s.cluster.next (toPtr (s.cluster.allocatedBlocksBuckets j)) (bucket j)
  /-- Every block is once in one of these lists. -/
  once : ∀ b ∈ blocks, ∑ i ∈ Finset.range NUMBER_OF_POOLS, (free i).count b +
    ∑ j ∈ Finset.range MEMPOOL_HASH_TABLE_BUCKET_NUM, (bucket j).count b = 1
  /-- A free block is in the pool of its size. -/
  sized : ∀ i < NUMBER_OF_POOLS, ∀ b ∈ free i, (s.cluster.pools i).blockSize = s.cluster.blockSize b
  /-- An allocated block is in the bucket of its head pointer. -/
  hashed : ∀ j < MEMPOOL_HASH_TABLE_BUCKET_NUM, ∀ b ∈ bucket j,
    djb2Hash (s.cluster.headPtr b) % MEMPOOL_HASH_TABLE_BUCKET_NUM = j
  /-- `freeBlocks` counts the free list. -/
  free_length : ∀ i < NUMBER_OF_POOLS, (s.cluster.pools i).freeBlocks = (free i).length
  /-- No pointer is handed out twice. -/
  live_nodup : s.live.Nodup
  /-- The pointers handed out are those of the allocated blocks. -/
  live_iff : ∀ p, p ∈ s.live ↔
    ∃ j < MEMPOOL_HASH_TABLE_BUCKET_NUM, ∃ b ∈ bucket j, s.cluster.headPtr b = p
  /-- A pointer that is not that of an allocated block frees nothing. -/
  foreign : ∀ fuel caller p c',
    (∀ j < MEMPOOL_HASH_TABLE_BUCKET_NUM, ∀ b ∈ bucket j, s.cluster.headPtr b ≠ p) →
    s.cluster.deallocate fuel caller p = some c' →
    c'.pools = s.cluster.pools ∧
      c'.allocatedBlocksBuckets = s.cluster.allocatedBlocksBuckets ∧ c'.memory = s.cluster.memory

/-- Blocks accounted for by the lists `free` and `bucket` are conserved. -/
theorem Rep.conserved {memoryArray memorySize stop : Nat} {blocks : List Nat}
    {free bucket : Nat → List Nat} {s : System}
    (hrep : s.cluster.Rep memoryArray stop blocks free bucket [])
    (hlive : (s.live : Multiset Nat) = (allocated bucket).map (· + 12))
    (hstop : stop ≤ memoryArray + 4 * memorySize) :
    Conserved memoryArray memorySize blocks free bucket s := by
  have hmem : ∀ b, b ∈ allocated bucket ↔
      ∃ j < MEMPOOL_HASH_TABLE_BUCKET_NUM, b ∈ bucket j := by
    intro b
    simp [allocated]
  have hcells := hrep.cells
  rw [Multiset.coe_nil, zero_add] at hcells
  refine
    { inside := fun b hb => ?_
      apart := hrep.layout.apart
      freeList := fun i hi => hrep.links.path (.inl i) (inl_mem_indices hi)
      chain := fun j hj => hrep.links.path (.inr j) (inr_mem_indices hj)
      once := fun b hb => ?_
      sized := fun i hi b hb => (hrep.sized i hi b hb).symm
      hashed := hrep.hashed
      free_length := hrep.free_length
      live_nodup := ?_
      live_iff := fun p => ?_
      foreign := fun fuel caller p c' hp hc => ?_ }
  · have := hrep.layout.inside b hb
    omega
  · -- the lists together hold each block once
    have hcount := congrArg (Multiset.count b) hcells
    rw [Finset.sum_disjSum, Multiset.count_add, Multiset.count_sum', Multiset.count_sum',
      Multiset.coe_count, List.count_eq_one_of_mem hrep.layout.nodup hb] at hcount
    simpa [lists] using hcount
  · -- the buckets are part of the lists, and `· + 12` is injective
    have hnodup : (allocated bucket).Nodup := by
      have hall := Multiset.coe_nodup.mpr hrep.layout.nodup
      rw [← hcells, Finset.sum_disjSum] at hall
      exact (Multiset.nodup_add.mp hall).2.1
    rw [← Multiset.coe_nodup, hlive]
    exact hnodup.map (add_left_injective 12)
  · rw [← Multiset.mem_coe, hlive, Multiset.mem_map]
    constructor
    · rintro ⟨b, hb, rfl⟩
      obtain ⟨j, hj, hbj⟩ := (hmem b).mp hb
      exact ⟨j, hj, b, hbj, hrep.layout.headPtr_eq b (allocated_mem_blocks hrep hb)⟩
    · rintro ⟨j, hj, b, hbj, rfl⟩
      have hb := (hmem b).mpr ⟨j, hj, hbj⟩
      exact ⟨b, hb, (hrep.layout.headPtr_eq b (allocated_mem_blocks hrep hb)).symm⟩
  · -- a pointer that no allocated block hands out is not found in any bucket
    have hforeign : ∀ b ∈ allocated bucket, s.cluster.headPtr b ≠ p := fun b hb => by
      obtain ⟨j, hj, hbj⟩ := (hmem b).mp hb
      exact hp j hj b hbj
    obtain ⟨hm, hpl, hbk⟩ := hrep.deallocate_foreign hc hforeign
    exact ⟨hpl, hbk, hm⟩

theorem Accounted.conserved {memoryArray memorySize stop : Nat} {blocks : List Nat} {s : System}
    (h : Accounted memoryArray stop blocks s) (hstop : stop ≤ memoryArray + 4 * memorySize) :
    ∃ free bucket, Conserved memoryArray memorySize blocks free bucket s := by
  obtain ⟨free, bucket, hrep, hlive⟩ := h
  exact ⟨free, bucket, hrep.conserved hlive hstop⟩

/-- Every run keeps the blocks of `memory_cluster_init` accounted for. -/
theorem reach_accounted {memoryArray memorySize : Nat} (hn : 1 ≤ memorySize)
    (hfit : memoryArray + 4 * memorySize ≤ 4294967296) (previous : Memcluster) :
    ∃ stop ≤ memoryArray + 4 * memorySize, ∀ s, (machine previous memoryArray memorySize).Reach s →
      Accounted memoryArray stop (carvedBlocks previous memoryArray memorySize) s := by
  obtain ⟨free, stop, hstop, hrep⟩ := memoryClusterInit_rep hn hfit previous
  refine ⟨stop, hstop, ?_⟩
  intro s h
  refine h.invariant ?_ fun s call s' hs => hs.step
  intro s hs
  obtain rfl : s = freshSystem previous memoryArray memorySize := hs
  exact ⟨free, _, hrep, rfl⟩

/-- **Conservation**: after any sequence of calls on an array, whatever pointers
they pass, every block is in its place and no pointer has been handed out
twice. -/
theorem blocks_conserved {memoryArray memorySize : Nat} (hn : 1 ≤ memorySize)
    (hfit : memoryArray + 4 * memorySize ≤ 4294967296) (previous : Memcluster) {s : System}
    (h : (machine previous memoryArray memorySize).Reach s) :
    ∃ free bucket, Conserved memoryArray memorySize
      (carvedBlocks previous memoryArray memorySize) free bucket s := by
  obtain ⟨stop, hstop, hacc⟩ := reach_accounted hn hfit previous
  exact (hacc s h).conserved hstop

/-- A cluster over memory that holds ones everywhere. -/
def staleCluster : Memcluster where
  memory := fun _ => 1
  pools := fun _ => ⟨0, 0, 0, NULL⟩
  poolLocks := fun _ => initMutex
  hashtableLock := ⟨0, 0, NULL, NULL⟩
  allocatedBlocksBuckets := fun _ => 1
  clusterInUseFLAG := 0

/-- Two allocations, the release of the first pointer, its second release and a
release of a foreign pointer. -/
def sampleCalls : List Call :=
  [.allocate 5 80 10, .allocate 5 80 20, .deallocate 5 80 4112, .deallocate 5 80 4112,
    .deallocate 5 80 7]

/-- Conservation over `sampleCalls`. -/
theorem blocks_conserved_sampleCalls :
    ∃ s, (machine staleCluster 4096 60).run (freshSystem staleCluster 4096 60) sampleCalls =
        some s ∧
      s.live = [4188] ∧
      ∃ free bucket, Conserved 4096 60 (carvedBlocks staleCluster 4096 60) free bucket s := by
  have hrun : ((machine staleCluster 4096 60).run (freshSystem staleCluster 4096 60)
      sampleCalls).map System.live = some [4188] := by decide +kernel
  obtain ⟨s, hs, hlive⟩ := Option.map_eq_some_iff.mp hrun
  exact ⟨s, hs, hlive, blocks_conserved (by decide) (by decide) staleCluster
    (Machine.Reach.run (.init rfl) hs)⟩

end DocetOS.Memcluster
