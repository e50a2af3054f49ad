import DocetOS.OS.MemclusterConservation

/-!
# Best fit

`allocate` looks for the smallest pool whose blocks are large enough, and from
there upwards for one with a free block. As the pools are ordered by size, the
first one found is the smallest that can serve the request.

- `searchPools_finds`: the search ends at that pool, within as many rounds as
  there are pools, as long as no other task holds a lock.
- `allocate_of_misfit`, `Rep.allocate_bestFit`: the two outcomes of a call.
- `allocate_best_fit`: both, in every reachable state.
-/

namespace DocetOS.Memcluster

open Lib

/-! ## The search -/

/-- No task but `caller` holds a lock of the cluster. -/
structure LocksAvailable (c : Memcluster) (caller : Nat) : Prop where
  pool : ∀ i < NUMBER_OF_POOLS,
    (c.poolLocks i).tcbPointer = NULL ∨ (c.poolLocks i).tcbPointer = caller
  hashtable : c.hashtableLock.tcbPointer = NULL ∨ c.hashtableLock.tcbPointer = caller

section Search

variable {c c' : Memcluster} {caller idx i : Nat}

/-- A lock that is available can be taken, and stays available to its owner. -/
theorem LocksAvailable.acquirePoolLock (h : c.LocksAvailable caller)
    (hidx : idx < NUMBER_OF_POOLS) :
    ∃ locks, c.acquirePoolLock caller idx = some { c with poolLocks := locks } ∧
      LocksAvailable { c with poolLocks := locks } caller := by
  obtain ⟨lock, hlock, howner⟩ := Mutex.acquire_of_available (h.pool idx hidx)
  refine ⟨Function.update c.poolLocks idx lock, ?_, ?_, h.hashtable⟩
  · unfold Memcluster.acquirePoolLock
    rw [hlock]
    rfl
  · intro k hk
    by_cases hki : k = idx
    · subst hki
      exact .inr (by simpa using howner)
    · simpa [Function.update_of_ne hki] using h.pool k hk

theorem LocksAvailable.releasePoolLock (h : c.LocksAvailable caller) (idx : Nat) :
    (c.releasePoolLock caller idx).LocksAvailable caller := by
  refine ⟨?_, h.hashtable⟩
  intro k hk
  by_cases hki : k = idx
  · subst hki
    simpa [Memcluster.releasePoolLock] using Mutex.release_available (h.pool k hk)
  · simpa [Memcluster.releasePoolLock, Function.update_of_ne hki] using h.pool k hk

/-- The search passes over empty pools up to the first one with a free block. -/
theorem searchPools_finds (initialIdx : Nat) (h : c.LocksAvailable caller)
    (hlocks : ∀ k < NUMBER_OF_POOLS, (c.pools k).memoryPoolLock = k) (hi : i < NUMBER_OF_POOLS)
    (hle : idx ≤ i) (hempty : ∀ k, idx ≤ k → k < i → (c.pools k).freeBlocks = 0)
    (hfree : (c.pools i).freeBlocks ≠ 0) :
    ∃ locks, LocksAvailable { c with poolLocks := locks } caller ∧
      ∀ fuel, i - idx < fuel →
        searchPools caller initialIdx fuel idx c = some ({ c with poolLocks := locks }, i) := by
  obtain ⟨d, rfl⟩ := Nat.exists_eq_add_of_le hle
  induction d generalizing c idx with
  | zero =>
    rw [Nat.add_zero] at hi hfree ⊢
    obtain ⟨locks, hacquire, havailable⟩ := h.acquirePoolLock hi
    refine ⟨locks, havailable, ?_⟩
    intro fuel hfuel
    obtain ⟨fuel, rfl⟩ : ∃ n, fuel = n + 1 := ⟨fuel - 1, by omega⟩
    simp [searchPools, hlocks idx hi, hacquire, hfree]
  | succ d ih =>
    -- pool `idx` is empty: its lock is taken and kept, and the search goes on
    have hidx : idx < NUMBER_OF_POOLS := by omega
    obtain ⟨locks, hacquire, havailable⟩ := h.acquirePoolLock hidx
    have hnext : nextPool initialIdx idx = idx + 1 := if_pos (by omega)
    have hsum : idx + (d + 1) = idx + 1 + d := by omega
    rw [hsum] at hi hempty hfree ⊢
    obtain ⟨locks', havailable', hrest⟩ :=
      @ih { c with poolLocks := locks } (idx + 1) havailable hlocks hi (Nat.le_add_right _ _)
        (fun k hk hki => hempty k (by omega) hki) hfree
    refine ⟨locks', havailable', ?_⟩
    intro fuel hfuel
    obtain ⟨fuel, rfl⟩ : ∃ n, fuel = n + 1 := ⟨fuel - 1, by omega⟩
    have hzero := hempty idx le_rfl (by omega)
    simp only [searchPools, hlocks idx hidx, hacquire, Option.bind_eq_bind, Option.bind_some]
    rw [if_neg (by simp [hzero]), hnext]
    exact hrest fuel (by omega)

end Search

/-! ## The two outcomes -/

section Allocate

variable {c : Memcluster} {caller requiredSize : Nat}

/-- A request that no pool can serve changes nothing but the flag. -/
theorem allocate_of_misfit
    (h : requiredSize = 0 ∨ ∀ i < NUMBER_OF_POOLS, (c.pools i).blockSize < requiredSize)
    (fuel : Nat) :
    c.allocate fuel caller requiredSize = some ({ c with clusterInUseFLAG := 0 }, NULL) := by
  unfold allocate
  split
  · rfl
  · rename_i hne
    have hnone : c.selectPool requiredSize = none := by
      refine List.find?_eq_none.mpr fun i hi => ?_
      have hsmall := h.resolve_left hne i (List.mem_range.mp hi)
      simpa using hsmall
    rw [hnone]

/-- The pool selected is the smallest that fits. -/
theorem selectPool_eq_some_iff {i : Nat} :
    c.selectPool requiredSize = some i ↔ requiredSize ≤ (c.pools i).blockSize ∧
      i < NUMBER_OF_POOLS ∧ ∀ k < i, (c.pools k).blockSize < requiredSize := by
  simp [selectPool, List.find?_range_eq_some]

variable {start stop : Nat} {blocks : List Nat} {free bucket : Nat → List Nat}

/-- The pools are ordered by the size of their blocks. -/
theorem Rep.size_le (h : c.Rep start stop blocks free bucket []) {i k : Nat}
    (hi : i < NUMBER_OF_POOLS) (hk : k < NUMBER_OF_POOLS) (hik : i ≤ k) :
    (c.pools i).blockSize ≤ (c.pools k).blockSize := by
  rw [h.pool_size i hi, h.pool_size k hk]
  exact Nat.pow_le_pow_right (by decide) (Nat.add_le_add_right hik _)

/-- Among the pools that fit and have a free block there is a smallest one, and
it does not lie below the pool selected. -/
theorem Rep.exists_bestPool (h : c.Rep start stop blocks free bucket [])
    (hfit : ∃ k < NUMBER_OF_POOLS, requiredSize ≤ (c.pools k).blockSize ∧ free k ≠ []) :
    ∃ idx i, c.selectPool requiredSize = some idx ∧ idx ≤ i ∧ i < NUMBER_OF_POOLS ∧
      requiredSize ≤ (c.pools i).blockSize ∧ free i ≠ [] ∧ ∀ k, idx ≤ k → k < i → free k = [] := by
  classical
  have hex : ∃ i, i < NUMBER_OF_POOLS ∧ requiredSize ≤ (c.pools i).blockSize ∧ free i ≠ [] := hfit
  obtain ⟨hi, hsize, hne⟩ := Nat.find_spec hex
  have hmin := fun {k} (hk : k < Nat.find hex) => Nat.find_min hex hk
  generalize Nat.find hex = i at hi hsize hne hmin
  have hsome : ∃ idx, c.selectPool requiredSize = some idx := by
    rw [← Option.isSome_iff_exists]
    refine List.find?_isSome.mpr ⟨i, List.mem_range.mpr hi, by simpa using hsize⟩
  obtain ⟨idx, hidx⟩ := hsome
  obtain ⟨hfits, hlt, hbelow⟩ := selectPool_eq_some_iff.mp hidx
  refine ⟨idx, i, hidx, ?_, hi, hsize, hne, ?_⟩
  · by_contra hgt
    exact absurd hsize (Nat.not_le.mpr (hbelow i (by omega)))
  · intro k hk hki
    by_contra hkne
    have hk' : k < NUMBER_OF_POOLS := hki.trans hi
    exact hmin hki ⟨hk', hfits.trans (h.size_le hlt hk' hk), hkne⟩

/-- With the hashtable lock available, a block can be taken. -/
theorem LocksAvailable.removeBlockFromPool (h : c.LocksAvailable caller) (i : Nat) :
    ∃ c' b, c.removeBlockFromPool caller i = some (c', b) := by
  obtain ⟨lock, hlock, -⟩ := Mutex.acquire_of_available h.hashtable
  have hsame : (c.detachFirstBlock i).1.hashtableLock = c.hashtableLock := rfl
  simp only [Memcluster.removeBlockFromPool, placeBlockIntoBucket, hsame, hlock,
    Option.bind_eq_bind, Option.bind_some, Option.pure_def]
  exact ⟨_, _, rfl⟩

/-- **Best fit**: the call returns the first free block of the smallest pool that
can serve it, whatever bound above the number of pools its search has. -/
theorem Rep.allocate_bestFit (h : c.Rep start stop blocks free bucket [])
    (hlocks : c.LocksAvailable caller) (hne : requiredSize ≠ 0)
    (hfit : ∃ k < NUMBER_OF_POOLS, requiredSize ≤ (c.pools k).blockSize ∧ free k ≠ []) :
    ∃ i b l c', i < NUMBER_OF_POOLS ∧ requiredSize ≤ (c.pools i).blockSize ∧ free i = b :: l ∧
      (∀ k < NUMBER_OF_POOLS, requiredSize ≤ (c.pools k).blockSize → free k ≠ [] → i ≤ k) ∧
      (∀ fuel, NUMBER_OF_POOLS ≤ fuel →
        c.allocate fuel caller requiredSize = some (c', b + 12)) ∧
      c'.Rep start stop blocks (Function.update free i l) (pushBucket bucket b) [] := by
  obtain ⟨idx, i, hsel, hle, hi, hsize, hfree, hempty⟩ := h.exists_bestPool hfit
  obtain ⟨-, hidx, hbelow⟩ := selectPool_eq_some_iff.mp hsel
  have hcount : ∀ k < NUMBER_OF_POOLS, (c.pools k).freeBlocks = 0 ↔ free k = [] := fun k hk => by
    rw [h.free_length k hk, List.length_eq_zero_iff]
  -- the search, with the flag set
  have hflag := h.inUse
  have havailable : LocksAvailable { c with clusterInUseFLAG := 1 } caller :=
    ⟨hlocks.pool, hlocks.hashtable⟩
  obtain ⟨locks, havailable', hsearch⟩ := searchPools_finds idx havailable h.pool_lock hi hle
    (fun k hk hki => (hcount k (hki.trans hi)).mpr (hempty k hk hki))
    (fun hzero => hfree ((hcount i hi).mp hzero))
  -- the block is moved to its bucket
  obtain ⟨c₂, b, hremove⟩ := havailable'.removeBlockFromPool i
  have hlocked : Memcluster.Rep { c with clusterInUseFLAG := 1, poolLocks := locks } start stop
      blocks free bucket [] := h.of_eq rfl rfl rfl
  obtain ⟨l, hl, hrep⟩ := hlocked.removeBlockFromPool hi
    (fun hzero => hfree ((hcount i hi).mp hzero)) hremove
  have hmem : b ∈ blocks := by
    refine h.mem_blocks (inl_mem_indices hi) (show b ∈ free i from ?_)
    rw [hl]
    exact List.mem_cons_self
  have hreleased : (c₂.releasePoolLock caller (c₂.pools i).memoryPoolLock).Rep start stop
      blocks (Function.update free i l) (pushBucket bucket b) [] := hrep.of_eq rfl rfl rfl
  have hclear := hreleased.clearBlock hmem
  refine ⟨i, b, l, _, hi, hsize, hl, ?_, ?_, hclear⟩
  · intro k hk hks hkf
    by_contra hgt
    refine hkf (hempty k ?_ (by omega))
    by_contra hlow
    exact absurd hks (Nat.not_le.mpr (hbelow k (by omega)))
  · intro fuel hfuel
    have hrun := hsearch fuel (by omega)
    rw [← hclear.layout.headPtr_eq b hmem]
    unfold Memcluster.allocate
    rw [if_neg hne, hsel]
    simp only [hrun, hremove, Option.bind_eq_bind, Option.bind_some, Option.pure_def]

end Allocate

/-! ## Every reachable state -/

/-- What a call to `allocate` does to the lists `free` and `bucket`. -/
structure BestFit (memoryArray memorySize : Nat) (blocks : List Nat) (free bucket : Nat → List Nat)
    (s : System) : Prop where
  /-- A request for nothing, or for more than the largest pool has, is refused and
  changes nothing but the flag. -/
  refused : ∀ caller requiredSize,
    requiredSize = 0 ∨ (s.cluster.pools (NUMBER_OF_POOLS - 1)).blockSize < requiredSize →
    ∀ fuel, s.cluster.allocate fuel caller requiredSize =
      some ({ s.cluster with clusterInUseFLAG := 0 }, NULL)
  /-- Any other request, when a pool that fits has a free block and no other task
  holds a lock, returns the memory of the first free block of the smallest such
  pool. This block goes to its bucket, and all other lists stay as they are. -/
  served : ∀ caller requiredSize, s.cluster.LocksAvailable caller → requiredSize ≠ 0 →
    (∃ k < NUMBER_OF_POOLS, requiredSize ≤ (s.cluster.pools k).blockSize ∧ free k ≠ []) →
    ∃ i b l c', i < NUMBER_OF_POOLS ∧ requiredSize ≤ (s.cluster.pools i).blockSize ∧
      free i = b :: l ∧
      (∀ k < NUMBER_OF_POOLS, requiredSize ≤ (s.cluster.pools k).blockSize → free k ≠ [] →
        (s.cluster.pools i).blockSize ≤ (s.cluster.pools k).blockSize) ∧
      (∀ fuel, NUMBER_OF_POOLS ≤ fuel →
        s.cluster.allocate fuel caller requiredSize = some (c', s.cluster.headPtr b)) ∧
      Conserved memoryArray memorySize blocks (Function.update free i l) (pushBucket bucket b)
        { cluster := c', live := s.cluster.headPtr b :: s.live }

theorem Rep.bestFit {memoryArray memorySize stop : Nat} {blocks : List Nat}
    {free bucket : Nat → List Nat} {s : System}
    (h : s.cluster.Rep memoryArray stop blocks free bucket [])
    (hlive : (s.live : Multiset Nat) = (allocated bucket).map (· + 12))
    (hstop : stop ≤ memoryArray + 4 * memorySize) :
    BestFit memoryArray memorySize blocks free bucket s where
  refused caller requiredSize hmisfit fuel := by
    refine allocate_of_misfit (hmisfit.imp_right ?_) fuel
    intro hlarge i hi
    have hle := h.size_le hi (show NUMBER_OF_POOLS - 1 < NUMBER_OF_POOLS by decide) (by omega)
    omega
  served caller requiredSize hlocks hne hfit := by
    obtain ⟨i, b, l, c', hi, hsize, hl, hmin, hrun, hrep⟩ := h.allocate_bestFit hlocks hne hfit
    have hmem : b ∈ blocks := by
      refine h.mem_blocks (inl_mem_indices hi) (show b ∈ free i from ?_)
      rw [hl]
      exact List.mem_cons_self
    have hhead := h.layout.headPtr_eq b hmem
    refine ⟨i, b, l, c', hi, hsize, hl, fun k hk hks hkf => h.size_le hi hk (hmin k hk hks hkf),
      fun fuel hfuel => hhead ▸ hrun fuel hfuel, Rep.conserved hrep ?_ hstop⟩
    rw [hhead, allocated_pushBucket, Multiset.map_cons, ← hlive, Multiset.cons_coe]

/-- **`allocate` is best fit**, in every state reached by calls that return. -/
theorem allocate_best_fit {memoryArray memorySize : Nat} (hn : 1 ≤ memorySize)
    (hfit : memoryArray + 4 * memorySize ≤ 4294967296) (previous : Memcluster) {s : System}
    (h : (machine previous memoryArray memorySize).Reach s) :
    ∃ free bucket,
      Conserved memoryArray memorySize (carvedBlocks previous memoryArray memorySize) free bucket
        s ∧
      BestFit memoryArray memorySize (carvedBlocks previous memoryArray memorySize) free bucket
        s := by
  obtain ⟨stop, hstop, hacc⟩ := reach_accounted hn hfit previous
  obtain ⟨free, bucket, hrep, hlive⟩ := hacc s h
  exact ⟨free, bucket, hrep.conserved hlive hstop, hrep.bestFit hlive hstop⟩

/-- Best fit after `sampleCalls`. -/
theorem allocate_best_fit_sampleCalls :
    ∃ s, (machine staleCluster 4096 60).run (freshSystem staleCluster 4096 60) sampleCalls =
        some s ∧
      ∃ free bucket, Conserved 4096 60 (carvedBlocks staleCluster 4096 60) free bucket s ∧
        BestFit 4096 60 (carvedBlocks staleCluster 4096 60) free bucket s := by
  have hrun : ((machine staleCluster 4096 60).run (freshSystem staleCluster 4096 60)
      sampleCalls).isSome = true := by decide +kernel
  obtain ⟨s, hs⟩ := Option.isSome_iff_exists.mp hrun
  exact ⟨s, hs, allocate_best_fit (by decide) (by decide) staleCluster
    (Machine.Reach.run (.init rfl) hs)⟩

end DocetOS.Memcluster
