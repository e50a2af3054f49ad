import DocetOS.Lib.BestFit
import DocetOS.OS.TaskMemory

/-!
# Requests for memory

`allocate` searches on while no pool that fits has a free block, and so it need not
return. A list of requests that one task makes in turn, with nobody in between:

- `LeaseSystem.allocAll_isSome_iff`: the calls return exactly if for no size there are
  more requests for it or above than free blocks of it or above.
- `allocAll_optimal`: they return whenever the free blocks can be given to the requests in
  any way at all. Best fit wastes nothing.
-/

namespace DocetOS.Memcluster

open Lib

/-- The smallest pool whose blocks have so many words. -/
def sizeClass (words : Nat) : Option Nat :=
  if words = 0 then none
  else (List.range NUMBER_OF_POOLS).find? fun i => words ≤ 2 ^ (i + SMALLEST_BLOCK_SIZE)

/-- The free blocks of the pools. -/
def freeCounts (c : Memcluster) (i : Nat) : Nat := (c.pools i).freeBlocks

/-- The pools of size `k` and above are those that fit. -/
theorem sizeClass_le_iff {words k i : Nat} (h : sizeClass words = some k) :
    k ≤ i ↔ words ≤ 2 ^ (i + SMALLEST_BLOCK_SIZE) := by
  unfold sizeClass at h
  split at h
  · cases h
  · rw [List.find?_range_eq_some] at h
    obtain ⟨hfits, -, hbelow⟩ := h
    rw [decide_eq_true_eq] at hfits
    constructor
    · intro hle
      exact hfits.trans (Nat.pow_le_pow_right (by decide) (Nat.add_le_add_right hle _))
    · intro hwords
      by_contra hlt
      have hsmall := hbelow i (by omega)
      simp only [Bool.not_eq_true', decide_eq_false_iff_not] at hsmall
      exact hsmall hwords

section Locks

variable {c c' : Memcluster} {caller fuel idx initialIdx i b : Nat}

theorem LocksAvailable.searchPools (h : c.LocksAvailable caller)
    (hlocks : ∀ k < NUMBER_OF_POOLS, (c.pools k).memoryPoolLock = k)
    (hinit : initialIdx < NUMBER_OF_POOLS) (hidx : idx < NUMBER_OF_POOLS)
    (hs : searchPools caller initialIdx fuel idx c = some (c', i)) : c'.LocksAvailable caller := by
  induction fuel generalizing idx c with
  | zero => cases hs
  | succ fuel ih =>
    obtain ⟨locks, hacquire, havailable⟩ := h.acquirePoolLock hidx
    simp only [Memcluster.searchPools, hlocks idx hidx, hacquire, Option.bind_eq_bind,
      Option.bind_some] at hs
    split at hs
    · cases hs
      exact havailable
    · refine ih havailable hlocks ?_ hs
      unfold nextPool
      split
      · assumption
      · exact hinit

theorem LocksAvailable.of_removeBlockFromPool (h : c.LocksAvailable caller)
    (hs : c.removeBlockFromPool caller i = some (c', b)) : c'.LocksAvailable caller := by
  obtain ⟨lock, hlock, howner⟩ := Mutex.acquire_of_available h.hashtable
  have hsame : (c.detachFirstBlock i).1.hashtableLock = c.hashtableLock := rfl
  simp only [Memcluster.removeBlockFromPool, placeBlockIntoBucket, hsame, hlock,
    Option.bind_eq_bind, Option.bind_some, Option.pure_def, Option.some.injEq,
    Prod.mk.injEq] at hs
  obtain ⟨rfl, -⟩ := hs
  exact ⟨h.pool, Mutex.release_available (.inr howner)⟩

/-- `allocate` takes no lock that another task could need, other than for the caller. -/
theorem LocksAvailable.allocate (h : c.LocksAvailable caller)
    (hlocks : ∀ k < NUMBER_OF_POOLS, (c.pools k).memoryPoolLock = k) {words p : Nat}
    (hs : c.allocate fuel caller words = some (c', p)) : c'.LocksAvailable caller := by
  unfold Memcluster.allocate at hs
  split at hs
  · cases hs
    exact ⟨h.pool, h.hashtable⟩
  · split at hs
    · cases hs
      exact ⟨h.pool, h.hashtable⟩
    · rename_i idx hsel
      simp only [Option.bind_eq_bind, Option.bind_eq_some_iff, Option.pure_def, Option.some.injEq,
        Prod.mk.injEq] at hs
      obtain ⟨⟨c₁, i⟩, hsearch, ⟨c₂, b⟩, hremove, rfl, -⟩ := hs
      have hflag : LocksAvailable { c with clusterInUseFLAG := 1 } caller := ⟨h.pool, h.hashtable⟩
      have hidx := selectPool_lt hsel
      have hfound := hflag.searchPools hlocks hidx hidx hsearch
      have hreleased := (hfound.of_removeBlockFromPool hremove).releasePoolLock
        (c₂.pools i).memoryPoolLock
      exact ⟨hreleased.pool, hreleased.hashtable⟩

end Locks

/-! ## One request -/

section Allocate

variable {c c' : Memcluster} {start stop : Nat} {blocks : List Nat} {free bucket : Nat → List Nat}
  {caller fuel words p k : Nat}

theorem Rep.selectPool_eq (h : c.Rep start stop blocks free bucket []) (hne : words ≠ 0) :
    c.selectPool words = sizeClass words := by
  unfold selectPool sizeClass
  rw [if_neg hne]
  refine List.find?_congr ?_
  intro i hi
  rw [h.pool_size i (List.mem_range.mp hi)]

/-- A request for nothing or for too much returns at once. -/
theorem Rep.allocate_of_none (h : c.Rep start stop blocks free bucket [])
    (hclass : sizeClass words = none) :
    c.allocate fuel caller words = some ({ c with clusterInUseFLAG := 0 }, NULL) := by
  unfold Memcluster.allocate
  split
  · rfl
  · rename_i hne
    rw [h.selectPool_eq hne, hclass]

/-- A request that a pool can serve takes a block of the smallest such pool. -/
theorem Rep.allocate_of_serves (h : c.Rep start stop blocks free bucket [])
    (hlocks : c.LocksAvailable caller) (hclass : sizeClass words = some k)
    (hserves : ∃ i, BestFit.Serves NUMBER_OF_POOLS c.freeCounts k i) :
    ∃ i b c', BestFit.Serves NUMBER_OF_POOLS c.freeCounts k i ∧
      (∀ j, k ≤ j → j < i → c.freeCounts j = 0) ∧
      (∀ fuel, NUMBER_OF_POOLS ≤ fuel → c.allocate fuel caller words = some (c', b + 12)) ∧
      ∀ j < NUMBER_OF_POOLS, c'.freeCounts j = BestFit.take c.freeCounts i j := by
  have hcount : ∀ j < NUMBER_OF_POOLS, c.freeCounts j = (free j).length := h.free_length
  have hfits : ∀ j < NUMBER_OF_POOLS, k ≤ j ↔ words ≤ (c.pools j).blockSize := by
    intro j hj
    rw [h.pool_size j hj]
    exact sizeClass_le_iff hclass
  have hne : words ≠ 0 := by
    rintro rfl
    cases hclass
  -- the search begins at pool `k` and stops at the first pool that has a block
  obtain ⟨i₀, hserves₀⟩ := hserves
  obtain ⟨i, b, l, c', hi, hsize, hl, hmin, hrun, hrep⟩ := h.allocate_bestFit hlocks hne
    ⟨i₀, hserves₀.lt, (hfits i₀ hserves₀.lt).mp hserves₀.le, by
      have hpos := hserves₀.pos
      rw [hcount i₀ hserves₀.lt] at hpos
      exact List.ne_nil_of_length_pos hpos⟩
  refine ⟨i, b, c', ⟨(hfits i hi).mpr hsize, hi, ?_⟩, ?_, hrun, ?_⟩
  · rw [hcount i hi, hl]
    exact Nat.succ_pos _
  · intro j hkj hji
    have hj := hji.trans hi
    rw [hcount j hj, List.length_eq_zero_iff]
    by_contra hne
    exact absurd (hmin j hj ((hfits j hj).mp hkj) hne) (Nat.not_le.mpr hji)
  · intro j hj
    show (c'.pools j).freeBlocks = _
    rw [hrep.free_length j hj]
    by_cases hji : j = i
    · subst hji
      rw [BestFit.take, Function.update_self, Function.update_self, hcount j hj, hl]
      rfl
    · rw [BestFit.take, Function.update_of_ne hji, Function.update_of_ne hji, hcount j hj]

/-- While no pool can serve the request, the search does not end. -/
theorem Rep.allocate_of_not_serves (h : c.Rep start stop blocks free bucket [])
    (hclass : sizeClass words = some k)
    (hnone : ¬ ∃ i, BestFit.Serves NUMBER_OF_POOLS c.freeCounts k i) :
    c.allocate fuel caller words = none := by
  have hne : words ≠ 0 := by
    rintro rfl
    cases hclass
  have hsel := (h.selectPool_eq hne).trans hclass
  unfold Memcluster.allocate
  rw [if_neg hne, hsel]
  dsimp only
  rw [Option.bind_eq_bind, Option.bind_eq_none_iff]
  rintro ⟨c₁, i⟩ hsearch
  obtain ⟨hi, hfree, locks, rfl⟩ := searchPools_eq (selectPool_lt hsel) (selectPool_lt hsel) hsearch
  exact absurd ⟨i, searchPools_le le_rfl hsearch, hi, Nat.pos_of_ne_zero hfree⟩ hnone

/-- A search that ends is not changed by more rounds. -/
theorem searchPools_mono {initialIdx idx more : Nat} {r : Memcluster × Nat}
    (hs : searchPools caller initialIdx fuel idx c = some r) :
    searchPools caller initialIdx (fuel + more) idx c = some r := by
  induction fuel generalizing idx c with
  | zero => cases hs
  | succ fuel ih =>
    rw [Nat.add_right_comm]
    simp only [searchPools, Option.bind_eq_bind, Option.bind_eq_some_iff] at hs ⊢
    obtain ⟨c₁, hlock, hs⟩ := hs
    refine ⟨c₁, hlock, ?_⟩
    split at hs
    · rename_i hfree
      rwa [if_pos hfree]
    · rename_i hempty
      rw [if_neg hempty]
      exact ih hs

theorem allocate_mono {more : Nat} {r : Memcluster × Nat}
    (hs : c.allocate fuel caller words = some r) :
    c.allocate (fuel + more) caller words = some r := by
  unfold Memcluster.allocate at hs ⊢
  split at hs
  · rename_i hzero
    rwa [if_pos hzero]
  · rename_i hne
    rw [if_neg hne]
    split at hs
    · exact hs
    · simp only [Option.bind_eq_bind, Option.bind_eq_some_iff] at hs ⊢
      obtain ⟨r₁, hsearch, hs⟩ := hs
      exact ⟨r₁, searchPools_mono hsearch, hs⟩

end Allocate

/-! ## Requests in turn -/

/-- The call frees what is at the pointer. -/
def Access.Frees (p : Nat) : Access → Prop
  | .deallocate _ _ memblockHeadPtr => memblockHeadPtr = p
  | _ => False

namespace LeaseSystem

/-- `OS_alloc` of one size after the other, by the task `caller`: the pointers. -/
def allocAll (fuel caller : Nat) : List Nat → LeaseSystem → Option (LeaseSystem × List Nat)
  | [], s => some (s, [])
  | words :: requests, s => do
    let (s, p) ← s.alloc fuel caller words
    let (s, ps) ← allocAll fuel caller requests s
    return (s, p :: ps)

variable {c₀ : Memcluster} {start stop : Nat} {blocks : List Nat} {s s' : LeaseSystem}
  {caller fuel words p : Nat}

theorem allocAll_mono {requests : List Nat} {more : Nat} {r : LeaseSystem × List Nat}
    (hs : s.allocAll fuel caller requests = some r) :
    s.allocAll (fuel + more) caller requests = some r := by
  induction requests generalizing s r with
  | nil => exact hs
  | cons words requests ih =>
    simp only [allocAll, Option.bind_eq_bind, Option.bind_eq_some_iff] at hs ⊢
    obtain ⟨⟨s₁, p⟩, halloc, ⟨s₂, ps⟩, hrest, hr⟩ := hs
    obtain ⟨r', hcall, heq⟩ := Option.map_eq_some_iff.mp halloc
    exact ⟨_, Option.map_eq_some_iff.mpr ⟨r', allocate_mono hcall, heq⟩, _, ih hrest, hr⟩

theorem allocAll_cons_isSome {requests : List Nat} :
    (allocAll fuel caller (words :: requests) s).isSome = true ↔
      ∃ s' p, s.alloc fuel caller words = some (s', p) ∧
        (allocAll fuel caller requests s').isSome = true := by
  simp only [allocAll, Option.isSome_iff_exists, Option.bind_eq_bind, Option.bind_eq_some_iff,
    Option.pure_def, Option.some.injEq]
  constructor
  · rintro ⟨_, ⟨s', p⟩, halloc, r, hrest, -⟩
    exact ⟨s', p, halloc, r, hrest⟩
  · rintro ⟨s', p, halloc, r, hrest⟩
    exact ⟨_, (s', p), halloc, r, hrest, rfl⟩

theorem alloc_locks (h : Carved c₀ start stop blocks s) (hlocks : s.cluster.LocksAvailable caller)
    (hs : s.alloc fuel caller words = some (s', p)) : s'.cluster.LocksAvailable caller := by
  obtain ⟨_, _, hleased⟩ := h.leased
  obtain ⟨⟨c', q⟩, hcall, heq⟩ := Option.map_eq_some_iff.mp hs
  obtain ⟨rfl, -⟩ := Prod.mk.inj heq
  exact hlocks.allocate hleased.rep.pool_lock hcall

theorem allocAll_append (requests requests' : List Nat) :
    s.allocAll fuel caller (requests ++ requests') = (s.allocAll fuel caller requests).bind
      fun r => (r.1.allocAll fuel caller requests').map fun r' => (r'.1, r.2 ++ r'.2) := by
  induction requests generalizing s with
  | nil => simp [allocAll]
  | cons words requests ih =>
    simp only [List.cons_append, allocAll, ih, Option.bind_eq_bind, Option.bind_assoc,
      Option.pure_def, Option.bind_some, Option.map_eq_bind]
    rfl

/-- What every step keeps, the requests keep. -/
theorem allocAll_carved (h : Carved c₀ start stop blocks s) {requests ps : List Nat}
    (hs : s.allocAll fuel caller requests = some (s', ps)) : Carved c₀ start stop blocks s' := by
  induction requests generalizing s ps with
  | nil =>
    cases hs
    exact h
  | cons words requests ih =>
    simp only [allocAll, Option.bind_eq_bind, Option.bind_eq_some_iff, Option.pure_def,
      Option.some.injEq, Prod.mk.injEq] at hs
    obtain ⟨⟨s₁, p⟩, halloc, ⟨s₂, qs⟩, hrest, rfl, rfl⟩ := hs
    exact ih (h.step (alloc_step halloc)) hrest

theorem mem_live_step {access : Access} (hs : s.step access = some s')
    (hfree : ¬ access.Frees p) (hp : p ∈ s.toSystem.live) : p ∈ s'.toSystem.live := by
  cases access with
  | allocate fuel caller words =>
    obtain ⟨⟨c', q⟩, -, rfl⟩ := Option.map_eq_some_iff.mp hs
    dsimp only [toSystem]
    split
    · exact hp
    · exact List.mem_cons_of_mem q hp
  | deallocate fuel caller q =>
    rw [deallocate_live hs]
    exact (List.mem_erase_of_ne (Ne.symm hfree)).mpr hp
  | write q index value =>
    obtain ⟨-, rfl⟩ := step_write hs
    exact hp

/-- A run keeps what every step keeps, and what it does not free stays handed out. -/
theorem run_keeps {previous : Memcluster} {memory memorySize : Nat} {accesses : List Access}
    (h : Carved c₀ start stop blocks s)
    (hrun : (leaseMachine previous memory memorySize).run s accesses = some s') :
    Carved c₀ start stop blocks s' ∧ ∀ p ∈ s.toSystem.live,
      (∀ access ∈ accesses, ¬ access.Frees p) → p ∈ s'.toSystem.live := by
  induction accesses generalizing s with
  | nil =>
    obtain rfl := Option.some.inj hrun
    exact ⟨h, fun _ hp _ => hp⟩
  | cons access accesses ih =>
    obtain ⟨s₁, hstep, hrun⟩ := Option.bind_eq_some_iff.mp hrun
    obtain ⟨hcarved, hlive⟩ := ih (h.step hstep) hrun
    refine ⟨hcarved, ?_⟩
    intro p hp hfree
    obtain ⟨hfirst, hrest⟩ := List.forall_mem_cons.mp hfree
    exact hlive p (mem_live_step hstep hfirst hp) hrest

/-- When all of them are served, there is a lease for each. -/
theorem allocAll_leases {requests ps : List Nat}
    (hs : s.allocAll fuel caller requests = some (s', ps)) (hnull : NULL ∉ ps) :
    ps.length = requests.length ∧
      s'.leases = (List.zipWith Lease.mk ps requests).reverse ++ s.leases := by
  induction requests generalizing s ps with
  | nil =>
    cases hs
    exact ⟨rfl, rfl⟩
  | cons words requests ih =>
    simp only [allocAll, Option.bind_eq_bind, Option.bind_eq_some_iff, Option.pure_def,
      Option.some.injEq, Prod.mk.injEq] at hs
    obtain ⟨⟨s₁, p⟩, halloc, ⟨s₂, qs⟩, hrest, rfl, rfl⟩ := hs
    rw [List.mem_cons, not_or] at hnull
    obtain ⟨hlength, hleases⟩ := ih hrest hnull.2
    refine ⟨congrArg (· + 1) hlength, ?_⟩
    rw [hleases, alloc_leases halloc, if_neg (Ne.symm hnull.1), List.zipWith_cons_cons,
      List.reverse_cons, List.append_assoc]
    rfl

theorem allocAll_live {requests ps : List Nat}
    (hs : s.allocAll fuel caller requests = some (s', ps)) (hnull : NULL ∉ ps) :
    s'.toSystem.live = ps.reverse ++ s.toSystem.live := by
  obtain ⟨hlength, hleases⟩ := allocAll_leases hs hnull
  have hpointers : (List.zipWith Lease.mk ps requests).map Lease.pointer = ps := by
    rw [← List.map_uncurry_zip_eq_zipWith, List.map_map]
    exact List.map_fst_zip (Nat.le_of_eq hlength)
  simp only [toSystem, hleases, List.map_append, List.map_reverse, hpointers]

/-- A request of a size that there is does not return `NULL`. -/
theorem alloc_ne_null (h : Carved c₀ start stop blocks s)
    (hlocks : s.cluster.LocksAvailable caller)
    (hclass : (sizeClass words).isSome = true)
    (hs : s.alloc fuel caller words = some (s', p)) : p ≠ NULL := by
  obtain ⟨_, _, hleased⟩ := h.leased
  obtain ⟨k, hk⟩ := Option.isSome_iff_exists.mp hclass
  obtain ⟨⟨c', q⟩, hcall, heq⟩ := Option.map_eq_some_iff.mp hs
  obtain ⟨-, rfl⟩ := Prod.mk.inj heq
  by_cases hserves : ∃ i, BestFit.Serves NUMBER_OF_POOLS s.cluster.freeCounts k i
  · obtain ⟨i, b, c'', -, -, hcall', -⟩ := hleased.rep.allocate_of_serves hlocks hk hserves
    have hmore : s.cluster.allocate (fuel + NUMBER_OF_POOLS) caller words = some (c', q) :=
      allocate_mono hcall
    rw [hcall' _ (Nat.le_add_left _ _)] at hmore
    cases hmore
    exact Nat.succ_ne_zero _
  · rw [hleased.rep.allocate_of_not_serves hk hserves] at hcall
    cases hcall

/-- **The requests are served** exactly if they fit in the free blocks. -/
theorem allocAll_isSome_iff (h : Carved c₀ start stop blocks s)
    (hlocks : s.cluster.LocksAvailable caller) (hfuel : NUMBER_OF_POOLS ≤ fuel)
    (requests : List Nat) :
    (allocAll fuel caller requests s).isSome = true ↔
      BestFit.Fits NUMBER_OF_POOLS s.cluster.freeCounts (requests.filterMap sizeClass) := by
  induction requests generalizing s with
  | nil => exact iff_of_true rfl fun _ => Nat.zero_le _
  | cons words requests ih =>
    obtain ⟨_, _, hleased⟩ := h.leased
    have hrep := hleased.rep
    -- the call returns this and nothing else
    have hnext : ∀ {c' p}, s.cluster.allocate fuel caller words = some (c', p) →
        ((allocAll fuel caller (words :: requests) s).isSome = true ↔
          BestFit.Fits NUMBER_OF_POOLS c'.freeCounts (requests.filterMap sizeClass)) := by
      intro c' p hcall
      have halloc : s.alloc fuel caller words = some
          ({ cluster := c', leases := if p = NULL then s.leases else ⟨p, words⟩ :: s.leases }, p) :=
        Option.map_eq_some_iff.mpr ⟨(c', p), hcall, rfl⟩
      rw [← ih (h.step (alloc_step halloc)) (alloc_locks h hlocks halloc), allocAll_cons_isSome]
      constructor
      · rintro ⟨s', q, halloc', hrest⟩
        rw [halloc] at halloc'
        cases halloc'
        exact hrest
      · exact fun hrest => ⟨_, _, halloc, hrest⟩
    cases hclass : sizeClass words with
    | none =>
      rw [List.filterMap_cons_none hclass, hnext (hrep.allocate_of_none hclass)]
      rfl
    | some k =>
      rw [List.filterMap_cons_some hclass]
      by_cases hserves : ∃ i, BestFit.Serves NUMBER_OF_POOLS s.cluster.freeCounts k i
      · obtain ⟨i, b, c', hserve, hbest, hcall, hcounts⟩ :=
          hrep.allocate_of_serves hlocks hclass hserves
        rw [hnext (hcall fuel hfuel), BestFit.fits_congr hcounts,
          BestFit.fits_cons_iff hserve hbest]
      · refine iff_of_false ?_ fun hfits => hserves hfits.exists_serves
        rw [allocAll_cons_isSome]
        rintro ⟨s', p, halloc, -⟩
        obtain ⟨_, hcall, -⟩ := Option.map_eq_some_iff.mp halloc
        rw [hrep.allocate_of_not_serves hclass hserves] at hcall
        cases hcall

end LeaseSystem

/-! ## The result -/

/-- **Nothing better than best fit**: after any calls and writes, a task that makes its
requests in turn has them all answered whenever the free blocks can be given to them in
some way. -/
theorem allocAll_optimal {memoryArray memorySize caller fuel : Nat} (hn : 1 ≤ memorySize)
    (hfit : memoryArray + 4 * memorySize ≤ 4294967296) (previous : Memcluster) {s : LeaseSystem}
    (h : (leaseMachine previous memoryArray memorySize).Reach s)
    (hlocks : s.cluster.LocksAvailable caller) (hfuel : NUMBER_OF_POOLS ≤ fuel)
    (requests : List Nat) :
    (s.allocAll fuel caller requests).isSome = true ↔
      BestFit.Servable NUMBER_OF_POOLS s.cluster.freeCounts (requests.filterMap sizeClass) := by
  obtain ⟨stop, -, hreach⟩ := reach_leased hn hfit previous
  obtain ⟨free, bucket, hleased⟩ := hreach s h
  have hcarved : Carved s.cluster memoryArray stop (carvedBlocks previous memoryArray memorySize)
      s := ⟨⟨free, bucket, hleased⟩, fun _ _ => rfl⟩
  rw [LeaseSystem.allocAll_isSome_iff hcarved hlocks hfuel, BestFit.servable_iff_fits]

/-- Of 60 words, 16 and 32 make two blocks. A request for 10 words takes the smaller one. -/
theorem allocAll_optimal_twoRequests :
    ((freshLeases staleCluster 4096 60).allocAll 5 80 [10, 20]).isSome = true ↔
      BestFit.Servable NUMBER_OF_POOLS (freshLeases staleCluster 4096 60).cluster.freeCounts
        ([10, 20].filterMap sizeClass) :=
  allocAll_optimal (by decide) (by decide) staleCluster (.init rfl)
    ⟨by decide +kernel, by decide +kernel⟩ (by decide) [10, 20]

end DocetOS.Memcluster
