import DocetOS.OS.FreedLives
import DocetOS.OS.MemclusterBestFit
import DocetOS.OS.MemclusterPrivacy
import DocetOS.OS.MemclusterSpacing
import DocetOS.OS.Processor

/-!
# The memory of a task

A task is made of two blocks of the memory cluster, its TCB and its stack. When it
has ended, the scheduler passes two pointers to `OS_free`: the TCB, and what
`OS_initialiseTCB` has computed from the end of the stack.

- `Carved.freeBlocks_add`: the free blocks of a pool are those of its size that no
  pointer handed out is on.
- `freeAll_returns`, `freeLocks_of_freeAll`: `OS_free` of what is handed out returns when
  no other task owns a lock that it takes, and only then.
- `Kernel`: the scheduler and the memory cluster together.
- `life_returns_memory_iff`: the memory comes back when the stack has 64 words and the
  locks can be had, and only then.
-/

namespace DocetOS

open Lib

namespace Memcluster

/-! ## Counting the blocks -/

/-- The block has the size of pool `i`. -/
def InPool (c : Memcluster) (i b : Nat) : Prop := c.blockSize b = 2 ^ (i + SMALLEST_BLOCK_SIZE)

instance (c : Memcluster) (i : Nat) : DecidablePred (c.InPool i) := fun b =>
  inferInstanceAs (Decidable (c.blockSize b = 2 ^ (i + SMALLEST_BLOCK_SIZE)))

/-- Every pool has as many free blocks as before. -/
def SameFreeBlocks (c c' : Memcluster) : Prop :=
  ∀ i < NUMBER_OF_POOLS, (c'.pools i).freeBlocks = (c.pools i).freeBlocks

instance (c c' : Memcluster) : Decidable (c.SameFreeBlocks c') :=
  inferInstanceAs (Decidable (∀ i < NUMBER_OF_POOLS, _))

section Count

variable {c c₀ : Memcluster} {start stop : Nat} {blocks : List Nat} {free bucket : Nat → List Nat}
  {i b : Nat}

/-- The blocks of the size of a pool are free in it or allocated. -/
theorem Rep.freeBlocks_add (h : c.Rep start stop blocks free bucket []) (hi : i < NUMBER_OF_POOLS) :
    (c.pools i).freeBlocks + (allocated bucket).countP (c.InPool i) =
      (blocks : Multiset Nat).countP (c.InPool i) := by
  have hpool : ∀ j < NUMBER_OF_POOLS, ∀ b ∈ free j, c.InPool i b ↔ j = i := by
    intro j hj b hb
    unfold InPool
    rw [h.sized j hj b hb, h.pool_size j hj]
    constructor
    · intro heq
      exact Nat.add_right_cancel (Nat.pow_right_injective (Nat.le_refl 2) heq)
    · rintro rfl
      rfl
  have hfree : (∑ j ∈ Finset.range NUMBER_OF_POOLS, (free j : Multiset Nat)).countP (c.InPool i) =
      (c.pools i).freeBlocks := by
    rw [← Multiset.coe_countPAddMonoidHom, map_sum]
    simp only [Multiset.coe_countPAddMonoidHom]
    rw [Finset.sum_eq_single i]
    · rw [h.free_length i hi, ← Multiset.coe_card, Multiset.countP_eq_card]
      exact fun b hb => (hpool i hi b hb).mpr rfl
    · intro j hj hji
      rw [Multiset.countP_eq_zero]
      exact fun b hb hin => hji ((hpool j (Finset.mem_range.mp hj) b hb).mp hin)
    · exact fun hnot => absurd (Finset.mem_range.mpr hi) hnot
  rw [← h.cells, Multiset.coe_nil, zero_add, Finset.sum_disjSum, Multiset.countP_add]
  exact congrArg (· + _) hfree.symm

/-- The leases are on the blocks, which have the sizes they have in `c₀`. -/
structure Carved (c₀ : Memcluster) (start stop : Nat) (blocks : List Nat) (s : LeaseSystem) :
    Prop where
  leased : ∃ free bucket, Leased start stop blocks free bucket s
  sizes : ∀ b ∈ blocks, s.cluster.blockSize b = c₀.blockSize b

variable {s s' : LeaseSystem}

theorem Carved.step (h : Carved c₀ start stop blocks s) {access : Access}
    (hs : s.step access = some s') : Carved c₀ start stop blocks s' := by
  obtain ⟨free, bucket, hleased⟩ := h.leased
  refine ⟨hleased.step hs, ?_⟩
  intro b hb
  rw [hleased.blockSize_step hs hb, h.sizes b hb]

/-- The blocks of the size of a pool are free in it or handed out. -/
theorem Carved.freeBlocks_add (h : Carved c₀ start stop blocks s) (hi : i < NUMBER_OF_POOLS) :
    (s.cluster.pools i).freeBlocks +
        (s.toSystem.live : Multiset Nat).countP (fun p => c₀.InPool i (p - 12)) =
      (blocks : Multiset Nat).countP (c₀.InPool i) := by
  obtain ⟨free, bucket, hleased⟩ := h.leased
  have hcount := hleased.rep.freeBlocks_add hi
  have hsame : ∀ m : Multiset Nat, (∀ b ∈ m, b ∈ blocks) →
      m.countP (s.cluster.InPool i) = m.countP (c₀.InPool i) := by
    intro m hm
    refine Multiset.countP_congr rfl ?_
    intro b hb
    unfold InPool
    rw [h.sizes b (hm b hb)]
  rw [hsame _ fun b => allocated_mem_blocks hleased.rep, hsame _ fun b => id] at hcount
  rw [← hcount, hleased.live, Multiset.countP_map, Multiset.countP_eq_card_filter]
  rfl

/-- Two states have the same free blocks if as many blocks of each size are handed
out. -/
theorem Carved.sameFreeBlocks_iff (h : Carved c₀ start stop blocks s)
    (h' : Carved c₀ start stop blocks s') :
    s.cluster.SameFreeBlocks s'.cluster ↔ ∀ i < NUMBER_OF_POOLS,
      (s'.toSystem.live : Multiset Nat).countP (fun p => c₀.InPool i (p - 12)) =
        (s.toSystem.live : Multiset Nat).countP (fun p => c₀.InPool i (p - 12)) := by
  refine forall₂_congr ?_
  intro i hi
  have hbefore := h.freeBlocks_add hi
  have hafter := h'.freeBlocks_add hi
  omega

/-- Words of a lease are written. -/
theorem Carved.write (h : Carved c₀ start stop blocks s) {p index : Nat}
    (hg : s.Grants p index) (value : Nat) :
    Carved c₀ start stop blocks { s with cluster := s.cluster.write (p + 4 * index) value } := by
  have hs : s.step (.write p index value) =
      some { s with cluster := s.cluster.write (p + 4 * index) value } := if_pos hg
  exact h.step hs

theorem Carved.storeWords (h : Carved c₀ start stop blocks s) {p index : Nat} {ws : List Nat}
    (hg : ∀ i < ws.length, s.Grants p (index + i)) :
    Carved c₀ start stop blocks { s with
      cluster := { s.cluster with
        memory := Lib.storeWords s.cluster.memory (p + 4 * index) ws } } := by
  induction ws generalizing s index with
  | nil => exact h
  | cons w ws ih =>
    have hrest : ∀ i < ws.length, s.Grants p (index + 1 + i) := by
      intro i hi
      rw [Nat.add_right_comm]
      exact hg (i + 1) (Nat.succ_lt_succ hi)
    exact ih (h.write (hg 0 (Nat.succ_pos _)) w) hrest

theorem Carved.mem_blocks (h : Carved c₀ start stop blocks s) {p : Nat}
    (hp : p ∈ s.toSystem.live) : ∃ b ∈ blocks, p = b + 12 := by
  obtain ⟨_, _, hleased⟩ := h.leased
  obtain ⟨lease, hl, rfl⟩ := List.mem_map.mp hp
  obtain ⟨b, hb, hp, -⟩ := hleased.fits lease hl
  exact ⟨b, hb, hp⟩

theorem Carved.ne_null (h : Carved c₀ start stop blocks s) {p index : Nat}
    (hg : s.Grants p index) : p ≠ NULL := by
  obtain ⟨_, _, hleased⟩ := h.leased
  obtain ⟨b, -, rfl, -⟩ := hleased.granted hg
  exact Nat.succ_ne_zero _

theorem Carved.live_nodup (h : Carved c₀ start stop blocks s) : s.toSystem.live.Nodup := by
  obtain ⟨_, _, hleased⟩ := h.leased
  have hfits : stop ≤ start + 4 * stop := by omega
  exact (hleased.conserved hfits).live_nodup

/-! ## Freeing two pointers -/

/-- A pointer that is not that of the stack leaves the stack where it is. -/
theorem erase_pair {live others : Multiset Nat} {stack tcb q : Nat} (hnodup : live.Nodup)
    (hlive : live = stack ::ₘ tcb ::ₘ others) (hne : q ≠ stack) :
    (live.erase q).erase tcb = stack ::ₘ others.erase q := by
  subst hlive
  have htcb : stack ≠ tcb := by
    rintro rfl
    exact (Multiset.nodup_cons.mp hnodup).1 (Multiset.mem_cons_self stack others)
  rw [Multiset.erase_cons_tail _ hne.symm, Multiset.erase_cons_tail _ htcb,
    Multiset.erase_comm, Multiset.erase_cons_head]

theorem countP_erase_of_not {P : Nat → Prop} [DecidablePred P] {live : Multiset Nat} {q : Nat}
    (h : q ∈ live → ¬ P q) : (live.erase q).countP P = live.countP P := by
  by_cases hq : q ∈ live
  · nth_rewrite 2 [← Multiset.cons_erase hq]
    rw [Multiset.countP_cons_of_neg _ (h hq)]
  · rw [Multiset.erase_of_notMem hq]

/-- The pointer 64 words below the end of a stack of `n` words is the stack's own when
`n` is 64. -/
theorem below_end_eq_iff {stack n : Nat} (hstack : stack < 4294967296) (hn : n ≤ 256) :
    wrap (stack + 4 * n + (4294967296 - 4 * 64)) = stack ↔ n = 64 := by
  unfold wrap
  omega

/-- **Two frees**: a TCB and a stack of `n` words are handed out. When the TCB is freed
and the pointer 64 words below the end of the stack, the pools have their free blocks
back if `n` is 64, and only then. -/
theorem Carved.sameFreeBlocks_iff_words {s'' : LeaseSystem} {stack tcb n : Nat}
    (h : Carved c₀ start stop blocks s) (h' : Carved c₀ start stop blocks s')
    (h'' : Carved c₀ start stop blocks s'') (hlayout : c₀.Layout start stop blocks)
    (hstop : stop ≤ 4294967296) (hspaced : blocks.Pairwise c₀.Spaced)
    (hlive : (s'.toSystem.live : Multiset Nat) = stack ::ₘ tcb ::ₘ (s.toSystem.live : Multiset Nat))
    (hfreed : s''.toSystem.live =
      (s'.toSystem.live.erase (wrap (stack + 4 * n + (4294967296 - 4 * 64)))).erase tcb)
    (hframe : 16 ≤ n) (hn : n ≤ c₀.blockSize (stack - 12)) :
    s.cluster.SameFreeBlocks s''.cluster ↔ n = 64 := by
  have hnodup : (s'.toSystem.live : Multiset Nat).Nodup := h'.live_nodup
  have hin : stack ∈ s'.toSystem.live := by
    rw [← Multiset.mem_coe, hlive]
    exact Multiset.mem_cons_self _ _
  obtain ⟨b, hb, rfl⟩ := h'.mem_blocks hin
  rw [Nat.add_sub_cancel] at hn
  obtain ⟨i, hi, hpool⟩ := hlayout.blockSize_eq b hb
  have hend := (hlayout.inside b hb).2
  unfold blockEnd at hend
  have hsize : c₀.blockSize b ≤ 256 := by
    rw [hpool]
    have hlargest : i ≤ 4 := Nat.le_of_lt_succ hi
    exact Nat.pow_le_pow_right (by decide) (Nat.add_le_add_right hlargest SMALLEST_BLOCK_SIZE)
  have hown : wrap (b + 12 + 4 * n + (4294967296 - 4 * 64)) = b + 12 ↔ n = 64 :=
    below_end_eq_iff (by omega) (by omega)
  rw [h.sameFreeBlocks_iff h'']
  have hafter : (s''.toSystem.live : Multiset Nat) =
      ((s'.toSystem.live : Multiset Nat).erase
        (wrap (b + 12 + 4 * n + (4294967296 - 4 * 64)))).erase tcb := by
    rw [hfreed, Multiset.coe_erase, Multiset.coe_erase]
  constructor
  · intro hsame
    by_contra hne
    have hother := (not_congr hown).mpr hne
    -- a live pointer that is freed in its place is not that of a block of the same size
    have hcount := hsame i hi
    rw [hafter, erase_pair hnodup hlive hother, Multiset.countP_cons_of_pos,
      countP_erase_of_not] at hcount
    · omega
    · intro hq hpoolq
      have hlive' : wrap (b + 12 + 4 * n + (4294967296 - 4 * 64)) ∈ s'.toSystem.live := by
        rw [← Multiset.mem_coe, hlive]
        exact Multiset.mem_cons_of_mem (Multiset.mem_cons_of_mem hq)
      obtain ⟨b', hb', heq⟩ := h'.mem_blocks hlive'
      have hbb : b ≠ b' := by
        rintro rfl
        exact hother heq
      have hsizes : c₀.blockSize b = c₀.blockSize b' := by
        have hpool' : c₀.blockSize (b' + 12 - 12) = _ := heq ▸ hpoolq
        rw [hpool, ← hpool', Nat.add_sub_cancel]
      exact shifted_ne hlayout hstop hspaced hb hb' hbb hsizes hframe hn heq
    · show c₀.blockSize (b + 12 - 12) = _
      rw [Nat.add_sub_cancel, hpool]
  · intro h64 i hi
    rw [hafter, hown.mpr h64, hlive, Multiset.erase_cons_head, Multiset.erase_cons_head]

end Count

/-! ## When `OS_free` returns -/

/-- No task but `caller` owns a lock that `OS_free` of `p` takes: that of the hashtable, and
that of the pool of the block. -/
structure FreeLocks (c : Memcluster) (caller p : Nat) : Prop where
  hashtable : c.hashtableLock.Available caller
  pool : ∀ i < NUMBER_OF_POOLS, c.InPool i (p - 12) → (c.poolLocks i).Available caller

section Returns

variable {c c' : Memcluster} {start stop : Nat} {blocks : List Nat} {free bucket : Nat → List Nat}
  {fuel caller p : Nat}

/-- The search comes to the end of its chain. -/
theorem findBlock_returns {l : List Nat} {prev blockPtr : Nat}
    (hl : Chain c.next (toPtr blockPtr) l) (hfuel : l.length < fuel) :
    ∃ r, c.findBlock p fuel prev blockPtr = some r := by
  induction fuel generalizing prev blockPtr l with
  | zero => exact absurd hfuel (Nat.not_lt_zero _)
  | succ fuel ih =>
    unfold findBlock
    by_cases hnull : blockPtr = NULL
    · exact ⟨none, if_pos hnull⟩
    rw [if_neg hnull]
    by_cases hp : c.headPtr blockPtr ≠ p
    · rw [if_pos hp]
      rw [toPtr_of_ne hnull] at hl
      cases hl with
      | cons hrest => exact ih hrest (Nat.lt_of_succ_lt_succ hfuel)
    · exact ⟨_, if_neg hp⟩

theorem Rep.bucket_length (h : c.Rep start stop blocks free bucket []) {j : Nat}
    (hj : j < MEMPOOL_HASH_TABLE_BUCKET_NUM) : (bucket j).length ≤ blocks.length := by
  have hle : (bucket j : Multiset Nat) ≤ blocks := by
    rw [← h.cells, Multiset.coe_nil, zero_add]
    exact Finset.single_le_sum (f := fun k => (lists free bucket k : Multiset Nat))
      (fun k _ => Multiset.zero_le _) (inr_mem_indices hj)
  exact Multiset.card_le_card hle

/-- `__recoverBlockFromBucket` returns when it gets its lock. -/
theorem Rep.recoverBlockFromBucket_returns (h : c.Rep start stop blocks free bucket [])
    (hlock : c.hashtableLock.Available caller) (hfuel : blocks.length < fuel) :
    ∃ c' b, c.recoverBlockFromBucket fuel caller p = some (c', b) := by
  obtain ⟨lock, hacquire, -⟩ := Mutex.acquire_of_available hlock
  have hj : bucketNumber p < MEMPOOL_HASH_TABLE_BUCKET_NUM := Nat.mod_lt _ (by decide)
  have hchain : Chain c.next (toPtr (c.allocatedBlocksBuckets (bucketNumber p)))
      (bucket (bucketNumber p)) := h.links.path (.inr (bucketNumber p)) (inr_mem_indices hj)
  have hfound : ∃ r, Memcluster.findBlock { c with hashtableLock := lock } p fuel NULL
      (c.allocatedBlocksBuckets (bucketNumber p)) = some r :=
    findBlock_returns hchain (lt_of_le_of_lt (h.bucket_length hj) hfuel)
  obtain ⟨r, hfind⟩ := hfound
  simp only [Memcluster.recoverBlockFromBucket, hacquire, hfind, Option.bind_eq_bind,
    Option.bind_some, Option.pure_def]
  cases r with
  | none => exact ⟨_, _, rfl⟩
  | some found => exact ⟨_, _, rfl⟩

/-- It only takes the lock of the hashtable, and gives it back. -/
theorem recoverBlockFromBucket_available {b : Nat}
    (h : c.recoverBlockFromBucket fuel caller p = some (c', b)) :
    c.hashtableLock.Available caller ∧ c'.hashtableLock.Available caller ∧
      c'.poolLocks = c.poolLocks := by
  simp only [recoverBlockFromBucket, Option.bind_eq_bind, Option.bind_eq_some_iff] at h
  obtain ⟨lock, hacquire, found, -, h⟩ := h
  refine ⟨Mutex.available_of_acquire hacquire, ?_⟩
  have hreleased := Mutex.release_available (.inr (Mutex.acquire_owner hacquire))
  cases found with
  | none =>
    cases h
    exact ⟨hreleased, rfl⟩
  | some found =>
    obtain ⟨prevBlock, blockPtr⟩ := found
    cases h
    unfold unlinkBlock
    split <;> exact ⟨hreleased, rfl⟩

theorem acquirePoolLock_acquires {idx : Nat} (h : c.acquirePoolLock caller idx = some c') :
    ∃ lock, (c.poolLocks idx).acquire caller = some lock ∧
      c' = { c with poolLocks := Function.update c.poolLocks idx lock } := by
  simp only [acquirePoolLock, Option.bind_eq_bind, Option.bind_eq_some_iff, Option.pure_def,
    Option.some.injEq] at h
  obtain ⟨lock, hlock, rfl⟩ := h
  exact ⟨lock, hlock, rfl⟩

/-- A pool lock that is taken and given back is as available as before. -/
theorem releasePoolLock_available {idx : Nat} (hacquire : c.acquirePoolLock caller idx = some c')
    (i : Nat) :
    ((c'.releasePoolLock caller idx).poolLocks i).Available caller ↔
      (c.poolLocks i).Available caller := by
  obtain ⟨lock, hlock, rfl⟩ := acquirePoolLock_acquires hacquire
  by_cases hi : i = idx
  · subst hi
    have howner := Mutex.acquire_owner hlock
    refine iff_of_true ?_ (Mutex.available_of_acquire hlock)
    simpa [releasePoolLock] using Mutex.release_available (.inr howner)
  · simp [releasePoolLock, Function.update_of_ne hi]

/-- `OS_free` leaves every lock as available as it was. -/
theorem deallocate_available (h : c.deallocate fuel caller p = some c') :
    c.hashtableLock.Available caller ∧ c'.hashtableLock.Available caller ∧
      ∀ i, (c'.poolLocks i).Available caller ↔ (c.poolLocks i).Available caller := by
  simp only [deallocate, Option.bind_eq_bind, Option.bind_eq_some_iff] at h
  obtain ⟨⟨c₁, b⟩, hrecover, h⟩ := h
  obtain ⟨hbefore, hafter, hpools⟩ := recoverBlockFromBucket_available hrecover
  refine ⟨hbefore, ?_⟩
  split at h
  · cases h
    exact ⟨hafter, fun i => by rw [hpools]⟩
  · simp only [Option.bind_eq_some_iff, Option.pure_def, Option.some.injEq] at h
    obtain ⟨idx, -, c₂, hacquire, rfl⟩ := h
    refine ⟨?_, ?_⟩
    · obtain ⟨locks, rfl⟩ := acquirePoolLock_eq hacquire
      exact hafter
    · intro i
      have hreleased := releasePoolLock_available hacquire i
      rw [hpools] at hreleased
      exact hreleased

/-- The pool that a block goes back to is that of the pointer. -/
theorem Rep.inPool_iff_of_find {b i poolIdx : Nat} (h : c.Rep start stop blocks free bucket [])
    (hrecover : Memcluster.recoverBlockFromBucket { c with clusterInUseFLAG := 1 } fuel caller p =
      some (c', b)) (hb : b ≠ NULL)
    (hpool : ((List.range NUMBER_OF_POOLS).find? fun i =>
      (c'.pools i).blockSize = c'.blockSize b) = some poolIdx) :
    c.InPool i (p - 12) ↔ i = poolIdx := by
  have hflag := h.inUse
  obtain ⟨-, rfl, hmemory, bucket', hrep, -⟩ :=
    (hflag.recoverBlockFromBucket hrecover).resolve_left fun hnone => hb hnone.1
  have hmem : b ∈ blocks := hrep.transit_mem
  have hidx : poolIdx < NUMBER_OF_POOLS := List.mem_range.mp (List.mem_of_find?_eq_some hpool)
  have hsize : (c'.pools poolIdx).blockSize = c'.blockSize b := by
    simpa using List.find?_some hpool
  have hkept : c'.blockSize b = c.blockSize b :=
    hmemory (b + 4) fun hin => (h.layout.ne_header hin hmem).1 rfl
  rw [hrep.pool_size poolIdx hidx, hkept] at hsize
  have hhead : c.headPtr b = b + 12 := h.layout.headPtr_eq b hmem
  show c.blockSize (c.headPtr b - 12) = _ ↔ _
  rw [hhead, Nat.add_sub_cancel, ← hsize, Nat.pow_right_inj (Nat.le_refl 2),
    Nat.add_right_cancel_iff, eq_comm]

/-- **`OS_free`** returns when no other task owns a lock it takes. -/
theorem Rep.deallocate_returns (h : c.Rep start stop blocks free bucket [])
    (hlocks : c.FreeLocks caller p) (hfuel : blocks.length < fuel) :
    ∃ c', c.deallocate fuel caller p = some c' := by
  have hflag := h.inUse
  obtain ⟨c₁, b, hrecover⟩ := hflag.recoverBlockFromBucket_returns (p := p) hlocks.hashtable hfuel
  obtain ⟨-, -, hpools⟩ := recoverBlockFromBucket_available hrecover
  simp only [Memcluster.deallocate, hrecover, Option.bind_eq_bind, Option.bind_some,
    Option.pure_def]
  rcases hflag.recoverBlockFromBucket hrecover with
    ⟨hnull, -⟩ | ⟨hb, hheadPtr, hmemory, bucket', hrep, -⟩
  · rw [if_pos hnull]
    exact ⟨_, rfl⟩
  · rw [if_neg hb]
    -- the block goes back to the pool of its size
    obtain ⟨i, hi, hsize⟩ := hrep.layout.blockSize_eq b hrep.transit_mem
    have hsome : ((List.range NUMBER_OF_POOLS).find? fun i =>
        (c₁.pools i).blockSize = c₁.blockSize b).isSome := by
      refine List.find?_isSome.mpr ⟨i, List.mem_range.mpr hi, ?_⟩
      rw [hrep.pool_size i hi, hsize]
      exact decide_eq_true rfl
    obtain ⟨poolIdx, hpool⟩ := Option.isSome_iff_exists.mp hsome
    have hidx : poolIdx < NUMBER_OF_POOLS := List.mem_range.mp (List.mem_of_find?_eq_some hpool)
    have hlock := hlocks.pool poolIdx hidx ((h.inPool_iff_of_find hrecover hb hpool).mpr rfl)
    rw [← hpools] at hlock
    obtain ⟨lock, hacquire, -⟩ := Mutex.acquire_of_available hlock
    rw [hpool]
    simp only [Option.bind_some, acquirePoolLock, hacquire, Option.bind_eq_bind, Option.pure_def]
    exact ⟨_, rfl⟩

/-- It returns only then, if the pointer is handed out. -/
theorem Rep.freeLocks_of_deallocate (h : c.Rep start stop blocks free bucket [])
    (hp : ∃ b ∈ allocated bucket, c.headPtr b = p)
    (hc : c.deallocate fuel caller p = some c') : c.FreeLocks caller p := by
  refine ⟨(deallocate_available hc).1, ?_⟩
  intro i hi hin
  simp only [Memcluster.deallocate, Option.bind_eq_bind, Option.bind_eq_some_iff] at hc
  obtain ⟨⟨c₁, b⟩, hrecover, hc⟩ := hc
  have hflag := h.inUse
  obtain ⟨-, -, hpools⟩ := recoverBlockFromBucket_available hrecover
  rcases hflag.recoverBlockFromBucket hrecover with ⟨-, hnone, -⟩ | ⟨hb, -⟩
  · obtain ⟨b', hb', hpb⟩ := hp
    exact absurd hpb (hnone b' hb')
  · rw [if_neg hb] at hc
    simp only [Option.bind_eq_some_iff] at hc
    obtain ⟨idx, hpool, c₂, hacquire, -⟩ := hc
    obtain rfl := (h.inPool_iff_of_find hrecover hb hpool).mp hin
    obtain ⟨lock, hlock, -⟩ := acquirePoolLock_acquires hacquire
    have hlock' := Mutex.available_of_acquire hlock
    rw [hpools] at hlock'
    exact hlock'

end Returns

/-! ## Several calls -/

namespace LeaseSystem

/-- `OS_alloc` by the task `caller`. -/
def alloc (s : LeaseSystem) (fuel caller words : Nat) : Option (LeaseSystem × Nat) :=
  (s.cluster.allocate fuel caller words).map fun (cluster, p) =>
    ({ cluster, leases := if p = NULL then s.leases else ⟨p, words⟩ :: s.leases }, p)

/-- `OS_free` of one pointer after the other, by the task `caller`. -/
def freeAll (fuel caller : Nat) : List Nat → LeaseSystem → Option LeaseSystem
  | [], s => some s
  | p :: ps, s => (s.step (.deallocate fuel caller p)).bind (freeAll fuel caller ps)

variable {s s' : LeaseSystem} {fuel caller p : Nat}

theorem alloc_step {words : Nat} (h : s.alloc fuel caller words = some (s', p)) :
    s.step (.allocate fuel caller words) = some s' := by
  obtain ⟨⟨c', q⟩, hcall, heq⟩ := Option.map_eq_some_iff.mp h
  obtain ⟨rfl, -⟩ := Prod.mk.inj heq
  exact Option.map_eq_some_iff.mpr ⟨(c', q), hcall, rfl⟩

theorem alloc_leases {words : Nat} (h : s.alloc fuel caller words = some (s', p)) :
    s'.leases = if p = NULL then s.leases else ⟨p, words⟩ :: s.leases := by
  obtain ⟨⟨c', q⟩, -, heq⟩ := Option.map_eq_some_iff.mp h
  obtain ⟨rfl, rfl⟩ := Prod.mk.inj heq
  rfl

/-- What every step keeps, the frees keep. -/
theorem freeAll_keeps {P : LeaseSystem → Prop}
    (hstep : ∀ s access s', P s → s.step access = some s' → P s') {ps : List Nat} (hs : P s)
    (h : freeAll fuel caller ps s = some s') : P s' := by
  induction ps generalizing s with
  | nil => exact Option.some.inj h ▸ hs
  | cons p ps ih =>
    obtain ⟨s₁, hfree, h⟩ := Option.bind_eq_some_iff.mp h
    exact ih (hstep _ _ _ hs hfree) h

theorem deallocate_live (hs : s.step (.deallocate fuel caller p) = some s') :
    s'.toSystem.live = s.toSystem.live.erase p := by
  obtain ⟨c', -, heq⟩ := Option.map_eq_some_iff.mp (toSystem_deallocate hs)
  rw [← heq]

theorem freeAll_live {ps : List Nat} (h : freeAll fuel caller ps s = some s') :
    s'.toSystem.live = ps.foldl List.erase s.toSystem.live := by
  induction ps generalizing s with
  | nil => exact congrArg (fun s => s.toSystem.live) (Option.some.inj h).symm
  | cons p ps ih =>
    obtain ⟨s₁, hfree, h⟩ := Option.bind_eq_some_iff.mp h
    rw [ih h, deallocate_live hfree]
    rfl

/-- A call of `OS_free` leaves the locks of another one as they were. -/
theorem step_freeLocks_iff {c₀ : Memcluster} {start stop : Nat} {blocks : List Nat}
    (h : Carved c₀ start stop blocks s) (hs : s.step (.deallocate fuel caller p) = some s')
    {q : Nat} (hq : q ∈ s.toSystem.live) :
    s'.cluster.FreeLocks caller q ↔ s.cluster.FreeLocks caller q := by
  obtain ⟨b, hb, rfl⟩ := h.mem_blocks hq
  have hin : ∀ i, s'.cluster.InPool i (b + 12 - 12) ↔ s.cluster.InPool i (b + 12 - 12) := by
    intro i
    rw [Nat.add_sub_cancel]
    unfold InPool
    rw [(h.step hs).sizes b hb, h.sizes b hb]
  obtain ⟨c', hcall, rfl⟩ := Option.map_eq_some_iff.mp hs
  obtain ⟨htable, htable', hpools⟩ := deallocate_available hcall
  constructor
  · intro hlocks
    exact ⟨htable, fun i hi hpool => (hpools i).mp (hlocks.pool i hi ((hin i).mpr hpool))⟩
  · intro hlocks
    exact ⟨htable', fun i hi hpool => (hpools i).mpr (hlocks.pool i hi ((hin i).mp hpool))⟩

section FreeAll

variable {c₀ : Memcluster} {start stop : Nat} {blocks ps : List Nat}

/-- The calls of `OS_free` return when no other task owns a lock that one of them takes. -/
theorem freeAll_returns (h : Carved c₀ start stop blocks s) (hps : ps.Nodup)
    (hlive : ∀ p ∈ ps, p ∈ s.toSystem.live) (hlocks : ∀ p ∈ ps, s.cluster.FreeLocks caller p)
    (hfuel : blocks.length < fuel) : ∃ s', freeAll fuel caller ps s = some s' := by
  induction ps generalizing s with
  | nil => exact ⟨s, rfl⟩
  | cons p ps ih =>
    obtain ⟨hp, hrest⟩ := List.forall_mem_cons.mp hlocks
    obtain ⟨hnotin, hps⟩ := List.nodup_cons.mp hps
    obtain ⟨_, _, hleased⟩ := h.leased
    obtain ⟨c', hcall⟩ := hleased.rep.deallocate_returns hp hfuel
    have hstep : s.step (.deallocate fuel caller p) = some
        { cluster := c', leases := s.leases.eraseP fun lease => lease.pointer = p } :=
      Option.map_eq_some_iff.mpr ⟨c', hcall, rfl⟩
    have hin : ∀ q ∈ ps, q ∈ s.toSystem.live := fun q hq => hlive q (List.mem_cons_of_mem p hq)
    have hreturns := ih (h.step hstep) hps ?_ ?_
    · obtain ⟨s', hs'⟩ := hreturns
      exact ⟨s', Option.bind_eq_some_iff.mpr ⟨_, hstep, hs'⟩⟩
    · intro q hq
      rw [deallocate_live hstep]
      exact (List.mem_erase_of_ne (ne_of_mem_of_not_mem hq hnotin)).mpr (hin q hq)
    · intro q hq
      exact (step_freeLocks_iff h hstep (hin q hq)).mpr (hrest q hq)

/-- They return only then, if the pointers are handed out. -/
theorem freeLocks_of_freeAll (h : Carved c₀ start stop blocks s) (hps : ps.Nodup)
    (hlive : ∀ p ∈ ps, p ∈ s.toSystem.live) (hs : freeAll fuel caller ps s = some s') :
    ∀ p ∈ ps, s.cluster.FreeLocks caller p := by
  induction ps generalizing s with
  | nil => exact fun _ hp => absurd hp List.not_mem_nil
  | cons p ps ih =>
    obtain ⟨hp, hin⟩ := List.forall_mem_cons.mp hlive
    obtain ⟨hnotin, hps⟩ := List.nodup_cons.mp hps
    obtain ⟨s₁, hstep, hs⟩ := Option.bind_eq_some_iff.mp hs
    obtain ⟨_, _, hleased⟩ := h.leased
    obtain ⟨c', hcall, -⟩ := Option.map_eq_some_iff.mp hstep
    refine List.forall_mem_cons.mpr ⟨?_, ?_⟩
    · refine hleased.rep.freeLocks_of_deallocate ?_ hcall
      rw [← Multiset.mem_coe, hleased.live, Multiset.mem_map] at hp
      obtain ⟨b, hb, rfl⟩ := hp
      exact ⟨b, hb, hleased.rep.layout.headPtr_eq b (allocated_mem_blocks hleased.rep hb)⟩
    · intro q hq
      refine (step_freeLocks_iff h hstep (hin q hq)).mp (ih (h.step hstep) hps ?_ hs q hq)
      intro r hr
      rw [deallocate_live hstep]
      exact (List.mem_erase_of_ne (ne_of_mem_of_not_mem hr hnotin)).mpr (hin r hr)

end FreeAll

end LeaseSystem

end Memcluster

/-! ## The scheduler and the memory cluster -/

open Memcluster

/-- The scheduler, and the memory with the blocks the tasks hold. -/
structure Kernel where
  sched : Sched
  memory : LeaseSystem

inductive KernelEvent where
  /-- A task calls the memory cluster or writes its memory. -/
  | access (access : Access)
  /-- An event of the scheduler; `fuel` bounds the searches of the calls of `OS_free`. -/
  | sched (event : SchedulerEvent × (Nat → Bool)) (fuel : Nat)

/-- The event adds the task. -/
def KernelEvent.Adds (task : Nat) : KernelEvent → Prop
  | .sched (.addTask tcb .., _) _ => tcb = task
  | _ => False

/-- The task that `main` makes: its blocks, and the arguments of `OS_initialiseTCB` and
`OS_addTask`. `taskEnd` is the address of `_OS_task_end`. -/
structure NewTask where
  tcbWords : Nat
  stackWords : Nat
  taskEnd : Nat
  func : Nat
  data : Nat
  taskPriority : Nat

/-- The words of an `OS_StackFrame_t`. -/
abbrev STACK_FRAME_WORDS : Nat := 16

namespace Kernel

/-- The scheduler calls `OS_free` while `currentTCB` is still the task it was called
from. -/
def step (tasks : Finset Nat) (k : Kernel) : KernelEvent → Option Kernel
  | .access access => (k.memory.step access).map fun memory => { k with memory }
  | .sched event fuel => do
    let sched ← k.sched.stepEach tasks event
    let memory ← k.memory.freeAll fuel k.sched.currentTCB (k.sched.newlyFreed sched)
    return { sched, memory }

/-- The part of `OS_initialiseTCB` that `Sched.initialiseTCB` leaves out. The first word of
the TCB and the last words of the stack are words of the two blocks. -/
def initialiseTCB (memory : LeaseSystem) (tcb stack : Nat) (r : NewTask) : Option LeaseSystem :=
  if memory.Grants tcb 0 ∧ ∀ i < STACK_FRAME_WORDS,
      memory.Grants stack (r.stackWords - STACK_FRAME_WORDS + i) then
    let words := initialiseStack memory.cluster.memory tcb (stack + 4 * r.stackWords) r.taskEnd
      r.func r.data
    some { memory with cluster := { memory.cluster with memory := words } }
  else none

/-- `OS_alloc` for the TCB and for the stack, `OS_initialiseTCB` with the end of the
stack, and `OS_addTask`; the block of the TCB held `held`. -/
def createTask (tasks : Finset Nat) (k : Kernel) (fuel : Nat) (held : TCB) (r : NewTask) :
    Option (Kernel × Nat × Nat) := do
  let (memory, tcb) ← k.memory.alloc fuel k.sched.currentTCB r.tcbWords
  let (memory, stack) ← memory.alloc fuel k.sched.currentTCB r.stackWords
  let memory ← initialiseTCB memory tcb stack r
  let event := .addTask tcb held (stack + 4 * r.stackWords) r.taskPriority
  let sched ← k.sched.stepEach tasks (event, fun _ => false)
  return ({ sched, memory }, tcb, stack)

end Kernel

/-- All runs of the kernel, on any array and from any state of the scheduler. -/
def kernelMachine (tasks : Finset Nat) : Machine Kernel KernelEvent where
  init k := ∃ previous memoryArray memorySize, 1 ≤ memorySize ∧
    memoryArray + 4 * memorySize ≤ 4294967296 ∧
    k.memory = freshLeases previous memoryArray memorySize
  step := Kernel.step tasks

/-- The life of a task: it is made in `k`, which gives `made`. Whatever the tasks do
then, in `last` the memory handed out is the same as in `made`; and in the event
`final` the scheduler frees the task, and no other. -/
structure Lifetime (tasks : Finset Nat) (r : NewTask) (k made last : Kernel) (tcb stack : Nat)
    (final : SchedulerEvent × (Nat → Bool)) : Prop where
  created : ∃ fuel held, k.createTask tasks fuel held r = some (made, tcb, stack)
  lives : ∃ es, (kernelMachine tasks).run made es = some last ∧ ∀ e ∈ es, ¬ e.Adds tcb
  others : last.memory.toSystem.live.Perm made.memory.toSystem.live
  freed : ∃ sched p, last.sched.stepEach tasks final = some sched ∧
    last.sched.newlyFreed sched = [p, tcb]

namespace Kernel

variable {tasks : Finset Nat} {k k' made last : Kernel} {r : NewTask} {tcb stack : Nat}
  {final : SchedulerEvent × (Nat → Bool)}

/-- What every call and write keeps, every step of the kernel keeps. -/
theorem step_keeps {P : LeaseSystem → Prop}
    (hstep : ∀ s access s', P s → s.step access = some s' → P s') {e : KernelEvent}
    (hk : P k.memory) (h : k.step tasks e = some k') : P k'.memory := by
  cases e with
  | access access =>
    obtain ⟨memory, hmemory, rfl⟩ := Option.map_eq_some_iff.mp h
    exact hstep _ _ _ hk hmemory
  | sched event fuel =>
    simp only [step, Option.bind_eq_bind, Option.bind_eq_some_iff, Option.pure_def,
      Option.some.injEq] at h
    obtain ⟨sched, -, memory, hfree, rfl⟩ := h
    exact LeaseSystem.freeAll_keeps hstep hk hfree

/-- Only an event that adds the task changes its stack. -/
theorem step_lifeOf {e : KernelEvent} {task : Nat} (hadd : ¬ e.Adds task)
    (h : k.step tasks e = some k') : k'.sched.lifeOf task = k.sched.lifeOf task := by
  cases e with
  | access access =>
    obtain ⟨memory, -, rfl⟩ := Option.map_eq_some_iff.mp h
    rfl
  | sched event fuel =>
    simp only [step, Option.bind_eq_bind, Option.bind_eq_some_iff, Option.pure_def,
      Option.some.injEq] at h
    obtain ⟨sched, hsched, memory, -, rfl⟩ := h
    refine Sched.stepEach_lifeOf ?_ hsched
    intro memory stack taskPriority heq
    obtain ⟨event, inUse⟩ := event
    obtain rfl : event = .addTask task memory stack taskPriority := heq
    exact hadd rfl

/-- The step lemma and the run lemma for the two: the stack of a task stays while it is
not added again. -/
theorem run_keeps {P : LeaseSystem → Prop}
    (hstep : ∀ s access s', P s → s.step access = some s' → P s') {es : List KernelEvent}
    {task : Nat} (hadd : ∀ e ∈ es, ¬ e.Adds task) (hk : P k.memory)
    (h : (kernelMachine tasks).run k es = some k') :
    P k'.memory ∧ k'.sched.lifeOf task = k.sched.lifeOf task := by
  induction es generalizing k with
  | nil =>
    obtain rfl := Option.some.inj h
    exact ⟨hk, rfl⟩
  | cons e es ih =>
    obtain ⟨k₁, hfirst, h⟩ := Option.bind_eq_some_iff.mp h
    obtain ⟨he, hes⟩ := List.forall_mem_cons.mp hadd
    obtain ⟨hmemory, hlife⟩ := ih hes (step_keeps hstep hk hfirst) h
    exact ⟨hmemory, hlife.trans (step_lifeOf he hfirst)⟩

/-- The two blocks of a task that is made are handed out, and what is written to them harms
no other block. -/
theorem initialiseTCB_keeps {c₀ : Memcluster} {start stop : Nat} {blocks : List Nat}
    {memory memory' : LeaseSystem} (hk : Carved c₀ start stop blocks memory)
    (hframe : STACK_FRAME_WORDS ≤ r.stackWords)
    (h : initialiseTCB memory tcb stack r = some memory') :
    Carved c₀ start stop blocks memory' ∧ memory'.leases = memory.leases ∧ tcb ≠ NULL ∧
      stack ≠ NULL := by
  unfold initialiseTCB at h
  split at h
  · rename_i hgrants
    obtain ⟨htcb, hstack⟩ := hgrants
    cases h
    refine ⟨?_, rfl, hk.ne_null htcb, hk.ne_null (hstack 0 (by decide))⟩
    -- the stack pointer is the address of the first word of the frame
    have hsp : stack + 4 * r.stackWords - 64 = stack + 4 * (r.stackWords - STACK_FRAME_WORDS) := by
      unfold STACK_FRAME_WORDS at hframe ⊢
      omega
    unfold initialiseStack
    rw [hsp]
    exact (hk.write htcb _).storeWords hstack
  · cases h

/-- A task that is made holds two blocks, that of the stack has the words asked for, and
the pointer for its deallocation is 64 words below its end. -/
theorem createTask_made {c₀ : Memcluster} {start stop fuel : Nat} {blocks : List Nat} {held : TCB}
    (hk : Carved c₀ start stop blocks k.memory) (hframe : STACK_FRAME_WORDS ≤ r.stackWords)
    (h : k.createTask tasks fuel held r = some (made, tcb, stack)) :
    Carved c₀ start stop blocks made.memory ∧
      made.memory.toSystem.live = stack :: tcb :: k.memory.toSystem.live ∧
      r.stackWords ≤ c₀.blockSize (stack - 12) ∧
      (made.sched.lifeOf tcb).originalSpMemoryPointer =
        wrap (stack + 4 * r.stackWords + (4294967296 - 4 * 64)) := by
  simp only [createTask, Option.bind_eq_bind, Option.bind_eq_some_iff, Option.pure_def,
    Option.some.injEq] at h
  obtain ⟨⟨m₁, tcb⟩, halloc₁, ⟨m₂, stack⟩, halloc₂, m₃, hinitialise, sched, hadd, heq⟩ := h
  cases heq
  dsimp only at halloc₂ hinitialise hadd
  have h₂ := (hk.step (LeaseSystem.alloc_step halloc₁)).step (LeaseSystem.alloc_step halloc₂)
  obtain ⟨h₃, hleases, htcb, hstack⟩ := initialiseTCB_keeps h₂ hframe hinitialise
  -- NULL has been refused by the code, so that both requests add a lease
  have hleases₂ : m₂.leases =
      ⟨stack, r.stackWords⟩ :: ⟨tcb, r.tcbWords⟩ :: k.memory.leases := by
    rw [LeaseSystem.alloc_leases halloc₂, if_neg hstack, LeaseSystem.alloc_leases halloc₁,
      if_neg htcb]
  refine ⟨h₃, ?_, ?_, ?_⟩
  · show m₃.leases.map Lease.pointer = _
    rw [hleases, hleases₂]
    rfl
  · obtain ⟨_, _, hleased⟩ := h₂.leased
    obtain ⟨b, hb, hp, hfits⟩ := hleased.fits ⟨stack, r.stackWords⟩ (by simp [hleases₂])
    -- a block is named by its header, which is 12 bytes in front of the pointer
    obtain rfl : stack = b + 12 := hp
    rw [h₂.sizes b hb] at hfits
    exact hfits
  · show (sched.lifeOf tcb).originalSpMemoryPointer = _
    rw [(Sched.stepEach_addTask hadd).2 tcb, if_pos rfl]
    rfl

/-- What the final event does to the memory: the two pointers are freed. -/
theorem freed_live {sched : Sched} {p fuel : Nat} {k'' : Kernel}
    (hsched : k.sched.stepEach tasks final = some sched)
    (hfreed : k.sched.newlyFreed sched = [p, tcb])
    (h : k.step tasks (.sched final fuel) = some k'') :
    k''.memory.toSystem.live = (k.memory.toSystem.live.erase p).erase tcb := by
  simp only [step, hsched, hfreed, Option.bind_eq_bind, Option.bind_some,
    Option.bind_eq_some_iff, Option.pure_def, Option.some.injEq] at h
  obtain ⟨memory, hfree, rfl⟩ := h
  exact LeaseSystem.freeAll_live hfree

/-- The array of the cluster, and where its blocks are. -/
theorem reach_carved (h : (kernelMachine tasks).Reach k) :
    ∃ c₀ start stop blocks, c₀.Layout start stop blocks ∧ stop ≤ 4294967296 ∧
      blocks.Pairwise c₀.Spaced ∧ Carved c₀ start stop blocks k.memory := by
  refine h.invariant (P := fun k => ∃ c₀ start stop blocks, c₀.Layout start stop blocks ∧
    stop ≤ 4294967296 ∧ blocks.Pairwise c₀.Spaced ∧ Carved c₀ start stop blocks k.memory) ?_ ?_
  · rintro k ⟨previous, memoryArray, memorySize, hn, hfit, hk⟩
    obtain ⟨free, stop, hstop, hrep⟩ := memoryClusterInit_rep hn hfit previous
    refine ⟨_, memoryArray, stop, _, hrep.layout, hstop.trans hfit,
      carvedBlocks_spaced previous memoryArray memorySize, ?_⟩
    rw [hk]
    exact ⟨⟨free, _, hrep, rfl, fun _ hl => absurd hl List.not_mem_nil⟩, fun _ _ => rfl⟩
  · rintro k e k' ⟨c₀, start, stop, blocks, hlayout, hstop, hspaced, hk⟩ hstep
    exact ⟨c₀, start, stop, blocks, hlayout, hstop, hspaced,
      step_keeps (fun _ _ _ hs => hs.step) hk hstep⟩

/-- The two blocks of the task are handed out when the final event comes, and the event
passes the pointer to `OS_free` that was computed when the task was made. -/
structure Ends (c₀ : Memcluster) (start stop : Nat) (blocks : List Nat) (r : NewTask)
    (k last : Kernel) (tcb stack : Nat) : Prop where
  layout : c₀.Layout start stop blocks
  stop_le : stop ≤ 4294967296
  spaced : blocks.Pairwise c₀.Spaced
  before : Carved c₀ start stop blocks k.memory
  carved : Carved c₀ start stop blocks last.memory
  live : (last.memory.toSystem.live : Multiset Nat) =
    stack ::ₘ tcb ::ₘ (k.memory.toSystem.live : Multiset Nat)
  fits : r.stackWords ≤ c₀.blockSize (stack - 12)

theorem life_ends (h : (kernelMachine tasks).Reach k)
    (hframe : STACK_FRAME_WORDS ≤ r.stackWords)
    (hlife : Lifetime tasks r k made last tcb stack final) :
    (∃ c₀ start stop blocks, Ends c₀ start stop blocks r k last tcb stack) ∧
      ∃ sched, last.sched.stepEach tasks final = some sched ∧ last.sched.newlyFreed sched =
        [wrap (stack + 4 * r.stackWords + (4294967296 - 4 * 64)), tcb] := by
  obtain ⟨c₀, start, stop, blocks, hlayout, hstop, hspaced, hk⟩ := reach_carved h
  obtain ⟨fuel, held, hcreated⟩ := hlife.created
  obtain ⟨hmade, hlive, hfits, hpointer⟩ := createTask_made hk hframe hcreated
  obtain ⟨es, hrun, hadd⟩ := hlife.lives
  have hstep : ∀ s access s', Carved c₀ start stop blocks s →
      LeaseSystem.step s access = some s' → Carved c₀ start stop blocks s' := by
    intro s access s' hs
    exact hs.step
  obtain ⟨hlast, hkept⟩ := run_keeps hstep hadd hmade hrun
  obtain ⟨sched, p, hsched, hfreed⟩ := hlife.freed
  refine ⟨⟨c₀, start, stop, blocks, ?_⟩, sched, hsched, ?_⟩
  · refine
      { layout := hlayout
        stop_le := hstop
        spaced := hspaced
        before := hk
        carved := hlast
        live := ?_
        fits := hfits }
    rw [Multiset.coe_eq_coe.mpr hlife.others, hlive]
    rfl
  · -- nothing has changed the pointer since the task was made
    rw [hfreed, Sched.newlyFreed_pair hsched hfreed, hkept, hpointer]

/-- When the calls of `OS_free` return, every pool has its free blocks back if the stack
has 64 words, and only then. -/
theorem sameFreeBlocks_iff_words {fuel : Nat} (h : (kernelMachine tasks).Reach k)
    (hframe : STACK_FRAME_WORDS ≤ r.stackWords)
    (hlife : Lifetime tasks r k made last tcb stack final)
    (hs : last.step tasks (.sched final fuel) = some k') :
    k.memory.cluster.SameFreeBlocks k'.memory.cluster ↔ r.stackWords = 64 := by
  obtain ⟨⟨c₀, start, stop, blocks, hends⟩, sched, hsched, hfreed⟩ := life_ends h hframe hlife
  have hfinal : Carved c₀ start stop blocks k'.memory :=
    step_keeps (fun _ _ _ hm => hm.step) hends.carved hs
  exact hends.before.sameFreeBlocks_iff_words hends.carved hfinal hends.layout hends.stop_le
    hends.spaced hends.live (freed_live hsched hfreed hs) hframe hends.fits

/-- For a stack of 64 words the calls of `OS_free` are those of the two blocks of the task,
and they return if and only if they get their locks. -/
theorem final_returns_iff (h : (kernelMachine tasks).Reach k)
    (hframe : STACK_FRAME_WORDS ≤ r.stackWords)
    (hlife : Lifetime tasks r k made last tcb stack final) (hwords : r.stackWords = 64) :
    (∃ fuel k', last.step tasks (.sched final fuel) = some k') ↔
      last.memory.cluster.FreeLocks last.sched.currentTCB stack ∧
        last.memory.cluster.FreeLocks last.sched.currentTCB tcb := by
  obtain ⟨⟨c₀, start, stop, blocks, hends⟩, sched, hsched, hfreed⟩ := life_ends h hframe hlife
  have hnodup : (last.memory.toSystem.live : Multiset Nat).Nodup := hends.carved.live_nodup
  have hin : stack ∈ last.memory.toSystem.live ∧ tcb ∈ last.memory.toSystem.live := by
    simp only [← Multiset.mem_coe, hends.live, Multiset.mem_cons, true_or, or_true, and_self]
  have hps : [stack, tcb].Nodup := by
    rw [hends.live, Multiset.nodup_cons] at hnodup
    refine List.nodup_cons.mpr ⟨?_, List.nodup_singleton tcb⟩
    intro hmem
    exact hnodup.1 (List.mem_singleton.mp hmem ▸ Multiset.mem_cons_self _ _)
  have hlive : ∀ p ∈ [stack, tcb], p ∈ last.memory.toSystem.live := by
    simpa only [List.forall_mem_cons, List.not_mem_nil, false_implies, implies_true, and_true]
      using hin
  -- the pointer that is freed is that of the stack
  have hpointer : wrap (stack + 4 * r.stackWords + (4294967296 - 4 * 64)) = stack := by
    obtain ⟨b, hb, rfl⟩ := hends.carved.mem_blocks hin.1
    have hend := (hends.layout.inside b hb).2
    have hstop := hends.stop_le
    have hfits := hends.fits
    rw [Nat.add_sub_cancel] at hfits
    unfold blockEnd at hend
    exact (below_end_eq_iff (by omega) (by omega)).mpr hwords
  rw [hpointer] at hfreed
  constructor
  · rintro ⟨fuel, k', hs⟩
    simp only [step, hsched, hfreed, Option.bind_eq_bind, Option.bind_some,
      Option.bind_eq_some_iff] at hs
    obtain ⟨memory, hfree, -⟩ := hs
    have hlocks := LeaseSystem.freeLocks_of_freeAll hends.carved hps hlive hfree
    exact ⟨hlocks stack (List.mem_cons_self ..), hlocks tcb (by simp)⟩
  · rintro ⟨hstack, htcb⟩
    have hreturns : ∃ memory, last.memory.freeAll (blocks.length + 1) last.sched.currentTCB
        [stack, tcb] = some memory := by
      refine LeaseSystem.freeAll_returns hends.carved hps hlive ?_ (Nat.lt_succ_self _)
      simp only [List.forall_mem_cons, List.not_mem_nil, false_implies, implies_true, and_true]
      exact ⟨hstack, htcb⟩
    obtain ⟨memory, hfree⟩ := hreturns
    refine ⟨blocks.length + 1, { sched, memory }, ?_⟩
    simp only [step, hsched, hfreed, hfree, Option.bind_eq_bind, Option.bind_some,
      Option.pure_def]

/-- **The memory of a task**: in every life of a task whose stack holds the initial frame,
from any state of the scheduler and of the memory cluster, the scheduler frees the task and
every pool has its free blocks back if and only if the stack has 64 words and no other task
owns a lock that `OS_free` takes for one of the two blocks. -/
theorem life_returns_memory_iff (h : (kernelMachine tasks).Reach k)
    (hframe : STACK_FRAME_WORDS ≤ r.stackWords)
    (hlife : Lifetime tasks r k made last tcb stack final) :
    (∃ fuel k', last.step tasks (.sched final fuel) = some k' ∧
      k.memory.cluster.SameFreeBlocks k'.memory.cluster) ↔
    r.stackWords = 64 ∧ last.memory.cluster.FreeLocks last.sched.currentTCB stack ∧
      last.memory.cluster.FreeLocks last.sched.currentTCB tcb := by
  constructor
  · rintro ⟨fuel, k', hs, hsame⟩
    have hwords := (sameFreeBlocks_iff_words h hframe hlife hs).mp hsame
    exact ⟨hwords, (final_returns_iff h hframe hlife hwords).mp ⟨fuel, k', hs⟩⟩
  · rintro ⟨hwords, hlocks⟩
    obtain ⟨fuel, k', hs⟩ := (final_returns_iff h hframe hlife hwords).mpr hlocks
    exact ⟨fuel, k', hs, (sameFreeBlocks_iff_words h hframe hlife hs).mpr hwords⟩

/-! ## A short life -/

/-- A kernel that has just booted, on an array of `words` words. -/
def sampleKernel (words : Nat) : Kernel where
  sched := Sched.sampleSched 1
  memory := freshLeases staleCluster 4096 words

/-- A task with a stack of `stackWords` words. -/
def sampleTask (stackWords : Nat) : NewTask where
  tcbWords := 10
  stackWords := stackWords
  taskEnd := 8
  func := 9
  data := 0
  taskPriority := 1

/-- The current task exits, and the scheduler walks down from the root. -/
def exitEvent : SchedulerEvent × (Nat → Bool) := (.exit Sched.toRoot, fun _ => false)

/-- A task is made and becomes the current one. The result is the kernel after each. -/
def shortLife (tasks : Finset Nat) (k : Kernel) (r : NewTask) :
    Option (Kernel × Kernel × Nat × Nat) := do
  let (made, tcb, stack) ← k.createTask tasks 5 ((Sched.sampleSched 1).tcb 0) r
  let last ← made.step tasks (.sched (.schedule Sched.toRoot, fun _ => false) 5)
  return (made, last, tcb, stack)

/-- A life in which only the task is freed. -/
theorem shortLife_lifetime {p : Nat} {sched : Sched}
    (h : shortLife tasks k r = some (made, last, tcb, stack))
    (hlive : last.memory.toSystem.live = made.memory.toSystem.live)
    (hexit : last.sched.stepEach tasks exitEvent = some sched)
    (hfreed : last.sched.newlyFreed sched = [p, tcb]) :
    Lifetime tasks r k made last tcb stack exitEvent := by
  simp only [shortLife, Option.bind_eq_bind, Option.bind_eq_some_iff, Option.pure_def,
    Option.some.injEq] at h
  obtain ⟨⟨made, tcb, stack⟩, hcreated, last, hschedule, heq⟩ := h
  cases heq
  refine ⟨⟨_, _, hcreated⟩, ⟨[.sched (.schedule Sched.toRoot, fun _ => false) 5], ?_, ?_⟩, ?_,
    sched, p, hexit, hfreed⟩
  · simp only [Machine.run, kernelMachine, hschedule, Option.bind_some]
  · intro e he
    rw [List.mem_singleton.mp he]
    exact id
  · rw [hlive]

theorem exists_shortLife (tasks : Finset Nat) (k : Kernel) (r : NewTask) (tcb stack p : Nat)
    (P : Kernel → Prop) [DecidablePred P]
    (h : (shortLife tasks k r).any (fun (made, last, tcb', stack') =>
      (last.sched.stepEach tasks exitEvent).any fun sched =>
        decide ((tcb' = tcb ∧ stack' = stack) ∧
          last.memory.toSystem.live = made.memory.toSystem.live ∧
          last.sched.newlyFreed sched = [p, tcb] ∧ P last)) = true) :
    ∃ made last, Lifetime tasks r k made last tcb stack exitEvent ∧ P last := by
  obtain ⟨⟨made, last, tcb', stack'⟩, hlife, hexit⟩ := (Option.any_eq_true _ _).mp h
  obtain ⟨sched, hsched, hends⟩ := (Option.any_eq_true _ _).mp hexit
  obtain ⟨⟨rfl, rfl⟩, hlive, hfreed, hP⟩ := of_decide_eq_true hends
  exact ⟨made, last, shortLife_lifetime hlife hlive hsched hfreed, hP⟩

theorem sampleKernel_reach {words : Nat} (hwords : 1 ≤ words)
    (hfit : 4096 + 4 * words ≤ 4294967296) : (kernelMachine tasks).Reach (sampleKernel words) :=
  .init ⟨staleCluster, 4096, words, hwords, hfit, rfl⟩

/-- With a stack of 64 words, the memory comes back. -/
theorem life_returns_memory_iff_sixtyFour :
    ∃ made last k',
      Lifetime {4112} (sampleTask 64) (sampleKernel 122) made last 4112 4328 exitEvent ∧
      last.step {4112} (.sched exitEvent 5) = some k' ∧ k'.memory.leases = [] ∧
      ((∃ fuel k', last.step {4112} (.sched exitEvent fuel) = some k' ∧
        (sampleKernel 122).memory.cluster.SameFreeBlocks k'.memory.cluster) ↔
      (sampleTask 64).stackWords = 64 ∧
        last.memory.cluster.FreeLocks last.sched.currentTCB 4328 ∧
        last.memory.cluster.FreeLocks last.sched.currentTCB 4112) := by
  obtain ⟨made, last, hlife, hfinal⟩ :=
    exists_shortLife {4112} (sampleKernel 122) (sampleTask 64) 4112 4328 4328
      (fun last => (last.step {4112} (.sched exitEvent 5)).any
        (fun k' => decide (k'.memory.leases = [])) = true) (by decide +kernel)
  obtain ⟨k', hstep, hleases⟩ := (Option.any_eq_true _ _).mp hfinal
  exact ⟨made, last, k', hlife, hstep, of_decide_eq_true hleases,
    life_returns_memory_iff (sampleKernel_reach (by decide) (by decide)) (by decide) hlife⟩

/-- With a stack of 128 words, the pool of the stack has lost its block. -/
theorem life_loses_stack :
    ∃ made last k', (kernelMachine {4112}).Reach (sampleKernel 253) ∧
      STACK_FRAME_WORDS ≤ (sampleTask 128).stackWords ∧
      Lifetime {4112} (sampleTask 128) (sampleKernel 253) made last 4112 4596 exitEvent ∧
      last.step {4112} (.sched exitEvent 5) = some k' ∧
      ((sampleKernel 253).memory.cluster.pools 3).freeBlocks = 1 ∧
      (k'.memory.cluster.pools 3).freeBlocks = 0 ∧
      ¬ (sampleKernel 253).memory.cluster.SameFreeBlocks k'.memory.cluster := by
  obtain ⟨made, last, hlife, hfinal⟩ :=
    exists_shortLife {4112} (sampleKernel 253) (sampleTask 128) 4112 4596 4852
      (fun last => (last.step {4112} (.sched exitEvent 5)).any
        (fun k' => decide (((sampleKernel 253).memory.cluster.pools 3).freeBlocks = 1 ∧
          (k'.memory.cluster.pools 3).freeBlocks = 0)) = true) (by decide +kernel)
  obtain ⟨k', hstep, hpools⟩ := (Option.any_eq_true _ _).mp hfinal
  obtain ⟨hbefore, hafter⟩ := of_decide_eq_true hpools
  refine ⟨made, last, k', sampleKernel_reach (by decide) (by decide), by decide, hlife, hstep,
    hbefore, hafter, ?_⟩
  intro hsame
  have hpool := hsame 3 (by decide)
  rw [hbefore, hafter] at hpool
  cases hpool

/-- The current task takes the blocks of pools 0 and 1. -/
def takeSmallBlocks : List KernelEvent :=
  [.access (.allocate 5 1 10), .access (.allocate 5 1 20)]

/-- A task that has found pools empty keeps their locks. With a stack of 64 words, the
scheduler waits then for the lock of the pool of the TCB, and never returns. -/
theorem life_waits_for_lock :
    ∃ k made last, (kernelMachine {4328}).Reach k ∧
      Lifetime {4328} (sampleTask 64) k made last 4328 4596 exitEvent ∧
      ∀ fuel, last.step {4328} (.sched exitEvent fuel) = none := by
  obtain ⟨k, hrun, hk⟩ := Machine.exists_run (M := kernelMachine {4328}) (s := sampleKernel 253)
    (e := takeSmallBlocks)
    (P := fun k => (shortLife {4328} k (sampleTask 64)).any (fun (made, last, tcb, stack) =>
      (last.sched.stepEach {4328} exitEvent).any fun sched =>
        decide ((tcb = 4328 ∧ stack = 4596) ∧
          last.memory.toSystem.live = made.memory.toSystem.live ∧
          last.sched.newlyFreed sched = [4596, 4328] ∧
          last.memory.cluster.InPool 2 (4328 - 12) ∧
          ¬ (last.memory.cluster.poolLocks 2).Available last.sched.currentTCB)) = true)
    (by decide +kernel)
  have hstart : (kernelMachine {4328}).Reach (sampleKernel 253) :=
    sampleKernel_reach (by decide) (by decide)
  have hreach := hstart.run hrun
  obtain ⟨made, last, hlife, hpool, htaken⟩ := exists_shortLife {4328} k (sampleTask 64) 4328 4596
    4596 (fun last => last.memory.cluster.InPool 2 (4328 - 12) ∧
      ¬ (last.memory.cluster.poolLocks 2).Available last.sched.currentTCB) hk
  refine ⟨k, made, last, hreach, hlife, ?_⟩
  intro fuel
  by_contra hne
  obtain ⟨k', hs⟩ := Option.ne_none_iff_exists'.mp hne
  obtain ⟨-, htcb⟩ := (final_returns_iff hreach (by decide) hlife rfl).mp ⟨fuel, k', hs⟩
  exact htaken (htcb.pool 2 (by decide) hpool)

end Kernel

end DocetOS
