import DocetOS.OS.MemclusterConservation

/-!
# Alignment of the memory handed out

`memory_cluster_init` skips a word so that the memory of the first block is
8-byte aligned. A block takes up its three header words and an even number of
further ones, an odd number in all, so the blocks are aligned in turn: the
memory of block `k`, counted in the order of carving, is at a multiple of 8
exactly for even `k` (`carved_headPtr_mod`).

All memory is aligned only as long as there is no second block, which takes an
array of at most 38 words (`handsOutAligned_iff`).
-/

namespace DocetOS.Memcluster

open Lib

/-! ## The loop that carves the array -/

/-- The pools have the block sizes `memory_cluster_init` gives them. -/
def PoolSizes (c : Memcluster) : Prop :=
  ∀ i, (c.pools i).blockSize = 2 ^ (i + SMALLEST_BLOCK_SIZE)

section Carve

variable {c : Memcluster} {fuel counter numSkips memoryArray memorySize : Nat} {blocks : List Nat}

/-- A new block goes to the free list of a pool and leaves the sizes alone. -/
theorem PoolSizes.addBlock (h : c.PoolSizes) (i block size : Nat) :
    ((c.writeHeader block size).addBlockToPool i block).PoolSizes := by
  intro k
  rw [← h k]
  by_cases hki : k = i
  · subst hki
    simp [Memcluster.addBlockToPool, Memcluster.writeHeader, setPool, write]
  · simp [Memcluster.addBlockToPool, Memcluster.writeHeader, setPool, write,
      Function.update_of_ne hki]

/-- Every pool has blocks of an even number of words, 16 at least. -/
theorem PoolSizes.even (h : c.PoolSizes) (i : Nat) :
    16 ≤ (c.pools i).blockSize ∧ (c.pools i).blockSize % 2 = 0 := by
  have hsize : (c.pools i).blockSize = 16 * 2 ^ i := by
    rw [h i, pow_add, mul_comm, show 2 ^ SMALLEST_BLOCK_SIZE = 16 from rfl]
  have hpos : 1 ≤ 2 ^ i := Nat.one_le_two_pow
  omega

/-- The loop puts the new blocks in front of those it has: each of them needs 19
words, and from one to the next the address moves by 4 modulo 8. -/
theorem carve_blocks (h : c.PoolSizes) :
    ∃ new, (carve fuel counter numSkips memoryArray memorySize c blocks).2 = new ++ blocks ∧
      19 * new.length ≤ memorySize ∧
      ∀ k b, new.reverse[k]? = some b → b % 8 = (memoryArray + 4 * k) % 8 := by
  induction fuel generalizing counter numSkips memoryArray memorySize c blocks with
  | zero => exact ⟨[], rfl, Nat.zero_le _, by simp⟩
  | succ fuel ih =>
    unfold Memcluster.carve
    dsimp only
    generalize counter % NUMBER_OF_POOLS = i
    obtain ⟨hmin, heven⟩ := h.even i
    split
    · exact ⟨[], rfl, Nat.zero_le _, by simp⟩
    · split
      · split
        · exact ih h
        · exact ⟨[], rfl, Nat.zero_le _, by simp⟩
      · rename_i hfit
        simp only [SIZEOF_MEMBLOCK] at hfit ⊢
        obtain ⟨new, hnew, hlen, hmod⟩ := @ih _ (counter + 1) numSkips
          (memoryArray + 4 * (12 / 4 + (c.pools i).blockSize))
          (memorySize - (12 / 4 + (c.pools i).blockSize)) (memoryArray :: blocks)
          (h.addBlock i memoryArray (c.pools i).blockSize)
        refine ⟨new ++ [memoryArray], ?_, ?_, ?_⟩
        · rw [hnew, List.append_assoc, List.singleton_append]
        · rw [List.length_append, List.length_singleton]
          omega
        · intro k b hk
          rw [List.reverse_append, List.reverse_singleton, List.singleton_append] at hk
          cases k with
          | zero =>
            obtain rfl : memoryArray = b := by simpa using hk
            rfl
          | succ k =>
            -- the block before took three words and an even number of them
            have hb := hmod k b (by simpa using hk)
            omega

/-- The loop never gives up a block it has made. -/
theorem carve_keeps (h : c.PoolSizes) (b : Nat) :
    blocks.length <
      (carve fuel counter numSkips memoryArray memorySize c (b :: blocks)).2.length := by
  obtain ⟨new, hnew, -⟩ :=
    @carve_blocks c fuel counter numSkips memoryArray memorySize (b :: blocks) h
  rw [hnew, List.length_append, List.length_cons]
  omega

/-- As long as there are 19 words, the loop makes a block: it reaches the pool
of the smallest blocks before it has skipped all pools. -/
theorem carve_length_lt (h : c.PoolSizes) (hsize : 19 ≤ memorySize) {d : Nat}
    (hd : (counter + d) % NUMBER_OF_POOLS = 0) (hskips : numSkips + d < NUMBER_OF_POOLS)
    (hfuel : d < fuel) :
    blocks.length <
      (carve fuel counter numSkips memoryArray memorySize c blocks).2.length := by
  induction d generalizing fuel counter numSkips with
  | zero =>
    obtain ⟨fuel, rfl⟩ := Nat.exists_eq_add_of_lt hfuel
    have hzero : (c.pools 0).blockSize = 16 := h 0
    rw [Nat.add_zero] at hd
    simp only [Nat.zero_add, Memcluster.carve, hd, hzero, SIZEOF_MEMBLOCK]
    rw [if_neg (by omega), if_neg (by omega)]
    have hmore := h.addBlock 0 memoryArray 16
    exact carve_keeps hmore memoryArray
  | succ d ih =>
    obtain ⟨fuel, rfl⟩ : ∃ n, fuel = n + 1 := ⟨fuel - 1, by omega⟩
    unfold Memcluster.carve
    dsimp only
    rw [if_neg (by omega)]
    split
    · rw [if_pos (by omega)]
      exact ih (by rw [← hd]; congr 1; omega) (by omega) (by omega)
    · exact carve_keeps (h.addBlock _ _ _) memoryArray

end Carve

/-! ## The blocks of an array -/

section Blocks

variable {memoryArray memorySize : Nat}

/-- The blocks of an 8-byte aligned array start in its second word. -/
theorem alignArray_of_aligned (hal : 8 ∣ memoryArray) (memorySize : Nat) :
    alignArray memoryArray memorySize = (memoryArray + 4, decr memorySize) := by
  refine if_pos ?_
  show (memoryArray + 12 % 8) % 4294967296 ≠ 0
  omega

theorem carvedBlocks_eq (hal : 8 ∣ memoryArray) (previous : Memcluster) :
    ∃ c, PoolSizes c ∧ carvedBlocks previous memoryArray memorySize =
      (carve (decr memorySize + NUMBER_OF_POOLS) 0 0 (memoryArray + 4) (decr memorySize)
        c []).2 := by
  refine ⟨{ previous with
    clusterInUseFLAG := 0
    memory := clearWords memorySize memoryArray previous.memory
    poolLocks := fun _ => initMutex
    pools := emptyPools }, fun _ => rfl, ?_⟩
  simp only [carvedBlocks, memoryClusterInit, alignArray_of_aligned hal]

/-- The head pointer of the block carved as number `k`, modulo 8. -/
theorem carved_headPtr_mod (hal : 8 ∣ memoryArray) (previous : Memcluster) {k b : Nat}
    (hk : (carvedBlocks previous memoryArray memorySize).reverse[k]? = some b) :
    (freshSystem previous memoryArray memorySize).cluster.headPtr b = b + 12 ∧
      (b + 12) % 8 = 4 * k % 8 := by
  constructor
  · have halign := alignArray_of_aligned hal memorySize
    obtain ⟨free, stop, -, hrep⟩ := @memoryClusterInit_rep_of_start memoryArray memorySize
      (by rw [halign]; exact Nat.le_add_right _ _) (by rw [halign]; exact Nat.succ_pos _) previous
    exact hrep.layout.headPtr_eq b (List.mem_reverse.mp (List.mem_of_getElem? hk))
  · obtain ⟨c, hsizes, heq⟩ := @carvedBlocks_eq memoryArray memorySize hal previous
    obtain ⟨new, hnew, -, hmod⟩ :=
      @carve_blocks c (decr memorySize + NUMBER_OF_POOLS) 0 0 (memoryArray + 4) (decr memorySize) []
        hsizes
    rw [heq, hnew, List.append_nil] at hk
    have hb := hmod k b hk
    omega

/-- An array of at most 38 words is not enough for two blocks, and every larger
one is. -/
theorem length_carvedBlocks_le_one (hal : 8 ∣ memoryArray) (previous : Memcluster) :
    (carvedBlocks previous memoryArray memorySize).length ≤ 1 ↔
      1 ≤ memorySize ∧ memorySize ≤ 38 := by
  obtain ⟨c, hsizes, heq⟩ := @carvedBlocks_eq memoryArray memorySize hal previous
  rw [heq]
  have hdecr : 1 ≤ memorySize ∧ memorySize ≤ 38 ↔ decr memorySize < 38 := by
    unfold decr
    split
    · simp only [UINT32_MAX]
      omega
    · omega
  rw [hdecr]
  constructor
  · intro hone
    by_contra hlarge
    have hzero : (c.pools 0).blockSize = 16 := hsizes 0
    -- after the first block, from the smallest pool, there are 19 words left
    have htwo := @carve_length_lt _ (decr memorySize + 4) 1 0 (memoryArray + 4 + 4 * 19)
      (decr memorySize - 19) [memoryArray + 4] (hsizes.addBlock 0 (memoryArray + 4) 16)
      (by omega) 4 rfl (by decide) (by omega)
    rw [show decr memorySize + NUMBER_OF_POOLS = decr memorySize + 4 + 1 from rfl] at hone
    simp only [Memcluster.carve, SIZEOF_MEMBLOCK, Nat.zero_mod, hzero] at hone
    rw [if_neg (by omega), if_neg (by omega)] at hone
    exact absurd hone (Nat.not_le_of_lt htwo)
  · intro hsmall
    obtain ⟨new, hnew, hlen, -⟩ :=
      @carve_blocks c (decr memorySize + NUMBER_OF_POOLS) 0 0 (memoryArray + 4) (decr memorySize) []
        hsizes
    rw [hnew, List.append_nil]
    omega

end Blocks

/-! ## Runs of calls -/

/-- The pointer `allocate` returns is `NULL` or that of one of the blocks. -/
theorem Accounted.allocate_mem {memoryArray stop : Nat} {blocks : List Nat} {s : System}
    (h : Accounted memoryArray stop blocks s) {fuel caller requiredSize p : Nat} {c' : Memcluster}
    (hc : s.cluster.allocate fuel caller requiredSize = some (c', p)) :
    p = NULL ∨ ∃ b ∈ blocks, p = b + 12 := by
  obtain ⟨free, bucket, hrep, -⟩ := h
  rcases hrep.allocate hc with ⟨hp, -⟩ | ⟨b, hb, hp, -⟩
  · exact .inl hp
  · exact .inr ⟨b, hb, hp⟩

/-- The memory of every block is 8-byte aligned, and so is every pointer
`allocate` returns in any run of calls. -/
def HandsOutAligned (previous : Memcluster) (memoryArray memorySize : Nat) : Prop :=
  (∀ b ∈ carvedBlocks previous memoryArray memorySize,
    8 ∣ (freshSystem previous memoryArray memorySize).cluster.headPtr b) ∧
  ∀ s, (machine previous memoryArray memorySize).Reach s →
    ∀ fuel caller requiredSize c' p,
      s.cluster.allocate fuel caller requiredSize = some (c', p) → p ≠ NULL → 8 ∣ p

/-- **Alignment**: an 8-byte aligned array hands out only 8-byte aligned memory
exactly when it has between 1 and 38 words. -/
theorem handsOutAligned_iff {memoryArray memorySize : Nat} (hal : 8 ∣ memoryArray)
    (hfit : memoryArray + 4 * memorySize ≤ 4294967296) (previous : Memcluster) :
    HandsOutAligned previous memoryArray memorySize ↔ 1 ≤ memorySize ∧ memorySize ≤ 38 := by
  rw [← length_carvedBlocks_le_one hal previous]
  constructor
  · rintro ⟨hblocks, -⟩
    by_contra hmany
    -- the second block is 4 bytes off
    have hsecond : 1 < (carvedBlocks previous memoryArray memorySize).reverse.length := by
      rw [List.length_reverse]
      omega
    have hget := List.getElem?_eq_getElem hsecond
    obtain ⟨hhead, hmod⟩ := carved_headPtr_mod hal previous hget
    have hdvd := hblocks _ (List.mem_reverse.mp (List.getElem_mem hsecond))
    rw [hhead] at hdvd
    omega
  · intro hone
    have hmem : ∀ b ∈ carvedBlocks previous memoryArray memorySize,
        (freshSystem previous memoryArray memorySize).cluster.headPtr b = b + 12 ∧
          8 ∣ b + 12 := by
      intro b hb
      have hfirst : (carvedBlocks previous memoryArray memorySize).reverse[0]? = some b := by
        obtain ⟨b', hb'⟩ := List.length_eq_one_iff.mp
          (Nat.le_antisymm hone (List.length_pos_of_mem hb))
        rw [hb'] at hb ⊢
        rw [List.mem_singleton.mp hb]
        rfl
      obtain ⟨hhead, hmod⟩ := carved_headPtr_mod hal previous hfirst
      exact ⟨hhead, by omega⟩
    constructor
    · intro b hb
      rw [(hmem b hb).1]
      exact (hmem b hb).2
    · intro s hs fuel caller requiredSize c' p hc hp
      have hwords := ((length_carvedBlocks_le_one hal previous).mp hone).1
      obtain ⟨stop, -, hacc⟩ := reach_accounted hwords hfit previous
      rcases (hacc s hs).allocate_mem hc with hnull | ⟨b, hb, rfl⟩
      · exact absurd hnull hp
      · exact (hmem b hb).2

/-- Alignment of an array of 30 words, which has room for one block. -/
theorem handsOutAligned_iff_oneBlock : HandsOutAligned staleCluster 4096 30 :=
  (handsOutAligned_iff (by decide) (by decide) staleCluster).mpr (by decide)

/-- The second block of an array of 60 words starts 4 bytes behind a multiple of
8, and the second allocation hands it out. -/
theorem handsOut_misaligned :
    8 ∣ 4096 ∧ (∃ b ∈ carvedBlocks staleCluster 4096 60,
      (freshSystem staleCluster 4096 60).cluster.headPtr b = 4188) ∧
    (∃ s c', (machine staleCluster 4096 60).Reach s ∧
      s.cluster.allocate 5 80 20 = some (c', 4188)) ∧ ¬ 8 ∣ 4188 := by
  refine ⟨by decide, by decide +kernel, ?_, by decide⟩
  have hfirst : ((machine staleCluster 4096 60).run (freshSystem staleCluster 4096 60)
      [.allocate 5 80 10]).bind (fun s => (s.cluster.allocate 5 80 20).map Prod.snd) =
        some 4188 := by decide +kernel
  obtain ⟨s, hs, hsecond⟩ := Option.bind_eq_some_iff.mp hfirst
  obtain ⟨⟨c', p⟩, hc, hp⟩ := Option.map_eq_some_iff.mp hsecond
  obtain rfl : p = 4188 := hp
  exact ⟨s, c', Machine.Reach.run (.init rfl) hs, hc⟩

end DocetOS.Memcluster
