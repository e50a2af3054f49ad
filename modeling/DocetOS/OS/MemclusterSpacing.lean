import DocetOS.OS.MemclusterCarving

/-!
# How far apart blocks of one size lie

The loop of `memory_cluster_init` takes the pools in turn, and from a block to
the next one of its size it takes whole rounds of 511 words, less the words of
the pools it skips. It skips four pools at most, and all of them have larger
blocks.

- `Carving`: the invariant of the loop, kept by a skip and by a block.
- `carvedBlocks_spaced`: what it says of two blocks of one size (`Spaced`).
- `skips_table`: the distances this rules out.
- `shifted_ne`: the pointer 64 words below the end of a stack is not that of
  another block of the same size.
-/

namespace DocetOS.Memcluster

open Lib

/-! ## Rounds and skips -/

/-- The words that a block of a pool needs. -/
def requiredWords (poolIdx : Nat) : Nat := SIZEOF_MEMBLOCK / 4 + 2 ^ (poolIdx + SMALLEST_BLOCK_SIZE)

/-- The words that `counter` rounds of the loop take, when none is a skip. -/
def roundWords : Nat → Nat
  | 0 => 0
  | counter + 1 => roundWords counter + requiredWords (counter % NUMBER_OF_POOLS)

/-- The words that the skipped pools would have needed. -/
def skippedWords (skipped : List Nat) : Nat := (skipped.map requiredWords).sum

theorem roundWords_add_pools (counter : Nat) :
    roundWords (counter + NUMBER_OF_POOLS) = roundWords counter + cycleWords := by
  induction counter with
  | zero => decide
  | succ counter ih =>
    have hmod : (counter + NUMBER_OF_POOLS) % NUMBER_OF_POOLS = counter % NUMBER_OF_POOLS :=
      Nat.add_mod_right _ _
    rw [Nat.add_right_comm, roundWords, ih, hmod, roundWords]
    omega

theorem roundWords_add_rounds (counter rounds : Nat) :
    roundWords (counter + NUMBER_OF_POOLS * rounds) = roundWords counter + cycleWords * rounds := by
  induction rounds with
  | zero => rfl
  | succ rounds ih =>
    rw [Nat.mul_succ, Nat.mul_succ, ← Nat.add_assoc counter (NUMBER_OF_POOLS * rounds)
      NUMBER_OF_POOLS, roundWords_add_pools, ih, Nat.add_assoc]

theorem skippedWords_append (new old : List Nat) :
    skippedWords (new ++ old) = skippedWords new + skippedWords old := by
  simp [skippedWords]

/-- A block `b` made after the block `b'`: if they have the same size, there are
whole rounds from one to the other, less the pools skipped in between. -/
def Spaced (c : Memcluster) (b b' : Nat) : Prop :=
  b' < b ∧ (c.blockSize b = c.blockSize b' → ∃ rounds skipped,
    skipped.length < NUMBER_OF_POOLS ∧
      (∀ j ∈ skipped, j < NUMBER_OF_POOLS ∧ c.blockSize b < 2 ^ (j + SMALLEST_BLOCK_SIZE)) ∧
      b + 4 * skippedWords skipped = b' + 4 * (cycleWords * rounds))

/-! ## The invariant of the loop -/

/-- What a block was made of: its round, and the pools skipped before it. -/
def Placed (c : Memcluster) (start counter : Nat) (skipped : List Nat) (memoryArray b : Nat) :
    Prop :=
  b + 12 ≤ memoryArray ∧ ∃ round new old, round < counter ∧ skipped = new ++ old ∧
    b + 4 * skippedWords old = start + 4 * roundWords round ∧
    c.blockSize b = 2 ^ (round % NUMBER_OF_POOLS + SMALLEST_BLOCK_SIZE)

/-- The state of the loop that carves the array from `start` on; `skipped` are
the pools it has skipped, last one first. -/
structure Carving (c : Memcluster) (start counter : Nat) (skipped : List Nat)
    (memoryArray memorySize : Nat) (blocks : List Nat) : Prop where
  sizes : c.PoolSizes
  position : memoryArray + 4 * skippedWords skipped = start + 4 * roundWords counter
  few : skipped.length < NUMBER_OF_POOLS
  large : ∀ j ∈ skipped, j < NUMBER_OF_POOLS ∧ memorySize < requiredWords j
  placed : ∀ b ∈ blocks, c.Placed start counter skipped memoryArray b
  spaced : blocks.Pairwise c.Spaced

section Carving

variable {c c' : Memcluster} {start counter memoryArray memorySize b b' : Nat}
  {skipped blocks : List Nat}

theorem Spaced.congr (h : c.Spaced b b') (hb : c'.blockSize b = c.blockSize b)
    (hb' : c'.blockSize b' = c.blockSize b') : c'.Spaced b b' := by
  unfold Spaced
  rw [hb, hb']
  exact h

theorem Carving.empty (h : c.PoolSizes) (memoryArray memorySize : Nat) :
    c.Carving memoryArray 0 [] memoryArray memorySize [] where
  sizes := h
  position := rfl
  few := by decide
  large _ hj := absurd hj List.not_mem_nil
  placed _ hb := absurd hb List.not_mem_nil
  spaced := .nil

/-- A pool whose blocks are too large is skipped. -/
theorem Carving.skip (h : c.Carving start counter skipped memoryArray memorySize blocks)
    (hlarge : memorySize < requiredWords (counter % NUMBER_OF_POOLS))
    (hfew : skipped.length + 1 < NUMBER_OF_POOLS) :
    c.Carving start (counter + 1) (counter % NUMBER_OF_POOLS :: skipped) memoryArray memorySize
      blocks where
  sizes := h.sizes
  position := by
    have hposition := h.position
    simp only [skippedWords, List.map_cons, List.sum_cons, roundWords] at hposition ⊢
    omega
  few := hfew
  large := List.forall_mem_cons.mpr ⟨⟨Nat.mod_lt _ (by decide), hlarge⟩, h.large⟩
  placed b hb := by
    obtain ⟨hbelow, round, new, old, hround, hskipped, hrest⟩ := h.placed b hb
    refine ⟨hbelow, round, counter % NUMBER_OF_POOLS :: new, old, by omega, ?_, hrest⟩
    rw [hskipped, List.cons_append]
  spaced := h.spaced

/-- The block made next is spaced from those there are. -/
theorem Carving.spaced_next (h : c.Carving start counter skipped memoryArray memorySize blocks)
    (hfits : requiredWords (counter % NUMBER_OF_POOLS) ≤ memorySize)
    (hsize : c'.blockSize memoryArray =
      2 ^ (counter % NUMBER_OF_POOLS + SMALLEST_BLOCK_SIZE))
    (hold : c'.blockSize b = c.blockSize b) (hb : b ∈ blocks) : c'.Spaced memoryArray b := by
  obtain ⟨hbelow, round, new, old, hround, hskipped, hplace, hround'⟩ := h.placed b hb
  refine ⟨by omega, ?_⟩
  intro heq
  rw [hsize, hold, hround'] at heq
  -- the same size means the same pool, so there are whole rounds between them
  have hpool : counter % NUMBER_OF_POOLS = round % NUMBER_OF_POOLS :=
    Nat.add_right_cancel (Nat.pow_right_injective (Nat.le_refl 2) heq)
  obtain ⟨rounds, rfl⟩ : ∃ rounds, counter = round + NUMBER_OF_POOLS * rounds := by
    refine ⟨(counter - round) / NUMBER_OF_POOLS, ?_⟩
    rw [show NUMBER_OF_POOLS = 5 from rfl] at hpool ⊢
    omega
  have hposition := h.position
  have hfew := h.few
  rw [hskipped, List.length_append] at hfew
  rw [hskipped, skippedWords_append, roundWords_add_rounds] at hposition
  refine ⟨rounds, new, by omega, ?_, by omega⟩
  intro j hj
  obtain ⟨hpools, hlarge⟩ := h.large j (by rw [hskipped]; exact List.mem_append_left _ hj)
  refine ⟨hpools, ?_⟩
  rw [hsize]
  unfold requiredWords at hfits hlarge
  omega

/-- A pool whose blocks fit gets one. -/
theorem Carving.block (h : c.Carving start counter skipped memoryArray memorySize blocks)
    (hfits : requiredWords (counter % NUMBER_OF_POOLS) ≤ memorySize) :
    Carving ((c.writeHeader memoryArray (c.pools (counter % NUMBER_OF_POOLS)).blockSize
        ).addBlockToPool (counter % NUMBER_OF_POOLS) memoryArray)
      start (counter + 1) skipped
      (memoryArray + 4 * requiredWords (counter % NUMBER_OF_POOLS))
      (memorySize - requiredWords (counter % NUMBER_OF_POOLS)) (memoryArray :: blocks) := by
  have hsize : ((c.writeHeader memoryArray (c.pools (counter % NUMBER_OF_POOLS)).blockSize
      ).addBlockToPool (counter % NUMBER_OF_POOLS) memoryArray).blockSize memoryArray =
        2 ^ (counter % NUMBER_OF_POOLS + SMALLEST_BLOCK_SIZE) := by
    rw [← h.sizes]
    simp [Memcluster.addBlockToPool, Memcluster.writeHeader, setPool, write, blockSize]
  -- the header is written behind the blocks there are
  have hold : ∀ b ∈ blocks, ((c.writeHeader memoryArray
      (c.pools (counter % NUMBER_OF_POOLS)).blockSize).addBlockToPool
        (counter % NUMBER_OF_POOLS) memoryArray).blockSize b = c.blockSize b := by
    intro b hb
    have hbelow := (h.placed b hb).1
    simp only [Memcluster.addBlockToPool, Memcluster.writeHeader, setPool, write, blockSize]
    rw [Function.update_of_ne (by omega), Function.update_of_ne (by omega),
      Function.update_of_ne (by omega), Function.update_of_ne (by omega)]
  have hnext := fun b hb => h.spaced_next hfits hsize (hold b hb) hb
  have hposition := h.position
  have hwords : 12 ≤ 4 * requiredWords (counter % NUMBER_OF_POOLS) := by
    unfold requiredWords
    simp only [SIZEOF_MEMBLOCK]
    omega
  constructor
  · exact h.sizes.addBlock _ _ _
  · rw [roundWords]
    omega
  · exact h.few
  · intro j hj
    have := h.large j hj
    omega
  · refine List.forall_mem_cons.mpr ⟨?_, ?_⟩
    · exact ⟨by omega, counter, [], skipped, Nat.lt_succ_self counter, rfl, hposition, hsize⟩
    · intro b hb
      obtain ⟨hbelow, round, new, old, hround, hskipped, hplace, hround'⟩ := h.placed b hb
      exact ⟨by omega, round, new, old, by omega, hskipped, hplace, (hold b hb).trans hround'⟩
  · refine List.pairwise_cons.mpr ⟨hnext, ?_⟩
    exact h.spaced.imp_of_mem fun hb hb' hspaced => hspaced.congr (hold _ hb) (hold _ hb')

/-- The loop makes blocks that are spaced. -/
theorem Carving.carve {fuel : Nat}
    (h : c.Carving start counter skipped memoryArray memorySize blocks) :
    (carve fuel counter skipped.length memoryArray memorySize c blocks).2.Pairwise
      (carve fuel counter skipped.length memoryArray memorySize c blocks).1.Spaced := by
  induction fuel generalizing counter skipped memoryArray memorySize c blocks with
  | zero => exact h.spaced
  | succ fuel ih =>
    have hrequired : requiredWords (counter % NUMBER_OF_POOLS) =
        SIZEOF_MEMBLOCK / 4 + (c.pools (counter % NUMBER_OF_POOLS)).blockSize := by
      rw [h.sizes]
      rfl
    unfold Memcluster.carve
    dsimp only
    rw [← hrequired]
    split
    · exact h.spaced
    · split
      · rename_i hlarge
        split
        · rename_i hfew
          exact ih (h.skip hlarge hfew)
        · exact h.spaced
      · rename_i hfits
        exact ih (h.block (not_lt.mp hfits))

end Carving

/-- **Spacing**: the blocks of `memory_cluster_init` are spaced. -/
theorem carvedBlocks_spaced (previous : Memcluster) (memoryArray memorySize : Nat) :
    (carvedBlocks previous memoryArray memorySize).Pairwise
      (memoryClusterInit previous memoryArray memorySize).1.Spaced := by
  have hempty : Carving { previous with
      clusterInUseFLAG := 0
      memory := clearWords memorySize memoryArray previous.memory
      poolLocks := fun _ => initMutex
      pools := emptyPools } (alignArray memoryArray memorySize).1 0 []
      (alignArray memoryArray memorySize).1 (alignArray memoryArray memorySize).2 [] :=
    .empty (fun _ => rfl) _ _
  have hcarved := @Carving.carve _ _ _ _ _ _ _
    ((alignArray memoryArray memorySize).2 + NUMBER_OF_POOLS) hempty
  exact hcarved.imp fun hspaced => hspaced.congr rfl rfl

/-! ## Distances -/

/-- The words that at most `n` skips of the pools `larger` leave out. -/
def skipWords (larger : List Nat) : Nat → List Nat
  | 0 => [0]
  | n + 1 => 0 :: larger.flatMap fun j => (skipWords larger n).map (requiredWords j + ·)

theorem skippedWords_mem {larger skipped : List Nat} {n : Nat} (hlength : skipped.length ≤ n)
    (hlarger : ∀ j ∈ skipped, j ∈ larger) : skippedWords skipped ∈ skipWords larger n := by
  induction n generalizing skipped with
  | zero =>
    obtain rfl := List.length_eq_zero_iff.mp (Nat.le_zero.mp hlength)
    exact List.mem_singleton_self 0
  | succ n ih =>
    cases skipped with
    | nil => exact List.mem_cons_self
    | cons j skipped =>
      obtain ⟨hj, hskipped⟩ := List.forall_mem_cons.mp hlarger
      refine List.mem_cons_of_mem _ (List.mem_flatMap.mpr ⟨j, hj, ?_⟩)
      exact List.mem_map.mpr ⟨_, ih (Nat.le_of_succ_le_succ hlength) hskipped, rfl⟩

/-- The pools with larger blocks than pool `i`. -/
def largerPools (i : Nat) : List Nat := (List.range NUMBER_OF_POOLS).filter fun j => i < j

/-- A stack of less than 64 words is too short by `d` words. Blocks that hold it
but are no longer than `d` words are not `d` words apart, nor as many words as
there are in the address space but for `d`. -/
theorem skips_table : ∀ i < NUMBER_OF_POOLS, ∀ d < 49,
    requiredWords i ≤ d ∧ 64 ≤ d + 2 ^ (i + SMALLEST_BLOCK_SIZE) →
    ∀ words ∈ skipWords (largerPools i) (NUMBER_OF_POOLS - 1),
      (d + words) % cycleWords ≠ 0 ∧ (1073741824 - d + words) % cycleWords ≠ 0 := by
  decide +kernel

section Shifted

variable {c : Memcluster} {b b' : Nat}

/-- The distance of two blocks of one size is none of those of `skips_table`. -/
theorem Spaced.distance (h : c.Spaced b b') (hsize : c.blockSize b = c.blockSize b') {i d : Nat}
    (hi : i < NUMBER_OF_POOLS) (hpool : c.blockSize b = 2 ^ (i + SMALLEST_BLOCK_SIZE))
    (hd : d < 49) (hfits : requiredWords i ≤ d) (hstack : 64 ≤ d + c.blockSize b) :
    b ≠ b' + 4 * d ∧ b + 4 * d ≠ b' + 4294967296 := by
  obtain ⟨-, hrounds⟩ := h
  obtain ⟨rounds, skipped, hfew, hlarge, hdist⟩ := hrounds hsize
  have hlarger : ∀ j ∈ skipped, j ∈ largerPools i := by
    intro j hj
    obtain ⟨hpools, hlt⟩ := hlarge j hj
    rw [hpool] at hlt
    have hij := Nat.lt_of_add_lt_add_right ((Nat.pow_lt_pow_iff_right (by decide)).mp hlt)
    exact List.mem_filter.mpr ⟨List.mem_range.mpr hpools, decide_eq_true hij⟩
  obtain ⟨hnear, hfar⟩ := skips_table i hi d hd ⟨hfits, hpool ▸ hstack⟩ _
    (skippedWords_mem (Nat.le_pred_of_lt hfew) hlarger)
  rw [show cycleWords = 511 from rfl] at hnear hfar hdist
  constructor
  · intro heq
    omega
  · intro heq
    omega

/-- **Shifted pointers**: the pointer 64 words below the end of a stack is not
that of another block of the same size. -/
theorem shifted_ne {start stop n : Nat} {blocks : List Nat} (h : c.Layout start stop blocks)
    (hstop : stop ≤ 4294967296) (hspaced : blocks.Pairwise c.Spaced) (hb : b ∈ blocks)
    (hb' : b' ∈ blocks) (hne : b ≠ b') (hsize : c.blockSize b = c.blockSize b') (hframe : 16 ≤ n)
    (hn : n ≤ c.blockSize b) :
    wrap (b + 12 + 4 * n + (4294967296 - 4 * 64)) ≠ b' + 12 := by
  intro heq
  have hapart := h.apart_of_ne hb hb' hne
  have hinside := (h.inside b hb).2
  have hinside' := (h.inside b' hb').2
  obtain ⟨i, hi, hpool⟩ := h.blockSize_eq b hb
  unfold Apart at hapart
  unfold blockEnd at hapart hinside hinside'
  rw [← hsize] at hapart hinside'
  unfold wrap at heq
  -- a longer stack would put the pointer in the block itself
  have hshort : n < 64 := by omega
  have hfits : requiredWords i ≤ 64 - n := by
    unfold requiredWords
    simp only [SIZEOF_MEMBLOCK]
    rw [← hpool]
    omega
  have hsymm : c.Spaced b b' ∨ c.Spaced b' b := by
    have hor : blocks.Pairwise fun b b' => c.Spaced b b' ∨ c.Spaced b' b :=
      hspaced.imp Or.inl
    have : Std.Symm fun (b b' : Nat) => c.Spaced b b' ∨ c.Spaced b' b := ⟨fun _ _ => Or.symm⟩
    exact hor.forall hb hb' hne
  rcases hsymm with hbb | hbb
  · have hdist := hbb.distance hsize hi hpool (d := 64 - n) (by omega) hfits (by omega)
    have hlt := hbb.1
    omega
  · have hdist := hbb.distance hsize.symm hi (hsize ▸ hpool) (d := 64 - n) (by omega) hfits
      (by omega)
    have hlt := hbb.1
    omega

end Shifted

end DocetOS.Memcluster
