import DocetOS.OS.MemclusterAlignment

/-!
# How much of the memory is carved

The loop of `memory_cluster_init` takes the pools in turn. It is meant to stop
when no block fits any more, which it counts with `numSkips`, "the largest
sequence of block allocations" that were skipped. The count is not reset when a
block does fit, so the loop stops after five skips in all.

- `carveLoop`: the loop with the words it leaves, `carve_of_carveLoop` ties it
  to `carve`.
- `carveLoop_words`: what is left depends on the number of words only.
- `wordsLeft_add_cycle`: a round through all pools without a skip takes 511
  words, so what is left depends on the number of words modulo 511.
- `usesAllMemory_iff`: the sizes for which less than the smallest block is left.
-/

namespace DocetOS.Memcluster

open Lib

/-! ## The loop with what it leaves -/

/-- The loop of `memory_cluster_init` that turns words into blocks, with the
value of `memory_Size_in_4byte_words` when it stops. -/
def carveLoop : Nat → Nat → Nat → Nat → Nat → Memcluster → List Nat →
    Option ((Memcluster × List Nat) × Nat)
  | 0, _, _, _, _, _, _ => none
  | fuel + 1, counter, numSkips, memoryArray, memorySize, c, blocks =>
    if memorySize = 0 then some ((c, blocks), memorySize)
    else
      let poolIdx := counter % NUMBER_OF_POOLS
      let blockSize := (c.pools poolIdx).blockSize
      let requiredMemoryForBlock := SIZEOF_MEMBLOCK / 4 + blockSize
      if requiredMemoryForBlock > memorySize then
        if numSkips + 1 < NUMBER_OF_POOLS then
          carveLoop fuel (counter + 1) (numSkips + 1) memoryArray memorySize c blocks
        else some ((c, blocks), memorySize)
      else
        let blockPtr := memoryArray
        let c := c.writeHeader blockPtr blockSize
        carveLoop fuel (counter + 1) numSkips (memoryArray + 4 * requiredMemoryForBlock)
          (memorySize - requiredMemoryForBlock) (c.addBlockToPool poolIdx blockPtr)
          (blockPtr :: blocks)

/-- `memory_cluster_init` up to the end of its loop. -/
def carveArray (c : Memcluster) (fuel memoryArray memorySize : Nat) :
    Option ((Memcluster × List Nat) × Nat) :=
  let c := { c with
    clusterInUseFLAG := 0
    memory := clearWords memorySize memoryArray c.memory }
  let (array, size) := alignArray memoryArray memorySize
  let c := { c with
    poolLocks := fun _ => initMutex
    pools := emptyPools }
  carveLoop fuel 0 0 array size c []

/-- The loop on the number of words alone, for pools of the sizes
`memory_cluster_init` gives them. -/
def wordsLeft : Nat → Nat → Nat → Nat → Option Nat
  | 0, _, _, _ => none
  | fuel + 1, counter, numSkips, memorySize =>
    if memorySize = 0 then some memorySize
    else
      let required := SIZEOF_MEMBLOCK / 4 + 2 ^ (counter % NUMBER_OF_POOLS + SMALLEST_BLOCK_SIZE)
      if required > memorySize then
        if numSkips + 1 < NUMBER_OF_POOLS then
          wordsLeft fuel (counter + 1) (numSkips + 1) memorySize
        else some memorySize
      else wordsLeft fuel (counter + 1) numSkips (memorySize - required)

section Loop

variable {c : Memcluster} {fuel counter numSkips memoryArray memorySize : Nat} {blocks : List Nat}

/-- When the loop stops it has carved what `carve` has. -/
theorem carve_of_carveLoop {r : Memcluster × List Nat} {rest : Nat}
    (h : carveLoop fuel counter numSkips memoryArray memorySize c blocks = some (r, rest)) :
    carve fuel counter numSkips memoryArray memorySize c blocks = r := by
  -- both loops take the same branches; only `carveLoop` tells that it has stopped
  induction fuel generalizing counter numSkips memoryArray memorySize c blocks with
  | zero => cases h
  | succ fuel ih =>
    unfold Memcluster.carve
    unfold Memcluster.carveLoop at h
    dsimp only at h ⊢
    split at h
    · rename_i hzero
      rw [if_pos hzero]
      cases h
      rfl
    · rename_i hne
      rw [if_neg hne]
      split at h
      · rename_i hlarge
        rw [if_pos hlarge]
        split at h
        · rename_i hskip
          rw [if_pos hskip]
          exact ih h
        · rename_i hstop
          rw [if_neg hstop]
          cases h
          rfl
      · rename_i hfits
        rw [if_neg hfits]
        exact ih h

/-- What the loop leaves depends on the number of words only. -/
theorem carveLoop_words (h : c.PoolSizes) :
    (carveLoop fuel counter numSkips memoryArray memorySize c blocks).map Prod.snd =
      wordsLeft fuel counter numSkips memorySize := by
  induction fuel generalizing counter numSkips memoryArray memorySize c blocks with
  | zero => rfl
  | succ fuel ih =>
    unfold Memcluster.carveLoop wordsLeft
    dsimp only
    rw [← h (counter % NUMBER_OF_POOLS)]
    split
    · rfl
    · split
      · split
        · exact ih h
        · rfl
      · exact ih (h.addBlock _ _ _)

/-- **Termination**: each round carves words or is one of five skips. -/
theorem wordsLeft_isSome (hf : memorySize + (NUMBER_OF_POOLS - numSkips) ≤ fuel)
    (hskips : numSkips < NUMBER_OF_POOLS) :
    ∃ rest, wordsLeft fuel counter numSkips memorySize = some rest := by
  induction fuel generalizing counter numSkips memorySize with
  | zero => omega
  | succ fuel ih =>
    unfold wordsLeft
    dsimp only
    generalize 2 ^ (counter % NUMBER_OF_POOLS + SMALLEST_BLOCK_SIZE) = blockSize
    split
    · exact ⟨_, rfl⟩
    · split
      · split
        · exact ih (by omega) (by omega)
        · exact ⟨_, rfl⟩
      · refine ih ?_ hskips
        simp only [SIZEOF_MEMBLOCK]
        omega

/-- A larger bound changes nothing. -/
theorem carveLoop_mono {r : (Memcluster × List Nat) × Nat} (more : Nat)
    (h : carveLoop fuel counter numSkips memoryArray memorySize c blocks = some r) :
    carveLoop (fuel + more) counter numSkips memoryArray memorySize c blocks = some r := by
  induction fuel generalizing counter numSkips memoryArray memorySize c blocks with
  | zero => cases h
  | succ fuel ih =>
    rw [Nat.succ_add]
    unfold Memcluster.carveLoop at h ⊢
    dsimp only at h ⊢
    split at h
    · rename_i hzero
      rw [if_pos hzero]
      exact h
    · rename_i hne
      rw [if_neg hne]
      split at h
      · rename_i hlarge
        rw [if_pos hlarge]
        split at h
        · rename_i hskip
          rw [if_pos hskip]
          exact ih h
        · rename_i hstop
          rw [if_neg hstop]
          exact h
      · rename_i hfits
        rw [if_neg hfits]
        exact ih h

end Loop

/-! ## Rounds through all pools -/

/-- The words a round takes in which every pool gets a block. -/
def cycleWords : Nat :=
  ((List.range NUMBER_OF_POOLS).map fun i =>
    SIZEOF_MEMBLOCK / 4 + 2 ^ (i + SMALLEST_BLOCK_SIZE)).sum

example : cycleWords = 511 := by decide

/-- The loop sees its counter modulo the number of pools. -/
theorem wordsLeft_counter (fuel counter numSkips words : Nat) :
    wordsLeft fuel (counter + NUMBER_OF_POOLS) numSkips words =
      wordsLeft fuel counter numSkips words := by
  induction fuel generalizing counter numSkips words with
  | zero => rfl
  | succ fuel ih =>
    unfold wordsLeft
    rw [Nat.add_mod_right, Nat.add_right_comm counter NUMBER_OF_POOLS 1]
    simp only [ih]

/-- A round that makes a block. -/
theorem wordsLeft_fits {required : Nat} (fuel counter numSkips words : Nat)
    (h : SIZEOF_MEMBLOCK / 4 + 2 ^ (counter % NUMBER_OF_POOLS + SMALLEST_BLOCK_SIZE) = required) :
    wordsLeft (fuel + 1) counter numSkips (words + required) =
      wordsLeft fuel (counter + 1) numSkips words := by
  have hpos : 0 < required := by
    rw [← h]
    exact Nat.add_pos_left (by decide) _
  conv_lhs => unfold wordsLeft
  dsimp only
  rw [h, if_neg (by omega), if_neg (by omega), Nat.add_sub_cancel]

/-- With enough words the loop makes a block of every size and starts over. -/
theorem wordsLeft_add_cycle (fuel words : Nat) :
    wordsLeft (fuel + NUMBER_OF_POOLS) 0 0 (words + cycleWords) = wordsLeft fuel 0 0 words := by
  calc wordsLeft (fuel + 5) 0 0 (words + 259 + 131 + 67 + 35 + 19)
    _ = wordsLeft (fuel + 4) 1 0 (words + 259 + 131 + 67 + 35) := wordsLeft_fits _ _ _ _ rfl
    _ = wordsLeft (fuel + 3) 2 0 (words + 259 + 131 + 67) := wordsLeft_fits _ _ _ _ rfl
    _ = wordsLeft (fuel + 2) 3 0 (words + 259 + 131) := wordsLeft_fits _ _ _ _ rfl
    _ = wordsLeft (fuel + 1) 4 0 (words + 259) := wordsLeft_fits _ _ _ _ rfl
    _ = wordsLeft fuel (0 + NUMBER_OF_POOLS) 0 words := wordsLeft_fits _ _ _ _ rfl
    _ = wordsLeft fuel 0 0 words := wordsLeft_counter _ _ _ _

/-- Any number of whole rounds leaves the words to the rounds after them. -/
theorem wordsLeft_add_cycles (fuel words rounds : Nat) :
    wordsLeft (fuel + NUMBER_OF_POOLS * rounds) 0 0 (words + cycleWords * rounds) =
      wordsLeft fuel 0 0 words := by
  induction rounds with
  | zero => rfl
  | succ rounds ih =>
    rw [Nat.mul_succ, Nat.mul_succ, ← Nat.add_assoc fuel (NUMBER_OF_POOLS * rounds) NUMBER_OF_POOLS,
      ← Nat.add_assoc words (cycleWords * rounds) cycleWords, wordsLeft_add_cycle, ih]

/-! ## What is left -/

/-- The numbers of words below a whole round of which the loop leaves less than
the smallest block needs, as intervals. -/
def filledUp : List (Nat × Nat) :=
  [(0, 91), (108, 158), (175, 193), (242, 289), (306, 343), (360, 410), (427, 445), (494, 510)]

/-- The loop fills up this number of words. -/
def FillsUp (words : Nat) : Prop :=
  ∃ interval ∈ filledUp,
    interval.1 ≤ words % cycleWords ∧ words % cycleWords ≤ interval.2

instance (words : Nat) : Decidable (FillsUp words) :=
  inferInstanceAs (Decidable (∃ interval ∈ filledUp, _ ∧ _))

/-- The runs on less than a whole round: none takes more than 20 rounds. -/
theorem wordsLeft_table : ∀ words < cycleWords, ∃ rest ∈ wordsLeft 20 0 0 words,
    rest < SIZEOF_MEMBLOCK / 4 + 2 ^ SMALLEST_BLOCK_SIZE ↔ FillsUp words := by
  decide +kernel

section Left

variable {c : Memcluster} {memoryArray : Nat} {blocks : List Nat}

/-- The loop stops, and what it leaves is decided by what the rounds after the
last whole one leave. -/
theorem carveLoop_left (h : c.PoolSizes) (words : Nat) :
    ∃ r rest,
      (∀ fuel, words + NUMBER_OF_POOLS ≤ fuel →
        carveLoop fuel 0 0 memoryArray words c blocks = some (r, rest)) ∧
      (rest < SIZEOF_MEMBLOCK / 4 + 2 ^ SMALLEST_BLOCK_SIZE ↔ FillsUp words) := by
  have hwords : words % cycleWords + cycleWords * (words / cycleWords) = words :=
    Nat.mod_add_div _ _
  have hmod : FillsUp (words % cycleWords) ↔ FillsUp words := by
    unfold FillsUp
    rw [Nat.mod_mod]
  obtain ⟨rest, hrest, hiff⟩ := wordsLeft_table (words % cycleWords) (Nat.mod_lt _ (by decide))
  -- the run through the whole rounds and the one after them
  have hcycles : wordsLeft (20 + NUMBER_OF_POOLS * (words / cycleWords)) 0 0 words = some rest := by
    have hall := wordsLeft_add_cycles 20 (words % cycleWords) (words / cycleWords)
    rw [hwords] at hall
    exact hall.trans hrest
  rw [← @carveLoop_words c _ 0 0 memoryArray words blocks h, Option.map_eq_some_iff] at hcycles
  obtain ⟨⟨r, rest'⟩, hrun, heq⟩ := hcycles
  obtain rfl : rest' = rest := heq
  refine ⟨r, rest', ?_, hiff.trans hmod⟩
  intro fuel hfuel
  -- the bound is large enough for some result, and there is only one
  obtain ⟨left, hleft⟩ := @wordsLeft_isSome fuel 0 0 words hfuel (by decide)
  rw [← @carveLoop_words c _ 0 0 memoryArray words blocks h, Option.map_eq_some_iff] at hleft
  obtain ⟨result, hresult, -⟩ := hleft
  have hsame := carveLoop_mono (20 + NUMBER_OF_POOLS * (words / cycleWords)) hresult
  rw [Nat.add_comm, carveLoop_mono fuel hrun] at hsame
  rw [hresult, hsame]

end Left

/-! ## `memory_cluster_init` -/

section Init

variable (previous : Memcluster) (memoryArray memorySize : Nat)

/-- `memory_cluster_init` returns the cluster `carveArray` ends with. -/
theorem memoryClusterInit_of_carveArray {fuel : Nat} {r : Memcluster × List Nat} {rest : Nat}
    (h : previous.carveArray fuel memoryArray memorySize = some (r, rest)) :
    memoryClusterInit previous memoryArray memorySize =
      ({ r.1 with allocatedBlocksBuckets := fun _ => NULL }, r.2) := by
  unfold Memcluster.carveArray at h
  dsimp only at h
  have hcarve := carve_of_carveLoop (carveLoop_mono
    ((alignArray memoryArray memorySize).2 + NUMBER_OF_POOLS) h)
  rw [Nat.add_comm, carve_bound (by omega)] at hcarve
  unfold memoryClusterInit
  dsimp only
  rw [hcarve]

/-- The loop of `memory_cluster_init` stops, and the words it leaves are too few
for a block of any pool. -/
def UsesAllMemory : Prop :=
  ∃ r rest,
    (∀ fuel, (alignArray memoryArray memorySize).2 + NUMBER_OF_POOLS ≤ fuel →
      previous.carveArray fuel memoryArray memorySize = some (r, rest)) ∧
    rest < SIZEOF_MEMBLOCK / 4 + 2 ^ SMALLEST_BLOCK_SIZE

/-- The loop stops after at most as many rounds as there are words and pools,
and all usable memory is carved for the sizes of `filledUp` only. -/
theorem carveArray_left :
    ∃ r rest,
      (∀ fuel, (alignArray memoryArray memorySize).2 + NUMBER_OF_POOLS ≤ fuel →
        previous.carveArray fuel memoryArray memorySize = some (r, rest)) ∧
      (rest < SIZEOF_MEMBLOCK / 4 + 2 ^ SMALLEST_BLOCK_SIZE ↔
        FillsUp (alignArray memoryArray memorySize).2) :=
  carveLoop_left (fun _ => rfl) _

/-- **All usable memory is carved** exactly for the sizes of `filledUp`. -/
theorem usesAllMemory_iff :
    UsesAllMemory previous memoryArray memorySize ↔
      FillsUp (alignArray memoryArray memorySize).2 := by
  obtain ⟨r, rest, hrun, hiff⟩ := carveArray_left previous memoryArray memorySize
  rw [← hiff]
  constructor
  · rintro ⟨r', rest', hrun', hlt⟩
    have hsame := (hrun _ le_rfl).symm.trans (hrun' _ le_rfl)
    obtain ⟨-, rfl⟩ : r = r' ∧ rest = rest' := by simpa using hsame
    exact hlt
  · intro hlt
    exact ⟨r, rest, hrun, hlt⟩

end Init

/-- An array of 93 words: one is skipped, blocks of 16, 32 and 16 words are
carved, and the loop stops with room for one more block of 16 words. -/
theorem unused_of_ninetyThree :
    (staleCluster.carveArray 97 4096 93).map Prod.snd = some 19 ∧
      ¬ UsesAllMemory staleCluster 4096 93 := by
  have hleft : (staleCluster.carveArray 97 4096 93).map Prod.snd = some 19 := by decide +kernel
  refine ⟨hleft, ?_⟩
  rintro ⟨r, rest, hrun, hlt⟩
  rw [hrun 97 (by decide)] at hleft
  obtain rfl : rest = 19 := by simpa using hleft
  exact absurd hlt (by decide)

end DocetOS.Memcluster
