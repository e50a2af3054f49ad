import DocetOS.OS.Memcluster
import DocetOS.Lib.ChainFamily
import DocetOS.Lib.Machine

/-!
# Conservation of the blocks of the memory cluster

The five free lists and the three chains of allocated blocks share one pointer
field. `Rep c start stop blocks free bucket transit` says that the headers of
`blocks` lie in the array, none in the extent of another, and that every one of
them is once in a free list, once in a chain, or in `transit`: on its way from
one list to another inside a call.

Each piece of `allocate` and `deallocate` has one lemma that moves a block
between `transit` and a list. `Conserved` is what holds between calls, in every
run of calls on the array after `memory_cluster_init` (`blocks_conserved`).
-/

namespace DocetOS.Memcluster

open Lib

/-! ## The lists of a cluster -/

/-- The block after a block. -/
def next (c : Memcluster) (block : Nat) : Option Nat := toPtr (c.nextMemblock block)

/-- Where the lists start: `inl i` is the free list of pool `i`, `inr j` is
bucket `j` of the allocated blocks. -/
def head (c : Memcluster) : Nat ⊕ Nat → Option Nat
  | .inl i => toPtr (c.pools i).firstMemoryBlock
  | .inr j => toPtr (c.allocatedBlocksBuckets j)

/-- The lists of a cluster. -/
abbrev indices : Finset (Nat ⊕ Nat) :=
  (Finset.range NUMBER_OF_POOLS).disjSum (Finset.range MEMPOOL_HASH_TABLE_BUCKET_NUM)

/-- The free lists and the buckets as one family of lists. -/
def lists (free bucket : Nat → List Nat) : Nat ⊕ Nat → List Nat
  | .inl i => free i
  | .inr j => bucket j

@[simp] theorem lists_update_inl (free bucket : Nat → List Nat) (i : Nat) (l : List Nat) :
    Function.update (lists free bucket) (.inl i) l = lists (Function.update free i l) bucket := by
  funext k
  cases k <;> simp [lists, Function.update_apply]

@[simp] theorem lists_update_inr (free bucket : Nat → List Nat) (j : Nat) (l : List Nat) :
    Function.update (lists free bucket) (.inr j) l = lists free (Function.update bucket j l) := by
  funext k
  cases k <;> simp [lists, Function.update_apply]

theorem inl_mem_indices {i : Nat} (hi : i < NUMBER_OF_POOLS) : .inl i ∈ indices :=
  Finset.inl_mem_disjSum.mpr (Finset.mem_range.mpr hi)

theorem inr_mem_indices {j : Nat} (hj : j < MEMPOOL_HASH_TABLE_BUCKET_NUM) : .inr j ∈ indices :=
  Finset.inr_mem_disjSum.mpr (Finset.mem_range.mpr hj)

/-- The end of the words a block hands out. -/
def blockEnd (c : Memcluster) (block : Nat) : Nat :=
  block + 12 + 4 * c.blockSize block

/-- The extents of two blocks do not meet. -/
def Apart (c : Memcluster) (b b' : Nat) : Prop := c.blockEnd b ≤ b' ∨ c.blockEnd b' ≤ b

/-- The headers of `blocks` are intact, and their extents lie in the array from
`start` to `stop` without meeting each other. -/
structure Layout (c : Memcluster) (start stop : Nat) (blocks : List Nat) : Prop where
  headPtr_eq : ∀ b ∈ blocks, c.headPtr b = b + 12
  blockSize_eq : ∀ b ∈ blocks, ∃ i < NUMBER_OF_POOLS, c.blockSize b = 2 ^ (i + SMALLEST_BLOCK_SIZE)
  ne_null : ∀ b ∈ blocks, b ≠ NULL
  inside : ∀ b ∈ blocks, start ≤ b ∧ c.blockEnd b ≤ stop
  apart : blocks.Pairwise c.Apart

/-- Every block of `blocks` is once in one of the lists `free` and `bucket` the
cluster holds, or in `transit`. -/
structure Rep (c : Memcluster) (start stop : Nat) (blocks : List Nat)
    (free bucket : Nat → List Nat) (transit : List Nat) : Prop where
  layout : c.Layout start stop blocks
  pool_size : ∀ i < NUMBER_OF_POOLS, (c.pools i).blockSize = 2 ^ (i + SMALLEST_BLOCK_SIZE)
  pool_lock : ∀ i < NUMBER_OF_POOLS, (c.pools i).memoryPoolLock = i
  links : Family c.next indices c.head (fun _ => none) (lists free bucket)
  cells : (transit : Multiset Nat) + ∑ k ∈ indices, (lists free bucket k : Multiset Nat) = blocks
  free_length : ∀ i < NUMBER_OF_POOLS, (c.pools i).freeBlocks = (free i).length
  sized : ∀ i < NUMBER_OF_POOLS, ∀ b ∈ free i, c.blockSize b = (c.pools i).blockSize
  hashed : ∀ j < MEMPOOL_HASH_TABLE_BUCKET_NUM, ∀ b ∈ bucket j, bucketNumber (c.headPtr b) = j

section Layout

variable {c c' : Memcluster} {start stop : Nat} {blocks : List Nat} {b b' : Nat}

theorem Layout.apart_of_ne (h : c.Layout start stop blocks) (hb : b ∈ blocks) (hb' : b' ∈ blocks)
    (hne : b ≠ b') : c.Apart b b' :=
  have : Std.Symm c.Apart := ⟨fun _ _ => Or.symm⟩
  h.apart.forall hb hb' hne

theorem Layout.nodup (h : c.Layout start stop blocks) : blocks.Nodup := by
  refine h.apart.imp fun {b b'} hap hbb => ?_
  subst hbb
  unfold Apart blockEnd at hap
  omega

/-- The frame rule: a layout only reads the sizes and head pointers. -/
theorem Layout.congr (h : c.Layout start stop blocks)
    (hh : ∀ b ∈ blocks, c'.headPtr b = c.headPtr b)
    (hs : ∀ b ∈ blocks, c'.blockSize b = c.blockSize b) : c'.Layout start stop blocks where
  headPtr_eq b hb := by rw [hh b hb]; exact h.headPtr_eq b hb
  blockSize_eq b hb := by rw [hs b hb]; exact h.blockSize_eq b hb
  ne_null := h.ne_null
  inside b hb := by unfold blockEnd; rw [hs b hb]; exact h.inside b hb
  apart := by
    refine h.apart.imp_of_mem fun {b b'} hb hb' hap => ?_
    unfold Apart blockEnd at *
    rw [hs b hb, hs b' hb']
    exact hap

/-- No pointer field of a block lies in the rest of a header. -/
theorem Layout.ne_header (h : c.Layout start stop blocks) (hb : b ∈ blocks) (hb' : b' ∈ blocks) :
    b' + 4 ≠ b ∧ b' + 8 ≠ b := by
  by_cases hbb : b = b'
  · omega
  · have hap := h.apart_of_ne hb hb' hbb
    unfold Apart blockEnd at hap
    omega

/-- An address in the extent of one block lies outside that of another. -/
theorem Layout.outside (h : c.Layout start stop blocks) (hb : b ∈ blocks) (hb' : b' ∈ blocks)
    (hne : b ≠ b') {a : Nat} (ha : b' ≤ a) (ha' : a < c.blockEnd b') :
    a < b ∨ c.blockEnd b ≤ a := by
  have hap := h.apart_of_ne hb hb' hne
  unfold Apart at hap
  omega

/-- The words of a header lie outside the words any block hands out. -/
theorem Layout.header_outside (h : c.Layout start stop blocks) (hb : b ∈ blocks)
    (hb' : b' ∈ blocks) {d : Nat} (hd : d ≤ 8) : b' + d < b + 12 ∨ c.blockEnd b ≤ b' + d := by
  by_cases hbb : b = b'
  · omega
  · have hend : b' + d < c.blockEnd b' := by
      unfold blockEnd
      omega
    have hout := h.outside hb hb' hbb (Nat.le_add_right b' d) hend
    omega

theorem Layout.headPtr_write (h : c.Layout start stop blocks) (hb : b ∈ blocks) (hb' : b' ∈ blocks)
    (v : Nat) : (c.write b v).headPtr b' = c.headPtr b' :=
  Function.update_of_ne (h.ne_header hb hb').2 _ _

theorem Layout.blockSize_write (h : c.Layout start stop blocks) (hb : b ∈ blocks)
    (hb' : b' ∈ blocks) (v : Nat) : (c.write b v).blockSize b' = c.blockSize b' :=
  Function.update_of_ne (h.ne_header hb hb').1 _ _

theorem next_write_of_ne {a : Nat} (ha : a ≠ b) (v : Nat) : (c.write b v).next a = c.next a := by
  simp [next, nextMemblock, write, Function.update_of_ne ha]

theorem next_write_self (v : Nat) : (c.write b v).next b = toPtr v := by
  simp [next, nextMemblock, write]

end Layout

section Rep

variable {c c' : Memcluster} {start stop : Nat} {blocks : List Nat} {free bucket : Nat → List Nat}
  {transit : List Nat} {b : Nat}

theorem Rep.mem_blocks (h : c.Rep start stop blocks free bucket transit) {k : Nat ⊕ Nat}
    (hk : k ∈ indices) (hb : b ∈ lists free bucket k) : b ∈ blocks := by
  rw [← Multiset.mem_coe, ← h.cells]
  exact Multiset.mem_add.mpr (.inr (mem_sum_coe.mpr ⟨k, hk, hb⟩))

theorem Rep.transit_mem (h : c.Rep start stop blocks free bucket (b :: transit)) : b ∈ blocks := by
  rw [← Multiset.mem_coe, ← h.cells]
  exact Multiset.mem_add.mpr (.inl (by simp))

/-- A block on its way between lists is in none of them. -/
theorem Rep.transit_not_mem (h : c.Rep start stop blocks free bucket (b :: transit))
    {k : Nat ⊕ Nat} (hk : k ∈ indices) : b ∉ lists free bucket k := by
  intro hb
  have hnodup : (((b :: transit : List Nat) : Multiset Nat) +
      ∑ k ∈ indices, (lists free bucket k : Multiset Nat)).Nodup := by
    rw [h.cells]
    exact Multiset.coe_nodup.mpr h.layout.nodup
  exact Multiset.disjoint_left.mp (Multiset.nodup_add.mp hnodup).2.2 (by simp)
    (mem_sum_coe.mpr ⟨k, hk, hb⟩)

/-- The frame rule: only the headers of the blocks, the pools and the buckets
matter. -/
theorem Rep.congr (h : c.Rep start stop blocks free bucket transit)
    (hn : ∀ b ∈ blocks, c'.nextMemblock b = c.nextMemblock b)
    (hs : ∀ b ∈ blocks, c'.blockSize b = c.blockSize b)
    (hh : ∀ b ∈ blocks, c'.headPtr b = c.headPtr b) (hp : c'.pools = c.pools)
    (hb : c'.allocatedBlocksBuckets = c.allocatedBlocksBuckets) :
    c'.Rep start stop blocks free bucket transit where
  layout := h.layout.congr hh hs
  pool_size := hp ▸ h.pool_size
  pool_lock := hp ▸ h.pool_lock
  links := by
    refine h.links.congr ?_ ?_
    · intro k hk b hb
      unfold next
      rw [hn b (h.mem_blocks hk hb)]
    · intro k _
      cases k with
      | inl i => simp only [head, hp]
      | inr j => simp only [head, hb]
  cells := h.cells
  free_length := hp ▸ h.free_length
  sized i hi b hb := by
    rw [hs b (h.mem_blocks (inl_mem_indices hi) hb), hp]
    exact h.sized i hi b hb
  hashed j hj b hb := by
    rw [hh b (h.mem_blocks (inr_mem_indices hj) hb)]
    exact h.hashed j hj b hb

/-- The locks and the flag do not matter. -/
theorem Rep.of_eq (h : c.Rep start stop blocks free bucket transit)
    (hm : c'.memory = c.memory) (hp : c'.pools = c.pools)
    (hb : c'.allocatedBlocksBuckets = c.allocatedBlocksBuckets) :
    c'.Rep start stop blocks free bucket transit := by
  refine h.congr ?_ ?_ ?_ hp hb
  · intro b _
    unfold nextMemblock; rw [hm]
  · intro b _
    unfold blockSize; rw [hm]
  · intro b _
    unfold headPtr; rw [hm]

theorem Rep.inUse (h : c.Rep start stop blocks free bucket transit) :
    Memcluster.Rep { c with clusterInUseFLAG := 1 } start stop blocks free bucket transit :=
  h.of_eq rfl rfl rfl

end Rep

/-! ## Moving a block -/

/-- A step of a call: it writes the pointer field of the block `b` at most, and
of the pools it changes the free lists and their counts only. -/
structure Relinks (c c' : Memcluster) (b : Nat) : Prop where
  memory : ∃ v, c'.memory = (c.write b v).memory
  pool_size : ∀ i, (c'.pools i).blockSize = (c.pools i).blockSize
  pool_lock : ∀ i, (c'.pools i).memoryPoolLock = (c.pools i).memoryPoolLock

section Moves

variable {c c' : Memcluster} {start stop : Nat} {blocks : List Nat}
  {free free' bucket bucket' : Nat → List Nat} {transit transit' : List Nat} {b : Nat}

theorem Relinks.headPtr (r : Relinks c c' b) (h : c.Layout start stop blocks) (hb : b ∈ blocks)
    {b' : Nat} (hb' : b' ∈ blocks) : c'.headPtr b' = c.headPtr b' := by
  obtain ⟨v, hv⟩ := r.memory
  rw [← h.headPtr_write hb hb' v]
  unfold Memcluster.headPtr
  rw [hv]

theorem Relinks.blockSize (r : Relinks c c' b) (h : c.Layout start stop blocks) (hb : b ∈ blocks)
    {b' : Nat} (hb' : b' ∈ blocks) : c'.blockSize b' = c.blockSize b' := by
  obtain ⟨v, hv⟩ := r.memory
  rw [← h.blockSize_write hb hb' v]
  unfold Memcluster.blockSize
  rw [hv]

theorem Relinks.next (r : Relinks c c' b) {a : Nat} (hab : a ≠ b) : c'.next a = c.next a := by
  obtain ⟨v, hv⟩ := r.memory
  unfold Memcluster.next nextMemblock
  rw [hv]
  exact next_write_of_ne hab v

/-- The blocks are accounted for after a step that relinks one of them, when its
new lists are and every block that changed lists belongs where it went. -/
theorem Rep.relink (h : c.Rep start stop blocks free bucket transit) (hb : b ∈ blocks)
    (r : Relinks c c' b)
    (links : Family c'.next indices c'.head (fun _ => none) (lists free' bucket'))
    (cells : (transit' : Multiset Nat) + ∑ k ∈ indices, (lists free' bucket' k : Multiset Nat) =
      (transit : Multiset Nat) + ∑ k ∈ indices, (lists free bucket k : Multiset Nat))
    (free_length : ∀ i < NUMBER_OF_POOLS, (c'.pools i).freeBlocks = (free' i).length)
    (sized : ∀ i < NUMBER_OF_POOLS, ∀ a ∈ free' i,
      a ∈ free i ∨ c.blockSize a = (c.pools i).blockSize)
    (hashed : ∀ j < MEMPOOL_HASH_TABLE_BUCKET_NUM, ∀ a ∈ bucket' j,
      a ∈ bucket j ∨ bucketNumber (c.headPtr a) = j) :
    c'.Rep start stop blocks free' bucket' transit' := by
  rw [h.cells] at cells
  -- the new lists hold no block that the old ones did not
  have hin : ∀ k ∈ indices, ∀ a ∈ lists free' bucket' k, a ∈ blocks := by
    intro k hk a ha
    rw [← Multiset.mem_coe, ← cells]
    exact Multiset.mem_add.mpr (.inr (mem_sum_coe.mpr ⟨k, hk, ha⟩))
  exact
    { layout := h.layout.congr (fun _ => r.headPtr h.layout hb) fun _ => r.blockSize h.layout hb
      pool_size := fun i hi => by rw [r.pool_size]; exact h.pool_size i hi
      pool_lock := fun i hi => by rw [r.pool_lock]; exact h.pool_lock i hi
      links := links
      cells := cells
      free_length := free_length
      sized := fun i hi a ha => by
        rw [r.pool_size, r.blockSize h.layout hb (hin _ (inl_mem_indices hi) a ha)]
        exact (sized i hi a ha).elim (h.sized i hi a) id
      hashed := fun j hj a ha => by
        rw [r.headPtr h.layout hb (hin _ (inr_mem_indices hj) a ha)]
        exact (hashed j hj a ha).elim (h.hashed j hj a) id }

/-- Pushing a block onto a list takes it out of transit. -/
theorem push_cells {k : Nat ⊕ Nat} (hk : k ∈ indices) (f : Nat ⊕ Nat → List Nat) :
    (transit : Multiset Nat) + ∑ i ∈ indices, (Function.update f k (b :: f k) i : Multiset Nat) =
      ((b :: transit : List Nat) : Multiset Nat) + ∑ i ∈ indices, (f i : Multiset Nat) := by
  rw [sum_coe_push hk, Multiset.add_cons, ← Multiset.cons_coe, Multiset.cons_add]

/-- Dropping a block from a list puts it in transit. -/
theorem drop_cells {k : Nat ⊕ Nat} (hk : k ∈ indices) {f : Nat ⊕ Nat → List Nat}
    {l₁ l₂ : List Nat} (hf : f k = l₁ ++ b :: l₂) :
    ((b :: transit : List Nat) : Multiset Nat) +
        ∑ i ∈ indices, (Function.update f k (l₁ ++ l₂) i : Multiset Nat) =
      (transit : Multiset Nat) + ∑ i ∈ indices, (f i : Multiset Nat) := by
  rw [← sum_coe_drop hk hf, Multiset.add_cons, ← Multiset.cons_coe, Multiset.cons_add]

/-- After a push only the pushed block is new in the lists. -/
theorem mem_push {f : Nat → List Nat} {i k a : Nat}
    (ha : a ∈ Function.update f i (b :: f i) k) : a ∈ f k ∨ (a = b ∧ k = i) := by
  by_cases hki : k = i
  · subst hki
    rw [Function.update_self] at ha
    exact (List.mem_cons.mp ha).elim (fun hab => .inr ⟨hab, rfl⟩) .inl
  · rw [Function.update_of_ne hki] at ha
    exact .inl ha

/-- After a drop the lists hold nothing new. -/
theorem mem_drop {f : Nat → List Nat} {i k a : Nat} {l₁ l₂ : List Nat} (hf : f i = l₁ ++ b :: l₂)
    (ha : a ∈ Function.update f i (l₁ ++ l₂) k) : a ∈ f k := by
  by_cases hki : k = i
  · subst hki
    rw [Function.update_self] at ha
    rw [hf]
    rcases List.mem_append.mp ha with ha | ha <;> simp [ha]
  · rw [Function.update_of_ne hki] at ha
    exact ha

/-- `__addBlockToPool` ends the way of a block in the pool of its size. -/
theorem Rep.addBlockToPool (h : c.Rep start stop blocks free bucket (b :: transit)) {i : Nat}
    (hi : i < NUMBER_OF_POOLS) (hs : c.blockSize b = (c.pools i).blockSize) :
    (c.addBlockToPool i b).Rep start stop blocks (Function.update free i (b :: free i)) bucket
      transit := by
  have hnot := fun k hk => h.transit_not_mem (k := k) hk
  have r : Relinks c (c.addBlockToPool i b) b := by
    refine ⟨⟨_, rfl⟩, fun k => ?_, fun k => ?_⟩ <;>
    · simp only [Memcluster.addBlockToPool, setPool, write, Function.update_apply]
      split <;> simp_all
  refine h.relink h.transit_mem r ?_ ?_ ?_ ?_ fun _ _ _ ha => .inl ha
  · rw [← lists_update_inl]
    -- the block becomes the first one of its pool
    refine h.links.push (inl_mem_indices hi) hnot ?_ ?_ (next_write_self _)
      fun k hk a ha => r.next (ne_of_mem_of_not_mem ha (hnot k hk))
    · have hb := toPtr_of_ne (h.layout.ne_null b h.transit_mem)
      simp [head, Memcluster.addBlockToPool, setPool, hb]
    · rintro (k | j) _ hne
      · have hki : k ≠ i := fun hki => hne (by rw [hki])
        simp [head, Memcluster.addBlockToPool, setPool, write, Function.update_of_ne hki]
      · rfl
  · rw [← lists_update_inl]
    exact push_cells (inl_mem_indices hi) _
  · intro k hk
    have hlen := h.free_length k hk
    by_cases hki : k = i
    · subst hki
      simp [Memcluster.addBlockToPool, setPool, hlen]
    · simp [Memcluster.addBlockToPool, setPool, write, Function.update_of_ne hki, hlen]
  · intro k _ a ha
    rcases mem_push ha with ha | ⟨rfl, rfl⟩
    · exact .inl ha
    · exact .inr hs

/-- The first part of `__removeBlockFromPool` takes the first block of a pool
that has one. -/
theorem Rep.detachFirstBlock (h : c.Rep start stop blocks free bucket transit) {i : Nat}
    (hi : i < NUMBER_OF_POOLS) (hfree : (c.pools i).freeBlocks ≠ 0) :
    ∃ b l, free i = b :: l ∧ (c.detachFirstBlock i).2 = b ∧
      (c.detachFirstBlock i).1.Rep start stop blocks (Function.update free i l) bucket
        (b :: transit) := by
  have hlen := h.free_length i hi
  cases hl : free i with
  | nil => rw [hl] at hlen; exact absurd hlen hfree
  | cons b l =>
    have hl' : lists free bucket (.inl i) = [] ++ b :: l := hl
    -- the pool points to the first block of its list
    have hpath : Path c.next (toPtr (c.pools i).firstMemoryBlock) (free i) none :=
      h.links.path (.inl i) (inl_mem_indices hi)
    have hfirst : (c.pools i).firstMemoryBlock = b := by
      rw [hl] at hpath
      exact eq_of_toPtr (Path.cons_iff.mp hpath).1
    have hb : b ∈ blocks :=
      h.mem_blocks (inl_mem_indices hi) (show b ∈ free i by rw [hl]; exact List.mem_cons_self)
    have r : Relinks c (c.detachFirstBlock i).1 b := by
      refine ⟨⟨NULL, by simp [Memcluster.detachFirstBlock, setPool, write, hfirst]⟩,
        fun k => ?_, fun k => ?_⟩ <;>
      · simp only [Memcluster.detachFirstBlock, setPool, write, Function.update_apply]
        split <;> simp_all
    refine ⟨b, l, rfl, hfirst, h.relink hb r ?_ ?_ ?_
      (fun k _ a ha => .inl (mem_drop hl' ha)) fun _ _ _ ha => .inl ha⟩
    · rw [← lists_update_inl]
      -- the pool takes over the pointer of the block
      refine h.links.unlink (inl_mem_indices hi) hl' ?_ ?_ (by simp)
        fun _ _ a _ hab _ => r.next hab
      · simp [head, Memcluster.detachFirstBlock, setPool, write, hfirst, next]
      · rintro (k | j) _ hne
        · have hki : k ≠ i := fun hki => hne (by rw [hki])
          simp [head, Memcluster.detachFirstBlock, setPool, write, Function.update_of_ne hki]
        · rfl
    · rw [← lists_update_inl]
      exact drop_cells (inl_mem_indices hi) hl'
    · intro k hk
      have hlen' := h.free_length k hk
      by_cases hki : k = i
      · subst hki
        rw [hl, List.length_cons] at hlen'
        simp [Memcluster.detachFirstBlock, setPool, write, hlen']
      · simp [Memcluster.detachFirstBlock, setPool, write, Function.update_of_ne hki, hlen']

/-- The middle part of `__placeBlockIntoBucket` ends the way of a block in the
bucket of its head pointer. -/
theorem Rep.linkBlock (h : c.Rep start stop blocks free bucket (b :: transit)) :
    (c.linkBlock b).Rep start stop blocks free
      (Function.update bucket (bucketNumber (c.headPtr b))
        (b :: bucket (bucketNumber (c.headPtr b)))) transit := by
  have hj : bucketNumber (c.headPtr b) < MEMPOOL_HASH_TABLE_BUCKET_NUM :=
    Nat.mod_lt _ (by decide)
  have hnot := fun k hk => h.transit_not_mem (k := k) hk
  have r : Relinks c (c.linkBlock b) b := ⟨⟨_, rfl⟩, fun _ => rfl, fun _ => rfl⟩
  refine h.relink h.transit_mem r ?_ ?_ h.free_length (fun _ _ _ ha => .inl ha) ?_
  · rw [← lists_update_inr]
    refine h.links.push (inr_mem_indices hj) hnot ?_ ?_ (next_write_self _)
      fun k hk a ha => r.next (ne_of_mem_of_not_mem ha (hnot k hk))
    · have hb := toPtr_of_ne (h.layout.ne_null b h.transit_mem)
      simp [head, Memcluster.linkBlock, setBucket, write, hb]
    · rintro (k | j) _ hne
      · rfl
      · have hjb : j ≠ bucketNumber (c.headPtr b) := fun hjb => hne (by rw [hjb])
        simp [head, Memcluster.linkBlock, setBucket, write, Function.update_of_ne hjb]
  · rw [← lists_update_inr]
    exact push_cells (inr_mem_indices hj) _
  · intro j _ a ha
    rcases mem_push ha with ha | ⟨rfl, rfl⟩
    · exact .inl ha
    · exact .inr rfl

/-- The middle part of `__recoverBlockFromBucket` takes a block out of its
bucket. -/
theorem Rep.unlinkBlock (h : c.Rep start stop blocks free bucket transit) {j : Nat}
    (hj : j < MEMPOOL_HASH_TABLE_BUCKET_NUM) {l₁ l₂ : List Nat} (hl : bucket j = l₁ ++ b :: l₂) :
    (c.unlinkBlock j (l₁.getLast?.getD NULL) b).Rep start stop blocks free
      (Function.update bucket j (l₁ ++ l₂)) (b :: transit) := by
  have hin : ∀ a ∈ bucket j, a ∈ blocks := fun a ha => h.mem_blocks (inr_mem_indices hj) ha
  have hb : b ∈ blocks := hin b (by rw [hl]; simp)
  have hcells : ((b :: transit : List Nat) : Multiset Nat) + ∑ k ∈ indices,
        (lists free (Function.update bucket j (l₁ ++ l₂)) k : Multiset Nat) =
      (transit : Multiset Nat) + ∑ k ∈ indices, (lists free bucket k : Multiset Nat) := by
    rw [← lists_update_inr]
    exact drop_cells (inr_mem_indices hj) hl
  rcases List.eq_nil_or_concat l₁ with rfl | ⟨l, p, rfl⟩
  · -- the first block of the bucket: the bucket starts at the next one
    have hunlink : c.unlinkBlock j (([] : List Nat).getLast?.getD NULL) b =
        c.setBucket j (c.nextMemblock b) := rfl
    rw [hunlink]
    have r : Relinks c (c.setBucket j (c.nextMemblock b)) b :=
      ⟨⟨c.memory b, by simp [setBucket, write]⟩, fun _ => rfl, fun _ => rfl⟩
    refine h.relink hb r ?_ hcells h.free_length (fun _ _ _ ha => .inl ha)
      fun k _ a ha => .inl (mem_drop hl ha)
    rw [← lists_update_inr]
    refine h.links.unlink (inr_mem_indices hj) hl ?_ ?_ (by simp) fun _ _ a _ hab _ => r.next hab
    · simp [head, setBucket, next]
    · rintro (k | k) _ hne
      · rfl
      · have hkj : k ≠ j := fun hkj => hne (by rw [hkj])
        simp [head, setBucket, Function.update_of_ne hkj]
  · -- the block before takes over the pointer
    rw [List.concat_eq_append] at *
    have hp : p ∈ blocks := hin p (by rw [hl]; simp)
    have hunlink : c.unlinkBlock j ((l ++ [p]).getLast?.getD NULL) b =
        c.write p (c.nextMemblock b) := by
      simp [Memcluster.unlinkBlock, h.layout.ne_null p hp]
    rw [hunlink]
    have r : Relinks c (c.write p (c.nextMemblock b)) p := ⟨⟨_, rfl⟩, fun _ => rfl, fun _ => rfl⟩
    refine h.relink hp r ?_ hcells h.free_length (fun _ _ _ ha => .inl ha)
      fun k _ a ha => .inl (mem_drop hl ha)
    rw [← lists_update_inr]
    refine h.links.unlink (inr_mem_indices hj) hl ?_ (fun _ _ _ => rfl) ?_ ?_
    · simp [head, write]
    · intro a ha
      obtain rfl : p = a := by simpa using ha
      exact next_write_self _
    · intro k _ a _ _ hap
      exact r.next fun h => hap (by simp [h])

/-- Taking a block out of its bucket writes the pointer field of a block at most. -/
theorem Rep.unlinkBlock_memory (h : c.Rep start stop blocks free bucket transit) {j : Nat}
    (hj : j < MEMPOOL_HASH_TABLE_BUCKET_NUM) {l₁ l₂ : List Nat} (hl : bucket j = l₁ ++ b :: l₂)
    {a : Nat} (ha : a ∉ blocks) :
    (c.unlinkBlock j (l₁.getLast?.getD NULL) b).memory a = c.memory a := by
  rcases List.eq_nil_or_concat l₁ with rfl | ⟨l, p, rfl⟩
  · rfl
  · have hp : p ∈ blocks := by
      refine h.mem_blocks (inr_mem_indices hj) (show p ∈ bucket j from ?_)
      rw [hl]
      simp
    rw [List.concat_eq_append, List.getLast?_concat, Option.getD_some, Memcluster.unlinkBlock,
      if_pos (h.layout.ne_null p hp)]
    exact Function.update_of_ne (ne_of_mem_of_not_mem hp ha).symm _ _

/-! ## Clearing and carving -/

theorem clearWords_of_not_mem {words address a : Nat} {memory : Nat → Nat}
    (ha : a < address ∨ address + 4 * words ≤ a) :
    clearWords words address memory a = memory a := by
  induction words generalizing address memory with
  | zero => rfl
  | succ words ih =>
    unfold clearWords
    rw [ih (by omega), Function.update_of_ne (by omega)]

theorem clearWords_of_lt {words address i : Nat} {memory : Nat → Nat} (hi : i < words) :
    clearWords words address memory (address + 4 * i) = NULL := by
  induction words generalizing address memory i with
  | zero => exact absurd hi (Nat.not_lt_zero i)
  | succ words ih =>
    unfold clearWords
    cases i with
    | zero =>
      -- the rest of the loop only moves up
      rw [clearWords_of_not_mem (.inl (by omega))]
      exact Function.update_self ..
    | succ i =>
      have hrest := @ih (address + 4) i (Function.update memory address NULL) (by omega)
      rwa [show address + 4 + 4 * i = address + 4 * (i + 1) by omega] at hrest

/-- Clearing the words a block hands out touches no header. -/
theorem Rep.clearBlock (h : c.Rep start stop blocks free bucket transit) (hb : b ∈ blocks) :
    (c.clearBlock b).Rep start stop blocks free bucket transit := by
  have hclear : ∀ b' ∈ blocks, ∀ d ≤ 8, (c.clearBlock b).memory (b' + d) = c.memory (b' + d) := by
    intro b' hb' d hd
    refine clearWords_of_not_mem ?_
    rw [h.layout.headPtr_eq b hb]
    exact h.layout.header_outside hb hb' hd
  exact h.congr (fun b' hb' => hclear b' hb' 0 (by decide))
    (fun b' hb' => hclear b' hb' 4 (by decide)) (fun b' hb' => hclear b' hb' 8 (by decide)) rfl rfl

/-- A header written behind the last block makes a block in transit. -/
theorem Rep.writeHeader (h : c.Rep start b blocks free bucket []) (hstart : start ≤ b)
    (hb : b ≠ NULL) {i : Nat} (hi : i < NUMBER_OF_POOLS) :
    (c.writeHeader b (c.pools i).blockSize).Rep start (b + 12 + 4 * (c.pools i).blockSize)
      (b :: blocks) free bucket [b] := by
  have hbelow : ∀ b' ∈ blocks, b' + 12 ≤ b := by
    intro b' hb'
    have := (h.layout.inside b' hb').2
    unfold blockEnd at this
    omega
  -- the three words of the header lie behind every block there is
  have hframe : ∀ b' ∈ blocks, ∀ d ≤ 8,
      (c.writeHeader b (c.pools i).blockSize).memory (b' + d) = c.memory (b' + d) := by
    intro b' hb' d hd
    have := hbelow b' hb'
    simp only [Memcluster.writeHeader, write]
    rw [Function.update_of_ne (by omega), Function.update_of_ne (by omega),
      Function.update_of_ne (by omega)]
  have hold : (c.writeHeader b (c.pools i).blockSize).Rep start b blocks free bucket [] :=
    h.congr (fun b' hb' => hframe b' hb' 0 (by decide)) (fun b' hb' => hframe b' hb' 4 (by decide))
      (fun b' hb' => hframe b' hb' 8 (by decide)) rfl rfl
  have hsize : (c.writeHeader b (c.pools i).blockSize).blockSize b = (c.pools i).blockSize := by
    simp [Memcluster.writeHeader, write, blockSize]
  have hhead : (c.writeHeader b (c.pools i).blockSize).headPtr b = b + 12 := by
    simp [Memcluster.writeHeader, write, headPtr]
  have hend : (c.writeHeader b (c.pools i).blockSize).blockEnd b =
      b + 12 + 4 * (c.pools i).blockSize := by
    unfold blockEnd
    rw [hsize]
  refine
    { hold with
      layout :=
        { headPtr_eq := ?_
          blockSize_eq := ?_
          ne_null := ?_
          inside := ?_
          apart := ?_ }
      cells := ?_ }
  · exact List.forall_mem_cons.mpr ⟨hhead, hold.layout.headPtr_eq⟩
  · exact List.forall_mem_cons.mpr ⟨⟨i, hi, by rw [hsize, h.pool_size i hi]⟩,
      hold.layout.blockSize_eq⟩
  · exact List.forall_mem_cons.mpr ⟨hb, hold.layout.ne_null⟩
  · refine List.forall_mem_cons.mpr ⟨⟨hstart, hend.le⟩, ?_⟩
    intro b' hb'
    have := hold.layout.inside b' hb'
    omega
  · refine List.pairwise_cons.mpr ⟨fun b' hb' => .inr ?_, hold.layout.apart⟩
    exact (hold.layout.inside b' hb').2
  · have hcells := hold.cells
    rw [Multiset.coe_nil, zero_add] at hcells
    rw [hcells, Multiset.coe_singleton, Multiset.singleton_add, Multiset.cons_coe]

end Moves

end DocetOS.Memcluster
