import DocetOS.OS.MemclusterConservation

/-!
# The memory handed out is zeroed and private

`LeaseSystem` runs the calls of `MemclusterConservation` together with what the
tasks do between them: a pointer handed out is a lease on the number of words
asked for, and a task writes the words of its leases.

- `HandsOut.zeroed`, `HandsOut.memory_outside`, `Rep.deallocate_memory`: the
  words the calls write.
- `Leased` is kept by every step: a lease is on no more words than its block has.
- `memory_private`: a lease starts with zeroes, and from then on no call touches
  it and no write touches what the calls rely on.
- `leases_read_back`: a task reads what it last wrote.
-/

namespace DocetOS.Memcluster

open Lib

/-! ## The words a call writes -/

section Calls

variable {c c' : Memcluster} {start stop : Nat} {blocks : List Nat} {free bucket : Nat → List Nat}
  {requiredSize b b' : Nat}

/-- Neither the pointer field of a block nor the rest of a header is among the
words a block hands out. -/
theorem Layout.payload_ne (h : c.Layout start stop blocks) (hb : b ∈ blocks) (hb' : b' ∈ blocks)
    {i d : Nat} (hi : i < c.blockSize b) (hd : d ≤ 8) : b' + d ≠ b + 12 + 4 * i := by
  have hout := h.header_outside hb hb' hd
  unfold blockEnd at hout
  omega

theorem Layout.payload_not_mem (h : c.Layout start stop blocks) (hb : b ∈ blocks) {i : Nat}
    (hi : i < c.blockSize b) : b + 12 + 4 * i ∉ blocks :=
  fun hmem => h.payload_ne hb hmem hi (Nat.zero_le 8) rfl

/-- Outside the extent of the block handed out, the memory stays as it was. -/
theorem HandsOut.memory_outside (h : HandsOut c c' start stop blocks bucket requiredSize b)
    {a : Nat} (hne : a ≠ b) (ha : a < b + 12 ∨ c.blockEnd b ≤ a) : c'.memory a = c.memory a := by
  obtain ⟨v, hv⟩ := h.memory
  rw [hv, clearWords_of_not_mem ha, Function.update_of_ne hne]

/-- All words of the block handed out are 0. -/
theorem HandsOut.zeroed (h : HandsOut c c' start stop blocks bucket requiredSize b) {i : Nat}
    (hi : i < c.blockSize b) : c'.memory (b + 12 + 4 * i) = 0 := by
  obtain ⟨v, hv⟩ := h.memory
  rw [hv]
  exact clearWords_of_lt hi

/-- The blocks keep their sizes. -/
theorem HandsOut.blockSize (h : HandsOut c c' start stop blocks bucket requiredSize b)
    (hl : c.Layout start stop blocks) (hb' : b' ∈ blocks) : c'.blockSize b' = c.blockSize b' :=
  h.memory_outside (hl.ne_header h.mem hb').1 (hl.header_outside h.mem hb' (by decide))

/-- The words of another block stay as they were. -/
theorem HandsOut.payload (h : HandsOut c c' start stop blocks bucket requiredSize b)
    (hl : c.Layout start stop blocks) (hb' : b' ∈ blocks) (hne : b ≠ b') {i : Nat}
    (hi : i < c.blockSize b') : c'.memory (b' + 12 + 4 * i) = c.memory (b' + 12 + 4 * i) := by
  have hend : b' + 12 + 4 * i < c.blockEnd b' := by
    unfold blockEnd
    omega
  have hout := hl.outside h.mem hb' hne (by omega) hend
  refine h.memory_outside (hl.payload_ne hb' h.mem hi (Nat.zero_le 8)).symm ?_
  exact hout.imp (fun hlt => by omega) id

end Calls

/-! ## Leases -/

/-- A pointer handed out, and the words asked for. -/
structure Lease where
  pointer : Nat
  words : Nat
deriving DecidableEq, Repr

/-- The cluster and the leases that have not come back. -/
structure LeaseSystem where
  cluster : Memcluster
  leases : List Lease

/-- What a task does with the memory: it calls the cluster, or it writes the word
`index` behind a pointer. -/
inductive Access where
  | allocate (fuel caller requiredSize : Nat)
  | deallocate (fuel caller memblockHeadPtr : Nat)
  | write (pointer index value : Nat)

namespace LeaseSystem

/-- The word is one of those a lease is on. -/
def Grants (s : LeaseSystem) (pointer index : Nat) : Prop :=
  ∃ lease ∈ s.leases, lease.pointer = pointer ∧ index < lease.words

instance (s : LeaseSystem) (pointer index : Nat) : Decidable (s.Grants pointer index) :=
  inferInstanceAs (Decidable (∃ lease ∈ s.leases, lease.pointer = pointer ∧ index < lease.words))

/-- A call that returns, or a write to a word of a lease. -/
def step (s : LeaseSystem) : Access → Option LeaseSystem
  | .allocate fuel caller requiredSize =>
    (s.cluster.allocate fuel caller requiredSize).map fun (cluster, p) =>
      { cluster, leases := if p = NULL then s.leases else ⟨p, requiredSize⟩ :: s.leases }
  | .deallocate fuel caller p =>
    (s.cluster.deallocate fuel caller p).map fun cluster =>
      { cluster, leases := s.leases.eraseP fun lease => lease.pointer = p }
  | .write p i value =>
    if s.Grants p i then some { s with cluster := s.cluster.write (p + 4 * i) value } else none

/-- The pointers of the leases are the live pointers of the calls. -/
def toSystem (s : LeaseSystem) : System where
  cluster := s.cluster
  live := s.leases.map Lease.pointer

/-- The memory of the block is handed out. -/
def HandedOut (s : LeaseSystem) (b : Nat) : Prop :=
  s.cluster.headPtr b ∈ s.toSystem.live

theorem toSystem_allocate {s s' : LeaseSystem} {fuel caller requiredSize : Nat}
    (h : s.step (.allocate fuel caller requiredSize) = some s') :
    s.toSystem.step (.allocate fuel caller requiredSize) = some s'.toSystem := by
  obtain ⟨⟨c', p⟩, hcall, rfl⟩ := Option.map_eq_some_iff.mp h
  refine Option.map_eq_some_iff.mpr ⟨(c', p), hcall, ?_⟩
  by_cases hp : p = NULL
  · simp [toSystem, hp]
  · simp [toSystem, hp]

theorem toSystem_deallocate {s s' : LeaseSystem} {fuel caller p : Nat}
    (h : s.step (.deallocate fuel caller p) = some s') :
    s.toSystem.step (.deallocate fuel caller p) = some s'.toSystem := by
  obtain ⟨c', hcall, rfl⟩ := Option.map_eq_some_iff.mp h
  refine Option.map_eq_some_iff.mpr ⟨c', hcall, ?_⟩
  show System.mk c' ((s.leases.map Lease.pointer).erase p) = System.mk c' (List.map Lease.pointer _)
  rw [List.erase_eq_eraseP', List.eraseP_map]
  rfl

/-- A write is to a word of a lease and writes this word only. -/
theorem step_write {s s' : LeaseSystem} {p i value : Nat}
    (h : s.step (.write p i value) = some s') :
    s.Grants p i ∧ s' = { s with cluster := s.cluster.write (p + 4 * i) value } := by
  by_cases hgrant : s.Grants p i
  · rw [step, if_pos hgrant] at h
    exact ⟨hgrant, (Option.some.inj h).symm⟩
  · rw [step, if_neg hgrant] at h
    cases h

end LeaseSystem

/-- The cluster after `memory_cluster_init` on the array, without leases. -/
def freshLeases (previous : Memcluster) (memoryArray memorySize : Nat) : LeaseSystem where
  cluster := (memoryClusterInit previous memoryArray memorySize).1
  leases := []

/-- All runs of calls and writes on one array. -/
def leaseMachine (previous : Memcluster) (memoryArray memorySize : Nat) :
    Machine LeaseSystem Access where
  init s := s = freshLeases previous memoryArray memorySize
  step := LeaseSystem.step

/-! ## What every step keeps -/

/-- The blocks are accounted for, and every lease is on the memory of a block
and on no more words than the block has. -/
structure Leased (memoryArray stop : Nat) (blocks : List Nat) (free bucket : Nat → List Nat)
    (s : LeaseSystem) : Prop where
  rep : s.cluster.Rep memoryArray stop blocks free bucket []
  live : (s.toSystem.live : Multiset Nat) = (allocated bucket).map (· + 12)
  fits : ∀ lease ∈ s.leases, ∃ b ∈ blocks, lease.pointer = b + 12 ∧
    lease.words ≤ s.cluster.blockSize b

section Leased

variable {memoryArray stop : Nat} {blocks : List Nat} {free bucket : Nat → List Nat}
  {s s' : LeaseSystem}

/-- A call that keeps the sizes of the blocks keeps leases within their blocks. -/
theorem Leased.of_accounted (h : Leased memoryArray stop blocks free bucket s)
    (hacc : Accounted memoryArray stop blocks s'.toSystem)
    (hsize : ∀ b ∈ blocks, s'.cluster.blockSize b = s.cluster.blockSize b)
    (hnew : ∀ lease ∈ s'.leases, lease ∈ s.leases ∨ ∃ b ∈ blocks, lease.pointer = b + 12 ∧
      lease.words ≤ s.cluster.blockSize b) :
    ∃ free' bucket', Leased memoryArray stop blocks free' bucket' s' := by
  obtain ⟨free', bucket', hrep, hlive⟩ := hacc
  refine ⟨free', bucket', hrep, hlive, ?_⟩
  intro lease hl
  obtain ⟨b, hb, hp, hw⟩ := (hnew lease hl).elim (h.fits lease) id
  exact ⟨b, hb, hp, (hsize b hb).symm ▸ hw⟩

theorem Leased.accounted (h : Leased memoryArray stop blocks free bucket s) :
    Accounted memoryArray stop blocks s.toSystem :=
  ⟨free, bucket, h.rep, h.live⟩

/-- The word a task may write is a word of a block. -/
theorem Leased.granted (h : Leased memoryArray stop blocks free bucket s) {p i : Nat}
    (hg : s.Grants p i) : ∃ b ∈ blocks, p = b + 12 ∧ i < s.cluster.blockSize b := by
  obtain ⟨lease, hl, rfl, hi⟩ := hg
  obtain ⟨b, hb, hp, hw⟩ := h.fits lease hl
  exact ⟨b, hb, hp, lt_of_lt_of_le hi hw⟩

/-- A write to a word of a lease leaves every header as it was. -/
theorem Leased.header_write (h : Leased memoryArray stop blocks free bucket s) {p i : Nat}
    (hg : s.Grants p i) (value : Nat) {b d : Nat} (hb : b ∈ blocks) (hd : d ≤ 8) :
    (s.cluster.write (p + 4 * i) value).memory (b + d) = s.cluster.memory (b + d) := by
  obtain ⟨b', hb', rfl, hi⟩ := h.granted hg
  exact Function.update_of_ne (h.rep.layout.payload_ne hb' hb hi hd) _ _

theorem Leased.write (h : Leased memoryArray stop blocks free bucket s) {p i : Nat}
    (hg : s.Grants p i) (value : Nat) :
    Leased memoryArray stop blocks free bucket
      { s with cluster := s.cluster.write (p + 4 * i) value } where
  rep := h.rep.congr (fun _ hb => h.header_write hg value hb (Nat.zero_le 8))
    (fun _ hb => h.header_write hg value hb (by decide))
    (fun _ hb => h.header_write hg value hb (by decide)) rfl rfl
  live := h.live
  fits lease hl := by
    obtain ⟨b, hb, hp, hw⟩ := h.fits lease hl
    have hsize : (s.cluster.write (p + 4 * i) value).blockSize b = s.cluster.blockSize b :=
      h.header_write hg value hb (by decide)
    exact ⟨b, hb, hp, hsize.symm ▸ hw⟩

/-- Every step leaves the sizes of the blocks as they were. -/
theorem Leased.blockSize_step (h : Leased memoryArray stop blocks free bucket s) {access : Access}
    (hs : s.step access = some s') {b : Nat} (hb : b ∈ blocks) :
    s'.cluster.blockSize b = s.cluster.blockSize b := by
  cases access with
  | allocate fuel caller requiredSize =>
    obtain ⟨⟨c', p⟩, hcall, rfl⟩ := Option.map_eq_some_iff.mp hs
    rcases h.rep.allocate_handsOut hcall with ⟨-, hm, -⟩ | ⟨b', -, hout⟩
    · exact congrFun hm (b + 4)
    · exact hout.blockSize h.rep.layout hb
  | deallocate fuel caller p =>
    obtain ⟨c', hcall, rfl⟩ := Option.map_eq_some_iff.mp hs
    have hnot : b + 4 ∉ blocks := fun hmem => (h.rep.layout.ne_header hmem hb).1 rfl
    exact h.rep.deallocate_memory hcall hnot
  | write p i value =>
    obtain ⟨hg, rfl⟩ := LeaseSystem.step_write hs
    exact h.header_write hg value hb (by decide)

theorem Leased.allocate (h : Leased memoryArray stop blocks free bucket s)
    {fuel caller requiredSize : Nat}
    (hs : s.step (.allocate fuel caller requiredSize) = some s') :
    ∃ free' bucket', Leased memoryArray stop blocks free' bucket' s' := by
  refine h.of_accounted (h.accounted.step (LeaseSystem.toSystem_allocate hs))
    (fun b hb => h.blockSize_step hs hb) ?_
  intro lease hl
  obtain ⟨⟨c', p⟩, hcall, rfl⟩ := Option.map_eq_some_iff.mp hs
  rcases h.rep.allocate_handsOut hcall with ⟨rfl, -⟩ | ⟨b, rfl, hout⟩
  · exact .inl hl
  · have hne : b + 12 ≠ NULL := Nat.succ_ne_zero _
    simp only [if_neg hne, List.mem_cons] at hl
    rcases hl with rfl | hl
    · exact .inr ⟨b, hout.mem, rfl, hout.fits⟩
    · exact .inl hl

theorem Leased.deallocate (h : Leased memoryArray stop blocks free bucket s)
    {fuel caller p : Nat} (hs : s.step (.deallocate fuel caller p) = some s') :
    ∃ free' bucket', Leased memoryArray stop blocks free' bucket' s' := by
  refine h.of_accounted (h.accounted.step (LeaseSystem.toSystem_deallocate hs))
    (fun b hb => h.blockSize_step hs hb) ?_
  intro lease hl
  obtain ⟨c', -, rfl⟩ := Option.map_eq_some_iff.mp hs
  exact .inl (List.mem_of_mem_eraseP hl)

/-- The step lemma: every step keeps the leases within the allocated blocks. -/
theorem Leased.step (h : Leased memoryArray stop blocks free bucket s) {access : Access}
    (hs : s.step access = some s') :
    ∃ free' bucket', Leased memoryArray stop blocks free' bucket' s' := by
  cases access with
  | allocate fuel caller requiredSize => exact h.allocate hs
  | deallocate fuel caller p => exact h.deallocate hs
  | write p i value =>
    obtain ⟨hg, rfl⟩ := LeaseSystem.step_write hs
    exact ⟨free, bucket, h.write hg value⟩

end Leased

/-- Every run of calls and writes keeps the leases within the allocated blocks. -/
theorem reach_leased {memoryArray memorySize : Nat} (hn : 1 ≤ memorySize)
    (hfit : memoryArray + 4 * memorySize ≤ 4294967296) (previous : Memcluster) :
    ∃ stop ≤ memoryArray + 4 * memorySize, ∀ s,
      (leaseMachine previous memoryArray memorySize).Reach s →
      ∃ free bucket, Leased memoryArray stop (carvedBlocks previous memoryArray memorySize)
        free bucket s := by
  obtain ⟨free, stop, hstop, hrep⟩ := memoryClusterInit_rep hn hfit previous
  refine ⟨stop, hstop, ?_⟩
  intro s h
  refine Machine.Reach.invariant (P := fun s => ∃ free bucket, Leased memoryArray stop
    (carvedBlocks previous memoryArray memorySize) free bucket s) ?_ ?_ h
  · intro s hs
    obtain rfl : s = freshLeases previous memoryArray memorySize := hs
    exact ⟨free, _, hrep, rfl, fun _ hl => absurd hl List.not_mem_nil⟩
  · intro s access s' hs hstep
    obtain ⟨free, bucket, hleased⟩ := hs
    exact hleased.step hstep

/-! ## Privacy -/

/-- The words the block hands out stay as they were. -/
def KeepsPayload (c c' : Memcluster) (b : Nat) : Prop :=
  ∀ i < c.blockSize b, c'.memory (c.headPtr b + 4 * i) = c.memory (c.headPtr b + 4 * i)

/-- The header of the block stays as it was. -/
def KeepsHeader (c c' : Memcluster) (b : Nat) : Prop :=
  c'.nextMemblock b = c.nextMemblock b ∧ c'.blockSize b = c.blockSize b ∧
    c'.headPtr b = c.headPtr b

/-- What the next step does to the words of the blocks and to the lists. -/
structure Private (memoryArray memorySize : Nat) (blocks : List Nat)
    (free bucket : Nat → List Nat) (s : LeaseSystem) : Prop where
  /-- Memory handed out is not on lease. It belongs to a block with at least the
  words asked for, and all words of the block are 0. -/
  zeroed : ∀ fuel caller requiredSize c' p,
    s.cluster.allocate fuel caller requiredSize = some (c', p) → p ≠ NULL →
    p ∉ s.toSystem.live ∧ ∃ b ∈ blocks, c'.headPtr b = p ∧ requiredSize ≤ c'.blockSize b ∧
      ∀ i < c'.blockSize b, c'.memory (p + 4 * i) = 0
  /-- `allocate` changes no word of a block handed out before. -/
  allocate_keeps : ∀ fuel caller requiredSize c' p,
    s.cluster.allocate fuel caller requiredSize = some (c', p) →
    ∀ b ∈ blocks, s.HandedOut b → KeepsPayload s.cluster c' b
  /-- `deallocate` changes no word of a block handed out. -/
  deallocate_keeps : ∀ fuel caller p c', s.cluster.deallocate fuel caller p = some c' →
    ∀ b ∈ blocks, s.HandedOut b → KeepsPayload s.cluster c' b
  /-- A write of a task changes no header, no pool and no list. -/
  write_keeps : ∀ p i value s', s.step (.write p i value) = some s' →
    s'.cluster.pools = s.cluster.pools ∧
      s'.cluster.allocatedBlocksBuckets = s.cluster.allocatedBlocksBuckets ∧
      (∀ b ∈ blocks, KeepsHeader s.cluster s'.cluster b) ∧
      Conserved memoryArray memorySize blocks free bucket s'.toSystem

section Privacy

variable {memoryArray memorySize stop : Nat} {blocks : List Nat} {free bucket : Nat → List Nat}
  {s s' : LeaseSystem}

theorem Leased.conserved (h : Leased memoryArray stop blocks free bucket s)
    (hstop : stop ≤ memoryArray + 4 * memorySize) :
    Conserved memoryArray memorySize blocks free bucket s.toSystem :=
  h.rep.conserved h.live hstop

/-- Memory handed out is not on lease before: no pointer is live twice. -/
theorem Leased.not_live (h : Leased memoryArray stop blocks free bucket s)
    {fuel caller requiredSize p : Nat} {c' : Memcluster}
    (hc : s.cluster.allocate fuel caller requiredSize = some (c', p)) (hp : p ≠ NULL) :
    p ∉ s.toSystem.live := by
  have hstep : s.toSystem.step (.allocate fuel caller requiredSize) =
      some { cluster := c', live := p :: s.toSystem.live } := by
    refine Option.map_eq_some_iff.mpr ⟨(c', p), hc, ?_⟩
    simp [hp]
  have hfits : stop ≤ memoryArray + 4 * stop := by omega
  obtain ⟨_, _, hcons⟩ := (h.accounted.step hstep).conserved hfits
  exact (List.nodup_cons.mp hcons.live_nodup).1

theorem Leased.zeroed (h : Leased memoryArray stop blocks free bucket s)
    {fuel caller requiredSize p : Nat} {c' : Memcluster}
    (hc : s.cluster.allocate fuel caller requiredSize = some (c', p)) (hp : p ≠ NULL) :
    ∃ b ∈ blocks, c'.headPtr b = p ∧ requiredSize ≤ c'.blockSize b ∧
      ∀ i < c'.blockSize b, c'.memory (p + 4 * i) = 0 := by
  rcases h.rep.allocate_handsOut hc with ⟨hnull, -⟩ | ⟨b, rfl, hout⟩
  · exact absurd hnull hp
  · obtain ⟨_, _, hrep, -⟩ := hout.rep
    have hsize := hout.blockSize h.rep.layout hout.mem
    refine ⟨b, hout.mem, hrep.layout.headPtr_eq b hout.mem, hsize.symm ▸ hout.fits, ?_⟩
    intro i hi
    exact hout.zeroed (hsize ▸ hi)

theorem Leased.allocate_keeps (h : Leased memoryArray stop blocks free bucket s)
    {fuel caller requiredSize p : Nat} {c' : Memcluster}
    (hc : s.cluster.allocate fuel caller requiredSize = some (c', p)) {b : Nat} (hb : b ∈ blocks)
    (hlive : s.HandedOut b) : KeepsPayload s.cluster c' b := by
  intro i hi
  rw [h.rep.layout.headPtr_eq b hb]
  rcases h.rep.allocate_handsOut hc with ⟨-, hm, -⟩ | ⟨b', rfl, hout⟩
  · rw [hm]
  · refine hout.payload h.rep.layout hb ?_ hi
    intro hbb
    -- the block handed out was free
    refine h.not_live hc (Nat.succ_ne_zero _) ?_
    rw [hbb, ← h.rep.layout.headPtr_eq b hb]
    exact hlive

theorem Leased.deallocate_keeps (h : Leased memoryArray stop blocks free bucket s)
    {fuel caller p : Nat} {c' : Memcluster}
    (hc : s.cluster.deallocate fuel caller p = some c') {b : Nat} (hb : b ∈ blocks) :
    KeepsPayload s.cluster c' b := by
  intro i hi
  rw [h.rep.layout.headPtr_eq b hb]
  exact h.rep.deallocate_memory hc (h.rep.layout.payload_not_mem hb hi)

theorem Leased.isPrivate (h : Leased memoryArray stop blocks free bucket s)
    (hstop : stop ≤ memoryArray + 4 * memorySize) :
    Private memoryArray memorySize blocks free bucket s where
  zeroed _ _ _ _ _ hc hp := ⟨h.not_live hc hp, h.zeroed hc hp⟩
  allocate_keeps _ _ _ _ _ hc _ hb hlive := h.allocate_keeps hc hb hlive
  deallocate_keeps _ _ _ _ hc _ hb _ := h.deallocate_keeps hc hb
  write_keeps p i value s' hs := by
    obtain ⟨hg, rfl⟩ := LeaseSystem.step_write hs
    refine ⟨rfl, rfl, fun b hb => ⟨?_, ?_, ?_⟩, (h.write hg value).conserved hstop⟩
    · exact h.header_write hg value hb (Nat.zero_le 8)
    · exact h.header_write hg value hb (by decide)
    · exact h.header_write hg value hb (by decide)

end Privacy

/-- **Privacy**: after any sequence of calls and of writes to the words asked
for, memory is handed out zeroed, no call changes the words of another allocated
block, and no write changes a header, a pool or a list. -/
theorem memory_private {memoryArray memorySize : Nat} (hn : 1 ≤ memorySize)
    (hfit : memoryArray + 4 * memorySize ≤ 4294967296) (previous : Memcluster) {s : LeaseSystem}
    (h : (leaseMachine previous memoryArray memorySize).Reach s) :
    ∃ free bucket,
      Conserved memoryArray memorySize (carvedBlocks previous memoryArray memorySize) free bucket
        s.toSystem ∧
      Private memoryArray memorySize (carvedBlocks previous memoryArray memorySize) free bucket
        s := by
  obtain ⟨stop, hstop, hall⟩ := reach_leased hn hfit previous
  obtain ⟨free, bucket, hleased⟩ := hall s h
  exact ⟨free, bucket, hleased.conserved hstop, hleased.isPrivate hstop⟩

/-- Two allocations with a write to the last word of each, the release of the
first and its allocation for another request. -/
def sampleAccesses : List Access :=
  [.allocate 5 80 10, .write 4112 9 7, .allocate 5 80 20, .write 4188 19 8, .deallocate 5 80 4112,
    .allocate 5 80 1]

/-- Privacy over `sampleAccesses`: the second lease still holds its 8, the new
one starts with 0 where the first had written. -/
theorem memory_private_sampleAccesses :
    ∃ s, (leaseMachine staleCluster 4096 60).run (freshLeases staleCluster 4096 60)
        sampleAccesses = some s ∧
      (s.leases = [⟨4112, 1⟩, ⟨4188, 20⟩] ∧ s.cluster.memory 4148 = 0 ∧
        s.cluster.memory 4264 = 8) ∧
      ∃ free bucket,
        Conserved 4096 60 (carvedBlocks staleCluster 4096 60) free bucket s.toSystem ∧
        Private 4096 60 (carvedBlocks staleCluster 4096 60) free bucket s := by
  have hrun : ((leaseMachine staleCluster 4096 60).run (freshLeases staleCluster 4096 60)
      sampleAccesses).any (fun s => decide (s.leases = [⟨4112, 1⟩, ⟨4188, 20⟩] ∧
        s.cluster.memory 4148 = 0 ∧ s.cluster.memory 4264 = 8)) = true := by
    decide +kernel
  obtain ⟨s, hs, hleases⟩ := Machine.exists_run hrun
  exact ⟨s, hs, hleases, memory_private (by decide) (by decide) staleCluster
    (Machine.Reach.run (.init rfl) hs)⟩

/-! ## What a task reads back -/

/-- The words of the leases as their owners know them: a new lease holds zeroes,
and a write changes one word of one lease. -/
def record (s : LeaseSystem) (access : Access) (contents : Nat → Nat → Nat) : Nat → Nat → Nat :=
  match access with
  | .allocate fuel caller requiredSize =>
    match s.cluster.allocate fuel caller requiredSize with
    | some (_, p) => Function.update contents p fun _ => 0
    | none => contents
  | .deallocate _ _ _ => contents
  | .write p i value => Function.update contents p (Function.update (contents p) i value)

/-- The memory of the leases holds `contents`. -/
def Holds (s : LeaseSystem) (contents : Nat → Nat → Nat) : Prop :=
  ∀ lease ∈ s.leases, ∀ i < lease.words,
    s.cluster.memory (lease.pointer + 4 * i) = contents lease.pointer i

section Holds

variable {memoryArray stop : Nat} {blocks : List Nat} {free bucket : Nat → List Nat}
  {s s' : LeaseSystem} {contents : Nat → Nat → Nat}

/-- A call that keeps the words of a block keeps those of a lease on it. -/
theorem Leased.reads (h : Leased memoryArray stop blocks free bucket s) {c' : Memcluster}
    {lease : Lease} (hl : lease ∈ s.leases)
    (hkeeps : ∀ b ∈ blocks, s.HandedOut b → KeepsPayload s.cluster c' b) {i : Nat}
    (hi : i < lease.words) :
    c'.memory (lease.pointer + 4 * i) = s.cluster.memory (lease.pointer + 4 * i) := by
  obtain ⟨b, hb, hp, hw⟩ := h.fits lease hl
  have hhead : s.cluster.headPtr b = lease.pointer := by rw [hp, h.rep.layout.headPtr_eq b hb]
  rw [← hhead]
  refine hkeeps b hb ?_ i (lt_of_lt_of_le hi hw)
  show s.cluster.headPtr b ∈ s.leases.map Lease.pointer
  rw [hhead]
  exact List.mem_map_of_mem hl

theorem Leased.ne_null (h : Leased memoryArray stop blocks free bucket s) {lease : Lease}
    (hl : lease ∈ s.leases) : lease.pointer ≠ NULL := by
  obtain ⟨b, -, hp, -⟩ := h.fits lease hl
  rw [hp]
  exact Nat.succ_ne_zero _

/-- Words of two blocks, or two words of one block, are at different addresses. -/
theorem Leased.word_ne (h : Leased memoryArray stop blocks free bucket s) {p q i j : Nat}
    (hp : s.Grants p i) (hq : s.Grants q j) (hne : p ≠ q ∨ i ≠ j) : p + 4 * i ≠ q + 4 * j := by
  obtain ⟨b, hb, rfl, hi⟩ := h.granted hp
  obtain ⟨b', hb', rfl, hj⟩ := h.granted hq
  by_cases hbb : b = b'
  · omega
  · have hend : b + 12 + 4 * i < s.cluster.blockEnd b := by
      unfold blockEnd
      omega
    have hout := h.rep.layout.outside hb' hb (Ne.symm hbb) (by omega) hend
    unfold blockEnd at hout
    omega

/-- The step lemma: every step keeps what the leases hold. -/
theorem Leased.holds_step (h : Leased memoryArray stop blocks free bucket s)
    (hold : Holds s contents) {access : Access} (hs : s.step access = some s') :
    Holds s' (record s access contents) := by
  intro lease hl i hi
  cases access with
  | allocate fuel caller requiredSize =>
    obtain ⟨⟨c', p⟩, hcall, rfl⟩ := Option.map_eq_some_iff.mp hs
    simp only [record, hcall]
    have hkept : ∀ lease ∈ s.leases, lease.pointer ≠ p → i < lease.words →
        c'.memory (lease.pointer + 4 * i) =
          Function.update contents p (fun _ => 0) lease.pointer i := by
      intro lease hl hne hi
      rw [Function.update_of_ne hne, ← hold lease hl i hi]
      exact h.reads hl (fun b hb hlive => h.allocate_keeps hcall hb hlive) hi
    by_cases hp : p = NULL
    · simp only [if_pos hp] at hl
      exact hkept lease hl (hp ▸ h.ne_null hl) hi
    · simp only [if_neg hp, List.mem_cons] at hl
      rcases hl with rfl | hl
      · -- the new lease is on memory that has just been cleared
        obtain ⟨b, -, -, hfits, hzero⟩ := h.zeroed hcall hp
        rw [Function.update_self]
        exact hzero i (lt_of_lt_of_le hi hfits)
      · refine hkept lease hl (fun hpl => h.not_live hcall hp ?_) hi
        exact hpl ▸ List.mem_map_of_mem hl
  | deallocate fuel caller p =>
    obtain ⟨c', hcall, rfl⟩ := Option.map_eq_some_iff.mp hs
    have hl' : lease ∈ s.leases := List.mem_of_mem_eraseP hl
    show c'.memory (lease.pointer + 4 * i) = contents lease.pointer i
    rw [← hold lease hl' i hi]
    exact h.reads hl' (fun b hb _ => h.deallocate_keeps hcall hb) hi
  | write p j value =>
    obtain ⟨hg, rfl⟩ := LeaseSystem.step_write hs
    have hg' : s.Grants lease.pointer i := ⟨lease, hl, rfl, hi⟩
    show Function.update s.cluster.memory (p + 4 * j) value (lease.pointer + 4 * i) =
      Function.update contents p (Function.update (contents p) j value) lease.pointer i
    -- different words of the leases have different addresses
    by_cases hpl : lease.pointer = p
    · by_cases hij : i = j
      · rw [hpl, hij, Function.update_self, Function.update_self, Function.update_self]
      · rw [Function.update_of_ne (h.word_ne hg' hg (.inr hij)), hold lease hl i hi, hpl,
          Function.update_self, Function.update_of_ne hij]
    · rw [Function.update_of_ne (h.word_ne hg' hg (.inl hpl)), hold lease hl i hi,
        Function.update_of_ne hpl]

end Holds

/-- **Read back**: in every run each task finds in its leases what it wrote last,
and 0 where it has not written. -/
theorem leases_read_back {memoryArray memorySize : Nat} (hn : 1 ≤ memorySize)
    (hfit : memoryArray + 4 * memorySize ≤ 4294967296) (previous : Memcluster)
    {s : LeaseSystem × (Nat → Nat → Nat)}
    (h : (Machine.withHistory (leaseMachine previous memoryArray memorySize) record).Reach s) :
    Holds s.1 s.2 := by
  obtain ⟨stop, -, hall⟩ := reach_leased hn hfit previous
  have hboth : (leaseMachine previous memoryArray memorySize).Reach s.1 ∧ Holds s.1 s.2 := by
    refine Machine.Reach.invariant (P := fun s =>
      (leaseMachine previous memoryArray memorySize).Reach s.1 ∧ Holds s.1 s.2) ?_ ?_ h
    · intro s hs
      have hfresh : s.1 = freshLeases previous memoryArray memorySize := hs
      refine ⟨.init hs, ?_⟩
      intro lease hl
      rw [hfresh] at hl
      exact absurd hl List.not_mem_nil
    · intro s access s' hs hstep
      obtain ⟨hreach, hold⟩ := hs
      obtain ⟨hstep, hrecord⟩ := Machine.withHistory_step_iff.mp hstep
      obtain ⟨free, bucket, hleased⟩ := hall s.1 hreach
      refine ⟨hreach.step hstep, ?_⟩
      rw [hrecord]
      exact hleased.holds_step hold hstep
  exact hboth.2

end DocetOS.Memcluster
