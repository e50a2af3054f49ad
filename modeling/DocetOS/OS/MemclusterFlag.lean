import DocetOS.OS.MemclusterConservation

/-!
# The flag of the memory cluster

`allocate` and `deallocate` step by step, called by any number of tasks in any
interleaving. The scheduler frees the memory of completed tasks with interrupts
disabled, and only while `clusterInUseFLAG` is 0: then no lock of the cluster may
be held, as nobody could give it back.

Every call sets the flag and clears it at its end, whoever else is in a call. So
a call that ends clears the flag under another one that still has locks to take
or to give back. `flag_protects`: in the runs in which no call ends like that
(`EndsAlone`), all locks are free whenever the flag is 0.

`OS_mutex_acquire` and `OS_mutex_release` are one step each; a task whose lock is
taken by another one stays in front of its step.
-/

namespace DocetOS.Memcluster

open Lib

/-- Where a task is in `allocate` or `deallocate`. -/
inductive CallPc where
  /-- `allocate`: in front of `clusterInUseFLAG = 1`. -/
  | allocSet (requiredSize : Nat)
  | acquirePool (initialIdx idx : Nat)
  | checkFree (initialIdx idx : Nat)
  | detach (idx : Nat)
  | acquireTable (idx block : Nat)
  | link (idx block : Nat)
  | releaseTable (idx block : Nat)
  | releasePool (idx block : Nat)
  | clear (block : Nat)
  /-- `deallocate`: in front of `clusterInUseFLAG = 1`. -/
  | freeSet (memblockHeadPtr : Nat)
  | freeAcquireTable (memblockHeadPtr : Nat)
  | freeFind (memblockHeadPtr : Nat)
  /-- `block` is `NULL` when no block matches. -/
  | freeReleaseTable (block : Nat)
  | freeAcquirePool (idx block : Nat)
  | freeAdd (idx block : Nat)
  | freeReleasePool (idx : Nat)
  /-- Either one: in front of `clusterInUseFLAG = 0`. -/
  | clearFlag
deriving DecidableEq, Repr

namespace CallPc

/-- The pool whose lock the task holds. -/
def holdsPool : CallPc → Option Nat
  | .checkFree _ idx | .detach idx | .acquireTable idx _ | .link idx _ | .releaseTable idx _
  | .releasePool idx _ | .freeAdd idx _ | .freeReleasePool idx => some idx
  | _ => none

/-- The task holds `hashtable_lock`. -/
def holdsTable : CallPc → Bool
  | .link _ _ | .releaseTable _ _ | .freeFind _ | .freeReleaseTable _ => true
  | _ => false

/-- The task has set the flag and has a lock to take or to give back. -/
def locksAhead : CallPc → Bool
  | .allocSet _ | .clear _ | .freeSet _ | .clearFlag => false
  | _ => true

theorem locksAhead_of_holdsPool {pc : CallPc} {i : Nat} (h : pc.holdsPool = some i) :
    pc.locksAhead = true := by
  cases pc <;> first | rfl | cases h

theorem locksAhead_of_holdsTable {pc : CallPc} (h : pc.holdsTable = true) :
    pc.locksAhead = true := by
  cases pc <;> first | rfl | cases h

end CallPc

/-- The cluster, and where every task is in it. -/
structure ClusterSystem where
  cluster : Memcluster
  pc : Nat → Option CallPc

inductive ClusterEvent where
  | allocate (task requiredSize : Nat)
  | deallocate (task memblockHeadPtr : Nat)
  /-- The task takes its next step; `fuel` bounds the walk along a bucket. -/
  | step (task fuel : Nat)
  /-- The scheduler frees memory of a completed task. -/
  | schedulerFree (currentTCB memblockHeadPtr fuel : Nat)

namespace ClusterSystem

/-- The task goes on to `pc`, or returns. -/
def goTo (s : ClusterSystem) (task : Nat) (cluster : Memcluster) (pc : Option CallPc) :
    ClusterSystem :=
  { cluster, pc := Function.update s.pc task pc }

/-- The next step of the task, which is at `pc`. -/
def advance (s : ClusterSystem) (fuel task : Nat) (pc : CallPc) : Option ClusterSystem :=
  let c := s.cluster
  let next (c : Memcluster) (pc : CallPc) : Option ClusterSystem := some (s.goTo task c (some pc))
  match pc with
  | .allocSet requiredSize =>
    let c := { c with clusterInUseFLAG := 1 }
    if requiredSize = 0 then next c .clearFlag
    else
      match c.selectPool requiredSize with
      | none => next c .clearFlag
      | some idx => next c (.acquirePool idx idx)
  | .acquirePool initialIdx idx => do
    next (← c.acquirePoolLock task (c.pools idx).memoryPoolLock) (.checkFree initialIdx idx)
  | .checkFree initialIdx idx =>
    if (c.pools idx).freeBlocks ≠ 0 then next c (.detach idx)
    else next c (.acquirePool initialIdx (nextPool initialIdx idx))
  | .detach idx => next (c.detachFirstBlock idx).1 (.acquireTable idx (c.detachFirstBlock idx).2)
  | .acquireTable idx block => do
    next { c with hashtableLock := ← c.hashtableLock.acquire task } (.link idx block)
  | .link idx block => next (c.linkBlock block) (.releaseTable idx block)
  | .releaseTable idx block =>
    next { c with hashtableLock := c.hashtableLock.release task } (.releasePool idx block)
  | .releasePool idx block =>
    next (c.releasePoolLock task (c.pools idx).memoryPoolLock) (.clear block)
  | .clear block =>
    next { c with memory := clearWords (c.blockSize block) (c.headPtr block) c.memory } .clearFlag
  | .freeSet memblockHeadPtr =>
    next { c with clusterInUseFLAG := 1 } (.freeAcquireTable memblockHeadPtr)
  | .freeAcquireTable memblockHeadPtr => do
    next { c with hashtableLock := ← c.hashtableLock.acquire task } (.freeFind memblockHeadPtr)
  | .freeFind memblockHeadPtr =>
    let bucket := bucketNumber memblockHeadPtr
    match c.findBlock memblockHeadPtr fuel NULL (c.allocatedBlocksBuckets bucket) with
    | none => none
    | some none => next c (.freeReleaseTable NULL)
    | some (some (prevBlock, block)) =>
      next (c.unlinkBlock bucket prevBlock block) (.freeReleaseTable block)
  | .freeReleaseTable block =>
    let c := { c with hashtableLock := c.hashtableLock.release task }
    if block = NULL then next c .clearFlag
    else do
      let idx ← (List.range NUMBER_OF_POOLS).find? fun i =>
        (c.pools i).blockSize = c.blockSize block
      next c (.freeAcquirePool idx block)
  | .freeAcquirePool idx block => do next (← c.acquirePoolLock task idx) (.freeAdd idx block)
  | .freeAdd idx block => next (c.addBlockToPool idx block) (.freeReleasePool idx)
  | .freeReleasePool idx => next (c.releasePoolLock task idx) .clearFlag
  | .clearFlag => some (s.goTo task { c with clusterInUseFLAG := 0 } none)

/-- The events of the tasks `tasks`. -/
def step (tasks : Finset Nat) (s : ClusterSystem) : ClusterEvent → Option ClusterSystem
  | .allocate task requiredSize =>
    if task ∈ tasks ∧ s.pc task = none then
      some (s.goTo task s.cluster (some (.allocSet requiredSize)))
    else none
  | .deallocate task memblockHeadPtr =>
    if task ∈ tasks ∧ s.pc task = none then
      some (s.goTo task s.cluster (some (.freeSet memblockHeadPtr)))
    else none
  | .step task fuel => do s.advance fuel task (← s.pc task)
  | .schedulerFree currentTCB memblockHeadPtr fuel =>
    if currentTCB ≠ NULL ∧ s.cluster.clusterInUseFLAG = 0 then do
      return { s with cluster := ← s.cluster.deallocate fuel currentTCB memblockHeadPtr }
    else none

/-- A pool whose lock has just been taken has a free block. -/
def FindsFree (s : ClusterSystem) : ClusterEvent → Prop
  | .step task _ =>
    match s.pc task with
    | some (.checkFree _ idx) => (s.cluster.pools idx).freeBlocks ≠ 0
    | _ => True
  | _ => True

/-- A call that clears the flag clears it under no other call that has set it and
has a lock to take or to give back. -/
def EndsAlone (tasks : Finset Nat) (s : ClusterSystem) : ClusterEvent → Prop
  | .step task _ =>
    s.pc task = some .clearFlag →
      ∀ other ∈ tasks, other ≠ task → ((s.pc other).map CallPc.locksAhead).getD false = false
  | _ => True

instance (s : ClusterSystem) (e : ClusterEvent) : Decidable (s.FindsFree e) := by
  cases e with
  | step task fuel =>
    unfold FindsFree
    dsimp only
    split <;> infer_instance
  | _ => exact inferInstanceAs (Decidable True)

instance (tasks : Finset Nat) (s : ClusterSystem) (e : ClusterEvent) :
    Decidable (s.EndsAlone tasks e) := by
  cases e with
  | step task fuel => exact inferInstanceAs (Decidable (_ → _))
  | _ => exact inferInstanceAs (Decidable True)

end ClusterSystem

/-- Runs from a cluster as `memory_cluster_init` leaves it, with `hashtable_lock`
free; tasks are at addresses. -/
def clusterMachine (tasks : Finset Nat) : Machine ClusterSystem ClusterEvent where
  init s := NULL ∉ tasks ∧ (∀ task, s.pc task = none) ∧
    ∃ c memoryArray memorySize, c.hashtableLock = ⟨0, 0, NULL, NULL⟩ ∧
      s.cluster = (memoryClusterInit c memoryArray memorySize).1
  step := ClusterSystem.step tasks

/-! ## What leaves the locks alone -/

/-- The locks, the flag and the lock of every pool are the same. -/
structure SameLocks (c c' : Memcluster) : Prop where
  poolLocks : c'.poolLocks = c.poolLocks
  hashtableLock : c'.hashtableLock = c.hashtableLock
  clusterInUseFLAG : c'.clusterInUseFLAG = c.clusterInUseFLAG
  pool_lock : ∀ i, (c'.pools i).memoryPoolLock = (c.pools i).memoryPoolLock

namespace SameLocks

variable {c c' c'' : Memcluster}

theorem refl (c : Memcluster) : SameLocks c c := ⟨rfl, rfl, rfl, fun _ => rfl⟩

theorem trans (h : SameLocks c c') (h' : SameLocks c' c'') : SameLocks c c'' where
  poolLocks := h'.poolLocks.trans h.poolLocks
  hashtableLock := h'.hashtableLock.trans h.hashtableLock
  clusterInUseFLAG := h'.clusterInUseFLAG.trans h.clusterInUseFLAG
  pool_lock i := (h'.pool_lock i).trans (h.pool_lock i)

theorem write (c : Memcluster) (address value : Nat) : SameLocks c (c.write address value) :=
  ⟨rfl, rfl, rfl, fun _ => rfl⟩

theorem setBucket (c : Memcluster) (bucket block : Nat) : SameLocks c (c.setBucket bucket block) :=
  ⟨rfl, rfl, rfl, fun _ => rfl⟩

theorem setPool (c : Memcluster) (idx : Nat) {pool : MemoryPool}
    (h : pool.memoryPoolLock = (c.pools idx).memoryPoolLock) :
    SameLocks c (c.setPool idx pool) := by
  refine ⟨rfl, rfl, rfl, ?_⟩
  intro i
  by_cases hi : i = idx
  · subst hi
    simpa [Memcluster.setPool] using h
  · simp [Memcluster.setPool, hi]

theorem detachFirstBlock (c : Memcluster) (idx : Nat) : SameLocks c (c.detachFirstBlock idx).1 := by
  unfold Memcluster.detachFirstBlock
  refine SameLocks.trans ?_ (write _ _ _)
  exact setPool c idx rfl

theorem linkBlock (c : Memcluster) (block : Nat) : SameLocks c (c.linkBlock block) :=
  (setBucket c _ _).trans (write _ _ _)

theorem unlinkBlock (c : Memcluster) (bucket prevBlock blockPtr : Nat) :
    SameLocks c (c.unlinkBlock bucket prevBlock blockPtr) := by
  unfold Memcluster.unlinkBlock
  split
  · exact write _ _ _
  · exact setBucket _ _ _

theorem addBlockToPool (c : Memcluster) (idx block : Nat) :
    SameLocks c (c.addBlockToPool idx block) :=
  (write c _ _).trans (setPool _ _ rfl)

theorem carve (fuel counter numSkips memoryArray memorySize : Nat) (c : Memcluster)
    (blocks : List Nat) :
    SameLocks c (Memcluster.carve fuel counter numSkips memoryArray memorySize c blocks).1 := by
  induction fuel generalizing counter numSkips memoryArray memorySize c blocks with
  | zero => exact refl c
  | succ fuel ih =>
    simp only [Memcluster.carve]
    split
    · exact refl c
    · split
      · split
        · exact ih _ _ _ _ _ _
        · exact refl c
      · have hheader : SameLocks c (c.writeHeader memoryArray
            (c.pools (counter % NUMBER_OF_POOLS)).blockSize) :=
          ((write c _ _).trans (write _ _ _)).trans (write _ _ _)
        exact (hheader.trans (addBlockToPool _ _ _)).trans (ih _ _ _ _ _ _)

end SameLocks

/-! ## One lock -/

/-- Exactly the tasks in `holds` hold the lock, once. -/
structure LockFits (lock : Mutex) (holds : Nat → Prop) : Prop where
  free : lock.FreeIsZero
  once : lock.tcbPointer ≠ NULL → lock.counter = 1
  holder : ∀ task, holds task ↔ task ≠ NULL ∧ lock.tcbPointer = task

namespace LockFits

variable {lock lock' : Mutex} {holds holds' : Nat → Prop} {task : Nat}

theorem congr (h : LockFits lock holds) (hiff : ∀ t, holds' t ↔ holds t) : LockFits lock holds' :=
  { h with holder := fun t => (hiff t).trans (h.holder t) }

/-- A task that gets the lock is the only one to hold it. -/
theorem acquire (h : LockFits lock holds) (htask : task ≠ NULL) (hnot : ¬ holds task)
    (hacquire : lock.acquire task = some lock') : LockFits lock' fun t => t = task ∨ holds t := by
  unfold Mutex.acquire at hacquire
  split at hacquire
  · rename_i hfree
    have hnull : lock.tcbPointer = NULL :=
      hfree.resolve_right fun heq => hnot ((h.holder task).mpr ⟨htask, heq⟩)
    cases hacquire
    refine { free := fun hn => absurd hn htask, once := ?_, holder := ?_ }
    · intro _
      show wrap (lock.counter + 1) = 1
      rw [h.free hnull]
      rfl
    · intro t
      rw [h.holder, hnull]
      constructor
      · rintro (rfl | ⟨hne, heq⟩)
        · exact ⟨htask, rfl⟩
        · exact absurd heq.symm hne
      · rintro ⟨-, heq⟩
        exact .inl heq.symm
  · cases hacquire

/-- The task that holds the lock gives it back. -/
theorem release (h : LockFits lock holds) (hholds : holds task) :
    LockFits (lock.release task) fun t => t ≠ task ∧ holds t := by
  obtain ⟨htask, hpointer⟩ := (h.holder task).mp hholds
  have hone : lock.counter = 1 := h.once (hpointer ▸ htask)
  have hrelease : lock.release task = { lock with counter := 0, tcbPointer := NULL } := by
    unfold Mutex.release
    rw [if_neg (not_not.mpr hpointer), hone]
    rfl
  rw [hrelease]
  refine { free := fun _ => rfl, once := fun hne => absurd rfl hne, holder := ?_ }
  intro t
  rw [h.holder, hpointer]
  constructor
  · rintro ⟨hne, -, heq⟩
    exact absurd heq.symm hne
  · rintro ⟨hne, heq⟩
    exact absurd heq.symm hne

theorem eq_null (h : LockFits lock holds) (hnone : ∀ t, ¬ holds t) : lock.tcbPointer = NULL := by
  by_contra hne
  exact hnone lock.tcbPointer ((h.holder _).mpr ⟨hne, rfl⟩)

end LockFits

/-! ## The invariant -/

/-- The task is in a call, at a place where `f` holds. -/
def At (pcs : Nat → Option CallPc) (f : CallPc → Prop) (task : Nat) : Prop :=
  ∃ pc, pcs task = some pc ∧ f pc

theorem at_update {pcs : Nat → Option CallPc} {f : CallPc → Prop} {task t : Nat}
    {pc' : Option CallPc} :
    At (Function.update pcs task pc') f t ↔
      (t = task ∧ ∃ p, pc' = some p ∧ f p) ∨ (t ≠ task ∧ At pcs f t) := by
  unfold At
  by_cases ht : t = task
  · subst ht
    simp
  · simp [ht]

namespace ClusterSystem

/-- The locks are held by the tasks that have taken them and not given them back,
and the flag is set while a task has a lock to take or to give back. -/
structure Flagged (s : ClusterSystem) : Prop where
  null : s.pc NULL = none
  pool_lock : ∀ i, (s.cluster.pools i).memoryPoolLock = i
  pools : ∀ i, LockFits (s.cluster.poolLocks i) (At s.pc fun pc => pc.holdsPool = some i)
  table : LockFits s.cluster.hashtableLock (At s.pc fun pc => pc.holdsTable = true)
  flag : ∀ task, At s.pc (fun pc => pc.locksAhead = true) task → s.cluster.clusterInUseFLAG ≠ 0

section Steps

variable {s s' : ClusterSystem} {c' : Memcluster} {task fuel : Nat} {pc : CallPc}
  {pc' : Option CallPc}

theorem Flagged.task_ne (h : Flagged s) (hpc : s.pc task = some pc) : task ≠ NULL := by
  rintro rfl
  rw [h.null] at hpc
  cases hpc

theorem at_task {f : CallPc → Prop} (hpc : s.pc task = some pc) : At s.pc f task ↔ f pc := by
  constructor
  · rintro ⟨p, hp, hf⟩
    rw [hpc] at hp
    cases hp
    exact hf
  · exact fun hf => ⟨pc, hpc, hf⟩

/-- A lock that the step does not touch, at places that hold it alike. -/
theorem fits_of_same {lock lock' : Mutex} {f : CallPc → Prop} (h : LockFits lock (At s.pc f))
    (hlock : lock' = lock) (hsame : (∃ p, pc' = some p ∧ f p) ↔ At s.pc f task) :
    LockFits lock' (At (Function.update s.pc task pc') f) := by
  subst hlock
  refine h.congr ?_
  intro t
  rw [at_update, hsame]
  by_cases ht : t = task
  · subst ht
    simp
  · simp [ht]

/-- A lock the step takes. -/
theorem fits_of_acquire {lock lock' : Mutex} {f : CallPc → Prop} (h : LockFits lock (At s.pc f))
    (htask : task ≠ NULL) (hpc : s.pc task = some pc) (hnot : ¬ f pc)
    (hlock : lock.acquire task = some lock') {p : CallPc} (hp : f p) :
    LockFits lock' (At (Function.update s.pc task (some p)) f) := by
  refine (h.acquire htask (by rwa [at_task hpc]) hlock).congr ?_
  intro t
  rw [at_update]
  by_cases ht : t = task
  · subst ht
    simpa using hp
  · simp [ht]

/-- A lock the step gives back. -/
theorem fits_of_release {lock : Mutex} {f : CallPc → Prop} (h : LockFits lock (At s.pc f))
    (hpc : s.pc task = some pc) (hholds : f pc) (hnot : ∀ p, pc' = some p → ¬ f p) :
    LockFits (lock.release task) (At (Function.update s.pc task pc') f) := by
  refine (h.release ((at_task hpc).mpr hholds)).congr ?_
  intro t
  rw [at_update]
  constructor
  · rintro (⟨-, p, hp, hf⟩ | hother)
    · exact absurd hf (hnot p hp)
    · exact hother
  · exact .inr

/-- A step that leaves the flag set. -/
theorem Flagged.goTo (h : Flagged s) (hpc : s.pc task = some pc)
    (hpool : ∀ i, (c'.pools i).memoryPoolLock = (s.cluster.pools i).memoryPoolLock)
    (hpools : ∀ i, LockFits (c'.poolLocks i)
      (At (Function.update s.pc task pc') fun pc => pc.holdsPool = some i))
    (htable : LockFits c'.hashtableLock
      (At (Function.update s.pc task pc') fun pc => pc.holdsTable = true))
    (hflag : c'.clusterInUseFLAG ≠ 0 ∨
      c'.clusterInUseFLAG = s.cluster.clusterInUseFLAG ∧
        ∀ p, pc' = some p → p.locksAhead = true → pc.locksAhead = true) :
    Flagged (s.goTo task c' pc') where
  null := by
    show Function.update s.pc task pc' NULL = none
    rw [Function.update_of_ne (h.task_ne hpc).symm]
    exact h.null
  pool_lock i := (hpool i).trans (h.pool_lock i)
  pools := hpools
  table := htable
  flag t ht := by
    show c'.clusterInUseFLAG ≠ 0
    rcases hflag with hset | ⟨heq, hahead⟩
    · exact hset
    · rw [heq]
      rcases at_update.mp ht with ⟨-, p, hp, hlocks⟩ | ⟨-, hother⟩
      · exact h.flag task ((at_task hpc).mpr (hahead p hp hlocks))
      · exact h.flag t hother

/-- A step that takes no lock and gives none back. -/
theorem Flagged.quiet (h : Flagged s) (hpc : s.pc task = some pc) (p : CallPc)
    (hc : SameLocks s.cluster c') (hpool : p.holdsPool = pc.holdsPool)
    (htable : p.holdsTable = pc.holdsTable)
    (hahead : p.locksAhead = true → pc.locksAhead = true) :
    Flagged (s.goTo task c' (some p)) := by
  refine h.goTo hpc hc.pool_lock ?_ ?_ (.inr ⟨hc.clusterInUseFLAG, ?_⟩)
  · intro i
    refine fits_of_same (h.pools i) (congrFun hc.poolLocks i) ?_
    rw [at_task hpc]
    simp [hpool]
  · refine fits_of_same h.table hc.hashtableLock ?_
    rw [at_task hpc]
    simp [htable]
  · rintro q ⟨⟩
    exact hahead

/-- The step that sets the flag. -/
theorem Flagged.set (h : Flagged s) (hpc : s.pc task = some pc) (p : CallPc)
    (hpool : p.holdsPool = pc.holdsPool) (htable : p.holdsTable = pc.holdsTable) :
    Flagged (s.goTo task { s.cluster with clusterInUseFLAG := 1 } (some p)) := by
  refine h.goTo hpc (fun _ => rfl) ?_ ?_ (.inl one_ne_zero)
  · intro i
    refine fits_of_same (h.pools i) rfl ?_
    rw [at_task hpc]
    simp [hpool]
  · refine fits_of_same h.table rfl ?_
    rw [at_task hpc]
    simp [htable]

/-- The task takes the lock of a pool. -/
theorem Flagged.acquirePool (h : Flagged s) (hpc : s.pc task = some pc) {idx : Nat} (p : CallPc)
    (hpool : pc.holdsPool = none) (hpool' : p.holdsPool = some idx)
    (htable : p.holdsTable = pc.holdsTable) (hahead : pc.locksAhead = true)
    (hc : s.cluster.acquirePoolLock task idx = some c') : Flagged (s.goTo task c' (some p)) := by
  simp only [acquirePoolLock, Option.bind_eq_bind, Option.bind_eq_some_iff, Option.pure_def,
    Option.some.injEq] at hc
  obtain ⟨lock, hlock, rfl⟩ := hc
  refine h.goTo hpc (fun _ => rfl) ?_ ?_ (.inr ⟨rfl, fun _ _ _ => hahead⟩)
  · intro i
    by_cases hi : i = idx
    · subst hi
      show LockFits (Function.update s.cluster.poolLocks i lock i) _
      rw [Function.update_self]
      exact fits_of_acquire (h.pools i) (h.task_ne hpc) hpc (by simp [hpool]) hlock hpool'
    · refine fits_of_same (h.pools i) (Function.update_of_ne hi _ _) ?_
      rw [at_task hpc]
      simp [hpool, hpool', Ne.symm hi]
  · refine fits_of_same h.table rfl ?_
    rw [at_task hpc]
    simp [htable]

/-- The task gives the lock of a pool back. -/
theorem Flagged.releasePool (h : Flagged s) (hpc : s.pc task = some pc) {idx : Nat} (p : CallPc)
    (hpool : pc.holdsPool = some idx) (hpool' : p.holdsPool = none)
    (htable : p.holdsTable = pc.holdsTable) :
    Flagged (s.goTo task (s.cluster.releasePoolLock task idx) (some p)) := by
  refine h.goTo hpc (fun _ => rfl) ?_ ?_
    (.inr ⟨rfl, fun _ _ _ => CallPc.locksAhead_of_holdsPool hpool⟩)
  · intro i
    by_cases hi : i = idx
    · subst hi
      show LockFits (Function.update s.cluster.poolLocks i _ i) _
      rw [Function.update_self]
      refine fits_of_release (h.pools i) hpc hpool ?_
      rintro q ⟨⟩
      simp [hpool']
    · refine fits_of_same (h.pools i) (Function.update_of_ne hi _ _) ?_
      rw [at_task hpc]
      simp [hpool, hpool', Ne.symm hi]
  · refine fits_of_same h.table rfl ?_
    rw [at_task hpc]
    simp [htable]

/-- The task takes `hashtable_lock`. -/
theorem Flagged.acquireTable (h : Flagged s) (hpc : s.pc task = some pc) (p : CallPc)
    (hpool : p.holdsPool = pc.holdsPool) (htable : pc.holdsTable = false)
    (htable' : p.holdsTable = true) (hahead : pc.locksAhead = true) {lock : Mutex}
    (hlock : s.cluster.hashtableLock.acquire task = some lock) :
    Flagged (s.goTo task { s.cluster with hashtableLock := lock } (some p)) := by
  refine h.goTo hpc (fun _ => rfl) ?_ ?_ (.inr ⟨rfl, fun _ _ _ => hahead⟩)
  · intro i
    refine fits_of_same (h.pools i) rfl ?_
    rw [at_task hpc]
    simp [hpool]
  · exact fits_of_acquire h.table (h.task_ne hpc) hpc (by simp [htable]) hlock htable'

/-- The task gives `hashtable_lock` back. -/
theorem Flagged.releaseTable (h : Flagged s) (hpc : s.pc task = some pc) (p : CallPc)
    (hpool : p.holdsPool = pc.holdsPool) (htable : pc.holdsTable = true)
    (htable' : p.holdsTable = false) :
    Flagged (s.goTo task { s.cluster with hashtableLock := s.cluster.hashtableLock.release task }
      (some p)) := by
  refine h.goTo hpc (fun _ => rfl) ?_ ?_
    (.inr ⟨rfl, fun _ _ _ => CallPc.locksAhead_of_holdsTable htable⟩)
  · intro i
    refine fits_of_same (h.pools i) rfl ?_
    rw [at_task hpc]
    simp [hpool]
  · refine fits_of_release h.table hpc htable ?_
    rintro q ⟨⟩
    simp [htable']

/-- **Every step of a call keeps the invariant.** -/
theorem Flagged.advance (h : Flagged s) (hpc : s.pc task = some pc)
    (hfinds : s.FindsFree (.step task fuel))
    (halone : pc = .clearFlag → ∀ t, t ≠ task → ¬ At s.pc (fun pc => pc.locksAhead = true) t)
    (hs : s.advance fuel task pc = some s') : Flagged s' := by
  cases pc <;> simp only [ClusterSystem.advance, Option.bind_eq_bind, Option.bind_eq_some_iff] at hs
  case allocSet requiredSize =>
    split at hs
    · cases hs
      exact h.set hpc .clearFlag rfl rfl
    · split at hs <;> cases hs
      · exact h.set hpc .clearFlag rfl rfl
      · exact h.set hpc (.acquirePool _ _) rfl rfl
  case acquirePool initialIdx idx =>
    obtain ⟨c, hlock, hs⟩ := hs
    cases hs
    rw [h.pool_lock] at hlock
    exact h.acquirePool hpc (.checkFree initialIdx idx) rfl rfl rfl rfl hlock
  case checkFree initialIdx idx =>
    simp only [FindsFree, hpc] at hfinds
    rw [if_pos hfinds] at hs
    cases hs
    exact h.quiet hpc (.detach idx) (.refl _) rfl rfl fun _ => rfl
  case detach idx =>
    cases hs
    exact h.quiet hpc (.acquireTable idx _) (.detachFirstBlock _ idx) rfl rfl fun _ => rfl
  case acquireTable idx block =>
    obtain ⟨lock, hlock, hs⟩ := hs
    cases hs
    exact h.acquireTable hpc (.link idx block) rfl rfl rfl rfl hlock
  case link idx block =>
    cases hs
    exact h.quiet hpc (.releaseTable idx block) (.linkBlock _ block) rfl rfl fun _ => rfl
  case releaseTable idx block =>
    cases hs
    exact h.releaseTable hpc (.releasePool idx block) rfl rfl rfl
  case releasePool idx block =>
    rw [h.pool_lock] at hs
    cases hs
    exact h.releasePool hpc (.clear block) rfl rfl rfl
  case clear block =>
    cases hs
    exact h.quiet hpc .clearFlag ⟨rfl, rfl, rfl, fun _ => rfl⟩ rfl rfl (fun h => by cases h)
  case freeSet memblockHeadPtr =>
    cases hs
    exact h.set hpc (.freeAcquireTable memblockHeadPtr) rfl rfl
  case freeAcquireTable memblockHeadPtr =>
    obtain ⟨lock, hlock, hs⟩ := hs
    cases hs
    exact h.acquireTable hpc (.freeFind memblockHeadPtr) rfl rfl rfl rfl hlock
  case freeFind memblockHeadPtr =>
    split at hs <;> cases hs
    · exact h.quiet hpc (.freeReleaseTable NULL) (.refl _) rfl rfl fun _ => rfl
    · exact h.quiet hpc (.freeReleaseTable _) (.unlinkBlock _ _ _ _) rfl rfl fun _ => rfl
  case freeReleaseTable block =>
    split at hs
    · cases hs
      exact h.releaseTable hpc .clearFlag rfl rfl rfl
    · obtain ⟨idx, -, hs⟩ := Option.bind_eq_some_iff.mp hs
      cases hs
      exact h.releaseTable hpc (.freeAcquirePool idx block) rfl rfl rfl
  case freeAcquirePool idx block =>
    obtain ⟨c, hlock, hs⟩ := hs
    cases hs
    exact h.acquirePool hpc (.freeAdd idx block) rfl rfl rfl rfl hlock
  case freeAdd idx block =>
    cases hs
    exact h.quiet hpc (.freeReleasePool idx) (.addBlockToPool _ idx block) rfl rfl fun _ => rfl
  case freeReleasePool idx =>
    cases hs
    exact h.releasePool hpc .clearFlag rfl rfl rfl
  case clearFlag =>
    cases hs
    -- no other call has a lock ahead, so the flag may be cleared
    have hnone : ∀ t, ¬ At (Function.update s.pc task none) (fun pc => pc.locksAhead = true) t := by
      intro t ht
      rcases at_update.mp ht with ⟨-, p, hp, -⟩ | ⟨hne, hother⟩
      · cases hp
      · exact halone rfl t hne hother
    refine { null := ?_, pool_lock := h.pool_lock, pools := ?_, table := ?_, flag := ?_ }
    · show Function.update s.pc task none NULL = none
      rw [Function.update_of_ne (h.task_ne hpc).symm]
      exact h.null
    · intro i
      refine fits_of_same (h.pools i) rfl ?_
      rw [at_task hpc]
      simp [CallPc.holdsPool]
    · refine fits_of_same h.table rfl ?_
      rw [at_task hpc]
      simp [CallPc.holdsTable]
    · exact fun t ht => absurd ht (hnone t)

end Steps

/-! ## The frees of the scheduler -/

section Free

variable {c c' : Memcluster} {fuel caller memblockHeadPtr : Nat}

theorem recoverBlockFromBucket_sameLocks {block : Nat} (hzero : c.hashtableLock.FreeIsZero)
    (hne : c.hashtableLock.tcbPointer ≠ caller)
    (h : c.recoverBlockFromBucket fuel caller memblockHeadPtr = some (c', block)) :
    SameLocks c c' := by
  simp only [recoverBlockFromBucket, Option.bind_eq_bind, Option.bind_eq_some_iff] at h
  obtain ⟨lock, hlock, found, hfind, h⟩ := h
  have hback : lock.release caller = c.hashtableLock := Mutex.release_acquire hlock hzero hne
  -- whatever is done under the lock, the lock is given back as it was
  have hsame : ∀ x : Memcluster, SameLocks { c with hashtableLock := lock } x →
      SameLocks c { x with hashtableLock := x.hashtableLock.release caller } := by
    intro x hx
    refine ⟨hx.poolLocks, ?_, hx.clusterInUseFLAG, hx.pool_lock⟩
    show x.hashtableLock.release caller = c.hashtableLock
    rw [hx.hashtableLock]
    exact hback
  split at h <;> cases h
  · exact hsame _ (.unlinkBlock _ _ _ _)
  · exact hsame _ (.refl _)

/-- A free while nobody holds a lock of the cluster leaves the locks as they
were. -/
theorem deallocate_locks (hflag : c.clusterInUseFLAG = 0) (htable : c.hashtableLock.FreeIsZero)
    (htable' : c.hashtableLock.tcbPointer ≠ caller) (hpools : ∀ i, (c.poolLocks i).FreeIsZero)
    (hpools' : ∀ i, (c.poolLocks i).tcbPointer ≠ caller)
    (h : c.deallocate fuel caller memblockHeadPtr = some c') : SameLocks c c' := by
  simp only [deallocate, Option.bind_eq_bind, Option.bind_eq_some_iff] at h
  obtain ⟨⟨c₁, block⟩, hrecover, h⟩ := h
  have hsame : SameLocks { c with clusterInUseFLAG := 1 } c₁ :=
    recoverBlockFromBucket_sameLocks htable htable' hrecover
  split at h
  · cases h
    exact ⟨hsame.poolLocks, hsame.hashtableLock, hflag.symm, hsame.pool_lock⟩
  · simp only [Option.bind_eq_some_iff, acquirePoolLock, Option.bind_eq_bind, Option.pure_def,
      Option.some.injEq] at h
    obtain ⟨idx, -, c₂, ⟨lock, hlock, rfl⟩, rfl⟩ := h
    have hadd := SameLocks.addBlockToPool
      { c₁ with poolLocks := Function.update c₁.poolLocks idx lock } idx block
    rw [hsame.poolLocks] at hlock
    have hback : lock.release caller = c.poolLocks idx :=
      Mutex.release_acquire hlock (hpools idx) (hpools' idx)
    refine ⟨?_, hadd.hashtableLock.trans hsame.hashtableLock, hflag.symm,
      fun i => (hadd.pool_lock i).trans (hsame.pool_lock i)⟩
    show Function.update (Memcluster.addBlockToPool _ idx block).poolLocks idx
      (((Memcluster.addBlockToPool _ idx block).poolLocks idx).release caller) = c.poolLocks
    rw [hadd.poolLocks]
    show Function.update (Function.update c₁.poolLocks idx lock) idx
      ((Function.update c₁.poolLocks idx lock idx).release caller) = c.poolLocks
    rw [Function.update_self, hback, hsame.poolLocks, Function.update_idem, Function.update_eq_self]

end Free

/-- While the flag is 0, nobody holds a lock. -/
theorem Flagged.free {s : ClusterSystem} (h : Flagged s) (hflag : s.cluster.clusterInUseFLAG = 0) :
    (∀ i, (s.cluster.poolLocks i).tcbPointer = NULL) ∧
      s.cluster.hashtableLock.tcbPointer = NULL := by
  have hnone : ∀ task, ¬ At s.pc (fun pc => pc.locksAhead = true) task := fun task ht =>
    h.flag task ht hflag
  constructor
  · refine fun i => (h.pools i).eq_null ?_
    intro task
    rintro ⟨pc, hpc, hholds⟩
    exact hnone task ⟨pc, hpc, CallPc.locksAhead_of_holdsPool hholds⟩
  · refine h.table.eq_null ?_
    intro task
    rintro ⟨pc, hpc, hholds⟩
    exact hnone task ⟨pc, hpc, CallPc.locksAhead_of_holdsTable hholds⟩

/-- The invariant, with the tasks that are in a call. -/
structure FlaggedTasks (tasks : Finset Nat) (s : ClusterSystem) : Prop where
  not_null : NULL ∉ tasks
  calls : ∀ task, s.pc task ≠ none → task ∈ tasks
  flagged : Flagged s

section Machine

variable {tasks : Finset Nat} {s s' : ClusterSystem}

/-- A task enters a function. -/
theorem Flagged.call (h : Flagged s) {task : Nat} (htask : task ≠ NULL) (hpc : s.pc task = none)
    (p : CallPc) (hpool : p.holdsPool = none) (htable : p.holdsTable = false)
    (hahead : p.locksAhead = false) : Flagged (s.goTo task s.cluster (some p)) := by
  have hout : ∀ f : CallPc → Prop, ¬ At s.pc f task := by
    rintro f ⟨q, hq, -⟩
    rw [hpc] at hq
    cases hq
  refine { null := ?_, pool_lock := h.pool_lock, pools := ?_, table := ?_, flag := ?_ }
  · show Function.update s.pc task (some p) NULL = none
    rw [Function.update_of_ne htask.symm]
    exact h.null
  · intro i
    refine fits_of_same (h.pools i) rfl (iff_of_false ?_ (hout _))
    simp [hpool]
  · refine fits_of_same h.table rfl (iff_of_false ?_ (hout _))
    simp [htable]
  · intro t ht
    rcases at_update.mp ht with ⟨-, q, ⟨⟩, hq⟩ | ⟨-, hother⟩
    · rw [hahead] at hq
      cases hq
    · exact h.flag t hother

theorem calls_goTo (hcalls : ∀ task, s.pc task ≠ none → task ∈ tasks) {task : Nat}
    (htask : task ∈ tasks) (c : Memcluster) (pc' : Option CallPc) :
    ∀ t, (s.goTo task c pc').pc t ≠ none → t ∈ tasks := by
  intro t ht
  by_cases heq : t = task
  · exact heq ▸ htask
  · have hother : (s.goTo task c pc').pc t = s.pc t := Function.update_of_ne heq _ _
    exact hcalls t (hother ▸ ht)

/-- Only the place of the task that steps changes. -/
theorem advance_pc {fuel task : Nat} {pc : CallPc} (hs : s.advance fuel task pc = some s') {t : Nat}
    (ht : t ≠ task) : s'.pc t = s.pc t := by
  have hgo : ∀ c pc', (s.goTo task c pc').pc t = s.pc t := fun c pc' =>
    Function.update_of_ne ht _ _
  cases pc <;> simp only [ClusterSystem.advance, Option.bind_eq_bind, Option.bind_eq_some_iff] at hs
  case allocSet =>
    split at hs
    · cases hs
      exact hgo _ _
    · split at hs <;> cases hs <;> exact hgo _ _
  case checkFree =>
    split at hs <;> cases hs <;> exact hgo _ _
  case freeFind =>
    split at hs <;> cases hs <;> exact hgo _ _
  case freeReleaseTable =>
    split at hs
    · cases hs
      exact hgo _ _
    · obtain ⟨idx, -, hs⟩ := Option.bind_eq_some_iff.mp hs
      cases hs
      exact hgo _ _
  all_goals first
    | cases hs; exact hgo _ _
    | obtain ⟨_, -, hs⟩ := hs; cases hs; exact hgo _ _

/-- A task makes a call. -/
theorem FlaggedTasks.enter (h : FlaggedTasks tasks s) {task : Nat} {p : CallPc}
    (htask : task ∈ tasks) (hpc : s.pc task = none) (hpool : p.holdsPool = none)
    (htable : p.holdsTable = false) (hahead : p.locksAhead = false) :
    FlaggedTasks tasks (s.goTo task s.cluster (some p)) :=
  ⟨h.not_null, calls_goTo h.calls htask _ _,
    h.flagged.call (ne_of_mem_of_not_mem htask h.not_null) hpc p hpool htable hahead⟩

/-- **Every step of the machine keeps the invariant.** -/
theorem FlaggedTasks.step {e : ClusterEvent} (h : FlaggedTasks tasks s) (hfinds : s.FindsFree e)
    (halone : s.EndsAlone tasks e) (hs : s.step tasks e = some s') : FlaggedTasks tasks s' := by
  cases e with
  | allocate task requiredSize =>
    simp only [ClusterSystem.step] at hs
    split at hs
    · rename_i hok
      cases hs
      exact h.enter hok.1 hok.2 rfl rfl rfl
    · cases hs
  | deallocate task memblockHeadPtr =>
    simp only [ClusterSystem.step] at hs
    split at hs
    · rename_i hok
      cases hs
      exact h.enter hok.1 hok.2 rfl rfl rfl
    · cases hs
  | step task fuel =>
    obtain ⟨pc, hpc, hs⟩ := Option.bind_eq_some_iff.mp hs
    refine ⟨h.not_null, ?_, h.flagged.advance hpc hfinds ?_ hs⟩
    · intro t ht
      by_cases heq : t = task
      · exact h.calls t (by simp [heq, hpc])
      · exact h.calls t (by rwa [advance_pc hs heq] at ht)
    · -- a call clears the flag at its end only, and then no other one is under way
      rintro rfl t hne ⟨q, hq, hahead⟩
      have hother := halone hpc t (h.calls t (by simp [hq])) hne
      rw [hq] at hother
      exact absurd (hahead.symm.trans hother) (by decide)
  | schedulerFree currentTCB memblockHeadPtr fuel =>
    simp only [ClusterSystem.step] at hs
    split at hs
    · rename_i hok
      obtain ⟨c, hfree, hs⟩ := Option.bind_eq_some_iff.mp hs
      cases hs
      obtain ⟨hpools, htable⟩ := h.flagged.free hok.2
      -- the scheduler leaves the locks as it finds them
      have hsame : SameLocks s.cluster c := deallocate_locks hok.2 h.flagged.table.free
        (htable ▸ hok.1.symm) (fun i => (h.flagged.pools i).free) (fun i => hpools i ▸ hok.1.symm)
        hfree
      refine ⟨h.not_null, h.calls, ?_⟩
      refine
        { null := h.flagged.null
          pool_lock := fun i => (hsame.pool_lock i).trans (h.flagged.pool_lock i)
          pools := fun i => ?_
          table := ?_
          flag := fun t ht => ?_ }
      · show LockFits (c.poolLocks i) _
        rw [hsame.poolLocks]
        exact h.flagged.pools i
      · show LockFits c.hashtableLock _
        rw [hsame.hashtableLock]
        exact h.flagged.table
      · show c.clusterInUseFLAG ≠ 0
        rw [hsame.clusterInUseFLAG]
        exact h.flagged.flag t ht
    · cases hs

theorem clusterMachine_flagged (h : (clusterMachine tasks).init s) : FlaggedTasks tasks s := by
  obtain ⟨hnull, hpc, c, memoryArray, memorySize, htable, hcluster⟩ := h
  have hnone : ∀ (f : CallPc → Prop) t, ¬ At s.pc f t := by
    rintro f t ⟨q, hq, -⟩
    rw [hpc] at hq
    cases hq
  have hfree : ∀ (lock : Mutex) (f : CallPc → Prop), lock.tcbPointer = NULL → lock.counter = 0 →
      LockFits lock (At s.pc f) := by
    intro lock f hpointer hcounter
    refine ⟨fun _ => hcounter, fun hne => absurd hpointer hne, ?_⟩
    intro t
    refine iff_of_false (hnone f t) ?_
    rintro ⟨hne, heq⟩
    exact hne (heq.symm.trans hpointer)
  -- the loop that carves the blocks touches no lock
  have hcarve := SameLocks.carve ((alignArray memoryArray memorySize).2 + NUMBER_OF_POOLS) 0 0
    (alignArray memoryArray memorySize).1 (alignArray memoryArray memorySize).2
    { c with
        clusterInUseFLAG := 0
        memory := clearWords memorySize memoryArray c.memory
        poolLocks := fun _ => initMutex
        pools := emptyPools } []
  have hsame : SameLocks
      { c with
          clusterInUseFLAG := 0
          memory := clearWords memorySize memoryArray c.memory
          poolLocks := fun _ => initMutex
          pools := emptyPools } s.cluster := by
    rw [hcluster]
    exact ⟨hcarve.poolLocks, hcarve.hashtableLock, hcarve.clusterInUseFLAG, hcarve.pool_lock⟩
  refine ⟨hnull, fun t ht => absurd (hpc t) ht, ?_⟩
  refine
    { null := hpc NULL
      pool_lock := fun i => hsame.pool_lock i
      pools := fun i => ?_
      table := ?_
      flag := fun t ht => absurd ht (hnone _ t) }
  · rw [hsame.poolLocks]
    exact hfree _ _ rfl rfl
  · rw [hsame.hashtableLock]
    exact hfree _ _ (congrArg Mutex.tcbPointer htable) (congrArg Mutex.counter htable)

/-- **The flag protects the frees of the scheduler**: in the runs in which no call
clears the flag under another one that has set it and has a lock to take or to
give back, every lock is free whenever the flag is 0. -/
theorem flag_protects
    (h : ((clusterMachine tasks).guard fun s e => s.FindsFree e ∧ s.EndsAlone tasks e).Reach s)
    (hflag : s.cluster.clusterInUseFLAG = 0) :
    (∀ i, (s.cluster.poolLocks i).tcbPointer = NULL) ∧
      s.cluster.hashtableLock.tcbPointer = NULL := by
  have hinv : FlaggedTasks tasks s := by
    refine h.invariant ?_ ?_
    · exact fun s hs => clusterMachine_flagged hs
    · intro s e s' hs hstep
      obtain ⟨⟨hfinds, halone⟩, hstep⟩ := Machine.guard_step_iff.mp hstep
      exact hs.step hfinds halone hstep
  exact hinv.flagged.free hflag

end Machine

/-- A cluster with one block in every pool, and nobody in a call. -/
def sampleCluster : ClusterSystem where
  cluster := (memoryClusterInit staleCluster 4096 512).1
  pc _ := none

theorem sampleCluster_init : (clusterMachine {7, 8}).init sampleCluster :=
  ⟨by decide, fun _ => rfl, staleCluster, 4096, 512, rfl, rfl⟩

/-- Two calls of `allocate` in step, up to the lock of the hashtable, which they take in turn;
neither clears the flag before both have given their locks back. Then the scheduler frees one
of the blocks. -/
def overlappingCalls : List ClusterEvent :=
  [.allocate 7 10, .allocate 8 20] ++
    (List.replicate 4 [.step 7 0, .step 8 0]).flatten ++ List.replicate 3 (.step 7 0) ++
    List.replicate 3 (.step 8 0) ++ (List.replicate 3 [.step 7 0, .step 8 0]).flatten ++
    [.schedulerFree 7 4112 3]

theorem flag_protects_overlapping :
    ∃ s, ((clusterMachine {7, 8}).guard fun s e => s.FindsFree e ∧ s.EndsAlone {7, 8} e).run
        sampleCluster overlappingCalls = some s ∧
      (s.cluster.clusterInUseFLAG = 0 ∧ (s.cluster.pools 0).freeBlocks = 1 ∧
        (s.cluster.pools 1).freeBlocks = 0) ∧
      (∀ i, (s.cluster.poolLocks i).tcbPointer = NULL) ∧
        s.cluster.hashtableLock.tcbPointer = NULL := by
  obtain ⟨s, hrun, hflag, hblocks⟩ := Machine.exists_run
    (M := (clusterMachine {7, 8}).guard fun s e => s.FindsFree e ∧ s.EndsAlone {7, 8} e)
    (P := fun s => s.cluster.clusterInUseFLAG = 0 ∧ (s.cluster.pools 0).freeBlocks = 1 ∧
      (s.cluster.pools 1).freeBlocks = 0)
    (s := sampleCluster) (e := overlappingCalls) (by decide +kernel)
  have hreach : ((clusterMachine {7, 8}).guard fun s e =>
      s.FindsFree e ∧ s.EndsAlone {7, 8} e).Reach s :=
    Machine.Reach.run (.init sampleCluster_init) hrun
  exact ⟨s, hrun, ⟨hflag, hblocks⟩, flag_protects hreach hflag⟩

/-- Task 7 has taken the lock of a pool; task 8 asks for 0 words and clears the
flag. -/
theorem flag_cleared_under_lock :
    ¬ ∀ tasks s, ((clusterMachine tasks).guard fun s e => s.FindsFree e).Reach s →
      s.cluster.clusterInUseFLAG = 0 → ∀ i, (s.cluster.poolLocks i).tcbPointer = NULL := by
  intro h
  obtain ⟨s, hrun, hflag, hheld⟩ := Machine.exists_run
    (M := (clusterMachine {7, 8}).guard fun s e => s.FindsFree e)
    (P := fun s => s.cluster.clusterInUseFLAG = 0 ∧ (s.cluster.poolLocks 0).tcbPointer = 7)
    (s := sampleCluster)
    (e := [.allocate 7 10, .step 7 0, .step 7 0, .allocate 8 0, .step 8 0, .step 8 0])
    (by decide +kernel)
  have hreach : ((clusterMachine {7, 8}).guard fun s e => s.FindsFree e).Reach s :=
    Machine.Reach.run (.init sampleCluster_init) hrun
  rw [h _ s hreach hflag 0] at hheld
  cases hheld

end ClusterSystem

end DocetOS.Memcluster
