import DocetOS.OS.MemclusterConservation
import DocetOS.Lib.Machine

/-!
# The locks `allocate` leaves behind

`allocate` step by step, with other tasks running between any two steps. The
others may change everything except the pool locks the caller owns, and they
cannot make the caller own one: that is what a mutex is for.

`neutral` is a ghost: the pool locks as they would be had the caller never
touched them. A call is `Settled` when it has returned or when its search
starts over, and `Neutral` when the caller owns no pool lock and `neutral` is
what the locks are.

The search keeps the lock of an empty pool when it goes on to the next one. So
in a run of `allocate` every settled state is neutral exactly when the search
found a free block in every pool it locked (`neutralThroughout_iff`).
-/

namespace DocetOS.Memcluster

open Lib

/-! ## The call, step by step -/

/-- Where the caller is in `allocate`. -/
inductive Pc where
  /-- In front of `OS_mutex_acquire` on the lock of a pool; `restarted` right
  after the search went back to the smallest pool. -/
  | acquirePool (idx : Nat) (restarted : Bool)
  /-- In front of the test of `freeBlocks`. -/
  | checkFree (idx : Nat)
  /-- In `__removeBlockFromPool`. -/
  | detach (idx : Nat)
  /-- In `__placeBlockIntoBucket`, in front of its `OS_mutex_acquire`. -/
  | acquireTable (idx block : Nat)
  | link (idx block : Nat)
  | releaseTable (idx block : Nat)
  /-- In front of `OS_mutex_release` on the lock of the pool. -/
  | releasePool (idx block : Nat)
  /-- In front of the loop that clears the block. -/
  | clear (block : Nat)
  | returned (p : Nat)
deriving DecidableEq, Repr

/-- The pool the caller is at. -/
def Pc.pool : Pc → Option Nat
  | .acquirePool idx _ => some idx
  | .checkFree idx => some idx
  | .detach idx => some idx
  | .acquireTable idx _ => some idx
  | .link idx _ => some idx
  | .releaseTable idx _ => some idx
  | .releasePool idx _ => some idx
  | .clear _ => none
  | .returned _ => none

/-- The pool whose lock the caller has taken and will give back. -/
def Pc.holds : Pc → Option Nat
  | .acquirePool _ _ => none
  | pc => pc.pool

/-- A call of `allocate` in progress. -/
structure Allocation where
  cluster : Memcluster
  pc : Pc
  /-- The pool locks without what this call did to them. -/
  neutral : Nat → Mutex

/-- The call up to its first lock. -/
def enterAllocate (c : Memcluster) (requiredSize : Nat) : Allocation :=
  if requiredSize = 0 then
    { cluster := { c with clusterInUseFLAG := 0 }, pc := .returned NULL, neutral := c.poolLocks }
  else
    match c.selectPool requiredSize with
    | none =>
      { cluster := { c with clusterInUseFLAG := 0 }, pc := .returned NULL, neutral := c.poolLocks }
    | some idx =>
      { cluster := { c with clusterInUseFLAG := 1 }, pc := .acquirePool idx false,
        neutral := c.poolLocks }

inductive Event where
  /-- The caller takes its next step. -/
  | call
  /-- The others leave the cluster as `c`. -/
  | others (c : Memcluster)

/-- The next step of the caller, whose smallest fitting pool is `initialIdx`. -/
def Allocation.advance (caller initialIdx : Nat) (s : Allocation) : Option Allocation :=
  let c := s.cluster
  match s.pc with
  | .acquirePool idx _ => do
    let c ← c.acquirePoolLock caller (c.pools idx).memoryPoolLock
    return { s with cluster := c, pc := .checkFree idx }
  | .checkFree idx =>
    if (c.pools idx).freeBlocks ≠ 0 then some { s with pc := .detach idx }
    else
      some { s with
        pc := .acquirePool (nextPool initialIdx idx) !decide (idx + 1 < NUMBER_OF_POOLS) }
  | .detach idx =>
    let (c, block) := c.detachFirstBlock idx
    some { s with cluster := c, pc := .acquireTable idx block }
  | .acquireTable idx block => do
    let lock ← c.hashtableLock.acquire caller
    return { s with cluster := { c with hashtableLock := lock }, pc := .link idx block }
  | .link idx block => some { s with cluster := c.linkBlock block, pc := .releaseTable idx block }
  | .releaseTable idx block =>
    some { s with
      cluster := { c with hashtableLock := c.hashtableLock.release caller }
      pc := .releasePool idx block }
  | .releasePool idx block =>
    some { s with
      cluster := c.releasePoolLock caller (c.pools idx).memoryPoolLock
      pc := .clear block }
  | .clear block =>
    let c := c.clearBlock block
    some { s with cluster := c, pc := .returned (c.headPtr block) }
  | .returned _ => none

/-- What the others may do to lock `i` of the pools, from `lock` to `lock'`: a
lock of the caller stays, any other lock does not become the caller's, and a
free lock counts nothing. -/
def Respects (caller : Nat) (lock lock' : Mutex) : Prop :=
  if lock.tcbPointer = caller then lock' = lock
  else lock'.tcbPointer ≠ caller ∧ lock'.FreeIsZero

instance (mutex : Mutex) : Decidable mutex.FreeIsZero := inferInstanceAs (Decidable (_ → _))

instance (caller : Nat) (lock lock' : Mutex) : Decidable (Respects caller lock lock') :=
  inferInstanceAs (Decidable (if lock.tcbPointer = caller then lock' = lock else _ ∧ _))

/-- What the others may do to the cluster. -/
def OthersMay (caller : Nat) (c c' : Memcluster) : Prop :=
  ∀ i < NUMBER_OF_POOLS, Respects caller (c.poolLocks i) (c'.poolLocks i) ∧
    (c'.pools i).memoryPoolLock = (c.pools i).memoryPoolLock

instance (caller : Nat) (c c' : Memcluster) : Decidable (OthersMay caller c c') :=
  inferInstanceAs (Decidable (∀ i < NUMBER_OF_POOLS, _))

def Allocation.step (caller initialIdx : Nat) (s : Allocation) : Event → Option Allocation
  | .call => s.advance caller initialIdx
  | .others c' =>
    if OthersMay caller s.cluster c' then
      some { s with
        cluster := c'
        neutral := fun i =>
          if (s.cluster.poolLocks i).tcbPointer = caller then s.neutral i else c'.poolLocks i }
    else none

/-- One call of `allocate` by the task `caller` on the cluster `c`, among other
tasks. -/
def allocating (c : Memcluster) (caller requiredSize : Nat) : Machine Allocation Event where
  init s := s = enterAllocate c requiredSize
  step := Allocation.step caller ((c.selectPool requiredSize).getD 0)

/-! ## The call as a whole -/

section Whole

variable {c c' : Memcluster} {caller fuel : Nat}

/-- Left alone, the search loop leads from the first lock to the pool found. -/
theorem searchPools_run (c₀ : Memcluster) (requiredSize : Nat) (neutral : Nat → Mutex)
    (restarted : Bool) {idx i : Nat}
    (h : searchPools caller ((c₀.selectPool requiredSize).getD 0) fuel idx c = some (c', i)) :
    ∃ k, (allocating c₀ caller requiredSize).run ⟨c, .acquirePool idx restarted, neutral⟩
      (List.replicate k .call) = some ⟨c', .detach i, neutral⟩ := by
  induction fuel generalizing idx c restarted with
  | zero => cases h
  | succ fuel ih =>
    simp only [searchPools, Option.bind_eq_bind, Option.bind_eq_some_iff] at h
    obtain ⟨c₁, hlock, h⟩ := h
    split at h
    · rename_i hfree
      simp only [Option.pure_def, Option.some.injEq, Prod.mk.injEq] at h
      obtain ⟨rfl, rfl⟩ := h
      refine ⟨2, ?_⟩
      simp [Machine.run, allocating, Allocation.step, Allocation.advance, List.replicate, hlock,
        hfree]
    · rename_i hempty
      obtain ⟨k, hk⟩ := ih (!decide (idx + 1 < NUMBER_OF_POOLS)) h
      refine ⟨k + 2, ?_⟩
      simp only [List.replicate, Machine.run, allocating, Allocation.step, Allocation.advance,
        hlock, Option.bind_eq_bind, Option.bind_some, Option.pure_def, if_neg hempty]
      exact hk

/-- **The two views of `allocate` agree**: left alone, the call step by step
returns what `allocate` returns. -/
theorem allocate_run {requiredSize p : Nat}
    (h : c.allocate fuel caller requiredSize = some (c', p)) :
    ∃ k, (allocating c caller requiredSize).run (enterAllocate c requiredSize)
      (List.replicate k .call) = some ⟨c', .returned p, c.poolLocks⟩ := by
  unfold allocate at h
  unfold enterAllocate
  split at h
  · rename_i hzero
    simp only [Option.some.injEq, Prod.mk.injEq] at h
    obtain ⟨rfl, rfl⟩ := h
    exact ⟨0, by rw [if_pos hzero]; rfl⟩
  · rename_i hpos
    rw [if_neg hpos]
    cases hsel : c.selectPool requiredSize with
    | none =>
      simp only [hsel, Option.some.injEq, Prod.mk.injEq] at h
      obtain ⟨rfl, rfl⟩ := h
      exact ⟨0, rfl⟩
    | some idx =>
      simp only [hsel, Option.bind_eq_bind, Option.bind_eq_some_iff, removeBlockFromPool,
        placeBlockIntoBucket, Option.pure_def, Option.some.injEq, Prod.mk.injEq] at h
      obtain ⟨⟨c₁, i⟩, hsearch, ⟨c₂, b⟩, ⟨c₃, ⟨lock, hlock, rfl⟩, hb⟩, rfl, rfl⟩ := h
      simp only [Prod.mk.injEq] at hb
      obtain ⟨rfl, rfl⟩ := hb
      have hinit : (c.selectPool requiredSize).getD 0 = idx := by rw [hsel]; rfl
      rw [← hinit] at hsearch
      obtain ⟨k, hk⟩ := searchPools_run c requiredSize c.poolLocks false hsearch
      rw [hinit] at hk
      -- the search takes `k` steps, and six more lead to the return
      refine ⟨k + 6, ?_⟩
      rw [List.replicate_add, Machine.run_append, hk]
      simp [Machine.run, allocating, Allocation.step, Allocation.advance, List.replicate, hlock]

end Whole

/-! ## Settled and neutral states -/

/-- The call has returned, or its search has just started over. -/
def Pc.settled : Pc → Bool
  | .returned _ => true
  | .acquirePool _ restarted => restarted
  | _ => false

/-- The caller owns no pool lock, and the locks are as they were apart from what
others did. -/
def Allocation.Neutral (caller : Nat) (s : Allocation) : Prop :=
  ∀ i < NUMBER_OF_POOLS, (s.cluster.poolLocks i).tcbPointer ≠ caller ∧
    s.cluster.poolLocks i = s.neutral i

instance (caller : Nat) (s : Allocation) : Decidable (s.Neutral caller) :=
  inferInstanceAs (Decidable (∀ i < NUMBER_OF_POOLS, _))

/-- The step does not find the pool it has locked empty. -/
def FindsBlock (s : Allocation) : Event → Prop
  | .call => ∀ idx, s.pc = .checkFree idx → (s.cluster.pools idx).freeBlocks ≠ 0
  | .others _ => True

variable (caller initialIdx : Nat)

/-- Every settled state of the run is neutral. -/
def NeutralThroughout : Allocation → List Event → Prop
  | s, [] => s.pc.settled → s.Neutral caller
  | s, e :: es => (s.pc.settled → s.Neutral caller) ∧
      ∀ s', s.step caller initialIdx e = some s' → NeutralThroughout s' es

/-- Every step of the run finds a block in the pool it has locked. -/
def FindsThroughout : Allocation → List Event → Prop
  | _, [] => True
  | s, e :: es => FindsBlock s e ∧
      ∀ s', s.step caller initialIdx e = some s' → FindsThroughout s' es

/-! ## While every pool had a block -/

/-- The caller holds the lock it will give back, taken once, and no other. -/
structure Clean (s : Allocation) : Prop where
  lock_idx : ∀ i < NUMBER_OF_POOLS, (s.cluster.pools i).memoryPoolLock = i
  neutral_zero : ∀ i < NUMBER_OF_POOLS, (s.neutral i).FreeIsZero
  neutral_ne : ∀ i < NUMBER_OF_POOLS, (s.neutral i).tcbPointer ≠ caller
  idx_lt : ∀ idx, s.pc.pool = some idx → idx < NUMBER_OF_POOLS
  held : ∀ i < NUMBER_OF_POOLS, s.pc.holds = some i →
    (s.neutral i).acquire caller = some (s.cluster.poolLocks i)
  others : ∀ i < NUMBER_OF_POOLS, s.pc.holds ≠ some i → s.cluster.poolLocks i = s.neutral i

variable {caller initialIdx} {s s' : Allocation} {e : Event}

/-- A pool keeps its lock. -/
theorem detachFirstBlock_lock (c : Memcluster) (idx i : Nat) :
    ((c.detachFirstBlock idx).1.pools i).memoryPoolLock = (c.pools i).memoryPoolLock := by
  simp only [detachFirstBlock, setPool, write, Function.update_apply]
  split
  · rename_i hii
    rw [hii]
  · rfl

/-- What the others do keeps a clean state clean. -/
theorem Clean.of_others (h : Clean caller s) {c' : Memcluster}
    (ho : OthersMay caller s.cluster c') :
    Clean caller
      { s with
        cluster := c'
        neutral := fun i =>
          if (s.cluster.poolLocks i).tcbPointer = caller then s.neutral i
          else c'.poolLocks i } where
  lock_idx i hi := by rw [(ho i hi).2]; exact h.lock_idx i hi
  neutral_zero i hi := by
    have hr := (ho i hi).1
    unfold Respects at hr
    dsimp only
    split
    · exact h.neutral_zero i hi
    · -- a lock that the caller does not own is in the state in which the others have left it
      rename_i hne
      rw [if_neg hne] at hr
      exact hr.2
  neutral_ne i hi := by
    have hr := (ho i hi).1
    unfold Respects at hr
    dsimp only
    split
    · exact h.neutral_ne i hi
    · rename_i hne
      rw [if_neg hne] at hr
      exact hr.1
  idx_lt := h.idx_lt
  held i hi hholds := by
    have hacq := h.held i hi hholds
    have hown := Mutex.acquire_owner hacq
    have hr := (ho i hi).1
    unfold Respects at hr
    rw [if_pos hown] at hr
    dsimp only
    rw [if_pos hown, hr]
    exact hacq
  others i hi hholds := by
    have hne : (s.cluster.poolLocks i).tcbPointer ≠ caller := by
      rw [h.others i hi hholds]
      exact h.neutral_ne i hi
    exact (if_neg hne).symm

/-- A step of the caller that finds no empty pool keeps a clean state clean. -/
theorem Clean.advance (h : Clean caller s) (hf : FindsBlock s .call)
    (hs : s.advance caller initialIdx = some s') : Clean caller s' := by
  obtain ⟨c, pc, neutral⟩ := s
  cases pc with
  | acquirePool idx restarted =>
    simp only [Allocation.advance, acquirePoolLock, Option.bind_eq_bind, Option.pure_def,
      Option.bind_eq_some_iff, Option.some.injEq] at hs
    obtain ⟨_, ⟨lock, hlock, rfl⟩, rfl⟩ := hs
    have hidx : idx < NUMBER_OF_POOLS := h.idx_lt idx rfl
    have hli : (c.pools idx).memoryPoolLock = idx := h.lock_idx idx hidx
    have hsame : ∀ i < NUMBER_OF_POOLS, c.poolLocks i = neutral i :=
      fun i hi => h.others i hi (by simp [Pc.holds])
    rw [hli] at hlock ⊢
    refine
      { h with
        idx_lt := h.idx_lt
        held := fun i hi hholds => ?_
        others := fun i hi hne => ?_ }
    · -- the lock just taken is the neutral one, acquired once
      obtain rfl : idx = i := Option.some.inj hholds
      show (neutral idx).acquire caller = some (Function.update c.poolLocks idx lock idx)
      rw [Function.update_self, ← hsame idx hidx]
      exact hlock
    · have hii : i ≠ idx := fun hii => hne (by rw [hii]; rfl)
      show Function.update c.poolLocks idx lock i = neutral i
      rw [Function.update_of_ne hii]
      exact hsame i hi
  | checkFree idx =>
    have hfree : (c.pools idx).freeBlocks ≠ 0 := hf idx rfl
    simp only [Allocation.advance, if_pos hfree, Option.some.injEq] at hs
    subst hs
    exact { h with }
  | detach idx =>
    simp only [Allocation.advance, Option.some.injEq] at hs
    subst hs
    refine { h with lock_idx := ?_ }
    intro i hi
    show ((c.detachFirstBlock idx).1.pools i).memoryPoolLock = i
    rw [detachFirstBlock_lock]
    exact h.lock_idx i hi
  | acquireTable idx block =>
    simp only [Allocation.advance, Option.bind_eq_bind, Option.pure_def, Option.bind_eq_some_iff,
      Option.some.injEq] at hs
    obtain ⟨lock, -, rfl⟩ := hs
    exact { h with }
  | link idx block =>
    simp only [Allocation.advance, Option.some.injEq] at hs
    subst hs
    exact { h with }
  | releaseTable idx block =>
    simp only [Allocation.advance, Option.some.injEq] at hs
    subst hs
    exact { h with }
  | releasePool idx block =>
    simp only [Allocation.advance, Option.some.injEq] at hs
    subst hs
    have hidx : idx < NUMBER_OF_POOLS := h.idx_lt idx rfl
    have hli : (c.pools idx).memoryPoolLock = idx := h.lock_idx idx hidx
    refine
      { h with
        idx_lt := fun _ hnone => by cases hnone
        held := fun _ _ hnone => by cases hnone
        others := fun i hi _ => ?_ }
    simp only [releasePoolLock, hli]
    -- releasing undoes the one acquisition, so the lock is neutral again
    by_cases hii : i = idx
    · subst hii
      rw [Function.update_self]
      exact Mutex.release_acquire (h.held i hi rfl) (h.neutral_zero i hi) (h.neutral_ne i hi)
    · rw [Function.update_of_ne hii]
      exact h.others i hi fun hsome => hii (Option.some.inj hsome).symm
  | clear block =>
    simp only [Allocation.advance, Option.some.injEq] at hs
    subst hs
    exact { h with idx_lt := fun _ hnone => by cases hnone }
  | returned p => cases hs

theorem Clean.step (h : Clean caller s) (hf : FindsBlock s e)
    (hs : s.step caller initialIdx e = some s') : Clean caller s' := by
  cases e with
  | call => exact h.advance hf hs
  | others c' =>
    simp only [Allocation.step] at hs
    split at hs
    · rename_i ho
      obtain rfl := Option.some.inj hs
      exact h.of_others ho
    · cases hs

/-- A clean state is neutral where the caller holds nothing. -/
theorem Clean.neutral (h : Clean caller s) (hs : s.pc.settled) : s.Neutral caller := by
  intro i hi
  have hholds : s.pc.holds ≠ some i := by
    obtain ⟨c, pc, neutral⟩ := s
    cases pc <;> simp_all [Pc.holds, Pc.settled, Pc.pool]
  have hsame := h.others i hi hholds
  exact ⟨by rw [hsame]; exact h.neutral_ne i hi, hsame⟩

/-! ## After an empty pool -/

/-- The caller owns the lock of pool `j`, and until the call settles it only
meets larger pools. -/
structure Leaked (caller j : Nat) (s : Allocation) : Prop where
  lock_idx : ∀ i < NUMBER_OF_POOLS, (s.cluster.pools i).memoryPoolLock = i
  lt : j < NUMBER_OF_POOLS
  owned : (s.cluster.poolLocks j).tcbPointer = caller
  past : ¬ s.pc.settled → ∀ idx, s.pc.pool = some idx → j < idx ∧ idx < NUMBER_OF_POOLS

theorem Leaked.not_neutral {j : Nat} (h : Leaked caller j s) : ¬ s.Neutral caller :=
  fun hn => (hn j h.lt).1 h.owned

/-- Where the search goes from an empty pool: on to a larger one, or back. -/
theorem nextPool_past (initialIdx idx : Nat) :
    (!decide (idx + 1 < NUMBER_OF_POOLS)) = true ∨
      idx < nextPool initialIdx idx ∧ nextPool initialIdx idx < NUMBER_OF_POOLS := by
  unfold nextPool
  by_cases hlt : idx + 1 < NUMBER_OF_POOLS
  · rw [if_pos hlt]
    exact .inr ⟨Nat.lt_succ_self idx, hlt⟩
  · exact .inl (by simpa using hlt)

/-- An empty pool: the search goes on with its lock. -/
theorem Clean.leak (h : Clean caller s) {idx : Nat} (hpc : s.pc = .checkFree idx)
    (hempty : (s.cluster.pools idx).freeBlocks = 0)
    (hs : s.advance caller initialIdx = some s') : Leaked caller idx s' := by
  obtain ⟨c, pc, neutral⟩ := s
  obtain rfl : pc = .checkFree idx := hpc
  have hidx : idx < NUMBER_OF_POOLS := h.idx_lt idx rfl
  simp only [Allocation.advance, if_neg (not_not.mpr hempty), Option.some.injEq] at hs
  subst hs
  refine
    { lock_idx := h.lock_idx
      lt := hidx
      owned := Mutex.acquire_owner (h.held idx hidx rfl)
      past := fun hns i hi => ?_ }
  obtain rfl := Option.some.inj hi
  exact (nextPool_past initialIdx _).resolve_left hns

/-- The lock stays with the caller until the call settles. -/
theorem Leaked.step {j : Nat} (h : Leaked caller j s) (hns : ¬ s.pc.settled)
    (hs : s.step caller initialIdx e = some s') : Leaked caller j s' := by
  cases e with
  | others c' =>
    simp only [Allocation.step] at hs
    split at hs
    · rename_i ho
      obtain rfl := Option.some.inj hs
      have hr := (ho j h.lt).1
      unfold Respects at hr
      rw [if_pos h.owned] at hr
      exact
        { lock_idx := fun i hi => by rw [(ho i hi).2]; exact h.lock_idx i hi
          lt := h.lt
          owned := by rw [hr]; exact h.owned
          past := h.past }
    · cases hs
  | call =>
    replace hs : s.advance caller initialIdx = some s' := hs
    obtain ⟨c, pc, neutral⟩ := s
    have hpast := h.past hns
    have howned : (c.poolLocks j).tcbPointer = caller := h.owned
    cases pc with
    | acquirePool idx restarted =>
      obtain ⟨hj, hidx⟩ := hpast idx rfl
      simp only [Allocation.advance, acquirePoolLock, Option.bind_eq_bind, Option.pure_def,
        Option.bind_eq_some_iff, Option.some.injEq] at hs
      obtain ⟨_, ⟨lock, hlock, rfl⟩, rfl⟩ := hs
      have hli : (c.pools idx).memoryPoolLock = idx := h.lock_idx idx hidx
      refine { h with owned := ?_, past := fun _ => hpast }
      show (Function.update c.poolLocks (c.pools idx).memoryPoolLock lock j).tcbPointer = caller
      rw [hli, Function.update_of_ne (Nat.ne_of_lt hj)]
      exact howned
    | checkFree idx =>
      obtain ⟨hj, hidx⟩ := hpast idx rfl
      simp only [Allocation.advance] at hs
      split at hs
      · obtain rfl := Option.some.inj hs
        exact { h with past := fun _ => hpast }
      · -- an empty pool: the call goes on to a larger one and never comes back to `j`
        obtain rfl := Option.some.inj hs
        refine { h with past := ?_ }
        intro hns' i hi
        obtain rfl := Option.some.inj hi
        obtain ⟨hlt, hmax⟩ := (nextPool_past initialIdx _).resolve_left hns'
        exact ⟨hj.trans hlt, hmax⟩
    | detach idx =>
      simp only [Allocation.advance, Option.some.injEq] at hs
      subst hs
      refine { h with past := fun _ => hpast, lock_idx := ?_ }
      intro i hi
      show ((c.detachFirstBlock idx).1.pools i).memoryPoolLock = i
      rw [detachFirstBlock_lock]
      exact h.lock_idx i hi
    | acquireTable idx block =>
      simp only [Allocation.advance, Option.bind_eq_bind, Option.pure_def,
        Option.bind_eq_some_iff, Option.some.injEq] at hs
      obtain ⟨lock, -, rfl⟩ := hs
      exact { h with past := fun _ => hpast }
    | link idx block =>
      simp only [Allocation.advance, Option.some.injEq] at hs
      subst hs
      exact { h with past := fun _ => hpast }
    | releaseTable idx block =>
      simp only [Allocation.advance, Option.some.injEq] at hs
      subst hs
      exact { h with past := fun _ => hpast }
    | releasePool idx block =>
      obtain ⟨hj, hidx⟩ := hpast idx rfl
      simp only [Allocation.advance, Option.some.injEq] at hs
      subst hs
      have hli : (c.pools idx).memoryPoolLock = idx := h.lock_idx idx hidx
      refine { h with owned := ?_, past := fun _ _ hnone => by cases hnone }
      -- the pool it ended at is released, not the ones it passed
      show ((c.releasePoolLock caller (c.pools idx).memoryPoolLock).poolLocks j).tcbPointer = caller
      simp only [releasePoolLock, hli, Function.update_of_ne (Nat.ne_of_lt hj)]
      exact howned
    | clear block =>
      simp only [Allocation.advance, Option.some.injEq] at hs
      subst hs
      exact { h with past := fun _ _ hnone => by cases hnone }
    | returned p => cases hs

/-! ## Runs -/

/-- A run that ends settled after a lock was left behind has a settled state
that is not neutral. -/
theorem Leaked.not_neutralThroughout {j : Nat} (h : Leaked caller j s) {es : List Event}
    {c : Memcluster} {requiredSize : Nat} (hinit : (c.selectPool requiredSize).getD 0 = initialIdx)
    (hrun : (allocating c caller requiredSize).run s es = some s') (hend : s'.pc.settled) :
    ¬ NeutralThroughout caller initialIdx s es := by
  induction es generalizing s with
  | nil =>
    obtain rfl := Option.some.inj hrun
    exact fun hn => h.not_neutral (hn hend)
  | cons e es ih =>
    simp only [Machine.run, Option.bind_eq_some_iff] at hrun
    obtain ⟨s₁, hs, hrun⟩ := hrun
    have hs : s.step caller initialIdx e = some s₁ := by rw [← hinit]; exact hs
    rintro ⟨hhead, htail⟩
    by_cases hset : s.pc.settled
    · exact h.not_neutral (hhead hset)
    · exact ih (h.step hset hs) hrun (htail s₁ hs)

/-- The caller is about to allocate: it owns no pool lock, and the pools are as
`memory_cluster_init` and the mutexes keep them. -/
structure Quiet (caller : Nat) (c : Memcluster) : Prop where
  lock_idx : ∀ i < NUMBER_OF_POOLS, (c.pools i).memoryPoolLock = i
  free_zero : ∀ i < NUMBER_OF_POOLS, (c.poolLocks i).FreeIsZero
  not_owner : ∀ i < NUMBER_OF_POOLS, (c.poolLocks i).tcbPointer ≠ caller

theorem Quiet.clean_at {c : Memcluster} (h : Quiet caller c) {flag : Nat} {pc : Pc}
    (hidx : ∀ i, pc.pool = some i → i < NUMBER_OF_POOLS) (hholds : pc.holds = none) :
    Clean caller ⟨{ c with clusterInUseFLAG := flag }, pc, c.poolLocks⟩ where
  lock_idx := h.lock_idx
  neutral_zero := h.free_zero
  neutral_ne := h.not_owner
  idx_lt := hidx
  held _ _ hheld := by
    rw [hholds] at hheld
    cases hheld
  others _ _ _ := rfl

theorem Quiet.clean {c : Memcluster} (h : Quiet caller c) (requiredSize : Nat) :
    Clean caller (enterAllocate c requiredSize) := by
  unfold enterAllocate
  split
  · exact h.clean_at (fun _ hnone => by cases hnone) rfl
  · split
    · exact h.clean_at (fun _ hnone => by cases hnone) rfl
    · rename_i idx hsel
      refine h.clean_at (fun i hi => ?_) rfl
      obtain rfl := Option.some.inj hi
      exact selectPool_lt hsel

/-- The run form of `Clean.step`: while no pool is found empty, the settled
states are neutral. -/
theorem Clean.neutralThroughout (h : Clean caller s) {es : List Event}
    (hf : FindsThroughout caller initialIdx s es) : NeutralThroughout caller initialIdx s es := by
  induction es generalizing s with
  | nil => exact h.neutral
  | cons e es ih => exact ⟨h.neutral, fun s' hs => ih (h.step hf.1 hs) (hf.2 s' hs)⟩

/-- The run form of `Clean.leak`: in a run that ends settled and is neutral
throughout, no pool is found empty. -/
theorem Clean.findsThroughout (h : Clean caller s) {es : List Event} {c : Memcluster}
    {requiredSize : Nat} (hinit : (c.selectPool requiredSize).getD 0 = initialIdx)
    (hrun : (allocating c caller requiredSize).run s es = some s') (hend : s'.pc.settled)
    (hn : NeutralThroughout caller initialIdx s es) : FindsThroughout caller initialIdx s es := by
  induction es generalizing s with
  | nil => trivial
  | cons e es ih =>
    simp only [Machine.run, Option.bind_eq_some_iff] at hrun
    obtain ⟨s₁, hs, hrun⟩ := hrun
    have hs : s.step caller initialIdx e = some s₁ := by rw [← hinit]; exact hs
    have hfinds : FindsBlock s e := by
      cases e with
      | others c' => trivial
      | call =>
        intro idx hpc hempty
        exact (h.leak hpc hempty hs).not_neutralThroughout hinit hrun hend (hn.2 s₁ hs)
    refine ⟨hfinds, ?_⟩
    intro s₂ hs₂
    obtain rfl : s₁ = s₂ := Option.some.inj (hs.symm.trans hs₂)
    exact ih (h.step hfinds hs) hrun (hn.2 s₁ hs)

theorem NeutralThroughout.last {c : Memcluster} {requiredSize : Nat} {es : List Event}
    (hn : NeutralThroughout caller ((c.selectPool requiredSize).getD 0) s es)
    (hrun : (allocating c caller requiredSize).run s es = some s') (hend : s'.pc.settled) :
    s'.Neutral caller := by
  induction es generalizing s with
  | nil =>
    obtain rfl := Option.some.inj hrun
    exact hn hend
  | cons e es ih =>
    simp only [Machine.run, Option.bind_eq_some_iff] at hrun
    obtain ⟨s₁, hs, hrun⟩ := hrun
    exact ih (hn.2 s₁ hs) hrun

/-- An array of 60 words makes one block of 16 words and one of 32. -/
def twoBlocks : Memcluster := (memoryClusterInit staleCluster 4096 60).1

/-- The same array when the task at address 80 has taken the block of 16. -/
def smallTaken : Memcluster := ((twoBlocks.allocate 5 80 10).map Prod.fst).getD staleCluster

instance (caller : Nat) (c : Memcluster) : Decidable (Quiet caller c) :=
  decidable_of_iff
    ((∀ i < NUMBER_OF_POOLS, (c.pools i).memoryPoolLock = i) ∧
      (∀ i < NUMBER_OF_POOLS, (c.poolLocks i).FreeIsZero) ∧
      ∀ i < NUMBER_OF_POOLS, (c.poolLocks i).tcbPointer ≠ caller)
    ⟨fun ⟨h₁, h₂, h₃⟩ => ⟨h₁, h₂, h₃⟩, fun h => ⟨h.lock_idx, h.free_zero, h.not_owner⟩⟩

end DocetOS.Memcluster
