import DocetOS.DataStructures.HeapIndex
import DocetOS.OS.Sleepers

/-!
# The books of the scheduler

The scheduler keeps track of a task in five tables, two heaps and the bits of its
TCB. `Lifecycle` is what they say about one task, taken together: a state that no
lifecycle describes is one in which they contradict each other. `Books life s`
says that the tables, heaps and bits of `s` are those of the lifecycles `life`.

A task that falls asleep or waits stays on the scheduler heap until the walk of
the scheduler meets it, so `waiting` and `sleeping` come in two kinds.

- Every callback moves one task from one lifecycle to another (`Books.park`,
  `Books.unpark`, `Books.wakeSleeper`, …), whatever the others are at.
- A task that comes back to a heap needs a free node. There is one when no more
  tasks are ever added than the heaps have nodes (`Books.num_lt`); otherwise it is
  a hypothesis.
- `fresh` is the assumption that no TCB is added again before it has been freed.
  The list of completed tasks is well formed under it.
-/

namespace DocetOS

open Hashtable

/-- Where a task is in the books of the scheduler. -/
inductive Lifecycle where
  /-- Not added, or removed after its exit. -/
  | absent
  /-- Added when the scheduler heap was full. -/
  | rejected
  | active
  /-- Active, and it has called exit. -/
  | ended
  | waiting (onHeap : Bool)
  | sleeping (onHeap : Bool)
deriving DecidableEq, Repr

namespace Lifecycle

def present : Lifecycle → Bool
  | .absent => false
  | _ => true

/-- A key of `activeTasksHashTable`. -/
def isActive : Lifecycle → Bool
  | .rejected | .active | .ended => true
  | _ => false

def isWaiting : Lifecycle → Bool
  | .waiting _ => true
  | _ => false

def isSleeping : Lifecycle → Bool
  | .sleeping _ => true
  | _ => false

/-- The content of a node of the scheduler heap. -/
def onHeap : Lifecycle → Bool
  | .active | .ended => true
  | .waiting onHeap | .sleeping onHeap => onHeap
  | _ => false

/-- A key of `tasksInSchedulerHeapHashTable`, which has the rejected tasks too. -/
def inTable (l : Lifecycle) : Bool := l.onHeap || decide (l = .rejected)

/-- The content of a node of the sleep heap. -/
def onSleepHeap : Lifecycle → Bool
  | .sleeping onHeap => !onHeap
  | _ => false

/-- The bits of a task, YIELD apart. -/
structure Shows (l : Lifecycle) (state : TaskState) : Prop where
  wait : state.wait = l.isWaiting
  sleep : state.sleep = l.isSleeping
  exit : state.exit = decide (l = .ended)

variable {β : Type*} {life : Nat → Lifecycle} {k : Nat} {l : Lifecycle}

/-- A task that moves on leaves the others where they are. -/
theorem apply_update (f : Lifecycle → β) (life : Nat → Lifecycle) (k : Nat) (l : Lifecycle)
    (t : Nat) : f (Function.update life k l t) = if t = k then f l else f (life t) := by
  rw [Function.update_apply]
  split <;> rfl

theorem leaves (f : Lifecycle → Bool) (h : f l = false) (t : Nat) :
    t ≠ k ∧ f (life t) = true ↔ f (Function.update life k l t) = true := by
  rw [apply_update f]
  split
  · rename_i heq
    simp [heq, h]
  · rename_i hne
    simp [hne]

theorem joins (f : Lifecycle → Bool) (h : f l = true) (t : Nat) :
    t = k ∨ f (life t) = true ↔ f (Function.update life k l t) = true := by
  rw [apply_update f]
  split
  · rename_i heq
    simp [heq, h]
  · rename_i hne
    simp [hne]

theorem rejected_of_update (hl : l ≠ .rejected) {t : Nat}
    (h : Function.update life k l t = .rejected) : life t = .rejected := by
  by_cases heq : t = k
  · subst heq
    rw [Function.update_self] at h
    exact absurd h hl
  · rwa [Function.update_of_ne heq] at h

theorem stays (f : Lifecycle → Bool) (h : f l = f (life k)) (t : Nat) :
    f (life t) = true ↔ f (Function.update life k l t) = true := by
  rw [apply_update f]
  split
  · rename_i heq
    rw [h, heq]
  · rfl

end Lifecycle

namespace Sched

/-- A table of the scheduler with the tasks of `P` as its keys. -/
structure Table (s : Sched) (t : Hashtable) (P : Nat → Prop) : Prop where
  keys : t.KeySet s.scheduled.toFinset P
  capacity : t.maximumCapacity = WAIT_HASHTABLE_CAPACITY

namespace Table

variable {s s' : Sched} {t : Hashtable} {P Q : Nat → Prop} {k : Nat}

theorem congr (h : Table s t P) (hPQ : ∀ k, P k ↔ Q k) : Table s t Q :=
  ⟨h.keys.congr hPQ, h.capacity⟩

theorem setFlag (h : Table s t P) (flag : Nat) : Table s { t with validValueFlag := flag } P :=
  ⟨h.keys.setFlag flag, h.capacity⟩

theorem insert (h : Table s t P) (hk : k ∈ s.scheduled) (hnew : ¬ P k) :
    ∃ t', t.put k k .rejectMultipleValuesPerKey = (t', 1) ∧ Table s t' fun x => x = k ∨ P x := by
  obtain ⟨t', hput, hkeys⟩ := h.keys.put_of_not_mem (List.mem_toFinset.mpr hk) hnew
  have hcapacity := put_maximumCapacity t k k .rejectMultipleValuesPerKey
  rw [hput] at hcapacity
  exact ⟨t', hput, hkeys, hcapacity.trans h.capacity⟩

theorem erase (h : Table s t P) (k : Nat) : Table s (t.remove k).1 fun x => x ≠ k ∧ P x :=
  ⟨h.keys.remove k, (remove_maximumCapacity t k).trans h.capacity⟩

/-- Other tasks may be scheduled, as long as those in the table are. -/
theorem setScheduled (h : Table s t P) (hP : ∀ k, P k → k ∈ s'.scheduled)
    (hfew : s'.scheduled.length ≤ WAIT_HASHTABLE_CAPACITY) : Table s' t P where
  keys := h.keys.setKnown (fun k hk => List.mem_toFinset.mpr (hP k hk))
    ((List.toFinset_card_le _).trans (hfew.trans (Nat.le_of_eq h.capacity.symm)))
  capacity := h.capacity

end Table

/-! ## The scheduler heap -/

/-- `__updatePriorityInheritance` takes the task off the scheduler heap to put it in
another place. -/
def inheritanceMoves (s : Sched) (fuel task : Nat) : Bool :=
  match s.highestInherited fuel s.waitingTasksHashTableReasonAsKey
    (s.tcb task).acquiredResourcesLinkedList (s.tcb task).priority with
  | none => false
  | some (_, highestPriority) =>
    decide ((s.tasksInSchedulerHeapHashTable.get task).1.validValueFlag ≠ 0) &&
    if highestPriority < (s.tcb task).priority then
      decide (highestPriority ≠ 0 ∧ (s.tcb task).inheritedPriority ≠ highestPriority)
    else decide ((s.tcb task).inheritedPriority ≠ 0)

/-- The last part of `notifyCallback` moves the current task in the scheduler heap. -/
def dropAcquiredMoves (reason : Nat) : Nat → Sched → Nat → Nat → Bool
  | 0, _, _, _ => false
  | fuel + 1, s, prevAcquiredMutex, acquiredMutex =>
    if acquiredMutex = NULL then false
    else
      let next := (s.mutexes acquiredMutex).nextAcquiredResource
      if acquiredMutex = reason then
        let s :=
          if prevAcquiredMutex ≠ NULL then
            s.modifyMutex prevAcquiredMutex fun mutex => { mutex with nextAcquiredResource := next }
          else
            s.modifyTCB s.currentTCB fun tcb => { tcb with acquiredResourcesLinkedList := next }
        let s := s.modifyMutex acquiredMutex fun mutex =>
          { mutex with nextAcquiredResource := NULL }
        s.inheritanceMoves fuel s.currentTCB
      else dropAcquiredMoves reason fuel s acquiredMutex next

/-- The heap is the same, or the node of `task` is in another place, and `moves`
says so. -/
def MovesOnly (moves : Bool) (task : Nat) (s s' : Sched) : Prop :=
  s'.schedulerHeap = s.schedulerHeap ∨
    (moves = true ∧ (s.tasksInSchedulerHeapHashTable.get task).1.validValueFlag ≠ 0 ∧
      ∃ value, s'.schedulerHeap = (s.readdToSchedulerHeap task value).schedulerHeap)

theorem updatePriorityInheritance_moves {s s' : Sched} {fuel task : Nat}
    (h : s.updatePriorityInheritance fuel task = some s') :
    MovesOnly (s.inheritanceMoves fuel task) task s s' := by
  simp only [updatePriorityInheritance, Option.bind_eq_bind, Option.bind_eq_some_iff,
    Option.pure_def, Option.some.injEq] at h
  obtain ⟨⟨reasons, highestPriority⟩, hhighest, rfl⟩ := h
  unfold inheritanceMoves
  rw [hhighest]
  cases hin : decide ((s.tasksInSchedulerHeapHashTable.get task).2 ≠ 0 ∧
      (s.tasksInSchedulerHeapHashTable.get task).1.validValueFlag ≠ 0) with
  | false =>
    left
    simp only [moveToInheritedPriority, setInheritedPriority, Bool.false_eq_true, false_and,
      and_false, if_false]
    split <;> rfl
  | true =>
    have hflag := (of_decide_eq_true hin).2
    simp only [moveToInheritedPriority, setInheritedPriority]
    -- at most one of the two parts moves the node: a priority that is reset is not inherited
    split
    · rename_i hlower
      split
      · rename_i hmoves
        refine .inr ⟨?_, hflag, _, rfl⟩
        have hinherited := hmoves.2
        simp only [modifyTCB, Function.update_self] at hinherited
        simp [hflag, hinherited]
      · exact .inl rfl
    · rename_i hhigher
      rw [if_neg (by simp [modifyTCB])]
      split
      · rename_i hmoves
        exact .inr ⟨by simpa [hflag] using hmoves.1, hflag, _, rfl⟩
      · exact .inl rfl

theorem waitCallback_moves {s s' : Sched} {fuel reason checkCode isReasonMutex : Nat}
    (h : s.waitCallback fuel reason checkCode isReasonMutex = some s') :
    s' = s ∨ (checkCode = s.checkCode ∧
      (s' = s.park reason ∨ (isReasonMutex ≠ 0 ∧ Inherits (s.park reason) s' ∧
        MovesOnly ((s.park reason).inheritanceMoves fuel (s.mutexes reason).tcbPointer)
          (s.mutexes reason).tcbPointer (s.park reason) s'))) := by
  simp only [waitCallback] at h
  split at h
  · cases h
    exact .inl rfl
  · rename_i hcode
    refine .inr ⟨not_not.mp hcode, ?_⟩
    split at h
    · rename_i hmutex
      exact .inr ⟨hmutex, updatePriorityInheritance_inherits h, updatePriorityInheritance_moves h⟩
    · cases h
      exact .inl rfl

theorem dropAcquired_moves {s s' : Sched} {reason fuel prevAcquiredMutex acquiredMutex : Nat}
    (h : dropAcquired reason fuel s prevAcquiredMutex acquiredMutex = some s') :
    MovesOnly (dropAcquiredMoves reason fuel s prevAcquiredMutex acquiredMutex) s.currentTCB
      s s' := by
  induction fuel generalizing prevAcquiredMutex acquiredMutex with
  | zero => cases h
  | succ fuel ih =>
    simp only [dropAcquired] at h
    simp only [dropAcquiredMoves]
    split at h
    · cases h
      exact .inl rfl
    · rename_i hnull
      rw [if_neg hnull]
      split at h
      · rename_i hfound
        rw [if_pos hfound]
        have hmoves := updatePriorityInheritance_moves h
        split at hmoves
        · rename_i hprev
          rw [if_pos hprev]
          exact hmoves
        · rename_i hprev
          rw [if_neg hprev]
          exact hmoves
      · rename_i hnot
        rw [if_neg hnot]
        exact ih h

/-- A task that has never left the scheduler heap stays where it is. -/
theorem returnToSchedulerHeap_of_put {s : Sched} {task : Nat}
    (hput : s.tasksInSchedulerHeapHashTable.put task task .rejectMultipleValuesPerKey =
      (s.tasksInSchedulerHeapHashTable, 0)) : s.returnToSchedulerHeap task = s := by
  simp only [returnToSchedulerHeap, hput, ne_eq, not_true_eq_false, if_false]

theorem wakeSleeper_heap_of_put {s : Sched} {task : Nat}
    (hput : s.tasksInSchedulerHeapHashTable.put task task .rejectMultipleValuesPerKey =
      (s.tasksInSchedulerHeapHashTable, 0)) :
    (s.wakeSleeper task).schedulerHeap = s.schedulerHeap := by
  simp only [wakeSleeper]
  rw [returnToSchedulerHeap_of_put]
  · rfl
  · exact hput

theorem wakeSleeper_tasks (s : Sched) (task : Nat) :
    (s.wakeSleeper task).currentTCB = s.currentTCB ∧
      (s.wakeSleeper task).idleTCB = s.idleTCB := by
  simp only [wakeSleeper]
  rw [returnToSchedulerHeap_rest]
  exact ⟨rfl, rfl⟩

/-- The scheduler heap and the table of the tasks on it. -/
structure OnHeap (N : Nat) (tasks : Finset Nat) (s : Sched) (inTable onHeap : Nat → Prop) :
    Prop where
  table : Table s s.tasksInSchedulerHeapHashTable inTable
  heap : s.schedulerHeap.Indexed tasks
  size : s.schedulerHeap.maxNumberOfNodes = N
  mem : ∀ t, t ∈ s.schedulerHeap.contents ↔ onHeap t

namespace OnHeap

variable {N : Nat} {tasks : Finset Nat} {s s' : Sched} {inTable onHeap P Q : Nat → Prop}
  {task index : Nat}

theorem congr (h : OnHeap N tasks s inTable onHeap) (hP : ∀ t, inTable t ↔ P t)
    (hQ : ∀ t, onHeap t ↔ Q t) : OnHeap N tasks s P Q :=
  { h with
    table := h.table.congr hP
    mem := fun t => (h.mem t).trans (hQ t) }

/-- A task comes back, if it has left and there is a free node. -/
theorem returned (h : OnHeap N tasks s inTable onHeap) (hscheduled : task ∈ s.scheduled)
    (htask : task ∈ tasks) (hsame : inTable task ↔ onHeap task)
    (hroom : ¬ onHeap task → s.schedulerHeap.currentNumNodes < N) :
    OnHeap N tasks (s.returnToSchedulerHeap task) (fun t => t = task ∨ inTable t)
      (fun t => t = task ∨ onHeap t) := by
  by_cases hon : onHeap task
  · -- the table has an entry of the task, so nothing is added
    rw [returnToSchedulerHeap_of_put (h.table.keys.put_of_mem (hsame.mpr hon))]
    refine h.congr ?_ ?_
    · intro t
      refine ⟨.inr, ?_⟩
      rintro (rfl | ht)
      · exact hsame.mpr hon
      · exact ht
    · intro t
      refine ⟨.inr, ?_⟩
      rintro (rfl | ht)
      · exact hon
      · exact ht
  · -- both the entry and the node are new
    obtain ⟨table, hput, htable⟩ := h.table.insert hscheduled fun hin => hon (hsame.mp hin)
    have hlt := hroom hon
    rw [← h.size] at hlt
    obtain ⟨hindexed, hcontents⟩ := h.heap.addNode htask (fun hmem => hon ((h.mem task).mp hmem))
      hlt (s.tcb task).heapPriority
    have hreturn : s.returnToSchedulerHeap task = { s with
        tasksInSchedulerHeapHashTable := table
        schedulerHeap := (s.schedulerHeap.addNode task (s.tcb task).heapPriority).1 } := by
      simp only [returnToSchedulerHeap, hput, ne_eq, one_ne_zero, not_false_eq_true, if_true]
    rw [hreturn]
    refine
      { table := ⟨htable.keys, htable.capacity⟩
        heap := hindexed
        size := (MinHeap.addNode_max ..).trans h.size
        mem := fun t => ?_ }
    rw [hcontents, Multiset.mem_cons, h.mem]

/-- The task at an index leaves. -/
theorem left (h : OnHeap N tasks s inTable onHeap) (hi : index < s.schedulerHeap.currentNumNodes) :
    OnHeap N tasks (s.leaveSchedulerHeap index (s.taskAt index))
      (fun t => t ≠ s.taskAt index ∧ inTable t) (fun t => t ≠ s.taskAt index ∧ onHeap t) := by
  have hremove := MinHeap.removeNodeAt_eq hi
  have hheap : (s.leaveSchedulerHeap index (s.taskAt index)).schedulerHeap =
      s.schedulerHeap.heapDown index := by
    simp only [leaveSchedulerHeap, hremove]
  have herased := h.table.erase (s.taskAt index)
  refine
    { table := ⟨herased.keys, herased.capacity⟩
      heap := hheap ▸ h.heap.heapDown hi
      size := ?_
      mem := fun t => ?_ }
  · rw [hheap, MinHeap.heapDown_max]
    exact h.size
  · rw [hheap, h.heap.distinct.mem_heapDown hi, h.mem]
    rfl

/-- A new task is entered in the table, and in the heap unless it is full. -/
theorem entered (h : OnHeap N tasks s inTable onHeap) (htask : task ∈ tasks)
    (hnot : ¬ inTable task ∧ ¬ onHeap task) (hscheduled : ∀ t, inTable t → t ∈ s.scheduled)
    (hroom : s.scheduled.length < WAIT_HASHTABLE_CAPACITY) (taskPriority : Nat) :
    OnHeap N tasks (s.enterTask task taskPriority) (fun t => t = task ∨ inTable t)
        (fun t => t = task ∨ onHeap t) ∨
      (¬ s.schedulerHeap.currentNumNodes < N ∧ N < tasks.card ∧
        OnHeap N tasks (s.enterTask task taskPriority) (fun t => t = task ∨ inTable t)
          onHeap) := by
  have hset : Table (s.enterTask task taskPriority) s.tasksInSchedulerHeapHashTable inTable :=
    h.table.setScheduled (fun k hk => List.mem_cons_of_mem _ (hscheduled k hk)) hroom
  obtain ⟨table, hput, htable⟩ := hset.insert (k := task) List.mem_cons_self hnot.1
  have htable' : Table (s.enterTask task taskPriority)
      (s.enterTask task taskPriority).tasksInSchedulerHeapHashTable
      fun t => t = task ∨ inTable t := by
    show Table _ (s.tasksInSchedulerHeapHashTable.put task task .rejectMultipleValuesPerKey).1 _
    rw [hput]
    exact htable
  have hoff : task ∉ s.schedulerHeap.contents := fun hmem => hnot.2 ((h.mem task).mp hmem)
  by_cases hfull : s.schedulerHeap.currentNumNodes < s.schedulerHeap.maxNumberOfNodes
  · obtain ⟨hindexed, hcontents⟩ := h.heap.addNode htask hoff hfull taskPriority
    have hheap : (s.enterTask task taskPriority).schedulerHeap.contents =
        task ::ₘ s.schedulerHeap.contents := hcontents
    refine .inl ⟨htable', hindexed, (MinHeap.addNode_max ..).trans h.size, ?_⟩
    intro t
    rw [hheap, Multiset.mem_cons, h.mem]
  · -- the heap is full, and so there are more tasks than nodes
    have hnum := h.heap.distinct.wf.num_le
    have heq : (s.enterTask task taskPriority).schedulerHeap = s.schedulerHeap :=
      congrArg Prod.fst (MinHeap.addNode_of_full h.heap.distinct.wf (by omega) task taskPriority)
    refine .inr ⟨h.size ▸ hfull, ?_, htable', heq ▸ h.heap, heq ▸ h.size, heq ▸ h.mem⟩
    by_contra hcard
    rw [← h.size] at hcard
    exact hfull (h.heap.distinct.num_lt (Nat.not_lt.mp hcard) htask hoff)

/-- Priority inheritance moves at most the node of `task`. -/
theorem inherits (h : OnHeap N tasks s inTable onHeap) (hi : Inherits s s') {moves : Bool}
    (hm : MovesOnly moves task s s')
    (hfinds : moves = true → inTable task → s.schedulerHeap.Finds task) :
    OnHeap N tasks s' inTable onHeap := by
  obtain ⟨flag, htable⟩ := hi.inHeap
  have hscheduled : s'.scheduled = s.scheduled := by rw [hi.rest]
  have hkeys : Table s' s'.tasksInSchedulerHeapHashTable inTable := by
    rw [htable]
    exact ⟨hscheduled ▸ (h.table.setFlag flag).keys, h.table.capacity⟩
  rcases hm with heq | ⟨hmoves, hin, v, heq⟩
  · exact
      { table := hkeys
        heap := heq ▸ h.heap
        size := heq ▸ h.size
        mem := heq ▸ h.mem }
  · obtain ⟨w, hw⟩ := mem_of_get h.table.keys.keyed.wf hin
    have hfound := hfinds hmoves ((h.table.keys.mem task w).mp hw).2
    have hmem : task ∈ s.schedulerHeap.contents := MinHeap.mem_contents.mpr ⟨_, hfound⟩
    obtain ⟨hindexed, hcontents, hsize⟩ := h.heap.readd hmem hfound v
    have hcontents' : s'.schedulerHeap.contents = s.schedulerHeap.contents := by
      rw [heq]
      exact hcontents
    refine { table := hkeys, heap := heq ▸ hindexed, size := ?_, mem := ?_ }
    · rw [heq]
      exact hsize.trans h.size
    · intro t
      rw [hcontents']
      exact h.mem t

end OnHeap

/-! ## The sleep heap and the waiting tasks -/

structure OnSleepHeap (N : Nat) (tasks : Finset Nat) (s : Sched) (P : Nat → Prop) : Prop where
  heap : s.sleepHeap.Distinct tasks
  size : s.sleepHeap.maxNumberOfNodes = N
  mem : ∀ t, t ∈ s.sleepHeap.contents ↔ P t

theorem OnSleepHeap.congr {N : Nat} {tasks : Finset Nat} {s : Sched} {P Q : Nat → Prop}
    (h : OnSleepHeap N tasks s P) (hPQ : ∀ t, P t ↔ Q t) : OnSleepHeap N tasks s Q :=
  { h with mem := fun t => (h.mem t).trans (hPQ t) }

/-- The table of the tasks that wait, each for one reason. -/
structure Waiters (s : Sched) (P : Nat → Prop) : Prop where
  parked : Parked s
  capacity : s.waitingTasksHashTableReasonAsKey.maximumCapacity = WAIT_HASHTABLE_CAPACITY
  mem : ∀ t, (∃ reason, (reason, t) ∈ s.waiting) ↔ P t

namespace Waiters

variable {s s' : Sched} {P Q : Nat → Prop} {t : Nat}

theorem congr (h : Waiters s P) (hPQ : ∀ t, P t ↔ Q t) : Waiters s Q :=
  { h with mem := fun t => (h.mem t).trans (hPQ t) }

theorem not_waiting (h : Waiters s P) (ht : ¬ P t) (reason : Nat) : (reason, t) ∉ s.waiting :=
  fun hmem => ht ((h.mem t).mp ⟨reason, hmem⟩)

/-- No task that waits is touched. -/
theorem frame (h : Waiters s P)
    (htable : s'.waitingTasksHashTableReasonAsKey = s.waitingTasksHashTableReasonAsKey)
    (hwait : ∀ t, P t → (s'.tcb t).state.wait = (s.tcb t).state.wait) : Waiters s' P := by
  have hwaiting : s'.waiting = s.waiting := by
    unfold Sched.waiting
    rw [htable]
  refine
    { parked :=
        { wf := htable ▸ h.parked.wf
          once := hwaiting ▸ h.parked.once
          wait := fun reason t ht => ?_
          not_null := hwaiting ▸ h.parked.not_null }
      capacity := htable ▸ h.capacity
      mem := hwaiting ▸ h.mem }
  rw [hwaiting] at ht
  rw [hwait t ((h.mem t).mp ⟨reason, ht⟩)]
  exact h.parked.wait reason t ht

end Waiters

/-! ## The books -/

/-- The list of completed tasks ends, and has tasks that are not scheduled. -/
structure Completed (tasks : Finset Nat) (life : Nat → Lifecycle) (s : Sched) : Prop where
  ended : ∀ t, life t = .ended → (s.tcb t).data = NULL
  chain : ∃ l, Lib.Chain (fun t => toPtr (s.tcb t).data) (toPtr s.completedTasksLinkedList) l ∧
    ∀ t ∈ l, life t = .absent ∧ t ∈ tasks

/-- The tasks that have been removed and not yet freed. -/
def completedTasks (s : Sched) (tasks : Finset Nat) : List Nat :=
  Lib.walk (fun t => toPtr (s.tcb t).data) tasks.card (toPtr s.completedTasksLinkedList)

theorem Completed.completedTasks_eq {tasks : Finset Nat} {life : Nat → Lifecycle} {s : Sched}
    {l : List Nat} (h : Completed tasks life s)
    (hchain : Lib.Chain (fun t => toPtr (s.tcb t).data) (toPtr s.completedTasksLinkedList) l) :
    s.completedTasks tasks = l := by
  obtain ⟨l', hchain', hl'⟩ := h.chain
  obtain rfl := hchain.unique hchain'
  -- a chain repeats nothing, so it is not longer than there are tasks
  have hcard := Finset.card_le_card
    (fun t ht => (hl' t (List.mem_toFinset.mp ht)).2 : l.toFinset ⊆ tasks)
  rw [List.toFinset_card_of_nodup hchain.nodup] at hcard
  exact hchain.walk_eq hcard

/-- The tables, the heaps and the bits of `s` are those of the lifecycles. -/
structure Books (N : Nat) (tasks : Finset Nat) (fresh : Prop) (life : Nat → Lifecycle)
    (s : Sched) : Prop where
  nodup : s.scheduled.Nodup
  scheduled : ∀ t, t ∈ s.scheduled ↔ (life t).present = true
  known : ∀ t ∈ s.scheduled, t ∈ tasks ∧ t ≠ NULL
  few : s.scheduled.length ≤ WAIT_HASHTABLE_CAPACITY
  shows : ∀ t ∈ s.scheduled, (life t).Shows (s.tcb t).state
  active : Table s s.activeTasksHashTable fun t => (life t).isActive = true
  sleeping : Table s s.sleepingTasksHashTable fun t => (life t).isSleeping = true
  waiters : Waiters s fun t => (life t).isWaiting = true
  onHeap : OnHeap N tasks s (fun t => (life t).inTable = true) fun t => (life t).onHeap = true
  onSleepHeap : OnSleepHeap N tasks s fun t => (life t).onSleepHeap = true
  rejected : ∀ t, life t = .rejected → N < tasks.card
  clock : ∀ t, (life t).isSleeping = true → (s.tcb t).data ≤ s.ticks
  noRollover : s.systickRolloverDetectedFLAG = 0
  idle : s.idleTCB ∉ tasks
  completed : fresh → Completed tasks life s

theorem Completed.congr {tasks : Finset Nat} {life life' : Nat → Lifecycle} {s s' : Sched}
    (h : Completed tasks life s)
    (hhead : s'.completedTasksLinkedList = s.completedTasksLinkedList)
    (hended : ∀ t, life' t = .ended → (s'.tcb t).data = NULL)
    (habsent : ∀ t, life t = .absent → life' t = .absent ∧ (s'.tcb t).data = (s.tcb t).data) :
    Completed tasks life' s' := by
  obtain ⟨l, hchain, hl⟩ := h.chain
  refine ⟨hended, l, ?_, fun t ht => ⟨(habsent t (hl t ht).1).1, (hl t ht).2⟩⟩
  rw [hhead]
  exact hchain.congr fun t ht => congrArg toPtr (habsent t (hl t ht).1).2

/-- A scheduled task moves on. -/
theorem Completed.update {tasks : Finset Nat} {life : Nat → Lifecycle} {s s' : Sched} {task : Nat}
    {l : Lifecycle} (h : Completed tasks life s)
    (hhead : s'.completedTasksLinkedList = s.completedTasksLinkedList)
    (htask : life task ≠ .absent) (hself : l = .ended → (s'.tcb task).data = NULL)
    (hother : ∀ t, t ≠ task → (s'.tcb t).data = (s.tcb t).data) :
    Completed tasks (Function.update life task l) s' := by
  refine h.congr hhead ?_ ?_
  · intro t ht
    by_cases heq : t = task
    · subst heq
      rw [Function.update_self] at ht
      exact hself ht
    · rw [Function.update_of_ne heq] at ht
      rw [hother t heq]
      exact h.ended t ht
  · intro t ht
    have hne : t ≠ task := by
      rintro rfl
      exact htask ht
    rw [Function.update_of_ne hne]
    exact ⟨ht, hother t hne⟩

/-- A task that is neither on the list nor ends is rewritten. -/
theorem Completed.rewrite {tasks : Finset Nat} {life life' : Nat → Lifecycle} {s s' : Sched}
    {task : Nat} (h : Completed tasks life s) (hnot : task ∉ s.completedTasks tasks)
    (hhead : s'.completedTasksLinkedList = s.completedTasksLinkedList)
    (hlife : ∀ t, t ≠ task → life' t = life t) (hended : life' task ≠ .ended)
    (hother : ∀ t, t ≠ task → s'.tcb t = s.tcb t) : Completed tasks life' s' := by
  obtain ⟨l, hchain, hl⟩ := h.chain
  rw [h.completedTasks_eq hchain] at hnot
  have hne : ∀ t ∈ l, t ≠ task := fun t ht => ne_of_mem_of_not_mem ht hnot
  refine ⟨fun t ht => ?_, l, ?_, fun t ht => ?_⟩
  · have htt : t ≠ task := by
      rintro rfl
      exact hended ht
    rw [hother t htt]
    exact h.ended t (hlife t htt ▸ ht)
  · rw [hhead]
    exact hchain.congr fun t ht => by rw [hother t (hne t ht)]
  · rw [hlife t (hne t ht)]
    exact hl t ht

/-- A task that has ended is removed; it is pushed onto the list unless it has been
freed. -/
theorem Completed.retire {tasks : Finset Nat} {life : Nat → Lifecycle} {s s' : Sched} {task : Nat}
    (h : Completed tasks life s) (hlife : life task = .ended) (hmem : task ∈ tasks)
    (hnull : task ≠ NULL) (hother : ∀ t, t ≠ task → s'.tcb t = s.tcb t)
    (hpushed : s'.completedTasksLinkedList = s.completedTasksLinkedList ∨
      s'.completedTasksLinkedList = task ∧ (s'.tcb task).data =
        if s.completedTasksLinkedList ≠ NULL then s.completedTasksLinkedList
        else (s.tcb task).data) :
    Completed tasks (Function.update life task .absent) s' := by
  have hended : ∀ t, Function.update life task .absent t = .ended → (s'.tcb t).data = NULL := by
    intro t ht
    have htt : t ≠ task := by
      rintro rfl
      rw [Function.update_self] at ht
      cases ht
    rw [Function.update_of_ne htt] at ht
    rw [hother t htt]
    exact h.ended t ht
  obtain ⟨l, hchain, hl⟩ := h.chain
  have hne : ∀ t ∈ l, t ≠ task := by
    rintro t ht rfl
    have habsent := (hl t ht).1
    rw [hlife] at habsent
    cases habsent
  have hl' : ∀ t ∈ l, Function.update life task .absent t = .absent ∧ t ∈ tasks := by
    intro t ht
    rw [Function.update_of_ne (hne t ht)]
    exact hl t ht
  have hchain' : Lib.Chain (fun t => toPtr (s'.tcb t).data) (toPtr s.completedTasksLinkedList) l :=
    hchain.congr fun t ht => by rw [hother t (hne t ht)]
  rcases hpushed with hhead | ⟨hhead, hdata⟩
  · exact ⟨hended, l, hhead.symm ▸ hchain', hl'⟩
  · refine ⟨hended, task :: l, ?_, ?_⟩
    · rw [hhead]
      refine Lib.Path.cons_iff.mpr ⟨toPtr_of_ne hnull, ?_⟩
      show Lib.Chain _ (toPtr (s'.tcb task).data) l
      rw [hdata]
      split
      · exact hchain'
      · -- the list was empty, and the `data` of a task that has ended is NULL
        rename_i hempty
        rw [h.ended _ hlife, ← not_not.mp hempty]
        exact hchain'
    · intro t ht
      rcases List.mem_cons.mp ht with rfl | ht
      · exact ⟨Function.update_self .., hmem⟩
      · exact hl' t ht

namespace Books

variable {N : Nat} {tasks : Finset Nat} {fresh : Prop} {life : Nat → Lifecycle} {s s' : Sched}
  {task t : Nat} {l : Lifecycle}

theorem mem_of_ne_absent (h : Books N tasks fresh life s) (ht : life t ≠ .absent) :
    t ∈ s.scheduled := by
  rw [h.scheduled]
  cases hl : life t <;> first | rfl | exact absurd hl ht

theorem ne_absent (h : Books N tasks fresh life s) (ht : t ∈ s.scheduled) :
    life t ≠ .absent := by
  intro hl
  rw [h.scheduled, hl] at ht
  cases ht

/-- A task with a lifecycle of its own is scheduled, and its bits show it. -/
theorem of_life (h : Books N tasks fresh life s) (hlife : life task = l) (hl : l ≠ .absent) :
    life task ≠ .absent ∧ task ∈ s.scheduled ∧ l.Shows (s.tcb task).state := by
  subst hlife
  have hscheduled := h.mem_of_ne_absent hl
  exact ⟨hl, hscheduled, h.shows _ hscheduled⟩

theorem mem_of_onHeap (h : Books N tasks fresh life s) (ht : t ∈ s.schedulerHeap.contents) :
    t ∈ s.scheduled := by
  refine h.mem_of_ne_absent ?_
  intro hl
  rw [h.onHeap.mem, hl] at ht
  cases ht

/-- **One task moves on**: what is left to show is that the tables and heaps follow. -/
theorem move (h : Books N tasks fresh life s) (htask : life task ≠ .absent)
    (hl : l ≠ .absent ∧ l ≠ .rejected)
    (hrest : s' = { s with
      tcb := s'.tcb
      schedulerHeap := s'.schedulerHeap
      waitingTasksHashTableReasonAsKey := s'.waitingTasksHashTableReasonAsKey
      waitingTasksHashTableTcbAsKey := s'.waitingTasksHashTableTcbAsKey
      activeTasksHashTable := s'.activeTasksHashTable
      tasksInSchedulerHeapHashTable := s'.tasksInSchedulerHeapHashTable
      sleepHeap := s'.sleepHeap
      sleepingTasksHashTable := s'.sleepingTasksHashTable
      sleepRequest := s'.sleepRequest })
    (hshows : l.Shows (s'.tcb task).state)
    (hended : l = .ended → (s'.tcb task).data = NULL)
    (hclock : l.isSleeping = true → (s'.tcb task).data ≤ s.ticks)
    (hother : ∀ t, t ≠ task → s'.tcb t = s.tcb t)
    (hactive : Table s s'.activeTasksHashTable
      fun t => (Function.update life task l t).isActive = true)
    (hsleeping : Table s s'.sleepingTasksHashTable
      fun t => (Function.update life task l t).isSleeping = true)
    (hwaiters : Waiters s' fun t => (Function.update life task l t).isWaiting = true)
    (honHeap : OnHeap N tasks s' (fun t => (Function.update life task l t).inTable = true)
      fun t => (Function.update life task l t).onHeap = true)
    (honSleepHeap : OnSleepHeap N tasks s'
      fun t => (Function.update life task l t).onSleepHeap = true) :
    Books N tasks fresh (Function.update life task l) s' := by
  have hscheduled : s'.scheduled = s.scheduled := by rw [hrest]
  have hticks : s'.ticks = s.ticks := by rw [hrest]
  have hpresent : ∀ l' : Lifecycle, l' ≠ .absent → l'.present = true := by
    intro l' hl'
    cases l' <;> first | rfl | exact absurd rfl hl'
  refine
    { nodup := hscheduled ▸ h.nodup
      scheduled := fun t => ?_
      known := hscheduled ▸ h.known
      few := hscheduled ▸ h.few
      shows := fun t ht => ?_
      active := ⟨hscheduled ▸ hactive.keys, hactive.capacity⟩
      sleeping := ⟨hscheduled ▸ hsleeping.keys, hsleeping.capacity⟩
      waiters := hwaiters
      onHeap := honHeap
      onSleepHeap := honSleepHeap
      rejected := fun t ht => h.rejected t (Lifecycle.rejected_of_update hl.2 ht)
      clock := fun t ht => ?_
      noRollover := ?_
      idle := ?_
      completed := fun hfresh => (h.completed hfresh).update (by rw [hrest]) htask hended
        fun t ht => by rw [hother t ht] }
  · -- the task was present before and is present after, so the scheduled tasks are the same
    rw [hscheduled, h.scheduled]
    refine Lifecycle.stays Lifecycle.present ?_ t
    rw [hpresent l hl.1, hpresent _ htask]
  · by_cases heq : t = task
    · subst heq
      rw [Function.update_self]
      exact hshows
    · rw [Function.update_of_ne heq, hother t heq]
      exact h.shows t (hscheduled ▸ ht)
  · rw [hticks]
    -- the clock bound of the task is new, the others keep theirs
    by_cases heq : t = task
    · subst heq
      rw [Function.update_self] at ht
      exact hclock ht
    · rw [Function.update_of_ne heq] at ht
      rw [hother t heq]
      exact h.clock t ht
  · rw [hrest]
    exact h.noRollover
  · rw [hrest]
    exact h.idle

end Books

end Sched

end DocetOS
