import DocetOS.OS.LifecycleSteps

/-!
# A free node for every task that comes back

`OS_heap_addNode` adds nothing to a heap that is full, and where a task comes back
to a heap its status is ignored. The predicates here follow the loops of the
callbacks and say that every such call finds a free node: `wakeWaitingFits` for
`notifyCallback`, `wakeLoopFits` and `selectTaskFits` for the scheduler.

Priority inheritance takes a task off the scheduler heap at the index the lookup
table gives, and adds it again: `inheritanceFits` says that the node there is that
of the task when it does so.

In the books, a free node is left as long as no more tasks are added than the
heaps have nodes.
-/

namespace DocetOS

open Hashtable

namespace Sched

/-- The scheduler heap has a free node, or the task has never left it. -/
def returnFits (s : Sched) (task : Nat) : Bool :=
  decide (s.schedulerHeap.currentNumNodes < s.schedulerHeap.maxNumberOfNodes) ||
    decide ((s.tasksInSchedulerHeapHashTable.get task).1.validValueFlag ≠ 0)

/-- The sleep heap has a free node, or the task at `index` is not asleep. -/
def moveFits (s : Sched) (index : Nat) : Bool :=
  decide (s.sleepHeap.currentNumNodes < s.sleepHeap.maxNumberOfNodes) ||
    !decide (s.Asleep (s.taskAt index))

/-- The lookup table finds the task, if it is moved in the scheduler heap. -/
def inheritanceFits (s : Sched) (moves : Bool) (task : Nat) : Bool :=
  !moves || decide (s.schedulerHeap.Finds task)

/-- The tasks `wakeWaiting` takes find a place on the scheduler heap. -/
def wakeWaitingFits (reason : Nat) : Nat → Sched → Bool
  | 0, _ => true
  | rounds + 1, s =>
    let (s, task) := s.takeWaiting reason
    if task = NULL then true
    else s.returnFits task && wakeWaitingFits reason rounds (s.unpark task)

/-- The tasks `wakeLoop` wakes find a place on the scheduler heap. -/
def wakeLoopFits : Nat → Sched → Bool
  | 0, _ => true
  | rounds + 1, s =>
    match s.sleepHeap.removeNode with
    | (_, none) => true
    | (sleepHeap, some sleepingTask) =>
      let (s', asleep) := { s with sleepHeap }.updateSleepState sleepingTask
      if asleep then true else s.returnFits sleepingTask && wakeLoopFits rounds s'

/-- The tasks `selectTask` moves find a place on the sleep heap. -/
def selectTaskFits (memclusterInUse : Bool) (rand : Nat → Nat) :
    Nat → Nat → Sched → Nat → Nat → Bool
  | 0, _, _, _, _ => true
  | fuel + 1, k, s, nodeIndex, maxValidHeapIdx =>
    s.moveFits nodeIndex &&
    match s.removeIfInactive memclusterInUse nodeIndex with
    | (s, true) =>
      if s.schedulerHeap.currentNumNodes = 0 then true
      else if nodeIndex > s.schedulerHeap.currentNumNodes - 1 then true
      else
        selectTaskFits memclusterInUse rand fuel k s nodeIndex
          (s.schedulerHeap.currentNumNodes - 1)
    | (s, false) =>
      let randNodeSelection := getRandForTaskChoice (rand k)
      let nextNodeIdx :=
        if randNodeSelection = 1 then getFirstChildIndex nodeIndex
        else getSecondChildIndex nodeIndex
      if randNodeSelection ≠ 0 ∧ nextNodeIdx ≤ maxValidHeapIdx then
        selectTaskFits memclusterInUse rand fuel (k + 1) s nextNodeIdx maxValidHeapIdx
      else true

/-- The tasks `notifyCallback` wakes find a place, and the one that gives a mutex
back is found. -/
def notifyFits (s : Sched) (fuel reason : Nat) : Bool :=
  wakeWaitingFits reason (s.waitingTasksHashTableReasonAsKey.maximumCapacity + 1) s &&
    let s := s.wakeAll reason
    s.inheritanceFits (dropAcquiredMoves reason fuel s NULL
      (s.tcb s.currentTCB).acquiredResourcesLinkedList) s.currentTCB

/-- The owner of the mutex is found. -/
def waitFits (s : Sched) (fuel reason checkCode isReasonMutex : Nat) : Bool :=
  if checkCode = s.checkCode ∧ isReasonMutex ≠ 0 then
    (s.park reason).inheritanceFits
      ((s.park reason).inheritanceMoves fuel (s.mutexes reason).tcbPointer)
      (s.mutexes reason).tcbPointer
  else true

/-- All tasks that the scheduler puts on a heap find a place. -/
def pendSVFits (s : Sched) (memclusterInUse : Bool) (rand : Nat → Nat) (fuel : Nat) : Bool :=
  if s.currentTCB ≠ s.idleTCB ∧ s.mustSwitch = false then true
  else
    match s.beforeWake memclusterInUse fuel with
    | none => true
    | some s =>
      wakeLoopFits (s.sleepHeap.currentNumNodes + 1) s &&
      let s := s.wakeSleepers
      if s.schedulerHeap.currentNumNodes = 0 then true
      else
        selectTaskFits memclusterInUse rand s.selectRounds 0 s 0
          (s.schedulerHeap.currentNumNodes - 1)

namespace Books

variable {N : Nat} {tasks : Finset Nat} {fresh : Prop} {life : Nat → Lifecycle} {s : Sched}
  {task index : Nat}

/-- A task that has left the scheduler heap finds a free node. -/
theorem num_lt (h : Books N tasks fresh life s) (htask : task ∈ s.scheduled)
    (hfits : tasks.card ≤ N ∨ s.returnFits task = true) (hoff : (life task).inTable = false) :
    s.schedulerHeap.currentNumNodes < N := by
  rw [← h.onHeap.size] at hfits ⊢
  rcases hfits with hcard | hfits
  · refine h.onHeap.heap.distinct.num_lt hcard (h.known task htask).1 ?_
    intro hmem
    rw [h.onHeap.mem] at hmem
    rw [Lifecycle.inTable, hmem] at hoff
    cases hoff
  · rcases Bool.or_eq_true_iff.mp hfits with hlt | hin
    · exact of_decide_eq_true hlt
    · obtain ⟨v, hv⟩ := mem_of_get h.onHeap.table.keys.keyed.wf (of_decide_eq_true hin)
      have hin := ((h.onHeap.table.keys.mem task v).mp hv).2
      rw [hoff] at hin
      cases hin

/-- A sleeping task that leaves the scheduler heap finds a free node on the other. -/
theorem sleepHeap_num_lt (h : Books N tasks fresh life s)
    (hfits : tasks.card ≤ N ∨ s.moveFits index = true) (hasleep : s.Asleep (s.taskAt index))
    (hlife : life (s.taskAt index) = .sleeping true) : s.sleepHeap.currentNumNodes < N := by
  rw [← h.onSleepHeap.size] at hfits ⊢
  have hscheduled := h.mem_of_ne_absent (t := s.taskAt index) (by rw [hlife]; simp)
  rcases hfits with hcard | hfits
  · refine h.onSleepHeap.heap.num_lt hcard (h.known _ hscheduled).1 ?_
    intro hmem
    rw [h.onSleepHeap.mem, hlife] at hmem
    cases hmem
  · rcases Bool.or_eq_true_iff.mp hfits with hlt | hawake
    · exact of_decide_eq_true hlt
    · rw [decide_eq_true hasleep] at hawake
      cases hawake

/-- Priority inheritance finds the node it moves. -/
theorem finds (h : Books N tasks fresh life s) {moves : Bool}
    (hfits : tasks.card ≤ N ∨ s.inheritanceFits moves task = true) (hmoves : moves = true)
    (hin : (life task).inTable = true) : s.schedulerHeap.Finds task := by
  rcases hfits with hcard | hfits
  · rcases Bool.or_eq_true_iff.mp hin with hon | hrejected
    · rw [← h.onHeap.size] at hcard
      exact h.onHeap.heap.finds hcard ((h.onHeap.mem task).mpr hon)
    · have hlt := h.rejected task (of_decide_eq_true hrejected)
      omega
  · rw [inheritanceFits, hmoves] at hfits
    exact of_decide_eq_true hfits

end Books

/-- In no round of the walk does a task find the sleep heap full. -/
theorem selectTaskFits_iff (memclusterInUse : Bool) (rand : Nat → Nat)
    (fuel k : Nat) (s : Sched) (nodeIndex maxValidHeapIdx : Nat) :
    selectTaskFits memclusterInUse rand fuel k s nodeIndex maxValidHeapIdx = true ↔
      ∀ r ∈ selectTaskRounds (fun _ => memclusterInUse) rand fuel k s nodeIndex maxValidHeapIdx,
        r.sched.moveFits r.index = true := by
  induction fuel generalizing k s nodeIndex maxValidHeapIdx with
  | zero => exact ⟨fun _ r hr => absurd hr List.not_mem_nil, fun _ => rfl⟩
  | succ fuel ih =>
    simp only [selectTaskFits, selectTaskRounds, Bool.and_eq_true, List.forall_mem_cons]
    refine and_congr_right ?_
    intro _
    cases s.removeIfInactive memclusterInUse nodeIndex with
    | mk s₁ removed =>
      cases removed with
      | true =>
        by_cases hempty : s₁.schedulerHeap.currentNumNodes = 0
        · simp [hempty]
        by_cases hpast : nodeIndex > s₁.schedulerHeap.currentNumNodes - 1
        · simp [hempty, hpast]
        · simp only [if_neg hempty, if_neg hpast]
          exact ih k s₁ nodeIndex _
      | false =>
        by_cases hdown : getRandForTaskChoice (rand k) ≠ 0 ∧
            (if getRandForTaskChoice (rand k) = 1 then getFirstChildIndex nodeIndex
              else getSecondChildIndex nodeIndex) ≤ maxValidHeapIdx
        · simp only [if_pos hdown]
          exact ih (k + 1) s₁ _ maxValidHeapIdx
        · simp [if_neg hdown]

end Sched

end DocetOS
