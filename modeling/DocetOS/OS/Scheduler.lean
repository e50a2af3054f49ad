import DocetOS.DataStructures.Heap
import DocetOS.DataStructures.Mutex

/-!
# The scheduler (`stochasticScheduler.c`)

The state of the scheduler is its five tables and two heaps, together with the
memory its functions read and write: the TCBs and the mutexes, both named by
their addresses. The callbacks are functions on this state. A handler runs to
its end before any other code (SysTick, SVC and PendSV share one priority), so
the tick counter and the in-use flag of the memory cluster have one value
during a call.

- A failed `ASSERT(0)` stops in the debugger; the code after it is what the
  functions here go on with.
- `rand()` is a sequence of arbitrary outcomes the scheduler call receives.
- The lists of acquired mutexes and of completed tasks are threaded through
  memory that tasks can write, so the loops over them need not end: they take
  `fuel`, and a call that does not return has no result.

Three fields are history and are read by no function: `scheduled` (the tasks
added and not yet removed), `sleepRequest` (tick and duration of the last sleep
request of each task) and `freed` (what was passed to `OS_free`).
-/

namespace DocetOS

/-- The bits of `state` in a TCB. -/
structure TaskState where
  yield : Bool
  sleep : Bool
  wait : Bool
  exit : Bool
deriving DecidableEq, Repr

/-- No bit set. -/
def TaskState.zero : TaskState := ⟨false, false, false, false⟩

/-- `OS_TCB_t`, without what only the context switch and the channel manager
use. -/
structure TCB where
  originalSpMemoryPointer : Nat
  state : TaskState
  priority : Nat
  data : Nat
  data2 : Nat
  inheritedPriority : Nat
  prevInheritedPriority : Nat
  acquiredResourcesLinkedList : Nat
deriving DecidableEq, Repr

/-- The value a task is ordered by in the scheduler heap. -/
def TCB.heapPriority (tcb : TCB) : Nat :=
  if tcb.inheritedPriority ≠ 0 then tcb.inheritedPriority else tcb.priority

abbrev MAX_TASK_TIME_IN_SYSTICKS : Nat := 100
abbrev NUM_BUCKETS_FOR_WAIT_HASHTABLE : Nat := 8
abbrev WAIT_HASHTABLE_CAPACITY : Nat := 32

/-- The scheduler and the memory it works on. -/
structure Sched where
  tcb : Nat → TCB
  mutexes : Nat → Mutex
  currentTCB : Nat
  idleTCB : Nat
  ticks : Nat
  checkCode : Nat
  schedulerHeap : MinHeap
  waitingTasksHashTableReasonAsKey : Hashtable
  waitingTasksHashTableTcbAsKey : Hashtable
  activeTasksHashTable : Hashtable
  tasksInSchedulerHeapHashTable : Hashtable
  sleepHeap : MinHeap
  sleepingTasksHashTable : Hashtable
  completedTasksLinkedList : Nat
  systickRolloverDetectedFLAG : Nat
  ticksSinceLastTaskSwitch : Nat
  scheduled : List Nat
  sleepRequest : Nat → Nat × Nat
  freed : List Nat

namespace Sched

/-- `initialize_scheduler` on the memory of the tasks and mutexes. The blocks
allocated for the tables and the heaps held `values`, `flags` and `nodes`. -/
def initializeScheduler (sizeOfHeapNodeArray : Nat) (tcb : Nat → TCB) (mutexes : Nat → Mutex)
    (currentTCB idleTCB ticks : Nat) (values : Nat → Nat → HashtableValue) (flags : Nat → Nat)
    (nodes : Nat → Nat → MinHeapNode) : Sched where
  tcb := tcb
  mutexes := mutexes
  currentTCB := currentTCB
  idleTCB := idleTCB
  ticks := ticks
  checkCode := 0
  waitingTasksHashTableReasonAsKey :=
    .newHashtable WAIT_HASHTABLE_CAPACITY NUM_BUCKETS_FOR_WAIT_HASHTABLE (values 0) (flags 0)
  waitingTasksHashTableTcbAsKey :=
    .newHashtable WAIT_HASHTABLE_CAPACITY NUM_BUCKETS_FOR_WAIT_HASHTABLE (values 1) (flags 1)
  activeTasksHashTable :=
    .newHashtable WAIT_HASHTABLE_CAPACITY NUM_BUCKETS_FOR_WAIT_HASHTABLE (values 2) (flags 2)
  tasksInSchedulerHeapHashTable :=
    .newHashtable WAIT_HASHTABLE_CAPACITY NUM_BUCKETS_FOR_WAIT_HASHTABLE (values 3) (flags 3)
  sleepingTasksHashTable :=
    .newHashtable WAIT_HASHTABLE_CAPACITY NUM_BUCKETS_FOR_WAIT_HASHTABLE (values 4) (flags 4)
  schedulerHeap := .newHeap sizeOfHeapNodeArray true (nodes 0) (values 5) (flags 5)
  sleepHeap := .newHeap sizeOfHeapNodeArray false (nodes 1) (values 6) (flags 6)
  completedTasksLinkedList := NULL
  systickRolloverDetectedFLAG := 0
  ticksSinceLastTaskSwitch := 0
  scheduled := []
  sleepRequest _ := (0, 0)
  freed := []

/-- Write to the TCB of a task. -/
def modifyTCB (s : Sched) (task : Nat) (f : TCB → TCB) : Sched :=
  { s with tcb := Function.update s.tcb task (f (s.tcb task)) }

def modifyMutex (s : Sched) (mutex : Nat) (f : Mutex → Mutex) : Sched :=
  { s with mutexes := Function.update s.mutexes mutex (f (s.mutexes mutex)) }

/-! ## Shared pieces -/

/-- Put a task that is awake again on the scheduler heap, unless it has never
left it. -/
def returnToSchedulerHeap (s : Sched) (task : Nat) : Sched :=
  let (table, status) :=
    s.tasksInSchedulerHeapHashTable.put task task .rejectMultipleValuesPerKey
  let s := { s with tasksInSchedulerHeapHashTable := table }
  if status ≠ 0 then
    { s with schedulerHeap := (s.schedulerHeap.addNode task (s.tcb task).heapPriority).1 }
  else s

/-- Take the node at `index` off the scheduler heap, whose content is `task`. -/
def leaveSchedulerHeap (s : Sched) (index task : Nat) : Sched :=
  { s with
      schedulerHeap := (s.schedulerHeap.removeNodeAt index).1
      tasksInSchedulerHeapHashTable := (s.tasksInSchedulerHeapHashTable.remove task).1 }

/-- `__updateSleepState`; the second component tells whether the task is still
asleep. -/
def updateSleepState (s : Sched) (task : Nat) : Sched × Bool :=
  if (s.tcb task).state.sleep = false then (s, false)
  else
    let currentTime := s.ticks
    let lastSleepStateUpdate := (s.tcb task).data
    let remainingTime := (s.tcb task).data2
    let rollover := currentTime < lastSleepStateUpdate
    let deltaTime :=
      if rollover then wrap (currentTime + (UINT32_MAX - lastSleepStateUpdate))
      else currentTime - lastSleepStateUpdate
    let s := if rollover then { s with systickRolloverDetectedFLAG := 1 } else s
    let s := s.modifyTCB task fun tcb => { tcb with data := currentTime }
    if remainingTime ≤ deltaTime then
      let s := { s with
        sleepingTasksHashTable := (s.sleepingTasksHashTable.remove task).1
        activeTasksHashTable :=
          (s.activeTasksHashTable.put task task .rejectMultipleValuesPerKey).1 }
      let s := s.returnToSchedulerHeap task
      (s.modifyTCB task fun tcb =>
        { tcb with state := { tcb.state with sleep := false }, data2 := 0 }, false)
    else (s.modifyTCB task fun tcb => { tcb with data2 := tcb.data2 - deltaTime }, true)

/-! ## Removing tasks from the scheduler heap -/

/-- The content of the node at `index` of the scheduler heap. -/
def taskAt (s : Sched) (index : Nat) : Nat :=
  (s.schedulerHeap.ptrToUnderlyingArray index).ptrToNodeContent

/-- `__removeIfWaiting`. -/
def removeIfWaiting (s : Sched) (index : Nat) : Sched × Bool :=
  let task := s.taskAt index
  if (s.tcb task).state.wait then (s.leaveSchedulerHeap index task, true) else (s, false)

/-- `__removeIfExit`. -/
def removeIfExit (memclusterInUse : Bool) (s : Sched) (index : Nat) : Sched × Bool :=
  let task := s.taskAt index
  let state := (s.tcb task).state
  if state.exit && (state.sleep || state.wait) then (s, false)
  else if state.exit then
    let s := s.leaveSchedulerHeap index task
    let s := { s with
      activeTasksHashTable := (s.activeTasksHashTable.remove task).1
      scheduled := s.scheduled.erase task }
    if memclusterInUse = false then
      ({ s with freed := task :: (s.tcb task).originalSpMemoryPointer :: s.freed }, true)
    else if s.completedTasksLinkedList ≠ NULL then
      let tmpTask := s.completedTasksLinkedList
      ({ s with completedTasksLinkedList := task }.modifyTCB task fun tcb =>
        { tcb with data := tmpTask }, true)
    else ({ s with completedTasksLinkedList := task }, true)
  else (s, false)

/-- `__removeIfSleeping`. -/
def removeIfSleeping (s : Sched) (index : Nat) : Sched × Bool :=
  let task := s.taskAt index
  let (s, asleep) := s.updateSleepState task
  if asleep then
    let s := s.leaveSchedulerHeap index task
    ({ s with sleepHeap := (s.sleepHeap.addNode task (s.tcb task).data2).1 }, true)
  else (s, false)

/-! ## The scheduler -/

/-- The loop that frees the tasks on the list of completed ones. -/
def freeCompleted : Nat → Sched → Option Sched
  | 0, _ => none
  | fuel + 1, s =>
    let task := s.completedTasksLinkedList
    if task = NULL then some s
    else
      freeCompleted fuel { s with
        completedTasksLinkedList := (s.tcb task).data
        freed := task :: (s.tcb task).originalSpMemoryPointer :: s.freed }

/-- The loop over one bucket of the sleeping tasks after a tick rollover. -/
def updateBucket : Nat → Sched → Option Nat → Option Sched
  | 0, _, _ => none
  | _ + 1, s, none => some s
  | fuel + 1, s, some element =>
    let s := (s.updateSleepState (s.sleepingTasksHashTable.values element).underlyingData).1
    updateBucket fuel s (s.sleepingTasksHashTable.values element).nextHashtableValue

/-- The loop over the buckets of the sleeping tasks from `bucketInd` on. -/
def updateBuckets (fuel : Nat) : Nat → Nat → Sched → Option Sched
  | 0, _, s => some s
  | n + 1, bucketInd, s => do
    let (table, element) := s.sleepingTasksHashTable.getFirstElementOfNthBucket bucketInd
    let s ← updateBucket fuel { s with sleepingTasksHashTable := table } element
    updateBuckets fuel n (bucketInd + 1) s

/-- The loop that wakes tasks from the top of the sleep heap. Every round takes
a node off, so as many rounds as there are nodes, and one to find none, are
enough. -/
def wakeLoop : Nat → Sched → Sched
  | 0, s => s
  | fuel + 1, s =>
    match s.sleepHeap.removeNode with
    | (_, none) => s
    | (sleepHeap, some sleepingTask) =>
      let (s, asleep) := { s with sleepHeap }.updateSleepState sleepingTask
      if asleep then
        { s with
          sleepHeap := (s.sleepHeap.addNode sleepingTask (s.tcb sleepingTask).data2).1 }
      else wakeLoop fuel s

/-- `__getRandForTaskChoice` on the outcome of `rand()`. -/
def getRandForTaskChoice (rand : Nat) : Nat :=
  let value := rand % 10
  if value ≤ 3 then 0 else if value ≤ 6 then 1 else 2

/-- `__removeIfExit || __removeIfWaiting || __removeIfSleeping`. -/
def removeIfInactive (memclusterInUse : Bool) (s : Sched) (index : Nat) : Sched × Bool :=
  match s.removeIfExit memclusterInUse index with
  | (s, true) => (s, true)
  | (s, false) =>
    match s.removeIfWaiting index with
    | (s, true) => (s, true)
    | (s, false) => s.removeIfSleeping index

/-- The walk down the scheduler heap that selects a task; `k` counts the calls
of `rand()` so far. -/
def selectTask (memclusterInUse : Bool) (rand : Nat → Nat) :
    Nat → Nat → Sched → Nat → Nat → Nat → Option (Sched × Nat)
  | 0, _, _, _, _, _ => none
  | fuel + 1, k, s, nodeIndex, maxValidHeapIdx, lastActiveNodeIndex =>
    match s.removeIfInactive memclusterInUse nodeIndex with
    | (s, true) =>
      if s.schedulerHeap.currentNumNodes = 0 then some (s, s.idleTCB)
      else
        let maxValidHeapIdx := s.schedulerHeap.currentNumNodes - 1
        if nodeIndex > maxValidHeapIdx then some (s, s.taskAt lastActiveNodeIndex)
        else
          selectTask memclusterInUse rand fuel k s nodeIndex maxValidHeapIdx lastActiveNodeIndex
    | (s, false) =>
      let randNodeSelection := getRandForTaskChoice (rand k)
      let nextNodeIdx :=
        if randNodeSelection = 1 then getFirstChildIndex nodeIndex
        else getSecondChildIndex nodeIndex
      if randNodeSelection ≠ 0 ∧ nextNodeIdx ≤ maxValidHeapIdx then
        selectTask memclusterInUse rand fuel (k + 1) s nextNodeIdx maxValidHeapIdx nodeIndex
      else
        some (s, if s.taskAt nodeIndex = NULL then s.idleTCB else s.taskAt nodeIndex)

/-- The rounds the walk needs at most: each removes a node or goes down. -/
def selectRounds (s : Sched) : Nat := 2 * s.schedulerHeap.currentNumNodes + 1

/-- The task is done, has left or has used up its time. -/
def mustSwitch (s : Sched) : Bool :=
  let state := (s.tcb s.currentTCB).state
  state.exit || (state.yield || state.wait || state.sleep) ||
    !decide (s.ticksSinceLastTaskSwitch < MAX_TASK_TIME_IN_SYSTICKS)

/-- The part of `stochasticScheduler_scheduler` up to the wake-up loop, when the
task is switched. -/
def beforeWake (s : Sched) (memclusterInUse : Bool) (fuel : Nat) : Option Sched := do
  let s ←
    if s.completedTasksLinkedList ≠ NULL ∧ memclusterInUse = false then freeCompleted fuel s
    else some s
  let s := s.modifyTCB s.currentTCB fun tcb =>
    { tcb with state := { tcb.state with yield := false } }
  let s := { s with ticksSinceLastTaskSwitch := 0 }
  if s.systickRolloverDetectedFLAG ≠ 0 then
    let s ← updateBuckets fuel s.sleepingTasksHashTable.numberOfBuckets 0 s
    return { s with systickRolloverDetectedFLAG := 0 }
  else return s

/-- The wake-up loop of `stochasticScheduler_scheduler`. -/
def wakeSleepers (s : Sched) : Sched := wakeLoop (s.sleepHeap.currentNumNodes + 1) s

/-- The part of `stochasticScheduler_scheduler` after the wake-up loop. -/
def afterWake (s : Sched) (memclusterInUse : Bool) (rand : Nat → Nat) : Option (Sched × Nat) :=
  if s.schedulerHeap.currentNumNodes = 0 then some (s, s.idleTCB)
  else
    selectTask memclusterInUse rand s.selectRounds 0 s 0 (s.schedulerHeap.currentNumNodes - 1) 0

/-- `stochasticScheduler_scheduler`: the state and the task to run. -/
def scheduler (s : Sched) (memclusterInUse : Bool) (rand : Nat → Nat) (fuel : Nat) :
    Option (Sched × Nat) :=
  if s.currentTCB ≠ s.idleTCB ∧ s.mustSwitch = false then
    some ({ s with ticksSinceLastTaskSwitch := s.ticksSinceLastTaskSwitch + 1 }, s.currentTCB)
  else do
    let s ← s.beforeWake memclusterInUse fuel
    s.wakeSleepers.afterWake memclusterInUse rand

/-- `PendSV_Handler`: call the scheduler and switch to the task it returns. -/
def pendSV (s : Sched) (memclusterInUse : Bool) (rand : Nat → Nat) (fuel : Nat) :
    Option Sched := do
  let (s, nextTCB) ← s.scheduler memclusterInUse rand fuel
  return { s with currentTCB := nextTCB }

/-! ## Priority inheritance -/

/-- The loop over the tasks that wait for one mutex, from the `n`-th on. -/
def highestWaiting (s : Sched) (mutex : Nat) : Nat → Nat → Hashtable → Nat → Hashtable × Nat
  | 0, _, table, highestPriority => (table, highestPriority)
  | rounds + 1, n, table, highestPriority =>
    let (table, taskWaitingOnMutex) := table.getNthValueAtKey mutex n
    if table.validValueFlag ≠ 0 then
      let waitingTaskMaxPriority := (s.tcb taskWaitingOnMutex).heapPriority
      highestWaiting s mutex rounds (n + 1) table
        (if waitingTaskMaxPriority < highestPriority then waitingTaskMaxPriority
          else highestPriority)
    else (table, highestPriority)

/-- The loop over the mutexes a task has acquired. -/
def highestInherited (s : Sched) : Nat → Hashtable → Nat → Nat → Option (Hashtable × Nat)
  | 0, _, _, _ => none
  | fuel + 1, table, acquiredMutex, highestPriority =>
    if acquiredMutex = NULL then some (table, highestPriority)
    else
      let (table, highestPriority) :=
        s.highestWaiting acquiredMutex (table.maximumCapacity + 1) 0 table highestPriority
      highestInherited s fuel table (s.mutexes acquiredMutex).nextAcquiredResource highestPriority

/-- Remove a task from the scheduler heap and add it again with another value. -/
def readdToSchedulerHeap (s : Sched) (task value : Nat) : Sched :=
  let (heap, taskHeapIndex) := s.schedulerHeap.indexOfContent task
  let heap := (heap.removeNodeAt taskHeapIndex).1
  { s with schedulerHeap := (heap.addNode task value).1 }

/-- The part of `__updatePriorityInheritance` that sets the priority a task
inherits, and puts a task that no longer inherits one back to its own place. -/
def setInheritedPriority (s : Sched) (task highestPriority : Nat) (isActiveAndInHeap : Bool) :
    Sched :=
  if highestPriority < (s.tcb task).priority then
    s.modifyTCB task fun tcb =>
      { tcb with
          prevInheritedPriority := tcb.inheritedPriority
          inheritedPriority := highestPriority }
  else
    let s :=
      if (s.tcb task).inheritedPriority ≠ 0 ∧ isActiveAndInHeap then
        s.readdToSchedulerHeap task (s.tcb task).priority
      else s
    s.modifyTCB task fun tcb => { tcb with inheritedPriority := 0, prevInheritedPriority := 0 }

/-- The last part of `__updatePriorityInheritance`: move the task to the place
of a priority it newly inherits. -/
def moveToInheritedPriority (s : Sched) (task : Nat) (isActiveAndInHeap : Bool) : Sched :=
  let tcb := s.tcb task
  if isActiveAndInHeap ∧ tcb.inheritedPriority ≠ 0 ∧
      tcb.prevInheritedPriority ≠ tcb.inheritedPriority then
    s.readdToSchedulerHeap task tcb.inheritedPriority
  else s

/-- `__updatePriorityInheritance`. -/
def updatePriorityInheritance (s : Sched) (fuel task : Nat) : Option Sched := do
  let (reasons, highestPriority) ← s.highestInherited fuel s.waitingTasksHashTableReasonAsKey
    (s.tcb task).acquiredResourcesLinkedList (s.tcb task).priority
  let (inHeap, value) := s.tasksInSchedulerHeapHashTable.get task
  let isActiveAndInHeap := decide (value ≠ 0 ∧ inHeap.validValueFlag ≠ 0)
  let s := { s with
    waitingTasksHashTableReasonAsKey := reasons
    tasksInSchedulerHeapHashTable := inHeap }
  return (s.setInheritedPriority task highestPriority isActiveAndInHeap).moveToInheritedPriority
    task isActiveAndInHeap

/-- `resourceAcquired_callback`. -/
def resourceAcquired (s : Sched) (acquiredMutex : Nat) : Sched :=
  let tmpMutex := (s.tcb s.currentTCB).acquiredResourcesLinkedList
  if (s.mutexes acquiredMutex).counter ≠ 0 ∨ s.currentTCB = NULL then s
  else if acquiredMutex = tmpMutex then s
  else
    (s.modifyTCB s.currentTCB fun tcb =>
      { tcb with acquiredResourcesLinkedList := acquiredMutex }).modifyMutex acquiredMutex
        fun mutex => { mutex with nextAcquiredResource := tmpMutex }

/-! ## Adding and ending tasks -/

/-- `OS_initialiseTCB`; `memory` is what the block of the TCB held. The pointer
for the deallocation is `stack - 64` words, whatever the size of the stack. -/
def initialiseTCB (memory : TCB) (stack : Nat) : TCB :=
  { memory with
      originalSpMemoryPointer := wrap (stack + (4294967296 - 4 * 64))
      state := .zero
      priority := 0
      data := 0
      inheritedPriority := 0
      prevInheritedPriority := 0 }

/-- `stochasticScheduler_addTask`. -/
def addTask (s : Sched) (tcb taskPriority : Nat) : Sched :=
  if tcb = NULL then s
  else if (s.tcb tcb).state ≠ TaskState.zero then s
  else if taskPriority = 0 then s
  else
    let s := s.modifyTCB tcb fun t => { t with priority := taskPriority }
    { s with
      activeTasksHashTable := (s.activeTasksHashTable.put tcb tcb .rejectMultipleValuesPerKey).1
      tasksInSchedulerHeapHashTable :=
        (s.tasksInSchedulerHeapHashTable.put tcb tcb .rejectMultipleValuesPerKey).1
      schedulerHeap := (s.schedulerHeap.addNode tcb taskPriority).1
      scheduled := tcb :: s.scheduled }

/-- `stochasticScheduler_taskExit`. -/
def taskExit (s : Sched) (tcb : Nat) : Sched :=
  s.modifyTCB tcb fun t => { t with state := { t.state with exit := true }, data := NULL }

/-! ## Waiting, notifying and sleeping -/

/-- The part of `stochasticScheduler_waitCallback` that parks the current task. -/
def park (s : Sched) (reason : Nat) : Sched :=
  let current := s.currentTCB
  let (reasons, status) :=
    s.waitingTasksHashTableReasonAsKey.put reason current .rejectMultipleIdenticalValuesPerKey
  let s := { s with
    activeTasksHashTable := (s.activeTasksHashTable.remove current).1
    waitingTasksHashTableReasonAsKey := reasons
    waitingTasksHashTableTcbAsKey :=
      if status ≠ 0 then
        (s.waitingTasksHashTableTcbAsKey.put current reason
          .rejectMultipleIdenticalValuesPerKey).1
      else s.waitingTasksHashTableTcbAsKey }
  s.modifyTCB current fun tcb => { tcb with state := { tcb.state with wait := true } }

/-- `stochasticScheduler_waitCallback`. -/
def waitCallback (s : Sched) (fuel reason checkCode isReasonMutex : Nat) : Option Sched :=
  -- a notify has come between reading the check code and this call
  if checkCode ≠ s.checkCode then some s
  else
    let s := s.park reason
    if isReasonMutex ≠ 0 then s.updatePriorityInheritance fuel (s.mutexes reason).tcbPointer
    else some s

/-- What the loop of `stochasticScheduler_notifyCallback` does with one task it
has taken from the waiting tasks. -/
def unpark (s : Sched) (task : Nat) : Sched :=
  let (table, status) := s.activeTasksHashTable.put task task .rejectMultipleValuesPerKey
  let s := { s with activeTasksHashTable := table }
  let s :=
    if status ≠ 0 then
      s.modifyTCB task fun tcb => { tcb with state := { tcb.state with wait := false } }
    else s
  s.returnToSchedulerHeap task

/-- Take one task that waits for `reason` from the two waiting tables, `NULL`
when there is none. -/
def takeWaiting (s : Sched) (reason : Nat) : Sched × Nat :=
  let (reasons, task) := s.waitingTasksHashTableReasonAsKey.remove reason
  ({ s with
      waitingTasksHashTableReasonAsKey := reasons
      waitingTasksHashTableTcbAsKey := (s.waitingTasksHashTableTcbAsKey.remove task).1 }, task)

/-- The loop of `stochasticScheduler_notifyCallback`. -/
def wakeWaiting (reason : Nat) : Nat → Sched → Sched
  | 0, s => s
  | rounds + 1, s =>
    let (s, task) := s.takeWaiting reason
    if task = NULL then s else wakeWaiting reason rounds (s.unpark task)

/-- Wake every task that waits for `reason`. A table holds at most
`maximumCapacity` of them. -/
def wakeAll (s : Sched) (reason : Nat) : Sched :=
  wakeWaiting reason (s.waitingTasksHashTableReasonAsKey.maximumCapacity + 1) s

/-- The last part of `stochasticScheduler_notifyCallback`: take the mutex
`reason` out of the list of mutexes the current task has acquired. -/
def dropAcquired (reason : Nat) : Nat → Sched → Nat → Nat → Option Sched
  | 0, _, _, _ => none
  | fuel + 1, s, prevAcquiredMutex, acquiredMutex =>
    if acquiredMutex = NULL then some s
    else
      let next := (s.mutexes acquiredMutex).nextAcquiredResource
      if acquiredMutex = reason then
        let s :=
          if prevAcquiredMutex ≠ NULL then
            s.modifyMutex prevAcquiredMutex fun mutex => { mutex with nextAcquiredResource := next }
          else
            s.modifyTCB s.currentTCB fun tcb => { tcb with acquiredResourcesLinkedList := next }
        let s := s.modifyMutex acquiredMutex fun mutex =>
          { mutex with nextAcquiredResource := NULL }
        s.updatePriorityInheritance fuel s.currentTCB
      else dropAcquired reason fuel s acquiredMutex next

/-- `stochasticScheduler_notifyCallback`. -/
def notifyCallback (s : Sched) (fuel reason : Nat) : Option Sched :=
  let s := s.wakeAll reason
  dropAcquired reason fuel s NULL (s.tcb s.currentTCB).acquiredResourcesLinkedList

/-- `stochasticScheduler_sleepCallback`. -/
def sleepCallback (s : Sched) (tcb minSleepDuration : Nat) : Sched :=
  if minSleepDuration = 0 then s
  else
    let (active, removed) := s.activeTasksHashTable.remove tcb
    let s := { s with activeTasksHashTable := active }
    if removed ≠ NULL then
      let s := s.modifyTCB tcb fun t =>
        { t with
            state := { t.state with sleep := true }
            data := s.ticks
            data2 := minSleepDuration }
      { s with
        sleepingTasksHashTable :=
          (s.sleepingTasksHashTable.put tcb tcb .rejectMultipleValuesPerKey).1
        sleepRequest := Function.update s.sleepRequest tcb (s.ticks, minSleepDuration) }
    else s

/-! ## The state of a task -/

/-- `OS_scheduler_isTaskActive`. -/
def isTaskActive (s : Sched) (task : Nat) : Sched × Nat :=
  let (activeTasksHashTable, value) := s.activeTasksHashTable.get task
  ({ s with activeTasksHashTable }, if value ≠ 0 then 1 else 0)

/-- `OS_scheduler_isTaskSleeping`. -/
def isTaskSleeping (s : Sched) (task : Nat) : Sched × Nat :=
  let (sleepingTasksHashTable, value) := s.sleepingTasksHashTable.get task
  ({ s with sleepingTasksHashTable }, if value ≠ 0 then 1 else 0)

/-- `OS_scheduler_isTaskWaiting`. -/
def isTaskWaiting (s : Sched) (task : Nat) : Sched × Nat :=
  let (waitingTasksHashTableTcbAsKey, value) := s.waitingTasksHashTableTcbAsKey.get task
  ({ s with waitingTasksHashTableTcbAsKey }, if value ≠ 0 then 1 else 0)

/-- `OS_scheduler_doesTaskExist`. -/
def doesTaskExist (s : Sched) (task : Nat) : Sched × Nat :=
  let (s, active) := s.isTaskActive task
  if active ≠ 0 then (s, 1)
  else
    let (s, sleeping) := s.isTaskSleeping task
    if sleeping ≠ 0 then (s, 1)
    else
      let (s, waiting) := s.isTaskWaiting task
      if waiting ≠ 0 then (s, 1) else (s, 0)

/-! ## SVC handlers -/

/-- `_svc_OS_notify` on the check code. -/
def nextCheckCode (s : Sched) : Sched := { s with checkCode := wrap (s.checkCode + 1) }

/-- `_svc_OS_yield` on the current task. -/
def yieldCurrent (s : Sched) : Sched :=
  s.modifyTCB s.currentTCB fun tcb => { tcb with state := { tcb.state with yield := true } }

/-! ## A scheduler to try runs on -/

/-- The scheduler `OS_init` makes, without tasks, on memory full of zeros. -/
def sampleSched (currentTCB : Nat) : Sched :=
  initializeScheduler 16 (fun _ => ⟨0, .zero, 1, 0, 0, 0, 0, NULL⟩) (fun _ => initMutex)
    currentTCB 1 0 (fun _ _ => ⟨none, 0, 0⟩) (fun _ => 0) (fun _ _ => ⟨0, 0⟩)

end Sched

end DocetOS
