import DocetOS.OS.Bookkeeping
import DocetOS.OS.SleepTime

/-!
# Exited tasks are freed once

A task that has called exit is taken off the scheduler heap by the walk of the
scheduler, which frees its stack and its TCB, or puts it on the list of completed
tasks if the memory cluster is in use; a later call of the scheduler empties the
list. Every test of the in-use flag may find another value here.

- `Lives` records the lives of the TCBs that have begun and the frees, each with the
  state in which it is made.
- `Ending` is the invariant: every life that has begun has been freed, or is that of
  a scheduled task, or that of a task on the list, and only one of these.
- `KeepsLives` is what the rest of the scheduler does: it begins and ends no life, and
  leaves the `data` fields that thread the list alone.
- `exited_tasks_freed_once` puts them together.
-/

namespace DocetOS

open Hashtable

/-- The life of a TCB, from `OS_initialiseTCB` to the end of its task. -/
structure Life where
  tcb : Nat
  originalSpMemoryPointer : Nat
deriving DecidableEq, Repr

/-- What is passed to `OS_free` at the end of a life, in this order. -/
def Life.blocks (l : Life) : List Nat := [l.originalSpMemoryPointer, l.tcb]

namespace Sched

def lifeOf (s : Sched) (task : Nat) : Life := ⟨task, (s.tcb task).originalSpMemoryPointer⟩

/-- A heap or a table of the scheduler has the task. -/
def Refers (s : Sched) (task : Nat) : Prop :=
  task ∈ s.schedulerHeap.contents ∨ task ∈ s.sleepHeap.contents ∨
    (∃ p ∈ s.activeTasksHashTable.content, p.1 = task ∨ p.2 = task) ∨
    (∃ p ∈ s.tasksInSchedulerHeapHashTable.content, p.1 = task ∨ p.2 = task) ∨
    (∃ p ∈ s.sleepingTasksHashTable.content, p.1 = task ∨ p.2 = task) ∨
    (∃ reason, (reason, task) ∈ s.waitingTasksHashTableReasonAsKey.content) ∨
    ∃ reason, (task, reason) ∈ s.waitingTasksHashTableTcbAsKey.content

end Sched

/-- The calls of `OS_free` for one task, in the state in which they are made. -/
structure Free where
  sched : Sched
  task : Nat

def Free.life (f : Free) : Life := f.sched.lifeOf f.task

/-- What `OS_free` is called with, in the order of the calls. -/
def freedBlocks (frees : List Free) : List Nat := frees.flatMap fun f => f.life.blocks

namespace Sched

/-! ## The frees of an event -/

/-- The frees of `freeCompleted`. -/
def freeCompletedFrees : Nat → Sched → List Free
  | 0, _ => []
  | fuel + 1, s =>
    let task := s.completedTasksLinkedList
    if task = NULL then []
    else
      let s := { s with completedTasksLinkedList := (s.tcb task).data }
      ⟨s, task⟩ :: freeCompletedFrees fuel (s.free task)

/-- The free in a round of the walk, if the task has ended and the memory cluster is
not in use. -/
def Round.frees (r : Round) : List Free :=
  if r.sched.HasEnded (r.sched.taskAt r.index) ∧ r.memclusterInUse = false then
    [⟨r.sched.retire r.index (r.sched.taskAt r.index), r.sched.taskAt r.index⟩]
  else []

/-- The frees of `beforeWake`. -/
def beforeWakeFrees (s : Sched) (memclusterInUse : Bool) (fuel : Nat) : List Free :=
  if s.completedTasksLinkedList ≠ NULL ∧ memclusterInUse = false then s.freeCompletedFrees fuel
  else []

/-- The frees of `pendSVEach`. -/
def pendSVFrees (s : Sched) (memclusterInUse : Bool) (inUse : Nat → Bool) (rand : Nat → Nat)
    (fuel : Nat) : List Free :=
  if s.currentTCB ≠ s.idleTCB ∧ s.mustSwitch = false then []
  else
    s.beforeWakeFrees memclusterInUse fuel ++
      match s.beforeWake memclusterInUse fuel with
      | none => []
      | some s => (s.wakeSleepers.afterWakeRounds inUse rand).flatMap Round.frees

/-- As `step`, where the tests of the in-use flag in the walk of the scheduler find
the values `e.2`. -/
def stepEach (tasks : Finset Nat) (s : Sched) (e : SchedulerEvent × (Nat → Bool)) :
    Option Sched := do
  let s ← s.call tasks e.1
  match e.1.switch with
  | none => some s
  | some switch => s.pendSVEach switch.memclusterInUse e.2 switch.rand switch.fuel

/-- The frees of `stepEach`. -/
def stepFrees (tasks : Finset Nat) (s : Sched) (e : SchedulerEvent × (Nat → Bool)) :
    List Free :=
  match s.call tasks e.1, e.1.switch with
  | some s, some switch => s.pendSVFrees switch.memclusterInUse e.2 switch.rand switch.fuel
  | _, _ => []

end Sched

/-- The lives that have begun, and the frees in the order in which they were made. -/
structure Lives where
  born : Multiset Life
  frees : List Free

namespace Lives

/-- A task that is added begins a life. -/
def birth (e : SchedulerEvent) (born : Multiset Life) : Multiset Life :=
  match e with
  | .addTask tcb memory stack _ =>
    if tcb = NULL then born
    else ⟨tcb, (Sched.initialiseTCB memory stack).originalSpMemoryPointer⟩ ::ₘ born
  | _ => born

/-- The lives after some more frees. -/
def free (lives : Lives) (frees : List Free) : Lives := ⟨lives.born, lives.frees ++ frees⟩

def record (tasks : Finset Nat) (s : Sched) (e : SchedulerEvent × (Nat → Bool)) (lives : Lives) :
    Lives :=
  { lives with born := birth e.1 lives.born }.free (s.stepFrees tasks e)

theorem free_nil (lives : Lives) : lives.free [] = lives := by
  rw [free, List.append_nil]

theorem free_append (lives : Lives) (frees frees' : List Free) :
    lives.free (frees ++ frees') = (lives.free frees).free frees' := by
  simp only [free, List.append_assoc]

theorem freedBlocks_free (lives : Lives) (f : Free) :
    (freedBlocks (lives.free [f]).frees).reverse =
      f.task :: f.life.originalSpMemoryPointer :: (freedBlocks lives.frees).reverse := by
  simp [freedBlocks, free, Life.blocks, Free.life, Sched.lifeOf]

theorem life_free (lives : Lives) (f : Free) :
    ((lives.free [f]).frees.map Free.life : Multiset Life) =
      f.life ::ₘ (lives.frees.map Free.life : List Life) := by
  rw [Multiset.cons_coe, free, List.map_append]
  exact Multiset.coe_eq_coe.mpr (List.perm_append_singleton _ _)

end Lives

/-- The runs of a scheduler with heaps of size `N` and tasks from `tasks`, with the
lives of their TCBs. A TCB that is on the list of completed tasks has not been freed,
so that `OS_alloc` does not return it for a new task. -/
def livesMachine (N : Nat) (tasks : Finset Nat) :
    Lib.Machine (Sched × Lives) (SchedulerEvent × (Nat → Bool)) :=
  Lib.Machine.guard
    { Lib.Machine.withHistory ⟨Sched.Booted N tasks, Sched.stepEach tasks⟩
        (Lives.record tasks) with
      init := fun p => Sched.Booted N tasks p.1 ∧ p.2 = ⟨0, []⟩ }
    fun p e => p.1.Fresh tasks e.1

namespace Sched

variable {N : Nat} {tasks : Finset Nat} {fresh : Prop} {life life' : Nat → Lifecycle}
  {s s' s'' : Sched} {lives : Lives} {l : List Nat} {task t index reason : Nat}

/-! ## The waiting tables -/

/-- `waitingTasksHashTableTcbAsKey` has only tasks that wait. -/
structure TcbKeys (s : Sched) : Prop where
  wf : s.waitingTasksHashTableTcbAsKey.WF
  le : s.waitingTasksHashTableTcbAsKey.content.map Prod.swap ≤ s.waiting

namespace TcbKeys

theorem waits (h : TcbKeys s) (hmem : (task, reason) ∈ s.waitingTasksHashTableTcbAsKey.content) :
    (reason, task) ∈ s.waiting :=
  Multiset.mem_of_le h.le (Multiset.mem_map.mpr ⟨_, hmem, rfl⟩)

/-- A task that does not wait yet joins both tables, or none. -/
theorem park (h : TcbKeys s) (hwf : s.waitingTasksHashTableReasonAsKey.WF) (reason : Nat) :
    TcbKeys (s.park reason) := by
  have hreasons : (s.park reason).waiting = (s.waitingTasksHashTableReasonAsKey.put reason
      s.currentTCB .rejectMultipleIdenticalValuesPerKey).1.content := rfl
  have htable : (s.park reason).waitingTasksHashTableTcbAsKey =
      if (s.waitingTasksHashTableReasonAsKey.put reason s.currentTCB
        .rejectMultipleIdenticalValuesPerKey).2 ≠ 0 then
        (s.waitingTasksHashTableTcbAsKey.put s.currentTCB reason
          .rejectMultipleIdenticalValuesPerKey).1
      else s.waitingTasksHashTableTcbAsKey := rfl
  rcases put_cases hwf reason s.currentTCB .rejectMultipleIdenticalValuesPerKey with
    hput | ⟨reasons, hput, -, hcontent, -⟩ <;> rw [hput] at hreasons htable
  · -- the first table refuses, and the second one is not asked
    rw [if_neg (by simp)] at htable
    exact ⟨htable ▸ h.wf, by rw [htable, hreasons]; exact h.le⟩
  -- the first table has the task now; the second one may still refuse it
  rw [if_pos (by simp)] at htable
  rcases put_cases h.wf s.currentTCB reason .rejectMultipleIdenticalValuesPerKey with
    hput' | ⟨table, hput', hwf', hcontent', -⟩ <;> rw [hput'] at htable
  · refine ⟨htable ▸ h.wf, ?_⟩
    rw [htable, hreasons, hcontent]
    exact h.le.trans (Multiset.le_cons_self _ _)
  · refine ⟨htable ▸ hwf', ?_⟩
    rw [htable, hreasons, hcontent, hcontent', Multiset.map_cons]
    exact Multiset.cons_le_cons _ h.le

/-- A task that is woken leaves both tables. -/
theorem wake (h : TcbKeys s) (hparked : Parked s) (hmem : (reason, task) ∈ s.waiting)
    (htask : (s.takeWaiting reason).2 = task) :
    TcbKeys ((s.takeWaiting reason).1.unpark task) := by
  obtain ⟨reasons, task', htake, -, hcontent, -⟩ := takeWaiting_of_mem hparked.wf ⟨task, hmem⟩
  rw [htake] at htask ⊢
  obtain rfl : task' = task := htask
  have honce := hparked.once
  rw [← hcontent, Multiset.map_cons, Multiset.nodup_cons] at honce
  have hwaiting : ∀ table : Hashtable, (({ s with
      waitingTasksHashTableReasonAsKey := reasons
      waitingTasksHashTableTcbAsKey := table } : Sched).unpark task').waiting =
        reasons.content := by
    intro table
    unfold Sched.waiting
    rw [unpark_rest]
  have htable : ∀ table : Hashtable, (({ s with
      waitingTasksHashTableReasonAsKey := reasons
      waitingTasksHashTableTcbAsKey := table } : Sched).unpark
        task').waitingTasksHashTableTcbAsKey = table := by
    intro table
    rw [unpark_rest]
  by_cases hkey : ∃ r, (task', r) ∈ s.waitingTasksHashTableTcbAsKey.content
  · obtain ⟨table, r, hremove, hwf, hcontent', -⟩ := remove_of_mem h.wf hkey
    rw [hremove]
    refine ⟨(htable table).symm ▸ hwf, ?_⟩
    rw [hwaiting, htable]
    -- the task waits once, so the entry that is removed has the same reason
    have hr : (r, task') ∈ s.waiting := h.waits (hcontent' ▸ Multiset.mem_cons_self _ _)
    have heq : (r, task') = (reason, task') := by
      rw [← hcontent, Multiset.mem_cons] at hr
      exact hr.resolve_right fun hr => honce.1 (Multiset.mem_map.mpr ⟨_, hr, rfl⟩)
    have hle := h.le
    rw [← hcontent', Multiset.map_cons, ← hcontent, ← heq] at hle
    exact (Multiset.cons_le_cons_iff _).mp hle
  · push Not at hkey
    rw [remove_of_not_mem h.wf hkey]
    refine ⟨(htable _).symm ▸ h.wf.setFlag 0, ?_⟩
    rw [hwaiting, htable]
    have hle := h.le
    rw [← hcontent, Multiset.le_cons_of_notMem] at hle
    · exact hle
    · intro hswap
      obtain ⟨⟨t, r⟩, hp, heq⟩ := Multiset.mem_map.mp hswap
      cases heq
      exact hkey _ hp

theorem wakeAll (h : TcbKeys s) (hparked : Parked s) (reason : Nat) :
    TcbKeys (s.wakeAll reason) := by
  refine ((@wakeAll_rule s reason (fun s => Parked s ∧ TcbKeys s)
    (fun s hs => ⟨hs.1.wf, fun task => hs.1.not_null reason task⟩)
    (fun s task hs htask hmem => ⟨(hs.1.wake hmem htask).1, hs.2.wake hs.1 hmem htask⟩)
    ?_ ⟨hparked, h⟩).1).2
  intro s hs hnone
  rw [takeWaiting_of_not_mem hs.1.wf hnone]
  refine ⟨{ hs.1 with wf := hs.1.wf.setFlag 0 }, remove_wf hs.2.wf NULL, ?_⟩
  exact (Multiset.map_le_map (remove_content_le hs.2.wf NULL)).trans hs.2.le

end TcbKeys

/-! ## What begins and ends no life -/

/-- From `s` to `s'` no life begins or ends, and a task that is neither scheduled nor
asleep keeps its `data`. -/
structure KeepsLives (s s' : Sched) : Prop where
  scheduled : s'.scheduled = s.scheduled
  completed : s'.completedTasksLinkedList = s.completedTasksLinkedList
  freed : s'.freed = s.freed
  lifeOf : ∀ t, s'.lifeOf t = s.lifeOf t
  awake : ∀ t, t ∉ s.scheduled → (s.tcb t).state.sleep = false →
    (s'.tcb t).state.sleep = false ∧ (s'.tcb t).data = (s.tcb t).data
  keys : TcbKeys s → TcbKeys s'

namespace KeepsLives

theorem trans (h : KeepsLives s s') (h' : KeepsLives s' s'') : KeepsLives s s'' where
  scheduled := h'.scheduled.trans h.scheduled
  completed := h'.completed.trans h.completed
  freed := h'.freed.trans h.freed
  lifeOf t := (h'.lifeOf t).trans (h.lifeOf t)
  awake t ht hsleep := by
    obtain ⟨hsleep', hdata'⟩ := h.awake t ht hsleep
    obtain ⟨hsleep'', hdata''⟩ := h'.awake t (by rwa [h.scheduled]) hsleep'
    exact ⟨hsleep'', hdata''.trans hdata'⟩
  keys hkeys := h'.keys (h.keys hkeys)

/-- The lists and the waiting tables stay, and so do the TCBs that count. -/
theorem of_tcb (hscheduled : s'.scheduled = s.scheduled)
    (hcompleted : s'.completedTasksLinkedList = s.completedTasksLinkedList)
    (hfreed : s'.freed = s.freed) (hwaiting : s'.waiting = s.waiting)
    (htable : s'.waitingTasksHashTableTcbAsKey = s.waitingTasksHashTableTcbAsKey)
    (htcb : ∀ t, (s'.tcb t).originalSpMemoryPointer = (s.tcb t).originalSpMemoryPointer ∧
      (t ∉ s.scheduled → (s.tcb t).state.sleep = false →
        (s'.tcb t).state.sleep = false ∧ (s'.tcb t).data = (s.tcb t).data)) :
    KeepsLives s s' where
  scheduled := hscheduled
  completed := hcompleted
  freed := hfreed
  lifeOf t := congrArg (Life.mk t) (htcb t).1
  awake t := (htcb t).2
  keys h := ⟨htable ▸ h.wf, by rw [htable, hwaiting]; exact h.le⟩

theorem of_eq (htcb : s'.tcb = s.tcb) (hscheduled : s'.scheduled = s.scheduled)
    (hcompleted : s'.completedTasksLinkedList = s.completedTasksLinkedList)
    (hfreed : s'.freed = s.freed) (hwaiting : s'.waiting = s.waiting)
    (htable : s'.waitingTasksHashTableTcbAsKey = s.waitingTasksHashTableTcbAsKey) :
    KeepsLives s s' :=
  of_tcb hscheduled hcompleted hfreed hwaiting htable fun t => by
    rw [htcb]
    exact ⟨rfl, fun _ hsleep => ⟨hsleep, rfl⟩⟩

theorem refl (s : Sched) : KeepsLives s s := of_eq rfl rfl rfl rfl rfl rfl

/-- A write to the TCB of one task. -/
theorem modifyTCB (s : Sched) (task : Nat) {f : TCB → TCB}
    (hstack : (f (s.tcb task)).originalSpMemoryPointer = (s.tcb task).originalSpMemoryPointer)
    (hdata : task ∉ s.scheduled → (s.tcb task).state.sleep = false →
      (f (s.tcb task)).state.sleep = false ∧ (f (s.tcb task)).data = (s.tcb task).data) :
    KeepsLives s (s.modifyTCB task f) := by
  refine of_tcb rfl rfl rfl rfl rfl ?_
  intro t
  rw [modifyTCB_tcb]
  split
  · rename_i heq
    subst heq
    exact ⟨hstack, hdata⟩
  · exact ⟨rfl, fun _ hsleep => ⟨hsleep, rfl⟩⟩

theorem inherits (hi : Inherits s s') : KeepsLives s s' := by
  refine of_tcb ?_ ?_ ?_ hi.waiting ?_ ?_
  · rw [hi.rest]
  · rw [hi.rest]
  · rw [hi.rest]
  · rw [hi.rest]
  · intro t
    obtain ⟨_, _, _, ht⟩ := hi.tcb t
    rw [ht]
    exact ⟨rfl, fun _ hsleep => ⟨hsleep, rfl⟩⟩

/-! ### The scheduler -/

theorem wakeSleeper (s : Sched) (hsleep : (s.tcb task).state.sleep = true) :
    KeepsLives s (s.wakeSleeper task) := by
  have hrest : s.wakeSleeper task = { s with
      tcb := (s.wakeSleeper task).tcb
      schedulerHeap := (s.wakeSleeper task).schedulerHeap
      activeTasksHashTable := (s.wakeSleeper task).activeTasksHashTable
      tasksInSchedulerHeapHashTable := (s.wakeSleeper task).tasksInSchedulerHeapHashTable
      sleepingTasksHashTable := (s.wakeSleeper task).sleepingTasksHashTable } := by
    simp only [Sched.wakeSleeper, Sched.modifyTCB]
    rw [returnToSchedulerHeap_rest]
  rw [hrest]
  refine of_tcb rfl rfl rfl rfl rfl ?_
  intro t
  show ((s.wakeSleeper task).tcb t).originalSpMemoryPointer = _ ∧ (_ → _ →
    ((s.wakeSleeper task).tcb t).state.sleep = false ∧ ((s.wakeSleeper task).tcb t).data = _)
  rw [wakeSleeper_tcb]
  split
  · rename_i heq
    subst heq
    exact ⟨rfl, fun _ hawake => by rw [hsleep] at hawake; cases hawake⟩
  · exact ⟨rfl, fun _ hawake => ⟨hawake, rfl⟩⟩

theorem updateSleepState (s : Sched) (task : Nat) :
    KeepsLives s (s.updateSleepState task).1 := by
  cases hsleep : (s.tcb task).state.sleep with
  | false =>
    rw [updateSleepState_awake hsleep]
    exact refl s
  | true =>
    have hflag : KeepsLives s (s.noteRollover task) := of_eq rfl rfl rfl rfl rfl rfl
    rcases updateSleepState_sleeping hsleep with ⟨-, hs⟩ | ⟨-, hs⟩
    · rw [hs]
      exact hflag.trans (wakeSleeper _ hsleep)
    · rw [hs]
      -- the task sleeps on with a new time stamp, and so it is asleep before and after
      have hkeep : KeepsLives (s.noteRollover task) ((s.noteRollover task).keepAsleep task
          (elapsedTicks (s.tcb task).data s.ticks)) :=
        modifyTCB _ task rfl fun _ hawake => absurd (hsleep.symm.trans hawake) (by simp)
      exact hflag.trans hkeep

theorem wakeSleepers (s : Sched) : KeepsLives s s.wakeSleepers :=
  wakeLoop_keeps refl (fun _ _ _ => trans) (fun _ _ => of_eq rfl rfl rfl rfl rfl rfl)
    updateSleepState _ s

theorem leaveSchedulerHeap (s : Sched) (index task : Nat) :
    KeepsLives s (s.leaveSchedulerHeap index task) :=
  of_eq rfl rfl rfl rfl rfl rfl

/-- A round of the walk that meets no task that has ended. -/
theorem removeIfInactive (memclusterInUse : Bool) (hnot : ¬ s.HasEnded (s.taskAt index)) :
    KeepsLives s (s.removeIfInactive memclusterInUse index).1 := by
  simp only [Sched.removeIfInactive, removeIfExit_of_not memclusterInUse hnot]
  rcases removeIfWaiting_cases s index with ⟨-, hwait⟩ | ⟨-, hwait⟩
  · rw [hwait]
    exact leaveSchedulerHeap s index _
  · simp only [hwait, removeIfSleeping]
    have hupdate := updateSleepState s (s.taskAt index)
    split
    · have hleave := leaveSchedulerHeap (s.updateSleepState (s.taskAt index)).1 index
        (s.taskAt index)
      exact hupdate.trans (hleave.trans (of_eq rfl rfl rfl rfl rfl rfl))
    · exact hupdate

theorem clearYield (s : Sched) : KeepsLives s s.clearYield :=
  (modifyTCB s s.currentTCB
    (f := fun tcb => { tcb with state := { tcb.state with yield := false } })
    rfl fun _ hsleep => ⟨hsleep, rfl⟩).trans (of_eq rfl rfl rfl rfl rfl rfl)

/-! ### The calls -/

theorem park (s : Sched) (hwf : s.waitingTasksHashTableReasonAsKey.WF) (reason : Nat) :
    KeepsLives s (s.park reason) where
  scheduled := rfl
  completed := rfl
  freed := rfl
  lifeOf t := by
    simp only [Sched.lifeOf, park_tcb]
    split <;> rfl
  awake t _ hsleep := by
    rw [park_tcb]
    split
    · exact ⟨hsleep, rfl⟩
    · exact ⟨hsleep, rfl⟩
  keys hkeys := hkeys.park hwf reason

theorem wakeAll (hparked : Parked s) (reason : Nat) : KeepsLives s (s.wakeAll reason) := by
  have hwakes := wakeAll_wakes s reason
  refine
    { scheduled := by rw [hwakes.rest]
      completed := by rw [hwakes.rest]
      freed := by rw [hwakes.rest]
      lifeOf := fun t => ?_
      awake := fun t _ hsleep => ?_
      keys := fun hkeys => hkeys.wakeAll hparked reason }
  · unfold Sched.lifeOf
    rcases hwakes.tcb t with ht | ht <;> rw [ht]
  · rcases hwakes.tcb t with ht | ht <;> rw [ht]
    · exact ⟨hsleep, rfl⟩
    · exact ⟨hsleep, rfl⟩

end KeepsLives

/-- Only `addTask` begins a life in a call. -/
theorem Books.call_keepsLives {e : SchedulerEvent} (h : Books N tasks fresh life s)
    (hadd : ∀ tcb memory stack taskPriority, e ≠ .addTask tcb memory stack taskPriority)
    (hs : s.call tasks e = some s') : KeepsLives s s' := by
  cases e <;> simp only [Sched.call] at hs
  case tick ticks =>
    split at hs
    · cases hs
      exact .of_eq rfl rfl rfl rfl rfl rfl
    · cases hs
  case memory acquired mutexes =>
    cases hs
    exact .of_tcb rfl rfl rfl rfl rfl fun t => ⟨rfl, fun _ hsleep => ⟨hsleep, rfl⟩⟩
  case addTask tcb memory stack taskPriority => exact absurd rfl (hadd _ _ _ _)
  case notify fuel reason =>
    -- waking and inheriting leave the lives alone
    have hcode : KeepsLives s s.nextCheckCode := .of_eq rfl rfl rfl rfl rfl rfl
    have hparked := h.waiters.parked.nextCheckCode
    exact hcode.trans ((KeepsLives.wakeAll hparked reason).trans
      (.inherits (notifyCallback_inherits hs)))
  case wait fuel reason checkCode isReasonMutex switch =>
    split at hs
    · rcases waitCallback_cases hs with ⟨-, rfl⟩ | ⟨-, hi⟩
      · exact .refl s'
      · exact (KeepsLives.park s h.waiters.parked.wf reason).trans (.inherits hi)
    · cases hs
  case sleep minSleepDuration switch =>
    split at hs
    · rename_i hcurrent
      cases hs
      rcases sleepCallback_cases s s.currentTCB minSleepDuration with heq | ⟨-, heq⟩ | ⟨-, heq⟩
      · rw [heq]
        exact .refl s
      · rw [heq]
        exact .of_eq rfl rfl rfl rfl rfl rfl
      · rw [heq]
        -- a task that falls asleep writes its `data`, which only a completed task needs
        refine .of_tcb rfl rfl rfl rfl rfl ?_
        intro t
        simp only [Sched.fallAsleep, modifyTCB_tcb]
        split
        · rename_i heq
          exact ⟨rfl, fun hout => absurd (heq ▸ hcurrent) hout⟩
        · exact ⟨rfl, fun _ hsleep => ⟨hsleep, rfl⟩⟩
    · cases hs
  case exit switch =>
    split at hs
    · rename_i hcurrent
      cases hs
      exact KeepsLives.modifyTCB s s.currentTCB rfl fun hout => absurd hcurrent hout
    · cases hs
  case yield switch =>
    cases hs
    exact KeepsLives.modifyTCB s s.currentTCB rfl fun _ hsleep => ⟨hsleep, rfl⟩
  case schedule switch =>
    cases hs
    exact .refl s

/-- Nothing refers to a task that is in no books. -/
theorem Books.not_refers (h : Books N tasks fresh life s) (hkeys : TcbKeys s)
    (htask : life task = .absent) : ¬ s.Refers task := by
  have hwaits : ∀ reason, (reason, task) ∉ s.waiting :=
    h.waiters.not_waiting (by rw [htask]; exact Bool.false_ne_true)
  have htable : ∀ {t : Hashtable} {P : Nat → Prop}, Table s t P → ¬ P task →
      ¬ ∃ p ∈ t.content, p.1 = task ∨ p.2 = task := by
    rintro t P hP hnot ⟨⟨k, v⟩, hp, hk⟩
    obtain ⟨rfl, hPk⟩ := (hP.keys.mem k v).mp hp
    simp only [or_self] at hk
    exact hnot (hk ▸ hPk)
  rintro (hheap | hheap | hmem | hmem | hmem | ⟨reason, hmem⟩ | ⟨reason, hmem⟩)
  · rw [h.onHeap.mem, htask] at hheap
    cases hheap
  · rw [h.onSleepHeap.mem, htask] at hheap
    cases hheap
  · exact htable h.active (by rw [htask]; exact Bool.false_ne_true) hmem
  · exact htable h.onHeap.table (by rw [htask]; exact Bool.false_ne_true) hmem
  · exact htable h.sleeping (by rw [htask]; exact Bool.false_ne_true) hmem
  · exact hwaits reason hmem
  · exact hwaits reason (hkeys.waits hmem)

/-! ## The accounts -/

/-- The lives that have begun are those that were freed, those of the scheduled tasks
and those of the tasks `l` on the list of completed ones. -/
structure Ending (s : Sched) (lives : Lives) (l : List Nat) : Prop where
  chain : Lib.Chain (fun t => toPtr (s.tcb t).data) (toPtr s.completedTasksLinkedList) l
  out : ∀ t ∈ l, t ∉ s.scheduled ∧ (s.tcb t).state.sleep = false
  freed : s.freed = (freedBlocks lives.frees).reverse
  accounted : (lives.frees.map Free.life : Multiset Life) + s.scheduled.map s.lifeOf +
    l.map s.lifeOf = lives.born
  unreferenced : ∀ f ∈ lives.frees, ¬ f.sched.Refers f.task
  keys : TcbKeys s

/-- The life of a scheduled task, and those of the others. -/
theorem lives_of_mem (hmem : task ∈ s.scheduled) :
    (s.scheduled.map s.lifeOf : Multiset Life) =
      s.lifeOf task ::ₘ ((s.scheduled.erase task).map s.lifeOf : List Life) :=
  Multiset.coe_eq_coe.mpr ((List.perm_cons_erase hmem).map s.lifeOf)

namespace Ending

theorem keeps (h : Ending s lives l) (hk : KeepsLives s s') : Ending s' lives l where
  chain := by
    rw [hk.completed]
    exact h.chain.congr fun t ht =>
      congrArg toPtr (hk.awake t (h.out t ht).1 (h.out t ht).2).2
  out t ht := by
    rw [hk.scheduled]
    exact ⟨(h.out t ht).1, (hk.awake t (h.out t ht).1 (h.out t ht).2).1⟩
  freed := hk.freed.trans h.freed
  accounted := by
    rw [hk.scheduled, funext hk.lifeOf]
    exact h.accounted
  unreferenced := h.unreferenced
  keys := hk.keys h.keys

/-! ### A task that ends -/

theorem unreferenced_free (h : Ending s lives l) (hnot : ¬ s'.Refers task) :
    ∀ f ∈ (lives.free [⟨s', task⟩]).frees, ¬ f.sched.Refers f.task := by
  intro f hf
  rcases List.mem_append.mp hf with hf | hf
  · exact h.unreferenced f hf
  · rw [List.mem_singleton.mp hf]
    exact hnot

/-- A task that has ended is taken off the scheduler heap and freed. -/
theorem retire_free (h : Ending s lives l) (hmem : task ∈ s.scheduled)
    (hnot : ¬ (s.retire index task).Refers task) :
    Ending ((s.retire index task).free task) (lives.free [⟨s.retire index task, task⟩]) l where
  chain := h.chain
  out t ht := ⟨fun hin => (h.out t ht).1 (List.mem_of_mem_erase hin), (h.out t ht).2⟩
  freed := by
    rw [Lives.freedBlocks_free, ← h.freed]
    rfl
  accounted := by
    have haccounted := h.accounted
    rw [lives_of_mem hmem, Multiset.add_cons] at haccounted
    rw [Lives.life_free, Multiset.cons_add]
    exact haccounted
  unreferenced := h.unreferenced_free hnot
  keys := ⟨h.keys.wf, h.keys.le⟩

/-- A task that has ended is taken off the scheduler heap and joins the list. -/
theorem retire_complete (h : Ending s lives l) (hnodup : s.scheduled.Nodup)
    (hmem : task ∈ s.scheduled) (hnull : task ≠ NULL) (hdata : (s.tcb task).data = NULL)
    (hsleep : (s.tcb task).state.sleep = false) :
    Ending ((s.retire index task).complete task) lives (task :: l) := by
  have hne : ∀ t ∈ l, t ≠ task := fun t ht heq => (h.out t ht).1 (heq ▸ hmem)
  -- the `data` of the task is the old list, also when this is empty
  have htcb : ∀ t, ((s.retire index task).complete task).tcb t =
      if t = task then { s.tcb t with data := s.completedTasksLinkedList } else s.tcb t := by
    intro t
    unfold Sched.complete
    by_cases hcompleted : (s.retire index task).completedTasksLinkedList ≠ NULL
    · rw [if_pos hcompleted, modifyTCB_tcb]
      rfl
    · rw [if_neg hcompleted]
      split
      · rename_i heq
        show s.tcb t = _
        rw [show s.completedTasksLinkedList = NULL from not_not.mp hcompleted, heq, ← hdata]
      · rfl
  have hrest : (s.retire index task).complete task = { s.retire index task with
      tcb := ((s.retire index task).complete task).tcb
      completedTasksLinkedList := task } := by
    unfold Sched.complete
    split <;> rfl
  have hlife : ((s.retire index task).complete task).lifeOf = s.lifeOf := by
    funext t
    unfold Sched.lifeOf
    rw [htcb]
    split <;> rfl
  have hscheduled : ((s.retire index task).complete task).scheduled = s.scheduled.erase task := by
    rw [hrest]
    rfl
  refine
    { chain := ?_
      out := fun t ht => ?_
      freed := ?_
      accounted := ?_
      unreferenced := h.unreferenced
      keys := ?_ }
  · rw [show ((s.retire index task).complete task).completedTasksLinkedList = task by rw [hrest]]
    refine Lib.Path.cons_iff.mpr ⟨toPtr_of_ne hnull, ?_⟩
    show Lib.Chain _ (toPtr (((s.retire index task).complete task).tcb task).data) l
    rw [htcb, if_pos rfl]
    exact h.chain.congr fun t ht => by rw [htcb, if_neg (hne t ht)]
  · rw [hscheduled, htcb]
    rcases List.mem_cons.mp ht with rfl | ht
    · rw [if_pos rfl]
      exact ⟨hnodup.not_mem_erase, hsleep⟩
    · rw [if_neg (hne t ht)]
      exact ⟨fun hin => (h.out t ht).1 (List.mem_of_mem_erase hin), (h.out t ht).2⟩
  · rw [hrest]
    exact h.freed
  · rw [hscheduled, hlife, ← h.accounted, lives_of_mem hmem, List.map_cons, ← Multiset.cons_coe,
      Multiset.add_cons, Multiset.add_cons, Multiset.cons_add]
  · rw [hrest]
    exact ⟨h.keys.wf, h.keys.le⟩

/-- **One round of the walk.** -/
theorem round {r : Round} (h : Ending r.sched lives l) (hb : Books N tasks True life r.sched)
    (hi : r.index < r.sched.schedulerHeap.currentNumNodes) :
    ∃ l', Ending r.after (lives.free r.frees) l' ∧ r.after.scheduled ⊆ r.sched.scheduled ∧
      ∀ t ∈ l', t ∈ l ∨ t ∈ r.sched.scheduled := by
  obtain ⟨s, index, memclusterInUse⟩ := r
  simp only at h hb hi
  have hscheduled : s.taskAt index ∈ s.scheduled :=
    hb.mem_of_onHeap (MinHeap.mem_contents.mpr ⟨index, hi, rfl⟩)
  unfold Round.after Round.frees
  simp only
  by_cases hended : s.HasEnded (s.taskAt index)
  · have hlife : life (s.taskAt index) = .ended := by
      have hexit := (hb.shows _ hscheduled).exit
      rw [hended.1] at hexit
      exact of_decide_eq_true hexit.symm
    simp only [Sched.removeIfInactive, removeIfExit_of_ended memclusterInUse hended]
    cases memclusterInUse with
    | false =>
      -- the cluster is not in use, and the task is freed at once
      have hretired : Books N tasks True (Function.update life (s.taskAt index) .absent)
          (s.retire index (s.taskAt index)) :=
        hb.retire hi hlife (fun _ _ => rfl) (.inl ⟨rfl, rfl⟩) s.freed
      rw [if_pos rfl, if_pos ⟨hended, rfl⟩]
      refine ⟨l, h.retire_free hscheduled (hretired.not_refers ⟨h.keys.wf, h.keys.le⟩
        (Function.update_self ..)), List.erase_subset, fun t ht => .inl ht⟩
    | true =>
      -- the cluster is in use, and the task waits on the list to be freed
      rw [if_neg (by simp), if_neg (by simp)]
      have hcompleted : Ending ((s.retire index (s.taskAt index)).complete (s.taskAt index)) lives
          (s.taskAt index :: l) :=
        h.retire_complete hb.nodup hscheduled (hb.known _ hscheduled).2
          ((hb.completed trivial).ended _ hlife) hended.2.1
      refine ⟨s.taskAt index :: l, ?_, ?_, ?_⟩
      · rw [Lives.free_nil]
        exact hcompleted
      · unfold Sched.complete
        split <;> exact List.erase_subset
      · intro t ht
        rcases List.mem_cons.mp ht with rfl | ht
        · exact .inr hscheduled
        · exact .inl ht
  · -- a round that meets a task which has not ended frees nothing
    have hkeeps := KeepsLives.removeIfInactive memclusterInUse hended
    rw [if_neg fun hboth => hended hboth.1, Lives.free_nil]
    exact ⟨l, h.keeps hkeeps, hkeeps.scheduled ▸ List.Subset.refl _, fun t ht => .inl ht⟩

/-- The walk, round by round. -/
theorem rounds {inUse : Nat → Bool} {rand : Nat → Nat} {next : Nat} (h : Ending s lives l)
    (hb : Books N tasks True life s) (hnodes : tasks.card ≤ N)
    (hs : s.afterWakeEach inUse rand = some (s', next)) :
    ∃ l', Ending s' (lives.free ((s.afterWakeRounds inUse rand).flatMap Round.frees)) l' ∧
      ∀ t ∈ l', t ∈ l ∨ t ∈ s.scheduled := by
  refine afterWakeEach_rule (R := fun rounds s s' => ∀ lives l, Ending s lives l →
      (∀ r ∈ rounds, ∃ life, Books N tasks True life r.sched ∧
        r.index < r.sched.schedulerHeap.currentNumNodes) →
      ∃ l', Ending s' (lives.free (rounds.flatMap Round.frees)) l' ∧
        ∀ t ∈ l', t ∈ l ∨ t ∈ s.scheduled) ?_ ?_ hs lives l h (hb.afterWakeRounds hnodes)
  · intro s lives l h _
    refine ⟨l, ?_, fun t ht => .inl ht⟩
    rw [List.flatMap_nil, Lives.free_nil]
    exact h
  · intro r rounds s' ih lives l h hall
    rw [List.forall_mem_cons] at hall
    obtain ⟨⟨life, hbooks, hi⟩, hall⟩ := hall
    obtain ⟨l₁, h₁, hscheduled, hl₁⟩ := h.round hbooks hi
    obtain ⟨l', h', hl'⟩ := ih _ l₁ h₁ hall
    refine ⟨l', ?_, ?_⟩
    · rw [List.flatMap_cons, Lives.free_append]
      exact h'
    · intro t ht
      rcases hl' t ht with ht | ht
      · exact hl₁ t ht
      · exact .inr (hscheduled ht)

/-- The head of the list is freed. -/
theorem free_head (h : Ending s lives (task :: l)) (hnot : ¬ s.Refers task) :
    Ending ({ s with completedTasksLinkedList := (s.tcb task).data }.free task)
      (lives.free [⟨{ s with completedTasksLinkedList := (s.tcb task).data }, task⟩]) l where
  chain := (Lib.Path.cons_iff.mp h.chain).2
  out t ht := h.out t (List.mem_cons_of_mem _ ht)
  freed := by
    rw [Lives.freedBlocks_free, ← h.freed]
    rfl
  accounted := by
    have haccounted := h.accounted
    rw [List.map_cons, ← Multiset.cons_coe, Multiset.add_cons] at haccounted
    rw [Lives.life_free, Multiset.cons_add, Multiset.cons_add]
    exact haccounted
  unreferenced := h.unreferenced_free hnot
  keys := ⟨h.keys.wf, h.keys.le⟩

/-- The loop frees all tasks on the list. -/
theorem freeCompleted {fuel : Nat} (h : Ending s lives l) (hnot : ∀ t ∈ l, ¬ s.Refers t)
    (hs : freeCompleted fuel s = some s') :
    Ending s' (lives.free (freeCompletedFrees fuel s)) [] := by
  induction l generalizing s lives fuel with
  | nil =>
    have hnull : s.completedTasksLinkedList = NULL := by
      by_contra hne
      have hhead := Lib.Path.nil_iff.mp h.chain
      rw [toPtr_of_ne hne] at hhead
      cases hhead
    cases fuel with
    | zero => cases hs
    | succ fuel =>
      simp only [Sched.freeCompleted, hnull, if_true] at hs
      simp only [freeCompletedFrees, hnull, if_true, Lives.free_nil]
      cases hs
      exact h
  | cons task l ih =>
    have htask : s.completedTasksLinkedList = task := eq_of_toPtr (Lib.Path.cons_iff.mp h.chain).1
    have hne : task ≠ NULL := by
      intro hnull
      have hhead := (Lib.Path.cons_iff.mp h.chain).1
      rw [htask, hnull, toPtr_null] at hhead
      cases hhead
    cases fuel with
    | zero => cases hs
    | succ fuel =>
      simp only [Sched.freeCompleted, htask, if_neg hne] at hs
      simp only [freeCompletedFrees, htask, if_neg hne]
      -- the first task is freed, and the rest is the list that the loop goes on with
      have hloop := ih (h.free_head (hnot task List.mem_cons_self))
        (fun t ht => hnot t (List.mem_cons_of_mem _ ht)) hs
      rw [← List.singleton_append, Lives.free_append]
      exact hloop

/-- The loop empties the list, if the scheduler comes to it and may free. -/
theorem beforeWake {memclusterInUse : Bool} {fuel : Nat} (h : Ending s lives l)
    (hb : Books N tasks True life s) (hs : s.beforeWake memclusterInUse fuel = some s') :
    ∃ l', Ending s' (lives.free (s.beforeWakeFrees memclusterInUse fuel)) l' ∧
      s'.scheduled = s.scheduled ∧ (memclusterInUse = false → l' = []) := by
  unfold beforeWakeFrees
  rcases beforeWake_of_noRollover hb.noRollover hs with
    ⟨hne, hinUse, s₁, hs₁, rfl⟩ | ⟨hnot, rfl⟩
  · rw [if_pos ⟨hne, hinUse⟩]
    obtain ⟨l', hchain, habsent⟩ := (hb.completed trivial).chain
    obtain rfl := h.chain.unique hchain
    have hfreed := h.freeCompleted
      (fun t ht => hb.not_refers h.keys (habsent t ht).1) hs₁
    have hscheduled : s₁.scheduled = s.scheduled := by
      obtain ⟨freed, rfl⟩ := freeCompleted_cases hs₁
      rfl
    exact ⟨[], hfreed.keeps (.clearYield s₁), hscheduled, fun _ => rfl⟩
  · rw [if_neg hnot, Lives.free_nil]
    refine ⟨l, h.keeps (.clearYield s), rfl, ?_⟩
    intro hinUse
    -- there is nothing to free
    have hnull : s.completedTasksLinkedList = NULL := by
      by_contra hne
      exact hnot ⟨hne, hinUse⟩
    have hchain := h.chain
    rw [hnull, toPtr_null] at hchain
    exact hchain.nil_of_none

/-- **The scheduler** frees tasks that have ended, or puts them on the list; a call
that gets past the current task and finds the memory cluster not in use first empties
the list. -/
theorem pendSV {memclusterInUse : Bool} {inUse : Nat → Bool} {rand : Nat → Nat} {fuel : Nat}
    (h : Ending s lives l) (hb : Books N tasks True life s) (hnodes : tasks.card ≤ N)
    (hs : s.pendSVEach memclusterInUse inUse rand fuel = some s') :
    ∃ l', Ending s' (lives.free (s.pendSVFrees memclusterInUse inUse rand fuel)) l' ∧
      (¬ (s.currentTCB ≠ s.idleTCB ∧ s.mustSwitch = false) → memclusterInUse = false →
        ∀ t ∈ l', t ∈ s.scheduled) := by
  unfold pendSVFrees
  rcases pendSVEach_cases hs with ⟨hgoes, rfl⟩ | ⟨hswitches, s₁, s₂, next, hbefore, hafter, rfl⟩
  · rw [if_pos hgoes, Lives.free_nil]
    exact ⟨l, h.keeps (.of_eq rfl rfl rfl rfl rfl rfl), fun hnot => absurd hgoes hnot⟩
  · rw [if_neg hswitches, hbefore, Lives.free_append]
    have hbooks : Books N tasks True life s₁ := (hb.beforeWake hbefore).1
    obtain ⟨life₁, hwoken, -⟩ : ∃ life₁, Books N tasks True life₁ s₁.wakeSleepers ∧
        Onward life life₁ s₁ s₁.wakeSleepers := hbooks.wakeLoop (.inl hnodes)
    obtain ⟨l₁, h₁, hscheduled, hempty⟩ := h.beforeWake hb hbefore
    have hkeeps := KeepsLives.wakeSleepers s₁
    obtain ⟨l', h', hl'⟩ := (h₁.keeps hkeeps).rounds hwoken hnodes hafter
    refine ⟨l', h'.keeps (.of_eq rfl rfl rfl rfl rfl rfl), ?_⟩
    intro _ hinUse t ht
    rw [hkeeps.scheduled, hscheduled] at hl'
    rcases hl' t ht with hold | hin
    · rw [hempty hinUse] at hold
      exact absurd hold List.not_mem_nil
    · exact hin

/-! ### A task that is added -/

/-- A write to a TCB that belongs to no task. -/
theorem write (h : Ending s lives l) (hout : task ∉ s.scheduled) (hnot : task ∉ l)
    (f : TCB → TCB) : Ending (s.modifyTCB task f) lives l := by
  have htcb : ∀ t, t ≠ task → (s.modifyTCB task f).tcb t = s.tcb t := fun t ht => by
    rw [modifyTCB_tcb, if_neg ht]
  have hl : ∀ t ∈ l, t ≠ task := fun t ht heq => hnot (heq ▸ ht)
  have hlives : ∀ t, t ≠ task → (s.modifyTCB task f).lifeOf t = s.lifeOf t := by
    intro t ht
    unfold Sched.lifeOf
    rw [htcb t ht]
  refine
    { chain := h.chain.congr fun t ht => by rw [htcb t (hl t ht)]
      out := fun t ht => ?_
      freed := h.freed
      accounted := ?_
      unreferenced := h.unreferenced
      keys := ⟨h.keys.wf, h.keys.le⟩ }
  · rw [htcb t (hl t ht)]
    exact h.out t ht
  · have hscheduled : s.scheduled.map (s.modifyTCB task f).lifeOf = s.scheduled.map s.lifeOf :=
      List.map_congr_left fun t ht => hlives t fun heq => hout (heq ▸ ht)
    have hcompleted : l.map (s.modifyTCB task f).lifeOf = l.map s.lifeOf :=
      List.map_congr_left fun t ht => hlives t (hl t ht)
    show _ + ((s.scheduled.map (s.modifyTCB task f).lifeOf : List Life) : Multiset Life) + _ = _
    rw [hscheduled, hcompleted]
    exact h.accounted

/-- A task is entered. -/
theorem enter (h : Ending s lives l) (hnot : task ∉ l) (taskPriority : Nat) :
    Ending (s.enterTask task taskPriority)
      { lives with born := s.lifeOf task ::ₘ lives.born } l := by
  have hlife : (s.enterTask task taskPriority).lifeOf = s.lifeOf := by
    funext t
    unfold Sched.lifeOf
    rw [enterTask_tcb]
    split <;> rfl
  refine
    { chain := h.chain.congr fun t ht => ?_
      out := fun t ht => ?_
      freed := h.freed
      accounted := ?_
      unreferenced := h.unreferenced
      keys := ⟨h.keys.wf, h.keys.le⟩ }
  · rw [enterTask_tcb]
    split <;> rfl
  · have hne : t ≠ task := fun heq => hnot (heq ▸ ht)
    rw [enterTask_tcb, if_neg hne]
    refine ⟨?_, (h.out t ht).2⟩
    intro hin
    rcases List.mem_cons.mp hin with heq | hin
    · exact hnot (heq ▸ ht)
    · exact (h.out t ht).1 hin
  · rw [hlife, ← h.accounted]
    show _ + (((task :: s.scheduled).map s.lifeOf : List Life) : Multiset Life) + _ = _
    rw [List.map_cons, ← Multiset.cons_coe, Multiset.add_cons, Multiset.cons_add]

/-- `addTask` begins a life, unless it is called with `NULL`. -/
theorem addTask (h : Ending s lives l) (hout : task ∉ s.scheduled) (hnot : task ∉ l)
    (memory : TCB) (stack : Nat) {taskPriority : Nat} (hpriority : 0 < taskPriority) :
    Ending ((s.modifyTCB task fun _ => initialiseTCB memory stack).addTask task taskPriority)
      { lives with born := Lives.birth (.addTask task memory stack taskPriority) lives.born }
      l := by
  have hwritten := h.write hout hnot fun _ => initialiseTCB memory stack
  have hself : (s.modifyTCB task fun _ => initialiseTCB memory stack).tcb task =
      initialiseTCB memory stack := by rw [modifyTCB_tcb, if_pos rfl]
  have hbirth : Lives.birth (.addTask task memory stack taskPriority) lives.born =
      if task = NULL then lives.born
      else ⟨task, (initialiseTCB memory stack).originalSpMemoryPointer⟩ ::ₘ lives.born := rfl
  rw [hbirth]
  by_cases hnull : task = NULL
  · rw [if_pos hnull, Sched.addTask, if_pos hnull]
    exact hwritten
  · have hentered := hwritten.enter hnot taskPriority
    rw [lifeOf, hself] at hentered
    have hstate : ((s.modifyTCB task fun _ => initialiseTCB memory stack).tcb task).state =
        TaskState.zero := congrArg TCB.state hself
    rw [if_neg hnull, addTask_of_zero hnull hstate (Nat.ne_of_gt hpriority)]
    exact hentered

end Ending

/-! ## Runs -/

theorem stepEach_cases {e : SchedulerEvent × (Nat → Bool)} (h : s.stepEach tasks e = some s') :
    ∃ s₀, s.call tasks e.1 = some s₀ ∧
      ((e.1.switch = none ∧ s' = s₀) ∨
        ∃ switch, e.1.switch = some switch ∧
          s₀.pendSVEach switch.memclusterInUse e.2 switch.rand switch.fuel = some s') :=
  switch_cases h

/-- The books are kept, and the accounts are right. -/
def AccountsKept (N : Nat) (tasks : Finset Nat) (p : Sched × Lives) : Prop :=
  ∃ life l, Books N tasks True life p.1 ∧ Running tasks life p.1 ∧ Ending p.1 p.2 l

theorem Ending.booted (h : Booted N tasks s) : Ending s ⟨0, []⟩ [] := by
  obtain ⟨tcb, mutexes, currentTCB, idleTCB, ticks, values, flags, nodes, -, -, rfl⟩ := h
  exact
    { chain := Lib.Path.nil_iff.mpr rfl
      out := fun t ht => absurd ht List.not_mem_nil
      freed := rfl
      accounted := rfl
      unreferenced := fun f hf => absurd hf List.not_mem_nil
      keys :=
        { wf := newHashtable_wf (by decide) (by decide) _ _
          le := by
            have hcontent : (initializeScheduler N tcb mutexes currentTCB idleTCB ticks values
                flags nodes).waitingTasksHashTableTcbAsKey.content = 0 :=
              newHashtable_content _ _
            rw [hcontent]
            exact Multiset.zero_le _ } }

theorem Ending.completedTasks_eq (h : Ending s lives l) (hb : Books N tasks True life s) :
    s.completedTasks tasks = l :=
  (hb.completed trivial).completedTasks_eq h.chain

/-- What the books say before the scheduler runs in an event. -/
theorem AccountsKept.called {p : Sched × Lives} {e : SchedulerEvent} {s₀ : Sched}
    (h : AccountsKept N tasks p) (hnodes : tasks.card ≤ N)
    (htables : tasks.card ≤ WAIT_HASHTABLE_CAPACITY) (hfresh : p.1.Fresh tasks e)
    (hcall : p.1.call tasks e = some s₀) :
    ∃ life l, Books N tasks True life s₀ ∧ Held tasks life s₀ ∧
      (e.switch = none → Running tasks life s₀) ∧
      Ending s₀ { p.2 with born := Lives.birth e p.2.born } l := by
  obtain ⟨life, l, hbooks, hrun, hending⟩ := h
  obtain ⟨life₀, hcalled⟩ := hbooks.call hrun (hbooks.hasRoom htables hcall) (fun _ => hfresh)
    (.inl hnodes) hcall
  refine ⟨life₀, l, hcalled.books, hcalled.held, hcalled.running, ?_⟩
  by_cases hadd : ∃ tcb memory stack taskPriority, e = .addTask tcb memory stack taskPriority
  · obtain ⟨tcb, memory, stack, taskPriority, rfl⟩ := hadd
    have hnot : tcb ∉ l := by
      rw [← hending.completedTasks_eq hbooks]
      exact hfresh
    simp only [Sched.call] at hcall
    split at hcall
    · rename_i hok
      cases hcall
      exact hending.addTask hok.2.1 hnot memory stack hok.2.2
    · cases hcall
  · push Not at hadd
    have hbirth : Lives.birth e p.2.born = p.2.born := by
      cases e <;> first | rfl | exact absurd rfl (hadd _ _ _ _)
    rw [hbirth]
    exact hending.keeps (hbooks.call_keepsLives hadd hcall)

theorem AccountsKept.step {p p' : Sched × Lives} {e : SchedulerEvent × (Nat → Bool)}
    (h : AccountsKept N tasks p) (hnodes : tasks.card ≤ N)
    (htables : tasks.card ≤ WAIT_HASHTABLE_CAPACITY)
    (hs : (livesMachine N tasks).step p e = some p') : AccountsKept N tasks p' := by
  obtain ⟨hfresh, hs⟩ := Lib.Machine.guard_step_iff.mp hs
  obtain ⟨hstep, hrecord⟩ : p.1.stepEach tasks e = some p'.1 ∧
      p'.2 = Lives.record tasks p.1 e p.2 := Lib.Machine.withHistory_step_iff.mp hs
  obtain ⟨s₀, hcall, hrest⟩ := stepEach_cases hstep
  obtain ⟨life, l, hbooks, hheld, hrun, hending⟩ := h.called hnodes htables hfresh hcall
  unfold AccountsKept
  rw [hrecord, Lives.record, stepFrees, hcall]
  rcases hrest with ⟨hnone, heq⟩ | ⟨switch, hswitch, hpend⟩
  · rw [hnone, heq]
    simp only [Lives.free_nil]
    exact ⟨life, l, hbooks, hrun hnone, hending⟩
  · rw [hswitch]
    obtain ⟨life', hbooks', hrun', -⟩ := hbooks.pendSVEach hheld (.inl hnodes) hpend
    obtain ⟨l', hending', -⟩ := hending.pendSV hbooks hnodes hpend
    exact ⟨life', l', hbooks', hrun', hending'⟩

/-- The accounts are right in every reachable state. -/
theorem reach_accountsKept (hN : 0 < N) (hmax : N ≤ UINT32_MAX) (hnodes : tasks.card ≤ N)
    (htables : tasks.card ≤ WAIT_HASHTABLE_CAPACITY) {p : Sched × Lives}
    (h : (livesMachine N tasks).Reach p) : AccountsKept N tasks p := by
  refine h.invariant (P := AccountsKept N tasks) ?_ fun p e p' hp hs => hp.step hnodes htables hs
  intro p hp
  obtain ⟨s, lives⟩ := p
  obtain ⟨hboot, rfl⟩ : Booted N tasks s ∧ lives = ⟨0, []⟩ := hp
  refine ⟨_, [], Books.booted hN hmax hboot True, ?_, .booted hboot⟩
  intro hmem
  obtain ⟨_, _, currentTCB, _, _, _, _, _, hcurrent, -, rfl⟩ := hboot
  exact absurd hmem hcurrent

/-- Every life that has begun is that of a scheduled task or of one on the list of
completed tasks, or its blocks have been passed to `OS_free`, once. -/
structure FreedOnce (tasks : Finset Nat) (s : Sched) (lives : Lives) : Prop where
  freed : s.freed = (freedBlocks lives.frees).reverse
  accounted : (lives.frees.map Free.life : Multiset Life) + s.scheduled.map s.lifeOf +
    (s.completedTasks tasks).map s.lifeOf = lives.born
  /-- A TCB has one life at a time. -/
  one : (s.scheduled ++ s.completedTasks tasks).Nodup
  /-- A task that has exited is on the scheduler heap until it is removed. -/
  onHeap : ∀ t ∈ s.scheduled, (s.tcb t).state.exit = true → t ∈ s.schedulerHeap.contents
  acyclic : Lib.Chain (fun t => toPtr (s.tcb t).data) (toPtr s.completedTasksLinkedList)
    (s.completedTasks tasks)
  unreferenced : ∀ f ∈ lives.frees, ¬ f.sched.Refers f.task

/-- A call of the scheduler that finds the memory cluster not in use before its loop
ends, and none of the tasks that were completed before it is left on the list. -/
def EmptiesList (tasks : Finset Nat) (s : Sched) : Prop :=
  ∀ (inUse : Nat → Bool) (rand : Nat → Nat),
    (∃ fuel₀, ∀ fuel, fuel₀ ≤ fuel → ∃ s', s.pendSVEach false inUse rand fuel = some s') ∧
      ∀ fuel s', s.pendSVEach false inUse rand fuel = some s' →
        ∀ t ∈ s.completedTasks tasks, t ∉ s'.completedTasks tasks

theorem Ending.freedOnce (h : Ending s lives l) (hb : Books N tasks True life s) :
    FreedOnce tasks s lives := by
  have hl := h.completedTasks_eq hb
  refine
    { freed := h.freed
      accounted := by rw [hl]; exact h.accounted
      one := ?_
      onHeap := fun t ht hexit => ?_
      acyclic := by rw [hl]; exact h.chain
      unreferenced := h.unreferenced }
  · rw [hl, List.nodup_append]
    exact ⟨hb.nodup, h.chain.nodup, fun t ht t' ht' heq => (h.out t' ht').1 (heq ▸ ht)⟩
  · have hlife : life t = .ended := by
      rw [(hb.shows t ht).exit] at hexit
      exact of_decide_eq_true hexit
    rw [hb.onHeap.mem, hlife]
    rfl

theorem Ending.emptiesList (h : Ending s lives l) (hb : Books N tasks True life s)
    (hheld : Held tasks life s) (hnodes : tasks.card ≤ N)
    (hswitches : ¬ (s.currentTCB ≠ s.idleTCB ∧ s.mustSwitch = false)) : EmptiesList tasks s := by
  intro inUse rand
  constructor
  · obtain ⟨fuel₀, hfuel₀⟩ := hb.beforeWake_isSome trivial false
    refine ⟨fuel₀, ?_⟩
    intro fuel hfuel
    obtain ⟨s₁, hbefore⟩ := hfuel₀ fuel hfuel
    obtain ⟨-, -, s', next, -, -, hafter, -⟩ :=
      (hb.beforeWake hbefore).1.fromWakeEach inUse rand (.inl hnodes)
    refine ⟨{ s' with currentTCB := next }, ?_⟩
    simp only [Sched.pendSVEach, schedulerEach, if_neg hswitches, hbefore, hafter,
      Option.bind_eq_bind, Option.bind_some, Option.pure_def]
  · intro fuel s' hs t ht ht'
    obtain ⟨life', hb', -⟩ := hb.pendSVEach hheld (.inl hnodes) hs
    obtain ⟨l', h', hl'⟩ := h.pendSV hb hnodes hs
    -- what is left on the list was scheduled when the call began
    rw [h.completedTasks_eq hb] at ht
    rw [h'.completedTasks_eq hb'] at ht'
    exact (h.out t ht).1 (hl' hswitches rfl t ht')

/-- **Exited tasks are freed once**: in every reachable state each life that has begun
is that of a scheduled task or of one task on the acyclic list of completed tasks, or
its stack and its TCB have been freed, once and when nothing referred to the task; and
a call of the scheduler that gets past the current task when the memory cluster is not
in use leaves none of the tasks completed before it on the list. -/
theorem exited_tasks_freed_once (hN : 0 < N) (hmax : N ≤ UINT32_MAX) (hnodes : tasks.card ≤ N)
    (htables : tasks.card ≤ WAIT_HASHTABLE_CAPACITY) {p : Sched × Lives}
    (h : (livesMachine N tasks).Reach p) :
    FreedOnce tasks p.1 p.2 ∧
      ∀ e s₀, e.switch ≠ none → p.1.call tasks e = some s₀ →
        ¬ (s₀.currentTCB ≠ s₀.idleTCB ∧ s₀.mustSwitch = false) → EmptiesList tasks s₀ := by
  have hkept := reach_accountsKept hN hmax hnodes htables h
  constructor
  · obtain ⟨life, l, hbooks, -, hending⟩ := hkept
    exact hending.freedOnce hbooks
  · intro e s₀ hswitch hcall hswitches
    -- the scheduler does not follow `addTask`
    have hfresh : p.1.Fresh tasks e := by
      cases e <;> trivial
    obtain ⟨life, l, hbooks, hheld, -, hending⟩ := hkept.called hnodes htables hfresh hcall
    exact hending.emptiesList hbooks hheld hnodes hswitches

/-- Task 100 exits when the memory cluster is in use, is freed in the next call of the
scheduler, and its TCB is used for a second task that is freed at once. -/
def exitsTwice : List (SchedulerEvent × (Nat → Bool)) :=
  [(.addTask 100 ((sampleSched 1).tcb 0) 1000 1, fun _ => false),
    (.schedule toRoot, fun _ => false), (.exit ⟨true, fun _ => 0, 1⟩, fun _ => true),
    (.schedule ⟨false, fun _ => 0, 2⟩, fun _ => false),
    (.addTask 100 ((sampleSched 1).tcb 0) 2000 1, fun _ => false),
    (.schedule toRoot, fun _ => true), (.exit toRoot, fun _ => false)]

theorem exited_tasks_freed_once_exitsTwice :
    ∃ p, (livesMachine 16 {100, 200, 300}).run (sampleSched 1, ⟨0, []⟩) exitsTwice = some p ∧
      p.1.freed = [100, 1744, 100, 744] ∧ FreedOnce {100, 200, 300} p.1 p.2 ∧
      ∀ e s₀, e.switch ≠ none → p.1.call {100, 200, 300} e = some s₀ →
        ¬ (s₀.currentTCB ≠ s₀.idleTCB ∧ s₀.mustSwitch = false) →
          EmptiesList {100, 200, 300} s₀ := by
  obtain ⟨p, hrun, hfreed⟩ := Lib.Machine.exists_run
    (P := fun p => p.1.freed = [100, 1744, 100, 744])
    (M := livesMachine 16 {100, 200, 300}) (s := (sampleSched 1, ⟨0, []⟩)) (e := exitsTwice)
    (by decide +kernel)
  have hstart : (livesMachine 16 {100, 200, 300}).Reach (sampleSched 1, ⟨0, []⟩) :=
    .init ⟨(sampleSched_rested _ (by decide)).booted, rfl⟩
  exact ⟨p, hrun, hfreed, exited_tasks_freed_once (by decide) (by decide) (by decide) (by decide)
    (hstart.run hrun)⟩

end Sched

end DocetOS
