import DocetOS.Lib.Chain
import DocetOS.OS.SchedulerRuns
import DocetOS.OS.Waiting
import DocetOS.OS.Walk

/-!
# What the steps of the scheduler can do

One inversion lemma for each part of `stochasticScheduler_scheduler`, for the
case that the tick counter has not rolled over. They say what the part does and
when; nothing else needs to unfold it.
-/

namespace DocetOS

namespace Sched

variable {s s' : Sched} {task index : Nat} {memclusterInUse : Bool}

@[simp] theorem modifyTCB_tcb (s : Sched) (task t : Nat) (f : TCB → TCB) :
    (s.modifyTCB task f).tcb t = if t = task then f (s.tcb t) else s.tcb t := by
  by_cases h : t = task
  · subst h
    simp [modifyTCB]
  · simp [modifyTCB, h]

/-! ## `__updateSleepState` -/

/-- A task whose time is up leaves the sleeping tasks. -/
def wakeSleeper (s : Sched) (task : Nat) : Sched :=
  let s := s.modifyTCB task fun tcb => { tcb with data := s.ticks }
  let s := { s with
    sleepingTasksHashTable := (s.sleepingTasksHashTable.remove task).1
    activeTasksHashTable :=
      (s.activeTasksHashTable.put task task .rejectMultipleValuesPerKey).1 }
  (s.returnToSchedulerHeap task).modifyTCB task fun tcb =>
    { tcb with state := { tcb.state with sleep := false }, data2 := 0 }

/-- A task that sleeps on gets a new time stamp. -/
def refreshSleeper (s : Sched) (task : Nat) : Sched :=
  (s.modifyTCB task fun tcb => { tcb with data := s.ticks }).modifyTCB task fun tcb =>
    { tcb with data2 := tcb.data2 - (s.ticks - (s.tcb task).data) }

/-- The task has its SLEEP bit set and its time is not up. -/
def Asleep (s : Sched) (task : Nat) : Prop :=
  (s.tcb task).state.sleep = true ∧ s.ticks - (s.tcb task).data < (s.tcb task).data2

instance (s : Sched) (task : Nat) : Decidable (s.Asleep task) :=
  inferInstanceAs (Decidable (_ ∧ _))

/-- Without a rollover, `__updateSleepState` leaves a task that does not sleep,
wakes one whose time is up, and refreshes one that is still asleep. -/
theorem updateSleepState_cases (hdata : (s.tcb task).state.sleep = true →
      (s.tcb task).data ≤ s.ticks) :
    ((s.tcb task).state.sleep = false ∧ s.updateSleepState task = (s, false)) ∨
      ((s.tcb task).state.sleep = true ∧ ¬ s.Asleep task ∧
        s.updateSleepState task = (s.wakeSleeper task, false)) ∨
      (s.Asleep task ∧ s.updateSleepState task = (s.refreshSleeper task, true)) := by
  cases hsleep : (s.tcb task).state.sleep
  · refine .inl ⟨rfl, ?_⟩
    simp only [updateSleepState, hsleep, if_true]
  · have hnot : ¬ s.ticks < (s.tcb task).data := Nat.not_lt.mpr (hdata hsleep)
    simp only [updateSleepState, hsleep, Bool.true_eq_false, if_false, hnot, Asleep]
    by_cases htime : (s.tcb task).data2 ≤ s.ticks - (s.tcb task).data
    · rw [if_pos htime]
      exact .inr (.inl ⟨trivial, fun hasleep => absurd htime (Nat.not_le.mpr hasleep.2), rfl⟩)
    · rw [if_neg htime]
      exact .inr (.inr ⟨⟨trivial, Nat.not_le.mp htime⟩, rfl⟩)

/-! ## `stochasticScheduler_addTask` -/

/-- A new task is entered. -/
def enterTask (s : Sched) (tcb taskPriority : Nat) : Sched :=
  { s.modifyTCB tcb fun t => { t with priority := taskPriority } with
    activeTasksHashTable := (s.activeTasksHashTable.put tcb tcb .rejectMultipleValuesPerKey).1
    tasksInSchedulerHeapHashTable :=
      (s.tasksInSchedulerHeapHashTable.put tcb tcb .rejectMultipleValuesPerKey).1
    schedulerHeap := (s.schedulerHeap.addNode tcb taskPriority).1
    scheduled := tcb :: s.scheduled }

theorem addTask_of_zero {s : Sched} {tcb taskPriority : Nat} (hnull : tcb ≠ NULL)
    (hstate : (s.tcb tcb).state = TaskState.zero) (hpriority : taskPriority ≠ 0) :
    s.addTask tcb taskPriority = s.enterTask tcb taskPriority := by
  unfold addTask
  rw [if_neg hnull, if_neg (not_not_intro hstate), if_neg hpriority]
  rfl

theorem addTask_cases (s : Sched) (tcb taskPriority : Nat) :
    s.addTask tcb taskPriority = s ∨
      (tcb ≠ NULL ∧ (s.tcb tcb).state = TaskState.zero ∧
        s.addTask tcb taskPriority = s.enterTask tcb taskPriority) := by
  by_cases hnull : tcb = NULL
  · exact .inl (by rw [addTask, if_pos hnull])
  by_cases hstate : (s.tcb tcb).state = TaskState.zero
  · by_cases hpriority : taskPriority = 0
    · exact .inl (by rw [addTask, if_neg hnull, if_neg (not_not_intro hstate), if_pos hpriority])
    · exact .inr ⟨hnull, hstate, addTask_of_zero hnull hstate hpriority⟩
  · exact .inl (by rw [addTask, if_neg hnull, if_pos hstate])

theorem enterTask_tcb (s : Sched) (tcb taskPriority t : Nat) :
    (s.enterTask tcb taskPriority).tcb t =
      if t = tcb then { s.tcb t with priority := taskPriority } else s.tcb t :=
  modifyTCB_tcb s tcb t fun t => { t with priority := taskPriority }

/-! ## `stochasticScheduler_sleepCallback` -/

/-- An active task becomes a sleeping one. -/
def fallAsleep (s : Sched) (tcb minSleepDuration : Nat) : Sched :=
  { s.modifyTCB tcb fun t =>
      { t with
          state := { t.state with sleep := true }
          data := s.ticks
          data2 := minSleepDuration } with
    activeTasksHashTable := (s.activeTasksHashTable.remove tcb).1
    sleepingTasksHashTable := (s.sleepingTasksHashTable.put tcb tcb .rejectMultipleValuesPerKey).1
    sleepRequest := Function.update s.sleepRequest tcb (s.ticks, minSleepDuration) }

theorem sleepCallback_cases (s : Sched) (tcb minSleepDuration : Nat) :
    s.sleepCallback tcb minSleepDuration = s ∨
      ((s.activeTasksHashTable.remove tcb).2 = NULL ∧
        s.sleepCallback tcb minSleepDuration =
          { s with activeTasksHashTable := (s.activeTasksHashTable.remove tcb).1 }) ∨
      (minSleepDuration ≠ 0 ∧
        s.sleepCallback tcb minSleepDuration = s.fallAsleep tcb minSleepDuration) := by
  simp only [sleepCallback]
  split
  · exact .inl rfl
  · rename_i hduration
    split
    · exact .inr (.inr ⟨hduration, rfl⟩)
    · rename_i hremoved
      exact .inr (.inl ⟨not_not.mp hremoved, rfl⟩)

/-! ## The removals -/

theorem removeIfWaiting_cases (s : Sched) (index : Nat) :
    ((s.tcb (s.taskAt index)).state.wait = true ∧
        s.removeIfWaiting index = (s.leaveSchedulerHeap index (s.taskAt index), true)) ∨
      ((s.tcb (s.taskAt index)).state.wait = false ∧ s.removeIfWaiting index = (s, false)) := by
  cases hwait : (s.tcb (s.taskAt index)).state.wait <;> simp [removeIfWaiting, hwait]

/-- A task that has ended leaves the scheduler. -/
def retire (s : Sched) (index task : Nat) : Sched :=
  { s.leaveSchedulerHeap index task with
    activeTasksHashTable := (s.activeTasksHashTable.remove task).1
    scheduled := s.scheduled.erase task }

/-- The two calls of `OS_free` for a task. -/
def free (s : Sched) (task : Nat) : Sched :=
  { s with freed := task :: (s.tcb task).originalSpMemoryPointer :: s.freed }

/-- A task joins the list of completed ones. -/
def complete (s : Sched) (task : Nat) : Sched :=
  if s.completedTasksLinkedList ≠ NULL then
    { s with completedTasksLinkedList := task }.modifyTCB task fun tcb =>
      { tcb with data := s.completedTasksLinkedList }
  else { s with completedTasksLinkedList := task }

/-- The task has its EXIT bit set, and neither sleeps nor waits. -/
def HasEnded (s : Sched) (task : Nat) : Prop :=
  (s.tcb task).state.exit = true ∧ (s.tcb task).state.sleep = false ∧
    (s.tcb task).state.wait = false

instance (s : Sched) (task : Nat) : Decidable (s.HasEnded task) :=
  inferInstanceAs (Decidable (_ ∧ _ ∧ _))

theorem removeIfExit_of_ended (memclusterInUse : Bool) (h : s.HasEnded (s.taskAt index)) :
    s.removeIfExit memclusterInUse index =
      (if memclusterInUse = false then (s.retire index (s.taskAt index)).free (s.taskAt index)
        else (s.retire index (s.taskAt index)).complete (s.taskAt index), true) := by
  obtain ⟨hexit, hsleep, hwait⟩ := h
  simp only [removeIfExit, hexit, hsleep, hwait, Bool.or_self, Bool.and_false,
    Bool.false_eq_true, if_false, if_true]
  by_cases hinUse : memclusterInUse = false
  · rw [if_pos hinUse, if_pos hinUse]
    rfl
  rw [if_neg hinUse, if_neg hinUse]
  by_cases hcompleted : s.completedTasksLinkedList ≠ NULL
  · have hpush : (s.retire index (s.taskAt index)).completedTasksLinkedList ≠ NULL := hcompleted
    rw [complete, if_pos hpush]
    exact if_pos hcompleted
  · have hpush : ¬ (s.retire index (s.taskAt index)).completedTasksLinkedList ≠ NULL := hcompleted
    rw [complete, if_neg hpush]
    exact if_neg hcompleted

theorem removeIfExit_of_not (memclusterInUse : Bool) (h : ¬ s.HasEnded (s.taskAt index)) :
    s.removeIfExit memclusterInUse index = (s, false) := by
  unfold HasEnded at h
  cases hexit : (s.tcb (s.taskAt index)).state.exit <;>
    cases hsleep : (s.tcb (s.taskAt index)).state.sleep <;>
      cases hwait : (s.tcb (s.taskAt index)).state.wait <;>
        simp_all [removeIfExit]

/-- `__removeIfExit` retires a task with only its EXIT bit set. Then it frees the
task, or puts it on the list of completed ones. -/
theorem removeIfExit_cases (memclusterInUse : Bool) (s : Sched) (index : Nat) :
    ((s.tcb (s.taskAt index)).state.exit = true ∧
        (s.tcb (s.taskAt index)).state.sleep = false ∧
        (s.tcb (s.taskAt index)).state.wait = false ∧
        ∃ tcb completed freed, s.removeIfExit memclusterInUse index =
            ({ s.retire index (s.taskAt index) with
                tcb := tcb
                completedTasksLinkedList := completed
                freed := freed }, true) ∧
          (∀ t, t ≠ s.taskAt index → tcb t = s.tcb t) ∧
          (∃ data, tcb (s.taskAt index) = { s.tcb (s.taskAt index) with data := data }) ∧
          ((completed = s.completedTasksLinkedList ∧ tcb = s.tcb) ∨
            (completed = s.taskAt index ∧
              (tcb (s.taskAt index)).data =
                if s.completedTasksLinkedList ≠ NULL then s.completedTasksLinkedList
                else (s.tcb (s.taskAt index)).data))) ∨
      (((s.tcb (s.taskAt index)).state.exit = true → (s.tcb (s.taskAt index)).state.sleep = true ∨
          (s.tcb (s.taskAt index)).state.wait = true) ∧
        s.removeIfExit memclusterInUse index = (s, false)) := by
  by_cases hended : s.HasEnded (s.taskAt index)
  · refine .inl ⟨hended.1, hended.2.1, hended.2.2, ?_⟩
    rw [removeIfExit_of_ended memclusterInUse hended]
    split
    · -- the memory cluster is not in use: the task is freed at once
      exact ⟨s.tcb, _, _, rfl, fun _ _ => rfl, ⟨_, rfl⟩, .inl ⟨rfl, rfl⟩⟩
    · by_cases hcompleted : s.completedTasksLinkedList ≠ NULL
      · -- pushed onto a list that has tasks, so that its `data` is written
        have hpush : (s.retire index (s.taskAt index)).completedTasksLinkedList ≠ NULL := hcompleted
        rw [complete, if_pos hpush, if_pos hcompleted]
        refine ⟨_, _, _, rfl, fun t ht => Function.update_of_ne ht _ _, ?_, .inr ⟨rfl, ?_⟩⟩
        · exact ⟨_, Function.update_self _ _ _⟩
        · rw [Function.update_self]
          rfl
      · -- the first task of the list keeps its `data`
        have hpush : ¬ (s.retire index (s.taskAt index)).completedTasksLinkedList ≠ NULL :=
          hcompleted
        rw [complete, if_neg hpush, if_neg hcompleted]
        exact ⟨s.tcb, _, _, rfl, fun _ _ => rfl, ⟨_, rfl⟩, .inr ⟨rfl, rfl⟩⟩
  · refine .inr ⟨?_, removeIfExit_of_not memclusterInUse hended⟩
    intro hexit
    by_contra hawake
    rw [not_or, Bool.not_eq_true, Bool.not_eq_true] at hawake
    exact hended ⟨hexit, hawake⟩

/-- A task that is still asleep moves to the sleep heap. -/
def moveToSleepHeap (s : Sched) (index task : Nat) : Sched :=
  let s := (s.refreshSleeper task).leaveSchedulerHeap index task
  { s with sleepHeap := (s.sleepHeap.addNode task (s.tcb task).data2).1 }

theorem removeIfSleeping_cases (hdata : (s.tcb (s.taskAt index)).state.sleep = true →
      (s.tcb (s.taskAt index)).data ≤ s.ticks) :
    ((s.tcb (s.taskAt index)).state.sleep = false ∧ s.removeIfSleeping index = (s, false)) ∨
      ((s.tcb (s.taskAt index)).state.sleep = true ∧ ¬ s.Asleep (s.taskAt index) ∧
        s.removeIfSleeping index = (s.wakeSleeper (s.taskAt index), false)) ∨
      (s.Asleep (s.taskAt index) ∧
        s.removeIfSleeping index = (s.moveToSleepHeap index (s.taskAt index), true)) := by
  rcases updateSleepState_cases hdata with ⟨hsleep, hs⟩ | ⟨hsleep, hasleep, hs⟩ | ⟨hasleep, hs⟩
  · exact .inl ⟨hsleep, by simp [removeIfSleeping, hs]⟩
  · exact .inr (.inl ⟨hsleep, hasleep, by simp [removeIfSleeping, hs]⟩)
  · refine .inr (.inr ⟨hasleep, ?_⟩)
    simp only [removeIfSleeping, hs, if_true]
    rfl

/-! ## Before the wake-up loop -/

theorem freeCompleted_cases {fuel : Nat} (h : freeCompleted fuel s = some s') :
    ∃ freed, s' = { s with
      completedTasksLinkedList := NULL
      freed := freed } := by
  induction fuel generalizing s with
  | zero => cases h
  | succ fuel ih =>
    simp only [freeCompleted] at h
    split at h
    · rename_i hnull
      cases h
      exact ⟨s'.freed, by rw [← hnull]⟩
    · obtain ⟨freed, rfl⟩ := ih h
      exact ⟨freed, rfl⟩

/-- The loop comes to the end of the list. -/
theorem freeCompleted_of_chain {l : List Nat} {fuel : Nat}
    (h : Lib.Chain (fun t => toPtr (s.tcb t).data) (toPtr s.completedTasksLinkedList) l)
    (hfuel : l.length < fuel) : ∃ s', freeCompleted fuel s = some s' := by
  induction l generalizing s fuel with
  | nil =>
    obtain ⟨fuel, rfl⟩ := Nat.exists_eq_succ_of_ne_zero (Nat.ne_of_gt hfuel)
    have hnull : s.completedTasksLinkedList = NULL := by
      by_contra hne
      rw [toPtr_of_ne hne] at h
      exact absurd (Lib.Path.nil_iff.mp h) (by simp)
    exact ⟨s, by simp only [freeCompleted, hnull, if_true]⟩
  | cons task l ih =>
    obtain ⟨fuel, rfl⟩ := Nat.exists_eq_succ_of_ne_zero (Nat.ne_of_gt (Nat.zero_lt_of_lt hfuel))
    obtain ⟨hhead, hrest⟩ := Lib.Path.cons_iff.mp h
    have hne : s.completedTasksLinkedList ≠ NULL := by
      intro hnull
      rw [hnull, toPtr_null] at hhead
      cases hhead
    simp only [freeCompleted, if_neg hne]
    refine ih ?_ (Nat.lt_of_succ_lt_succ hfuel)
    rw [eq_of_toPtr hhead]
    exact hrest

/-- The scheduler clears the YIELD bit of the current task and restarts its time. -/
def clearYield (s : Sched) : Sched :=
  { s.modifyTCB s.currentTCB fun tcb => { tcb with state := { tcb.state with yield := false } }
    with
    ticksSinceLastTaskSwitch := 0 }

/-- Up to the wake-up loop, the scheduler frees the completed tasks, if it may, and
clears the YIELD bit of the current task. -/
theorem beforeWake_of_noRollover {fuel : Nat} (hrollover : s.systickRolloverDetectedFLAG = 0)
    (h : s.beforeWake memclusterInUse fuel = some s') :
    (s.completedTasksLinkedList ≠ NULL ∧ memclusterInUse = false ∧
        ∃ s₁, freeCompleted fuel s = some s₁ ∧ s' = s₁.clearYield) ∨
      (¬ (s.completedTasksLinkedList ≠ NULL ∧ memclusterInUse = false) ∧ s' = s.clearYield) := by
  by_cases hfree : s.completedTasksLinkedList ≠ NULL ∧ memclusterInUse = false
  · simp only [beforeWake, if_pos hfree, Option.bind_eq_bind, Option.bind_eq_some_iff] at h
    obtain ⟨s₁, hs₁, h⟩ := h
    refine .inl ⟨hfree.1, hfree.2, s₁, hs₁, ?_⟩
    obtain ⟨freed, rfl⟩ := freeCompleted_cases hs₁
    rw [if_neg fun hne => hne hrollover] at h
    cases h
    rfl
  · simp only [beforeWake, if_neg hfree, Option.bind_eq_bind, Option.bind_some] at h
    rw [if_neg fun hne => hne hrollover] at h
    cases h
    exact .inr ⟨hfree, rfl⟩

theorem beforeWake_cases {fuel : Nat} (hrollover : s.systickRolloverDetectedFLAG = 0)
    (h : s.beforeWake memclusterInUse fuel = some s') :
    ∃ completed freed, s' =
      { s.modifyTCB s.currentTCB fun tcb => { tcb with state := { tcb.state with yield := false } }
        with
        completedTasksLinkedList := completed
        freed := freed
        ticksSinceLastTaskSwitch := 0 } ∧
      (completed = NULL ∨ completed = s.completedTasksLinkedList) := by
  rcases beforeWake_of_noRollover hrollover h with ⟨-, -, s₁, hs₁, rfl⟩ | ⟨-, rfl⟩
  · obtain ⟨freed, rfl⟩ := freeCompleted_cases hs₁
    exact ⟨NULL, freed, rfl, .inl rfl⟩
  · exact ⟨_, _, rfl, .inr rfl⟩

/-! ## The scheduler as a whole -/

/-- The scheduler goes on with the current task, or comes to the wake-up loop and
then to the walk down the scheduler heap. -/
theorem pendSV_cases {rand : Nat → Nat} {fuel : Nat}
    (h : s.pendSV memclusterInUse rand fuel = some s') :
    ((s.currentTCB ≠ s.idleTCB ∧ s.mustSwitch = false) ∧
        s' = { s with ticksSinceLastTaskSwitch := s.ticksSinceLastTaskSwitch + 1 }) ∨
      (¬ (s.currentTCB ≠ s.idleTCB ∧ s.mustSwitch = false) ∧
        ∃ s₁ s₂ next, s.beforeWake memclusterInUse fuel = some s₁ ∧
          s₁.wakeSleepers.afterWake memclusterInUse rand = some (s₂, next) ∧
          s' = { s₂ with currentTCB := next }) := by
  rw [pendSV_eq] at h
  simp only [afterWake_eq]
  exact pendSVEach_cases h

end Sched

end DocetOS
