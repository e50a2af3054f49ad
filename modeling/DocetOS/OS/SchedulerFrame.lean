import DocetOS.OS.Integrity

/-!
# The callbacks do not switch tasks

The variables `_currentTCB` and the pointer to the idle task are written by the task
switcher only. The scheduler and the other callbacks may move every task between the
tables, but when they return the same task is current (`SameTasks`).
-/

namespace DocetOS

namespace Sched

/-- The same task is current, the same one is idle, and none has been added. -/
structure SameTasks (s s' : Sched) : Prop where
  currentTCB : s'.currentTCB = s.currentTCB
  idleTCB : s'.idleTCB = s.idleTCB
  scheduled : s'.scheduled ⊆ s.scheduled

namespace SameTasks

variable {s s' s'' : Sched} {memclusterInUse : Bool} {task index fuel : Nat}

theorem refl (s : Sched) : SameTasks s s := ⟨rfl, rfl, List.Subset.refl _⟩

theorem trans (h : SameTasks s s') (h' : SameTasks s' s'') : SameTasks s s'' :=
  ⟨h'.currentTCB.trans h.currentTCB, h'.idleTCB.trans h.idleTCB,
    List.Subset.trans h'.scheduled h.scheduled⟩

theorem inherits (h : Inherits s s') : SameTasks s s' := by
  rw [h.rest]
  exact ⟨rfl, rfl, List.Subset.refl _⟩

/-! ## The scheduler -/

theorem returnToSchedulerHeap (s : Sched) (task : Nat) :
    SameTasks s (s.returnToSchedulerHeap task) := by
  simp only [Sched.returnToSchedulerHeap]
  split <;> exact ⟨rfl, rfl, List.Subset.refl _⟩

theorem updateSleepState (s : Sched) (task : Nat) : SameTasks s (s.updateSleepState task).1 := by
  simp only [Sched.updateSleepState]
  split
  · exact refl s
  · split <;> split
    · exact ⟨(returnToSchedulerHeap _ task).currentTCB, (returnToSchedulerHeap _ task).idleTCB,
        (returnToSchedulerHeap _ task).scheduled⟩
    · exact ⟨rfl, rfl, List.Subset.refl _⟩
    · exact ⟨(returnToSchedulerHeap _ task).currentTCB, (returnToSchedulerHeap _ task).idleTCB,
        (returnToSchedulerHeap _ task).scheduled⟩
    · exact ⟨rfl, rfl, List.Subset.refl _⟩

theorem removeIfExit (memclusterInUse : Bool) (s : Sched) (index : Nat) :
    SameTasks s (s.removeIfExit memclusterInUse index).1 := by
  rcases removeIfExit_cases memclusterInUse s index with ⟨-, -, -, _, _, _, h, -⟩ | ⟨-, h⟩
  · rw [h]
    exact ⟨rfl, rfl, List.erase_subset⟩
  · rw [h]
    exact refl s

theorem removeIfWaiting (s : Sched) (index : Nat) : SameTasks s (s.removeIfWaiting index).1 := by
  rcases removeIfWaiting_cases s index with ⟨-, h⟩ | ⟨-, h⟩ <;> rw [h] <;>
    exact ⟨rfl, rfl, List.Subset.refl _⟩

theorem removeIfSleeping (s : Sched) (index : Nat) : SameTasks s (s.removeIfSleeping index).1 := by
  have hupdate := updateSleepState s (s.taskAt index)
  simp only [Sched.removeIfSleeping]
  split
  · exact ⟨hupdate.currentTCB, hupdate.idleTCB, hupdate.scheduled⟩
  · exact hupdate

theorem removeIfInactive (memclusterInUse : Bool) (s : Sched) (index : Nat) :
    SameTasks s (s.removeIfInactive memclusterInUse index).1 := by
  have hexit := removeIfExit memclusterInUse s index
  simp only [Sched.removeIfInactive]
  split
  · rename_i s₁ hs
    rwa [hs] at hexit
  · rename_i s₁ hs
    rw [hs] at hexit
    have hwaiting := removeIfWaiting s₁ index
    split
    · rename_i s₂ hs₂
      rw [hs₂] at hwaiting
      exact hexit.trans hwaiting
    · rename_i s₂ hs₂
      rw [hs₂] at hwaiting
      exact (hexit.trans hwaiting).trans (removeIfSleeping s₂ index)

theorem wakeLoop (rounds : Nat) (s : Sched) : SameTasks s (Sched.wakeLoop rounds s) :=
  wakeLoop_keeps refl (fun _ _ _ => trans) (fun _ _ => ⟨rfl, rfl, List.Subset.refl _⟩)
    updateSleepState rounds s

theorem switchTask (h : s.switchTask fuel = some s') : SameTasks s s' := by
  simp only [Sched.switchTask] at h
  split at h
  · obtain ⟨s₂, hbuckets, rfl⟩ := Option.map_eq_some_iff.mp h
    have hpass := updateBuckets_keeps refl (fun _ _ _ => trans)
      (fun _ _ => ⟨rfl, rfl, List.Subset.refl _⟩) updateSleepState hbuckets
    exact ⟨hpass.currentTCB, hpass.idleTCB, hpass.scheduled⟩
  · cases h
    exact ⟨rfl, rfl, List.Subset.refl _⟩

theorem beforeWake (h : s.beforeWake memclusterInUse fuel = some s') : SameTasks s s' := by
  obtain ⟨s₁, hfree, h⟩ := beforeWake_eq h
  have hfreed : SameTasks s s₁ := by
    rcases hfree with rfl | hfree
    · exact refl _
    · obtain ⟨freed, rfl⟩ := freeCompleted_cases hfree
      exact ⟨rfl, rfl, List.Subset.refl _⟩
  exact hfreed.trans (switchTask h)

/-- **The scheduler** returns the next task, and leaves the switch to its caller. -/
theorem scheduler {rand : Nat → Nat} {next : Nat}
    (h : s.scheduler memclusterInUse rand fuel = some (s', next)) : SameTasks s s' := by
  simp only [Sched.scheduler] at h
  split at h
  · cases h
    exact ⟨rfl, rfl, List.Subset.refl _⟩
  · simp only [Option.bind_eq_bind, Option.bind_eq_some_iff] at h
    obtain ⟨s₁, hbefore, h⟩ := h
    have hwoken : SameTasks s s₁.wakeSleepers := (beforeWake hbefore).trans (wakeLoop _ s₁)
    rw [afterWake_eq] at h
    exact hwoken.trans (afterWakeEach_keeps refl (fun _ _ _ => trans)
      (fun r _ => removeIfInactive r.memclusterInUse r.sched r.index) h)

/-! ## The other callbacks -/

theorem waitCallback {reason checkCode isReasonMutex : Nat}
    (h : s.waitCallback fuel reason checkCode isReasonMutex = some s') : SameTasks s s' := by
  rcases waitCallback_cases h with ⟨-, rfl⟩ | ⟨-, hi⟩
  · exact refl _
  · have hpark : SameTasks s (s.park reason) := ⟨rfl, rfl, List.Subset.refl _⟩
    exact hpark.trans (inherits hi)

theorem notifyCallback {reason : Nat} (h : s.notifyCallback fuel reason = some s') :
    SameTasks s s' := by
  have hwakes : SameTasks s (s.wakeAll reason) := by
    rw [(s.wakeAll_wakes reason).rest]
    exact ⟨rfl, rfl, List.Subset.refl _⟩
  exact hwakes.trans (inherits (notifyCallback_inherits h))

theorem sleepCallback (s : Sched) (tcb minSleepDuration : Nat) :
    SameTasks s (s.sleepCallback tcb minSleepDuration) := by
  rcases sleepCallback_cases s tcb minSleepDuration with h | ⟨-, h⟩ | ⟨-, h⟩ <;> rw [h] <;>
    exact ⟨rfl, rfl, List.Subset.refl _⟩

theorem resourceAcquired (s : Sched) (mutex : Nat) : SameTasks s (s.resourceAcquired mutex) :=
  inherits (s.resourceAcquired_inherits mutex)

end SameTasks

/-- A task is added, the same one is current, and the same one is idle. -/
theorem addTask_tasks (s : Sched) (tcb taskPriority : Nat) :
    (s.addTask tcb taskPriority).currentTCB = s.currentTCB ∧
      (s.addTask tcb taskPriority).idleTCB = s.idleTCB ∧
      (s.addTask tcb taskPriority).scheduled ⊆ tcb :: s.scheduled := by
  rcases addTask_cases s tcb taskPriority with h | ⟨-, -, h⟩
  · rw [h]
    exact ⟨rfl, rfl, List.subset_cons_self _ _⟩
  · rw [h]
    exact ⟨rfl, rfl, List.Subset.refl _⟩

end Sched

end DocetOS
