import DocetOS.OS.ExitedTasks
import DocetOS.OS.Integrity

/-!
# What an event frees

`OS_initialiseTCB` writes the pointer that `OS_free` gets for the stack when a task
has ended, and the scheduler only reads it. What an event frees can hence be told
from the state before it, whatever this state is.

- `FreesLives`: some tasks are freed, and no TCB gets another stack; every part of
  the scheduler does at most this.
- `stepEach_lifeOf`: only `addTask` changes the stack of a TCB.
- `newlyFreed_pair`: an event that frees one task passes this task's stack.
-/

namespace DocetOS

namespace Sched

/-- What `OS_free` is called with on the way from `s` to `s'`, first call first. -/
def newlyFreed (s s' : Sched) : List Nat :=
  (s'.freed.take (s'.freed.length - s.freed.length)).reverse

/-- What is passed to `OS_free` when the tasks `ended` are freed, last call first. -/
def blocksOf (s : Sched) (ended : List Nat) : List Nat :=
  ended.flatMap fun t => [t, (s.lifeOf t).originalSpMemoryPointer]

/-- From `s` to `s'` some tasks are freed, and no TCB gets another stack. -/
structure FreesLives (s s' : Sched) : Prop where
  lifeOf : s'.lifeOf = s.lifeOf
  freed : ∃ ended, s'.freed = s.blocksOf ended ++ s.freed

variable {tasks : Finset Nat} {s s' s'' : Sched} {task index : Nat} {memclusterInUse : Bool}

namespace FreesLives

/-- Nothing is freed. -/
theorem of_lifeOf (hlife : ∀ t, s'.lifeOf t = s.lifeOf t) (hfreed : s'.freed = s.freed) :
    FreesLives s s' :=
  ⟨funext hlife, [], hfreed⟩

theorem of_keeps (h : KeepsLives s s') : FreesLives s s' := of_lifeOf h.lifeOf h.freed

theorem refl (s : Sched) : FreesLives s s := of_keeps (.refl s)

theorem trans (h : FreesLives s s') (h' : FreesLives s' s'') : FreesLives s s'' := by
  obtain ⟨ended, hfreed⟩ := h.freed
  obtain ⟨ended', hfreed'⟩ := h'.freed
  refine ⟨h'.lifeOf.trans h.lifeOf, ended' ++ ended, ?_⟩
  have hblocks : s'.blocksOf ended' = s.blocksOf ended' := by
    unfold blocksOf
    rw [h.lifeOf]
  rw [hfreed', hfreed, hblocks, ← List.append_assoc]
  unfold blocksOf
  rw [List.flatMap_append]

/-- A write to a TCB that leaves its stack alone. -/
theorem modifyTCB (s : Sched) (task : Nat) {f : TCB → TCB}
    (hstack : ∀ tcb, (f tcb).originalSpMemoryPointer = tcb.originalSpMemoryPointer) :
    FreesLives s (s.modifyTCB task f) := by
  refine of_lifeOf ?_ rfl
  intro t
  unfold Sched.lifeOf
  rw [modifyTCB_tcb]
  split
  · rw [hstack]
  · rfl

/-! ### The scheduler -/

theorem free (s : Sched) (task : Nat) : FreesLives s (s.free task) := ⟨rfl, [task], rfl⟩

theorem complete (s : Sched) (task : Nat) : FreesLives s (s.complete task) := by
  unfold Sched.complete
  split
  · have hhead : FreesLives s { s with completedTasksLinkedList := task } :=
      of_lifeOf (fun _ => rfl) rfl
    exact hhead.trans (modifyTCB _ task fun _ => rfl)
  · exact of_lifeOf (fun _ => rfl) rfl

/-- A round of the walk. -/
theorem removeIfInactive (s : Sched) (memclusterInUse : Bool) (index : Nat) :
    FreesLives s (s.removeIfInactive memclusterInUse index).1 := by
  by_cases hended : s.HasEnded (s.taskAt index)
  · simp only [Sched.removeIfInactive, removeIfExit_of_ended memclusterInUse hended]
    have hretire : FreesLives s (s.retire index (s.taskAt index)) := of_lifeOf (fun _ => rfl) rfl
    split
    · exact hretire.trans (free _ _)
    · exact hretire.trans (complete _ _)
  · exact of_keeps (.removeIfInactive memclusterInUse hended)

theorem freeCompleted {fuel : Nat} (h : freeCompleted fuel s = some s') : FreesLives s s' := by
  induction fuel generalizing s with
  | zero => cases h
  | succ fuel ih =>
    simp only [Sched.freeCompleted] at h
    split at h
    · cases h
      exact refl s'
    · have hhead : FreesLives s { s with
          completedTasksLinkedList := (s.tcb s.completedTasksLinkedList).data } :=
        of_lifeOf (fun _ => rfl) rfl
      exact (hhead.trans (free _ s.completedTasksLinkedList)).trans (ih h)

theorem beforeWake {fuel : Nat} (h : s.beforeWake memclusterInUse fuel = some s') :
    FreesLives s s' := by
  obtain ⟨s₁, hfree, h⟩ := beforeWake_eq h
  have hfrees : FreesLives s s₁ := by
    rcases hfree with rfl | hfree
    · exact refl _
    · exact freeCompleted hfree
  have hyield := hfrees.trans (of_keeps (.clearYield s₁))
  simp only [switchTask] at h
  split at h
  · obtain ⟨s₂, hbuckets, rfl⟩ := Option.map_eq_some_iff.mp h
    have hupdated : FreesLives s₁.clearYield s₂ :=
      updateBuckets_keeps refl (fun _ _ _ => trans) (fun _ _ => of_lifeOf (fun _ => rfl) rfl)
        (fun s task => of_keeps (.updateSleepState s task)) hbuckets
    exact (hyield.trans hupdated).trans (of_lifeOf (fun _ => rfl) rfl)
  · cases h
    exact hyield

/-- **The scheduler** frees tasks at most. -/
theorem pendSVEach {inUse : Nat → Bool} {rand : Nat → Nat} {fuel : Nat}
    (h : s.pendSVEach memclusterInUse inUse rand fuel = some s') : FreesLives s s' := by
  rcases pendSVEach_cases h with ⟨-, rfl⟩ | ⟨-, s₁, s₂, next, hbefore, hafter, rfl⟩
  · exact of_lifeOf (fun _ => rfl) rfl
  · have hwoken := (beforeWake hbefore).trans (of_keeps (.wakeSleepers s₁))
    have hwalk : FreesLives s₁.wakeSleepers s₂ :=
      afterWakeEach_keeps refl (fun _ _ _ => trans)
        (fun r _ => removeIfInactive r.sched r.memclusterInUse r.index) hafter
    exact (hwoken.trans hwalk).trans (of_lifeOf (fun _ => rfl) rfl)

/-! ### The calls -/

theorem park (s : Sched) (reason : Nat) : FreesLives s (s.park reason) := by
  refine of_lifeOf ?_ rfl
  intro t
  simp only [Sched.lifeOf, park_tcb]
  split <;> rfl

theorem wakeAll (s : Sched) (reason : Nat) : FreesLives s (s.wakeAll reason) := by
  have hwakes := wakeAll_wakes s reason
  refine of_lifeOf ?_ (by rw [hwakes.rest])
  intro t
  unfold Sched.lifeOf
  rcases hwakes.tcb t with ht | ht <;> rw [ht]

/-- A call frees nothing, and only `addTask` changes the stack of a TCB. -/
theorem call {e : SchedulerEvent}
    (hadd : ∀ tcb memory stack taskPriority, e ≠ .addTask tcb memory stack taskPriority)
    (h : s.call tasks e = some s') : FreesLives s s' := by
  cases e <;> simp only [Sched.call] at h
  case tick ticks =>
    split at h
    · cases h
      exact of_lifeOf (fun _ => rfl) rfl
    · cases h
  case memory acquired mutexes =>
    cases h
    exact of_lifeOf (fun _ => rfl) rfl
  case addTask tcb memory stack taskPriority => exact absurd rfl (hadd _ _ _ _)
  case notify fuel reason =>
    have hcode : FreesLives s s.nextCheckCode := of_lifeOf (fun _ => rfl) rfl
    exact (hcode.trans (wakeAll _ reason)).trans (of_keeps (.inherits (notifyCallback_inherits h)))
  case wait fuel reason checkCode isReasonMutex switch =>
    split at h
    · rcases waitCallback_cases h with ⟨-, rfl⟩ | ⟨-, hi⟩
      · exact refl s'
      · exact (park s reason).trans (of_keeps (.inherits hi))
    · cases h
  case sleep minSleepDuration switch =>
    split at h
    · cases h
      rcases sleepCallback_cases s s.currentTCB minSleepDuration with heq | ⟨-, heq⟩ | ⟨-, heq⟩
      · rw [heq]
        exact refl s
      · rw [heq]
        exact of_lifeOf (fun _ => rfl) rfl
      · rw [heq]
        -- falling asleep writes `data` and `data2`, which do not tell what is freed
        have hwrite : FreesLives s (s.modifyTCB s.currentTCB fun t =>
            { t with
                state := { t.state with sleep := true }
                data := s.ticks
                data2 := minSleepDuration }) := modifyTCB s _ fun _ => rfl
        exact hwrite.trans (of_lifeOf (fun _ => rfl) rfl)
    · cases h
  case exit switch =>
    split at h
    · cases h
      exact modifyTCB s _ fun _ => rfl
    · cases h
  case yield switch =>
    cases h
    exact modifyTCB s _ fun _ => rfl
  case schedule switch =>
    cases h
    exact refl s

end FreesLives

/-! ## The events -/

theorem addTask_lifeOf (s : Sched) (tcb taskPriority : Nat) :
    (s.addTask tcb taskPriority).lifeOf = s.lifeOf ∧
      (s.addTask tcb taskPriority).freed = s.freed := by
  rcases addTask_cases s tcb taskPriority with heq | ⟨-, -, heq⟩ <;> rw [heq]
  · exact ⟨rfl, rfl⟩
  · refine ⟨?_, rfl⟩
    funext t
    unfold lifeOf
    rw [enterTask_tcb]
    split <;> rfl

/-- A task that is added gets its stack, the others keep theirs, and nothing is
freed. -/
theorem stepEach_addTask {tcb stack taskPriority : Nat} {memory : TCB} {inUse : Nat → Bool}
    (h : s.stepEach tasks (.addTask tcb memory stack taskPriority, inUse) = some s') :
    s'.freed = s.freed ∧
      ∀ t, s'.lifeOf t =
        if t = tcb then ⟨t, (initialiseTCB memory stack).originalSpMemoryPointer⟩
        else s.lifeOf t := by
  obtain ⟨s₀, hcall, ⟨-, rfl⟩ | ⟨switch, hswitch, -⟩⟩ := stepEach_cases h
  · simp only [call] at hcall
    split at hcall
    · obtain ⟨hlife, hfreed⟩ :=
        addTask_lifeOf (s.modifyTCB tcb fun _ => initialiseTCB memory stack) tcb taskPriority
      rw [← Option.some.inj hcall]
      refine ⟨hfreed, ?_⟩
      intro t
      rw [hlife]
      unfold lifeOf
      rw [modifyTCB_tcb]
      split <;> rfl
    · cases hcall
  · cases hswitch

theorem stepEach_freesLives {e : SchedulerEvent × (Nat → Bool)}
    (hadd : ∀ tcb memory stack taskPriority, e.1 ≠ .addTask tcb memory stack taskPriority)
    (h : s.stepEach tasks e = some s') : FreesLives s s' := by
  obtain ⟨s₀, hcall, hrest⟩ := stepEach_cases h
  have hcalled := FreesLives.call hadd hcall
  rcases hrest with ⟨-, rfl⟩ | ⟨switch, -, hpend⟩
  · exact hcalled
  · exact hcalled.trans (.pendSVEach hpend)

/-- Only `addTask` changes the stack of a TCB. -/
theorem stepEach_lifeOf {e : SchedulerEvent × (Nat → Bool)}
    (hadd : ∀ memory stack taskPriority, e.1 ≠ .addTask task memory stack taskPriority)
    (h : s.stepEach tasks e = some s') : s'.lifeOf task = s.lifeOf task := by
  by_cases hother : ∃ tcb memory stack taskPriority, e.1 = .addTask tcb memory stack taskPriority
  · obtain ⟨tcb, memory, stack, taskPriority, he⟩ := hother
    obtain ⟨e, inUse⟩ := e
    obtain rfl : e = .addTask tcb memory stack taskPriority := he
    have hne : task ≠ tcb := by
      rintro rfl
      exact hadd memory stack taskPriority rfl
    rw [(stepEach_addTask h).2, if_neg hne]
  · push Not at hother
    rw [(stepEach_freesLives hother h).lifeOf]

/-- Every event frees some tasks, with the stacks they have in the state before it. -/
theorem stepEach_freed {e : SchedulerEvent × (Nat → Bool)} (h : s.stepEach tasks e = some s') :
    ∃ ended, s'.freed = s.blocksOf ended ++ s.freed := by
  by_cases hadd : ∃ tcb memory stack taskPriority, e.1 = .addTask tcb memory stack taskPriority
  · obtain ⟨tcb, memory, stack, taskPriority, he⟩ := hadd
    obtain ⟨e, inUse⟩ := e
    obtain rfl : e = .addTask tcb memory stack taskPriority := he
    exact ⟨[], (stepEach_addTask h).1⟩
  · push Not at hadd
    exact (stepEach_freesLives hadd h).freed

theorem newlyFreed_eq {l : List Nat} (h : s'.freed = l ++ s.freed) :
    newlyFreed s s' = l.reverse := by
  unfold newlyFreed
  rw [h, List.length_append, Nat.add_sub_cancel, List.take_left']
  rfl

/-- **What `OS_free` gets**: when one task is freed, it gets the stack this task has
before the event. -/
theorem newlyFreed_pair {e : SchedulerEvent × (Nat → Bool)} {p : Nat}
    (h : s.stepEach tasks e = some s') (hfreed : newlyFreed s s' = [p, task]) :
    p = (s.lifeOf task).originalSpMemoryPointer := by
  obtain ⟨ended, hended⟩ := stepEach_freed h
  have hblocks : s.blocksOf ended = [task, p] := by
    rw [← List.reverse_reverse (s.blocksOf ended), ← newlyFreed_eq hended, hfreed]
    rfl
  rcases ended with _ | ⟨t, _ | ⟨t', ended⟩⟩
  · cases hblocks
  · obtain ⟨rfl, hp⟩ : t = task ∧ (s.lifeOf t).originalSpMemoryPointer = p := by
      simpa [blocksOf] using hblocks
    exact hp.symm
  · simp [blocksOf] at hblocks

end Sched

end DocetOS
