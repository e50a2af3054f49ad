import DocetOS.OS.SleepTime

/-!
# The tables and heaps of the scheduler stay intact

Whatever the callbacks are called with, whatever the tasks write to their TCBs
and mutexes, and also when the tick counter rolls over, the five hashtables keep
their buckets and free lists apart and the two heaps keep their counts and
pointers in step (`Keeps`, one lemma for each function; `reach_intact`).

A heap can lose more nodes than it has: `OS_heap_removeNodeAt` compares the index
with `currentNumNodes - 1`, which wraps on an empty heap. `Shaped` is what is
left then.

Of `sleepingTasksHashTable` any property of the table and the sleep bits will do that
falling asleep and waking up keep (`SleepRule`).
-/

namespace DocetOS

open Lib

namespace Hashtable

/-- Every key is stored under itself. -/
structure Own (t : Hashtable) : Prop where
  wf : t.WF
  own : ∀ p ∈ t.content, p.2 = p.1

namespace Own

theorem put (h : Own t) (k : Nat) (mode : DuplicateCheck) : Own (t.put k k mode).1 := by
  rcases put_cases h.wf k k mode with hput | ⟨t', hput, hwf, hcontent, -⟩
  · rw [hput]
    exact h
  · rw [hput]
    refine ⟨hwf, ?_⟩
    intro p hp
    rw [hcontent, Multiset.mem_cons] at hp
    rcases hp with rfl | hp
    · rfl
    · exact h.own p hp

theorem remove (h : Own t) (k : Nat) : Own (t.remove k).1 :=
  ⟨remove_wf h.wf k, fun p hp => h.own p (Multiset.mem_of_le (remove_content_le h.wf k) hp)⟩

/-- What `remove` returns is the key, or null. -/
theorem remove_value (h : Own t) (k : Nat) : (t.remove k).2 = k ∨ (t.remove k).2 = NULL := by
  by_cases hk : ∃ w, (k, w) ∈ t.content
  · obtain ⟨t', w, hremove, -, hcontent, -⟩ := remove_of_mem h.wf hk
    rw [hremove]
    exact .inl (h.own (k, w) (hcontent ▸ Multiset.mem_cons_self _ _))
  · rw [remove_of_not_mem h.wf fun w hw => hk ⟨w, hw⟩]
    exact .inr rfl

end Own

end Hashtable

namespace MinHeap

/-- The pointer fields and the node count agree. The count need not be one: it
can have wrapped. -/
structure Shaped (heap : MinHeap) : Prop where
  max_pos : 0 < heap.maxNumberOfNodes
  max_le : heap.maxNumberOfNodes ≤ UINT32_MAX
  next_eq : heap.nextEmptyElement = heap.currentNumNodes
  last_eq : heap.lastArrayElement + 1 = heap.maxNumberOfNodes

namespace Shaped

variable {heap : MinHeap}

theorem of_shape {heap' : MinHeap} (h : Shaped heap) (hs : SameShape heap heap') :
    Shaped heap' where
  max_pos := hs.max ▸ h.max_pos
  max_le := hs.max ▸ h.max_le
  next_eq := hs.next.trans (h.next_eq.trans hs.num.symm)
  last_eq := by rw [hs.last, hs.max, h.last_eq]

/-- A heap that still takes a node is well formed. -/
theorem wf (h : Shaped heap) (hroom : ¬ heap.lastArrayElement < heap.nextEmptyElement) :
    heap.WF where
  max_pos := h.max_pos
  max_le := h.max_le
  next_eq := h.next_eq
  last_eq := h.last_eq
  num_le := by
    have hnext := h.next_eq
    have hlast := h.last_eq
    omega

theorem of_wf (h : heap.WF) : Shaped heap := ⟨h.max_pos, h.max_le, h.next_eq, h.last_eq⟩

theorem addNode (h : Shaped heap) (x v : Nat) : Shaped (heap.addNode x v).1 := by
  by_cases hfull : heap.lastArrayElement < heap.nextEmptyElement
  · simp only [MinHeap.addNode, if_pos hfull]
    exact h
  · exact .of_wf (addNode_wf (h.wf hfull) x v)

theorem heapDown (h : Shaped heap) (index : Nat) : Shaped (heap.heapDown index) := by
  have hfill : Shaped (heap.fillHole index) := ⟨h.max_pos, h.max_le, rfl, h.last_eq⟩
  simp only [MinHeap.heapDown]
  split
  · exact hfill
  · split
    · exact hfill
    · exact hfill.of_shape (siftDown_shape _ _ _ _)

theorem removeNode (h : Shaped heap) : Shaped heap.removeNode.1 := by
  simp only [MinHeap.removeNode]
  split
  · exact h
  · exact h.heapDown 0

theorem removeNodeAt (h : Shaped heap) (index : Nat) : Shaped (heap.removeNodeAt index).1 := by
  simp only [MinHeap.removeNodeAt]
  split
  · exact ⟨h.max_pos, h.max_le, h.next_eq, h.last_eq⟩
  · exact h.heapDown index

theorem indexOfContent (h : Shaped heap) (x : Nat) : Shaped (heap.indexOfContent x).1 := by
  obtain ⟨table, asserts, heq⟩ := indexOfContent_heap heap x
  rw [heq]
  exact ⟨h.max_pos, h.max_le, h.next_eq, h.last_eq⟩

end Shaped

end MinHeap

namespace Sched

/-- The part of the scheduler between the freeing of completed tasks and the
wake-up loop. -/
def switchTask (s : Sched) (fuel : Nat) : Option Sched :=
  let s := s.modifyTCB s.currentTCB fun tcb =>
    { tcb with state := { tcb.state with yield := false } }
  let s := { s with ticksSinceLastTaskSwitch := 0 }
  if s.systickRolloverDetectedFLAG ≠ 0 then
    (updateBuckets fuel s.sleepingTasksHashTable.numberOfBuckets 0 s).map fun s =>
      { s with systickRolloverDetectedFLAG := 0 }
  else some s

/-- The scheduler frees the completed tasks, if it may, and goes on with the task
switch. -/
theorem beforeWake_eq {s s' : Sched} {memclusterInUse : Bool} {fuel : Nat}
    (h : s.beforeWake memclusterInUse fuel = some s') :
    ∃ s₁, (s₁ = s ∨ freeCompleted fuel s = some s₁) ∧ s₁.switchTask fuel = some s' := by
  by_cases hfree : s.completedTasksLinkedList ≠ NULL ∧ memclusterInUse = false
  · simp only [beforeWake, if_pos hfree, Option.bind_eq_bind, Option.bind_eq_some_iff] at h
    obtain ⟨s₁, hs₁, h⟩ := h
    refine ⟨s₁, .inr hs₁, ?_⟩
    simp only [switchTask, Option.map_eq_bind, Function.comp_def]
    exact h
  · simp only [beforeWake, if_neg hfree, Option.bind_eq_bind, Option.bind_some] at h
    refine ⟨s, .inl rfl, ?_⟩
    simp only [switchTask, Option.map_eq_bind, Function.comp_def]
    exact h

/-- What finding a bucket and `__updateSleepState` keep, the pass over the sleeping tasks
keeps. -/
theorem updateBuckets_keeps {R : Sched → Sched → Prop} (hrefl : ∀ s, R s s)
    (htrans : ∀ s s' s'', R s s' → R s' s'' → R s s'')
    (hflag : ∀ s flag, R s { s with
      sleepingTasksHashTable := { s.sleepingTasksHashTable with validValueFlag := flag } })
    (hupdate : ∀ s task, R s (s.updateSleepState task).1) {fuel n bucketInd : Nat} {s s' : Sched}
    (h : updateBuckets fuel n bucketInd s = some s') : R s s' := by
  have hbucket : ∀ fuel s element s', updateBucket fuel s element = some s' → R s s' := by
    intro fuel
    induction fuel with
    | zero => exact fun s element s' hs => by cases hs
    | succ fuel ih =>
      intro s element s' hs
      cases element with
      | none =>
        cases hs
        exact hrefl _
      | some element => exact htrans _ _ _ (hupdate s _) (ih _ _ _ hs)
  induction n generalizing s bucketInd with
  | zero =>
    cases h
    exact hrefl _
  | succ n ih =>
    simp only [updateBuckets, Option.bind_eq_bind, Option.bind_eq_some_iff] at h
    obtain ⟨s₁, hs₁, hrest⟩ := h
    obtain ⟨flag, htable⟩ :=
      Hashtable.getFirstElementOfNthBucket_table s.sleepingTasksHashTable bucketInd
    rw [htable] at hs₁
    exact htrans _ _ _ (hflag s flag) (htrans _ _ _ (hbucket _ _ _ _ hs₁) (ih hrest))

/-- The sleep bit of a task. -/
def asleep (s : Sched) (task : Nat) : Bool := (s.tcb task).state.sleep

/-- Falling asleep and waking up keep `P`, a property of `sleepingTasksHashTable` and
the sleep bits. -/
structure SleepRule (P : Hashtable → (Nat → Bool) → Prop) : Prop where
  setFlag : ∀ {t asleep} (flag : Nat), P t asleep → P { t with validValueFlag := flag } asleep
  fallAsleep : ∀ {t asleep task}, task ≠ NULL → P t asleep →
    P (t.put task task .rejectMultipleValuesPerKey).1 (Function.update asleep task true)
  wake : ∀ {t asleep} (task : Nat), P t asleep →
    P (t.remove task).1 (Function.update asleep task false)

/-- The tables and heaps are intact. -/
structure Intact (P : Hashtable → (Nat → Bool) → Prop) (s : Sched) : Prop where
  reasons : s.waitingTasksHashTableReasonAsKey.WF
  waiters : s.waitingTasksHashTableTcbAsKey.WF
  active : s.activeTasksHashTable.Own
  inHeap : s.tasksInSchedulerHeapHashTable.WF
  sleeping : P s.sleepingTasksHashTable s.asleep
  schedulerHeap : s.schedulerHeap.Shaped
  sleepHeap : s.sleepHeap.Shaped

/-- From `s` to `s'`, what is intact stays so. -/
def Keeps (P : Hashtable → (Nat → Bool) → Prop) (s s' : Sched) : Prop := Intact P s → Intact P s'

theorem modifyTCB_setAsleep (s : Sched) (task : Nat) (f : TCB → TCB) :
    (s.modifyTCB task f).asleep =
      Function.update s.asleep task (f (s.tcb task)).state.sleep := by
  funext t
  unfold asleep
  rw [modifyTCB_tcb, Function.update_apply]
  split
  · rename_i h
    rw [h]
  · rfl

theorem modifyTCB_asleep (s : Sched) (task : Nat) {f : TCB → TCB}
    (hf : ∀ tcb, (f tcb).state.sleep = tcb.state.sleep) :
    (s.modifyTCB task f).asleep = s.asleep := by
  rw [modifyTCB_setAsleep, hf]
  exact Function.update_eq_self task s.asleep

namespace Keeps

variable {P : Hashtable → (Nat → Bool) → Prop} {s s' s'' : Sched} {task index : Nat}
  {memclusterInUse : Bool}

theorem refl (s : Sched) : Keeps P s s := id

theorem trans (h : Keeps P s s') (h' : Keeps P s' s'') : Keeps P s s'' := fun hs => h' (h hs)

/-- Fields beside the tables and heaps do not matter. -/
theorem of_eq (hreasons : s'.waitingTasksHashTableReasonAsKey = s.waitingTasksHashTableReasonAsKey)
    (hwaiters : s'.waitingTasksHashTableTcbAsKey = s.waitingTasksHashTableTcbAsKey)
    (hactive : s'.activeTasksHashTable = s.activeTasksHashTable)
    (hinHeap : s'.tasksInSchedulerHeapHashTable = s.tasksInSchedulerHeapHashTable)
    (hsleeping : s'.sleepingTasksHashTable = s.sleepingTasksHashTable)
    (hasleep : s'.asleep = s.asleep)
    (hheap : s'.schedulerHeap = s.schedulerHeap) (hsleepHeap : s'.sleepHeap = s.sleepHeap) :
    Keeps P s s' := fun h =>
  { reasons := hreasons ▸ h.reasons
    waiters := hwaiters ▸ h.waiters
    active := hactive ▸ h.active
    inHeap := hinHeap ▸ h.inHeap
    sleeping := by rw [hsleeping, hasleep]; exact h.sleeping
    schedulerHeap := hheap ▸ h.schedulerHeap
    sleepHeap := hsleepHeap ▸ h.sleepHeap }

/-- A write to a TCB that leaves the sleep bit alone. -/
theorem modifyTCB (s : Sched) (task : Nat) {f : TCB → TCB}
    (hf : ∀ tcb, (f tcb).state.sleep = tcb.state.sleep) : Keeps P s (s.modifyTCB task f) :=
  of_eq rfl rfl rfl rfl rfl (modifyTCB_asleep s task hf) rfl rfl

/-! ## Sleep -/

theorem returnToSchedulerHeap (s : Sched) (task : Nat) :
    Keeps P s (s.returnToSchedulerHeap task) := by
  intro h
  have hput : Intact P { s with
      tasksInSchedulerHeapHashTable :=
        (s.tasksInSchedulerHeapHashTable.put task task .rejectMultipleValuesPerKey).1 } :=
    { h with inHeap := Hashtable.put_wf h.inHeap _ _ _ }
  simp only [Sched.returnToSchedulerHeap]
  split
  · exact { hput with schedulerHeap := h.schedulerHeap.addNode _ _ }
  · exact hput

theorem leaveSchedulerHeap (s : Sched) (index task : Nat) :
    Keeps P s (s.leaveSchedulerHeap index task) := fun h =>
  { h with
    schedulerHeap := h.schedulerHeap.removeNodeAt index
    inHeap := Hashtable.remove_wf h.inHeap task }

theorem wakeSleeper (hP : SleepRule P) (s : Sched) (task : Nat) :
    Keeps P s (s.wakeSleeper task) := by
  intro h
  -- the sleep bit is cleared last: up to then, what will hold of it without the bit
  have hmoved : Intact (fun t asleep => P t (Function.update asleep task false))
      { s.modifyTCB task fun tcb => { tcb with data := s.ticks } with
        sleepingTasksHashTable := (s.sleepingTasksHashTable.remove task).1
        activeTasksHashTable :=
          (s.activeTasksHashTable.put task task .rejectMultipleValuesPerKey).1 } :=
    { h with
      sleeping := by
        have hasleep : (s.modifyTCB task fun tcb => { tcb with data := s.ticks }).asleep =
            s.asleep := modifyTCB_asleep s task fun _ => rfl
        have hwake := hP.wake task h.sleeping
        rw [← hasleep] at hwake
        exact hwake
      active := h.active.put _ _ }
  have hreturned := returnToSchedulerHeap _ task hmoved
  simp only [Sched.wakeSleeper]
  refine { hreturned with sleeping := ?_ }
  rw [modifyTCB_setAsleep]
  exact hreturned.sleeping

theorem updateSleepState (hP : SleepRule P) (s : Sched) (task : Nat) :
    Keeps P s (s.updateSleepState task).1 := by
  cases hsleep : (s.tcb task).state.sleep with
  | false =>
    rw [updateSleepState_awake hsleep]
    exact refl s
  | true =>
    have hflag : Keeps P s (s.noteRollover task) := of_eq rfl rfl rfl rfl rfl rfl rfl rfl
    rcases updateSleepState_sleeping hsleep with ⟨-, hs⟩ | ⟨-, hs⟩
    · rw [hs]
      exact hflag.trans (wakeSleeper hP _ task)
    · have hkeep : Keeps P (s.noteRollover task) ((s.noteRollover task).keepAsleep task
          (elapsedTicks (s.tcb task).data s.ticks)) := modifyTCB _ _ fun _ => rfl
      rw [hs]
      exact hflag.trans hkeep

/-! ## Removals from the scheduler heap -/

theorem removeIfWaiting (s : Sched) (index : Nat) : Keeps P s (s.removeIfWaiting index).1 := by
  simp only [Sched.removeIfWaiting]
  split
  · exact leaveSchedulerHeap s index _
  · exact refl s

theorem removeIfExit (memclusterInUse : Bool) (s : Sched) (index : Nat) :
    Keeps P s (s.removeIfExit memclusterInUse index).1 := by
  intro h
  have hleave := leaveSchedulerHeap s index (s.taskAt index) h
  simp only [Sched.removeIfExit]
  split
  · exact h
  · split
    · -- the task is freed, or goes to the list of completed ones
      have hremoved : Intact P { s.leaveSchedulerHeap index (s.taskAt index) with
          activeTasksHashTable := ((s.leaveSchedulerHeap index
            (s.taskAt index)).activeTasksHashTable.remove (s.taskAt index)).1 } :=
        { hleave with active := hleave.active.remove _ }
      split
      · exact { hremoved with }
      · split
        · dsimp only
          refine modifyTCB _ _ (fun _ => rfl) ?_
          exact { hremoved with }
        · exact { hremoved with }
    · exact h

theorem removeIfSleeping (hP : SleepRule P) (s : Sched) (index : Nat) :
    Keeps P s (s.removeIfSleeping index).1 := by
  intro h
  have hupdate := updateSleepState hP s (s.taskAt index) h
  simp only [Sched.removeIfSleeping]
  split
  · have hleave := leaveSchedulerHeap _ index (s.taskAt index) hupdate
    exact { hleave with sleepHeap := hleave.sleepHeap.addNode _ _ }
  · exact hupdate

theorem removeIfInactive (hP : SleepRule P) (memclusterInUse : Bool) (s : Sched) (index : Nat) :
    Keeps P s (s.removeIfInactive memclusterInUse index).1 := by
  have hexit : Keeps P _ _ := removeIfExit memclusterInUse s index
  simp only [Sched.removeIfInactive]
  split
  · rename_i hs
    rw [hs] at hexit
    exact hexit
  · rename_i s₁ hs
    rw [hs] at hexit
    have hwait : Keeps P _ _ := removeIfWaiting s₁ index
    split
    · rename_i hs'
      rw [hs'] at hwait
      exact hexit.trans hwait
    · rename_i s₂ hs'
      rw [hs'] at hwait
      exact hexit.trans (hwait.trans (removeIfSleeping hP s₂ index))

/-! ## The scheduler -/

theorem freeCompleted {fuel : Nat} (h : freeCompleted fuel s = some s') : Keeps P s s' := by
  obtain ⟨freed, rfl⟩ := freeCompleted_cases h
  exact of_eq rfl rfl rfl rfl rfl rfl rfl rfl

theorem updateBuckets (hP : SleepRule P) {fuel n bucketInd : Nat}
    (h : updateBuckets fuel n bucketInd s = some s') : Keeps P s s' :=
  updateBuckets_keeps refl (fun _ _ _ => trans)
    (fun _ flag hs => { hs with sleeping := hP.setFlag flag hs.sleeping })
    (fun s task => updateSleepState hP s task) h

theorem wakeLoop (hP : SleepRule P) (rounds : Nat) (s : Sched) :
    Keeps P s (Sched.wakeLoop rounds s) := by
  induction rounds generalizing s with
  | zero => exact refl s
  | succ rounds ih =>
    intro h
    have hremove := h.sleepHeap.removeNode
    simp only [Sched.wakeLoop]
    split
    · exact h
    · rename_i heap sleepingTask hs
      rw [hs] at hremove
      have hupdate := updateSleepState hP { s with sleepHeap := heap } sleepingTask
        { h with sleepHeap := hremove }
      split
      · exact { hupdate with sleepHeap := hupdate.sleepHeap.addNode _ _ }
      · exact ih _ hupdate

theorem beforeWake (hP : SleepRule P) {fuel : Nat}
    (h : s.beforeWake memclusterInUse fuel = some s') : Keeps P s s' := by
  obtain ⟨s₁, hfree, h⟩ := beforeWake_eq h
  have hkeeps : Keeps P s s₁ := by
    rcases hfree with rfl | hfree
    · exact refl _
    · exact freeCompleted hfree
  have hyield : Keeps P s₁ (s₁.modifyTCB s₁.currentTCB fun tcb =>
      { tcb with state := { tcb.state with yield := false } }) := modifyTCB _ _ fun _ => rfl
  have hswitch : Keeps P s₁ { s₁.modifyTCB s₁.currentTCB fun tcb =>
      { tcb with state := { tcb.state with yield := false } } with
      ticksSinceLastTaskSwitch := 0 } :=
    hyield.trans (of_eq rfl rfl rfl rfl rfl rfl rfl rfl)
  simp only [switchTask] at h
  split at h
  · obtain ⟨s₂, hbuckets, rfl⟩ := Option.map_eq_some_iff.mp h
    exact hkeeps.trans (hswitch.trans ((updateBuckets hP hbuckets).trans
      (of_eq rfl rfl rfl rfl rfl rfl rfl rfl)))
  · cases h
    exact hkeeps.trans hswitch

theorem scheduler (hP : SleepRule P) {rand : Nat → Nat} {fuel next : Nat}
    (h : s.scheduler memclusterInUse rand fuel = some (s', next)) : Keeps P s s' := by
  simp only [Sched.scheduler] at h
  split at h
  · cases h
    exact of_eq rfl rfl rfl rfl rfl rfl rfl rfl
  · simp only [Option.bind_eq_bind, Option.bind_eq_some_iff] at h
    obtain ⟨s₁, hbefore, h⟩ := h
    have hwoken : Keeps P s s₁.wakeSleepers := (beforeWake hP hbefore).trans (wakeLoop hP _ s₁)
    rw [afterWake_eq] at h
    exact hwoken.trans (afterWakeEach_keeps refl (fun _ _ _ => trans)
      (fun r _ => removeIfInactive hP r.memclusterInUse r.sched r.index) h)

theorem pendSV (hP : SleepRule P) {rand : Nat → Nat} {fuel : Nat}
    (h : s.pendSV memclusterInUse rand fuel = some s') : Keeps P s s' := by
  simp only [Sched.pendSV, Option.bind_eq_bind, Option.bind_eq_some_iff, Option.pure_def,
    Option.some.injEq] at h
  obtain ⟨⟨s₁, next⟩, hs, rfl⟩ := h
  exact (scheduler hP hs).trans (of_eq rfl rfl rfl rfl rfl rfl rfl rfl)

/-! ## The other callbacks -/

theorem inherits (hi : Inherits s s') : Keeps P s s' := by
  intro h
  obtain ⟨flag, hreasons⟩ := hi.reasons
  obtain ⟨flag', hinHeap⟩ := hi.inHeap
  have hheap : s'.schedulerHeap.Shaped := by
    refine Relation.ReflTransGen.head_induction_on
      (motive := fun heap _ => heap.Shaped → s'.schedulerHeap.Shaped) (hi.heap h.inHeap) id
      (fun hstep _ ih hshaped => ?_) h.schedulerHeap
    obtain ⟨task, value, -, rfl⟩ := hstep
    exact ih (((hshaped.indexOfContent task).removeNodeAt _).addNode task value)
  have hasleep : s'.asleep = s.asleep := by
    funext task
    obtain ⟨inherited, prev, acquired, htcb⟩ := hi.tcb task
    unfold asleep
    rw [htcb]
  have hsleeping : s'.sleepingTasksHashTable = s.sleepingTasksHashTable := by rw [hi.rest]
  have hactive : s'.activeTasksHashTable = s.activeTasksHashTable := by rw [hi.rest]
  have hwaiters : s'.waitingTasksHashTableTcbAsKey = s.waitingTasksHashTableTcbAsKey := by
    rw [hi.rest]
  have hsleepHeap : s'.sleepHeap = s.sleepHeap := by rw [hi.rest]
  exact
    { reasons := by rw [hreasons]; exact h.reasons.setFlag flag
      waiters := hwaiters ▸ h.waiters
      active := hactive ▸ h.active
      inHeap := by rw [hinHeap]; exact h.inHeap.setFlag flag'
      sleeping := by rw [hsleeping, hasleep]; exact h.sleeping
      schedulerHeap := hheap
      sleepHeap := hsleepHeap ▸ h.sleepHeap }

theorem addTask (s : Sched) (tcb taskPriority : Nat) : Keeps P s (s.addTask tcb taskPriority) := by
  intro h
  rcases addTask_cases s tcb taskPriority with hs | ⟨-, -, hs⟩
  · rw [hs]
    exact h
  · have hpriority : Intact P (s.modifyTCB tcb fun t => { t with priority := taskPriority }) :=
      modifyTCB _ _ (fun _ => rfl) h
    rw [hs]
    exact
      { hpriority with
        active := h.active.put _ _
        inHeap := Hashtable.put_wf h.inHeap _ _ _
        schedulerHeap := h.schedulerHeap.addNode _ _ }

theorem sleepCallback (hP : SleepRule P) (s : Sched) (tcb minSleepDuration : Nat) :
    Keeps P s (s.sleepCallback tcb minSleepDuration) := by
  intro h
  simp only [Sched.sleepCallback]
  split
  · exact h
  · split
    · rename_i hremoved
      -- an active task is not null
      have hnull : tcb ≠ NULL := by
        rintro rfl
        rcases h.active.remove_value NULL with hvalue | hvalue
        · exact hremoved hvalue
        · exact hremoved hvalue
      exact
        { h with
          active := h.active.remove _
          sleeping := by
            have hasleep := modifyTCB_setAsleep s tcb fun t =>
              { t with
                  state := { t.state with sleep := true }
                  data := s.ticks
                  data2 := minSleepDuration }
            have hslept := hP.fallAsleep hnull h.sleeping
            rw [← hasleep] at hslept
            exact hslept }
    · exact { h with active := h.active.remove _ }

theorem park (s : Sched) (reason : Nat) : Keeps P s (s.park reason) := by
  intro h
  simp only [Sched.park]
  refine modifyTCB _ _ (fun _ => rfl)
    { h with
      active := h.active.remove _
      reasons := Hashtable.put_wf h.reasons _ _ _
      waiters := ?_ }
  dsimp only
  split
  · exact Hashtable.put_wf h.waiters _ _ _
  · exact h.waiters

theorem waitCallback {fuel reason checkCode isReasonMutex : Nat}
    (h : s.waitCallback fuel reason checkCode isReasonMutex = some s') : Keeps P s s' := by
  simp only [Sched.waitCallback] at h
  split at h
  · cases h
    exact refl s
  · split at h
    · exact (park s reason).trans (inherits (updatePriorityInheritance_inherits h))
    · cases h
      exact park s reason

theorem unpark (s : Sched) (task : Nat) : Keeps P s (s.unpark task) := by
  have hput : Keeps P s { s with
      activeTasksHashTable :=
        (s.activeTasksHashTable.put task task .rejectMultipleValuesPerKey).1 } :=
    fun h => { h with active := h.active.put _ _ }
  simp only [Sched.unpark]
  refine hput.trans (Keeps.trans ?_ (returnToSchedulerHeap _ task))
  split
  · exact modifyTCB _ _ fun _ => rfl
  · exact refl _

theorem wakeAll (s : Sched) (reason : Nat) : Keeps P s (s.wakeAll reason) := by
  have hloop : ∀ rounds s, Keeps P s (wakeWaiting reason rounds s) := by
    intro rounds
    induction rounds with
    | zero => exact fun s => refl s
    | succ rounds ih =>
      intro s
      have htake : Keeps P s (s.takeWaiting reason).1 := fun h =>
        { h with
          reasons := Hashtable.remove_wf h.reasons reason
          waiters := Hashtable.remove_wf h.waiters _ }
      simp only [wakeWaiting]
      split
      · exact htake
      · exact htake.trans ((unpark _ _).trans (ih _))
  exact hloop _ s

theorem notifyCallback {fuel reason : Nat} (h : s.notifyCallback fuel reason = some s') :
    Keeps P s s' :=
  (wakeAll s reason).trans (inherits (notifyCallback_inherits h))

end Keeps

/-! ## Runs -/

/-- A callback of the scheduler with any arguments, or anything that the tasks
and the hardware do to the memory. -/
inductive Callback where
  | memory (tcb : Nat → TCB) (mutexes : Nat → Mutex) (currentTCB ticks : Nat)
  | scheduler (switch : TaskSwitch)
  | addTask (tcb taskPriority : Nat)
  | taskExit (tcb : Nat)
  | wait (fuel reason checkCode isReasonMutex : Nat)
  | notify (fuel reason : Nat)
  | sleep (tcb minSleepDuration : Nat)
  | resourceAcquired (acquiredMutex : Nat)

/-- The state after a callback. -/
def callback (s : Sched) : Callback → Option Sched
  | .memory tcb mutexes currentTCB ticks => some { s with tcb, mutexes, currentTCB, ticks }
  | .scheduler switch => s.pendSV switch.memclusterInUse switch.rand switch.fuel
  | .addTask tcb taskPriority => some (s.addTask tcb taskPriority)
  | .taskExit tcb => some (s.taskExit tcb)
  | .wait fuel reason checkCode isReasonMutex =>
    s.waitCallback fuel reason checkCode isReasonMutex
  | .notify fuel reason => s.nextCheckCode.notifyCallback fuel reason
  | .sleep tcb minSleepDuration => some (s.sleepCallback tcb minSleepDuration)
  | .resourceAcquired acquiredMutex => some (s.resourceAcquired acquiredMutex)

/-- The scheduler has just been initialised. -/
def FreshlyBooted (N : Nat) (s : Sched) : Prop :=
  ∃ tcb mutexes currentTCB idleTCB ticks values flags nodes,
    s = initializeScheduler N tcb mutexes currentTCB idleTCB ticks values flags nodes

/-- The step lemma. A write to the memory has to keep the property of the sleep
bits. -/
theorem Keeps.callback {P : Hashtable → (Nat → Bool) → Prop} (hP : SleepRule P) {s s' : Sched}
    {e : Callback}
    (hmemory : ∀ tcb mutexes currentTCB ticks, e = .memory tcb mutexes currentTCB ticks →
      P s.sleepingTasksHashTable s.asleep →
        P s.sleepingTasksHashTable fun task => (tcb task).state.sleep)
    (h : s.callback e = some s') : Keeps P s s' := by
  cases e with
  | memory tcb mutexes currentTCB ticks =>
    cases h
    exact fun hs => { hs with sleeping := hmemory tcb mutexes currentTCB ticks rfl hs.sleeping }
  | scheduler switch => exact .pendSV hP h
  | addTask tcb taskPriority =>
    cases h
    exact .addTask s tcb taskPriority
  | taskExit tcb =>
    cases h
    exact .modifyTCB s tcb fun _ => rfl
  | wait fuel reason checkCode isReasonMutex => exact .waitCallback h
  | notify fuel reason =>
    have hcode : Keeps P s s.nextCheckCode := .of_eq rfl rfl rfl rfl rfl rfl rfl rfl
    exact hcode.trans (.notifyCallback h)
  | sleep tcb minSleepDuration =>
    cases h
    exact .sleepCallback hP s tcb minSleepDuration
  | resourceAcquired acquiredMutex =>
    cases h
    exact .inherits (resourceAcquired_inherits s acquiredMutex)

/-- At the start the tables and heaps are empty. -/
theorem FreshlyBooted.intact {P : Hashtable → (Nat → Bool) → Prop} {N : Nat} (hN : 0 < N)
    (hmax : N ≤ UINT32_MAX) {s : Sched} (h : FreshlyBooted N s)
    (hP : P s.sleepingTasksHashTable s.asleep) : Intact P s := by
  obtain ⟨tcb, mutexes, currentTCB, idleTCB, ticks, values, flags, nodes, rfl⟩ := h
  have htable : ∀ memory flag, (Hashtable.newHashtable WAIT_HASHTABLE_CAPACITY
      NUM_BUCKETS_FOR_WAIT_HASHTABLE memory flag).WF := fun memory flag =>
    Hashtable.newHashtable_wf (by decide) (by decide) memory flag
  have hheap : ∀ lookup memory table flag,
      (MinHeap.newHeap N lookup memory table flag).Shaped := fun lookup memory table flag =>
    .of_wf (MinHeap.newHeap_wf hN hmax lookup memory table flag)
  exact ⟨htable _ _, htable _ _, ⟨htable _ _, by simp [initializeScheduler]⟩, htable _ _, hP,
    hheap _ _ _ _, hheap _ _ _ _⟩

end Sched

/-- The runs of a scheduler with heaps of size `N` whose callbacks are called in
any order with any arguments. -/
def callbackMachine (N : Nat) : Machine Sched Sched.Callback where
  init := Sched.FreshlyBooted N
  step := Sched.callback

namespace Sched

/-- In every run the tables and heaps stay intact. -/
theorem reach_intact {N : Nat} (hN : 0 < N) (hmax : N ≤ UINT32_MAX) {s : Sched}
    (h : (callbackMachine N).Reach s) : Intact (fun t _ => t.WF) s := by
  have hP : SleepRule fun t _ => t.WF :=
    { setFlag := fun flag h => h.setFlag flag
      fallAsleep := fun _ h => Hashtable.put_wf h _ _ _
      wake := fun task h => Hashtable.remove_wf h task }
  refine Machine.Reach.invariant (P := Intact fun t _ => t.WF) ?_
    (fun _ _ _ hs hstep => Keeps.callback hP (fun _ _ _ _ _ h => h) hstep hs) h
  intro s hs
  refine hs.intact hN hmax ?_
  obtain ⟨tcb, mutexes, currentTCB, idleTCB, ticks, values, flags, nodes, rfl⟩ := hs
  exact Hashtable.newHashtable_wf (by decide) (by decide) _ _

end Sched

end DocetOS
