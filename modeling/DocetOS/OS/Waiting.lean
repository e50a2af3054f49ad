import DocetOS.OS.Scheduler
import DocetOS.DataStructures.HashtableSpec

/-!
# What the wait and notify callbacks change

`waitCallback` parks the current task and then recomputes the priority the
owner of the mutex inherits; `notifyCallback` wakes every task that waits for
the reason, takes the reason out of the list of acquired mutexes and recomputes
too. The two parts meet different needs:

- `Inherits s s'` is all that priority inheritance can change: the inherited
  priorities, the lists of acquired mutexes, the flags of two tables and the
  places of tasks in the scheduler heap.
- `Parked s` is the invariant of the waiting tasks: each is in the table once,
  with its WAIT bit set. `park` adds the current task, `wakeAll` removes exactly
  the tasks that wait for the reason.
-/

namespace DocetOS

open Hashtable

namespace Sched

/-- The reasons and the tasks that wait for them. -/
def waiting (s : Sched) : Multiset (Nat × Nat) := s.waitingTasksHashTableReasonAsKey.content

/-! ## Priority inheritance -/

/-- `h'` is `h` after a task that is in `keys` has been removed and added again. -/
def Readded (keys : Multiset (Nat × Nat)) (h h' : MinHeap) : Prop :=
  ∃ task value, (∃ v, (task, v) ∈ keys) ∧
    h' = ((((h.indexOfContent task).1.removeNodeAt (h.indexOfContent task).2).1).addNode
      task value).1

/-- What priority inheritance may change. -/
structure Inherits (s s' : Sched) : Prop where
  rest : s' = { s with
    tcb := s'.tcb
    mutexes := s'.mutexes
    schedulerHeap := s'.schedulerHeap
    waitingTasksHashTableReasonAsKey := s'.waitingTasksHashTableReasonAsKey
    tasksInSchedulerHeapHashTable := s'.tasksInSchedulerHeapHashTable }
  tcb : ∀ task, ∃ inherited prev acquired, s'.tcb task = { s.tcb task with
    inheritedPriority := inherited
    prevInheritedPriority := prev
    acquiredResourcesLinkedList := acquired }
  mutexes : ∀ mutex, ∃ next,
    s'.mutexes mutex = { s.mutexes mutex with nextAcquiredResource := next }
  reasons : ∃ flag, s'.waitingTasksHashTableReasonAsKey =
    { s.waitingTasksHashTableReasonAsKey with validValueFlag := flag }
  inHeap : ∃ flag, s'.tasksInSchedulerHeapHashTable =
    { s.tasksInSchedulerHeapHashTable with validValueFlag := flag }
  heap : s.tasksInSchedulerHeapHashTable.WF →
    Relation.ReflTransGen (Readded s.tasksInSchedulerHeapHashTable.content)
      s.schedulerHeap s'.schedulerHeap

namespace Inherits

variable {s s' s'' : Sched}

theorem refl (s : Sched) : Inherits s s where
  rest := rfl
  tcb _ := ⟨_, _, _, rfl⟩
  mutexes _ := ⟨_, rfl⟩
  reasons := ⟨_, rfl⟩
  inHeap := ⟨_, rfl⟩
  heap _ := .refl

theorem trans (h : Inherits s s') (h' : Inherits s' s'') : Inherits s s'' where
  rest := by
    have hrest' := h'.rest
    rw [h.rest] at hrest'
    exact hrest'
  tcb task := by
    obtain ⟨_, _, _, ht⟩ := h.tcb task
    obtain ⟨i, p, a, ht'⟩ := h'.tcb task
    exact ⟨i, p, a, by rw [ht', ht]⟩
  mutexes mutex := by
    obtain ⟨_, hm⟩ := h.mutexes mutex
    obtain ⟨n, hm'⟩ := h'.mutexes mutex
    exact ⟨n, by rw [hm', hm]⟩
  reasons := by
    obtain ⟨_, hr⟩ := h.reasons
    obtain ⟨f, hr'⟩ := h'.reasons
    exact ⟨f, by rw [hr', hr]⟩
  inHeap := by
    obtain ⟨_, hr⟩ := h.inHeap
    obtain ⟨f, hr'⟩ := h'.inHeap
    exact ⟨f, by rw [hr', hr]⟩
  heap hwf := by
    obtain ⟨f, hr⟩ := h.inHeap
    have hwf' : s'.tasksInSchedulerHeapHashTable.WF := by
      rw [hr]
      exact hwf.setFlag f
    have hheap' := h'.heap hwf'
    rw [hr] at hheap'
    exact (h.heap hwf).trans hheap'

theorem currentTCB (h : Inherits s s') : s'.currentTCB = s.currentTCB := by
  rw [h.rest]

theorem checkCode (h : Inherits s s') : s'.checkCode = s.checkCode := by
  rw [h.rest]

theorem state (h : Inherits s s') (task : Nat) : (s'.tcb task).state = (s.tcb task).state := by
  obtain ⟨_, _, _, ht⟩ := h.tcb task
  rw [ht]

theorem waiting (h : Inherits s s') : s'.waiting = s.waiting := by
  obtain ⟨_, hr⟩ := h.reasons
  unfold Sched.waiting
  rw [hr]
  rfl

end Inherits

theorem getNthValueAtKey_table (t : Hashtable) (k n : Nat) :
    ∃ flag, (t.getNthValueAtKey k n).1 = { t with validValueFlag := flag } := by
  unfold getNthValueAtKey
  split
  · exact ⟨1, rfl⟩
  · exact ⟨0, rfl⟩

theorem highestWaiting_table (s : Sched) (mutex rounds n : Nat) (table : Hashtable)
    (highestPriority : Nat) :
    ∃ flag, (s.highestWaiting mutex rounds n table highestPriority).1 =
      { table with validValueFlag := flag } := by
  induction rounds generalizing n table highestPriority with
  | zero => exact ⟨_, rfl⟩
  | succ rounds ih =>
    obtain ⟨flag, ht⟩ := getNthValueAtKey_table table mutex n
    simp only [highestWaiting]
    split
    · obtain ⟨flag', ht'⟩ := ih (n + 1) (table.getNthValueAtKey mutex n).1 _
      exact ⟨flag', by rw [ht', ht]⟩
    · exact ⟨flag, ht⟩

theorem highestInherited_table (s : Sched) {fuel acquiredMutex highestPriority priority : Nat}
    {table table' : Hashtable}
    (h : s.highestInherited fuel table acquiredMutex highestPriority = some (table', priority)) :
    ∃ flag, table' = { table with validValueFlag := flag } := by
  induction fuel generalizing table acquiredMutex highestPriority with
  | zero => cases h
  | succ fuel ih =>
    simp only [highestInherited] at h
    split at h
    · simp only [Option.some.injEq, Prod.mk.injEq] at h
      exact ⟨_, h.1.symm⟩
    · obtain ⟨_, ht⟩ := s.highestWaiting_table acquiredMutex (table.maximumCapacity + 1) 0 table
        highestPriority
      obtain ⟨flag, ht'⟩ := ih h
      exact ⟨flag, by rw [ht', ht]⟩

section Steps

variable {s s' : Sched}

theorem inherits_modifyTCB (task : Nat) {f : TCB → TCB}
    (hf : ∀ tcb, ∃ inherited prev acquired, f tcb = { tcb with
      inheritedPriority := inherited
      prevInheritedPriority := prev
      acquiredResourcesLinkedList := acquired }) : Inherits s (s.modifyTCB task f) :=
  { Inherits.refl s with
    rest := rfl
    tcb := fun task' => by
      by_cases h : task' = task
      · subst h
        simpa [modifyTCB] using hf (s.tcb task')
      · exact ⟨_, _, _, by simp only [modifyTCB, Function.update_of_ne h]; rfl⟩ }

theorem inherits_modifyMutex (mutex : Nat) {f : Mutex → Mutex}
    (hf : ∀ m, ∃ next, f m = { m with nextAcquiredResource := next }) :
    Inherits s (s.modifyMutex mutex f) :=
  { Inherits.refl s with
    rest := rfl
    mutexes := fun mutex' => by
      by_cases h : mutex' = mutex
      · subst h
        simpa [modifyMutex] using hf (s.mutexes mutex')
      · exact ⟨_, by simp only [modifyMutex, Function.update_of_ne h]; rfl⟩ }

theorem inherits_readd {task : Nat} (value : Nat)
    (h : s.tasksInSchedulerHeapHashTable.WF →
      ∃ v, (task, v) ∈ s.tasksInSchedulerHeapHashTable.content) :
    Inherits s (s.readdToSchedulerHeap task value) :=
  { Inherits.refl s with
    rest := rfl
    heap := fun hwf => .single ⟨task, value, h hwf, rfl⟩ }

/-- When the flag `isActiveAndInHeap` is set, the task is in the table. -/
def MayReadd (s : Sched) (task : Nat) (isActiveAndInHeap : Bool) : Prop :=
  isActiveAndInHeap = true → s.tasksInSchedulerHeapHashTable.WF →
    ∃ v, (task, v) ∈ s.tasksInSchedulerHeapHashTable.content

variable {task : Nat} {isActiveAndInHeap : Bool}

theorem Inherits.mayReadd (h : Inherits s s') (hm : s.MayReadd task isActiveAndInHeap) :
    s'.MayReadd task isActiveAndInHeap := by
  obtain ⟨_, htable⟩ := h.inHeap
  intro hadd hwf
  rw [htable] at hwf ⊢
  exact hm hadd (hwf.setFlag s.tasksInSchedulerHeapHashTable.validValueFlag)

theorem setInheritedPriority_inherits (highestPriority : Nat)
    (h : s.MayReadd task isActiveAndInHeap) :
    Inherits s (s.setInheritedPriority task highestPriority isActiveAndInHeap) := by
  unfold setInheritedPriority
  split
  · exact inherits_modifyTCB task fun tcb => ⟨_, _, _, rfl⟩
  · refine Inherits.trans ?_ (inherits_modifyTCB task fun tcb => ⟨_, _, _, rfl⟩)
    split
    · rename_i hadd
      exact inherits_readd _ (h hadd.2)
    · exact .refl s

theorem moveToInheritedPriority_inherits (h : s.MayReadd task isActiveAndInHeap) :
    Inherits s (s.moveToInheritedPriority task isActiveAndInHeap) := by
  simp only [moveToInheritedPriority]
  split
  · rename_i hadd
    exact inherits_readd _ (h hadd.1)
  · exact .refl s

/-- A lookup that finds a value finds one of the pairs. -/
theorem mem_of_get {t : Hashtable} {k : Nat} (hwf : t.WF)
    (h : (t.get k).1.validValueFlag ≠ 0) : ∃ v, (k, v) ∈ t.content := by
  by_contra hk
  rw [get_of_not_mem hwf fun w hw => hk ⟨w, hw⟩] at h
  exact h rfl

/-- What `__updatePriorityInheritance` changes. -/
theorem updatePriorityInheritance_inherits {fuel : Nat}
    (h : s.updatePriorityInheritance fuel task = some s') : Inherits s s' := by
  simp only [updatePriorityInheritance, Option.bind_eq_bind, Option.bind_eq_some_iff,
    Option.pure_def, Option.some.injEq] at h
  obtain ⟨⟨table, highestPriority⟩, hhigh, rfl⟩ := h
  obtain ⟨flag, hreasons⟩ := s.highestInherited_table hhigh
  obtain ⟨flag', hinHeap⟩ := get_table s.tasksInSchedulerHeapHashTable task
  have hmem : s.MayReadd task (decide ((s.tasksInSchedulerHeapHashTable.get task).2 ≠ 0 ∧
      (s.tasksInSchedulerHeapHashTable.get task).1.validValueFlag ≠ 0)) := by
    intro hadd hwf
    exact mem_of_get hwf (of_decide_eq_true hadd).2
  -- the two lookups only set flags
  have hlookups : Inherits s { s with
      waitingTasksHashTableReasonAsKey := table
      tasksInSchedulerHeapHashTable := (s.tasksInSchedulerHeapHashTable.get task).1 } :=
    { Inherits.refl s with
      rest := rfl
      reasons := ⟨flag, hreasons⟩
      inHeap := ⟨flag', hinHeap⟩
      heap := fun _ => .refl }
  have hset := hlookups.trans
    (setInheritedPriority_inherits highestPriority (hlookups.mayReadd hmem))
  exact hset.trans (moveToInheritedPriority_inherits (hset.mayReadd hmem))

/-- What the last part of `notifyCallback` changes. -/
theorem dropAcquired_inherits {reason fuel prevAcquiredMutex acquiredMutex : Nat}
    (h : dropAcquired reason fuel s prevAcquiredMutex acquiredMutex = some s') :
    Inherits s s' := by
  induction fuel generalizing prevAcquiredMutex acquiredMutex with
  | zero => cases h
  | succ fuel ih =>
    simp only [dropAcquired] at h
    split at h
    · cases h
      exact .refl s
    · split at h
      · refine Inherits.trans (Inherits.trans ?_ (inherits_modifyMutex acquiredMutex
          fun m => ⟨_, rfl⟩)) (updatePriorityInheritance_inherits h)
        split
        · exact inherits_modifyMutex _ fun m => ⟨_, rfl⟩
        · exact inherits_modifyTCB _ fun tcb => ⟨_, _, _, rfl⟩
      · exact ih h

/-- A nested acquire links nothing. -/
theorem resourceAcquired_nested {acquiredMutex : Nat}
    (h : (s.mutexes acquiredMutex).counter ≠ 0) : s.resourceAcquired acquiredMutex = s := by
  simp only [resourceAcquired]
  exact if_pos (.inl h)

/-- What `resourceAcquired_callback` changes. -/
theorem resourceAcquired_inherits (s : Sched) (acquiredMutex : Nat) :
    Inherits s (s.resourceAcquired acquiredMutex) := by
  simp only [resourceAcquired]
  split
  · exact .refl s
  · split
    · exact .refl s
    · exact (inherits_modifyTCB _ fun tcb => ⟨_, _, _, rfl⟩).trans
        (inherits_modifyMutex _ fun m => ⟨_, rfl⟩)

end Steps

/-! ## Parking and waking tasks -/

/-- The tasks in the waiting table: each is there once and has its WAIT bit set. -/
structure Parked (s : Sched) : Prop where
  wf : s.waitingTasksHashTableReasonAsKey.WF
  once : (s.waiting.map Prod.snd).Nodup
  wait : ∀ reason task, (reason, task) ∈ s.waiting → (s.tcb task).state.wait = true
  not_null : ∀ reason task, (reason, task) ∈ s.waiting → task ≠ NULL

theorem Parked.of_none (hwf : s.waitingTasksHashTableReasonAsKey.WF) (hnone : s.waiting = 0) :
    Parked s where
  wf := hwf
  once := by simp [hnone]
  wait := by simp [hnone]
  not_null := by simp [hnone]

/-- What waking tasks may change. -/
structure Wakes (s s' : Sched) : Prop where
  rest : s' = { s with
    tcb := s'.tcb
    schedulerHeap := s'.schedulerHeap
    waitingTasksHashTableReasonAsKey := s'.waitingTasksHashTableReasonAsKey
    waitingTasksHashTableTcbAsKey := s'.waitingTasksHashTableTcbAsKey
    activeTasksHashTable := s'.activeTasksHashTable
    tasksInSchedulerHeapHashTable := s'.tasksInSchedulerHeapHashTable }
  tcb : ∀ task, s'.tcb task = s.tcb task ∨
    s'.tcb task = { s.tcb task with state := { (s.tcb task).state with wait := false } }

section Park

variable {s s' s'' : Sched} {reason task : Nat}

theorem Wakes.refl (s : Sched) : Wakes s s := ⟨rfl, fun _ => .inl rfl⟩

theorem Wakes.trans (h : Wakes s s') (h' : Wakes s' s'') : Wakes s s'' where
  rest := by
    have hrest' := h'.rest
    rw [h.rest] at hrest'
    exact hrest'
  tcb task := by
    rcases h.tcb task with ht | ht <;> rcases h'.tcb task with ht' | ht' <;> rw [ht', ht] <;> simp

/-- The current task joins the waiting tasks, if the table has room. -/
theorem park_waiting (h : s.waitingTasksHashTableReasonAsKey.WF) (reason : Nat) :
    (s.park reason).waitingTasksHashTableReasonAsKey.WF ∧
      ((s.park reason).waiting = s.waiting ∨
        (s.park reason).waiting = (reason, s.currentTCB) ::ₘ s.waiting) := by
  have htable : (s.park reason).waitingTasksHashTableReasonAsKey =
      (s.waitingTasksHashTableReasonAsKey.put reason s.currentTCB
        .rejectMultipleIdenticalValuesPerKey).1 := rfl
  unfold waiting
  rw [htable]
  rcases put_cases h reason s.currentTCB .rejectMultipleIdenticalValuesPerKey with
    hput | ⟨t', hput, hwf, hcontent, -⟩
  · rw [hput]
    exact ⟨h, .inl rfl⟩
  · rw [hput]
    exact ⟨hwf, .inr hcontent⟩

@[simp] theorem park_tcb (s : Sched) (reason task : Nat) :
    (s.park reason).tcb task =
      if task = s.currentTCB then
        { s.tcb task with state := { (s.tcb task).state with wait := true } }
      else s.tcb task := by
  by_cases h : task = s.currentTCB
  · subst h
    simp [park, modifyTCB]
  · simp [park, modifyTCB, h]

/-- A task that is not waiting may wait. -/
theorem Parked.park (h : Parked s) (hcurrent : s.currentTCB ≠ NULL)
    (hwait : (s.tcb s.currentTCB).state.wait = false) (reason : Nat) :
    Parked (s.park reason) := by
  -- a task that is not waiting is in no entry of the table
  have hnew : ∀ r, (r, s.currentTCB) ∉ s.waiting := by
    intro r hr
    have := h.wait r _ hr
    rw [hwait] at this
    cases this
  obtain ⟨hwf, hcontent⟩ := park_waiting h.wf reason
  refine { wf := hwf, once := ?_, wait := ?_, not_null := ?_ }
  · rcases hcontent with hcontent | hcontent
    · rw [hcontent]
      exact h.once
    · rw [hcontent, Multiset.map_cons, Multiset.nodup_cons]
      refine ⟨?_, h.once⟩
      intro hmem
      obtain ⟨⟨r, t⟩, hrt, ht⟩ := Multiset.mem_map.mp hmem
      simp only at ht
      exact hnew r (ht ▸ hrt)
  · intro r t hrt
    rw [park_tcb]
    split
    · rfl
    · rename_i hne
      rcases hcontent with hcontent | hcontent
      · exact h.wait r t (hcontent ▸ hrt)
      · rw [hcontent, Multiset.mem_cons, Prod.mk.injEq] at hrt
        exact h.wait r t (hrt.resolve_left fun heq => hne heq.2)
  · intro r t hrt
    rcases hcontent with hcontent | hcontent
    · exact h.not_null r t (hcontent ▸ hrt)
    · rw [hcontent, Multiset.mem_cons, Prod.mk.injEq] at hrt
      rcases hrt with ⟨-, rfl⟩ | hrt
      · exact hcurrent
      · exact h.not_null r t hrt

theorem Parked.inherits (h : Parked s) (hi : Inherits s s') : Parked s' := by
  obtain ⟨flag, htable⟩ := hi.reasons
  refine { wf := ?_, once := ?_, wait := ?_, not_null := ?_ }
  · rw [htable]
    exact h.wf.setFlag flag
  · rw [hi.waiting]
    exact h.once
  · intro r t hrt
    rw [hi.waiting] at hrt
    rw [hi.state]
    exact h.wait r t hrt
  · intro r t hrt
    rw [hi.waiting] at hrt
    exact h.not_null r t hrt

theorem returnToSchedulerHeap_rest (s : Sched) (task : Nat) :
    s.returnToSchedulerHeap task = { s with
      schedulerHeap := (s.returnToSchedulerHeap task).schedulerHeap
      tasksInSchedulerHeapHashTable :=
        (s.returnToSchedulerHeap task).tasksInSchedulerHeapHashTable } := by
  simp only [returnToSchedulerHeap]
  split <;> rfl

theorem unpark_rest (s : Sched) (task : Nat) :
    s.unpark task = { s with
      tcb := (s.unpark task).tcb
      schedulerHeap := (s.unpark task).schedulerHeap
      activeTasksHashTable := (s.unpark task).activeTasksHashTable
      tasksInSchedulerHeapHashTable := (s.unpark task).tasksInSchedulerHeapHashTable } := by
  simp only [unpark]
  split
  · rw [returnToSchedulerHeap_rest]
    rfl
  · rw [returnToSchedulerHeap_rest]

theorem unpark_tcb (s : Sched) (task t : Nat) :
    (s.unpark task).tcb t = s.tcb t ∨
      t = task ∧ (s.unpark task).tcb t =
        { s.tcb t with state := { (s.tcb t).state with wait := false } } := by
  simp only [unpark]
  rw [returnToSchedulerHeap_rest]
  split
  · by_cases h : t = task
    · subst h
      exact .inr ⟨rfl, by simp [modifyTCB]⟩
    · exact .inl (by simp [modifyTCB, h])
  · exact .inl rfl

/-- A task that is not active becomes active and loses its WAIT bit. -/
theorem unpark_of_put {table : Hashtable}
    (hput : s.activeTasksHashTable.put task task .rejectMultipleValuesPerKey = (table, 1)) :
    (s.unpark task).activeTasksHashTable = table ∧
      (s.unpark task).tcb = Function.update s.tcb task
        { s.tcb task with state := { (s.tcb task).state with wait := false } } := by
  simp only [unpark, hput]
  rw [returnToSchedulerHeap_rest]
  exact ⟨rfl, rfl⟩

theorem takeWaiting_of_mem (hwf : s.waitingTasksHashTableReasonAsKey.WF)
    (h : ∃ task, (reason, task) ∈ s.waiting) :
    ∃ reasons task, s.takeWaiting reason =
        ({ s with
            waitingTasksHashTableReasonAsKey := reasons
            waitingTasksHashTableTcbAsKey := (s.waitingTasksHashTableTcbAsKey.remove task).1 },
          task) ∧
      reasons.WF ∧ (reason, task) ::ₘ reasons.content = s.waiting ∧
      reasons.maximumCapacity = s.waitingTasksHashTableReasonAsKey.maximumCapacity := by
  obtain ⟨reasons, task, hremove, hwf', hcontent, -, -, hcapacity⟩ := remove_of_mem hwf h
  refine ⟨reasons, task, ?_, hwf', hcontent, hcapacity⟩
  simp only [takeWaiting, hremove]

theorem takeWaiting_of_not_mem (hwf : s.waitingTasksHashTableReasonAsKey.WF)
    (h : ∀ task, (reason, task) ∉ s.waiting) :
    s.takeWaiting reason =
      ({ s with
          waitingTasksHashTableReasonAsKey :=
            { s.waitingTasksHashTableReasonAsKey with validValueFlag := 0 }
          waitingTasksHashTableTcbAsKey := (s.waitingTasksHashTableTcbAsKey.remove NULL).1 },
        NULL) := by
  simp only [takeWaiting, remove_of_not_mem hwf h]

/-- The rule for the loop of `notifyCallback`: what holds before it and is kept
when one task is taken and woken, and by the last round, which finds none,
holds after it; and then nobody waits for the reason. -/
theorem wakeAll_rule {P : Sched → Prop}
    (hparked : ∀ s, P s → s.waitingTasksHashTableReasonAsKey.WF ∧
      ∀ task, (reason, task) ∈ s.waiting → task ≠ NULL)
    (hwake : ∀ s task, P s → (s.takeWaiting reason).2 = task → (reason, task) ∈ s.waiting →
      P ((s.takeWaiting reason).1.unpark task))
    (hlast : ∀ s, P s → (∀ task, (reason, task) ∉ s.waiting) → P (s.takeWaiting reason).1)
    (h : P s) :
    P (s.wakeAll reason) ∧ ∀ task, (reason, task) ∉ (s.wakeAll reason).waiting := by
  -- a round removes a pair, and the table holds fewer pairs than there are rounds
  suffices hloop : ∀ rounds s, P s → s.waiting.card < rounds →
      P (wakeWaiting reason rounds s) ∧
        ∀ task, (reason, task) ∉ (wakeWaiting reason rounds s).waiting by
    refine hloop _ s h ?_
    have hcard := (hparked s h).1.card_content
    show s.waitingTasksHashTableReasonAsKey.content.card < _
    omega
  intro rounds
  induction rounds with
  | zero => exact fun s _ hcard => absurd hcard (Nat.not_lt_zero _)
  | succ rounds ih =>
    intro s hs hcard
    obtain ⟨hwf, hnull⟩ := hparked s hs
    by_cases hmem : ∃ task, (reason, task) ∈ s.waiting
    · obtain ⟨reasons, task, htake, -, hcontent, -⟩ := takeWaiting_of_mem hwf hmem
      have htask : (reason, task) ∈ s.waiting := hcontent ▸ Multiset.mem_cons_self _ _
      have hstep := hwake s task hs (by rw [htake]) htask
      simp only [wakeWaiting, htake, if_neg (hnull task htask)] at hstep ⊢
      refine ih _ hstep ?_
      rw [← hcontent, Multiset.card_cons] at hcard
      unfold waiting
      rw [unpark_rest]
      exact Nat.lt_of_succ_lt_succ hcard
    · have hnone : ∀ task, (reason, task) ∉ s.waiting := fun task ht => hmem ⟨task, ht⟩
      have hstep := hlast s hs hnone
      rw [takeWaiting_of_not_mem hwf hnone] at hstep
      simp only [wakeWaiting, takeWaiting_of_not_mem hwf hnone, if_pos]
      exact ⟨hstep, hnone⟩

theorem unpark_wakes (s : Sched) (task : Nat) : Wakes s (s.unpark task) where
  rest := by rw [unpark_rest]
  tcb t := (unpark_tcb s task t).imp id And.right

theorem wakeAll_wakes (s : Sched) (reason : Nat) : Wakes s (s.wakeAll reason) := by
  have hloop : ∀ rounds s, Wakes s (wakeWaiting reason rounds s) := by
    intro rounds
    induction rounds with
    | zero => exact fun s => .refl s
    | succ rounds ih =>
      intro s
      have htake : Wakes s (s.takeWaiting reason).1 := ⟨rfl, fun _ => .inl rfl⟩
      simp only [wakeWaiting]
      split
      · exact htake
      · exact (htake.trans (unpark_wakes _ _)).trans (ih _)
  exact hloop _ s

/-- Taking a task and waking it keeps the others parked. -/
theorem Parked.wake (h : Parked s) (hmem : (reason, task) ∈ s.waiting)
    (htask : (s.takeWaiting reason).2 = task) :
    Parked ((s.takeWaiting reason).1.unpark task) ∧
      (reason, task) ::ₘ ((s.takeWaiting reason).1.unpark task).waiting = s.waiting := by
  obtain ⟨reasons, task', htake, hwf, hcontent, -⟩ := takeWaiting_of_mem h.wf ⟨task, hmem⟩
  rw [htake] at htask ⊢
  simp only at htask
  subst htask
  set s₁ : Sched := { s with
    waitingTasksHashTableReasonAsKey := reasons
    waitingTasksHashTableTcbAsKey := (s.waitingTasksHashTableTcbAsKey.remove task').1 }
  have hwaiting : (s₁.unpark task').waiting = reasons.content := by
    unfold waiting
    rw [unpark_rest]
  have hsub : ∀ p ∈ reasons.content, p ∈ s.waiting := by
    intro p hp
    rw [← hcontent]
    exact Multiset.mem_cons_of_mem hp
  -- the task waited once, so it waits for nothing any more
  have honce := h.once
  rw [← hcontent, Multiset.map_cons, Multiset.nodup_cons] at honce
  refine ⟨{ wf := ?_, once := ?_, wait := ?_, not_null := ?_ }, ?_⟩
  · rw [unpark_rest]
    exact hwf
  · rw [hwaiting]
    exact honce.2
  · intro r t hrt
    rw [hwaiting] at hrt
    have hne : t ≠ task' := by
      intro heq
      exact honce.1 (Multiset.mem_map.mpr ⟨(r, t), hrt, heq⟩)
    rcases unpark_tcb s₁ task' t with ht | ⟨ht, -⟩
    · rw [ht]
      exact h.wait r t (hsub _ hrt)
    · exact absurd ht hne
  · intro r t hrt
    rw [hwaiting] at hrt
    exact h.not_null r t (hsub _ hrt)
  · rw [hwaiting, hcontent]

/-- Notifying wakes exactly the tasks that wait for the reason. -/
theorem Parked.wakeAll (h : Parked s) (reason : Nat) :
    Parked (s.wakeAll reason) ∧
      (s.wakeAll reason).waiting = s.waiting.filter fun p => p.1 ≠ reason := by
  obtain ⟨⟨hparked, hfilter⟩, hnone⟩ := @wakeAll_rule s reason
    (fun s' => Parked s' ∧
      s'.waiting.filter (fun p => p.1 ≠ reason) = s.waiting.filter fun p => p.1 ≠ reason)
    (fun s' hs' => ⟨hs'.1.wf, fun task => hs'.1.not_null reason task⟩)
    (fun s' task hs' htask hmem => by
      obtain ⟨hparked, hcontent⟩ := hs'.1.wake hmem htask
      refine ⟨hparked, ?_⟩
      rw [← hs'.2, ← hcontent, Multiset.filter_cons_of_neg]
      simp)
    (fun s' hs' hnone => by
      rw [takeWaiting_of_not_mem hs'.1.wf hnone]
      exact ⟨{ hs'.1 with wf := hs'.1.wf.setFlag 0 }, hs'.2⟩)
    ⟨h, rfl⟩
  refine ⟨hparked, ?_⟩
  rw [← hfilter, eq_comm, Multiset.filter_eq_self]
  intro p hp heq
  exact hnone p.2 (heq ▸ hp)

/-! ## The callbacks -/

/-- `waitCallback` does nothing when a notify has come in between; otherwise it
parks the current task and lets the owner inherit. -/
theorem waitCallback_cases {fuel checkCode isReasonMutex : Nat}
    (h : s.waitCallback fuel reason checkCode isReasonMutex = some s') :
    (checkCode ≠ s.checkCode ∧ s' = s) ∨
      (checkCode = s.checkCode ∧ Inherits (s.park reason) s') := by
  simp only [waitCallback] at h
  split at h
  · rename_i hcode
    cases h
    exact .inl ⟨hcode, rfl⟩
  · rename_i hcode
    refine .inr ⟨not_not.mp hcode, ?_⟩
    split at h
    · exact updatePriorityInheritance_inherits h
    · cases h
      exact .refl _

theorem notifyCallback_inherits {fuel : Nat} (h : s.notifyCallback fuel reason = some s') :
    Inherits (s.wakeAll reason) s' :=
  dropAcquired_inherits h

theorem Wakes.checkCode (h : Wakes s s') : s'.checkCode = s.checkCode := by
  rw [h.rest]

theorem Parked.nextCheckCode (h : Parked s) : Parked s.nextCheckCode :=
  ⟨h.wf, h.once, h.wait, h.not_null⟩

theorem Parked.yieldCurrent (h : Parked s) : Parked s.yieldCurrent where
  wf := h.wf
  once := h.once
  not_null := h.not_null
  wait r t hrt := by
    have hwait := h.wait r t hrt
    by_cases ht : t = s.currentTCB
    · subst ht
      simpa [Sched.yieldCurrent, modifyTCB] using hwait
    · simpa [Sched.yieldCurrent, modifyTCB, ht] using hwait

end Park

end Sched

end DocetOS
