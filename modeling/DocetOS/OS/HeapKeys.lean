import DocetOS.OS.Bookkeeping
import DocetOS.OS.InheritedPriority
import DocetOS.OS.SleepTime

/-!
# The nodes of the scheduler heap carry the effective priorities

A node keeps the value it was added with, while the priority of its task changes.
`EffectiveKeys` says that every node has the priority its task has now.

- Nearly everything the scheduler does only takes nodes off the heap or adds a task
  with its own priority, and changes no priority (`KeepsKeys`).
- `__updatePriorityInheritance` changes the priority of one task and moves its node
  only if the old and the new inherited priority differ and the task is on the heap.
  This is enough (`Books.updatePriorityInheritance_keys`), and the node it takes off
  is that of the task: `heap_keys_effective`.
-/

namespace DocetOS

open Hashtable

namespace Sched

variable {N : Nat} {tasks : Finset Nat} {fresh : Prop} {life life' : Nat → Lifecycle}
  {s s' s'' : Sched} {task index : Nat}

/-- Every node has the priority of its task, and no scheduled task has priority 0. -/
structure EffectiveKeys (s : Sched) : Prop where
  keys : ∀ node ∈ s.schedulerHeap.nodes,
    node.nodeValue = (s.tcb node.ptrToNodeContent).heapPriority
  positive : ∀ t ∈ s.scheduled, 0 < (s.tcb t).priority

/-! ## What leaves the keys right -/

/-- From `s` to `s'`, nodes are only removed, or added with the priority of their
task, and no priority changes. -/
structure KeepsKeys (s s' : Sched) : Prop where
  priorities : SamePriorities s s'
  scheduled : s'.scheduled ⊆ s.scheduled
  wf : s.schedulerHeap.WF → s'.schedulerHeap.WF
  nodes : s.schedulerHeap.WF → ∀ node ∈ s'.schedulerHeap.nodes,
    node ∈ s.schedulerHeap.nodes ∨
      node.nodeValue = (s.tcb node.ptrToNodeContent).heapPriority

namespace KeepsKeys

theorem trans (h : KeepsKeys s s') (h' : KeepsKeys s' s'') : KeepsKeys s s'' where
  priorities := h.priorities.trans h'.priorities
  scheduled _ ht := h.scheduled (h'.scheduled ht)
  wf hwf := h'.wf (h.wf hwf)
  nodes hwf node hnode := by
    rcases h'.nodes (h.wf hwf) node hnode with hold | hvalue
    · exact h.nodes hwf node hold
    · rw [h.priorities.heapPriority] at hvalue
      exact .inr hvalue

theorem of_eq (hpriorities : SamePriorities s s') (hscheduled : s'.scheduled ⊆ s.scheduled)
    (hheap : s'.schedulerHeap = s.schedulerHeap) : KeepsKeys s s' where
  priorities := hpriorities
  scheduled := hscheduled
  wf hwf := hheap ▸ hwf
  nodes _ _ hnode := .inl (hheap ▸ hnode)

theorem refl (s : Sched) : KeepsKeys s s := of_eq (.refl s) (List.Subset.refl _) rfl

/-- A write to a TCB that leaves its priorities alone. -/
theorem modifyTCB (s : Sched) (task : Nat) {f : TCB → TCB}
    (hf : ∀ tcb, (f tcb).priority = tcb.priority ∧
      (f tcb).inheritedPriority = tcb.inheritedPriority) : KeepsKeys s (s.modifyTCB task f) :=
  of_eq (samePriorities_modifyTCB task hf) (List.Subset.refl _) rfl

/-- The keys are right afterwards. -/
theorem keys (h : KeepsKeys s s') (hwf : s.schedulerHeap.WF) (hk : EffectiveKeys s) :
    EffectiveKeys s' where
  keys node hnode := by
    rw [h.priorities.heapPriority]
    rcases h.nodes hwf node hnode with hold | hvalue
    · exact hk.keys node hold
    · exact hvalue
  positive t ht := by
    rw [(h.priorities t).1]
    exact hk.positive t (h.scheduled ht)

theorem returnToSchedulerHeap (s : Sched) (task : Nat) :
    KeepsKeys s (s.returnToSchedulerHeap task) := by
  have hrest := returnToSchedulerHeap_rest s task
  refine
    { priorities := fun t => by rw [hrest]; exact ⟨rfl, rfl⟩
      scheduled := by rw [hrest]; exact List.Subset.refl _
      wf := fun hwf => ?_
      nodes := fun hwf node hnode => ?_ }
  · simp only [Sched.returnToSchedulerHeap]
    split
    · exact MinHeap.addNode_wf hwf _ _
    · exact hwf
  · simp only [Sched.returnToSchedulerHeap] at hnode
    split at hnode
    · by_cases hroom : s.schedulerHeap.currentNumNodes < s.schedulerHeap.maxNumberOfNodes
      · rw [show ({ s with tasksInSchedulerHeapHashTable := _ } : Sched).schedulerHeap =
          s.schedulerHeap from rfl, MinHeap.addNode_nodes hwf hroom, Multiset.mem_cons] at hnode
        rcases hnode with rfl | hnode
        · exact .inr rfl
        · exact .inl hnode
      · have hfull := MinHeap.addNode_of_full hwf
          (Nat.le_antisymm hwf.num_le (Nat.not_lt.mp hroom)) task (s.tcb task).heapPriority
        exact .inl (by simpa only [hfull] using hnode)
    · exact .inl hnode

theorem leaveSchedulerHeap (hi : index < s.schedulerHeap.currentNumNodes) (task : Nat) :
    KeepsKeys s (s.leaveSchedulerHeap index task) := by
  have hheap : (s.leaveSchedulerHeap index task).schedulerHeap =
      s.schedulerHeap.heapDown index := by
    simp only [Sched.leaveSchedulerHeap, MinHeap.removeNodeAt_eq hi]
  refine
    { priorities := .refl s
      scheduled := List.Subset.refl _
      wf := fun hwf => hheap ▸ MinHeap.heapDown_wf hwf hi
      nodes := fun hwf node hnode => .inl ?_ }
  rw [hheap] at hnode
  rw [← MinHeap.heapDown_nodes hwf hi]
  exact Multiset.mem_cons_of_mem hnode

theorem wakeSleeper (s : Sched) (task : Nat) : KeepsKeys s (s.wakeSleeper task) := by
  have hstamp : KeepsKeys s (s.modifyTCB task fun tcb => { tcb with data := s.ticks }) :=
    modifyTCB s task fun _ => ⟨rfl, rfl⟩
  have htables : KeepsKeys (s.modifyTCB task fun tcb => { tcb with data := s.ticks })
      { s.modifyTCB task fun tcb => { tcb with data := s.ticks } with
        sleepingTasksHashTable := (s.sleepingTasksHashTable.remove task).1
        activeTasksHashTable :=
          (s.activeTasksHashTable.put task task .rejectMultipleValuesPerKey).1 } :=
    of_eq (.refl _) (List.Subset.refl _) rfl
  refine hstamp.trans (htables.trans ((returnToSchedulerHeap _ task).trans ?_))
  exact of_eq (samePriorities_modifyTCB task
    (f := fun tcb => { tcb with state := { tcb.state with sleep := false }, data2 := 0 })
    fun _ => ⟨rfl, rfl⟩) (List.Subset.refl _) rfl

theorem updateSleepState (s : Sched) (task : Nat) :
    KeepsKeys s (s.updateSleepState task).1 := by
  cases hsleep : (s.tcb task).state.sleep with
  | false =>
    rw [updateSleepState_awake hsleep]
    exact refl s
  | true =>
    have hflag : KeepsKeys s (s.noteRollover task) :=
      of_eq (.refl s) (List.Subset.refl _) rfl
    rcases updateSleepState_sleeping hsleep with ⟨-, hs⟩ | ⟨-, hs⟩
    · rw [hs]
      exact hflag.trans (wakeSleeper _ task)
    · have hkeep : KeepsKeys (s.noteRollover task) ((s.noteRollover task).keepAsleep task
          (elapsedTicks (s.tcb task).data s.ticks)) := modifyTCB _ _ fun _ => ⟨rfl, rfl⟩
      rw [hs]
      exact hflag.trans hkeep

theorem wakeLoop (rounds : Nat) (s : Sched) : KeepsKeys s (Sched.wakeLoop rounds s) :=
  wakeLoop_keeps refl (fun _ _ _ => trans)
    (fun s _ => of_eq (.refl s) (List.Subset.refl _) rfl) updateSleepState rounds s

theorem unpark (s : Sched) (task : Nat) : KeepsKeys s (s.unpark task) := by
  simp only [Sched.unpark]
  refine KeepsKeys.trans ?_ (returnToSchedulerHeap _ task)
  split
  · exact of_eq (samePriorities_modifyTCB task fun _ => ⟨rfl, rfl⟩) (List.Subset.refl _) rfl
  · exact of_eq (.refl _) (List.Subset.refl _) rfl

theorem wakeWaiting (reason rounds : Nat) (s : Sched) :
    KeepsKeys s (Sched.wakeWaiting reason rounds s) := by
  induction rounds generalizing s with
  | zero => exact refl s
  | succ rounds ih =>
    have htake : KeepsKeys s (s.takeWaiting reason).1 :=
      of_eq (.refl _) (List.Subset.refl _) rfl
    simp only [Sched.wakeWaiting]
    split
    · exact htake
    · exact htake.trans ((unpark _ _).trans (ih _))

theorem park (s : Sched) (reason : Nat) : KeepsKeys s (s.park reason) :=
  of_eq (park_samePriorities s reason) (List.Subset.refl _) rfl

theorem sleepCallback (s : Sched) (tcb minSleepDuration : Nat) :
    KeepsKeys s (s.sleepCallback tcb minSleepDuration) := by
  rcases sleepCallback_cases s tcb minSleepDuration with hs | ⟨-, hs⟩ | ⟨-, hs⟩
  · rw [hs]
    exact refl s
  · rw [hs]
    exact of_eq (.refl s) (List.Subset.refl _) rfl
  · rw [hs]
    exact of_eq (samePriorities_modifyTCB tcb
      (f := fun t =>
        { t with
            state := { t.state with sleep := true }
            data := s.ticks
            data2 := minSleepDuration })
      fun _ => ⟨rfl, rfl⟩) (List.Subset.refl _) rfl

theorem beforeWake {memclusterInUse : Bool} {fuel : Nat}
    (hrollover : s.systickRolloverDetectedFLAG = 0)
    (h : s.beforeWake memclusterInUse fuel = some s') : KeepsKeys s s' := by
  obtain ⟨completed, freed, rfl, -⟩ := beforeWake_cases hrollover h
  exact of_eq (samePriorities_modifyTCB s.currentTCB
    (f := fun tcb => { tcb with state := { tcb.state with yield := false } })
    fun _ => ⟨rfl, rfl⟩) (List.Subset.refl _) rfl

end KeepsKeys

/-- One round of the walk keeps the keys. -/
theorem Books.removeIfInactive_keeps (h : Books N tasks fresh life s)
    (hi : index < s.schedulerHeap.currentNumNodes) (memclusterInUse : Bool) :
    KeepsKeys s (s.removeIfInactive memclusterInUse index).1 := by
  have hscheduled := h.mem_of_onHeap (MinHeap.mem_contents.mpr ⟨index, hi, rfl⟩)
  have hclock : (s.tcb (s.taskAt index)).state.sleep = true →
      (s.tcb (s.taskAt index)).data ≤ s.ticks := fun hsleep =>
    h.clock _ ((h.shows _ hscheduled).sleep.symm.trans hsleep)
  rcases removeIfExit_cases memclusterInUse s index with
    ⟨-, -, -, tcb, completed, freed, hexit, hother, ⟨data, hself⟩, -⟩ | ⟨-, hexit⟩
  · simp only [Sched.removeIfInactive, hexit]
    -- a task that has ended is removed; of its TCB only `data` may change
    refine (KeepsKeys.leaveSchedulerHeap hi (s.taskAt index)).trans
      (.of_eq ?_ List.erase_subset rfl)
    intro t
    show (tcb t).priority = (s.tcb t).priority ∧
      (tcb t).inheritedPriority = (s.tcb t).inheritedPriority
    by_cases ht : t = s.taskAt index
    · rw [ht, hself]
      exact ⟨rfl, rfl⟩
    · rw [hother t ht]
      exact ⟨rfl, rfl⟩
  rcases removeIfWaiting_cases s index with ⟨-, hwait⟩ | ⟨-, hwait⟩
  · simp only [Sched.removeIfInactive, hexit, hwait]
    exact .leaveSchedulerHeap hi _
  rcases removeIfSleeping_cases hclock with ⟨-, hsleep⟩ | ⟨-, -, hsleep⟩ | ⟨-, hsleep⟩
  · simp only [Sched.removeIfInactive, hexit, hwait, hsleep]
    exact .refl s
  · simp only [Sched.removeIfInactive, hexit, hwait, hsleep]
    exact .wakeSleeper s _
  · simp only [Sched.removeIfInactive, hexit, hwait, hsleep]
    -- a sleeping task is refreshed and goes to the sleep heap
    have hrefresh : KeepsKeys s (s.refreshSleeper (s.taskAt index)) := by
      refine .of_eq ?_ (List.Subset.refl _) rfl
      intro t
      rw [refreshSleeper_tcb]
      split <;> exact ⟨rfl, rfl⟩
    have hleave : KeepsKeys (s.refreshSleeper (s.taskAt index))
        ((s.refreshSleeper (s.taskAt index)).leaveSchedulerHeap index (s.taskAt index)) :=
      KeepsKeys.leaveSchedulerHeap (s := s.refreshSleeper (s.taskAt index)) hi _
    exact hrefresh.trans (hleave.trans (.of_eq (.refl _) (List.Subset.refl _) rfl))

/-- The scheduler keeps the keys. -/
theorem Books.pendSV_keeps (h : Books N tasks fresh life s) (hnodes : tasks.card ≤ N)
    {memclusterInUse : Bool} {rand : Nat → Nat} {fuel : Nat}
    (hs : s.pendSV memclusterInUse rand fuel = some s') : KeepsKeys s s' := by
  rcases pendSV_cases hs with ⟨-, rfl⟩ | ⟨-, s₁, s₂, next, hbefore, hafter, rfl⟩
  · exact .of_eq (.refl s) (List.Subset.refl _) rfl
  rw [afterWake_eq] at hafter
  have hbooks₁ : Books N tasks fresh life s₁ := (h.beforeWake hbefore).1
  obtain ⟨life₁, hwoken, -⟩ : ∃ life₁, Books N tasks fresh life₁ s₁.wakeSleepers ∧
      Onward life life₁ s₁ s₁.wakeSleepers := hbooks₁.wakeLoop (.inl hnodes)
  have hafter' : KeepsKeys s₁.wakeSleepers s₂ := by
    refine afterWakeEach_keeps .refl (fun _ _ _ => .trans) ?_ hafter
    intro r hr
    obtain ⟨life', hround, hi⟩ := hwoken.afterWakeRounds hnodes r hr
    exact hround.removeIfInactive_keeps hi r.memclusterInUse
  have hwake : KeepsKeys s₁ s₁.wakeSleepers := .wakeLoop _ s₁
  exact (KeepsKeys.beforeWake h.noRollover hbefore).trans (hwake.trans (hafter'.trans
    (.of_eq (.refl _) (List.Subset.refl _) rfl)))

/-! ## `__updatePriorityInheritance` -/

/-- The node that `readdToSchedulerHeap` takes off is not that of the task. -/
def removesOther (s : Sched) (task : Nat) : Bool :=
  let (heap, taskHeapIndex) := s.schedulerHeap.indexOfContent task
  decide ((heap.removeNodeAt taskHeapIndex).2 ≠ some task)

/-- One of the two ASSERTs of `__updatePriorityInheritance`, "taskHeapIndex is
incorrect", is reached. -/
def inheritanceAsserts (s : Sched) (fuel task : Nat) : Bool :=
  match s.highestInherited fuel s.waitingTasksHashTableReasonAsKey
    (s.tcb task).acquiredResourcesLinkedList (s.tcb task).priority with
  | none => false
  | some (_, highestPriority) =>
    let (inHeap, value) := s.tasksInSchedulerHeapHashTable.get task
    let isActiveAndInHeap := decide (value ≠ 0 ∧ inHeap.validValueFlag ≠ 0)
    let resets := decide (¬ highestPriority < (s.tcb task).priority ∧
      (s.tcb task).inheritedPriority ≠ 0) && isActiveAndInHeap
    let s' := s.setInheritedPriority task highestPriority isActiveAndInHeap
    let moves := isActiveAndInHeap && decide ((s'.tcb task).inheritedPriority ≠ 0 ∧
      (s'.tcb task).prevInheritedPriority ≠ (s'.tcb task).inheritedPriority)
    (resets && s.removesOther task) || (moves && s'.removesOther task)

theorem heapPriority_pos {tcb : TCB} (h : 0 < tcb.priority) : 0 < tcb.heapPriority := by
  unfold TCB.heapPriority
  split
  · rename_i hne
    exact Nat.pos_of_ne_zero hne
  · exact h

/-- The priority to inherit is not 0 if nobody involved has priority 0. -/
theorem highestInherited_pos {table table' : Hashtable} (hwf : table.WF)
    (hcontent : table.content = s.waiting)
    (hwaiting : ∀ m w, (m, w) ∈ s.waiting → 0 < (s.tcb w).priority)
    {fuel acquiredMutex priority highestPriority : Nat} (hpriority : 0 < priority)
    (h : s.highestInherited fuel table acquiredMutex priority = some (table', highestPriority)) :
    0 < highestPriority := by
  induction fuel generalizing table acquiredMutex priority with
  | zero => cases h
  | succ fuel ih =>
    simp only [highestInherited] at h
    split at h
    · cases h
      exact hpriority
    · have hrounds : (table.toMultimap acquiredMutex).length <
          0 + (table.maximumCapacity + 1) := by
        have hlength := length_toMultimap_le hwf acquiredMutex
        omega
      obtain ⟨flag, htable⟩ := s.highestWaiting_table acquiredMutex (table.maximumCapacity + 1) 0
        table priority
      have hleast := highestWaiting_isLeast (s := s) hwf hrounds priority
      rw [htable] at h
      refine ih (hwf.setFlag flag) hcontent ?_ h
      rcases hleast.1 with heq | ⟨w, hw, heq⟩
      · rw [heq]
        exact hpriority
      · rw [List.drop_zero, mem_toMultimap hwf, hcontent] at hw
        rw [← heq]
        exact heapPriority_pos (hwaiting _ w hw)

/-- A priority that is not 0 is inherited: the node of the task is moved to its new
place, unless the place is the same, and nothing else changes. -/
theorem inheritPriority_cases (s : Sched) (task : Nat) {highestPriority : Nat}
    (hpositive : 0 < highestPriority) (isActiveAndInHeap : Bool) :
    let s' := (s.setInheritedPriority task highestPriority
      isActiveAndInHeap).moveToInheritedPriority task isActiveAndInHeap
    (s'.schedulerHeap = s.schedulerHeap ∧
        (isActiveAndInHeap = true → (s'.tcb task).heapPriority = (s.tcb task).heapPriority)) ∨
      (isActiveAndInHeap = true ∧ s'.schedulerHeap =
        (s.readdToSchedulerHeap task (s'.tcb task).heapPriority).schedulerHeap) := by
  have hne : highestPriority ≠ 0 := Nat.ne_of_gt hpositive
  cases isActiveAndInHeap with
  | false =>
    refine .inl ⟨?_, fun h => absurd h Bool.false_ne_true⟩
    simp only [moveToInheritedPriority, setInheritedPriority, Bool.false_eq_true, false_and,
      and_false, if_false]
    split <;> rfl
  | true =>
    simp only [moveToInheritedPriority_tcb]
    by_cases hlower : highestPriority < (s.tcb task).priority
    · -- the task inherits a priority, which may be the one it has inherited before
      by_cases hsame : (s.tcb task).inheritedPriority = highestPriority
      · refine .inl ⟨?_, ?_⟩
        · simp [moveToInheritedPriority, setInheritedPriority, hlower, modifyTCB, hsame]
        · intro _
          simp [setInheritedPriority, hlower, modifyTCB, TCB.heapPriority, hsame, hne]
      · refine .inr ⟨trivial, ?_⟩
        simp [moveToInheritedPriority, setInheritedPriority, hlower, modifyTCB,
          TCB.heapPriority, hsame, hne, readdToSchedulerHeap]
    · -- the task goes back to its own priority, if it has left it
      by_cases hnone : (s.tcb task).inheritedPriority = 0
      · refine .inl ⟨?_, ?_⟩
        · simp [moveToInheritedPriority, setInheritedPriority, hlower, modifyTCB, hnone]
        · intro _
          simp [setInheritedPriority, hlower, modifyTCB, TCB.heapPriority, hnone]
      · refine .inr ⟨trivial, ?_⟩
        simp [moveToInheritedPriority, setInheritedPriority, hlower, modifyTCB,
          TCB.heapPriority, hnone, readdToSchedulerHeap]

/-- A node that is found is the one removed. -/
theorem removesOther_of_finds (h : s.schedulerHeap.Finds task) : s.removesOther task = false := by
  obtain ⟨hi, hcontent⟩ := h
  obtain ⟨table, asserts, heq⟩ := MinHeap.indexOfContent_heap s.schedulerHeap task
  simp only [removesOther]
  generalize (s.schedulerHeap.indexOfContent task).2 = index at *
  rw [heq]
  rw [MinHeap.removeNodeAt_eq (by exact hi)]
  simp only [hcontent, ne_eq, not_true_eq_false, decide_false]

/-- No ASSERT is reached if the node to move is found. -/
theorem inheritanceAsserts_of_finds {fuel : Nat}
    (h : (s.tasksInSchedulerHeapHashTable.get task).1.validValueFlag ≠ 0 →
      s.schedulerHeap.Finds task) : s.inheritanceAsserts fuel task = false := by
  simp only [inheritanceAsserts]
  split
  · rfl
  · rename_i highestPriority _
    by_cases hin : (s.tasksInSchedulerHeapHashTable.get task).2 ≠ 0 ∧
        (s.tasksInSchedulerHeapHashTable.get task).1.validValueFlag ≠ 0
    · have hfinds := removesOther_of_finds (h hin.2)
      by_cases hlower : highestPriority < (s.tcb task).priority
      · -- the first part has not touched the heap
        have hheap : (s.setInheritedPriority task highestPriority true).removesOther task =
            s.removesOther task := by
          simp only [setInheritedPriority, if_pos hlower]
          rfl
        simp [hin, hheap, hfinds]
      · simp [hin, hfinds, setInheritedPriority, hlower, modifyTCB]
    · simp [hin]

theorem updatePriorityInheritance_tcb_of_ne {fuel t : Nat}
    (hs : s.updatePriorityInheritance fuel task = some s') (ht : t ≠ task) :
    s'.tcb t = s.tcb t := by
  simp only [updatePriorityInheritance, Option.bind_eq_bind, Option.bind_eq_some_iff,
    Option.pure_def, Option.some.injEq] at hs
  obtain ⟨⟨reasons, highestPriority⟩, -, rfl⟩ := hs
  rw [moveToInheritedPriority_tcb]
  obtain ⟨inherited, prev, htcb, -⟩ := setInheritedPriority_tcb { s with
    waitingTasksHashTableReasonAsKey := reasons
    tasksInSchedulerHeapHashTable := (s.tasksInSchedulerHeapHashTable.get task).1 } task
    highestPriority (decide ((s.tasksInSchedulerHeapHashTable.get task).2 ≠ 0 ∧
      (s.tasksInSchedulerHeapHashTable.get task).1.validValueFlag ≠ 0))
  rw [htcb, Function.update_of_ne ht]

/-- A task on the heap is at the place of what it inherits. -/
theorem Books.inherited_key (h : Books N tasks fresh life s) (hk : EffectiveKeys s)
    (hon : task ∈ s.schedulerHeap.contents) (hfinds : s.schedulerHeap.Finds task) {fuel : Nat}
    (hs : s.updatePriorityInheritance fuel task = some s') :
    ∀ node ∈ s'.schedulerHeap.nodes,
      node.nodeValue = (s'.tcb node.ptrToNodeContent).heapPriority := by
  have hother := fun t => updatePriorityInheritance_tcb_of_ne (t := t) hs
  simp only [updatePriorityInheritance, Option.bind_eq_bind, Option.bind_eq_some_iff,
    Option.pure_def, Option.some.injEq] at hs
  obtain ⟨⟨reasons, highestPriority⟩, hhighest, hs⟩ := hs
  -- a priority of zero would be read as "nothing inherited"
  have hpositive : 0 < highestPriority := by
    refine highestInherited_pos h.waiters.parked.wf rfl ?_
      (hk.positive task (h.mem_of_onHeap hon)) hhighest
    intro m w hw
    refine hk.positive w (h.mem_of_ne_absent ?_)
    intro hl
    have hwaiting := (h.waiters.mem w).mp ⟨m, hw⟩
    rw [hl] at hwaiting
    cases hwaiting
  have hin : (s.tasksInSchedulerHeapHashTable.get task).2 ≠ 0 ∧
      (s.tasksInSchedulerHeapHashTable.get task).1.validValueFlag ≠ 0 := by
    have hlife := (h.onHeap.mem task).mp hon
    rw [h.onHeap.table.keys.keyed.get_value ((h.onHeap.table.keys.mem task task).mpr
      ⟨rfl, by rw [Lifecycle.inTable, hlife]; rfl⟩)]
    exact ⟨(h.known task (h.mem_of_onHeap hon)).2, one_ne_zero⟩
  rw [decide_eq_true hin] at hs
  have hcases := inheritPriority_cases { s with
    waitingTasksHashTableReasonAsKey := reasons
    tasksInSchedulerHeapHashTable := (s.tasksInSchedulerHeapHashTable.get task).1 } task
    hpositive true
  rw [hs] at hcases
  -- the heap is left alone, or the node of the task is put back under its new key
  rcases hcases with ⟨hheap, hsame⟩ | ⟨-, hheap⟩
  · intro node hnode
    rw [show s'.schedulerHeap = s.schedulerHeap from hheap] at hnode
    rw [hk.keys node hnode]
    by_cases ht : node.ptrToNodeContent = task
    · rw [ht]
      exact (hsame rfl).symm
    · rw [hother _ ht]
  · obtain ⟨old, rest, hold, hnodes, hreadd⟩ := MinHeap.readd_nodes h.onHeap.heap.distinct.wf
      hfinds (s'.tcb task).heapPriority
    have hnodes' : s'.schedulerHeap.nodes = ⟨task, (s'.tcb task).heapPriority⟩ ::ₘ rest := by
      rw [hheap]
      exact hreadd
    intro node hnode
    rw [hnodes', Multiset.mem_cons] at hnode
    rcases hnode with rfl | hnode
    · rfl
    · -- the task has no other node
      have hnodup := h.onHeap.heap.distinct.nodup
      unfold MinHeap.contents at hnodup
      rw [← hnodes, Multiset.map_cons, Multiset.nodup_cons, hold] at hnodup
      have ht : node.ptrToNodeContent ≠ task := fun heq =>
        hnodup.1 (Multiset.mem_map.mpr ⟨node, hnode, heq⟩)
      rw [hother _ ht]
      exact hk.keys node (hnodes ▸ Multiset.mem_cons_of_mem hnode)

/-- **Inheritance keeps the keys right**, and finds the node it moves. -/
theorem Books.updatePriorityInheritance_keys (h : Books N tasks fresh life s)
    (hnodes : tasks.card ≤ N) (hk : EffectiveKeys s) {fuel : Nat}
    (hs : s.updatePriorityInheritance fuel task = some s') :
    EffectiveKeys s' ∧ s.inheritanceAsserts fuel task = false := by
  have hfinds : (s.tasksInSchedulerHeapHashTable.get task).1.validValueFlag ≠ 0 →
      s.schedulerHeap.Finds task := by
    intro hflag
    obtain ⟨v, hv⟩ := mem_of_get h.onHeap.table.keys.keyed.wf hflag
    exact h.finds (.inl hnodes) rfl ((h.onHeap.table.keys.mem task v).mp hv).2
  have hi := updatePriorityInheritance_inherits hs
  have hpriority : ∀ t, (s'.tcb t).priority = (s.tcb t).priority := by
    intro t
    obtain ⟨_, _, _, ht⟩ := hi.tcb t
    rw [ht]
  refine ⟨⟨?_, ?_⟩, inheritanceAsserts_of_finds hfinds⟩
  · intro node hnode
    by_cases hon : task ∈ s.schedulerHeap.contents
    · exact h.inherited_key hk hon (h.onHeap.heap.finds (by rwa [h.onHeap.size]) hon) hs node hnode
    · -- the task is not in the table either, so the heap is left alone
      have hheap : s'.schedulerHeap = s.schedulerHeap := by
        refine (updatePriorityInheritance_moves hs).resolve_right ?_
        rintro ⟨-, hflag, -⟩
        exact hon (MinHeap.mem_contents.mpr ⟨_, hfinds hflag⟩)
      rw [hheap] at hnode
      have hne : node.ptrToNodeContent ≠ task := by
        rintro rfl
        exact hon (Multiset.mem_map.mpr ⟨node, hnode, rfl⟩)
      rw [hk.keys node hnode, updatePriorityInheritance_tcb_of_ne hs hne]
  · intro t ht
    rw [hpriority]
    have hscheduled : s'.scheduled = s.scheduled := by rw [hi.rest]
    exact hk.positive t (hscheduled ▸ ht)

/-! ## The calls -/

/-- The state, and the fuel left, in which the last part of `notifyCallback` calls
`__updatePriorityInheritance`. -/
def dropAcquiredCall (reason : Nat) : Nat → Sched → Nat → Nat → Option (Sched × Nat)
  | 0, _, _, _ => none
  | fuel + 1, s, prevAcquiredMutex, acquiredMutex =>
    if acquiredMutex = NULL then none
    else
      let next := (s.mutexes acquiredMutex).nextAcquiredResource
      if acquiredMutex = reason then
        let s :=
          if prevAcquiredMutex ≠ NULL then
            s.modifyMutex prevAcquiredMutex fun mutex => { mutex with nextAcquiredResource := next }
          else
            s.modifyTCB s.currentTCB fun tcb => { tcb with acquiredResourcesLinkedList := next }
        some (s.modifyMutex acquiredMutex fun mutex => { mutex with nextAcquiredResource := NULL },
          fuel)
      else dropAcquiredCall reason fuel s acquiredMutex next

/-- The call of `__updatePriorityInheritance` in an event: the state, the fuel and
the task. -/
def inheritanceCall (s : Sched) : SchedulerEvent → Option (Sched × Nat × Nat)
  | .wait fuel reason checkCode isReasonMutex _ =>
    if checkCode = s.checkCode ∧ isReasonMutex ≠ 0 then
      some (s.park reason, fuel, (s.mutexes reason).tcbPointer)
    else none
  | .notify fuel reason =>
    let s := s.nextCheckCode.wakeAll reason
    (dropAcquiredCall reason fuel s NULL (s.tcb s.currentTCB).acquiredResourcesLinkedList).map
      fun call => (call.1, call.2, s.currentTCB)
  | _ => none

/-- An ASSERT of `__updatePriorityInheritance` is reached in the event. -/
def asserts (s : Sched) (e : SchedulerEvent) : Bool :=
  match s.inheritanceCall e with
  | none => false
  | some (s, fuel, task) => s.inheritanceAsserts fuel task

/-- The last part of `notifyCallback` does nothing, or unlinks a mutex and calls
`__updatePriorityInheritance`. -/
theorem dropAcquired_call {reason fuel prevAcquiredMutex acquiredMutex : Nat}
    (h : dropAcquired reason fuel s prevAcquiredMutex acquiredMutex = some s') :
    (dropAcquiredCall reason fuel s prevAcquiredMutex acquiredMutex = none ∧ s' = s) ∨
      ∃ s₁ fuel₁,
        dropAcquiredCall reason fuel s prevAcquiredMutex acquiredMutex = some (s₁, fuel₁) ∧
          Relinked s s₁ ∧ Inherits s s₁ ∧
          s₁.updatePriorityInheritance fuel₁ s.currentTCB = some s' := by
  induction fuel generalizing prevAcquiredMutex acquiredMutex with
  | zero => cases h
  | succ fuel ih =>
    simp only [dropAcquired] at h
    simp only [dropAcquiredCall]
    by_cases hnull : acquiredMutex = NULL
    · rw [if_pos hnull] at h
      cases h
      exact .inl ⟨if_pos hnull, rfl⟩
    · rw [if_neg hnull] at h ⊢
      by_cases hfound : acquiredMutex = reason
      · rw [if_pos hfound] at h ⊢
        -- the mutex is found: it is unlinked, and the task inherits anew
        have hlinked := relinked_unlink s prevAcquiredMutex acquiredMutex
          (s.mutexes acquiredMutex).nextAcquiredResource
        have hcurrent := hlinked.currentTCB
        refine .inr ⟨_, _, rfl, hlinked, ?_, ?_⟩
        · refine Inherits.trans ?_ (inherits_modifyMutex acquiredMutex fun m => ⟨_, rfl⟩)
          split
          · exact inherits_modifyMutex _ fun m => ⟨_, rfl⟩
          · exact inherits_modifyTCB _ fun tcb => ⟨_, _, _, rfl⟩
        · rw [hcurrent] at h
          exact h
      · rw [if_neg hfound] at h ⊢
        exact ih h

theorem Relinked.keepsKeys (h : Relinked s s') : KeepsKeys s s' := by
  refine .of_eq ?_ ?_ ?_
  · intro t
    obtain ⟨_, ht⟩ := h.tcb t
    rw [ht]
    exact ⟨rfl, rfl⟩
  · rw [h.rest]
    exact List.Subset.refl _
  · rw [h.rest]

/-- A new task gets the priority it is added with. -/
theorem Books.addTask_keys (h : Books N tasks fresh life s) (hk : EffectiveKeys s)
    (hnot : task ∉ s.scheduled) (memory : TCB) (stack taskPriority : Nat)
    (hpriority : 0 < taskPriority) :
    EffectiveKeys ((s.modifyTCB task fun _ => initialiseTCB memory stack).addTask task
      taskPriority) := by
  have hoff : task ∉ s.schedulerHeap.contents := fun hon => hnot (h.mem_of_onHeap hon)
  have hne : ∀ node ∈ s.schedulerHeap.nodes, node.ptrToNodeContent ≠ task := by
    rintro node hnode rfl
    exact hoff (Multiset.mem_map.mpr ⟨node, hnode, rfl⟩)
  -- `OS_initialiseTCB` writes the TCB of a task that is not scheduled
  have hwritten : EffectiveKeys (s.modifyTCB task fun _ => initialiseTCB memory stack) := by
    constructor
    · intro node hnode
      rw [modifyTCB_tcb, if_neg (hne node hnode)]
      exact hk.keys node hnode
    · intro t ht
      rw [modifyTCB_tcb, if_neg (ne_of_mem_of_not_mem ht hnot)]
      exact hk.positive t ht
  rcases addTask_cases (s.modifyTCB task fun _ => initialiseTCB memory stack) task taskPriority with
    heq | ⟨-, -, heq⟩ <;> rw [heq]
  · exact hwritten
  · have hold : ∀ node ∈ s.schedulerHeap.nodes, node.nodeValue =
        (((s.modifyTCB task fun _ => initialiseTCB memory stack).enterTask task
          taskPriority).tcb node.ptrToNodeContent).heapPriority := by
      intro node hnode
      rw [enterTask_tcb, if_neg (hne node hnode)]
      exact hwritten.keys node hnode
    constructor
    · intro node hnode
      change node ∈ (s.schedulerHeap.addNode task taskPriority).1.nodes at hnode
      have hwf := h.onHeap.heap.distinct.wf
      -- on a full heap the task is scheduled without a node
      by_cases hroom : s.schedulerHeap.currentNumNodes < s.schedulerHeap.maxNumberOfNodes
      · rw [MinHeap.addNode_nodes hwf hroom, Multiset.mem_cons] at hnode
        rcases hnode with rfl | hnode
        · rw [enterTask_tcb, if_pos rfl, modifyTCB_tcb, if_pos rfl]
          rfl
        · exact hold node hnode
      · rw [MinHeap.addNode_of_full hwf
          (Nat.le_antisymm hwf.num_le (Nat.not_lt.mp hroom))] at hnode
        exact hold node hnode
    · intro t ht
      rw [enterTask_tcb]
      rcases List.mem_cons.mp ht with rfl | ht
      · rw [if_pos rfl]
        exact hpriority
      · rw [if_neg (ne_of_mem_of_not_mem ht hnot)]
        exact hwritten.positive t ht

/-- **A call keeps the keys right**, and reaches no ASSERT. -/
theorem Books.call_keys (h : Books N tasks fresh life s) (hr : Running tasks life s)
    (hnodes : tasks.card ≤ N) (hk : EffectiveKeys s) {e : SchedulerEvent}
    (hs : s.call tasks e = some s') : EffectiveKeys s' ∧ s.asserts e = false := by
  have hwf := h.onHeap.heap.distinct.wf
  cases e with
  | tick ticks =>
    simp only [Sched.call] at hs
    split at hs
    · cases hs
      exact ⟨⟨hk.keys, hk.positive⟩, rfl⟩
    · cases hs
  | memory acquired mutexes =>
    cases hs
    exact ⟨⟨hk.keys, hk.positive⟩, rfl⟩
  | addTask tcb memory stack taskPriority =>
    simp only [Sched.call] at hs
    split at hs
    · rename_i hadd
      cases hs
      exact ⟨h.addTask_keys hk hadd.2.1 memory stack taskPriority hadd.2.2, rfl⟩
    · cases hs
  | notify fuel reason =>
    have hcode : Books N tasks fresh life s.nextCheckCode :=
      h.frame rfl (Nat.le_refl _) fun t => ⟨⟨_, rfl⟩, rfl⟩
    obtain ⟨life', hbooks, -⟩ := @Books.wakeAll _ _ _ _ _ reason hcode (.inl hnodes)
    have hwoken : EffectiveKeys (s.nextCheckCode.wakeAll reason) :=
      (KeepsKeys.wakeWaiting _ _ _).keys hwf ⟨hk.keys, hk.positive⟩
    simp only [asserts, inheritanceCall]
    -- waking keeps the keys; inheritance follows only when the reason was in the list
    rcases dropAcquired_call hs with ⟨hnone, rfl⟩ | ⟨s₁, fuel₁, hcall, hlinked, hi, hs₁⟩
    · rw [hnone]
      exact ⟨hwoken, rfl⟩
    · rw [hcall]
      have hheap : s₁.schedulerHeap = (s.nextCheckCode.wakeAll reason).schedulerHeap := by
        rw [hlinked.rest]
      have hbooks₁ : Books N tasks fresh life' s₁ :=
        hbooks.inherits hi (.inl hheap) fun (hm : false = true)
          (_ : (life' s.currentTCB).inTable = true) => by cases hm
      exact hbooks₁.updatePriorityInheritance_keys hnodes
        (hlinked.keepsKeys.keys hbooks.onHeap.heap.distinct.wf hwoken) hs₁
  | wait fuel reason checkCode isReasonMutex switch =>
    simp only [Sched.call] at hs
    split at hs
    · rename_i hwait
      simp only [waitCallback] at hs
      simp only [asserts, inheritanceCall]
      by_cases hcode : checkCode = s.checkCode
      · rw [if_neg (not_not.mpr hcode)] at hs
        have hparked : EffectiveKeys (s.park reason) := (KeepsKeys.park s reason).keys hwf hk
        -- the owner inherits from the task that has just been parked
        by_cases hmutex : isReasonMutex ≠ 0
        · rw [if_pos hmutex] at hs
          rw [if_pos ⟨hcode, hmutex⟩]
          exact (h.park (hr.of_scheduled h hwait.1) reason).updatePriorityInheritance_keys hnodes
            hparked hs
        · rw [if_neg hmutex] at hs
          cases hs
          rw [if_neg fun hboth => hmutex hboth.2]
          exact ⟨hparked, rfl⟩
      · rw [if_pos hcode] at hs
        cases hs
        rw [if_neg fun hboth => hcode hboth.1]
        exact ⟨hk, rfl⟩
    · cases hs
  | sleep minSleepDuration switch =>
    simp only [Sched.call] at hs
    split at hs
    · cases hs
      exact ⟨(KeepsKeys.sleepCallback s _ _).keys hwf hk, rfl⟩
    · cases hs
  | exit switch =>
    simp only [Sched.call] at hs
    split at hs
    · cases hs
      have hexit : KeepsKeys s (s.taskExit s.currentTCB) :=
        KeepsKeys.modifyTCB s _ fun _ => ⟨rfl, rfl⟩
      exact ⟨hexit.keys hwf hk, rfl⟩
    · cases hs
  | yield switch =>
    cases hs
    have hyield : KeepsKeys s s.yieldCurrent := KeepsKeys.modifyTCB s _ fun _ => ⟨rfl, rfl⟩
    exact ⟨hyield.keys hwf hk, rfl⟩
  | schedule switch =>
    cases hs
    exact ⟨hk, rfl⟩

/-! ## Runs -/

theorem Booted.effectiveKeys (h : Booted N tasks s) : EffectiveKeys s := by
  obtain ⟨tcb, mutexes, currentTCB, idleTCB, ticks, values, flags, nodes, -, -, rfl⟩ := h
  exact ⟨fun node hnode => absurd hnode (Multiset.notMem_zero _),
    fun t ht => absurd ht List.not_mem_nil⟩

theorem reach_effectiveKeys (hN : 0 < N) (hmax : N ≤ UINT32_MAX) (hnodes : tasks.card ≤ N)
    (htables : tasks.card ≤ WAIT_HASHTABLE_CAPACITY) (h : (schedulerMachine N tasks).Reach s) :
    EffectiveKeys s := by
  induction h with
  | init h => exact Booted.effectiveKeys h
  | step hreach hs ih =>
    obtain ⟨life, hbooks, hrun⟩ : ∃ life, Books N tasks False life _ ∧ Running tasks life _ :=
      books_of_reach hN hmax hnodes htables (fun _ hs => hs) (fun _ _ _ hs => ⟨hs, False.elim⟩)
        hreach
    obtain ⟨s₀, hcall, hrest⟩ := step_cases hs
    have hkeys := (hbooks.call_keys hrun hnodes ih hcall).1
    obtain ⟨life₀, hcalled⟩ :=
      hbooks.call hrun (hbooks.hasRoom htables hcall) False.elim (.inl hnodes) hcall
    rcases hrest with ⟨-, rfl⟩ | ⟨switch, -, hpend⟩
    · exact hkeys
    · exact (hcalled.books.pendSV_keeps hnodes hpend).keys
        hcalled.books.onHeap.heap.distinct.wf hkeys

/-- **Heap keys are effective priorities**: in every reachable state, and after every
call before the scheduler runs, each node of the scheduler heap has the inherited
priority of its task, or its own if it inherits none; and no call reaches the ASSERTs of
`__updatePriorityInheritance`. -/
theorem heap_keys_effective (hN : 0 < N) (hmax : N ≤ UINT32_MAX) (hnodes : tasks.card ≤ N)
    (htables : tasks.card ≤ WAIT_HASHTABLE_CAPACITY) (h : (schedulerMachine N tasks).Reach s) :
    EffectiveKeys s ∧
      ∀ e s₀, s.call tasks e = some s₀ → EffectiveKeys s₀ ∧ s.asserts e = false := by
  obtain ⟨life, hbooks, hrun⟩ : ∃ life, Books N tasks False life s ∧ Running tasks life s :=
    books_of_reach hN hmax hnodes htables (fun _ hs => hs) (fun _ _ _ hs => ⟨hs, False.elim⟩) h
  have hkeys := reach_effectiveKeys hN hmax hnodes htables h
  exact ⟨hkeys, fun e s₀ hcall => hbooks.call_keys hrun hnodes hkeys hcall⟩

/-- Task 200 waits for a mutex of task 100, which is less urgent. -/
def lendsPriority : List SchedulerEvent :=
  [.addTask 100 ((sampleSched 1).tcb 0) 0 2, .addTask 200 ((sampleSched 1).tcb 0) 0 1,
    .schedule toRoot,
    .memory (fun task => if task = 100 then 500 else NULL) fun mutex =>
      if mutex = 500 then { initMutex with counter := 1, tcbPointer := 100 } else initMutex,
    .wait 2 500 0 1 toRoot]

/-- The node of task 100 has moved to the priority of 200, and back when 100 gives the
mutex back. -/
theorem heap_keys_effective_lendsPriority :
    ∃ s s₀, (schedulerMachine 16 {100, 200}).run (sampleSched 1) lendsPriority = some s ∧
      (s.tcb 100).inheritedPriority = 1 ∧ s.call {100, 200} (.notify 2 500) = some s₀ ∧
      (s₀.tcb 100).inheritedPriority = 0 ∧ EffectiveKeys s ∧ EffectiveKeys s₀ ∧
      s.asserts (.notify 2 500) = false := by
  obtain ⟨s, hrun, hinherited, hcall⟩ := Lib.Machine.exists_run
    (P := fun s => (s.tcb 100).inheritedPriority = 1 ∧
      (s.call {100, 200} (.notify 2 500)).any
        (fun s₀ => (s₀.tcb 100).inheritedPriority = 0) = true)
    (M := schedulerMachine 16 {100, 200}) (s := sampleSched 1) (e := lendsPriority)
    (by decide +kernel)
  have hreach := (Lib.Machine.Reach.init (M := schedulerMachine 16 {100, 200})
    (sampleSched_rested _ (by decide)).booted).run hrun
  obtain ⟨hkeys, hcalls⟩ := heap_keys_effective (by decide) (by decide) (by decide) (by decide)
    hreach
  cases hs₀ : s.call {100, 200} (.notify 2 500) with
  | none =>
    rw [hs₀] at hcall
    cases hcall
  | some s₀ =>
    rw [hs₀] at hcall
    obtain ⟨hkeys₀, hasserts⟩ := hcalls _ s₀ hs₀
    exact ⟨s, s₀, hrun, hinherited, hs₀, of_decide_eq_true hcall, hkeys, hkeys₀, hasserts⟩

end Sched

end DocetOS
