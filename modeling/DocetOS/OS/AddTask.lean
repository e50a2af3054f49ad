import DocetOS.OS.Integrity

/-!
# What `stochasticScheduler_addTask` does without room

A task is put into `activeTasksHashTable`, into `tasksInSchedulerHeapHashTable` and
last onto the scheduler heap. The results of the two `OS_hashtable_put` calls are
not read, and what they did is not undone when the heap is full. So a task is added
everywhere or nowhere iff the three are all full or none of them is
(`addTask_allOrNothing_iff`).

The tables take 32 tasks and the heap 16, so the seventeenth task is active and in
the table of the tasks on the heap, but not on the heap (`addTask_half`).
-/

namespace DocetOS

open Hashtable

namespace MinHeap

/-- The test of `OS_heap_addNode`. -/
def Full (heap : MinHeap) : Prop := heap.lastArrayElement < heap.nextEmptyElement

instance (heap : MinHeap) : Decidable heap.Full :=
  inferInstanceAs (Decidable (heap.lastArrayElement < heap.nextEmptyElement))

variable {heap : MinHeap}

theorem Full.addNode (h : heap.Full) (x v : Nat) : (heap.addNode x v).1 = heap := by
  unfold Full at h
  unfold MinHeap.addNode
  rw [if_pos h]

/-- A heap that is not full takes the node. -/
theorem Shaped.addNode_contents (h : Shaped heap) (hroom : ¬ heap.Full) (x v : Nat) :
    (heap.addNode x v).1.contents = x ::ₘ heap.contents := by
  have hlast := h.last_eq
  have hnext := h.next_eq
  have hnum : heap.currentNumNodes < heap.maxNumberOfNodes := by
    unfold MinHeap.Full at hroom
    omega
  unfold MinHeap.contents
  rw [addNode_nodes (h.wf hroom) hnum, Multiset.map_cons]

end MinHeap

namespace Hashtable

/-- The test of `OS_hashtable_put`. -/
def Full (t : Hashtable) : Prop := t.remainingCapacity = 0

instance (t : Hashtable) : Decidable t.Full :=
  inferInstanceAs (Decidable (t.remainingCapacity = 0))

/-- The keys in the table. -/
def keys (t : Hashtable) : Finset Nat := (t.content.map Prod.fst).toFinset

variable {t t' : Hashtable} {k v : Nat}

theorem mem_keys : k ∈ t.keys ↔ ∃ w, (k, w) ∈ t.content := by
  simp [keys]

theorem keys_of_cons (h : t'.content = (k, v) ::ₘ t.content) : t'.keys = insert k t.keys := by
  unfold keys
  rw [h, Multiset.map_cons, Multiset.toFinset_cons]

/-- `put` takes a key that the table does not have, if there is room. -/
theorem put_key_cases (h : t.WF) (k v : Nat) :
    ((k ∈ t.keys ∨ t.Full) ∧ t.put k v .rejectMultipleValuesPerKey = (t, 0)) ∨
      (k ∉ t.keys ∧ ¬ t.Full ∧ ∃ t', t.put k v .rejectMultipleValuesPerKey = (t', 1) ∧ t'.WF ∧
        t'.content = (k, v) ::ₘ t.content) := by
  by_cases hk : k ∈ t.keys
  · exact .inl ⟨.inl hk, put_of_duplicate h (.inl ⟨rfl, mem_keys.mp hk⟩)⟩
  by_cases hfull : t.Full
  · exact .inl ⟨.inr hfull, put_of_full hfull⟩
  have hnew : ¬ t.Duplicate k v .rejectMultipleValuesPerKey := by
    rintro (⟨-, hw⟩ | ⟨hmode, -⟩)
    · exact hk (mem_keys.mpr hw)
    · cases hmode
  obtain ⟨t', hput, hwf, hcontent, -⟩ := put_of_room h (Nat.pos_of_ne_zero hfull) hnew
  exact .inr ⟨hk, hfull, t', hput, hwf, hcontent⟩

/-- A key that is not in the table is stored iff there is room. -/
theorem put_new (h : t.WF) (hk : ∀ w, (k, w) ∉ t.content) (v : Nat) :
    (t.Full → (t.put k v .rejectMultipleValuesPerKey).1 = t) ∧
      (¬ t.Full →
        (t.put k v .rejectMultipleValuesPerKey).1.content = (k, v) ::ₘ t.content) := by
  constructor
  · intro hfull
    rw [put_of_full hfull]
  · intro hroom
    rcases put_key_cases h k v with ⟨hold, -⟩ | ⟨-, -, t', hput, -, hcontent⟩
    · obtain ⟨w, hw⟩ := mem_keys.mp (hold.resolve_right hroom)
      exact absurd hw (hk w)
    · rw [hput]
      exact hcontent

end Hashtable

namespace Sched

variable {P : Hashtable → (Nat → Bool) → Prop} {N : Nat} {s : Sched} {tcb taskPriority : Nat}

/-- The tests of `stochasticScheduler_addTask` turn the call down. -/
def Refuses (s : Sched) (tcb taskPriority : Nat) : Prop :=
  tcb = NULL ∨ (s.tcb tcb).state ≠ TaskState.zero ∨ taskPriority = 0

instance (s : Sched) (tcb taskPriority : Nat) : Decidable (s.Refuses tcb taskPriority) :=
  inferInstanceAs (Decidable (_ ∨ _ ∨ _))

theorem Refuses.addTask (h : s.Refuses tcb taskPriority) :
    s.addTask tcb taskPriority = s := by
  unfold Sched.addTask
  rcases h with hnull | hstate | hpriority
  · rw [if_pos hnull]
  · rw [if_pos hstate, ite_self]
  · rw [if_pos hpriority, ite_self, ite_self]

/-- A call that is not turned down enters the task. -/
theorem addTask_of_not_refuses (h : ¬ s.Refuses tcb taskPriority) :
    s.addTask tcb taskPriority = s.enterTask tcb taskPriority := by
  unfold Refuses at h
  push Not at h
  exact addTask_of_zero h.1 h.2.1 h.2.2

/-- A TCB the scheduler does not know yet, with no state bit set. -/
structure NewTCB (s : Sched) (tcb : Nat) : Prop where
  not_null : tcb ≠ NULL
  state : (s.tcb tcb).state = TaskState.zero
  not_active : ∀ w, (tcb, w) ∉ s.activeTasksHashTable.content
  not_inHeap : ∀ w, (tcb, w) ∉ s.tasksInSchedulerHeapHashTable.content
  not_onHeap : tcb ∉ s.schedulerHeap.contents

/-- The task is in both tables and on the scheduler heap. -/
def Added (s : Sched) (tcb : Nat) : Prop :=
  (tcb, tcb) ∈ s.activeTasksHashTable.content ∧
    (tcb, tcb) ∈ s.tasksInSchedulerHeapHashTable.content ∧ tcb ∈ s.schedulerHeap.contents

/-- The two tables and the scheduler heap, with its index table, are what they were. -/
def Untouched (s s' : Sched) : Prop :=
  s'.activeTasksHashTable = s.activeTasksHashTable ∧
    s'.tasksInSchedulerHeapHashTable = s.tasksInSchedulerHeapHashTable ∧
    s'.schedulerHeap = s.schedulerHeap

/-- One of the two tables or the scheduler heap is full. -/
def SomeFull (s : Sched) : Prop :=
  s.activeTasksHashTable.Full ∨ s.tasksInSchedulerHeapHashTable.Full ∨ s.schedulerHeap.Full

/-- The task is added everywhere, or one of the three is full and all stay as they
were. -/
def AllOrNothing (s : Sched) (tcb taskPriority : Nat) : Prop :=
  (s.addTask tcb taskPriority).Added tcb ∨
    s.SomeFull ∧ s.Untouched (s.addTask tcb taskPriority)

/-- The two tables and the scheduler heap are all full, or none of them is. -/
def SameRoom (s : Sched) : Prop :=
  (s.activeTasksHashTable.Full ↔ s.schedulerHeap.Full) ∧
    (s.tasksInSchedulerHeapHashTable.Full ↔ s.schedulerHeap.Full)

instance (s : Sched) (tcb : Nat) : Decidable (s.Added tcb) :=
  inferInstanceAs (Decidable (_ ∧ _ ∧ _))

instance (s : Sched) : Decidable s.SameRoom := inferInstanceAs (Decidable (_ ∧ _))

/-- What a new task changes. -/
theorem NewTCB.addTask_eq (h : s.NewTCB tcb) (hpriority : 0 < taskPriority) :
    (s.addTask tcb taskPriority).activeTasksHashTable =
        (s.activeTasksHashTable.put tcb tcb .rejectMultipleValuesPerKey).1 ∧
      (s.addTask tcb taskPriority).tasksInSchedulerHeapHashTable =
        (s.tasksInSchedulerHeapHashTable.put tcb tcb .rejectMultipleValuesPerKey).1 ∧
      (s.addTask tcb taskPriority).schedulerHeap =
        (s.schedulerHeap.addNode tcb taskPriority).1 := by
  have hrefuses : ¬ s.Refuses tcb taskPriority := by
    rintro (hnull | hstate | hzero)
    · exact h.not_null hnull
    · exact hstate h.state
    · exact hpriority.ne' hzero
  rw [addTask_of_not_refuses hrefuses]
  exact ⟨rfl, rfl, rfl⟩

/-- A new task is added to each of the three that is not full. -/
theorem Intact.added_iff (hs : Intact P s) (h : s.NewTCB tcb) (hpriority : 0 < taskPriority) :
    (s.addTask tcb taskPriority).Added tcb ↔
      ¬ s.activeTasksHashTable.Full ∧ ¬ s.tasksInSchedulerHeapHashTable.Full ∧
        ¬ s.schedulerHeap.Full := by
  obtain ⟨hactive, hinHeap, hheap⟩ := h.addTask_eq hpriority
  obtain ⟨hactiveFull, hactiveRoom⟩ := put_new hs.active.wf h.not_active tcb
  obtain ⟨hinHeapFull, hinHeapRoom⟩ := put_new hs.inHeap h.not_inHeap tcb
  unfold Added
  rw [hactive, hinHeap, hheap]
  refine and_congr ⟨?_, ?_⟩ (and_congr ⟨?_, ?_⟩ ⟨?_, ?_⟩)
  · intro hmem hfull
    rw [hactiveFull hfull] at hmem
    exact h.not_active tcb hmem
  · intro hroom
    rw [hactiveRoom hroom]
    exact Multiset.mem_cons_self _ _
  · intro hmem hfull
    rw [hinHeapFull hfull] at hmem
    exact h.not_inHeap tcb hmem
  · intro hroom
    rw [hinHeapRoom hroom]
    exact Multiset.mem_cons_self _ _
  · intro hmem hfull
    rw [hfull.addNode] at hmem
    exact h.not_onHeap hmem
  · intro hroom
    rw [hs.schedulerHeap.addNode_contents hroom]
    exact Multiset.mem_cons_self _ _

/-- Nothing changes only where all three are full. -/
theorem Intact.untouched_iff (hs : Intact P s) (h : s.NewTCB tcb) (hpriority : 0 < taskPriority) :
    s.Untouched (s.addTask tcb taskPriority) ↔
      s.activeTasksHashTable.Full ∧ s.tasksInSchedulerHeapHashTable.Full ∧
        s.schedulerHeap.Full := by
  obtain ⟨hactive, hinHeap, hheap⟩ := h.addTask_eq hpriority
  obtain ⟨hactiveFull, hactiveRoom⟩ := put_new hs.active.wf h.not_active tcb
  obtain ⟨hinHeapFull, hinHeapRoom⟩ := put_new hs.inHeap h.not_inHeap tcb
  unfold Untouched
  rw [hactive, hinHeap, hheap]
  refine and_congr ⟨?_, hactiveFull⟩ (and_congr ⟨?_, hinHeapFull⟩
    ⟨?_, fun hfull => hfull.addNode _ _⟩)
  · intro heq
    -- with room the task would have been in the table before
    by_contra hroom
    refine h.not_active tcb ?_
    rw [← heq, hactiveRoom hroom]
    exact Multiset.mem_cons_self _ _
  · intro heq
    by_contra hroom
    refine h.not_inHeap tcb ?_
    rw [← heq, hinHeapRoom hroom]
    exact Multiset.mem_cons_self _ _
  · intro heq
    by_contra hroom
    refine h.not_onHeap ?_
    rw [← heq, hs.schedulerHeap.addNode_contents hroom]
    exact Multiset.mem_cons_self _ _

/-- **All or nothing**: in every reachable state, a new task is added everywhere or
nowhere iff the two tables and the scheduler heap are all full or none of them is. -/
theorem addTask_allOrNothing_iff (hN : 0 < N) (hmax : N ≤ UINT32_MAX)
    (hreach : (callbackMachine N).Reach s) (h : s.NewTCB tcb) (hpriority : 0 < taskPriority) :
    s.AllOrNothing tcb taskPriority ↔ s.SameRoom := by
  have hs := reach_intact hN hmax hreach
  unfold AllOrNothing SameRoom SomeFull
  rw [hs.added_iff h hpriority, hs.untouched_iff h hpriority]
  tauto

/-- One task for each node of the heap of `sampleSched`. -/
def sixteenTasks : List Callback :=
  (List.range 16).map fun i => .addTask (100 * (i + 1)) 1

/-- The first task is added everywhere. -/
theorem addTask_allOrNothing_iff_sample :
    (sampleSched 1).AllOrNothing 100 1 ↔ (sampleSched 1).SameRoom :=
  addTask_allOrNothing_iff (N := 16) (by decide) (by decide)
    (.init ⟨_, _, 1, 1, _, _, _, _, rfl⟩)
    ⟨by decide, rfl, fun _ => by simp [sampleSched, initializeScheduler],
      fun _ => by simp [sampleSched, initializeScheduler], Multiset.notMem_zero _⟩ (by decide)

/-- The heap is full after sixteen tasks: the next one is active, and on no heap. -/
theorem addTask_half :
    ¬ ∀ (N : Nat) (s : Sched) (tcb taskPriority : Nat), 0 < N → N ≤ UINT32_MAX →
      (callbackMachine N).Reach s → s.NewTCB tcb → 0 < taskPriority →
        s.AllOrNothing tcb taskPriority := by
  intro h
  obtain ⟨s, hrun, hstate, hactive, hinHeap, hheap, hroom⟩ := Lib.Machine.exists_run
    (P := fun s => (s.tcb 1700).state = TaskState.zero ∧
      1700 ∉ s.activeTasksHashTable.content.map Prod.fst ∧
      1700 ∉ s.tasksInSchedulerHeapHashTable.content.map Prod.fst ∧
      1700 ∉ s.schedulerHeap.contents ∧ ¬ s.SameRoom)
    (M := callbackMachine 16) (s := sampleSched 1) (e := sixteenTasks) (by decide +kernel)
  have hreach : (callbackMachine 16).Reach s :=
    Lib.Machine.Reach.run (.init ⟨_, _, 1, 1, _, _, _, _, rfl⟩) hrun
  have hnew : s.NewTCB 1700 :=
    { not_null := by decide
      state := hstate
      not_active := fun w hw => hactive (Multiset.mem_map_of_mem Prod.fst hw)
      not_inHeap := fun w hw => hinHeap (Multiset.mem_map_of_mem Prod.fst hw)
      not_onHeap := hheap }
  have hall := h 16 s 1700 1 (by decide) (by decide) hreach hnew (by decide)
  have hs := reach_intact (N := 16) (by decide) (by decide) hreach
  refine hroom ?_
  unfold AllOrNothing SomeFull at hall
  rw [hs.added_iff hnew (by decide), hs.untouched_iff hnew (by decide)] at hall
  unfold SameRoom
  tauto

end Sched

end DocetOS
