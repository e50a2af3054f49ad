import DocetOS.OS.AddTask
import DocetOS.OS.InheritedMinimum

/-!
# A task that is scheduled twice

`stochasticScheduler_addTask` relies on `tasksInSchedulerHeapHashTable` to turn down a
task that is added again. But it does not read what `OS_hashtable_put` returns, and the
task gets a second node on the scheduler heap.

- `OneNode`: every task on the scheduler heap has one node there, and its key is in the
  table. The callbacks keep this, one lemma for each function.
- `addTask_once_iff`: the calls of `addTask` after which no task has two nodes.
- `scheduled_once`: in a run with no other calls of `addTask`, in which priority
  inheritance finds the nodes it moves, no task has two nodes.
- `scheduled_twice`, `inherits_twice`: neither of the two conditions can be left out.
-/

namespace DocetOS

open Lib Hashtable

namespace Hashtable

/-- `remove` leaves the other keys in the table. -/
theorem mem_keys_remove {t : Hashtable} {k x : Nat} (h : t.WF) (hx : x ∈ t.keys) (hne : x ≠ k) :
    x ∈ (t.remove k).1.keys := by
  obtain ⟨v, hv⟩ := mem_keys.mp hx
  refine mem_keys.mpr ⟨v, ?_⟩
  by_cases hk : ∃ w, (k, w) ∈ t.content
  · obtain ⟨t', w, hremove, -, hcontent, -⟩ := remove_of_mem h hk
    rw [hremove]
    rw [← hcontent, Multiset.mem_cons] at hv
    exact hv.resolve_left fun heq => hne (congrArg Prod.fst heq)
  · rw [remove_of_not_mem h fun w hw => hk ⟨w, hw⟩]
    exact hv

end Hashtable

namespace MinHeap

variable {heap : MinHeap} {known : Finset Nat} {x : Nat}

/-- A heap that is full takes no node, and any other heap the new one. -/
theorem Distinct.addNode_new (h : Distinct known heap) (hx : x ∈ known)
    (hnew : x ∉ heap.contents) (v : Nat) : Distinct known (heap.addNode x v).1 := by
  by_cases hfull : heap.Full
  · rw [hfull.addNode]
    exact h
  · have hlast := h.wf.last_eq
    have hnext := h.wf.next_eq
    unfold MinHeap.Full at hfull
    exact (h.addNode hx hnew (by omega) v).1

/-- Removing a content that is found and adding it again keeps the heap well formed. -/
theorem readd_wf (h : heap.WF) (hfinds : heap.Finds x) (v : Nat) :
    (((heap.indexOfContent x).1.removeNodeAt (heap.indexOfContent x).2).1.addNode x v).1.WF := by
  obtain ⟨removed, -, hremoved, hwf, -⟩ := removeFound h hfinds
  rw [hremoved]
  exact addNode_wf hwf x v

end MinHeap

namespace Sched

/-- Every task on the scheduler heap has one node there, and its key is in
`tasksInSchedulerHeapHashTable`. -/
structure OneNode (s : Sched) : Prop where
  heap : s.schedulerHeap.Distinct s.tasksInSchedulerHeapHashTable.keys
  table : s.tasksInSchedulerHeapHashTable.WF

/-- No task has two nodes on the scheduler heap. -/
def ScheduledOnce (s : Sched) : Prop := ∀ tcb, s.schedulerHeap.contents.count tcb ≤ 1

variable {s s' : Sched} {task index : Nat}

theorem OneNode.scheduledOnce (h : s.OneNode) : s.ScheduledOnce :=
  Multiset.nodup_iff_count_le_one.mp h.heap.nodup

namespace OneNode

/-! ## The scheduler heap and its table -/

theorem taskAt_mem (h : s.OneNode) (hi : index < s.schedulerHeap.currentNumNodes) :
    s.taskAt index ∈ s.tasksInSchedulerHeapHashTable.keys :=
  h.heap.mem_known _ (MinHeap.mem_contents.mpr ⟨index, hi, rfl⟩)

/-- A task that comes back gets a node unless its key is there. -/
theorem returnToSchedulerHeap (h : s.OneNode) (task : Nat) :
    (s.returnToSchedulerHeap task).OneNode ∧
      (task ∈ s.tasksInSchedulerHeapHashTable.keys →
        (s.returnToSchedulerHeap task).schedulerHeap = s.schedulerHeap) := by
  rcases put_key_cases h.table task task with ⟨-, hput⟩ | ⟨hnew, -, t', hput, hwf, hcontent⟩
  · -- the put is refused, and its status is tested
    simp only [Sched.returnToSchedulerHeap, hput]
    exact ⟨⟨h.heap, h.table⟩, fun _ => rfl⟩
  · simp only [Sched.returnToSchedulerHeap, hput]
    refine ⟨?_, fun hold => absurd hold hnew⟩
    -- a task without a key has no node
    have hoff : task ∉ s.schedulerHeap.contents := by
      intro hmem
      exact hnew (h.heap.mem_known task hmem)
    have hkeys := keys_of_cons hcontent
    have hmono : s.schedulerHeap.Distinct t'.keys :=
      h.heap.mono (hkeys ▸ Finset.subset_insert task _)
    have hin : task ∈ t'.keys := hkeys ▸ Finset.mem_insert_self task _
    exact ⟨hmono.addNode_new hin hoff _, hwf⟩

/-- The node and the key of a task are removed together. -/
theorem leaveSchedulerHeap (h : s.OneNode) (hi : index < s.schedulerHeap.currentNumNodes) :
    (s.leaveSchedulerHeap index (s.taskAt index)).OneNode := by
  obtain ⟨hdistinct, -⟩ := h.heap.heapDown hi
  refine ⟨?_, remove_wf h.table _⟩
  show MinHeap.Distinct _ (s.schedulerHeap.removeNodeAt index).1
  rw [MinHeap.removeNodeAt_eq hi]
  refine ⟨hdistinct.wf, hdistinct.nodup, ?_⟩
  intro t ht
  -- the tasks that are left are others, so their keys are left too
  obtain ⟨hne, hmem⟩ := (h.heap.mem_heapDown hi t).mp ht
  exact mem_keys_remove h.table (h.heap.mem_known t hmem) hne

/-- Priority inheritance moves a node that it has found. -/
theorem inherits (h : s.OneNode) (hi : Inherits s s') {moves : Bool}
    (hm : MovesOnly moves task s s') (hfits : s.inheritanceFits moves task = true) :
    s'.OneNode := by
  obtain ⟨flag, htable⟩ := hi.inHeap
  have hkeys : s'.tasksInSchedulerHeapHashTable.keys = s.tasksInSchedulerHeapHashTable.keys := by
    rw [htable]
    rfl
  refine ⟨?_, htable ▸ h.table.setFlag flag⟩
  rw [hkeys]
  rcases Bool.or_eq_true_iff.mp hfits with hstays | hfinds
  · -- the node is not moved
    rcases hm with heq | ⟨hmoves, -⟩
    · exact heq ▸ h.heap
    · rw [hmoves] at hstays
      cases hstays
  · have hfinds := of_decide_eq_true hfinds
    obtain ⟨hcontents, -⟩ := hm.same_nodes h.heap.wf fun _ => hfinds
    refine ⟨?_, hcontents ▸ h.heap.nodup, fun t ht => h.heap.mem_known t (hcontents ▸ ht)⟩
    rcases hm with heq | ⟨-, -, value, heq⟩
    · exact heq ▸ h.heap.wf
    · rw [heq]
      exact MinHeap.readd_wf h.heap.wf hfinds value

/-! ## The scheduler -/

theorem wakeSleeper (h : s.OneNode) (task : Nat) :
    (s.wakeSleeper task).OneNode ∧
      (task ∈ s.tasksInSchedulerHeapHashTable.keys →
        (s.wakeSleeper task).schedulerHeap = s.schedulerHeap) := by
  have hwoken : ({ s.modifyTCB task fun tcb => { tcb with data := s.ticks } with
      sleepingTasksHashTable := (s.sleepingTasksHashTable.remove task).1
      activeTasksHashTable :=
        (s.activeTasksHashTable.put task task .rejectMultipleValuesPerKey).1 } : Sched).OneNode :=
    ⟨h.heap, h.table⟩
  obtain ⟨hreturned, hsame⟩ := hwoken.returnToSchedulerHeap task
  exact ⟨⟨hreturned.heap, hreturned.table⟩, hsame⟩

/-- A task that is on the heap when its sleep is looked at stays where it is. -/
theorem updateSleepState (h : s.OneNode) (task : Nat) :
    (s.updateSleepState task).1.OneNode ∧
      (task ∈ s.tasksInSchedulerHeapHashTable.keys →
        (s.updateSleepState task).1.schedulerHeap = s.schedulerHeap) := by
  cases hsleep : (s.tcb task).state.sleep with
  | false =>
    rw [updateSleepState_awake hsleep]
    exact ⟨h, fun _ => rfl⟩
  | true =>
    have hflag : (s.noteRollover task).OneNode := ⟨h.heap, h.table⟩
    rcases updateSleepState_sleeping hsleep with ⟨-, hs⟩ | ⟨-, hs⟩
    · rw [hs]
      exact hflag.wakeSleeper task
    · rw [hs]
      exact ⟨⟨h.heap, h.table⟩, fun _ => rfl⟩

theorem removeIfSleeping (h : s.OneNode) (hi : index < s.schedulerHeap.currentNumNodes) :
    (s.removeIfSleeping index).1.OneNode ∧
      ((s.removeIfSleeping index).2 = false →
        (s.removeIfSleeping index).1.schedulerHeap = s.schedulerHeap) := by
  obtain ⟨hupdated, hsame⟩ := h.updateSleepState (s.taskAt index)
  -- the task has its key, so it is not added even if it wakes up
  have hsame := hsame (h.taskAt_mem hi)
  simp only [Sched.removeIfSleeping]
  split
  · have htask : (s.updateSleepState (s.taskAt index)).1.taskAt index = s.taskAt index :=
      congrArg (fun heap => (heap.ptrToUnderlyingArray index).ptrToNodeContent) hsame
    rw [← hsame] at hi
    have hleave := hupdated.leaveSchedulerHeap hi
    rw [htask] at hleave
    exact ⟨⟨hleave.heap, hleave.table⟩, fun hremoved => by cases hremoved⟩
  · exact ⟨hupdated, fun _ => hsame⟩

theorem removeIfExit (h : s.OneNode) (hended : s.HasEnded (s.taskAt index))
    (hi : index < s.schedulerHeap.currentNumNodes) (memclusterInUse : Bool) :
    (s.removeIfExit memclusterInUse index).1.OneNode := by
  have hleave := h.leaveSchedulerHeap hi
  rw [removeIfExit_of_ended memclusterInUse hended]
  by_cases hinUse : memclusterInUse = false
  · rw [if_pos hinUse]
    exact ⟨hleave.heap, hleave.table⟩
  · rw [if_neg hinUse]
    simp only [complete]
    split
    · exact ⟨hleave.heap, hleave.table⟩
    · exact ⟨hleave.heap, hleave.table⟩

/-- The three removals: a task that is not removed leaves the heap as it is. -/
theorem removeIfInactive (h : s.OneNode) (hi : index < s.schedulerHeap.currentNumNodes)
    (memclusterInUse : Bool) :
    (s.removeIfInactive memclusterInUse index).1.OneNode ∧
      ((s.removeIfInactive memclusterInUse index).2 = false →
        (s.removeIfInactive memclusterInUse index).1.schedulerHeap = s.schedulerHeap) := by
  unfold Sched.removeIfInactive
  by_cases hended : s.HasEnded (s.taskAt index)
  · have hexit := h.removeIfExit hended hi memclusterInUse
    rw [removeIfExit_of_ended memclusterInUse hended] at hexit ⊢
    exact ⟨hexit, fun hremoved => by cases hremoved⟩
  rw [removeIfExit_of_not memclusterInUse hended]
  rcases removeIfWaiting_cases s index with ⟨-, hs⟩ | ⟨-, hs⟩
  · simp only [hs]
    exact ⟨h.leaveSchedulerHeap hi, fun hremoved => by cases hremoved⟩
  · simp only [hs]
    exact h.removeIfSleeping hi

/-- The walk looks at nodes of the heap only. -/
theorem selectTask (h : s.OneNode) {memclusterInUse : Bool} {rand : Nat → Nat}
    {fuel k nodeIndex maxValidHeapIdx lastActiveNodeIndex selected : Nat}
    (hi : nodeIndex < s.schedulerHeap.currentNumNodes)
    (hmax : maxValidHeapIdx < s.schedulerHeap.currentNumNodes)
    (hs : selectTask memclusterInUse rand fuel k s nodeIndex maxValidHeapIdx lastActiveNodeIndex =
      some (s', selected)) : s'.OneNode := by
  induction fuel generalizing k s nodeIndex maxValidHeapIdx lastActiveNodeIndex with
  | zero => cases hs
  | succ fuel ih =>
    obtain ⟨hafter, hsame⟩ := h.removeIfInactive hi memclusterInUse
    simp only [Sched.selectTask] at hs
    split at hs
    · -- a node is removed: the walk goes on with the node that took its place
      rename_i s₁ hremove
      rw [hremove] at hafter
      have hafter : s₁.OneNode := hafter
      split at hs
      · cases hs
        exact hafter
      · rename_i hempty
        split at hs
        · cases hs
          exact hafter
        · exact ih hafter (by omega) (by omega) hs
    · -- the heap is the same, so its last index is too
      rename_i s₁ hremove
      rw [hremove] at hafter hsame
      have hsame : s₁.schedulerHeap = s.schedulerHeap := hsame rfl
      by_cases hdown : getRandForTaskChoice (rand k) ≠ 0 ∧
          (if getRandForTaskChoice (rand k) = 1 then getFirstChildIndex nodeIndex
            else getSecondChildIndex nodeIndex) ≤ maxValidHeapIdx
      · rw [if_pos hdown] at hs
        rw [← hsame] at hmax
        exact ih hafter (Nat.lt_of_le_of_lt hdown.2 hmax) hmax hs
      · rw [if_neg hdown] at hs
        cases hs
        exact hafter

theorem beforeWake (h : s.OneNode) {memclusterInUse : Bool} {fuel : Nat}
    (hs : s.beforeWake memclusterInUse fuel = some s') : s'.OneNode := by
  obtain ⟨s₁, hfree, hs⟩ := beforeWake_eq hs
  have hfreed : s₁.OneNode := by
    rcases hfree with rfl | hfree
    · exact h
    · obtain ⟨freed, rfl⟩ := freeCompleted_cases hfree
      exact ⟨h.heap, h.table⟩
  simp only [switchTask] at hs
  split at hs
  · obtain ⟨s₂, hbuckets, rfl⟩ := Option.map_eq_some_iff.mp hs
    have hupdated : s₂.OneNode :=
      updateBuckets_keeps (R := fun s s' => s.OneNode → s'.OneNode) (fun _ => id)
        (fun _ _ _ h h' hs => h' (h hs)) (fun _ _ hs => ⟨hs.heap, hs.table⟩)
        (fun _ task hs => (hs.updateSleepState task).1) hbuckets ⟨hfreed.heap, hfreed.table⟩
    exact ⟨hupdated.heap, hupdated.table⟩
  · cases hs
    exact ⟨hfreed.heap, hfreed.table⟩

theorem wakeSleepers (h : s.OneNode) : s.wakeSleepers.OneNode :=
  wakeLoop_keeps (R := fun s s' => s.OneNode → s'.OneNode) (fun _ => id)
    (fun _ _ _ h h' hs => h' (h hs)) (fun _ _ hs => ⟨hs.heap, hs.table⟩)
    (fun _ task hs => (hs.updateSleepState task).1) _ s h

theorem pendSV (h : s.OneNode) {memclusterInUse : Bool} {rand : Nat → Nat} {fuel : Nat}
    (hs : s.pendSV memclusterInUse rand fuel = some s') : s'.OneNode := by
  simp only [Sched.pendSV, Option.bind_eq_bind, Option.bind_eq_some_iff, Option.pure_def,
    Option.some.injEq] at hs
  obtain ⟨⟨s₂, next⟩, hs, rfl⟩ := hs
  suffices hscheduled : s₂.OneNode from ⟨hscheduled.heap, hscheduled.table⟩
  simp only [Sched.scheduler] at hs
  split at hs
  · cases hs
    exact ⟨h.heap, h.table⟩
  · obtain ⟨s₁, hbefore, hs⟩ := Option.bind_eq_some_iff.mp hs
    have hwoken := (h.beforeWake hbefore).wakeSleepers
    unfold afterWake at hs
    split at hs
    · cases hs
      exact hwoken
    · exact hwoken.selectTask (by omega) (by omega) hs

/-! ## The other callbacks -/

theorem waitCallback (h : s.OneNode) {fuel reason checkCode isReasonMutex : Nat}
    (hfits : s.waitFits fuel reason checkCode isReasonMutex = true)
    (hs : s.waitCallback fuel reason checkCode isReasonMutex = some s') : s'.OneNode := by
  have hparked : (s.park reason).OneNode := ⟨h.heap, h.table⟩
  rcases waitCallback_moves hs with rfl | ⟨hcode, rfl | ⟨hmutex, hi, hm⟩⟩
  · exact h
  · exact hparked
  · unfold waitFits at hfits
    rw [if_pos ⟨hcode, hmutex⟩] at hfits
    exact hparked.inherits hi hm hfits

theorem unpark (h : s.OneNode) (task : Nat) : (s.unpark task).OneNode := by
  simp only [Sched.unpark]
  refine (OneNode.returnToSchedulerHeap ?_ task).1
  split
  · exact ⟨h.heap, h.table⟩
  · exact ⟨h.heap, h.table⟩

theorem wakeAll (h : s.OneNode) (reason : Nat) : (s.wakeAll reason).OneNode := by
  have hloop : ∀ rounds (s : Sched), s.OneNode → (wakeWaiting reason rounds s).OneNode := by
    intro rounds
    induction rounds with
    | zero => exact fun s hs => hs
    | succ rounds ih =>
      intro s hs
      have htaken : (s.takeWaiting reason).1.OneNode := ⟨hs.heap, hs.table⟩
      simp only [wakeWaiting]
      split
      · exact htaken
      · exact ih _ (htaken.unpark _)
  exact hloop _ s h

end OneNode

/-! ## Adding a task -/

/-- A call of `addTask` is turned down, or the scheduler heap is full, or the task is not
on the heap and has its key in the table afterwards. -/
def AddsNew (s : Sched) : Callback → Prop
  | .addTask tcb taskPriority =>
    s.Refuses tcb taskPriority ∨ s.schedulerHeap.Full ∨
      (tcb ∉ s.schedulerHeap.contents ∧
        (tcb ∈ s.tasksInSchedulerHeapHashTable.keys ∨ ¬ s.tasksInSchedulerHeapHashTable.Full))
  | _ => True

/-- The lookup table gives the node of the task that priority inheritance moves, so the
`ASSERT` behind the removal holds. -/
def FindsMoved (s : Sched) : Callback → Prop
  | .wait fuel reason checkCode isReasonMutex =>
    s.waitFits fuel reason checkCode isReasonMutex = true
  | .notify fuel reason =>
    let s := s.nextCheckCode.wakeAll reason
    s.inheritanceFits (dropAcquiredMoves reason fuel s NULL
      (s.tcb s.currentTCB).acquiredResourcesLinkedList) s.currentTCB = true
  | _ => True

instance (s : Sched) (e : Callback) : Decidable (s.AddsNew e) := by
  cases e <;> simp only [AddsNew] <;> infer_instance

instance (s : Sched) (e : Callback) : Decidable (s.FindsMoved e) := by
  cases e <;> simp only [FindsMoved] <;> infer_instance

/-- A heap that takes the node gives the task one node more. -/
theorem OneNode.enterTask_contents (h : s.OneNode) (hroom : ¬ s.schedulerHeap.Full)
    (tcb taskPriority : Nat) :
    (s.enterTask tcb taskPriority).schedulerHeap.contents = tcb ::ₘ s.schedulerHeap.contents :=
  (MinHeap.Shaped.of_wf h.heap.wf).addNode_contents hroom tcb taskPriority

/-- **The step lemma for `addTask`**: no task has two nodes after the call iff it is turned
down, the heap is full, or the task was not on the heap. -/
theorem addTask_once_iff (h : s.OneNode) (tcb taskPriority : Nat) :
    (s.addTask tcb taskPriority).ScheduledOnce ↔
      s.Refuses tcb taskPriority ∨ s.schedulerHeap.Full ∨ tcb ∉ s.schedulerHeap.contents := by
  by_cases hrefuses : s.Refuses tcb taskPriority
  · rw [hrefuses.addTask]
    exact iff_of_true h.scheduledOnce (.inl hrefuses)
  rw [addTask_of_not_refuses hrefuses]
  by_cases hfull : s.schedulerHeap.Full
  · refine iff_of_true ?_ (.inr (.inl hfull))
    unfold ScheduledOnce enterTask
    rw [hfull.addNode]
    exact h.scheduledOnce
  · unfold ScheduledOnce
    rw [h.enterTask_contents hfull, ← Multiset.nodup_iff_count_le_one, Multiset.nodup_cons]
    constructor
    · rintro ⟨hnew, -⟩
      exact .inr (.inr hnew)
    · rintro (hrefuses' | hfull' | hnew)
      · exact absurd hrefuses' hrefuses
      · exact absurd hfull' hfull
      · exact ⟨hnew, h.heap.nodup⟩

theorem OneNode.addTask (h : s.OneNode) {tcb taskPriority : Nat}
    (hnew : s.AddsNew (.addTask tcb taskPriority)) : (s.addTask tcb taskPriority).OneNode := by
  by_cases hrefuses : s.Refuses tcb taskPriority
  · rw [hrefuses.addTask]
    exact h
  rw [addTask_of_not_refuses hrefuses]
  have hok : s.schedulerHeap.Full ∨ (tcb ∉ s.schedulerHeap.contents ∧
      (tcb ∈ s.tasksInSchedulerHeapHashTable.keys ∨ ¬ s.tasksInSchedulerHeapHashTable.Full)) :=
    Or.resolve_left hnew hrefuses
  refine ⟨?_, put_wf h.table _ _ _⟩
  show MinHeap.Distinct (s.tasksInSchedulerHeapHashTable.put tcb tcb
    .rejectMultipleValuesPerKey).1.keys (s.schedulerHeap.addNode tcb taskPriority).1
  rcases put_key_cases h.table tcb tcb with ⟨hold, hput⟩ | ⟨-, -, t', hput, -, hcontent⟩
  · -- the put is refused: if there is a node, the key was there before
    rw [hput]
    rcases hok with hfull | ⟨hnew, hkey⟩
    · rw [hfull.addNode]
      exact h.heap
    · exact h.heap.addNode_new (hkey.elim id fun hroom => hold.resolve_right hroom) hnew _
  · rw [hput]
    have hkeys := keys_of_cons hcontent
    have hmono : s.schedulerHeap.Distinct t'.keys :=
      h.heap.mono (hkeys ▸ Finset.subset_insert tcb _)
    rcases hok with hfull | ⟨hnew, -⟩
    · rw [hfull.addNode]
      exact hmono
    · exact hmono.addNode_new (hkeys ▸ Finset.mem_insert_self tcb _) hnew _

/-! ## Runs -/

theorem OneNode.callback (h : s.OneNode) {e : Callback} (hnew : s.AddsNew e)
    (hfound : s.FindsMoved e) (hs : s.callback e = some s') : s'.OneNode := by
  cases e with
  | memory tcb mutexes currentTCB ticks =>
    cases hs
    exact ⟨h.heap, h.table⟩
  | scheduler switch => exact h.pendSV hs
  | addTask tcb taskPriority =>
    cases hs
    exact h.addTask hnew
  | taskExit tcb =>
    cases hs
    exact ⟨h.heap, h.table⟩
  | wait fuel reason checkCode isReasonMutex => exact h.waitCallback hfound hs
  | notify fuel reason =>
    -- waking adds a node only if the table has no entry; inheritance finds the node it moves
    have hcode : s.nextCheckCode.OneNode := ⟨h.heap, h.table⟩
    exact (hcode.wakeAll reason).inherits (notifyCallback_inherits hs) (dropAcquired_moves hs)
      hfound
  | sleep tcb minSleepDuration =>
    cases hs
    rcases sleepCallback_cases s tcb minSleepDuration with heq | ⟨-, heq⟩ | ⟨-, heq⟩
    · rw [heq]
      exact h
    · rw [heq]
      exact ⟨h.heap, h.table⟩
    · rw [heq]
      exact ⟨h.heap, h.table⟩
  | resourceAcquired acquiredMutex =>
    cases hs
    simp only [resourceAcquired]
    split
    · exact h
    · split
      · exact h
      · exact ⟨h.heap, h.table⟩

/-- At the start the scheduler heap is empty. -/
theorem FreshlyBooted.oneNode {N : Nat} (hN : 0 < N) (hmax : N ≤ UINT32_MAX)
    (h : FreshlyBooted N s) : s.OneNode := by
  obtain ⟨tcb, mutexes, currentTCB, idleTCB, ticks, values, flags, nodes, rfl⟩ := h
  constructor
  · refine ⟨MinHeap.newHeap_wf hN hmax _ _ _ _, Multiset.nodup_zero, ?_⟩
    intro t ht
    exact absurd ht (Multiset.notMem_zero t)
  · exact newHashtable_wf (by decide) (by decide) _ _

end Sched

/-- The runs in which `addTask` adds new tasks only and priority inheritance finds the
nodes it moves. -/
def onceMachine (N : Nat) : Machine Sched Sched.Callback :=
  (callbackMachine N).guard fun s e => s.AddsNew e ∧ s.FindsMoved e

namespace Sched

/-- **No task is scheduled twice** in a run in which `addTask` adds new tasks only and
priority inheritance finds the nodes it moves. -/
theorem scheduled_once {N : Nat} (hN : 0 < N) (hmax : N ≤ UINT32_MAX)
    (h : (onceMachine N).Reach s) : s.ScheduledOnce := by
  have hnode : s.OneNode := by
    refine Machine.Reach.invariant ?_ ?_ h
    · intro s hs
      exact FreshlyBooted.oneNode hN hmax hs
    · intro s e s' hs hstep
      obtain ⟨⟨hnew, hfound⟩, hstep⟩ := Machine.guard_step_iff.mp hstep
      exact hs.callback hnew hfound hstep
  exact hnode.scheduledOnce

/-- Task 100 is added, and again when it sleeps. -/
def addsAgain : List Callback :=
  [.addTask 100 1, .addTask 200 2, .sleep 100 5, .addTask 100 1]

theorem scheduled_once_addsAgain :
    ∃ s, (onceMachine 16).run (sampleSched 1) addsAgain = some s ∧
      s.schedulerHeap.contents = {100, 200} ∧ s.ScheduledOnce := by
  obtain ⟨s, hrun, hcontents⟩ := Machine.exists_run
    (P := fun s => s.schedulerHeap.contents = {100, 200})
    (M := onceMachine 16) (s := sampleSched 1) (e := addsAgain) (by decide +kernel)
  exact ⟨s, hrun, hcontents, scheduled_once (N := 16) (by decide) (by decide)
    (.run (.init ⟨_, _, 1, 1, _, _, _, _, rfl⟩) hrun)⟩

/-- Task 100 is added twice, and has two nodes. -/
theorem scheduled_twice :
    ¬ ∀ (N : Nat) (s : Sched), 0 < N → N ≤ UINT32_MAX → (callbackMachine N).Reach s →
      s.ScheduledOnce := by
  intro h
  obtain ⟨s, hrun, hcount⟩ := Machine.exists_run
    (P := fun s => s.schedulerHeap.contents.count 100 = 2)
    (M := callbackMachine 16) (s := sampleSched 1) (e := [.addTask 100 1, .addTask 100 1])
    (by decide +kernel)
  have hreach : (callbackMachine 16).Reach s :=
    Machine.Reach.run (.init ⟨_, _, 1, 1, _, _, _, _, rfl⟩) hrun
  have honce := h 16 s (by decide) (by decide) hreach 100
  rw [hcount] at honce
  exact absurd honce (by decide)

/-- Sixteen tasks come and go, each the last node on the heap when it ends. Then task 1700
has mutex 500, and task 1800 waits for it. -/
def leaksEntries : List Callback :=
  (List.range 16).flatMap (fun i =>
      [.addTask (100 * (i + 1)) 1, .taskExit (100 * (i + 1)), .scheduler ⟨false, fun _ => 0, 1⟩]) ++
    [.addTask 1700 5,
      .memory (fun t => ⟨0, .zero, if t = 1700 then 5 else 1, 0, 0, 0, 0,
        if t = 1700 then 500 else NULL⟩) (fun _ => { initMutex with tcbPointer := 1700 }) 1800 0,
      .wait 2 500 0 1]

/-- The lookup table may be full of the entries of tasks that have ended. Then priority
inheritance adds a second node, though all tasks that are added are new. -/
theorem inherits_twice :
    ¬ ∀ (N : Nat) (s : Sched), 0 < N → N ≤ UINT32_MAX →
      ((callbackMachine N).guard Sched.AddsNew).Reach s → s.ScheduledOnce := by
  intro h
  obtain ⟨s, hrun, hcount⟩ := Machine.exists_run
    (P := fun s => s.schedulerHeap.contents.count 1700 = 2)
    (M := (callbackMachine 16).guard Sched.AddsNew) (s := sampleSched 1) (e := leaksEntries)
    (by decide +kernel)
  have hreach : ((callbackMachine 16).guard Sched.AddsNew).Reach s :=
    Machine.Reach.run (.init ⟨_, _, 1, 1, _, _, _, _, rfl⟩) hrun
  have honce := h 16 s (by decide) (by decide) hreach 1700
  rw [hcount] at honce
  exact absurd honce (by decide)

end Sched

end DocetOS
