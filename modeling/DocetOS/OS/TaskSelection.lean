import DocetOS.OS.HeapRoom
import DocetOS.OS.Walk

/-!
# The loops of the scheduler

The loops over the woken tasks and the walk down the scheduler heap, in terms of
the books. `Onward` is what all of them keep: no active task stops being one.

The walk removes nodes from the heap it walks on, so the index it falls back to
must survive this. A removal at an index moves no node before it
(`MinHeap.heapDown_array_of_lt`), and the node remembered is the parent of the
present one; `Books.selectTask` carries this through the walk. Every round
removes a node or goes down, so the walk ends.
-/

namespace DocetOS

open Hashtable

namespace Sched

/-- Tasks may have moved on, but those that were active still are, and no task has
been rejected. -/
structure Onward (life life' : Nat → Lifecycle) (s s' : Sched) : Prop where
  currentTCB : s'.currentTCB = s.currentTCB
  idleTCB : s'.idleTCB = s.idleTCB
  active : ∀ t, life t = .active → life' t = .active
  rejected : ∀ t, life' t = .rejected → life t = .rejected

namespace Onward

variable {life life' life'' : Nat → Lifecycle} {s s' s'' : Sched} {task : Nat} {l : Lifecycle}

theorem refl (life : Nat → Lifecycle) (s : Sched) : Onward life life s s :=
  ⟨rfl, rfl, fun _ h => h, fun _ h => h⟩

theorem trans (h : Onward life life' s s') (h' : Onward life' life'' s' s'') :
    Onward life life'' s s'' :=
  ⟨h'.currentTCB.trans h.currentTCB, h'.idleTCB.trans h.idleTCB,
    fun t ht => h'.active t (h.active t ht), fun t ht => h.rejected t (h'.rejected t ht)⟩

/-- One task that is not active moves on. -/
theorem update (hcurrent : s'.currentTCB = s.currentTCB) (hidle : s'.idleTCB = s.idleTCB)
    (htask : life task ≠ .active) (hl : l ≠ .rejected) :
    Onward life (Function.update life task l) s s' := by
  refine ⟨hcurrent, hidle, ?_, fun t => Lifecycle.rejected_of_update hl⟩
  intro t ht
  have hne : t ≠ task := by
    rintro rfl
    exact htask ht
  rw [Function.update_of_ne hne]
  exact ht

end Onward

namespace Books

variable {N : Nat} {tasks : Finset Nat} {fresh : Prop} {life : Nat → Lifecycle} {s s' : Sched}
  {task t reason index : Nat}

/-! ## `notifyCallback` -/

/-- The loop that wakes the tasks that wait for a reason: only these move on. -/
theorem wakeWaiting (h : Books N tasks fresh life s) {rounds : Nat}
    (hfits : tasks.card ≤ N ∨ wakeWaitingFits reason rounds s = true) :
    ∃ life', Books N tasks fresh life' (wakeWaiting reason rounds s) ∧
      Onward life life' s (Sched.wakeWaiting reason rounds s) ∧
      ∀ t, life' t = life t ∨ ((reason, t) ∈ s.waiting ∧ life' t = .active) := by
  induction rounds generalizing s life with
  | zero => exact ⟨life, h, .refl life s, fun _ => .inl rfl⟩
  | succ rounds ih =>
    by_cases hmem : ∃ task, (reason, task) ∈ s.waiting
    · obtain ⟨reasons, task, htake, -, hcontent, -⟩ := takeWaiting_of_mem h.waiters.parked.wf hmem
      have htask : (reason, task) ∈ s.waiting := hcontent ▸ Multiset.mem_cons_self _ _
      have hnull := h.waiters.parked.not_null reason task htask
      have hwaiting := (h.waiters.mem task).mp ⟨reason, htask⟩
      have hne : life task ≠ .absent := fun hl => by rw [hl] at hwaiting; cases hwaiting
      have hactive : life task ≠ .active := fun hl => by rw [hl] at hwaiting; cases hwaiting
      have hrejected : life task ≠ .rejected := fun hl => by rw [hl] at hwaiting; cases hwaiting
      simp only [wakeWaitingFits, htake, if_neg hnull, Bool.and_eq_true] at hfits
      have hstep := h.wake htask (by rw [htake]) fun hoff =>
        h.num_lt (h.mem_of_ne_absent hne) (hfits.imp id And.left) (by
          simp [Lifecycle.inTable, hoff, hrejected])
      rw [htake] at hstep
      -- one waiter is awake; the later rounds take from what is left in the table
      obtain ⟨life', hbooks, honward, hmoves⟩ := ih hstep (hfits.imp id And.right)
      simp only [Sched.wakeWaiting, htake, if_neg hnull]
      refine ⟨life', hbooks, Onward.trans (Onward.update ?_ ?_ hactive (by simp)) honward, ?_⟩
      · rw [unpark_rest]
      · rw [unpark_rest]
      · intro t
        rcases hmoves t with heq | ⟨hwaits, heq⟩
        · by_cases ht : t = task
          · rw [ht, Function.update_self] at heq
            exact .inr ⟨ht ▸ htask, ht ▸ heq⟩
          · rw [Function.update_of_ne ht] at heq
            exact .inl heq
        · unfold Sched.waiting at hwaits
          rw [unpark_rest] at hwaits
          exact .inr ⟨hcontent ▸ Multiset.mem_cons_of_mem hwaits, heq⟩
    · -- the last round takes nothing
      have hnone : ∀ task, (reason, task) ∉ s.waiting := fun task ht => hmem ⟨task, ht⟩
      simp only [Sched.wakeWaiting, takeWaiting_of_not_mem h.waiters.parked.wf hnone, if_pos]
      refine ⟨life, ?_, ⟨rfl, rfl, fun _ ht => ht, fun _ ht => ht⟩, fun _ => .inl rfl⟩
      exact
        { h with
          active := { h.active with }
          sleeping := { h.sleeping with }
          waiters :=
            { h.waiters with
              parked := { h.waiters.parked with wf := h.waiters.parked.wf.setFlag 0 } }
          onHeap := { h.onHeap with table := { h.onHeap.table with } }
          onSleepHeap := { h.onSleepHeap with }
          completed := fun hfresh => { h.completed hfresh with } }

theorem wakeAll (h : Books N tasks fresh life s)
    (hfits : tasks.card ≤ N ∨ wakeWaitingFits reason
      (s.waitingTasksHashTableReasonAsKey.maximumCapacity + 1) s = true) :
    ∃ life', Books N tasks fresh life' (s.wakeAll reason) ∧
      Onward life life' s (s.wakeAll reason) ∧
      ∀ t, life' t = life t ∨ ((reason, t) ∈ s.waiting ∧ life' t = .active) :=
  h.wakeWaiting hfits

/-! ## The wake-up loop -/

theorem wakeLoop (h : Books N tasks fresh life s) {rounds : Nat}
    (hfits : tasks.card ≤ N ∨ wakeLoopFits rounds s = true) :
    ∃ life', Books N tasks fresh life' (wakeLoop rounds s) ∧
      Onward life life' s (Sched.wakeLoop rounds s) := by
  induction rounds generalizing s life with
  | zero => exact ⟨life, h, .refl life s⟩
  | succ rounds ih =>
    rcases MinHeap.removeNode_cases h.onSleepHeap.heap.wf with
      ⟨-, hremove⟩ | ⟨heap, top, hremove, hwf, hcontents, -, hroom⟩
    · simp only [Sched.wakeLoop, hremove]
      exact ⟨life, h, .refl life s⟩
    · -- the task at the top of the sleep heap sleeps
      have htop : top ∈ s.sleepHeap.contents := hcontents ▸ Multiset.mem_cons_self _ _
      have hon := (h.onSleepHeap.mem top).mp htop
      obtain ⟨hlife, hsleep⟩ : life top = .sleeping false ∧ (life top).isSleeping = true := by
        cases hl : life top <;> rw [hl] at hon <;>
          simp_all [Lifecycle.onSleepHeap, Lifecycle.isSleeping]
      have hscheduled := h.mem_of_ne_absent (t := top) (by rw [hlife]; simp)
      have hbit : (s.tcb top).state.sleep = true := (h.shows top hscheduled).sleep.trans hsleep
      have hnodup := h.onSleepHeap.heap.nodup
      rw [← hcontents, Multiset.nodup_cons] at hnodup
      -- the room of the heap does not depend on what it holds
      have hmax : heap.maxNumberOfNodes = N := by
        have heq := congrArg (fun p : MinHeap × Option Nat => p.1.maxNumberOfNodes) hremove
        rw [← h.onSleepHeap.size, ← heq]
        unfold MinHeap.removeNode
        split
        · rfl
        · exact MinHeap.heapDown_max _ _
      have hdistinct : heap.Distinct tasks :=
        ⟨hwf, hnodup.2, fun x hx => h.onSleepHeap.heap.mem_known x
          (hcontents ▸ Multiset.mem_cons_of_mem hx)⟩
      have hmem : ∀ t, t ∈ heap.contents ↔ t ≠ top ∧ t ∈ s.sleepHeap.contents := by
        intro t
        rw [← hcontents, Multiset.mem_cons]
        constructor
        · intro ht
          exact ⟨fun heq => hnodup.1 (heq ▸ ht), .inr ht⟩
        · rintro ⟨hne, ht⟩
          exact ht.resolve_left hne
      simp only [Sched.wakeLoop, hremove]
      simp only [wakeLoopFits, hremove] at hfits
      have hclock : (({ s with sleepHeap := heap } : Sched).tcb top).state.sleep = true →
          (s.tcb top).data ≤ s.ticks := fun _ => h.clock top hsleep
      rcases updateSleepState_cases hclock with ⟨hnot, -⟩ | ⟨-, -, hs⟩ | ⟨-, hs⟩
      · rw [show (s.tcb top).state.sleep = false from hnot] at hbit
        cases hbit
      · simp only [hs, Bool.false_eq_true, if_false, Bool.and_eq_true] at hfits ⊢
        have hwoken := h.wakeSleeper hsleep (fun _ => h.num_lt hscheduled (hfits.imp id And.left)
          (by rw [hlife]; rfl)) hdistinct hmax hmem
        obtain ⟨life', hbooks, honward⟩ := ih hwoken (hfits.imp id And.right)
        obtain ⟨hcurrent, hidle⟩ := wakeSleeper_tasks { s with sleepHeap := heap } top
        exact ⟨life', hbooks,
          Onward.trans (Onward.update hcurrent hidle (by rw [hlife]; simp) (by simp)) honward⟩
      · -- the first task that is still asleep goes back, and the loop ends
        simp only [hs, if_true]
        obtain ⟨hadded, hcontents'⟩ := hdistinct.addNode (h.known top hscheduled).1 hnodup.1 hroom
          ((({ s with sleepHeap := heap } : Sched).refreshSleeper top).tcb top).data2
        refine ⟨life, (h.refreshSleeper hsleep).setSleepHeap hadded
          ((MinHeap.addNode_max ..).trans hmax) ?_, ⟨rfl, rfl, fun _ ht => ht, fun _ ht => ht⟩⟩
        intro t
        have heq : (heap.addNode top ((({ s with sleepHeap := heap } : Sched).refreshSleeper
            top).tcb top).data2).1.contents = s.sleepHeap.contents := hcontents'.trans hcontents
        exact heq ▸ Iff.rfl

/-! ## The walk -/

/-- **One round of the walk**: the task at the index leaves the scheduler heap, or
it is active. -/
theorem removeIfInactive (h : Books N tasks fresh life s)
    (hi : index < s.schedulerHeap.currentNumNodes) (memclusterInUse : Bool)
    (hfits : tasks.card ≤ N ∨ s.moveFits index = true) :
    ∃ life' s', Books N tasks fresh life' s' ∧ Onward life life' s s' ∧
      (∀ t, t ≠ s.taskAt index → life' t = life t) ∧
      ((s.removeIfInactive memclusterInUse index = (s', true) ∧
          s'.schedulerHeap = s.schedulerHeap.heapDown index) ∨
        (s.removeIfInactive memclusterInUse index = (s', false) ∧
          s'.schedulerHeap = s.schedulerHeap ∧ life' (s.taskAt index) = .active)) := by
  have hmem : s.taskAt index ∈ s.schedulerHeap.contents :=
    MinHeap.mem_contents.mpr ⟨index, hi, rfl⟩
  have hon := (h.onHeap.mem _).mp hmem
  have hshows := h.shows _ (h.mem_of_onHeap hmem)
  have hleave : (s.schedulerHeap.removeNodeAt index).1 = s.schedulerHeap.heapDown index := by
    rw [MinHeap.removeNodeAt_eq hi]
  have hexit := removeIfExit_cases memclusterInUse s index
  have hwait := removeIfWaiting_cases s index
  have hsleep := @removeIfSleeping_cases s index
  -- the flags are tested in the order exit, wait, sleep; the life of the task decides each
  cases hlife : life (s.taskAt index) with
  | absent => rw [hlife] at hon; cases hon
  | rejected => rw [hlife] at hon; cases hon
  | active =>
    rw [hlife] at hshows
    rcases hexit with ⟨hbit, -⟩ | ⟨-, hexit⟩
    · rw [hshows.exit] at hbit; cases hbit
    rcases hwait with ⟨hbit, -⟩ | ⟨-, hwait⟩
    · rw [hshows.wait] at hbit; cases hbit
    rcases hsleep (fun hbit => by rw [hshows.sleep] at hbit; cases hbit) with
      ⟨-, hsleep⟩ | ⟨hbit, -⟩ | ⟨hasleep, -⟩
    · exact ⟨life, s, h, .refl life s, fun _ _ => rfl,
        .inr ⟨by simp only [Sched.removeIfInactive, hexit, hwait, hsleep], rfl, hlife⟩⟩
    · rw [hshows.sleep] at hbit; cases hbit
    · exact absurd (hshows.sleep.symm.trans hasleep.1) (by simp [Lifecycle.isSleeping])
  | ended =>
    rw [hlife] at hshows
    rcases hexit with ⟨-, -, -, tcb, completed, freed, hexit, hother, -, hcompleted⟩ | ⟨hbit, -⟩
    · refine ⟨_, _, h.retire hi hlife hother hcompleted freed,
        Onward.update rfl rfl (by rw [hlife]; simp) (by simp),
        fun t ht => Function.update_of_ne ht _ _,
        .inl ⟨by simp only [Sched.removeIfInactive, hexit], hleave⟩⟩
    · rcases hbit hshows.exit with hbit | hbit
      · rw [hshows.sleep] at hbit; cases hbit
      · rw [hshows.wait] at hbit; cases hbit
  | waiting b =>
    rw [hlife] at hshows hon
    obtain rfl : b = true := hon
    rcases hexit with ⟨hbit, -⟩ | ⟨-, hexit⟩
    · rw [hshows.exit] at hbit; cases hbit
    rcases hwait with ⟨-, hwait⟩ | ⟨hbit, -⟩
    · exact ⟨_, _, h.leaveWaiting hi hlife, Onward.update rfl rfl (by rw [hlife]; simp) (by simp),
        fun t ht => Function.update_of_ne ht _ _,
        .inl ⟨by simp only [Sched.removeIfInactive, hexit, hwait], hleave⟩⟩
    · rw [hshows.wait] at hbit; cases hbit
  | sleeping b =>
    have hsleeping : (life (s.taskAt index)).isSleeping = true := by rw [hlife]; rfl
    rw [hlife] at hshows hon
    obtain rfl : b = true := hon
    rcases hexit with ⟨hbit, -⟩ | ⟨-, hexit⟩
    · rw [hshows.exit] at hbit; cases hbit
    rcases hwait with ⟨hbit, -⟩ | ⟨-, hwait⟩
    · rw [hshows.wait] at hbit; cases hbit
    rcases hsleep (fun _ => h.clock _ hsleeping) with
      ⟨hbit, -⟩ | ⟨-, -, hsleep⟩ | ⟨hasleep, hsleep⟩
    · rw [hshows.sleep] at hbit; cases hbit
    · -- its time is up: it is on the heap already, and stays there
      have hoff : s.taskAt index ∉ s.sleepHeap.contents := by
        rw [h.onSleepHeap.mem, hlife]
        simp [Lifecycle.onSleepHeap]
      have hwoken := h.wakeSleeper hsleeping
        (fun hoff => by rw [hlife] at hoff; cases hoff) h.onSleepHeap.heap h.onSleepHeap.size
        fun t => ⟨fun ht => ⟨fun heq => hoff (heq ▸ ht), ht⟩, And.right⟩
      have hput := h.onHeap.table.keys.put_of_mem (k := s.taskAt index)
        (by rw [hlife]; rfl)
      obtain ⟨hcurrent, hidle⟩ := wakeSleeper_tasks s (s.taskAt index)
      exact ⟨_, s.wakeSleeper (s.taskAt index), hwoken,
        Onward.update hcurrent hidle (by rw [hlife]; simp) (by simp),
        fun t ht => Function.update_of_ne ht _ _,
        .inr ⟨by simp only [Sched.removeIfInactive, hexit, hwait, hsleep],
          wakeSleeper_heap_of_put hput, Function.update_self ..⟩⟩
    · -- it sleeps on, and moves from one heap to the other
      exact ⟨_, _, h.moveToSleepHeap hi hlife (h.sleepHeap_num_lt hfits hasleep hlife),
        Onward.update rfl rfl (by rw [hlife]; simp) (by simp),
        fun t ht => Function.update_of_ne ht _ _,
        .inl ⟨by simp only [Sched.removeIfInactive, hexit, hwait, hsleep], hleave⟩⟩

/-- **The walk** ends, and selects an active task or leaves the heap empty. -/
theorem selectTaskEach (h : Books N tasks fresh life s) (inUse : Nat → Bool) (rand : Nat → Nat)
    {fuel k nodeIndex lastActiveNodeIndex : Nat}
    (hi : nodeIndex < s.schedulerHeap.currentNumNodes)
    (hlast : nodeIndex ≠ 0 → lastActiveNodeIndex < nodeIndex ∧
      life (s.taskAt lastActiveNodeIndex) = .active)
    (hfuel : 2 * s.schedulerHeap.currentNumNodes < fuel + nodeIndex)
    (hfits : tasks.card ≤ N ∨ ∀ r ∈ selectTaskRounds inUse rand fuel k s nodeIndex
      (s.schedulerHeap.currentNumNodes - 1), r.sched.moveFits r.index = true) :
    ∃ life' s' next, Sched.selectTaskEach inUse rand fuel k s nodeIndex
        (s.schedulerHeap.currentNumNodes - 1) lastActiveNodeIndex = some (s', next) ∧
      Books N tasks fresh life' s' ∧ Onward life life' s s' ∧
      (life' next = .active ∨
        (next = s'.idleTCB ∧ s'.schedulerHeap.currentNumNodes = 0)) := by
  -- each round shrinks the heap or goes down a level, so the fuel lasts
  induction fuel generalizing s life k nodeIndex lastActiveNodeIndex with
  | zero => omega
  | succ fuel ih =>
    simp only [Sched.selectTaskRounds, List.forall_mem_cons] at hfits
    obtain ⟨life₁, s₁, hbooks, honward, hsame, hround⟩ :=
      h.removeIfInactive hi (inUse fuel) (hfits.imp id And.left)
    have hlast₁ : nodeIndex ≠ 0 → lastActiveNodeIndex < nodeIndex ∧
        life₁ (s.taskAt lastActiveNodeIndex) = .active :=
      fun h0 => ⟨(hlast h0).1, honward.active _ (hlast h0).2⟩
    rcases hround with ⟨hremove, hheap⟩ | ⟨hremove, hheap, hactive⟩
    · -- the node has left; the nodes before it are where they were
      have hnum : s₁.schedulerHeap.currentNumNodes = s.schedulerHeap.currentNumNodes - 1 := by
        rw [hheap, MinHeap.heapDown_num h.onHeap.heap.distinct.wf hi]
      have hbefore : ∀ j, j < nodeIndex → s₁.taskAt j = s.taskAt j := by
        intro j hj
        unfold taskAt
        rw [hheap, MinHeap.heapDown_array_of_lt h.onHeap.heap.distinct.wf hi hj]
      have hlast₂ : nodeIndex ≠ 0 → lastActiveNodeIndex < nodeIndex ∧
          life₁ (s₁.taskAt lastActiveNodeIndex) = .active := by
        intro h0
        rw [hbefore _ (hlast₁ h0).1]
        exact hlast₁ h0
      simp only [Sched.selectTaskEach, hremove] at hfits ⊢
      by_cases hempty : s₁.schedulerHeap.currentNumNodes = 0
      · rw [if_pos hempty]
        exact ⟨life₁, s₁, _, rfl, hbooks, honward, .inr ⟨rfl, hempty⟩⟩
      · rw [if_neg hempty]
        by_cases hout : nodeIndex > s₁.schedulerHeap.currentNumNodes - 1
        · -- nothing is left at the index: fall back to the node above
          rw [if_pos hout]
          exact ⟨life₁, s₁, _, rfl, hbooks, honward, .inl (hlast₂ (by omega)).2⟩
        · rw [if_neg hout]
          rw [if_neg hempty, if_neg hout] at hfits
          obtain ⟨life', s', next, hselect, hbooks', honward', hnext⟩ :=
            ih hbooks (by omega) hlast₂ (by omega) (hfits.imp id And.right)
          exact ⟨life', s', next, hselect, hbooks', honward.trans honward', hnext⟩
    · -- the task is active; it is selected, or the walk goes down to a child
      have hnum : s₁.schedulerHeap.currentNumNodes = s.schedulerHeap.currentNumNodes := by
        rw [hheap]
      have htask : ∀ j, s₁.taskAt j = s.taskAt j := by
        intro j
        unfold taskAt
        rw [hheap]
      have hnull : s₁.taskAt nodeIndex ≠ NULL := by
        rw [htask]
        exact (hbooks.known _ (hbooks.mem_of_ne_absent (by rw [hactive]; simp))).2
      have hdown : nodeIndex < (if getRandForTaskChoice (rand k) = 1 then
          getFirstChildIndex nodeIndex else getSecondChildIndex nodeIndex) := by
        unfold getFirstChildIndex getSecondChildIndex
        split <;> omega
      simp only [Sched.selectTaskEach, hremove] at hfits ⊢
      generalize (if getRandForTaskChoice (rand k) = 1 then getFirstChildIndex nodeIndex
        else getSecondChildIndex nodeIndex) = nextNodeIdx at *
      by_cases hgoes : getRandForTaskChoice (rand k) ≠ 0 ∧
          nextNodeIdx ≤ s.schedulerHeap.currentNumNodes - 1
      · rw [if_pos hgoes] at hfits ⊢
        rw [← hnum] at hgoes hfits ⊢
        obtain ⟨life', s', next, hselect, hbooks', honward', hnext⟩ :=
          @ih life₁ s₁ hbooks (k + 1) nextNodeIdx nodeIndex
            (by omega) (fun _ => ⟨hdown, by rw [htask]; exact hactive⟩) (by omega)
            (hfits.imp id And.right)
        exact ⟨life', s', next, hselect, hbooks', honward.trans honward', hnext⟩
      · rw [if_neg hgoes, if_neg hnull]
        exact ⟨life₁, s₁, _, rfl, hbooks, honward, .inl (by rw [htask]; exact hactive)⟩

/-- The scheduler after its wake-up loop. -/
theorem afterWakeEach (h : Books N tasks fresh life s) (inUse : Nat → Bool) (rand : Nat → Nat)
    (hfits : tasks.card ≤ N ∨ ∀ r ∈ s.afterWakeRounds inUse rand,
      r.sched.moveFits r.index = true) :
    ∃ life' s' next, s.afterWakeEach inUse rand = some (s', next) ∧
      Books N tasks fresh life' s' ∧ Onward life life' s s' ∧
      (life' next = .active ∨
        (next = s'.idleTCB ∧ s'.schedulerHeap.currentNumNodes = 0)) := by
  by_cases hempty : s.schedulerHeap.currentNumNodes = 0
  · simp only [Sched.afterWakeEach, if_pos hempty]
    exact ⟨life, s, _, rfl, h, .refl life s, .inr ⟨rfl, hempty⟩⟩
  · simp only [afterWakeRounds, if_neg hempty] at hfits
    simp only [Sched.afterWakeEach, if_neg hempty]
    exact h.selectTaskEach inUse rand (Nat.pos_of_ne_zero hempty)
      (fun h0 => absurd rfl h0) (by unfold selectRounds; omega) hfits

/-- In every round the books are kept, and there is a node at the index. -/
theorem selectTaskRounds (h : Books N tasks fresh life s) (hnodes : tasks.card ≤ N)
    {inUse : Nat → Bool} {rand : Nat → Nat} {fuel k nodeIndex : Nat}
    (hi : nodeIndex < s.schedulerHeap.currentNumNodes) :
    ∀ r ∈ Sched.selectTaskRounds inUse rand fuel k s nodeIndex
      (s.schedulerHeap.currentNumNodes - 1),
      ∃ life', Books N tasks fresh life' r.sched ∧
        r.index < r.sched.schedulerHeap.currentNumNodes := by
  induction fuel generalizing k s life nodeIndex with
  | zero => exact fun r hr => absurd hr List.not_mem_nil
  | succ fuel ih =>
    intro r hr
    simp only [Sched.selectTaskRounds, List.mem_cons] at hr
    rcases hr with rfl | hr
    · exact ⟨life, h, hi⟩
    obtain ⟨life₁, s₁, hbooks, -, -, ⟨hremove, hheap⟩ | ⟨hremove, hheap, -⟩⟩ :=
      h.removeIfInactive hi (inUse fuel) (.inl hnodes)
    · -- the node has left, and the walk stays at its index while the heap reaches it
      rw [hremove] at hr
      by_cases hempty : s₁.schedulerHeap.currentNumNodes = 0
      · simp only [if_pos hempty, List.not_mem_nil] at hr
      by_cases hpast : nodeIndex > s₁.schedulerHeap.currentNumNodes - 1
      · simp only [if_neg hempty, if_pos hpast, List.not_mem_nil] at hr
      · simp only [if_neg hempty, if_neg hpast] at hr
        exact ih hbooks (by omega) r hr
    · -- the walk goes down or stops
      rw [hremove] at hr
      by_cases hdown : getRandForTaskChoice (rand k) ≠ 0 ∧
          (if getRandForTaskChoice (rand k) = 1 then getFirstChildIndex nodeIndex
            else getSecondChildIndex nodeIndex) ≤ s.schedulerHeap.currentNumNodes - 1
      · simp only [if_pos hdown] at hr
        rw [← hheap] at hr hdown hi
        exact ih hbooks (by omega) r hr
      · simp only [if_neg hdown, List.not_mem_nil] at hr

theorem afterWakeRounds (h : Books N tasks fresh life s) (hnodes : tasks.card ≤ N)
    {inUse : Nat → Bool} {rand : Nat → Nat} :
    ∀ r ∈ s.afterWakeRounds inUse rand, ∃ life', Books N tasks fresh life' r.sched ∧
      r.index < r.sched.schedulerHeap.currentNumNodes := by
  unfold Sched.afterWakeRounds
  split
  · exact fun r hr => absurd hr List.not_mem_nil
  · rename_i hne
    exact h.selectTaskRounds hnodes (Nat.pos_of_ne_zero hne)

end Books

end Sched

end DocetOS
