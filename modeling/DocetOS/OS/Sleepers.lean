import DocetOS.DataStructures.HeapIndex
import DocetOS.OS.SchedulerSteps

/-!
# The wake-up loop

The loop takes tasks off the sleep heap until one is still asleep. The heap is
ordered by the times that remained when the tasks were put on it, at different
ticks, so a task whose time is up can be behind one that is still asleep.

- `Timed` holds throughout every run: time stamp and remaining time of a
  sleeping task do not reach beyond the end of its sleep.
- `wakeLoop_contents`: what the loop leaves is the removal order of the heap from
  the first task that is still asleep on.
- `no_overdue_left_iff`: so in every run the loop leaves no overdue task behind
  iff it finds none behind one that is still asleep. `overdue_left` is a run in
  which it does.
-/

namespace DocetOS

namespace MinHeap

/-- The contents in the order in which `OS_heap_removeNode` takes them off. -/
def removalOrder : Nat → MinHeap → List Nat
  | 0, _ => []
  | rounds + 1, heap =>
    match heap.removeNode with
    | (_, none) => []
    | (heap, some content) => content :: removalOrder rounds heap

variable {heap : MinHeap}

theorem removeNode_cases (h : heap.WF) :
    (heap.currentNumNodes = 0 ∧ heap.removeNode = (heap, none)) ∨
      ∃ heap' content, heap.removeNode = (heap', some content) ∧ heap'.WF ∧
        content ::ₘ heap'.contents = heap.contents ∧
        heap'.currentNumNodes + 1 = heap.currentNumNodes ∧
        heap'.currentNumNodes < heap'.maxNumberOfNodes := by
  rcases Nat.eq_zero_or_pos heap.currentNumNodes with hzero | hpos
  · exact .inl ⟨hzero, removeNode_of_empty h hzero⟩
  · have hnum := heapDown_num h hpos
    have hle := h.num_le
    refine .inr ⟨_, _, removeNode_eq h hpos, heapDown_wf h hpos, ?_, by omega, ?_⟩
    · unfold contents
      rw [← heapDown_nodes h hpos, Multiset.map_cons]
    · rw [heapDown_max]
      omega

theorem coe_removalOrder (h : heap.WF) {rounds : Nat} (hr : heap.currentNumNodes ≤ rounds) :
    (removalOrder rounds heap : Multiset Nat) = heap.contents := by
  induction rounds generalizing heap with
  | zero =>
    have hnum : heap.currentNumNodes = 0 := by omega
    unfold contents nodes
    rw [hnum]
    rfl
  | succ rounds ih =>
    simp only [removalOrder]
    rcases removeNode_cases h with ⟨hnum, hremove⟩ |
      ⟨heap', content, hremove, hwf, hcontents, hnum, -⟩
    · rw [hremove]
      unfold contents nodes
      rw [hnum]
      rfl
    · rw [hremove, ← hcontents, ← Multiset.cons_coe, ih hwf (by omega)]

end MinHeap

namespace Sched

/-- The time the task asked for has passed since its request. -/
def Overdue (s : Sched) (task : Nat) : Prop :=
  ¬ s.ticks - (s.sleepRequest task).1 < (s.sleepRequest task).2

instance (s : Sched) (task : Nat) : Decidable (s.Overdue task) :=
  inferInstanceAs (Decidable (¬ _))

/-- The order in which the wake-up loop meets the tasks of the sleep heap. -/
def wakeOrder (s : Sched) : List Nat :=
  MinHeap.removalOrder (s.sleepHeap.currentNumNodes + 1) s.sleepHeap

/-- No task whose time is up is behind one that is still asleep. -/
def SleepersInOrder (s : Sched) : Prop :=
  s.wakeOrder.Pairwise fun a b => s.Asleep a → ¬ s.Overdue b

instance (s : Sched) : Decidable s.SleepersInOrder :=
  inferInstanceAs (Decidable (List.Pairwise _ _))

/-! ## Time stamps -/

/-- The time stamp and the remaining time in the TCB of a sleeping task. -/
structure OnTime (s : Sched) (task : Nat) : Prop where
  data_le : (s.tcb task).data ≤ s.ticks
  request_le : (s.sleepRequest task).1 ≤ s.ticks
  deadline : (s.tcb task).data + (s.tcb task).data2 ≤
    (s.sleepRequest task).1 + (s.sleepRequest task).2

structure Timed (s : Sched) : Prop where
  sleepHeap : s.sleepHeap.WF
  noRollover : s.systickRolloverDetectedFLAG = 0
  onTime : ∀ task, (s.tcb task).state.sleep = true → s.OnTime task

/-- What leaves the sleepers alone: no task falls asleep, and no time stamp or
remaining time grows. -/
structure Undisturbed (s s' : Sched) : Prop where
  sleepHeap : s'.sleepHeap = s.sleepHeap
  noRollover : s'.systickRolloverDetectedFLAG = s.systickRolloverDetectedFLAG
  ticks : s'.ticks = s.ticks
  sleepRequest : s'.sleepRequest = s.sleepRequest
  tcb : ∀ task, (s'.tcb task).state.sleep = true → (s.tcb task).state.sleep = true ∧
    (s'.tcb task).data ≤ (s.tcb task).data ∧ (s'.tcb task).data2 = (s.tcb task).data2

section Undisturbed

variable {s s' s'' : Sched} {task index : Nat}

theorem Undisturbed.refl (s : Sched) : Undisturbed s s :=
  ⟨rfl, rfl, rfl, rfl, fun _ h => ⟨h, Nat.le_refl _, rfl⟩⟩

theorem Undisturbed.trans (h : Undisturbed s s') (h' : Undisturbed s' s'') :
    Undisturbed s s'' where
  sleepHeap := h'.sleepHeap.trans h.sleepHeap
  noRollover := h'.noRollover.trans h.noRollover
  ticks := h'.ticks.trans h.ticks
  sleepRequest := h'.sleepRequest.trans h.sleepRequest
  tcb task hsleep := by
    obtain ⟨hsleep', hdata', hdata2'⟩ := h'.tcb task hsleep
    obtain ⟨hsleep'', hdata, hdata2⟩ := h.tcb task hsleep'
    exact ⟨hsleep'', hdata'.trans hdata, hdata2'.trans hdata2⟩

theorem Timed.undisturbed (h : Timed s) (hu : Undisturbed s s') : Timed s' where
  sleepHeap := hu.sleepHeap ▸ h.sleepHeap
  noRollover := hu.noRollover.trans h.noRollover
  onTime task hsleep := by
    obtain ⟨hsleep', hdata, hdata2⟩ := hu.tcb task hsleep
    have hon := h.onTime task hsleep'
    have := hon.data_le
    have := hon.deadline
    refine { data_le := ?_, request_le := ?_, deadline := ?_ }
    · rw [hu.ticks]
      omega
    · rw [hu.ticks, hu.sleepRequest]
      exact hon.request_le
    · rw [hu.sleepRequest]
      omega

/-- Writing a TCB without starting a sleep. -/
theorem undisturbed_modifyTCB (s : Sched) (task : Nat) {f : TCB → TCB}
    (hf : ∀ tcb, (f tcb).state.sleep = true → tcb.state.sleep = true ∧
      (f tcb).data ≤ tcb.data ∧ (f tcb).data2 = tcb.data2) :
    Undisturbed s (s.modifyTCB task f) := by
  refine { Undisturbed.refl s with tcb := ?_ }
  intro t hsleep
  rw [modifyTCB_tcb] at hsleep ⊢
  split at hsleep
  · rename_i heq
    rw [if_pos heq]
    exact hf _ hsleep
  · rename_i hne
    rw [if_neg hne]
    exact ⟨hsleep, Nat.le_refl _, rfl⟩

theorem Inherits.undisturbed (h : Inherits s s') : Undisturbed s s' where
  sleepHeap := by rw [h.rest]
  noRollover := by rw [h.rest]
  ticks := by rw [h.rest]
  sleepRequest := by rw [h.rest]
  tcb task hsleep := by
    obtain ⟨_, _, _, ht⟩ := h.tcb task
    rw [ht] at hsleep ⊢
    exact ⟨hsleep, Nat.le_refl _, rfl⟩

theorem Wakes.undisturbed (h : Wakes s s') : Undisturbed s s' where
  sleepHeap := by rw [h.rest]
  noRollover := by rw [h.rest]
  ticks := by rw [h.rest]
  sleepRequest := by rw [h.rest]
  tcb task hsleep := by
    rcases h.tcb task with ht | ht <;> rw [ht] at hsleep ⊢ <;>
      exact ⟨hsleep, Nat.le_refl _, rfl⟩

theorem park_undisturbed (s : Sched) (reason : Nat) : Undisturbed s (s.park reason) := by
  refine { Undisturbed.refl s with tcb := ?_ }
  intro t hsleep
  rw [park_tcb] at hsleep ⊢
  split at hsleep <;> rename_i hcase
  · rw [if_pos hcase]
    exact ⟨hsleep, Nat.le_refl _, rfl⟩
  · rw [if_neg hcase]
    exact ⟨hsleep, Nat.le_refl _, rfl⟩

theorem waitCallback_undisturbed {fuel reason checkCode isReasonMutex : Nat}
    (h : s.waitCallback fuel reason checkCode isReasonMutex = some s') : Undisturbed s s' := by
  rcases waitCallback_cases h with ⟨-, rfl⟩ | ⟨-, hi⟩
  · exact .refl s'
  · exact (park_undisturbed s reason).trans hi.undisturbed

theorem notifyCallback_undisturbed {fuel reason : Nat}
    (h : s.notifyCallback fuel reason = some s') : Undisturbed s s' :=
  (wakeAll_wakes s reason).undisturbed.trans (notifyCallback_inherits h).undisturbed

theorem addTask_undisturbed (s : Sched) (tcb taskPriority : Nat) :
    Undisturbed s (s.addTask tcb taskPriority) := by
  have hpriority : Undisturbed s
      (s.modifyTCB tcb fun t => { t with priority := taskPriority }) :=
    undisturbed_modifyTCB s tcb fun _ h => ⟨h, Nat.le_refl _, rfl⟩
  simp only [addTask]
  split
  · exact .refl s
  · split
    · exact .refl s
    · split
      · exact .refl s
      · exact { hpriority with }

theorem removeIfExit_undisturbed (memclusterInUse : Bool) (s : Sched) (index : Nat) :
    Undisturbed s (s.removeIfExit memclusterInUse index).1 := by
  rcases removeIfExit_cases memclusterInUse s index with
    ⟨-, hsleep, -, tcb, completed, freed, hs, hother, ⟨data, hself⟩, -⟩ | ⟨-, hs⟩
  · rw [hs]
    refine { Undisturbed.refl s with tcb := ?_ }
    intro t ht
    have hne : t ≠ s.taskAt index := by
      rintro rfl
      have hfalse : (tcb (s.taskAt index)).state.sleep = true := ht
      rw [hself, hsleep] at hfalse
      cases hfalse
    have htcb : tcb t = s.tcb t := hother t hne
    show (s.tcb t).state.sleep = true ∧ (tcb t).data ≤ (s.tcb t).data ∧
      (tcb t).data2 = (s.tcb t).data2
    have hsleep' : (tcb t).state.sleep = true := ht
    rw [htcb] at hsleep' ⊢
    exact ⟨hsleep', Nat.le_refl _, rfl⟩
  · rw [hs]
    exact .refl s

theorem removeIfWaiting_undisturbed (s : Sched) (index : Nat) :
    Undisturbed s (s.removeIfWaiting index).1 := by
  rcases removeIfWaiting_cases s index with ⟨-, hs⟩ | ⟨-, hs⟩
  · rw [hs]
    exact { Undisturbed.refl s with }
  · rw [hs]
    exact .refl s

end Undisturbed

section Timed

variable {s s' : Sched} {task t index : Nat}

@[simp] theorem wakeSleeper_tcb (s : Sched) (task t : Nat) :
    (s.wakeSleeper task).tcb t = if t = task then
        { s.tcb t with
            state := { (s.tcb t).state with sleep := false }
            data := s.ticks
            data2 := 0 }
      else s.tcb t := by
  simp only [wakeSleeper, modifyTCB_tcb]
  rw [returnToSchedulerHeap_rest]
  by_cases h : t = task
  · simp [h]
  · simp [h]

theorem wakeSleeper_undisturbed (s : Sched) (task : Nat) :
    Undisturbed s (s.wakeSleeper task) where
  sleepHeap := by
    simp only [wakeSleeper]
    rw [returnToSchedulerHeap_rest]
    rfl
  noRollover := by
    simp only [wakeSleeper]
    rw [returnToSchedulerHeap_rest]
    rfl
  ticks := by
    simp only [wakeSleeper]
    rw [returnToSchedulerHeap_rest]
    rfl
  sleepRequest := by
    simp only [wakeSleeper]
    rw [returnToSchedulerHeap_rest]
    rfl
  tcb t hsleep := by
    rw [wakeSleeper_tcb] at hsleep ⊢
    split at hsleep
    · cases hsleep
    · rename_i hne
      rw [if_neg hne]
      exact ⟨hsleep, Nat.le_refl _, rfl⟩

/-- Waking a task that is not asleep changes nothing about who is. -/
theorem wakeSleeper_asleep (h : ¬ s.Asleep task) (t : Nat) :
    (s.wakeSleeper task).Asleep t ↔ s.Asleep t := by
  unfold Asleep
  rw [wakeSleeper_tcb, (wakeSleeper_undisturbed s task).ticks]
  split
  · rename_i heq
    subst heq
    exact iff_of_false (fun hasleep => Bool.false_ne_true hasleep.1) h
  · rfl

@[simp] theorem refreshSleeper_tcb (s : Sched) (task t : Nat) :
    (s.refreshSleeper task).tcb t = if t = task then
        { s.tcb t with
            data := s.ticks
            data2 := (s.tcb t).data2 - (s.ticks - (s.tcb t).data) }
      else s.tcb t := by
  simp only [refreshSleeper, modifyTCB_tcb]
  by_cases h : t = task
  · simp [h]
  · simp [h]

/-- A new time stamp takes the time that has passed off the remaining time. -/
theorem Timed.refreshSleeper (h : Timed s) (ha : s.Asleep task) :
    Timed (s.refreshSleeper task) := by
  refine
    { sleepHeap := h.sleepHeap
      noRollover := h.noRollover
      onTime := fun t ht => ?_ }
  have htcb := refreshSleeper_tcb s task t
  rw [htcb] at ht
  by_cases heq : t = task
  · subst heq
    rw [if_pos rfl] at ht htcb
    have hon := h.onTime t ht
    have hdata := hon.data_le
    have hdeadline := hon.deadline
    -- the time stamp goes up by what the remaining time goes down
    have hremains := ha.2
    refine { data_le := ?_, request_le := hon.request_le, deadline := ?_ }
    · rw [htcb]
      exact Nat.le_refl _
    · rw [htcb]
      show s.ticks + ((s.tcb t).data2 - (s.ticks - (s.tcb t).data)) ≤
        (s.sleepRequest t).1 + (s.sleepRequest t).2
      omega
  · rw [if_neg heq] at ht htcb
    have hon := h.onTime t ht
    refine { data_le := ?_, request_le := hon.request_le, deadline := ?_ }
    · rw [htcb]
      exact hon.data_le
    · rw [htcb]
      exact hon.deadline

/-- A task that is still asleep is not overdue. -/
theorem Timed.not_overdue (h : Timed s) (ha : s.Asleep task) : ¬ s.Overdue task := by
  have hon := h.onTime task ha.1
  have hdata := hon.data_le
  have hrequest := hon.request_le
  have hdeadline := hon.deadline
  have hremains := ha.2
  simp only [Overdue, not_not]
  omega

theorem Timed.data_le (h : Timed s) (task : Nat) :
    (s.tcb task).state.sleep = true → (s.tcb task).data ≤ s.ticks :=
  fun hsleep => (h.onTime task hsleep).data_le

theorem Timed.setSleepHeap (h : Timed s) {heap : MinHeap} (hwf : heap.WF) :
    Timed { s with sleepHeap := heap } where
  sleepHeap := hwf
  noRollover := h.noRollover
  onTime t ht :=
    { data_le := (h.onTime t ht).data_le
      request_le := (h.onTime t ht).request_le
      deadline := (h.onTime t ht).deadline }

/-! ## The loop -/

/-- **What the loop leaves on the sleep heap**: the removal order from the first
task that is still asleep on. The clock and the requests stay. -/
theorem wakeLoop_contents (h : Timed s) {rounds : Nat}
    (hr : s.sleepHeap.currentNumNodes < rounds) :
    Timed (wakeLoop rounds s) ∧ (wakeLoop rounds s).ticks = s.ticks ∧
      (wakeLoop rounds s).sleepRequest = s.sleepRequest ∧
      (wakeLoop rounds s).sleepHeap.contents =
        ((MinHeap.removalOrder rounds s.sleepHeap).dropWhile fun t => ! decide (s.Asleep t)) := by
  induction rounds generalizing s with
  | zero => exact absurd hr (Nat.not_lt_zero _)
  | succ rounds ih =>
    simp only [wakeLoop, MinHeap.removalOrder]
    rcases MinHeap.removeNode_cases h.sleepHeap with
      ⟨hnum, hremove⟩ | ⟨heap, top, hremove, hwf, hcontents, hnum, hroom⟩
    · rw [hremove]
      refine ⟨h, rfl, rfl, ?_⟩
      have hcard := MinHeap.card_contents s.sleepHeap
      rw [hnum, Multiset.card_eq_zero] at hcard
      exact hcard
    · rw [hremove]
      have htaken := h.setSleepHeap hwf
      have hround : ({ s with sleepHeap := heap } : Sched).sleepHeap.currentNumNodes < rounds := by
        show heap.currentNumNodes < rounds
        omega
      rcases updateSleepState_cases (htaken.data_le top) with
        ⟨hsleep, hs⟩ | ⟨-, hasleep, hs⟩ | ⟨hasleep, hs⟩
      · -- a task that does not sleep at all drops out
        have hnot : ¬ s.Asleep top := fun ha => absurd (hsleep.symm.trans ha.1) (by simp)
        simp only [hs, Bool.false_eq_true, if_false]
        rw [List.dropWhile_cons_of_pos (by simp [hnot])]
        exact ih htaken hround
      · -- a task whose time is up drops out too, and leaves the others as they were
        have hnot : ¬ s.Asleep top := hasleep
        have hu := wakeSleeper_undisturbed { s with sleepHeap := heap } top
        have hwoken := htaken.undisturbed hu
        have hround' : (({ s with sleepHeap := heap } : Sched).wakeSleeper
            top).sleepHeap.currentNumNodes < rounds := by
          rw [hu.sleepHeap]
          exact hround
        obtain ⟨htimed, hticks, hrequest, hleft⟩ := ih hwoken hround'
        simp only [hs, Bool.false_eq_true, if_false]
        rw [List.dropWhile_cons_of_pos (by simp [hnot])]
        refine ⟨htimed, hticks.trans hu.ticks, hrequest.trans hu.sleepRequest, ?_⟩
        rw [hleft, hu.sleepHeap]
        congr 2
        funext t
        exact congrArg (! ·) (decide_eq_decide.mpr (wakeSleeper_asleep hasleep t))
      · -- the first task that is still asleep goes back, and the loop ends
        have hyes : s.Asleep top := hasleep
        have hrefreshed := htaken.refreshSleeper hasleep
        simp only [hs, if_true]
        refine ⟨hrefreshed.setSleepHeap (MinHeap.addNode_wf hwf _ _), rfl, rfl, ?_⟩
        rw [List.dropWhile_cons_of_neg (by simp [hyes]), ← Multiset.cons_coe,
          MinHeap.coe_removalOrder hwf (Nat.le_of_lt hround)]
        show (heap.addNode top _).1.contents = _
        unfold MinHeap.contents
        rw [MinHeap.addNode_nodes hwf hroom, Multiset.map_cons]

theorem wakeSleepers_contents (h : Timed s) :
    Timed s.wakeSleepers ∧ s.wakeSleepers.ticks = s.ticks ∧
      s.wakeSleepers.sleepRequest = s.sleepRequest ∧
      s.wakeSleepers.sleepHeap.contents = s.wakeOrder.dropWhile fun t => ! decide (s.Asleep t) :=
  wakeLoop_contents h (Nat.lt_succ_self _)

/-- From the first `p` on nothing is `q`, when a `p` is never a `q`, iff no `q`
is behind a `p`. -/
theorem forall_mem_dropWhile_iff {α : Type} {p q : α → Prop} [DecidablePred p] (l : List α)
    (hpq : ∀ a, p a → ¬ q a) :
    (∀ a ∈ l.dropWhile (fun a => ! decide (p a)), ¬ q a) ↔ l.Pairwise fun a b => p a → ¬ q b := by
  induction l with
  | nil => simp
  | cons a l ih =>
    rw [List.pairwise_cons]
    by_cases ha : p a
    · rw [List.dropWhile_cons_of_neg (by simp [ha])]
      constructor
      · intro h
        have hl : ∀ b ∈ l, ¬ q b := fun b hb => h b (List.mem_cons_of_mem a hb)
        exact ⟨fun b hb _ => hl b hb,
          List.pairwise_of_forall_mem_list fun _ _ b hb _ => hl b hb⟩
      · rintro ⟨hl, -⟩ b hb
        rcases List.mem_cons.mp hb with rfl | hb
        · exact hpq b ha
        · exact hl b hb ha
    · rw [List.dropWhile_cons_of_pos (by simp [ha]), ih]
      exact ⟨fun h => ⟨fun _ _ hpa => absurd hpa ha, h⟩, And.right⟩

/-- What the comment at the loop asserts: no overdue task is on the sleep heap. -/
def NoneOverdue (s : Sched) : Prop := ∀ task ∈ s.sleepHeap.contents, ¬ s.Overdue task

/-- The loop leaves no overdue task iff none is behind one that is still asleep. -/
theorem Timed.noneOverdue_iff (h : Timed s) : s.wakeSleepers.NoneOverdue ↔ s.SleepersInOrder := by
  obtain ⟨-, hticks, hrequest, hcontents⟩ := wakeSleepers_contents h
  unfold NoneOverdue SleepersInOrder Overdue
  rw [hticks, hrequest, hcontents]
  exact forall_mem_dropWhile_iff s.wakeOrder fun t ha => h.not_overdue ha

/-! ## Runs -/

theorem Timed.removeIfInactive (h : Timed s) (memclusterInUse : Bool) (index : Nat) :
    Timed (s.removeIfInactive memclusterInUse index).1 := by
  have hexit := h.undisturbed (removeIfExit_undisturbed memclusterInUse s index)
  simp only [Sched.removeIfInactive]
  split
  · rename_i s₁ hs
    rw [hs] at hexit
    exact hexit
  · rename_i s₁ hs
    rw [hs] at hexit
    have hwait := hexit.undisturbed (removeIfWaiting_undisturbed s₁ index)
    split
    · rename_i s₂ hs₂
      rw [hs₂] at hwait
      exact hwait
    · rename_i s₂ hs₂
      rw [hs₂] at hwait
      -- not asleep; overdue, so woken here; or asleep, with a new time stamp before it moves
      rcases removeIfSleeping_cases (hwait.data_le (s₂.taskAt index)) with
        ⟨-, hs⟩ | ⟨-, -, hs⟩ | ⟨ha, hs⟩
      · rw [hs]
        exact hwait
      · rw [hs]
        exact hwait.undisturbed (wakeSleeper_undisturbed s₂ _)
      · rw [hs]
        have hrefreshed := hwait.refreshSleeper ha
        have hleft : Timed ((s₂.refreshSleeper (s₂.taskAt index)).leaveSchedulerHeap index
            (s₂.taskAt index)) :=
          hrefreshed.undisturbed { Undisturbed.refl _ with }
        exact hleft.setSleepHeap (MinHeap.addNode_wf hleft.sleepHeap _ _)

theorem Timed.beforeWake (h : Timed s) {memclusterInUse : Bool} {fuel : Nat}
    (hs : s.beforeWake memclusterInUse fuel = some s') : Timed s' := by
  obtain ⟨completed, freed, rfl, -⟩ := beforeWake_cases h.noRollover hs
  have hyield := h.undisturbed (undisturbed_modifyTCB s s.currentTCB
    (f := fun tcb => { tcb with state := { tcb.state with yield := false } })
    fun _ h => ⟨h, Nat.le_refl _, rfl⟩)
  exact hyield.undisturbed { Undisturbed.refl _ with }

theorem Timed.pendSV (h : Timed s) {memclusterInUse : Bool} {rand : Nat → Nat} {fuel : Nat}
    (hs : s.pendSV memclusterInUse rand fuel = some s') : Timed s' := by
  rcases pendSV_cases hs with ⟨-, rfl⟩ | ⟨-, s₁, s₂, next, hbefore, hafter, rfl⟩
  · exact h.undisturbed { Undisturbed.refl _ with }
  · have hwoken := (wakeSleepers_contents (h.beforeWake hbefore)).1
    have hselected : Timed s₂ := by
      rw [afterWake_eq] at hafter
      exact afterWakeEach_keeps (R := fun s s' => Timed s → Timed s') (fun _ => id)
        (fun _ _ _ h h' hs => h' (h hs))
        (fun r _ hs => hs.removeIfInactive r.memclusterInUse r.index) hafter hwoken
    exact hselected.undisturbed { Undisturbed.refl _ with }

/-- A sleep starts with the whole time remaining. -/
theorem Timed.sleepCallback (h : Timed s) (tcb minSleepDuration : Nat) :
    Timed (s.sleepCallback tcb minSleepDuration) := by
  rcases sleepCallback_cases s tcb minSleepDuration with hs | ⟨-, hs⟩ | ⟨-, hs⟩ <;> rw [hs]
  · exact h
  · exact h.undisturbed { Undisturbed.refl _ with }
  · refine
      { sleepHeap := h.sleepHeap
        noRollover := h.noRollover
        onTime := fun t ht => ?_ }
    by_cases heq : t = tcb
    · subst heq
      refine { data_le := ?_, request_le := ?_, deadline := ?_ } <;> simp [fallAsleep, modifyTCB]
    · have ht' : (s.tcb t).state.sleep = true := by
        simpa [fallAsleep, modifyTCB, heq] using ht
      have hon := h.onTime t ht'
      refine { data_le := ?_, request_le := ?_, deadline := ?_ }
      · simpa [fallAsleep, modifyTCB, heq] using hon.data_le
      · simpa [fallAsleep, modifyTCB, heq] using hon.request_le
      · simpa [fallAsleep, modifyTCB, heq] using hon.deadline

theorem Timed.call (h : Timed s) {tasks : Finset Nat} {e : SchedulerEvent}
    (hs : s.call tasks e = some s') : Timed s' := by
  cases e <;> simp only [Sched.call] at hs
  case tick ticks =>
    split at hs
    · rename_i htick
      cases hs
      refine
        { sleepHeap := h.sleepHeap
          noRollover := h.noRollover
          onTime := fun t ht => ?_ }
      -- the clock advances, and what has been requested lies further back
      have hon := h.onTime t ht
      exact
        { data_le := hon.data_le.trans htick.1
          request_le := hon.request_le.trans htick.1
          deadline := hon.deadline }
    · cases hs
  case memory acquired mutexes =>
    cases hs
    exact h.undisturbed ⟨rfl, rfl, rfl, rfl, fun _ h => ⟨h, Nat.le_refl _, rfl⟩⟩
  case addTask tcb memory stack taskPriority =>
    split at hs
    · cases hs
      -- the TCB of the new task is fresh, so it is not asleep
      refine h.undisturbed (Undisturbed.trans ?_ (addTask_undisturbed _ tcb taskPriority))
      exact undisturbed_modifyTCB s tcb fun _ hsleep => absurd hsleep Bool.false_ne_true
    · cases hs
  case notify fuel reason =>
    have hcode : Timed s.nextCheckCode := h.undisturbed { Undisturbed.refl _ with }
    exact hcode.undisturbed (notifyCallback_undisturbed hs)
  case wait fuel reason checkCode isReasonMutex switch =>
    split at hs
    · exact h.undisturbed (waitCallback_undisturbed hs)
    · cases hs
  case sleep minSleepDuration switch =>
    split at hs
    · cases hs
      exact h.sleepCallback _ _
    · cases hs
  case exit switch =>
    split at hs
    · cases hs
      exact h.undisturbed
        (undisturbed_modifyTCB s _ fun _ h => ⟨h, Nat.zero_le _, rfl⟩)
    · cases hs
  case yield switch =>
    cases hs
    exact h.undisturbed (undisturbed_modifyTCB s _ fun _ h => ⟨h, Nat.le_refl _, rfl⟩)
  case schedule switch =>
    cases hs
    exact h

theorem Timed.step (h : Timed s) {tasks : Finset Nat} {e : SchedulerEvent}
    (hs : s.step tasks e = some s') : Timed s' := by
  obtain ⟨s₀, hcall, ⟨-, rfl⟩ | ⟨switch, -, hswitch⟩⟩ := step_cases hs
  · exact h.call hcall
  · exact (h.call hcall).pendSV hswitch

end Timed

/-- `P` holds whenever a wake-up loop of the run starts. -/
def AtLoops (tasks : Finset Nat) (P : Sched → Prop) : Sched → List SchedulerEvent → Prop
  | _, [] => True
  | s, e :: es =>
    (∀ s₁ ∈ s.loopStart tasks e, P s₁) ∧ ∀ s' ∈ s.step tasks e, AtLoops tasks P s' es

instance AtLoops.decidable (tasks : Finset Nat) (P : Sched → Prop) [DecidablePred P] :
    (s : Sched) → (es : List SchedulerEvent) → Decidable (AtLoops tasks P s es)
  | _, [] => inferInstanceAs (Decidable True)
  | _, _ :: es =>
    have : DecidablePred fun s' => AtLoops tasks P s' es :=
      fun s' => AtLoops.decidable tasks P s' es
    inferInstanceAs (Decidable (_ ∧ _))

instance (s : Sched) : Decidable s.NoneOverdue :=
  inferInstanceAs (Decidable (∀ _ ∈ _, _))

theorem Timed.atLoops_iff {tasks : Finset Nat} {s : Sched} (h : Timed s)
    (es : List SchedulerEvent) :
    AtLoops tasks (fun s₁ => s₁.wakeSleepers.NoneOverdue) s es ↔
      AtLoops tasks SleepersInOrder s es := by
  induction es generalizing s with
  | nil => exact Iff.rfl
  | cons e es ih =>
    have hloop : ∀ s₁ ∈ s.loopStart tasks e, Timed s₁ := by
      intro s₁ hs₁
      obtain ⟨s₀, switch, hcall, -, hbefore⟩ := loopStart_cases hs₁
      exact (h.call hcall).beforeWake hbefore
    constructor
    · rintro ⟨hfirst, hrest⟩
      exact ⟨fun s₁ hs₁ => (hloop s₁ hs₁).noneOverdue_iff.mp (hfirst s₁ hs₁),
        fun s' hs' => (ih (h.step hs')).mp (hrest s' hs')⟩
    · rintro ⟨hfirst, hrest⟩
      exact ⟨fun s₁ hs₁ => (hloop s₁ hs₁).noneOverdue_iff.mpr (hfirst s₁ hs₁),
        fun s' hs' => (ih (h.step hs')).mpr (hrest s' hs')⟩

/-- The scheduler has just been initialised, and no memory holds a sleeping
task. -/
structure Rested (N : Nat) (tasks : Finset Nat) (s : Sched) : Prop where
  booted : Booted N tasks s
  awake : ∀ task, (s.tcb task).state.sleep = false

theorem Rested.timed {N : Nat} {tasks : Finset Nat} {s : Sched} (hN : 0 < N)
    (hmax : N ≤ UINT32_MAX) (h : Rested N tasks s) : Timed s := by
  obtain ⟨tcb, mutexes, currentTCB, idleTCB, ticks, values, flags, nodes, -, -, hs⟩ := h.booted
  refine { sleepHeap := ?_, noRollover := ?_, onTime := ?_ }
  · rw [hs]
    exact MinHeap.newHeap_wf hN hmax false _ _ _
  · rw [hs]
    rfl
  · intro task hsleep
    rw [h.awake task] at hsleep
    cases hsleep

/-- **Who is left behind**: in every run of the scheduler, its wake-up loops leave
no overdue task on the sleep heap iff none of them finds an overdue task behind
one that is still asleep. -/
theorem no_overdue_left_iff {N : Nat} {tasks : Finset Nat} {s : Sched} (hN : 0 < N)
    (hmax : N ≤ UINT32_MAX) (h : Rested N tasks s) (es : List SchedulerEvent) :
    AtLoops tasks (fun s₁ => s₁.wakeSleepers.NoneOverdue) s es ↔
      AtLoops tasks SleepersInOrder s es :=
  (h.timed hN hmax).atLoops_iff es

/-- Task 1 idles, and there are no other tasks. -/
theorem sampleSched_rested (tasks : Finset Nat) (h : 1 ∉ tasks) :
    Rested 16 tasks (sampleSched 1) where
  booted := ⟨_, _, 1, 1, _, _, _, _, h, h, rfl⟩
  awake _ := rfl

/-- The scheduler selects the root of its heap. -/
def toRoot : TaskSwitch := ⟨false, fun _ => 0, 1⟩

/-- Task 100 asks for 100 ticks and 200 for 95, both at tick 0; 300 asks for 50 at
tick 90. -/
def threeSleepers : List SchedulerEvent :=
  [.addTask 100 ((sampleSched 1).tcb 0) 0 1, .addTask 200 ((sampleSched 1).tcb 0) 0 2,
    .addTask 300 ((sampleSched 1).tcb 0) 0 3, .schedule toRoot, .sleep 100 toRoot,
    .sleep 95 toRoot, .tick 90, .sleep 50 toRoot]

theorem no_overdue_left_iff_threeSleepers :
    AtLoops {100, 200, 300} (fun s₁ => s₁.wakeSleepers.NoneOverdue) (sampleSched 1)
        threeSleepers ↔
      AtLoops {100, 200, 300} SleepersInOrder (sampleSched 1) threeSleepers :=
  no_overdue_left_iff (by decide) (by decide) (sampleSched_rested _ (by decide)) threeSleepers

/-- At tick 100 the loop wakes 200 and stops at 300, whose key 50 is smaller than
the key 100 that 100 got at tick 0: 100 sleeps on though its time is up. -/
theorem overdue_left :
    ¬ ∀ (N : Nat) (tasks : Finset Nat) (s : Sched) (es : List SchedulerEvent), 0 < N →
        N ≤ UINT32_MAX → Rested N tasks s →
        AtLoops tasks (fun s₁ => s₁.wakeSleepers.NoneOverdue) s es := by
  intro h
  have hrun := h 16 {100, 200, 300} (sampleSched 1)
    (threeSleepers ++ [.tick 100, .schedule toRoot]) (by decide) (by decide)
    (sampleSched_rested _ (by decide))
  exact absurd hrun (by decide +kernel)

end Sched

end DocetOS
