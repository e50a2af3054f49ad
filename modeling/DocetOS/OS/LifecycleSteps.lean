import DocetOS.OS.Lifecycle

/-!
# What the callbacks do to the books

One lemma for each callback and each part of the scheduler: the books are kept,
and at most one task has moved on.
-/

namespace DocetOS

open Hashtable

namespace Sched

namespace Books

variable {N : Nat} {tasks : Finset Nat} {fresh : Prop} {life : Nat → Lifecycle} {s s' : Sched}
  {task t reason index : Nat} {l : Lifecycle}

/-! ## Steps that move no task -/

/-- What the books do not record may change, and time may go on. -/
theorem frame (h : Books N tasks fresh life s)
    (hs : s' = { s with
      tcb := s'.tcb
      mutexes := s'.mutexes
      currentTCB := s'.currentTCB
      ticks := s'.ticks
      checkCode := s'.checkCode
      waitingTasksHashTableTcbAsKey := s'.waitingTasksHashTableTcbAsKey
      ticksSinceLastTaskSwitch := s'.ticksSinceLastTaskSwitch
      freed := s'.freed })
    (hticks : s.ticks ≤ s'.ticks)
    (htcb : ∀ t, (∃ yield, (s'.tcb t).state = { (s.tcb t).state with yield := yield }) ∧
      (s'.tcb t).data = (s.tcb t).data) : Books N tasks fresh life s' := by
  -- of a state, only the yield flag may differ, and no life shows it
  have hshows : ∀ t ∈ s.scheduled, (life t).Shows (s'.tcb t).state := by
    intro t ht
    obtain ⟨⟨yield, hstate⟩, -⟩ := htcb t
    rw [hstate]
    exact { h.shows t ht with }
  have hwaiters : Waiters { s with tcb := s'.tcb } fun t => (life t).isWaiting = true := by
    refine h.waiters.frame rfl ?_
    intro t _
    obtain ⟨⟨yield, hstate⟩, -⟩ := htcb t
    show (s'.tcb t).state.wait = _
    rw [hstate]
  have hclock : ∀ t, (life t).isSleeping = true → (s'.tcb t).data ≤ s'.ticks := by
    intro t ht
    rw [(htcb t).2]
    exact (h.clock t ht).trans hticks
  have hcompleted : fresh → Completed tasks life { s with tcb := s'.tcb } := by
    intro hfresh
    refine (h.completed hfresh).congr rfl ?_ fun t ht => ⟨ht, (htcb t).2⟩
    intro t ht
    exact (htcb t).2.trans ((h.completed hfresh).ended t ht)
  rw [hs]
  exact
    { h with
      shows := hshows
      active := { h.active with }
      sleeping := { h.sleeping with }
      waiters := { hwaiters with parked := { hwaiters.parked with } }
      onHeap := { h.onHeap with table := { h.onHeap.table with } }
      onSleepHeap := { h.onSleepHeap with }
      clock := hclock
      completed := fun hfresh => { hcompleted hfresh with } }

/-- Priority inheritance moves no task, if it finds the node it moves. -/
theorem inherits (h : Books N tasks fresh life s) (hi : Inherits s s') {moves : Bool}
    (hm : MovesOnly moves task s s')
    (hfinds : moves = true → (life task).inTable = true → s.schedulerHeap.Finds task) :
    Books N tasks fresh life s' := by
  have honHeap := h.onHeap.inherits hi hm hfinds
  obtain ⟨flag, hreasons⟩ := hi.reasons
  -- inheritance writes the two inherited priorities of a TCB only
  have hdata : ∀ t, (s'.tcb t).data = (s.tcb t).data := by
    intro t
    obtain ⟨_, _, _, ht⟩ := hi.tcb t
    rw [ht]
  have hscheduled : s'.scheduled = s.scheduled := by rw [hi.rest]
  refine
    { nodup := hscheduled ▸ h.nodup
      scheduled := hscheduled ▸ h.scheduled
      known := hscheduled ▸ h.known
      few := hscheduled ▸ h.few
      shows := fun t ht => ?_
      active := ?_
      sleeping := ?_
      waiters := ⟨h.waiters.parked.inherits hi, ?_, fun t => ?_⟩
      onHeap := honHeap
      onSleepHeap := ?_
      rejected := h.rejected
      clock := fun t ht => ?_
      noRollover := ?_
      idle := ?_
      completed := fun hfresh => (h.completed hfresh).congr (by rw [hi.rest]) (fun t ht => ?_)
        fun t ht => ⟨ht, hdata t⟩ }
  · rw [hi.state]
    exact h.shows t (hscheduled ▸ ht)
  · rw [hi.rest]
    exact { h.active with }
  · rw [hi.rest]
    exact { h.sleeping with }
  · rw [hreasons]
    exact h.waiters.capacity
  · rw [hi.waiting]
    exact h.waiters.mem t
  · rw [hi.rest]
    exact { h.onSleepHeap with }
  · rw [hdata, hi.rest]
    exact h.clock t ht
  · rw [hi.rest]
    exact h.noRollover
  · rw [hi.rest]
    exact h.idle
  · rw [hdata]
    exact (h.completed hfresh).ended t ht

/-- The sleep heap may change, as long as the tasks on it do not. -/
theorem setSleepHeap (h : Books N tasks fresh life s) {heap : MinHeap}
    (hheap : heap.Distinct tasks) (hsize : heap.maxNumberOfNodes = N)
    (hmem : ∀ t, t ∈ heap.contents ↔ t ∈ s.sleepHeap.contents) :
    Books N tasks fresh life { s with sleepHeap := heap } :=
  { h with
    active := { h.active with }
    sleeping := { h.sleeping with }
    waiters := { h.waiters with parked := { h.waiters.parked with } }
    onHeap := { h.onHeap with table := { h.onHeap.table with } }
    onSleepHeap := ⟨hheap, hsize, fun t => (hmem t).trans (h.onSleepHeap.mem t)⟩
    completed := fun hfresh => { h.completed hfresh with } }

/-- A sleeping task gets a new time stamp. -/
theorem refreshSleeper (h : Books N tasks fresh life s) (hsleep : (life task).isSleeping = true) :
    Books N tasks fresh life (s.refreshSleeper task) := by
  have hstate : ∀ t, ((s.refreshSleeper task).tcb t).state = (s.tcb t).state := by
    intro t
    rw [refreshSleeper_tcb]
    split <;> rfl
  -- the `data` of a task that has ended is a link, and must stay
  have hdata : ∀ t, (life t).isSleeping = false →
      ((s.refreshSleeper task).tcb t).data = (s.tcb t).data := by
    intro t ht
    have hne : t ≠ task := by
      rintro rfl
      rw [ht] at hsleep
      cases hsleep
    rw [refreshSleeper_tcb, if_neg hne]
  refine
    { h with
      shows := fun t ht => ?_
      active := { h.active with }
      sleeping := { h.sleeping with }
      waiters := h.waiters.frame rfl fun t _ => by rw [hstate]
      onHeap := { h.onHeap with table := { h.onHeap.table with } }
      onSleepHeap := { h.onSleepHeap with }
      clock := fun t ht => ?_
      completed := fun hfresh => (h.completed hfresh).congr rfl (fun t ht => ?_) fun t ht =>
        ⟨ht, hdata t (by rw [ht]; rfl)⟩ }
  · rw [hstate]
    exact h.shows t ht
  · rw [refreshSleeper_tcb]
    split
    · exact Nat.le_refl _
    · exact h.clock t ht
  · rw [hdata t (by rw [ht]; rfl)]
    exact (h.completed hfresh).ended t ht

/-! ## Waiting and waking -/

/-- The table of waiting tasks has room for a task that does not wait. -/
theorem waiting_room (h : Books N tasks fresh life s) (ht : t ∈ s.scheduled)
    (hwaiting : ¬ (life t).isWaiting = true) :
    0 < s.waitingTasksHashTableReasonAsKey.remainingCapacity := by
  have hsub : (s.waiting.map Prod.snd).toFinset ⊆ s.scheduled.toFinset.erase t := by
    intro x hx
    obtain ⟨⟨r, x⟩, hp, rfl⟩ := Multiset.mem_map.mp (Multiset.mem_toFinset.mp hx)
    refine Finset.mem_erase.mpr ⟨?_, ?_⟩
    · rintro rfl
      exact h.waiters.not_waiting hwaiting r hp
    · refine List.mem_toFinset.mpr (h.mem_of_ne_absent ?_)
      intro hl
      have hx' := (h.waiters.mem x).mp ⟨r, hp⟩
      rw [hl] at hx'
      cases hx'
  have hcard := Finset.card_le_card hsub
  rw [Multiset.toFinset_card_of_nodup h.waiters.parked.once, Multiset.card_map,
    Finset.card_erase_of_mem (List.mem_toFinset.mpr ht)] at hcard
  have hpos : 0 < s.scheduled.toFinset.card :=
    Finset.card_pos.mpr ⟨t, List.mem_toFinset.mpr ht⟩
  have hlength := (List.toFinset_card_le s.scheduled).trans h.few
  have hcapacity := h.waiters.capacity
  have htotal : _ + s.waiting.card = _ := h.waiters.parked.wf.card_content
  omega

/-- `waitCallback` parks the current task. -/
theorem park (h : Books N tasks fresh life s) (hlife : life s.currentTCB = .active)
    (reason : Nat) :
    Books N tasks fresh (Function.update life s.currentTCB (.waiting true)) (s.park reason) := by
  have hne : life s.currentTCB ≠ .absent := by rw [hlife]; simp
  have hcurrent := h.mem_of_ne_absent hne
  have hshows := h.shows _ hcurrent
  have hnot : ¬ (life s.currentTCB).isWaiting = true := by rw [hlife]; simp [Lifecycle.isWaiting]
  -- an active task waits for nothing, so the per-bucket check lets its entry in
  have hnew : ¬ s.waitingTasksHashTableReasonAsKey.Duplicate reason s.currentTCB
      .rejectMultipleIdenticalValuesPerKey := by
    rintro (⟨hmode, -⟩ | ⟨-, r, -, hmem⟩)
    · cases hmode
    · exact h.waiters.not_waiting hnot r hmem
  obtain ⟨table, hput, -, hcontent, -, hmax⟩ :=
    put_of_room h.waiters.parked.wf (h.waiting_room hcurrent hnot) hnew
  have htable : (s.park reason).waitingTasksHashTableReasonAsKey = table := congrArg Prod.fst hput
  have hwaiting : (s.park reason).waiting = (reason, s.currentTCB) ::ₘ s.waiting := by
    unfold Sched.waiting
    rw [htable]
    exact hcontent
  have htcb : ∀ t, t ≠ s.currentTCB → (s.park reason).tcb t = s.tcb t := by
    intro t ht
    rw [park_tcb, if_neg ht]
  rw [hlife] at hshows
  have honHeap := h.onHeap.congr
    (Lifecycle.stays (k := s.currentTCB) (l := .waiting true) Lifecycle.inTable
      (by rw [hlife]; rfl))
    (Lifecycle.stays (k := s.currentTCB) (l := .waiting true) Lifecycle.onHeap
      (by rw [hlife]; rfl))
  refine h.move hne (by simp) rfl ?_ (fun hl => by cases hl) (fun hl => by cases hl) htcb
    ((h.active.erase s.currentTCB).congr (Lifecycle.leaves Lifecycle.isActive rfl))
    (h.sleeping.congr (Lifecycle.stays Lifecycle.isSleeping (by rw [hlife]; rfl)))
    ⟨h.waiters.parked.park (h.known _ hcurrent).2 hshows.wait reason, ?_, ?_⟩
    { honHeap with table := { honHeap.table with } } ?_
  · rw [park_tcb, if_pos rfl]
    exact ⟨rfl, hshows.sleep, hshows.exit⟩
  · rw [htable]
    exact hmax.trans h.waiters.capacity
  · intro t
    rw [hwaiting, ← Lifecycle.joins (l := .waiting true) Lifecycle.isWaiting rfl, ← h.waiters.mem]
    constructor
    · rintro ⟨r, hr⟩
      rw [Multiset.mem_cons, Prod.mk.injEq] at hr
      exact hr.imp And.right fun hmem => ⟨r, hmem⟩
    · rintro (rfl | ⟨r, hr⟩)
      · exact ⟨reason, Multiset.mem_cons_self _ _⟩
      · exact ⟨r, Multiset.mem_cons_of_mem hr⟩
  · have hasleep := h.onSleepHeap.congr (Lifecycle.stays (k := s.currentTCB)
      (l := .waiting true) Lifecycle.onSleepHeap (by rw [hlife]; rfl))
    exact { hasleep with }

/-- A round of the loop of `notifyCallback`: a waiting task becomes active. -/
theorem wake (h : Books N tasks fresh life s) (hmem : (reason, task) ∈ s.waiting)
    (htake : (s.takeWaiting reason).2 = task)
    (hroom : (life task).onHeap = false → s.schedulerHeap.currentNumNodes < N) :
    Books N tasks fresh (Function.update life task .active)
      ((s.takeWaiting reason).1.unpark task) := by
  obtain ⟨b, hlife⟩ : ∃ b, life task = .waiting b := by
    have hwaiting := (h.waiters.mem task).mp ⟨reason, hmem⟩
    cases hl : life task <;> rw [hl] at hwaiting <;> first | exact ⟨_, rfl⟩ | cases hwaiting
  obtain ⟨hne, hscheduled, hshows⟩ := h.of_life hlife (by simp)
  obtain ⟨hparked, hcontent⟩ := h.waiters.parked.wake hmem htake
  obtain ⟨reasons, task', heq, -, -, hmax⟩ := takeWaiting_of_mem h.waiters.parked.wf ⟨task, hmem⟩
  obtain rfl : task' = task := by rw [← htake, heq]
  obtain ⟨table, hput, hactive⟩ := h.active.insert hscheduled
    (by rw [hlife]; simp [Lifecycle.isActive])
  have hput₁ : (s.takeWaiting reason).1.activeTasksHashTable.put task' task'
      .rejectMultipleValuesPerKey = (table, 1) := by
    rw [heq]
    exact hput
  obtain ⟨htable, htcb⟩ := unpark_of_put hput₁
  -- the state in which the task is put back on the heap
  set s₂ : Sched := { (s.takeWaiting reason).1 with activeTasksHashTable := table }.modifyTCB task'
    fun tcb => { tcb with state := { tcb.state with wait := false } } with hs₂
  have hunpark : (s.takeWaiting reason).1.unpark task' = s₂.returnToSchedulerHeap task' := by
    simp only [Sched.unpark, hput₁, ne_eq, one_ne_zero, not_false_eq_true, if_true]
    rfl
  have hbefore : OnHeap N tasks s₂ (fun t => (life t).inTable = true)
      (fun t => (life t).onHeap = true) := by
    rw [hs₂, heq]
    exact { h.onHeap with table := { h.onHeap.table with } }
  have honHeap := hbefore.returned (by rw [hs₂, heq]; exact hscheduled)
    (h.known _ hscheduled).1 (by rw [hlife]; simp [Lifecycle.inTable])
    (fun hoff => by rw [hs₂, heq]; exact hroom (Bool.eq_false_iff.mpr hoff))
  rw [← hunpark] at honHeap
  rw [heq] at htcb htable hparked hcontent honHeap ⊢
  have hrest := unpark_rest { s with
    waitingTasksHashTableReasonAsKey := reasons
    waitingTasksHashTableTcbAsKey := (s.waitingTasksHashTableTcbAsKey.remove task').1 } task'
  refine h.move hne (by simp) (by rw [hrest]) ?_ (fun hl => by cases hl) (fun hl => by cases hl)
    ?_ ?_ ?_ ⟨hparked, ?_, ?_⟩ (honHeap.congr (Lifecycle.joins Lifecycle.inTable rfl)
      (Lifecycle.joins Lifecycle.onHeap rfl)) ?_
  · rw [htcb, Function.update_self]
    exact ⟨rfl, hshows.sleep, hshows.exit⟩
  · intro t ht
    rw [htcb, Function.update_of_ne ht]
  · rw [htable]
    exact hactive.congr (Lifecycle.joins Lifecycle.isActive rfl)
  · rw [hrest]
    exact h.sleeping.congr (Lifecycle.stays Lifecycle.isSleeping (by rw [hlife]; rfl))
  · rw [hrest]
    exact hmax.trans h.waiters.capacity
  · intro t
    -- the only pair of the task is the one taken out
    rw [← Lifecycle.leaves (l := .active) Lifecycle.isWaiting rfl, ← h.waiters.mem, ← hcontent]
    have honce := h.waiters.parked.once
    rw [← hcontent, Multiset.map_cons, Multiset.nodup_cons] at honce
    constructor
    · rintro ⟨r, hr⟩
      refine ⟨?_, r, Multiset.mem_cons_of_mem hr⟩
      rintro rfl
      exact honce.1 (Multiset.mem_map.mpr ⟨(r, t), hr, rfl⟩)
    · rintro ⟨hne', r, hr⟩
      rw [Multiset.mem_cons, Prod.mk.injEq] at hr
      exact ⟨r, hr.resolve_left fun heq => hne' heq.2⟩
  · have hasleep := h.onSleepHeap.congr (Lifecycle.stays (k := task') (l := .active)
      Lifecycle.onSleepHeap (by rw [hlife]; cases b <;> rfl))
    rw [hrest]
    exact { hasleep with }

/-! ## Sleeping -/

/-- `sleepCallback` of the current task. -/
theorem fallAsleep (h : Books N tasks fresh life s) (hlife : life task = .active)
    (minSleepDuration : Nat) :
    Books N tasks fresh (Function.update life task (.sleeping true))
      (s.fallAsleep task minSleepDuration) := by
  obtain ⟨hne, hscheduled, hshows⟩ := h.of_life hlife (by simp)
  have htcb : ∀ t, (s.fallAsleep task minSleepDuration).tcb t = if t = task then
      { s.tcb t with
          state := { (s.tcb t).state with sleep := true }
          data := s.ticks
          data2 := minSleepDuration }
      else s.tcb t := by
    intro t
    by_cases ht : t = task
    · subst ht
      simp [Sched.fallAsleep, modifyTCB]
    · simp [Sched.fallAsleep, modifyTCB, ht]
  -- an active task is not among the sleeping ones, so the table takes it
  obtain ⟨table, hput, hsleeping⟩ := h.sleeping.insert hscheduled
    (by rw [hlife]; simp [Lifecycle.isSleeping])
  have honHeap := h.onHeap.congr
    (Lifecycle.stays (k := task) (l := .sleeping true) Lifecycle.inTable (by rw [hlife]; rfl))
    (Lifecycle.stays (k := task) (l := .sleeping true) Lifecycle.onHeap (by rw [hlife]; rfl))
  have hasleep := h.onSleepHeap.congr (Lifecycle.stays (k := task) (l := .sleeping true)
    Lifecycle.onSleepHeap (by rw [hlife]; rfl))
  have hwaiters := h.waiters.congr (Lifecycle.stays (k := task) (l := .sleeping true)
    Lifecycle.isWaiting (by rw [hlife]; rfl))
  refine h.move hne (by simp) rfl ?_ (fun hl => by cases hl) ?_ ?_
    ((h.active.erase task).congr (Lifecycle.leaves Lifecycle.isActive rfl)) ?_
    (hwaiters.frame rfl ?_) { honHeap with table := { honHeap.table with } }
    { hasleep with }
  · rw [htcb, if_pos rfl]
    exact ⟨hshows.wait, rfl, hshows.exit⟩
  · intro _
    rw [htcb, if_pos rfl]
  · intro t ht
    rw [htcb, if_neg ht]
  · show Table s (s.sleepingTasksHashTable.put task task .rejectMultipleValuesPerKey).1 _
    rw [hput]
    exact hsleeping.congr (Lifecycle.joins Lifecycle.isSleeping rfl)
  · intro t _
    rw [htcb]
    split <;> rfl

/-- An active task is found among the active ones, so `sleepCallback` puts it to
sleep unless it asks for no time. -/
theorem sleepCallback (h : Books N tasks fresh life s) (hlife : life task = .active)
    (minSleepDuration : Nat) :
    s.sleepCallback task minSleepDuration = s ∨
      s.sleepCallback task minSleepDuration = s.fallAsleep task minSleepDuration := by
  have hscheduled := h.mem_of_ne_absent (t := task) (by rw [hlife]; simp)
  have hremove := h.active.keys.remove_value (k := task) (by rw [hlife]; rfl)
  rcases sleepCallback_cases s task minSleepDuration with hs | ⟨hnull, -⟩ | ⟨-, hs⟩
  · exact .inl hs
  · exact absurd (hremove.symm.trans hnull) (h.known _ hscheduled).2
  · exact .inr hs

/-- A task whose time is up becomes active, whichever heap it was on. -/
theorem wakeSleeper (h : Books N tasks fresh life s) (hsleep : (life task).isSleeping = true)
    (hroom : (life task).onHeap = false → s.schedulerHeap.currentNumNodes < N) {heap : MinHeap}
    (hheap : heap.Distinct tasks) (hsize : heap.maxNumberOfNodes = N)
    (hmem : ∀ t, t ∈ heap.contents ↔ t ≠ task ∧ t ∈ s.sleepHeap.contents) :
    Books N tasks fresh (Function.update life task .active)
      ({ s with sleepHeap := heap }.wakeSleeper task) := by
  obtain ⟨b, hlife⟩ : ∃ b, life task = .sleeping b := by
    cases hl : life task <;> rw [hl] at hsleep <;> first | exact ⟨_, rfl⟩ | cases hsleep
  obtain ⟨hne, hscheduled, hshows⟩ := h.of_life hlife (by simp)
  obtain ⟨table, hput, hactive⟩ := h.active.insert hscheduled
    (by rw [hlife]; simp [Lifecycle.isActive])
  have hsleeping := h.sleeping.erase task
  -- the state in which the task is put back on the scheduler heap
  set s₁ : Sched := { { s with sleepHeap := heap }.modifyTCB task fun tcb =>
      { tcb with data := s.ticks } with
    sleepingTasksHashTable := (s.sleepingTasksHashTable.remove task).1
    activeTasksHashTable := (s.activeTasksHashTable.put task task .rejectMultipleValuesPerKey).1 }
    with hs₁
  have hwoken : { s with sleepHeap := heap }.wakeSleeper task =
      (s₁.returnToSchedulerHeap task).modifyTCB task fun tcb =>
        { tcb with state := { tcb.state with sleep := false }, data2 := 0 } := rfl
  have hbefore : OnHeap N tasks s₁ (fun t => (life t).inTable = true)
      (fun t => (life t).onHeap = true) := { h.onHeap with table := { h.onHeap.table with } }
  have honHeap := hbefore.returned hscheduled (h.known _ hscheduled).1
    (by rw [hlife]; simp [Lifecycle.inTable]) fun hoff => hroom (Bool.eq_false_iff.mpr hoff)
  have honHeap' := honHeap.congr (Lifecycle.joins (l := .active) Lifecycle.inTable rfl)
    (Lifecycle.joins (l := .active) Lifecycle.onHeap rfl)
  have hrest := returnToSchedulerHeap_rest s₁ task
  have htcb := wakeSleeper_tcb { s with sleepHeap := heap } task
  have hwaiters := h.waiters.congr (Lifecycle.stays (k := task) (l := .active)
    Lifecycle.isWaiting (by rw [hlife]; rfl))
  refine h.move hne (by simp) ?_ ?_ (fun hl => by cases hl) (fun hl => by cases hl)
    ?_ ?_ ?_ (hwaiters.frame ?_ ?_) ?_ ⟨?_, ?_, ?_⟩
  · rw [hwoken, hrest]
    rfl
  · rw [htcb, if_pos rfl]
    exact ⟨hshows.wait, rfl, hshows.exit⟩
  · intro t ht
    rw [htcb, if_neg ht]
  · rw [hwoken, hrest]
    show Table s (s.activeTasksHashTable.put task task .rejectMultipleValuesPerKey).1 _
    rw [hput]
    exact hactive.congr (Lifecycle.joins Lifecycle.isActive rfl)
  · rw [hwoken, hrest]
    exact hsleeping.congr (Lifecycle.leaves Lifecycle.isSleeping rfl)
  · rw [hwoken, hrest]
    rfl
  · intro t _
    rw [htcb]
    split <;> rfl
  · rw [hwoken]
    exact { honHeap' with table := { honHeap'.table with } }
  · rw [hwoken, hrest]
    exact hheap
  · rw [hwoken, hrest]
    exact hsize
  · intro t
    rw [hwoken, hrest]
    refine (hmem t).trans ?_
    rw [h.onSleepHeap.mem]
    exact Lifecycle.leaves Lifecycle.onSleepHeap rfl t

/-! ## The walk -/

/-- The walk takes a waiting task off the scheduler heap. -/
theorem leaveWaiting (h : Books N tasks fresh life s) (hi : index < s.schedulerHeap.currentNumNodes)
    (hlife : life (s.taskAt index) = .waiting true) :
    Books N tasks fresh (Function.update life (s.taskAt index) (.waiting false))
      (s.leaveSchedulerHeap index (s.taskAt index)) := by
  have hne : life (s.taskAt index) ≠ .absent := by rw [hlife]; simp
  have hshows := h.shows _ (h.mem_of_ne_absent hne)
  rw [hlife] at hshows
  have honHeap := (h.onHeap.left hi).congr
    (Lifecycle.leaves (l := .waiting false) Lifecycle.inTable rfl)
    (Lifecycle.leaves (l := .waiting false) Lifecycle.onHeap rfl)
  have hwaiters := h.waiters.congr (Lifecycle.stays (k := s.taskAt index) (l := .waiting false)
    Lifecycle.isWaiting (by rw [hlife]; rfl))
  have hasleep := h.onSleepHeap.congr (Lifecycle.stays (k := s.taskAt index)
    (l := .waiting false) Lifecycle.onSleepHeap (by rw [hlife]; rfl))
  exact h.move hne (by simp) rfl ⟨hshows.wait, hshows.sleep, hshows.exit⟩ (fun hl => by cases hl)
    (fun hl => by cases hl) (fun _ _ => rfl)
    (h.active.congr (Lifecycle.stays Lifecycle.isActive (by rw [hlife]; rfl)))
    (h.sleeping.congr (Lifecycle.stays Lifecycle.isSleeping (by rw [hlife]; rfl)))
    (hwaiters.frame rfl fun _ _ => rfl) honHeap { hasleep with }

/-- The walk moves a sleeping task to the sleep heap. -/
theorem moveToSleepHeap (h : Books N tasks fresh life s)
    (hi : index < s.schedulerHeap.currentNumNodes)
    (hlife : life (s.taskAt index) = .sleeping true)
    (hroom : s.sleepHeap.currentNumNodes < N) :
    Books N tasks fresh (Function.update life (s.taskAt index) (.sleeping false))
      (s.moveToSleepHeap index (s.taskAt index)) := by
  have hne : life (s.taskAt index) ≠ .absent := by rw [hlife]; simp
  have hscheduled := h.mem_of_ne_absent hne
  have hsleep : (life (s.taskAt index)).isSleeping = true := by rw [hlife]; rfl
  have hrefreshed := h.refreshSleeper hsleep
  have hshows := hrefreshed.shows _ hscheduled
  rw [hlife] at hshows
  -- off the scheduler heap and onto the sleep heap
  have honHeap := (hrefreshed.onHeap.left hi).congr
    (Lifecycle.leaves (l := .sleeping false) Lifecycle.inTable rfl)
    (Lifecycle.leaves (l := .sleeping false) Lifecycle.onHeap rfl)
  have hwaiters := hrefreshed.waiters.congr (Lifecycle.stays (k := s.taskAt index)
    (l := .sleeping false) Lifecycle.isWaiting (by rw [hlife]; rfl))
  have hnew : s.taskAt index ∉ s.sleepHeap.contents := by
    rw [h.onSleepHeap.mem, hlife]
    simp [Lifecycle.onSleepHeap]
  rw [← h.onSleepHeap.size] at hroom
  obtain ⟨hheap, hcontents⟩ := h.onSleepHeap.heap.addNode (h.known _ hscheduled).1 hnew hroom
    ((s.refreshSleeper (s.taskAt index)).tcb (s.taskAt index)).data2
  refine hrefreshed.move hne (by simp) rfl ⟨hshows.wait, hshows.sleep, hshows.exit⟩
    (fun hl => by cases hl) (fun _ => hrefreshed.clock _ hsleep) (fun _ _ => rfl)
    (hrefreshed.active.congr (Lifecycle.stays Lifecycle.isActive (by rw [hlife]; rfl)))
    (hrefreshed.sleeping.congr (Lifecycle.stays Lifecycle.isSleeping (by rw [hlife]; rfl)))
    (hwaiters.frame rfl fun _ _ => rfl) { honHeap with table := { honHeap.table with } }
    ⟨hheap, (MinHeap.addNode_max ..).trans h.onSleepHeap.size, ?_⟩
  intro t
  have hmem : (s.moveToSleepHeap index (s.taskAt index)).sleepHeap.contents =
      s.taskAt index ::ₘ s.sleepHeap.contents := hcontents
  rw [hmem, Multiset.mem_cons, h.onSleepHeap.mem]
  exact Lifecycle.joins Lifecycle.onSleepHeap rfl t

/-! ## The end of a task -/

/-- `taskExit` of an active task. -/
theorem exit (h : Books N tasks fresh life s) (hlife : life task = .active) :
    Books N tasks fresh (Function.update life task .ended) (s.taskExit task) := by
  obtain ⟨hne, -, hshows⟩ := h.of_life hlife (by simp)
  have htcb : ∀ t, (s.taskExit task).tcb t = if t = task then
      { s.tcb t with state := { (s.tcb t).state with exit := true }, data := NULL }
      else s.tcb t := by
    intro t
    show (s.modifyTCB task _).tcb t = _
    rw [modifyTCB_tcb]
  -- the task stays where it is, on the heap: the scheduler removes it when it gets there
  have honHeap := h.onHeap.congr
    (Lifecycle.stays (k := task) (l := .ended) Lifecycle.inTable (by rw [hlife]; rfl))
    (Lifecycle.stays (k := task) (l := .ended) Lifecycle.onHeap (by rw [hlife]; rfl))
  have hwaiters := h.waiters.congr (Lifecycle.stays (k := task) (l := .ended)
    Lifecycle.isWaiting (by rw [hlife]; rfl))
  have hasleep := h.onSleepHeap.congr (Lifecycle.stays (k := task) (l := .ended)
    Lifecycle.onSleepHeap (by rw [hlife]; rfl))
  refine h.move hne (by simp) rfl ?_ ?_ (fun hl => by cases hl) ?_
    (h.active.congr (Lifecycle.stays Lifecycle.isActive (by rw [hlife]; rfl)))
    (h.sleeping.congr (Lifecycle.stays Lifecycle.isSleeping (by rw [hlife]; rfl)))
    (hwaiters.frame rfl ?_) { honHeap with table := { honHeap.table with } }
    { hasleep with }
  · rw [htcb, if_pos rfl]
    exact ⟨hshows.wait, hshows.sleep, rfl⟩
  · intro _
    rw [htcb, if_pos rfl]
  · intro t ht
    rw [htcb, if_neg ht]
  · intro t _
    rw [htcb]
    split <;> rfl

/-- The walk removes a task that has ended; it is freed or joins the completed
ones. -/
theorem retire (h : Books N tasks fresh life s) (hi : index < s.schedulerHeap.currentNumNodes)
    (hlife : life (s.taskAt index) = .ended) {tcb : Nat → TCB} {completed : Nat}
    (hother : ∀ t, t ≠ s.taskAt index → tcb t = s.tcb t)
    (hcompleted : (completed = s.completedTasksLinkedList ∧ tcb = s.tcb) ∨
      (completed = s.taskAt index ∧ (tcb (s.taskAt index)).data =
        if s.completedTasksLinkedList ≠ NULL then s.completedTasksLinkedList
        else (s.tcb (s.taskAt index)).data)) (freed : List Nat) :
    Books N tasks fresh (Function.update life (s.taskAt index) .absent)
      { s.retire index (s.taskAt index) with
        tcb := tcb
        completedTasksLinkedList := completed
        freed := freed } := by
  generalize htask : s.taskAt index = task at *
  have hscheduled : task ∈ s.scheduled := h.mem_of_ne_absent (by rw [hlife]; simp)
  have hne : ∀ {t}, t ∈ s.scheduled.erase task → t ≠ task ∧ t ∈ s.scheduled :=
    h.nodup.mem_erase_iff.mp
  have hfew : (s.scheduled.erase task).length ≤ WAIT_HASHTABLE_CAPACITY :=
    List.length_erase_le.trans h.few
  -- what is left in a table are tasks that stay
  have hstay : ∀ {f : Lifecycle → Bool}, f .absent = false → ∀ k,
      f (Function.update life task .absent k) = true → k ∈ s.scheduled.erase task := by
    intro f hf k hk
    rw [Lifecycle.apply_update f] at hk
    split at hk
    · rw [hf] at hk
      cases hk
    · rename_i hkt
      refine h.nodup.mem_erase_iff.mpr ⟨hkt, h.mem_of_ne_absent ?_⟩
      intro hl
      rw [hl, hf] at hk
      cases hk
  have hactive := (h.active.erase task).congr
    (Lifecycle.leaves (l := .absent) Lifecycle.isActive rfl)
  have hsleeping := h.sleeping.congr (Lifecycle.stays (k := task) (l := .absent)
    Lifecycle.isSleeping (by rw [hlife]; rfl))
  have hleft := h.onHeap.left hi
  rw [htask] at hleft
  have honHeap := hleft.congr (Lifecycle.leaves (l := .absent) Lifecycle.inTable rfl)
    (Lifecycle.leaves (l := .absent) Lifecycle.onHeap rfl)
  have hasleep := h.onSleepHeap.congr (Lifecycle.stays (k := task) (l := .absent)
    Lifecycle.onSleepHeap (by rw [hlife]; rfl))
  have hwaiters := h.waiters.congr (Lifecycle.stays (k := task) (l := .absent)
    Lifecycle.isWaiting (by rw [hlife]; rfl))
  refine
    { nodup := h.nodup.erase task
      scheduled := fun t => ?_
      known := fun t ht => h.known t (hne ht).2
      few := hfew
      shows := fun t ht => ?_
      active := hactive.setScheduled (hstay rfl) hfew
      sleeping := hsleeping.setScheduled (hstay rfl) hfew
      waiters := hwaiters.frame rfl fun t ht => ?_
      onHeap := { honHeap with table := honHeap.table.setScheduled (hstay rfl) hfew }
      onSleepHeap := { hasleep with }
      rejected := fun t ht => h.rejected t (Lifecycle.rejected_of_update (by simp) ht)
      clock := fun t ht => ?_
      noRollover := h.noRollover
      idle := h.idle
      completed := fun hfresh => ?_ }
  · show t ∈ s.scheduled.erase task ↔ _
    rw [h.nodup.mem_erase_iff, h.scheduled]
    exact Lifecycle.leaves Lifecycle.present rfl t
  · show Lifecycle.Shows _ (tcb t).state
    rw [hother t (hne ht).1, Function.update_of_ne (hne ht).1]
    exact h.shows t (hne ht).2
  · have htt : t ≠ task := (hne (hstay (f := Lifecycle.isWaiting) rfl t ht)).1
    exact congrArg (fun tcb : TCB => tcb.state.wait) (hother t htt)
  · have htt : t ≠ task := (hne (hstay (f := Lifecycle.isSleeping) rfl t ht)).1
    rw [Function.update_of_ne htt] at ht
    show (tcb t).data ≤ s.ticks
    rw [hother t htt]
    exact h.clock t ht
  · refine (h.completed hfresh).retire hlife (h.known _ hscheduled).1 (h.known _ hscheduled).2
      hother ?_
    exact hcompleted.imp_left And.left

/-! ## Adding a task -/

/-- Writing a TCB that belongs to no task and is not on the list of completed ones. -/
theorem writeAbsent (h : Books N tasks fresh life s) (habsent : life task = .absent)
    (hnew : fresh → task ∉ s.completedTasks tasks) (f : TCB → TCB) :
    Books N tasks fresh life (s.modifyTCB task f) := by
  have hother : ∀ t, t ≠ task → (s.modifyTCB task f).tcb t = s.tcb t := by
    intro t ht
    rw [modifyTCB_tcb, if_neg ht]
  have hne : ∀ t, life t ≠ .absent → t ≠ task := by
    rintro t ht rfl
    exact ht habsent
  refine
    { h with
      shows := fun t ht => ?_
      active := { h.active with }
      sleeping := { h.sleeping with }
      waiters := h.waiters.frame rfl fun t ht => ?_
      onHeap := { h.onHeap with table := { h.onHeap.table with } }
      onSleepHeap := { h.onSleepHeap with }
      clock := fun t ht => ?_
      completed := fun hfresh => ?_ }
  · rw [hother t (hne t (h.ne_absent ht))]
    exact h.shows t ht
  · rw [hother t (hne t fun hl => by rw [hl] at ht; cases ht)]
  · rw [hother t (hne t fun hl => by rw [hl] at ht; cases ht)]
    exact h.clock t ht
  · exact (h.completed hfresh).rewrite (hnew hfresh) rfl (fun _ _ => rfl)
      (by rw [habsent]; simp) hother

/-- A new task is active, or rejected when the scheduler heap is full. -/
theorem enterTask (h : Books N tasks fresh life s) (htask : task ∈ tasks) (hnull : task ≠ NULL)
    (habsent : life task = .absent) (hstate : (s.tcb task).state = TaskState.zero)
    (hnew : fresh → task ∉ s.completedTasks tasks)
    (hroom : s.scheduled.length < WAIT_HASHTABLE_CAPACITY) (taskPriority : Nat) :
    ∃ l, Books N tasks fresh (Function.update life task l) (s.enterTask task taskPriority) ∧
      (l = .rejected → ¬ s.schedulerHeap.currentNumNodes < N) := by
  have hnot : task ∉ s.scheduled := by
    rw [h.scheduled, habsent]
    simp [Lifecycle.present]
  have hmem : ∀ {f : Lifecycle → Bool}, f .absent = false → ∀ t, f (life t) = true →
      t ∈ s.scheduled := by
    intro f hf t ht
    refine h.mem_of_ne_absent ?_
    intro hl
    rw [hl, hf] at ht
    cases ht
  -- the heap decides what becomes of the task
  obtain ⟨l, hl, hrejected, honHeap⟩ : ∃ l : Lifecycle, (l = .active ∨ l = .rejected) ∧
      (l = .rejected → ¬ s.schedulerHeap.currentNumNodes < N ∧ N < tasks.card) ∧
      OnHeap N tasks (s.enterTask task taskPriority)
        (fun t => (Function.update life task l t).inTable = true)
        fun t => (Function.update life task l t).onHeap = true := by
    rcases h.onHeap.entered htask (by rw [habsent]; simp [Lifecycle.inTable, Lifecycle.onHeap])
      (hmem rfl) hroom taskPriority with hadded | ⟨hfull, hcard, hheap⟩
    · exact ⟨.active, .inl rfl, fun hl => absurd hl (by simp),
        hadded.congr (Lifecycle.joins Lifecycle.inTable rfl)
          (Lifecycle.joins Lifecycle.onHeap rfl)⟩
    · exact ⟨.rejected, .inr rfl, fun _ => ⟨hfull, hcard⟩,
        hheap.congr (Lifecycle.joins Lifecycle.inTable rfl)
          (Lifecycle.stays Lifecycle.onHeap (by rw [habsent]; rfl))⟩
  obtain ⟨hpresent, hisActive, hsame, hended⟩ : l.present = true ∧ l.isActive = true ∧
      (l.isWaiting = false ∧ l.isSleeping = false ∧ l.onSleepHeap = false) ∧ l ≠ .ended := by
    rcases hl with rfl | rfl <;> exact ⟨rfl, rfl, ⟨rfl, rfl, rfl⟩, by simp⟩
  have htcb : ∀ t, t ≠ task → (s.enterTask task taskPriority).tcb t = s.tcb t := by
    intro t ht
    rw [enterTask_tcb, if_neg ht]
  have hother : ∀ {f : Lifecycle → Bool}, f l = false → ∀ t,
      f (Function.update life task l t) = true → t ≠ task ∧ f (life t) = true :=
    fun hf t ht => (Lifecycle.leaves _ hf t).mpr ht
  have hset : ∀ {table : Hashtable} {f : Lifecycle → Bool}, f .absent = false →
      Table s table (fun t => f (life t) = true) →
      Table (s.enterTask task taskPriority) table fun t => f (life t) = true :=
    fun hf htable => htable.setScheduled (fun t ht => List.mem_cons_of_mem _ (hmem hf t ht)) hroom
  obtain ⟨active, hput, hactive⟩ := (hset rfl h.active).insert (k := task) List.mem_cons_self
    (by rw [habsent]; simp [Lifecycle.isActive])
  have hwaiters := h.waiters.congr (Lifecycle.stays (k := task) (l := l)
    Lifecycle.isWaiting (by rw [habsent]; exact hsame.1))
  have hasleep := h.onSleepHeap.congr (Lifecycle.stays (k := task) (l := l)
    Lifecycle.onSleepHeap (by rw [habsent]; exact hsame.2.2))
  refine ⟨l,
    { nodup := List.nodup_cons.mpr ⟨hnot, h.nodup⟩
      scheduled := ?_
      known := ?_
      few := hroom
      shows := ?_
      active := ?_
      sleeping := (hset rfl h.sleeping).congr
        (Lifecycle.stays Lifecycle.isSleeping (by rw [habsent]; exact hsame.2.1))
      waiters := hwaiters.frame rfl fun t ht => by rw [htcb t (hother hsame.1 t ht).1]
      onHeap := honHeap
      onSleepHeap := { hasleep with }
      rejected := ?_
      clock := ?_
      noRollover := h.noRollover
      idle := h.idle
      completed := ?_ },
    fun hl => (hrejected hl).1⟩
  · intro t
    rw [← Lifecycle.joins Lifecycle.present hpresent, ← h.scheduled]
    exact List.mem_cons
  · intro t ht
    rcases List.mem_cons.mp ht with rfl | ht
    · exact ⟨htask, hnull⟩
    · exact h.known t ht
  · intro t ht
    by_cases htt : t = task
    · subst htt
      rw [Function.update_self, enterTask_tcb, if_pos rfl]
      exact ⟨(congrArg TaskState.wait hstate).trans hsame.1.symm,
        (congrArg TaskState.sleep hstate).trans hsame.2.1.symm,
        (congrArg TaskState.exit hstate).trans (decide_eq_false hended).symm⟩
    · rw [Function.update_of_ne htt, htcb t htt]
      exact h.shows t ((List.mem_cons.mp ht).resolve_left htt)
  · show Table _ (s.activeTasksHashTable.put task task .rejectMultipleValuesPerKey).1 _
    rw [hput]
    exact hactive.congr (Lifecycle.joins Lifecycle.isActive hisActive)
  · intro t ht
    by_cases htt : t = task
    · subst htt
      rw [Function.update_self] at ht
      exact (hrejected ht).2
    · rw [Function.update_of_ne htt] at ht
      exact h.rejected t ht
  · intro t ht
    obtain ⟨htt, ht⟩ := hother hsame.2.1 t ht
    rw [htcb t htt]
    exact h.clock t ht
  · intro hfresh
    refine (h.completed hfresh).rewrite (hnew hfresh) rfl
      (fun t ht => Function.update_of_ne ht ..) ?_ htcb
    rw [Function.update_self]
    exact hended

/-- `OS_initialiseTCB` and `addTask`. -/
theorem addTask (h : Books N tasks fresh life s) (htask : task ∈ tasks)
    (hnot : task ∉ s.scheduled) (hnew : fresh → task ∉ s.completedTasks tasks)
    (hroom : s.scheduled.length < WAIT_HASHTABLE_CAPACITY) (memory : TCB)
    (stack taskPriority : Nat) :
    ∃ life', Books N tasks fresh life'
        ((s.modifyTCB task fun _ => initialiseTCB memory stack).addTask task taskPriority) ∧
      (∀ t, t ≠ task → life' t = life t) ∧
      (life' task = .rejected → ¬ s.schedulerHeap.currentNumNodes < N) := by
  have habsent : life task = .absent := by
    by_contra hne
    exact hnot (h.mem_of_ne_absent hne)
  -- a task that is not scheduled is in no table and no heap, so its TCB may be written
  have hwritten := h.writeAbsent habsent hnew fun _ => initialiseTCB memory stack
  have hnew' : fresh → task ∉ (s.modifyTCB task fun _ => initialiseTCB memory stack).completedTasks
      tasks := by
    intro hfresh
    -- nor is it on the list of completed tasks, whose links stay
    obtain ⟨l, hchain, -⟩ := (h.completed hfresh).chain
    have hnotChain := hnew hfresh
    rw [(h.completed hfresh).completedTasks_eq hchain] at hnotChain
    have hchain' : Lib.Chain (fun t => toPtr
        ((s.modifyTCB task fun _ => initialiseTCB memory stack).tcb t).data)
        (toPtr s.completedTasksLinkedList) l := by
      refine hchain.congr ?_
      intro t ht
      rw [modifyTCB_tcb, if_neg (ne_of_mem_of_not_mem ht hnotChain)]
    rw [(hwritten.completed hfresh).completedTasks_eq hchain']
    exact hnotChain
  rcases addTask_cases (s.modifyTCB task fun _ => initialiseTCB memory stack) task taskPriority with
    heq | ⟨hnull, hstate, heq⟩ <;> rw [heq]
  · exact ⟨life, hwritten, fun _ _ => rfl, fun hl => absurd (habsent.symm.trans hl) (by simp)⟩
  · obtain ⟨l, hentered, hrejected⟩ :=
      hwritten.enterTask htask hnull habsent hstate hnew' hroom taskPriority
    refine ⟨_, hentered, fun t ht => Function.update_of_ne ht _ _, ?_⟩
    intro hl
    rw [Function.update_self] at hl
    exact hrejected hl

/-! ## The scheduler up to its wake-up loop, and the start -/

theorem beforeWake (h : Books N tasks fresh life s) {memclusterInUse : Bool} {fuel : Nat}
    (hs : s.beforeWake memclusterInUse fuel = some s') :
    Books N tasks fresh life s' ∧ s'.currentTCB = s.currentTCB ∧ s'.idleTCB = s.idleTCB := by
  obtain ⟨completed, freed, rfl, hcompleted⟩ := beforeWake_cases h.noRollover hs
  have hyield : Books N tasks fresh life
      { s.modifyTCB s.currentTCB fun tcb => { tcb with state := { tcb.state with yield := false } }
        with
        freed := freed
        ticksSinceLastTaskSwitch := 0 } := by
    refine h.frame rfl (Nat.le_refl _) ?_
    intro t
    show (∃ yield, ((s.modifyTCB s.currentTCB fun tcb =>
      { tcb with state := { tcb.state with yield := false } }).tcb t).state = _) ∧
        ((s.modifyTCB s.currentTCB fun tcb =>
          { tcb with state := { tcb.state with yield := false } }).tcb t).data = _
    rw [modifyTCB_tcb]
    split
    · exact ⟨⟨_, rfl⟩, rfl⟩
    · exact ⟨⟨_, rfl⟩, rfl⟩
  refine ⟨?_, rfl, rfl⟩
  rcases hcompleted with rfl | rfl
  · -- the list of completed tasks is empty now
    exact
      { hyield with
        active := { hyield.active with }
        sleeping := { hyield.sleeping with }
        waiters := { hyield.waiters with parked := { hyield.waiters.parked with } }
        onHeap := { hyield.onHeap with table := { hyield.onHeap.table with } }
        onSleepHeap := { hyield.onSleepHeap with }
        completed := fun hfresh =>
          { ended := (hyield.completed hfresh).ended
            chain := ⟨[], Lib.Path.nil_iff.mpr rfl, fun t ht => absurd ht List.not_mem_nil⟩ } }
  · exact hyield

/-- Enough fuel frees the completed tasks. -/
theorem beforeWake_isSome (h : Books N tasks fresh life s) (hfresh : fresh)
    (memclusterInUse : Bool) :
    ∃ fuel₀, ∀ fuel, fuel₀ ≤ fuel → ∃ s', s.beforeWake memclusterInUse fuel = some s' := by
  obtain ⟨l, hchain, -⟩ := (h.completed hfresh).chain
  refine ⟨l.length + 1, ?_⟩
  intro fuel hfuel
  obtain ⟨s₁, hs₁⟩ := freeCompleted_of_chain hchain hfuel
  obtain ⟨freed, rfl⟩ := freeCompleted_cases hs₁
  by_cases hfree : s.completedTasksLinkedList ≠ NULL ∧ memclusterInUse = false
  · simp only [Sched.beforeWake, if_pos hfree, hs₁, Option.bind_eq_bind, Option.bind_some]
    rw [if_neg fun hne => hne h.noRollover]
    exact ⟨_, rfl⟩
  · simp only [Sched.beforeWake, if_neg hfree, Option.bind_eq_bind, Option.bind_some]
    rw [if_neg fun hne => hne h.noRollover]
    exact ⟨_, rfl⟩

/-- The scheduler starts without tasks. -/
theorem booted (hN : 0 < N) (hmax : N ≤ UINT32_MAX) (hs : Booted N tasks s) (fresh : Prop) :
    Books N tasks fresh (fun _ => .absent) s := by
  obtain ⟨tcb, mutexes, currentTCB, idleTCB, ticks, values, flags, nodes, -, hidle, rfl⟩ := hs
  -- the five tables and the two heaps are new, and no task is in any of them
  have htable : ∀ (i : Nat) {P : Nat → Prop}, (∀ k, ¬ P k) →
      Table (initializeScheduler N tcb mutexes currentTCB idleTCB ticks values flags nodes)
        (newHashtable WAIT_HASHTABLE_CAPACITY NUM_BUCKETS_FOR_WAIT_HASHTABLE (values i) (flags i))
        P :=
    fun i P hP => ⟨newHashtable_keySet (Nat.zero_le _) (by decide) (by decide) _ _ hP, rfl⟩
  have hwaiting : (initializeScheduler N tcb mutexes currentTCB idleTCB ticks values flags
      nodes).waiting = 0 := newHashtable_content _ _
  exact
    { nodup := List.nodup_nil
      scheduled := fun t => ⟨fun ht => absurd ht List.not_mem_nil, fun ht => by cases ht⟩
      known := fun t ht => absurd ht List.not_mem_nil
      few := Nat.zero_le _
      shows := fun t ht => absurd ht List.not_mem_nil
      active := htable 2 fun _ hk => by cases hk
      sleeping := htable 4 fun _ hk => by cases hk
      waiters :=
        { parked := .of_none (newHashtable_wf (by decide) (by decide) _ _) hwaiting
          capacity := rfl
          mem := fun t => by
            rw [hwaiting]
            exact ⟨fun ⟨r, hr⟩ => absurd hr (Multiset.notMem_zero _), fun ht => by cases ht⟩ }
      onHeap :=
        { table := htable 3 fun _ hk => by cases hk
          heap :=
            { distinct := (@MinHeap.newHeap_holds ∅ N hN hmax (Nat.zero_le _) true _ _ _
                ).distinct.mono (Finset.empty_subset _)
              lookup := fun hroom => MinHeap.newHeap_lookup hN hroom _ _ _ }
          size := rfl
          mem := fun t => ⟨fun ht => absurd ht (Multiset.notMem_zero _), fun ht => by cases ht⟩ }
      onSleepHeap :=
        { heap := (@MinHeap.newHeap_holds ∅ N hN hmax (Nat.zero_le _) false _ _ _
            ).distinct.mono (Finset.empty_subset _)
          size := rfl
          mem := fun t => ⟨fun ht => absurd ht (Multiset.notMem_zero _), fun ht => by cases ht⟩ }
      rejected := fun t ht => by cases ht
      clock := fun t ht => by cases ht
      noRollover := rfl
      idle := hidle
      completed := fun _ =>
        { ended := fun t ht => by cases ht
          chain := ⟨[], Lib.Path.nil_iff.mpr rfl, fun t ht => absurd ht List.not_mem_nil⟩ } }

end Books

end Sched

end DocetOS
