import DocetOS.OS.InheritedMinimum

/-!
# Notifying wakes exactly the tasks that wait for the reason

- `Parked.wakesWithin`: the loop of `notifyCallback` ends as soon as it has taken
  every task that waits for the reason.
- `Books.wakeAll_exact`: what the loop does to each waiting task.
- `WakesExactly.drops`: the rest of `notifyCallback` only concerns the current
  task, which does not wait.
- `notify_wakes_exactly`: the result for reachable states.
-/

namespace DocetOS

open Lib Hashtable

namespace Sched

variable {N : Nat} {tasks : Finset Nat} {fresh : Prop} {life : Nat → Lifecycle} {s s' s₁ : Sched}
  {reason task t : Nat}

/-! ## The loop ends -/

/-- The loop of `notifyCallback` finds no task any more in one of this many rounds. -/
def wakesWithin (reason : Nat) : Nat → Sched → Bool
  | 0, _ => false
  | rounds + 1, s =>
    let (s, task) := s.takeWaiting reason
    if task = NULL then true else wakesWithin reason rounds (s.unpark task)

/-- The tasks that wait for the reason. -/
def waitersFor (s : Sched) (reason : Nat) : Multiset (Nat × Nat) :=
  s.waiting.filter fun p => p.1 = reason

/-- **Termination**: every round but the last takes one of the waiting tasks. -/
theorem Parked.wakesWithin (h : Parked s) {rounds : Nat}
    (hrounds : (s.waitersFor reason).card < rounds) : wakesWithin reason rounds s = true := by
  induction rounds generalizing s with
  | zero => exact absurd hrounds (Nat.not_lt_zero _)
  | succ rounds ih =>
    by_cases hmem : ∃ task, (reason, task) ∈ s.waiting
    · obtain ⟨reasons, task, htake, -, hcontent, -⟩ := takeWaiting_of_mem h.wf hmem
      have htask : (reason, task) ∈ s.waiting := hcontent ▸ Multiset.mem_cons_self _ _
      obtain ⟨hparked, hwaiting⟩ := h.wake htask (by rw [htake])
      rw [htake] at hparked hwaiting
      simp only [Sched.wakesWithin, htake, if_neg (h.not_null reason task htask)]
      refine ih hparked ?_
      unfold waitersFor at hrounds
      rw [← hwaiting, Multiset.filter_cons_of_pos _ (by rfl), Multiset.card_cons] at hrounds
      exact Nat.lt_of_succ_lt_succ hrounds
    · have hnone : ∀ task, (reason, task) ∉ s.waiting := fun task ht => hmem ⟨task, ht⟩
      simp only [Sched.wakesWithin, takeWaiting_of_not_mem h.wf hnone, if_pos]

/-- A loop that has ended does nothing in further rounds. -/
theorem wakeWaiting_add {rounds : Nat} (h : wakesWithin reason rounds s = true) (more : Nat) :
    wakeWaiting reason (rounds + more) s = wakeWaiting reason rounds s := by
  induction rounds generalizing s with
  | zero => cases h
  | succ rounds ih =>
    rw [Nat.succ_add]
    simp only [wakesWithin] at h
    simp only [wakeWaiting]
    split
    · rfl
    · rename_i hne
      rw [if_neg hne] at h
      exact ih h

/-- All bounds that are large enough give the same result. -/
theorem Parked.wakeWaiting_eq (h : Parked s) {rounds : Nat}
    (hrounds : (s.waitersFor reason).card < rounds) :
    wakeWaiting reason rounds s = s.wakeAll reason := by
  have hcapacity : (s.waitersFor reason).card <
      s.waitingTasksHashTableReasonAsKey.maximumCapacity + 1 := by
    have hle : (s.waitersFor reason).card ≤ s.waiting.card :=
      Multiset.card_le_card (Multiset.filter_le _ _)
    have htotal : _ + s.waiting.card = _ := h.wf.card_content
    omega
  have hone := wakeWaiting_add (h.wakesWithin hrounds)
    (s.waitingTasksHashTableReasonAsKey.maximumCapacity + 1)
  have hother := wakeWaiting_add (h.wakesWithin hcapacity) rounds
  rw [Nat.add_comm] at hother
  exact hone.symm.trans hother

/-! ## What it does -/

/-- From `s` to `s'`, the tasks that wait for the reason are woken, and no others. -/
structure WakesExactly (reason : Nat) (s s' : Sched) : Prop where
  entries : s'.waiting = s.waiting.filter fun p => p.1 ≠ reason
  drained : ∀ task, (reason, task) ∉ s'.waiting
  active : ∀ task, (reason, task) ∈ s.waiting → (task, task) ∈ s'.activeTasksHashTable.content
  awake : ∀ task, (reason, task) ∈ s.waiting → (s'.tcb task).state.wait = false
  onHeap : ∀ task, (reason, task) ∈ s.waiting → s'.schedulerHeap.contents.count task = 1
  /-- A task that had left the heap has come back with its effective priority. -/
  key : ∀ task, (reason, task) ∈ s.waiting → task ∉ s.schedulerHeap.contents →
    (⟨task, (s'.tcb task).heapPriority⟩ : MinHeapNode) ∈ s'.schedulerHeap.nodes
  others : ∀ other task, other ≠ reason → (other, task) ∈ s.waiting →
    (other, task) ∈ s'.waiting ∧ (s'.tcb task).state.wait = true ∧
      s'.schedulerHeap.contents.count task = s.schedulerHeap.contents.count task

/-- A task waits for one reason. -/
theorem Parked.reason_unique (h : Parked s) {r r' : Nat} (hr : (r, t) ∈ s.waiting)
    (hr' : (r', t) ∈ s.waiting) : r = r' := by
  by_contra hne
  obtain ⟨rest, hrest⟩ := Multiset.exists_cons_of_mem hr
  have honce := h.once
  rw [hrest, Multiset.map_cons, Multiset.nodup_cons] at honce
  rw [hrest, Multiset.mem_cons] at hr'
  rcases hr' with heq | hmem
  · exact hne (Prod.mk.inj heq).1.symm
  · exact honce.1 (Multiset.mem_map.mpr ⟨_, hmem, rfl⟩)

/-- The tasks that wait for the reason are active after the loop, the others are
where they were. -/
theorem Books.wakeAll_life (h : Books N tasks fresh life s) (hnodes : tasks.card ≤ N)
    (reason : Nat) :
    ∃ life', Books N tasks fresh life' (s.wakeAll reason) ∧
      (∀ t, (reason, t) ∈ s.waiting → life' t = .active) ∧
      ∀ t, (reason, t) ∉ s.waiting → life' t = life t := by
  obtain ⟨life', hbooks, -, hmoves⟩ := @Books.wakeAll _ _ _ _ _ reason h (.inl hnodes)
  refine ⟨life', hbooks, ?_, ?_⟩
  · intro t ht
    rcases hmoves t with heq | ⟨-, hactive⟩
    · -- a task that has not moved on would still be in the table
      exfalso
      have hwaiting := (h.waiters.mem t).mp ⟨reason, ht⟩
      rw [← heq] at hwaiting
      obtain ⟨other, hother⟩ := (hbooks.waiters.mem t).mpr hwaiting
      rw [(h.waiters.parked.wakeAll reason).2, Multiset.mem_filter] at hother
      exact hother.2 (h.waiters.parked.reason_unique hother.1 ht)
    · exact hactive
  · intro t ht
    exact (hmoves t).resolve_right fun hwoken => ht hwoken.1

/-- **The loop wakes exactly** the tasks that wait for the reason. -/
theorem Books.wakeAll_exact (h : Books N tasks fresh life s) (hnodes : tasks.card ≤ N)
    (reason : Nat) : WakesExactly reason s (s.wakeAll reason) := by
  obtain ⟨life', hbooks, hwoken, hkept⟩ := h.wakeAll_life hnodes reason
  have hentries := (h.waiters.parked.wakeAll reason).2
  have hkeeps : KeepsKeys s (s.wakeAll reason) := KeepsKeys.wakeWaiting _ _ _
  have honHeap : ∀ task, (reason, task) ∈ s.waiting →
      task ∈ (s.wakeAll reason).schedulerHeap.contents := by
    intro task htask
    rw [hbooks.onHeap.mem, hwoken task htask]
    rfl
  refine
    { entries := hentries
      drained := fun task htask => ?_
      active := fun task htask => ?_
      awake := fun task htask => (hbooks.bits_of_active (hwoken task htask)).1
      onHeap := fun task htask =>
        Multiset.count_eq_one_of_mem hbooks.onHeap.heap.distinct.nodup (honHeap task htask)
      key := fun task htask hoff => ?_
      others := fun other task hother htask => ⟨?_, ?_, ?_⟩ }
  · rw [hentries, Multiset.mem_filter] at htask
    exact htask.2 rfl
  · exact (hbooks.active.keys.mem task task).mpr ⟨rfl, by rw [hwoken task htask]; rfl⟩
  · -- the node of the task is not one of the old ones
    obtain ⟨node, hnode, rfl⟩ := Multiset.mem_map.mp (honHeap task htask)
    rcases hkeeps.nodes h.onHeap.heap.distinct.wf node hnode with hold | hvalue
    · exact absurd (Multiset.mem_map.mpr ⟨node, hold, rfl⟩) hoff
    · rw [hkeeps.priorities.heapPriority, ← hvalue]
      exact hnode
  · rw [hentries, Multiset.mem_filter]
    exact ⟨htask, hother⟩
  · refine hbooks.waiters.parked.wait other task ?_
    rw [hentries, Multiset.mem_filter]
    exact ⟨htask, hother⟩
  · have hnot : (reason, task) ∉ s.waiting := fun hmem =>
      hother (h.waiters.parked.reason_unique htask hmem)
    rw [count_of_distinct (P := fun t => (life t).onHeap) h.onHeap.heap.distinct h.onHeap.mem,
      count_of_distinct (P := fun t => (life' t).onHeap) hbooks.onHeap.heap.distinct
        hbooks.onHeap.mem, hkept task hnot]

/-! ## The rest of `notifyCallback` -/

/-- The last part of `notifyCallback` gives no other task another priority. -/
theorem dropAcquired_heapPriority {fuel prevAcquiredMutex acquiredMutex : Nat}
    (h : dropAcquired reason fuel s prevAcquiredMutex acquiredMutex = some s')
    (ht : t ≠ s.currentTCB) : (s'.tcb t).heapPriority = (s.tcb t).heapPriority := by
  rcases dropAcquired_call h with ⟨-, rfl⟩ | ⟨s₁, fuel₁, -, hlinked, -, hs₁⟩
  · rfl
  · rw [updatePriorityInheritance_tcb_of_ne hs₁ ht]
    obtain ⟨acquired, heq⟩ := hlinked.tcb t
    rw [heq]
    rfl

/-- Giving the mutex back changes nothing for the tasks that waited. -/
theorem WakesExactly.drops (h : WakesExactly reason s s₁) (hheap : s₁.LookedUp)
    (hcurrent : ∀ r, (r, s₁.currentTCB) ∉ s.waiting) {fuel prevAcquiredMutex acquiredMutex : Nat}
    (hs : dropAcquired reason fuel s₁ prevAcquiredMutex acquiredMutex = some s') :
    WakesExactly reason s s' := by
  have hi := dropAcquired_inherits hs
  obtain ⟨hcontents, hnodes⟩ :=
    (dropAcquired_moves hs).same_nodes hheap.heap fun hflag => hheap.finds_of_flag hflag
  have hactive : s'.activeTasksHashTable = s₁.activeTasksHashTable := by rw [hi.rest]
  refine
    { entries := hi.waiting.trans h.entries
      drained := fun task => hi.waiting ▸ h.drained task
      active := fun task htask => hactive ▸ h.active task htask
      awake := fun task htask => by rw [hi.state]; exact h.awake task htask
      onHeap := fun task htask => by rw [hcontents]; exact h.onHeap task htask
      key := fun task htask hoff => ?_
      others := fun other task hother htask => ?_ }
  · have hne : task ≠ s₁.currentTCB := by
      rintro rfl
      exact hcurrent _ htask
    have hmem := Multiset.mem_filter_of_mem
      (p := fun node : MinHeapNode => node.ptrToNodeContent ≠ s₁.currentTCB)
      (h.key task htask hoff) hne
    rw [← hnodes] at hmem
    rw [dropAcquired_heapPriority hs hne]
    exact Multiset.mem_of_mem_filter hmem
  · rw [hi.waiting, hi.state, hcontents]
    exact h.others other task hother htask

/-- The current task does not wait. -/
theorem Books.current_not_waiting (h : Books N tasks fresh life s) (hr : Running tasks life s)
    (reason : Nat) : (reason, s.currentTCB) ∉ s.waiting := by
  intro hmem
  have hwaiting := (h.waiters.mem _).mp ⟨reason, hmem⟩
  have hscheduled := h.mem_of_ne_absent (t := s.currentTCB) fun hl => by
    rw [hl] at hwaiting
    cases hwaiting
  rw [hr.of_scheduled h hscheduled] at hwaiting
  cases hwaiting

/-- **Notify wakes exactly the waiters**: in every reachable state and for every
reason the loop ends, and after it, as after the whole callback, the tasks that
waited for the reason are awake and the others wait as before. -/
theorem notify_wakes_exactly (hN : 0 < N) (hmax : N ≤ UINT32_MAX) (hnodes : tasks.card ≤ N)
    (htables : tasks.card ≤ WAIT_HASHTABLE_CAPACITY) (h : (schedulerMachine N tasks).Reach s)
    (reason : Nat) :
    (∀ rounds, (s.waitersFor reason).card < rounds →
      wakesWithin reason rounds s = true ∧ wakeWaiting reason rounds s = s.wakeAll reason) ∧
      WakesExactly reason s (s.wakeAll reason) ∧
      ∀ fuel s', s.notifyCallback fuel reason = some s' → WakesExactly reason s s' := by
  obtain ⟨life, hbooks, hrun⟩ : ∃ life, Books N tasks False life s ∧ Running tasks life s :=
    books_of_reach hN hmax hnodes htables (fun _ hs => hs) (fun _ _ _ hs => ⟨hs, False.elim⟩) h
  have hparked := hbooks.waiters.parked
  have hexact := hbooks.wakeAll_exact hnodes reason
  refine ⟨fun rounds hrounds => ⟨hparked.wakesWithin hrounds, hparked.wakeWaiting_eq hrounds⟩,
    hexact, ?_⟩
  intro fuel s' hs
  obtain ⟨life', hbooks', -⟩ := hbooks.wakeAll_life hnodes reason
  refine hexact.drops (hbooks'.lookedUp hnodes) ?_ hs
  intro r
  rw [(s.wakeAll_wakes reason).rest]
  exact hbooks.current_not_waiting hrun r

/-- The walk goes down to the first child of the root. -/
def toChild : TaskSwitch := ⟨false, fun k => if k = 0 then 4 else 0, 1⟩

/-- Tasks 100 and 400 wait for 500, and 400 is still on the heap. Task 200 waits for
508, which is in the same bucket. -/
def threeWait : List SchedulerEvent :=
  [.addTask 100 ((sampleSched 1).tcb 0) 0 1, .addTask 200 ((sampleSched 1).tcb 0) 0 2,
    .addTask 300 ((sampleSched 1).tcb 0) 0 3, .addTask 400 ((sampleSched 1).tcb 0) 0 4,
    .schedule toRoot, .wait 1 500 0 0 toRoot, .wait 1 508 0 0 toRoot, .yield toChild,
    .wait 1 500 0 0 toRoot]

theorem notify_wakes_exactly_threeWait :
    ∃ s, (schedulerMachine 16 {100, 200, 300, 400}).run (sampleSched 1) threeWait = some s ∧
      s.waiting = {(500, 400), (508, 200), (500, 100)} ∧ s.schedulerHeap.contents = {300, 400} ∧
      (∀ rounds, (s.waitersFor 500).card < rounds →
        wakesWithin 500 rounds s = true ∧ wakeWaiting 500 rounds s = s.wakeAll 500) ∧
      WakesExactly 500 s (s.wakeAll 500) ∧
      ∀ fuel s', s.notifyCallback fuel 500 = some s' → WakesExactly 500 s s' := by
  obtain ⟨s, hrun, hwaiting, hcontents⟩ := Machine.exists_run
    (P := fun s => s.waiting = {(500, 400), (508, 200), (500, 100)} ∧
      s.schedulerHeap.contents = {300, 400})
    (M := schedulerMachine 16 {100, 200, 300, 400}) (s := sampleSched 1) (e := threeWait)
    (by decide +kernel)
  have hreach := (Machine.Reach.init (M := schedulerMachine 16 {100, 200, 300, 400})
    (sampleSched_rested _ (by decide)).booted).run hrun
  exact ⟨s, hrun, hwaiting, hcontents,
    notify_wakes_exactly (by decide) (by decide) (by decide) (by decide) hreach 500⟩

end Sched

end DocetOS
