import DocetOS.OS.Bookkeeping

/-!
# Accepted tasks that are lost

A task that waits or sleeps leaves the scheduler heap, and others may be added in
its place. When it comes back there may be no free node, and the status of
`OS_heap_addNode` is ignored on all three ways back: the task is then active, and
on no heap. Priority inheritance ignores it too, and takes a wrong node off the
heap when the lookup table does not know the one it is looking for.

- `accepts` records the tasks that `addTask` put on the scheduler heap.
- `no_task_lost`: none of them is lost in a run in which every task that comes back
  finds a free node, and priority inheritance the node it moves.
- `task_lost`: a task is lost when a second one is added to a heap of one node while
  the first one waits.

Nothing is asked of the mutex that a task waits for, or of the priority of a new
task (`uncheckedCall`).
-/

namespace DocetOS

namespace Sched

/-- As `step`, after an `uncheckedCall`. -/
def uncheckedStep (tasks : Finset Nat) (s : Sched) (e : SchedulerEvent) : Option Sched := do
  let s ← s.uncheckedCall tasks e
  match e.switch with
  | none => some s
  | some switch => s.pendSV switch.memclusterInUse switch.rand switch.fuel

/-- The tasks that come back to a heap in the event find a place. -/
def uncheckedFits (tasks : Finset Nat) (s : Sched) (e : SchedulerEvent) : Bool :=
  s.callFits e &&
    match s.uncheckedCall tasks e, e.switch with
    | some s, some switch => s.pendSVFits switch.memclusterInUse switch.rand switch.fuel
    | _, _ => true

/-- The tasks that `addTask` has put on the scheduler heap when they were last
added. -/
def accepts (s : Sched) (e : SchedulerEvent) (accepted : Finset Nat) : Finset Nat :=
  match e with
  | .addTask tcb _ _ taskPriority =>
    if tcb ≠ NULL ∧ taskPriority ≠ 0 ∧ (s.schedulerHeap.addNode tcb taskPriority).2 = 1 then
      insert tcb accepted
    else accepted.erase tcb
  | _ => accepted

end Sched

/-- The runs of a scheduler with heaps of size `N` and tables that are never full,
with the tasks that were accepted. -/
def acceptingMachine (N : Nat) (tasks : Finset Nat) :
    Lib.Machine (Sched × Finset Nat) SchedulerEvent :=
  (Lib.Machine.withHistory ⟨Sched.Booted N tasks, Sched.uncheckedStep tasks⟩ Sched.accepts).guard
    fun p e => p.1.HasRoom e

/-- The runs in which every task that comes back to a heap finds a place. -/
def roomyMachine (N : Nat) (tasks : Finset Nat) :
    Lib.Machine (Sched × Finset Nat) SchedulerEvent :=
  (acceptingMachine N tasks).guard fun p e => p.1.uncheckedFits tasks e = true

namespace Sched

/-- The scheduler will find the task again. -/
def Kept (s : Sched) (task : Nat) : Prop :=
  task ∈ s.schedulerHeap.contents ∨
    (task ∈ s.waiting.map Prod.snd ∧ (s.tcb task).state.wait = true) ∨
    (task ∈ s.sleepHeap.contents ∧ (s.tcb task).state.sleep = true)

instance (s : Sched) (task : Nat) : Decidable (s.Kept task) := by
  unfold Kept
  infer_instance

variable {N : Nat} {tasks accepted : Finset Nat} {fresh : Prop} {life life' : Nat → Lifecycle}
  {s s' : Sched} {e : SchedulerEvent} {task : Nat}

theorem uncheckedStep_cases (h : s.uncheckedStep tasks e = some s') :
    ∃ s₀, s.uncheckedCall tasks e = some s₀ ∧
      ((e.switch = none ∧ s' = s₀) ∨
        ∃ switch, e.switch = some switch ∧
          s₀.pendSV switch.memclusterInUse switch.rand switch.fuel = some s') :=
  switch_cases h

theorem Books.uncheckedStep (h : Books N tasks fresh life s) (hr : Running tasks life s)
    (hroom : s.HasRoom e) (hfresh : fresh → s.Fresh tasks e)
    (hfits : s.uncheckedFits tasks e = true) (hs : s.uncheckedStep tasks e = some s') :
    ∃ life', Books N tasks fresh life' s' ∧ Running tasks life' s' ∧
      ∀ t, life' t = .rejected → life t = .rejected ∨
        ∃ memory stack taskPriority, e = .addTask t memory stack taskPriority ∧
          ¬ s.schedulerHeap.currentNumNodes < N := by
  simp only [uncheckedFits, Bool.and_eq_true] at hfits
  obtain ⟨s₀, hcall, hrest⟩ := uncheckedStep_cases hs
  obtain ⟨life₀, hcalled⟩ := h.uncheckedCall hr hroom hfresh (.inr hfits.1) hcall
  refine hcalled.switched hrest (.inr ?_)
  intro switch hswitch
  rw [hcall, hswitch] at hfits
  exact hfits.2

/-- A task that is added is not scheduled yet. -/
theorem not_scheduled_of_addTask {memory : TCB} {stack taskPriority : Nat}
    (hs : s.uncheckedStep tasks (.addTask task memory stack taskPriority) = some s') :
    task ∉ s.scheduled := by
  obtain ⟨s₀, hcall, -⟩ := uncheckedStep_cases hs
  simp only [uncheckedCall] at hcall
  split at hcall
  · rename_i hadd
    exact hadd.2
  · cases hcall

/-- A task that has just been accepted is not rejected. -/
theorem Books.accepts_ne_rejected (h : Books N tasks fresh life s)
    (hs : s.uncheckedStep tasks e = some s')
    (hrejected : life' task = .rejected → life task = .rejected ∨
      ∃ memory stack taskPriority, e = .addTask task memory stack taskPriority ∧
        ¬ s.schedulerHeap.currentNumNodes < N)
    (haccepted : task ∈ accepted → life task ≠ .rejected) (hmem : task ∈ s.accepts e accepted) :
    life' task ≠ .rejected := by
  intro hlife'
  rcases hrejected hlife' with hlife | ⟨memory, stack, taskPriority, rfl, hfull⟩
  · have hold : task ∉ accepted := fun hmem' => haccepted hmem' hlife
    cases e with
    | addTask tcb memory stack taskPriority =>
      simp only [accepts] at hmem
      split at hmem
      · -- it is scheduled, so it is not the one that is added
        have hscheduled := h.mem_of_ne_absent (t := task) (by rw [hlife]; simp)
        rcases Finset.mem_insert.mp hmem with rfl | hmem'
        · exact not_scheduled_of_addTask hs hscheduled
        · exact hold hmem'
      · exact hold (Finset.mem_of_mem_erase hmem)
    | _ => exact hold hmem
  · have hle := h.onHeap.heap.distinct.wf.num_le
    have hsize := h.onHeap.size
    have hnum : s.schedulerHeap.currentNumNodes = s.schedulerHeap.maxNumberOfNodes := by omega
    have hstatus := congrArg Prod.snd (MinHeap.addNode_of_full h.onHeap.heap.distinct.wf
      hnum task taskPriority)
    simp only [accepts, hstatus] at hmem
    simp at hmem

/-- The books know where an accepted task is. -/
theorem Books.kept (h : Books N tasks fresh life s) (htask : task ∈ s.scheduled)
    (haccepted : life task ≠ .rejected) :
    s.Kept task ∧ ((s.tcb task).state.wait = false → (s.tcb task).state.sleep = false →
      task ∈ s.schedulerHeap.contents) := by
  have hshows := h.shows task htask
  have honHeap : (life task).onHeap = true → task ∈ s.schedulerHeap.contents :=
    (h.onHeap.mem task).mpr
  cases hl : life task with
  | absent => exact absurd hl (h.ne_absent htask)
  | rejected => exact absurd hl haccepted
  | active | ended =>
    have hmem := honHeap (by rw [hl]; rfl)
    exact ⟨.inl hmem, fun _ _ => hmem⟩
  -- a task that waits is in a table, also while it is still on the heap
  | waiting onHeap =>
    rw [hl] at hshows
    obtain ⟨reason, hmem⟩ := (h.waiters.mem task).mpr (by rw [hl]; rfl)
    refine ⟨.inr (.inl ⟨Multiset.mem_map.mpr ⟨_, hmem, rfl⟩, hshows.wait⟩), ?_⟩
    intro hwait
    rw [hshows.wait] at hwait
    cases hwait
  | sleeping onHeap =>
    rw [hl] at hshows
    constructor
    · cases onHeap
      · exact .inr (.inr ⟨(h.onSleepHeap.mem task).mpr (by rw [hl]; rfl), hshows.sleep⟩)
      · exact .inl (honHeap (by rw [hl]; rfl))
    · intro _ hsleep
      rw [hshows.sleep] at hsleep
      cases hsleep

/-- The books are kept, and no accepted task has been rejected in them. -/
def Accounted (N : Nat) (tasks : Finset Nat) (p : Sched × Finset Nat) : Prop :=
  ∃ life, Books N tasks False life p.1 ∧ Running tasks life p.1 ∧
    ∀ task ∈ p.2, life task ≠ .rejected

theorem Accounted.step {p p' : Sched × Finset Nat} (h : Accounted N tasks p)
    (hs : (roomyMachine N tasks).step p e = some p') : Accounted N tasks p' := by
  obtain ⟨life, hbooks, hrun, haccepted⟩ := h
  obtain ⟨hfits, hs⟩ := Lib.Machine.guard_step_iff.mp hs
  obtain ⟨hroom, hs⟩ := Lib.Machine.guard_step_iff.mp hs
  obtain ⟨hs, haccepts⟩ := Lib.Machine.withHistory_step_iff.mp hs
  obtain ⟨life', hbooks', hrun', hrejected⟩ :=
    hbooks.uncheckedStep hrun hroom False.elim hfits hs
  refine ⟨life', hbooks', hrun', ?_⟩
  intro task hmem
  rw [haccepts] at hmem
  exact hbooks.accepts_ne_rejected hs (hrejected task) (haccepted task) hmem

theorem Accounted.booted (hN : 0 < N) (hmax : N ≤ UINT32_MAX) {p : Sched × Finset Nat}
    (h : Booted N tasks p.1) : Accounted N tasks p := by
  refine ⟨_, Books.booted hN hmax h False, ?_, fun _ _ => by simp⟩
  intro hmem
  obtain ⟨_, _, currentTCB, _, _, _, _, _, hcurrent, -, heq⟩ := h
  rw [heq] at hmem
  exact absurd hmem hcurrent

/-- **No task is lost** in a run in which the tasks that come back to a heap find a
place: an accepted task that has not ended is on the scheduler heap, or waits, or is
on the sleep heap, and one that neither waits nor sleeps is on the scheduler heap. -/
theorem no_task_lost (hN : 0 < N) (hmax : N ≤ UINT32_MAX) {p : Sched × Finset Nat}
    (h : (roomyMachine N tasks).Reach p) :
    ∀ task ∈ p.2, task ∈ p.1.scheduled → (p.1.tcb task).state.exit = false →
      p.1.Kept task ∧ ((p.1.tcb task).state.wait = false → (p.1.tcb task).state.sleep = false →
        task ∈ p.1.schedulerHeap.contents) := by
  obtain ⟨life, hbooks, -, haccepted⟩ :=
    h.invariant (fun _ => Accounted.booted hN hmax) fun _ _ _ => Accounted.step
  exact fun task hmem htask _ => hbooks.kept htask (haccepted task hmem)

/-- A scheduler with one node, on memory full of zeros. -/
def sampleNode : Sched :=
  initializeScheduler 1 (sampleSched 1).tcb (sampleSched 1).mutexes 1 1 0
    (fun _ _ => ⟨none, 0, 0⟩) (fun _ => 0) (fun _ _ => ⟨0, 0⟩)

/-- Task 100 waits for 7, and leaves the heap; then 200 is added. -/
def waitsMeanwhile : List SchedulerEvent :=
  [.addTask 100 (sampleNode.tcb 0) 0 1, .schedule toRoot, .wait 1 7 0 0 toRoot,
    .addTask 200 (sampleNode.tcb 0) 0 1, .schedule toRoot]

theorem sampleNode_booted {tasks : Finset Nat} (h : 1 ∉ tasks) : Booted 1 tasks sampleNode :=
  ⟨_, _, 1, 1, _, _, _, _, h, h, rfl⟩

/-- Task 200 ends before it notifies 7, and 100 finds its node free. -/
theorem no_task_lost_waitsMeanwhile :
    ∃ p, (roomyMachine 1 {100, 200}).run (sampleNode, ∅)
        (waitsMeanwhile ++ [.exit toRoot, .notify 1 7]) = some p ∧
      100 ∈ p.2 ∧ p.1.Kept 100 ∧ 100 ∈ p.1.schedulerHeap.contents := by
  obtain ⟨p, hrun, hmem, htask, hexit, hwait, hsleep⟩ := Lib.Machine.exists_run
    (P := fun p => 100 ∈ p.2 ∧ 100 ∈ p.1.scheduled ∧ (p.1.tcb 100).state.exit = false ∧
      (p.1.tcb 100).state.wait = false ∧ (p.1.tcb 100).state.sleep = false)
    (M := roomyMachine 1 {100, 200}) (s := (sampleNode, ∅))
    (e := waitsMeanwhile ++ [.exit toRoot, .notify 1 7]) (by decide +kernel)
  have hreach : (roomyMachine 1 {100, 200}).Reach p :=
    (Lib.Machine.Reach.init (sampleNode_booted (by decide))).run hrun
  obtain ⟨hkept, hready⟩ := no_task_lost (by decide) (by decide) hreach 100 hmem htask hexit
  exact ⟨p, hrun, hmem, hkept, hready hwait hsleep⟩

/-- Task 200 notifies 7 while it is on the only node: 100 is active, and on no heap. -/
theorem task_lost :
    ¬ ∀ (N : Nat) (tasks : Finset Nat) (p : Sched × Finset Nat), 0 < N → N ≤ UINT32_MAX →
      (acceptingMachine N tasks).Reach p →
        ∀ task ∈ p.2, task ∈ p.1.scheduled → (p.1.tcb task).state.exit = false →
          p.1.Kept task := by
  intro h
  obtain ⟨p, hrun, hmem, htask, hexit, hlost⟩ := Lib.Machine.exists_run
    (P := fun p => 100 ∈ p.2 ∧ 100 ∈ p.1.scheduled ∧ (p.1.tcb 100).state.exit = false ∧
      ¬ p.1.Kept 100)
    (M := acceptingMachine 1 {100, 200}) (s := (sampleNode, ∅))
    (e := waitsMeanwhile ++ [.notify 1 7]) (by decide +kernel)
  have hreach : (acceptingMachine 1 {100, 200}).Reach p :=
    (Lib.Machine.Reach.init (sampleNode_booted (by decide))).run hrun
  exact hlost (h 1 {100, 200} p (by decide) (by decide) hreach 100 hmem htask hexit)

end Sched

end DocetOS
