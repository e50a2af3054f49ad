import DocetOS.OS.Bookkeeping
import DocetOS.OS.ProcessorRuns

/-!
# The handlers keep the books

The callbacks of the scheduler are reached through SVC, SysTick and PendSV. Between
two handlers the books of the scheduler are right (`OSState.Kept`): a task that may not
go on has set PendSV, and PendSV chooses one that may.

- `Kept.svc`: a system call, as long as only tasks wait, sleep or exit, and a task that
  is added is not in use.
- `Kept.pendSV`: the switch to the next task.
-/

namespace DocetOS

namespace Sched

/-- The TCB is not in use. -/
def Unused (s : Sched) (tasks : Finset Nat) (tcb : Nat) : Prop :=
  tcb ∈ tasks ∧ tcb ∉ s.scheduled ∧ tcb ∉ s.completedTasks tasks

instance (s : Sched) (tasks : Finset Nat) (tcb : Nat) : Decidable (s.Unused tasks tcb) :=
  inferInstanceAs (Decidable (_ ∧ _ ∧ _))

variable {N : Nat} {tasks : Finset Nat} {fresh : Prop} {life : Nat → Lifecycle} {s s' : Sched}
  {tcb next : Nat}

theorem Books.absent_of_unused (h : Books N tasks fresh life s) (hunused : s.Unused tasks tcb) :
    life tcb = .absent := by
  by_contra hne
  exact hunused.2.1 (h.mem_of_ne_absent hne)

theorem Books.scheduled_of_held (h : Books N tasks fresh life s) (hheld : Held tasks life s)
    (hcurrent : s.currentTCB ∈ tasks) : s.currentTCB ∈ s.scheduled :=
  h.mem_of_ne_absent (hheld hcurrent).1

/-- `addTask` of a TCB that has been initialised. -/
theorem Books.addUnused (h : Books N tasks fresh life s) (hr : Running tasks life s)
    (htables : tasks.card ≤ WAIT_HASHTABLE_CAPACITY) (hunused : s.Unused tasks tcb)
    (taskPriority : Nat) :
    ∃ life', Books N tasks fresh life' (s.addTask tcb taskPriority) ∧
      Running tasks life' (s.addTask tcb taskPriority) := by
  have habsent := h.absent_of_unused hunused
  rcases addTask_cases s tcb taskPriority with heq | ⟨hnull, hstate, heq⟩ <;> rw [heq]
  · exact ⟨life, h, hr⟩
  have hroom : s.HasRoom (.addTask tcb (s.tcb tcb) 0 1) :=
    h.hasRoom htables (if_pos ⟨hunused.1, hunused.2.1, Nat.one_pos⟩)
  obtain ⟨l, hentered, -⟩ :=
    h.enterTask hunused.1 hnull habsent hstate (fun _ => hunused.2.2) hroom taskPriority
  refine ⟨_, hentered, ?_⟩
  intro (hmem : s.currentTCB ∈ tasks)
  -- the current task is scheduled, the new one is not
  have hne : s.currentTCB ≠ tcb := by
    rintro rfl
    rw [hr hmem] at habsent
    cases habsent
  exact (Function.update_of_ne hne _ _).trans (hr hmem)

theorem resourceAcquired_rest (s : Sched) (mutex : Nat) :
    ∃ tcb mutexes, s.resourceAcquired mutex = { s with tcb, mutexes } := by
  simp only [resourceAcquired]
  split
  · exact ⟨_, _, rfl⟩
  · split <;> exact ⟨_, _, rfl⟩

/-- The task that the scheduler returns. -/
theorem Books.scheduler_next (h : Books N tasks fresh life s) (hnodes : tasks.card ≤ N)
    {memclusterInUse : Bool} {rand : Nat → Nat} {fuel : Nat}
    (hs : s.scheduler memclusterInUse rand fuel = some (s', next)) :
    next = s.currentTCB ∨ next ∈ s.scheduled ∨ next = s.idleTCB := by
  have hsame := SameTasks.scheduler hs
  simp only [scheduler] at hs
  split at hs
  · cases hs
    exact .inl rfl
  simp only [Option.bind_eq_bind, Option.bind_eq_some_iff] at hs
  obtain ⟨s₁, hbefore, hs⟩ := hs
  obtain ⟨life₁, life', s₂, next', -, -, hafter, hbooks', -, hnext⟩ :=
    (h.beforeWake hbefore).1.fromWakeEach (fun _ => memclusterInUse) rand (.inl hnodes)
  rw [← afterWake_eq, hs] at hafter
  cases hafter
  rcases hnext with hactive | ⟨rfl, -⟩
  · exact .inr (.inl (hsame.scheduled (hbooks'.mem_of_ne_absent (by rw [hactive]; simp))))
  · exact .inr (.inr hsame.idleTCB)

end Sched

namespace OSState

open Sched

/-- The books are right, and the current task may go on unless PendSV is about to switch
it. -/
structure Kept (N : Nat) (tasks : Finset Nat) (life : Nat → Lifecycle) (os : OSState) : Prop where
  books : Books N tasks True life os.sched
  held : Held tasks life os.sched
  running : os.pendSV = false → Running tasks life os.sched

namespace Kept

variable {N : Nat} {tasks : Finset Nat} {life life' : Nat → Lifecycle} {os os' : OSState}
  {e : SchedulerEvent} {fuel : Nat} {stack : SvcStackFrame}

theorem of_called (h : Called N tasks True life life' os.sched e os'.sched)
    (hpend : e.switch ≠ none → os'.pendSV = true) : Kept N tasks life' os' := by
  refine ⟨h.books, h.held, ?_⟩
  intro hno
  refine h.running ?_
  by_contra hswitch
  rw [hpend hswitch] at hno
  cases hno

/-- A callback of the current task. -/
theorem callback (h : Kept N tasks life os) (hnodes : tasks.card ≤ N) (hno : os.pendSV = false)
    (hroom : os.sched.HasRoom e) (hfresh : os.sched.Fresh tasks e)
    (hcall : os.sched.uncheckedCall tasks e = some os'.sched)
    (hpend : e.switch ≠ none → os'.pendSV = true) : ∃ life', Kept N tasks life' os' := by
  obtain ⟨life', hcalled⟩ :=
    h.books.uncheckedCall (h.running hno) hroom (fun _ => hfresh) (.inl hnodes) hcall
  exact ⟨life', of_called hcalled hpend⟩

/-- What the books do not record may change, and time may go on. -/
theorem frame (h : Kept N tasks life os)
    (hs : os'.sched = { os.sched with
      tcb := os'.sched.tcb
      mutexes := os'.sched.mutexes
      ticks := os'.sched.ticks })
    (hticks : os.sched.ticks ≤ os'.sched.ticks)
    (htcb : ∀ t, (os'.sched.tcb t).state = (os.sched.tcb t).state ∧
      (os'.sched.tcb t).data = (os.sched.tcb t).data)
    (hpend : os'.pendSV = false → os.pendSV = false) : Kept N tasks life os' := by
  have hcurrent : os'.sched.currentTCB = os.sched.currentTCB := by rw [hs]
  refine ⟨h.books.frame ?_ hticks fun t => ⟨⟨(os.sched.tcb t).state.yield, (htcb t).1⟩,
    (htcb t).2⟩, ?_, ?_⟩
  · rw [hs]
  · intro hmem
    rw [hcurrent] at hmem ⊢
    exact h.held hmem
  · intro hno hmem
    rw [hcurrent] at hmem ⊢
    exact h.running (hpend hno) hmem

/-! ## System calls -/

/-- **A system call keeps the books.** -/
theorem svc {handler : SvcHandler} (h : Kept N tasks life os) (hnodes : tasks.card ≤ N)
    (htables : tasks.card ≤ WAIT_HASHTABLE_CAPACITY) (hno : os.pendSV = false)
    (hadd : handler = .addTask → os.sched.Unused tasks stack.r0)
    (hblocks : handler ∈ [.wait, .sleep, .taskExit] → os.sched.currentTCB ∈ tasks)
    (hs : handler.call os fuel stack = some os') : ∃ life', Kept N tasks life' os' := by
  have hcurrent : handler ∈ [.wait, .sleep, .taskExit] →
      os.sched.currentTCB ∈ os.sched.scheduled :=
    fun hmem => h.books.scheduled_of_held h.held (hblocks hmem)
  cases handler with
  | enableSystick =>
    cases hs
    refine ⟨life, ?_⟩
    unfold svcEnableSystick
    split
    · exact { h with }
    · exact h
  | addTask =>
    cases hs
    obtain ⟨life', hbooks, hrun⟩ :=
      h.books.addUnused (h.running hno) htables (hadd rfl) stack.r1
    exact ⟨life', hbooks, hrun.held, fun _ => hrun⟩
  | taskExit =>
    cases hs
    exact h.callback (e := .exit Sched.toRoot) hnodes hno trivial trivial
      (if_pos (hcurrent (by simp))) fun _ => rfl
  | yield =>
    cases hs
    exact h.callback (e := .yield Sched.toRoot) hnodes hno trivial trivial rfl fun _ => rfl
  | schedule =>
    cases hs
    exact h.callback (e := .schedule Sched.toRoot) hnodes hno trivial trivial rfl fun _ => rfl
  | wait =>
    simp only [SvcHandler.call, svcWait, Option.bind_eq_bind, Option.bind_eq_some_iff,
      Option.pure_def, Option.some.injEq] at hs
    obtain ⟨sched, hwait, rfl⟩ := hs
    exact h.callback (e := .wait fuel stack.r0 stack.r1 stack.r2 Sched.toRoot) hnodes hno trivial
      trivial ((if_pos (hcurrent (by simp))).trans hwait) fun _ => rfl
  | notify =>
    simp only [SvcHandler.call, svcNotify, Option.bind_eq_bind, Option.bind_eq_some_iff,
      Option.pure_def, Option.some.injEq] at hs
    obtain ⟨sched, hnotify, rfl⟩ := hs
    exact h.callback (e := .notify fuel stack.r0) hnodes hno trivial trivial hnotify
      fun hswitch => absurd rfl hswitch
  | sleep =>
    cases hs
    exact h.callback (e := .sleep stack.r0 Sched.toRoot) hnodes hno trivial trivial
      (if_pos (hcurrent (by simp))) fun _ => rfl
  | channelManagerConnect | channelManagerDisconnect | channelManagerCheckAlive =>
    cases hs
    -- the channel manager has tables of its own
    exact ⟨life, { h with }⟩
  | resourceAcquired =>
    cases hs
    -- inheritance leaves the state and the data of every TCB
    obtain ⟨tcb, mutexes, hrest⟩ := os.sched.resourceAcquired_rest stack.r0
    have htcb := (os.sched.resourceAcquired_inherits stack.r0).tcb
    simp only [svcResourceAcquired]
    rw [hrest] at htcb ⊢
    refine ⟨life, h.frame rfl (Nat.le_refl _) ?_ fun hpend => hpend⟩
    intro t
    obtain ⟨_, _, _, htcb⟩ := htcb t
    have hstate := congrArg TCB.state htcb
    have hdata := congrArg TCB.data htcb
    exact ⟨hstate, hdata⟩

/-! ## The other events -/

theorem sysTick (h : Kept N tasks life os) (hticks : os.sched.ticks < UINT32_MAX) :
    Kept N tasks life os.sysTickHandler := by
  refine h.frame rfl ?_ (fun _ => ⟨rfl, rfl⟩) fun hpend => by cases hpend
  have hmax : os.sched.ticks < 4294967295 := hticks
  show os.sched.ticks ≤ (os.sched.ticks + 1) % 4294967296
  omega

/-- **The switch to the next task keeps the books.** -/
theorem pendSV {switch : TaskSwitch} {nextTCB : Nat} (h : Kept N tasks life os)
    (hnodes : tasks.card ≤ N) (hs : os.schedulerFromPendSV switch = some (os', nextTCB)) :
    ∃ life', Kept N tasks life' (os'.switchTo nextTCB) := by
  obtain ⟨sched, hscheduler, rfl⟩ := schedulerFromPendSV_cases hs
  have hpend : os.sched.pendSV switch.memclusterInUse switch.rand switch.fuel =
      some { sched with currentTCB := nextTCB } := by
    simp only [Sched.pendSV, hscheduler, Option.bind_eq_bind, Option.bind_some, Option.pure_def]
  obtain ⟨life', hbooks, hrun, -⟩ := h.books.pendSV h.held (.inl hnodes) hpend
  exact ⟨life', hbooks, hrun.held, fun _ => hrun⟩

/-- A task, or `main`, initialises a TCB that is not in use. -/
theorem initialiseTCB {tcb : Nat} (h : Kept N tasks life os) (hunused : os.sched.Unused tasks tcb)
    (f : TCB → TCB) : Kept N tasks life { os with sched := os.sched.modifyTCB tcb f } :=
  ⟨h.books.writeAbsent (h.books.absent_of_unused hunused) (fun _ => hunused.2.2) f, h.held,
    h.running⟩

theorem writeMutexes (h : Kept N tasks life os) (acquired : Nat → Nat) (mutexes : Nat → Mutex) :
    Kept N tasks life (os.writeMutexes acquired mutexes) :=
  h.frame rfl (Nat.le_refl _) (fun _ => ⟨rfl, rfl⟩) id

/-- The start of the idle task. -/
theorem start (h : Kept N tasks life os) :
    Kept N tasks life (os.switchTo os.sched.idleTCB) := by
  have hidle : Running tasks life (os.switchTo os.sched.idleTCB).sched :=
    fun hmem => absurd hmem h.books.idle
  exact ⟨h.books.frame rfl (Nat.le_refl _) fun _ => ⟨⟨_, rfl⟩, rfl⟩, hidle.held, fun _ => hidle⟩

theorem of_booted {N : Nat} (hN : 0 < N) (hmax : N ≤ UINT32_MAX) (hs : Booted N tasks os.sched) :
    Kept N tasks (fun _ => .absent) os := by
  have hrun : Running tasks (fun _ => .absent) os.sched := by
    obtain ⟨_, _, currentTCB, _, _, _, _, _, hcurrent, -, heq⟩ := hs
    intro hmem
    rw [heq] at hmem
    exact absurd hmem hcurrent
  exact ⟨.booted hN hmax hs True, hrun.held, fun _ => hrun⟩

end Kept

end OSState

end DocetOS
