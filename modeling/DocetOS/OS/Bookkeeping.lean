import DocetOS.OS.TaskSelection

/-!
# Runs of the scheduler keep its books

`Books` and what is known of the current task are an invariant of every run in
which the tasks that come back to a heap find a free node. With no more tasks than
nodes they always do:

- `bookkeeping`: in every reachable state the tables, the heaps and the bits of
  each task agree (`Entries`);
- `scheduler_selects`: the scheduler ends and returns a task that can run, and the
  idle task only if there is none.
-/

namespace DocetOS

open Hashtable

namespace Sched

/-! ## What the events need -/

/-- A task that is added finds room in the tables. -/
def HasRoom (s : Sched) : SchedulerEvent → Prop
  | .addTask .. => s.scheduled.length < WAIT_HASHTABLE_CAPACITY
  | _ => True

/-- The TCB of a task that is added has been freed, if it was in use before. -/
def Fresh (tasks : Finset Nat) (s : Sched) : SchedulerEvent → Prop
  | .addTask tcb .. => tcb ∉ s.completedTasks tasks
  | _ => True

/-- As `call`, but a mutex may have any owner or none when a task waits for it, and a
task may be added with any priority. -/
def uncheckedCall (tasks : Finset Nat) (s : Sched) : SchedulerEvent → Option Sched
  | .addTask tcb memory stack taskPriority =>
    if tcb ∈ tasks ∧ tcb ∉ s.scheduled then
      some ((s.modifyTCB tcb fun _ => initialiseTCB memory stack).addTask tcb taskPriority)
    else none
  | .wait fuel reason checkCode isReasonMutex _ =>
    if s.currentTCB ∈ s.scheduled then s.waitCallback fuel reason checkCode isReasonMutex
    else none
  | e => s.call tasks e

/-- The tasks that come back to a heap in the call find a place. -/
def callFits (s : Sched) : SchedulerEvent → Bool
  | .notify fuel reason => s.nextCheckCode.notifyFits fuel reason
  | .wait fuel reason checkCode isReasonMutex _ => s.waitFits fuel reason checkCode isReasonMutex
  | _ => true

/-- The tasks that come back to a heap in the event find a place. -/
def stepFits (tasks : Finset Nat) (s : Sched) (e : SchedulerEvent) : Bool :=
  s.callFits e &&
    match s.call tasks e, e.switch with
    | some s, some switch => s.pendSVFits switch.memclusterInUse switch.rand switch.fuel
    | _, _ => true

instance (s : Sched) (e : SchedulerEvent) : Decidable (s.HasRoom e) := by
  cases e <;> simp only [HasRoom] <;> infer_instance

instance (tasks : Finset Nat) (s : Sched) (e : SchedulerEvent) : Decidable (s.Fresh tasks e) := by
  cases e <;> simp only [Fresh] <;> infer_instance

/-! ## The current task -/

/-- A task that is current has been accepted and has not been removed. -/
def Held (tasks : Finset Nat) (life : Nat → Lifecycle) (s : Sched) : Prop :=
  s.currentTCB ∈ tasks → life s.currentTCB ≠ .absent ∧ life s.currentTCB ≠ .rejected

/-- Between the events a task that is current is active. -/
def Running (tasks : Finset Nat) (life : Nat → Lifecycle) (s : Sched) : Prop :=
  s.currentTCB ∈ tasks → life s.currentTCB = .active

variable {N : Nat} {tasks : Finset Nat} {fresh : Prop} {life life' life₀ : Nat → Lifecycle}
  {s s' s₀ : Sched} {e : SchedulerEvent}

theorem Running.held (h : Running tasks life s) : Held tasks life s := by
  intro hcurrent
  rw [h hcurrent]
  exact ⟨by simp, by simp⟩

theorem Running.onward (h : Running tasks life s) (ho : Onward life life' s s') :
    Running tasks life' s' := by
  intro hcurrent
  rw [ho.currentTCB] at hcurrent ⊢
  exact ho.active _ (h hcurrent)

theorem Running.of_scheduled (h : Running tasks life s) (hb : Books N tasks fresh life s)
    (hcurrent : s.currentTCB ∈ s.scheduled) : life s.currentTCB = .active :=
  h (hb.known _ hcurrent).1

/-! ## The calls -/

/-- What holds when a call returns, before the scheduler runs. -/
structure Called (N : Nat) (tasks : Finset Nat) (fresh : Prop) (life life' : Nat → Lifecycle)
    (s : Sched) (e : SchedulerEvent) (s' : Sched) : Prop where
  books : Books N tasks fresh life' s'
  held : Held tasks life' s'
  running : e.switch = none → Running tasks life' s'
  idleTCB : s'.idleTCB = s.idleTCB
  rejected : ∀ t, life' t = .rejected → life t = .rejected ∨
    ∃ memory stack taskPriority, e = .addTask t memory stack taskPriority ∧
      ¬ s.schedulerHeap.currentNumNodes < N

/-- The current task may go on, or has moved on. -/
theorem Called.current (hb : Books N tasks fresh life' s') (hr : Running tasks life s)
    (hblocks : e.switch ≠ none) (hcurrent : s'.currentTCB = s.currentTCB)
    (hidle : s'.idleTCB = s.idleTCB)
    (hlife : life' = life ∨
      ∃ l, (l ≠ .absent ∧ l ≠ .rejected) ∧ life' = Function.update life s.currentTCB l) :
    Called N tasks fresh life life' s e s' := by
  refine ⟨hb, ?_, fun hnone => absurd hnone hblocks, hidle, fun t ht => .inl ?_⟩
  · intro hmem
    rw [hcurrent] at hmem ⊢
    rcases hlife with rfl | ⟨l, hl, rfl⟩
    · rw [hr hmem]
      exact ⟨by simp, by simp⟩
    · rw [Function.update_self]
      exact hl
  · rcases hlife with rfl | ⟨l, hl, rfl⟩
    · exact ht
    · exact Lifecycle.rejected_of_update hl.2 ht

/-- A call that does not block leaves the current task running. -/
theorem Called.goesOn (hb : Books N tasks fresh life' s') (hr : Running tasks life s)
    (ho : Onward life life' s s') : Called N tasks fresh life life' s e s' :=
  ⟨hb, (hr.onward ho).held, fun _ => hr.onward ho, ho.idleTCB,
    fun t ht => .inl (ho.rejected t ht)⟩

/-- Waking all tasks that wait for a reason, and giving it back. -/
theorem Books.notifyCallback (h : Books N tasks fresh life s) {fuel reason : Nat}
    (hfits : tasks.card ≤ N ∨ s.notifyFits fuel reason = true)
    (hs : s.notifyCallback fuel reason = some s') :
    ∃ life', Books N tasks fresh life' s' ∧ Onward life life' s s' := by
  simp only [notifyFits, Bool.and_eq_true] at hfits
  obtain ⟨life', hbooks, honward, -⟩ := h.wakeAll (hfits.imp id And.left)
  have hi := notifyCallback_inherits hs
  have hm := dropAcquired_moves hs
  have hidle : s'.idleTCB = (s.wakeAll reason).idleTCB := by rw [hi.rest]
  exact ⟨life', Books.inherits hbooks hi hm (hbooks.finds (hfits.imp id And.right)),
    hi.currentTCB.trans honward.currentTCB, hidle.trans honward.idleTCB, honward.active,
    honward.rejected⟩

/-- A new task. -/
theorem Books.calledAddTask (h : Books N tasks fresh life s) (hr : Running tasks life s)
    {tcb : Nat} (htask : tcb ∈ tasks) (hnot : tcb ∉ s.scheduled)
    (hfresh : fresh → tcb ∉ s.completedTasks tasks)
    (hroom : s.scheduled.length < WAIT_HASHTABLE_CAPACITY) (memory : TCB)
    (stack taskPriority : Nat) :
    ∃ life', Called N tasks fresh life life' s (.addTask tcb memory stack taskPriority)
      ((s.modifyTCB tcb fun _ => initialiseTCB memory stack).addTask tcb taskPriority) := by
  obtain ⟨life', hbooks, hother, hrejected⟩ :=
    h.addTask htask hnot hfresh hroom memory stack taskPriority
  obtain ⟨hcurrent, hidle⟩ : ((s.modifyTCB tcb fun _ => initialiseTCB memory stack).addTask tcb
      taskPriority).currentTCB = s.currentTCB ∧
      ((s.modifyTCB tcb fun _ => initialiseTCB memory stack).addTask tcb
        taskPriority).idleTCB = s.idleTCB := by
    rcases addTask_cases (s.modifyTCB tcb fun _ => initialiseTCB memory stack) tcb
        taskPriority with heq | ⟨-, -, heq⟩ <;> rw [heq] <;> exact ⟨rfl, rfl⟩
  have hrun : Running tasks life' ((s.modifyTCB tcb fun _ =>
      initialiseTCB memory stack).addTask tcb taskPriority) := by
    intro hmem
    rw [hcurrent] at hmem ⊢
    -- the current task is scheduled, the new one is not
    have hne : s.currentTCB ≠ tcb := by
      intro heq
      refine hnot (heq ▸ h.mem_of_ne_absent (t := s.currentTCB) ?_)
      rw [hr hmem]
      simp
    rw [hother _ hne]
    exact hr hmem
  refine ⟨life', hbooks, hrun.held, fun _ => hrun, hidle, ?_⟩
  intro t ht
  by_cases heq : t = tcb
  · subst heq
    exact .inr ⟨_, _, _, rfl, hrejected ht⟩
  · rw [hother t heq] at ht
    exact .inl ht

theorem uncheckedCall_of_call (h : s.call tasks e = some s') :
    s.uncheckedCall tasks e = some s' := by
  cases e <;> first | exact h | skip
  case addTask tcb memory stack taskPriority =>
    simp only [Sched.call] at h
    split at h
    · rename_i hadd
      simp only [uncheckedCall, if_pos (And.intro hadd.1 hadd.2.1)]
      exact h
    · cases h
  case wait fuel reason checkCode isReasonMutex switch =>
    simp only [Sched.call] at h
    split at h
    · rename_i hwait
      simp only [uncheckedCall, if_pos hwait.1]
      exact h
    · cases h

/-- The part of an event before the call of the scheduler. -/
theorem Books.uncheckedCall (h : Books N tasks fresh life s) (hr : Running tasks life s)
    (hroom : s.HasRoom e) (hfresh : fresh → s.Fresh tasks e)
    (hfits : tasks.card ≤ N ∨ s.callFits e = true) (hs : s.uncheckedCall tasks e = some s') :
    ∃ life', Called N tasks fresh life life' s e s' := by
  cases e <;> simp only [Sched.uncheckedCall, Sched.call] at hs
  case tick ticks =>
    split at hs
    · rename_i htick
      cases hs
      exact ⟨life, .goesOn (h.frame rfl htick.1 fun t => ⟨⟨_, rfl⟩, rfl⟩) hr
        ⟨rfl, rfl, fun _ ht => ht, fun _ ht => ht⟩⟩
    · cases hs
  case memory acquired mutexes =>
    cases hs
    exact ⟨life, .goesOn (h.frame rfl (Nat.le_refl _) fun t => ⟨⟨_, rfl⟩, rfl⟩) hr
      ⟨rfl, rfl, fun _ ht => ht, fun _ ht => ht⟩⟩
  case addTask tcb memory stack taskPriority =>
    split at hs
    · rename_i hadd
      cases hs
      exact h.calledAddTask hr hadd.1 hadd.2 hfresh hroom memory stack taskPriority
    · cases hs
  case notify fuel reason =>
    have hcode : Books N tasks fresh life s.nextCheckCode :=
      h.frame rfl (Nat.le_refl _) fun t => ⟨⟨_, rfl⟩, rfl⟩
    obtain ⟨life', hbooks, honward⟩ := Books.notifyCallback hcode hfits hs
    exact ⟨life', .goesOn hbooks hr
      ⟨honward.currentTCB, honward.idleTCB, honward.active, honward.rejected⟩⟩
  case wait fuel reason checkCode isReasonMutex switch =>
    split at hs
    · rename_i hwait
      have hlife := hr.of_scheduled h hwait
      -- a stale check code changes nothing; else the task is parked, and the owner may inherit
      rcases waitCallback_moves hs with rfl | ⟨hcode, rfl | ⟨hmutex, hi, hm⟩⟩
      · exact ⟨life, .current h hr (by simp [SchedulerEvent.switch]) rfl rfl (.inl rfl)⟩
      · exact ⟨_, .current (h.park hlife reason) hr (by simp [SchedulerEvent.switch]) rfl rfl
          (.inr ⟨_, ⟨by simp, by simp⟩, rfl⟩)⟩
      · have hparked := h.park hlife reason
        have hfits' : tasks.card ≤ N ∨ (s.park reason).inheritanceFits
            ((s.park reason).inheritanceMoves fuel (s.mutexes reason).tcbPointer)
            (s.mutexes reason).tcbPointer = true := by
          refine hfits.imp id ?_
          intro hfits
          simpa only [callFits, waitFits, hcode, hmutex, ne_eq, not_false_eq_true, and_self,
            if_true] using hfits
        have hfinds := hparked.finds hfits'
        have hidle : s'.idleTCB = s.idleTCB := by
          rw [hi.rest]
          rfl
        exact ⟨_, .current (Books.inherits hparked hi hm hfinds) hr
          (by simp [SchedulerEvent.switch]) hi.currentTCB hidle
          (.inr ⟨_, ⟨by simp, by simp⟩, rfl⟩)⟩
    · cases hs
  case sleep minSleepDuration switch =>
    split at hs
    · rename_i hcurrent
      have hlife := hr.of_scheduled h hcurrent
      cases hs
      -- a request for no time leaves the task active
      rcases h.sleepCallback hlife minSleepDuration with heq | heq <;> rw [heq]
      · exact ⟨life, .current h hr (by simp [SchedulerEvent.switch]) rfl rfl (.inl rfl)⟩
      · exact ⟨_, .current (h.fallAsleep hlife minSleepDuration) hr
          (by simp [SchedulerEvent.switch]) rfl rfl (.inr ⟨_, ⟨by simp, by simp⟩, rfl⟩)⟩
    · cases hs
  case exit switch =>
    split at hs
    · rename_i hcurrent
      have hlife := hr.of_scheduled h hcurrent
      cases hs
      exact ⟨_, .current (h.exit hlife) hr (by simp [SchedulerEvent.switch]) rfl rfl
        (.inr ⟨_, ⟨by simp, by simp⟩, rfl⟩)⟩
    · cases hs
  case yield switch =>
    cases hs
    refine ⟨life, .current (h.frame rfl (Nat.le_refl _) ?_) hr
      (by simp [SchedulerEvent.switch]) rfl rfl (.inl rfl)⟩
    intro t
    simp only [yieldCurrent, modifyTCB_tcb]
    split
    · exact ⟨⟨_, rfl⟩, rfl⟩
    · exact ⟨⟨_, rfl⟩, rfl⟩
  case schedule switch =>
    cases hs
    exact ⟨life, .current h hr (by simp [SchedulerEvent.switch]) rfl rfl (.inl rfl)⟩

theorem Books.call (h : Books N tasks fresh life s) (hr : Running tasks life s)
    (hroom : s.HasRoom e) (hfresh : fresh → s.Fresh tasks e)
    (hfits : tasks.card ≤ N ∨ s.callFits e = true) (hs : s.call tasks e = some s') :
    ∃ life', Called N tasks fresh life life' s e s' :=
  h.uncheckedCall hr hroom hfresh hfits (uncheckedCall_of_call hs)

/-! ## The scheduler -/

/-- A task that has been accepted and shows no bit is active. -/
theorem Books.active_of_bits (h : Books N tasks fresh life s) {t : Nat} (ht : t ∈ s.scheduled)
    (hrejected : life t ≠ .rejected) (hwait : (s.tcb t).state.wait = false)
    (hsleep : (s.tcb t).state.sleep = false) (hexit : (s.tcb t).state.exit = false) :
    life t = .active := by
  have hshows := h.shows t ht
  cases hl : life t with
  | absent => exact absurd hl (h.ne_absent ht)
  | rejected => exact absurd hl hrejected
  | active => rfl
  | ended =>
    rw [hshows.exit, hl] at hexit
    cases hexit
  | waiting b =>
    rw [hshows.wait, hl] at hwait
    cases hwait
  | sleeping b =>
    rw [hshows.sleep, hl] at hsleep
    cases hsleep

theorem Books.bits_of_active (h : Books N tasks fresh life s) {t : Nat} (hl : life t = .active) :
    (s.tcb t).state.wait = false ∧ (s.tcb t).state.sleep = false ∧
      (s.tcb t).state.exit = false := by
  have hshows := h.shows t (h.mem_of_ne_absent (by rw [hl]; simp))
  rw [hl] at hshows
  exact ⟨hshows.wait, hshows.sleep, hshows.exit⟩

theorem mustSwitch_eq_false (h : s.mustSwitch = false) :
    (s.tcb s.currentTCB).state.yield = false ∧ (s.tcb s.currentTCB).state.wait = false ∧
      (s.tcb s.currentTCB).state.sleep = false ∧ (s.tcb s.currentTCB).state.exit = false := by
  simp only [mustSwitch, Bool.or_eq_false_iff] at h
  exact ⟨h.1.2.1.1, h.1.2.1.2, h.1.2.2, h.1.1⟩

/-- The scheduler from its wake-up loop on. -/
theorem Books.fromWakeEach (h : Books N tasks fresh life s) (inUse : Nat → Bool)
    (rand : Nat → Nat)
    (hfits : tasks.card ≤ N ∨ (wakeLoopFits (s.sleepHeap.currentNumNodes + 1) s = true ∧
      ∀ r ∈ s.wakeSleepers.afterWakeRounds inUse rand, r.sched.moveFits r.index = true)) :
    ∃ life₁ life' s' next, Books N tasks fresh life₁ s.wakeSleepers ∧
      Onward life life₁ s s.wakeSleepers ∧
      s.wakeSleepers.afterWakeEach inUse rand = some (s', next) ∧
      Books N tasks fresh life' s' ∧ Onward life₁ life' s.wakeSleepers s' ∧
      (life' next = .active ∨ (next = s'.idleTCB ∧ s'.schedulerHeap.currentNumNodes = 0)) := by
  obtain ⟨life₁, hbooks₁, honward₁⟩ : ∃ life₁, Books N tasks fresh life₁ s.wakeSleepers ∧
      Onward life life₁ s s.wakeSleepers := h.wakeLoop (hfits.imp id And.left)
  obtain ⟨life', s', next, hafter, hbooks', honward', hnext⟩ :=
    hbooks₁.afterWakeEach inUse rand (hfits.imp id And.right)
  exact ⟨life₁, life', s', next, hbooks₁, honward₁, hafter, hbooks', honward', hnext⟩

/-- The scheduler, whatever the tests of the in-use flag find. -/
theorem Books.pendSVEach (h : Books N tasks fresh life s) (hheld : Held tasks life s)
    {memclusterInUse : Bool} {inUse : Nat → Bool} {rand : Nat → Nat} {fuel : Nat}
    (hfits : tasks.card ≤ N ∨ ∀ s₁, ¬ (s.currentTCB ≠ s.idleTCB ∧ s.mustSwitch = false) →
      s.beforeWake memclusterInUse fuel = some s₁ →
        wakeLoopFits (s₁.sleepHeap.currentNumNodes + 1) s₁ = true ∧
          ∀ r ∈ s₁.wakeSleepers.afterWakeRounds inUse rand, r.sched.moveFits r.index = true)
    (hs : s.pendSVEach memclusterInUse inUse rand fuel = some s') :
    ∃ life', Books N tasks fresh life' s' ∧ Running tasks life' s' ∧
      ∀ t, life' t = .rejected → life t = .rejected := by
  rcases pendSVEach_cases hs with
    ⟨⟨-, hmust⟩, rfl⟩ | ⟨hswitches, s₁, s₂, next, hbefore, hafter, rfl⟩
  · refine ⟨life, h.frame rfl (Nat.le_refl _) fun t => ⟨⟨_, rfl⟩, rfl⟩, ?_, fun _ ht => ht⟩
    intro hmem
    obtain ⟨-, hwait, hsleep, hexit⟩ := mustSwitch_eq_false hmust
    obtain ⟨hpresent, hrejected⟩ := hheld hmem
    exact h.active_of_bits (h.mem_of_ne_absent hpresent) hrejected hwait hsleep hexit
  · obtain ⟨hbooks, hcurrent, hidle⟩ := h.beforeWake hbefore
    obtain ⟨life₁, life', s', next', -, honward₁, hafter', hbooks', honward', hnext⟩ :=
      hbooks.fromWakeEach inUse rand (hfits.imp id fun hfits => hfits s₁ hswitches hbefore)
    rw [hafter'] at hafter
    cases hafter
    refine ⟨life', hbooks'.frame rfl (Nat.le_refl _) fun t => ⟨⟨_, rfl⟩, rfl⟩, ?_,
      fun t ht => honward₁.rejected t (honward'.rejected t ht)⟩
    intro hmem
    rcases hnext with hactive | ⟨rfl, -⟩
    · exact hactive
    · exact absurd hmem hbooks'.idle

theorem Books.pendSV (h : Books N tasks fresh life s) (hheld : Held tasks life s)
    {memclusterInUse : Bool} {rand : Nat → Nat} {fuel : Nat}
    (hfits : tasks.card ≤ N ∨ s.pendSVFits memclusterInUse rand fuel = true)
    (hs : s.pendSV memclusterInUse rand fuel = some s') :
    ∃ life', Books N tasks fresh life' s' ∧ Running tasks life' s' ∧
      ∀ t, life' t = .rejected → life t = .rejected := by
  rw [pendSV_eq] at hs
  refine h.pendSVEach hheld (hfits.imp id ?_) hs
  intro hfits s₁ hswitches hbefore
  simp only [pendSVFits, if_neg hswitches, hbefore, Bool.and_eq_true] at hfits
  refine ⟨hfits.1, ?_⟩
  unfold Sched.afterWakeRounds
  split
  · exact fun r hr => absurd hr List.not_mem_nil
  · rename_i hne
    have hselect := hfits.2
    rw [if_neg hne] at hselect
    exact (selectTaskFits_iff _ _ _ _ _ _ _).mp hselect

/-- The scheduler runs after a call that pends it. -/
theorem Called.switched (h : Called N tasks fresh life life₀ s e s₀)
    (hrest : (e.switch = none ∧ s' = s₀) ∨
      ∃ switch, e.switch = some switch ∧
        s₀.pendSV switch.memclusterInUse switch.rand switch.fuel = some s')
    (hfits : tasks.card ≤ N ∨ ∀ switch, e.switch = some switch →
      s₀.pendSVFits switch.memclusterInUse switch.rand switch.fuel = true) :
    ∃ life', Books N tasks fresh life' s' ∧ Running tasks life' s' ∧
      ∀ t, life' t = .rejected → life t = .rejected ∨
        ∃ memory stack taskPriority, e = .addTask t memory stack taskPriority ∧
          ¬ s.schedulerHeap.currentNumNodes < N := by
  rcases hrest with ⟨hnone, rfl⟩ | ⟨switch, hswitch, hpend⟩
  · exact ⟨life₀, h.books, h.running hnone, h.rejected⟩
  · obtain ⟨life', hbooks, hrun, hrejected⟩ :=
      h.books.pendSV h.held (hfits.imp id fun hfits => hfits switch hswitch) hpend
    exact ⟨life', hbooks, hrun, fun t ht => h.rejected t (hrejected t ht)⟩

/-- **One event keeps the books.** -/
theorem Books.step (h : Books N tasks fresh life s) (hr : Running tasks life s)
    (hroom : s.HasRoom e) (hfresh : fresh → s.Fresh tasks e)
    (hfits : tasks.card ≤ N ∨ s.stepFits tasks e = true) (hs : s.step tasks e = some s') :
    ∃ life', Books N tasks fresh life' s' ∧ Running tasks life' s' ∧
      ∀ t, life' t = .rejected → life t = .rejected ∨
        ∃ memory stack taskPriority, e = .addTask t memory stack taskPriority ∧
          ¬ s.schedulerHeap.currentNumNodes < N := by
  simp only [stepFits, Bool.and_eq_true] at hfits
  obtain ⟨s₀, hcall, hrest⟩ := step_cases hs
  obtain ⟨life₀, hcalled⟩ := h.call hr hroom hfresh (hfits.imp id And.left) hcall
  refine hcalled.switched hrest (hfits.imp id ?_)
  intro hfits switch hswitch
  rw [hcall, hswitch] at hfits
  exact hfits.2

/-- No more tasks than the tables can hold find room in them. -/
theorem Books.hasRoom (h : Books N tasks fresh life s)
    (htables : tasks.card ≤ WAIT_HASHTABLE_CAPACITY) (hcall : s.call tasks e = some s₀) :
    s.HasRoom e := by
  cases e <;> try trivial
  rename_i tcb memory stack taskPriority
  simp only [Sched.call] at hcall
  split at hcall
  · rename_i hadd
    have hsub : s.scheduled.toFinset ⊆ tasks.erase tcb := by
      intro t ht
      have ht' := List.mem_toFinset.mp ht
      exact Finset.mem_erase.mpr ⟨ne_of_mem_of_not_mem ht' hadd.2.1, (h.known t ht').1⟩
    have hcard := Finset.card_le_card hsub
    rw [List.toFinset_card_of_nodup h.nodup, Finset.card_erase_of_mem hadd.1] at hcard
    have hpos : 0 < tasks.card := Finset.card_pos.mpr ⟨tcb, hadd.1⟩
    show s.scheduled.length < WAIT_HASHTABLE_CAPACITY
    omega
  · cases hcall

/-! ## Runs with no more tasks than nodes -/

/-- The books are kept in every run of a machine whose steps are those of the
scheduler. -/
theorem books_of_reach {M : Lib.Machine Sched SchedulerEvent} (hN : 0 < N) (hmax : N ≤ UINT32_MAX)
    (hnodes : tasks.card ≤ N) (htables : tasks.card ≤ WAIT_HASHTABLE_CAPACITY)
    (hinit : ∀ s, M.init s → Booted N tasks s)
    (hstep : ∀ s e s', M.step s e = some s' →
      s.step tasks e = some s' ∧ (fresh → s.Fresh tasks e))
    (h : M.Reach s) : ∃ life, Books N tasks fresh life s ∧ Running tasks life s := by
  refine h.invariant (P := fun s => ∃ life, Books N tasks fresh life s ∧ Running tasks life s) ?_ ?_
  · intro s hs
    refine ⟨_, Books.booted hN hmax (hinit s hs) fresh, ?_⟩
    intro hmem
    obtain ⟨_, _, currentTCB, _, _, _, _, _, hcurrent, -, rfl⟩ := hinit s hs
    exact absurd hmem hcurrent
  · intro s e s' hs hstep'
    obtain ⟨life, hbooks, hrun⟩ := hs
    obtain ⟨hstep₁, hfresh⟩ := hstep s e s' hstep'
    obtain ⟨s₀, hcall, -⟩ := step_cases hstep₁
    obtain ⟨life', hbooks', hrun', -⟩ :=
      hbooks.step hrun (hbooks.hasRoom htables hcall) hfresh (.inl hnodes) hstep₁
    exact ⟨life', hbooks', hrun'⟩

/-- What the tables, the heaps and the bits say about one task. -/
structure Entries (s : Sched) (task : Nat) : Prop where
  one : (s.activeTasksHashTable.content.map Prod.fst).count task +
    (s.waiting.map Prod.snd).count task +
    (s.sleepingTasksHashTable.content.map Prod.fst).count task = 1
  active : (s.activeTasksHashTable.content.map Prod.fst).count task = 1 ↔
    (s.tcb task).state.wait = false ∧ (s.tcb task).state.sleep = false
  waiting : (s.waiting.map Prod.snd).count task = 1 ↔ (s.tcb task).state.wait = true
  sleeping : (s.sleepingTasksHashTable.content.map Prod.fst).count task = 1 ↔
    (s.tcb task).state.sleep = true
  inHeap : (s.tasksInSchedulerHeapHashTable.content.map Prod.fst).count task =
    s.schedulerHeap.contents.count task
  onHeapOnce : s.schedulerHeap.contents.count task ≤ 1
  ready : (s.tcb task).state.wait = false → (s.tcb task).state.sleep = false →
    s.schedulerHeap.contents.count task = 1
  onSleepHeap : s.sleepHeap.contents.count task =
    if (s.tcb task).state.sleep = true ∧ task ∉ s.schedulerHeap.contents then 1 else 0

/-- How often a heap with distinct contents holds a task. -/
theorem count_of_distinct {heap : MinHeap} {P : Nat → Bool} (h : heap.Distinct tasks)
    (hmem : ∀ t, t ∈ heap.contents ↔ P t = true) (t : Nat) :
    heap.contents.count t = if P t = true then 1 else 0 := by
  split
  · rename_i hP
    exact Multiset.count_eq_one_of_mem h.nodup ((hmem t).mpr hP)
  · rename_i hP
    exact Multiset.count_eq_zero.mpr fun ht => hP ((hmem t).mp ht)

theorem Waiters.count {P : Nat → Bool} (h : Waiters s fun t => P t = true) (t : Nat) :
    (s.waiting.map Prod.snd).count t = if P t = true then 1 else 0 := by
  split
  · rename_i hP
    obtain ⟨reason, hmem⟩ := (h.mem t).mpr hP
    exact Multiset.count_eq_one_of_mem h.parked.once (Multiset.mem_map.mpr ⟨_, hmem, rfl⟩)
  · rename_i hP
    refine Multiset.count_eq_zero.mpr ?_
    intro ht
    obtain ⟨⟨reason, t⟩, hmem, rfl⟩ := Multiset.mem_map.mp ht
    exact hP ((h.mem t).mp ⟨reason, hmem⟩)

/-- The books say so, task by task. -/
theorem Books.entries (h : Books N tasks fresh life s) {task : Nat} (htask : task ∈ s.scheduled)
    (haccepted : life task ≠ .rejected) : Entries s task := by
  have hshows := h.shows task htask
  have hactive := h.active.keys.count (k := task)
  have hwaiting := Waiters.count (P := fun t => (life t).isWaiting) h.waiters task
  have hsleeping := h.sleeping.keys.count (k := task)
  have hinHeap := h.onHeap.table.keys.count (k := task)
  have hon := count_of_distinct (P := fun t => (life t).onHeap) h.onHeap.heap.distinct
    h.onHeap.mem task
  have hasleep := count_of_distinct (P := fun t => (life t).onSleepHeap) h.onSleepHeap.heap
    h.onSleepHeap.mem task
  have hmem := h.onHeap.mem task
  constructor <;>
    simp only [hactive, hwaiting, hsleeping, hinHeap, hon, hasleep, hmem, hshows.wait,
      hshows.sleep]
  all_goals
    cases hl : life task with
    | absent => exact absurd hl (h.ne_absent htask)
    | rejected => exact absurd hl haccepted
    | active => decide
    | ended => decide
    | waiting b => cases b <;> decide
    | sleeping b => cases b <;> decide

/-- **The books are kept**: in every reachable state of a scheduler with no more
tasks than nodes and table entries, the tables, the heaps and the bits agree about
every task that was added and has not been removed. -/
theorem bookkeeping (hN : 0 < N) (hmax : N ≤ UINT32_MAX) (hnodes : tasks.card ≤ N)
    (htables : tasks.card ≤ WAIT_HASHTABLE_CAPACITY) (h : (schedulerMachine N tasks).Reach s) :
    ∀ task ∈ s.scheduled, Entries s task := by
  obtain ⟨life, hbooks, -⟩ : ∃ life, Books N tasks False life s ∧ Running tasks life s :=
    books_of_reach hN hmax hnodes htables (fun _ hs => hs) (fun _ _ _ hs => ⟨hs, False.elim⟩) h
  intro task htask
  refine hbooks.entries htask ?_
  intro hl
  exact absurd hnodes (Nat.not_le.mpr (hbooks.rejected task hl))

theorem bookkeeping_threeSleepers :
    ∃ s, (schedulerMachine 16 {100, 200, 300}).run (sampleSched 1) threeSleepers = some s ∧
      300 ∈ s.scheduled ∧ ∀ task ∈ s.scheduled, Entries s task := by
  obtain ⟨s, hrun, hmem⟩ := Lib.Machine.exists_run (P := fun s => 300 ∈ s.scheduled)
    (M := schedulerMachine 16 {100, 200, 300}) (s := sampleSched 1) (e := threeSleepers)
    (by decide +kernel)
  exact ⟨s, hrun, hmem, bookkeeping (by decide) (by decide) (by decide) (by decide)
    ((Lib.Machine.Reach.init (sampleSched_rested _ (by decide)).booted).run hrun)⟩

/-! ## Selection -/

/-- The runs in which no TCB is added again before it has been freed. -/
def freshMachine (N : Nat) (tasks : Finset Nat) : Lib.Machine Sched SchedulerEvent :=
  (schedulerMachine N tasks).guard fun s e => s.Fresh tasks e

/-- The task neither waits nor sleeps and has not ended. -/
def Runnable (s : Sched) (task : Nat) : Prop :=
  (s.tcb task).state.wait = false ∧ (s.tcb task).state.sleep = false ∧
    (s.tcb task).state.exit = false

/-- The scheduler, called in `s`, ends in `s'` and returns `next`. -/
structure Selects (memclusterInUse : Bool) (fuel : Nat) (s s' : Sched) (next : Nat) : Prop where
  runs : (next = s.currentTCB ∧ (s'.tcb next).state.yield = false ∧ Runnable s' next) ∨
    (next ∈ s'.schedulerHeap.contents ∧ Runnable s' next) ∨ next = s.idleTCB
  idles : next = s.idleTCB → (∃ s₁, s.beforeWake memclusterInUse fuel = some s₁ ∧
    ∀ task ∈ s₁.wakeSleepers.scheduled, ¬ Runnable s₁.wakeSleepers task) ∧
      ∀ task ∈ s'.scheduled, ¬ Runnable s' task

theorem Books.selects (h : Books N tasks True life s) (hnodes : tasks.card ≤ N)
    (memclusterInUse : Bool) (rand : Nat → Nat) :
    ∃ fuel₀, ∀ fuel, fuel₀ ≤ fuel → ∃ s' next,
      s.scheduler memclusterInUse rand fuel = some (s', next) ∧
        Selects memclusterInUse fuel s s' next := by
  obtain ⟨fuel₀, hfuel₀⟩ := h.beforeWake_isSome trivial memclusterInUse
  refine ⟨fuel₀, ?_⟩
  intro fuel hfuel
  by_cases hgoes : s.currentTCB ≠ s.idleTCB ∧ s.mustSwitch = false
  · -- the current task goes on
    obtain ⟨hyield, hwait, hsleep, hexit⟩ := mustSwitch_eq_false hgoes.2
    simp only [scheduler, if_pos hgoes]
    exact ⟨_, _, rfl, .inl ⟨rfl, hyield, hwait, hsleep, hexit⟩,
      fun hidle => absurd hidle hgoes.1⟩
  · obtain ⟨s₁, hbefore⟩ := hfuel₀ fuel hfuel
    obtain ⟨hbooks, -, hidle⟩ := h.beforeWake hbefore
    obtain ⟨life₁, life', s', next, hbooks₁, honward₁, hafter, hbooks', honward', hnext⟩ :=
      hbooks.fromWakeEach (fun _ => memclusterInUse) rand (.inl hnodes)
    rw [← afterWake_eq] at hafter
    have hidle' : s'.idleTCB = s.idleTCB :=
      honward'.idleTCB.trans (honward₁.idleTCB.trans hidle)
    simp only [scheduler, if_neg hgoes, hbefore, Option.bind_eq_bind, Option.bind_some]
    -- with the idle task the walk leaves an empty heap, so no task is active
    have hnone : next = s.idleTCB → ∀ task, life' task ≠ .active := by
      intro heq task hlife
      rcases hnext with hactive | ⟨-, hempty⟩
      · have hmem := (hbooks'.known next (hbooks'.mem_of_ne_absent (by rw [hactive]; simp))).1
        rw [heq, ← hidle'] at hmem
        exact hbooks'.idle hmem
      · have hmem := (hbooks'.onHeap.mem task).mpr (by rw [hlife]; rfl)
        have hcard := MinHeap.card_contents s'.schedulerHeap
        rw [hempty, Multiset.card_eq_zero] at hcard
        rw [hcard] at hmem
        exact absurd hmem (Multiset.notMem_zero _)
    have haccepted : ∀ {life s} (_ : Books N tasks True life s) task, life task ≠ .rejected :=
      fun hb task hl => absurd hnodes (Nat.not_le.mpr (hb.rejected task hl))
    refine ⟨s', next, hafter, ?_, fun heq => ⟨⟨s₁, hbefore, ?_⟩, ?_⟩⟩
    · rcases hnext with hactive | ⟨heq, -⟩
      · refine .inr (.inl ⟨(hbooks'.onHeap.mem next).mpr (by rw [hactive]; rfl), ?_⟩)
        exact hbooks'.bits_of_active hactive
      · exact .inr (.inr (heq.trans hidle'))
    · intro task htask hruns
      have hlife₁ := hbooks₁.active_of_bits htask (haccepted hbooks₁ task) hruns.1 hruns.2.1
        hruns.2.2
      exact hnone heq task (honward'.active task hlife₁)
    · intro task htask hruns
      exact hnone heq task (hbooks'.active_of_bits htask (haccepted hbooks' task) hruns.1
        hruns.2.1 hruns.2.2)

/-- **Selection is sound**: whenever the scheduler is called in a run with no more
tasks than nodes, it ends, and returns the current task, which is not to switch, or
a task on the heap that can run, or the idle task when no task can run. -/
theorem scheduler_selects {switch : TaskSwitch} (hN : 0 < N) (hmax : N ≤ UINT32_MAX)
    (hnodes : tasks.card ≤ N) (htables : tasks.card ≤ WAIT_HASHTABLE_CAPACITY)
    (h : (freshMachine N tasks).Reach s) (hcall : s.call tasks e = some s₀)
    (hswitch : e.switch = some switch) :
    ∃ fuel₀, ∀ fuel, fuel₀ ≤ fuel → ∃ s' next,
      s₀.scheduler switch.memclusterInUse switch.rand fuel = some (s', next) ∧
        Selects switch.memclusterInUse fuel s₀ s' next := by
  obtain ⟨life, hbooks, hrun⟩ : ∃ life, Books N tasks True life s ∧ Running tasks life s :=
    books_of_reach hN hmax hnodes htables (fun _ hs => hs)
      (fun _ _ _ hs => ⟨(Lib.Machine.guard_step_iff.mp hs).2,
        fun _ => (Lib.Machine.guard_step_iff.mp hs).1⟩) h
  -- the scheduler does not follow `addTask`
  have hroom : s.HasRoom e := by cases e <;> trivial
  have hfresh : s.Fresh tasks e := by cases e <;> trivial
  obtain ⟨life₀, hcalled⟩ := hbooks.call hrun hroom (fun _ => hfresh) (.inl hnodes) hcall
  exact hcalled.books.selects hnodes switch.memclusterInUse switch.rand

/-- Task 300 falls asleep after 100 and 200: the scheduler is left with the idle
task. -/
theorem scheduler_selects_threeSleepers :
    ∃ s s₀, (freshMachine 16 {100, 200, 300}).run (sampleSched 1)
        (threeSleepers.take 7) = some s ∧
      s.call {100, 200, 300} (.sleep 50 toRoot) = some s₀ ∧
      ∃ fuel₀, ∀ fuel, fuel₀ ≤ fuel → ∃ s' next,
        s₀.scheduler toRoot.memclusterInUse toRoot.rand fuel = some (s', next) ∧
          Selects toRoot.memclusterInUse fuel s₀ s' next := by
  obtain ⟨s, hrun, hcall⟩ := Lib.Machine.exists_run
    (P := fun s => (s.call {100, 200, 300} (.sleep 50 toRoot)).isSome = true)
    (M := freshMachine 16 {100, 200, 300}) (s := sampleSched 1) (e := threeSleepers.take 7)
    (by decide +kernel)
  obtain ⟨s₀, hs₀⟩ := Option.isSome_iff_exists.mp hcall
  exact ⟨s, s₀, hrun, hs₀, scheduler_selects (by decide) (by decide) (by decide) (by decide)
    ((Lib.Machine.Reach.init (sampleSched_rested _ (by decide)).booted).run hrun) hs₀ rfl⟩

end Sched

end DocetOS
