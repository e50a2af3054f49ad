import DocetOS.DataStructures.MutexInheritance
import DocetOS.DataStructures.MutexLists
import DocetOS.OS.InheritedPriority

/-!
# Priority inversion on mutexes

A task that parks for a mutex lends its priority to the owner, and a release takes
back what was lent for the mutex. Here the store to `tcbPointer` and the SVC that
follows it are not interrupted (`Uninterrupted`), so the lists of acquired mutexes are
those of the owners whenever another task runs.

Inheritance stops at the owner: if the owner waits for a mutex itself, the task that
owns that one is not looked at. No task waits for a less urgent one in the runs in
which the owners one step further are as urgent as the task that parks already
(`AboveWaiter`). A word of the check code and of the counter must not roll over on the
way (`Timely`, `Shallow`).
-/

namespace DocetOS

namespace MutexSystem

open Lib Sched

/-- The running task is between a store to `tcbPointer` and the SVC that follows. -/
def inSection (s : MutexSystem) : Bool :=
  match s.pc s.running with
  | some (_, pc) => pc.linksNext
  | none => false

/-- The processor does not leave a task between a store to `tcbPointer` and its SVC,
and a mutex is at an address. -/
def Uninterrupted (s : MutexSystem) : MutexEvent → Prop
  | .switchTo _ => s.inSection = false
  | .call mutex _ => mutex ≠ NULL
  | .step _ _ => True

/-- The counter of a mutex does not roll over. -/
def Shallow (s : MutexSystem) : MutexEvent → Prop
  | .step _ _ =>
    match s.pc s.running with
    | some (_, .countStore counter) => counter + 1 < 4294967296
    | _ => True
  | _ => True

/-- When a task parks for a mutex whose owner waits for other mutexes, the owners of
these are at least as urgent as the task. -/
def AboveWaiter (s : MutexSystem) : MutexEvent → Prop
  | .step _ _ =>
    match s.pc s.running with
    | some (mutex, .acquireWait checkCode) =>
      checkCode = s.sched.checkCode →
        ∀ p ∈ s.sched.waiting, p.2 = (s.sched.mutexes mutex).tcbPointer →
          (s.sched.tcb (s.sched.mutexes p.1).tcbPointer).heapPriority ≤
            (s.sched.tcb s.running).heapPriority
    | _ => True
  | _ => True

instance (s : MutexSystem) : (e : MutexEvent) → Decidable (Uninterrupted s e)
  | .switchTo _ => inferInstanceAs (Decidable (_ = _))
  | .call _ _ => inferInstanceAs (Decidable (_ ≠ _))
  | .step _ _ => inferInstanceAs (Decidable True)

instance (s : MutexSystem) : (e : MutexEvent) → Decidable (Shallow s e)
  | .switchTo _ => inferInstanceAs (Decidable True)
  | .call _ _ => inferInstanceAs (Decidable True)
  | .step _ _ => by
    unfold Shallow
    dsimp only
    split <;> infer_instance

instance (s : MutexSystem) : (e : MutexEvent) → Decidable (AboveWaiter s e)
  | .switchTo _ => inferInstanceAs (Decidable True)
  | .call _ _ => inferInstanceAs (Decidable True)
  | .step _ _ => by
    unfold AboveWaiter
    dsimp only
    split <;> infer_instance

/-- The runs on mutexes as `OS_init_mutex` leaves them, by tasks with a priority that
have acquired nothing and inherit nothing. -/
def priorityMachine : Machine MutexSystem MutexEvent :=
  Machine.guard
    { init := fun s => listMachine.init s ∧
        ∀ task, 0 < (s.sched.tcb task).priority ∧ (s.sched.tcb task).inheritedPriority = 0
      step := MutexSystem.step true } Uninterrupted

/-- The runs in which inheritance need not go on from an owner. -/
def oneLevelMachine : Machine MutexSystem MutexEvent :=
  priorityMachine.guard fun s e => (Timely s e ∧ Shallow s e) ∧ AboveWaiter s e

/-- No owner of a mutex is less urgent than a task that waits for it. -/
def NoInversion (s : MutexSystem) : Prop :=
  Lib.NoInversion (fun task mutex => s.IsOwner mutex task)
    (fun mutex task => (mutex, task) ∈ s.sched.waiting) fun task => (s.sched.tcb task).heapPriority

/-! ## The invariant -/

/-- No task but the running one is between a store and its SVC. -/
def Alone (s : MutexSystem) : Prop :=
  ∀ task m pc, s.pc task = some (m, pc) → pc.linksNext = true → task = s.running

/-- The invariant, with the list of each task. -/
structure Inheriting (s : MutexSystem) (lists : Nat → List Nat) : Prop where
  alone : s.Alone
  linked : ∃ last, Linked s last lists
  boosts : ∃ last, Boosts s last
  lent : s.sched.Lent lists

section Steps

variable {s s' x : MutexSystem} {lists : Nat → List Nat} {mutex fuel : Nat} {strexFails : Bool}
  {pc : MutexPc} {e : MutexEvent}

theorem Alone.not_at (h : s.Alone) (hpc : s.pc s.running = some (mutex, pc))
    (hlinks : pc.linksNext = false) {task m : Nat} {p : MutexPc} (hp : p.linksNext = true) :
    s.pc task ≠ some (m, p) := by
  intro htask
  obtain rfl := h task m p htask hp
  rw [hpc] at htask
  cases htask
  rw [hlinks] at hp
  cases hp

theorem Alone.goTo (h : s.Alone) (hx : Effects mutex s x) (pc' : Option MutexPc) :
    (x.goTo mutex pc').Alone := by
  intro task m p hp hlinks
  show task = x.running
  rw [hx.running]
  rcases goTo_pc_cases hx hp with ⟨-, hp⟩ | ⟨ht, -⟩
  · exact h task m p hp hlinks
  · exact ht

theorem Alone.step (h : s.Alone) (hok : Uninterrupted s e) (hs : s.step true e = some s') :
    s'.Alone := by
  rcases step_cases hs with ⟨task, rfl, -, rfl⟩ | ⟨m, function, rfl, -, rfl⟩ |
    ⟨strexFails, fuel, m, pc, rfl, -, -, hadvance⟩
  · -- nobody is between a store and its SVC when the processor goes to another task
    intro t m p hp hlinks
    obtain rfl := h t m p hp hlinks
    simp only [Uninterrupted, inSection, show s.pc s.running = some (m, p) from hp] at hok
    rw [hlinks] at hok
    cases hok
  · exact h.goTo (.refl m s) _
  · obtain ⟨x, pc', hx, rfl⟩ := advance_effects hadvance
    exact h.goTo hx pc'

/-- A mutex is linked only after it has been unlinked. -/
theorem Alone.uncrossed (h : s.Alone) (hok : Uninterrupted s e) (hshallow : Shallow s e)
    (last : Nat → Nat) : Uncrossed (s, last) e := by
  cases e with
  | switchTo task => trivial
  | call m function => exact hok
  | step strexFails fuel =>
    have hclearing : ∀ m pc, s.pc s.running = some (m, pc) →
        (∀ yields, pc ≠ .releaseNotify yields) →
        ¬ s.Clearing last m := by
      rintro m pc hpc hne ⟨yields, hp⟩
      rw [h _ _ _ hp rfl, hpc] at hp
      cases hp
      exact hne yields rfl
    cases hpc : s.pc s.running with
    | none => simp only [Uncrossed, hpc]
    | some p =>
      obtain ⟨m, pc⟩ := p
      simp only [Shallow, hpc] at hshallow
      cases pc <;> simp only [Uncrossed, hpc]
      case acquireNotify => exact hclearing m _ hpc (by simp)
      case tryNotify => exact hclearing m _ hpc (by simp)
      case countStore => exact hshallow

theorem QuietSched.samePriorities {t t' : Sched} (h : QuietSched mutex t t') :
    SamePriorities t t' := by
  cases h with
  | same => exact .refl t
  | counter counter => exact .refl t
  | yield =>
    exact samePriorities_modifyTCB
      (f := fun tcb => { tcb with state := { tcb.state with yield := true } }) t.currentTCB
      fun _ => ⟨rfl, rfl⟩

theorem QuietSched.sameLists {t t' : Sched} (h : QuietSched mutex t t') : SameLists t t' := by
  cases h with
  | same => exact .refl t
  | counter counter =>
    exact sameLists_modifyMutex (f := fun m => { m with counter }) mutex fun _ => rfl
  | yield =>
    exact sameLists_modifyTCB
      (f := fun tcb => { tcb with state := { tcb.state with yield := true } }) t.currentTCB
      fun _ => rfl

/-- A mutex that is linked is in no list yet, or the task has it already. -/
theorem Inheriting.not_listed (h : Inheriting s lists) (hpc : s.pc s.running = some (mutex, pc))
    (hplace : pc = .acquireNotify ∨ pc = .tryNotify) (hzero : (s.sched.mutexes mutex).counter = 0)
    (task : Nat) : mutex ∉ lists task := by
  obtain ⟨last, hlinked⟩ := h.linked
  refine hlinked.not_listed hpc hplace ?_ hzero task
  intro releaser yields hreleases
  obtain rfl := h.alone releaser mutex _ hreleases rfl
  rw [hpc] at hreleases
  cases hreleases
  rcases hplace with heq | heq <;> cases heq

/-- The owner a task finds when it parks has the mutex in its list. -/
theorem Inheriting.owner_listed (h : Inheriting s lists)
    (htimely : Timely s (.step strexFails fuel))
    (hpc : s.pc s.running = some (mutex, .acquireWait s.sched.checkCode)) :
    mutex ∈ lists (s.sched.mutexes mutex).tcbPointer := by
  obtain ⟨last, hlinked⟩ := h.linked
  obtain ⟨writer, hboosts⟩ := h.boosts
  have hparks : s.Parks (.step strexFails fuel) mutex := hpc
  have hnull := (hboosts.owner_iff htimely hparks).mpr fun ⟨yields, hp⟩ =>
    h.alone.not_at hpc rfl rfl hp
  refine (hlinked.exact.owned _ mutex ⟨rfl, hnull⟩).resolve_right ?_
  rintro (hp | hp) <;> exact h.alone.not_at hpc rfl rfl hp

/-- Outside of the sections a task has in its list what it owns. -/
theorem Inheriting.owner_of_listed (h : Inheriting s lists)
    (hpc : s.pc s.running = some (mutex, pc)) (hlinks : pc.linksNext = false) {task m : Nat}
    (hmem : m ∈ lists task) : (s.sched.mutexes m).tcbPointer = task := by
  obtain ⟨last, hlinked⟩ := h.linked
  rcases hlinked.exact.only task m hmem with howner | ⟨yields, hp⟩
  · exact howner.1
  · exact absurd hp (h.alone.not_at hpc hlinks rfl)

/-- **What a step of a function makes of the lists and the priorities.** -/
theorem Inheriting.lent_advance (h : Inheriting s lists) (hpc : s.pc s.running = some (mutex, pc))
    (htimely : Timely s (.step strexFails fuel)) (habove : AboveWaiter s (.step strexFails fuel))
    (hs : s.advance true strexFails fuel mutex pc = some s') :
    ∃ lists', s'.sched.Lists lists' ∧ s'.sched.Lent lists' := by
  obtain ⟨last, hlinked⟩ := h.linked
  obtain ⟨writer, hboosts⟩ := h.boosts
  obtain ⟨x, pc', hmove, rfl⟩ := advance_move (by rw [hlinked.svc]; decide) hlinked.running hs
  -- a step that does nothing to the lists, the waiting tasks and the priorities
  have hkeep : ∀ {sched : Sched}, SameLists s.sched sched → SamePriorities s.sched sched →
      sched.waiting = s.sched.waiting → ∃ lists', sched.Lists lists' ∧ sched.Lent lists' :=
    fun hlists hsame hwaiting =>
      ⟨lists, hlinked.linked.same hlists, h.lent.mono hsame fun p hp => hwaiting ▸ hp⟩
  cases hmove with
  | quiet hquiet hwrites hquiet' hx hsched hnotifies hread hload =>
    exact hkeep hsched.sameLists hsched.samePriorities hsched.waiting
  | see checkCode hnull hother => exact hkeep (.refl _) (.refl _) rfl
  | store hplace hwrites hmonitor => exact hkeep (setTcbPointer_sameLists s mutex _) (.refl _) rfl
  | clear yields => exact hkeep (setTcbPointer_sameLists s mutex _) (.refl _) rfl
  | acquired hplace =>
    show ∃ lists', (s.sched.resourceAcquired mutex).Lists lists' ∧
      (s.sched.resourceAcquired mutex).Lent lists'
    by_cases hzero : (s.sched.mutexes mutex).counter = 0
    · have hnew := h.not_listed hpc hplace hzero
      exact ⟨_,
        hlinked.linked.resourceAcquired (hlinked.calls _ _ _ hpc) hlinked.running hzero hnew,
        h.lent.acquired hnew⟩
    · -- a nested acquire
      rw [Sched.resourceAcquired_nested hzero]
      exact ⟨lists, hlinked.linked, h.lent⟩
  | @wait checkCode fuel' sched hsvc =>
    have hlists := hlinked.linked.same (waitCallback_sameLists hsvc)
    by_cases hcode : checkCode = s.sched.checkCode
    · subst hcode
      simp only [AboveWaiter, hpc, forall_const] at habove
      have hpark : (s.sched.park mutex).updatePriorityInheritance fuel'
          ((s.sched.park mutex).mutexes mutex).tcbPointer = some sched := by
        simpa [svcWait, waitCallback] using hsvc
      refine ⟨lists, hlists, h.lent.wait hlinked.linked hboosts.wakeful.parked.wf
        (h.owner_listed htimely hpc) ?_ hpark⟩
      intro t m hm hw
      have hlends := habove (m, (s.sched.mutexes mutex).tcbPointer) hw rfl
      rwa [h.owner_of_listed hpc rfl hm] at hlends
    · have heq : sched = s.sched := by
        simpa [svcWait, waitCallback, hcode, eq_comm] using hsvc
      exact ⟨lists, hlists, heq ▸ h.lent⟩
  | @notify yields fuel' x pc' hpc' hsvc hx hnotifies hread =>
    have hlists : s.sched.nextCheckCode.Lists lists := hlinked.linked.congr rfl rfl
    have hlent : s.sched.nextCheckCode.Lent lists := h.lent.mono (.refl _) fun _ hp => hp
    have hwoken := hlists.same (s.sched.nextCheckCode.wakeAll_wakes mutex).sameLists
    have hcurrent : (s.sched.nextCheckCode.wakeAll mutex).currentTCB = s.running := by
      rw [(s.sched.nextCheckCode.wakeAll_wakes mutex).rest]
      rfl
    have hdrop := hwoken.dropAcquired hsvc
    rw [hcurrent] at hdrop
    exact ⟨_, hdrop, hlent.notify hlists hboosts.wakeful.parked.nextCheckCode hsvc⟩

/-- **Every step of the machine keeps the invariant.** -/
theorem Inheriting.step (h : Inheriting s lists) (hok : Uninterrupted s e)
    (htimely : Timely s e) (hshallow : Shallow s e) (habove : AboveWaiter s e)
    (hs : s.step true e = some s') : ∃ lists', Inheriting s' lists' := by
  obtain ⟨last, hlinked⟩ := h.linked
  obtain ⟨writer, hboosts⟩ := h.boosts
  obtain ⟨lists', hlinked'⟩ := hlinked.step (h.alone.uncrossed hok hshallow last) hs
  obtain ⟨lists₁, hlists₁, hlent⟩ : ∃ lists₁, s'.sched.Lists lists₁ ∧ s'.sched.Lent lists₁ := by
    rcases step_cases hs with ⟨task, rfl, -, rfl⟩ | ⟨m, function, rfl, -, rfl⟩ |
      ⟨strexFails, fuel, m, pc, rfl, hpc, -, hadvance⟩
    · exact ⟨lists, hlinked.linked.congr rfl rfl, h.lent.mono (.refl _) fun _ hp => hp⟩
    · exact ⟨lists, hlinked.linked, h.lent⟩
    · exact h.lent_advance hpc htimely habove hadvance
  -- the links determine the lists
  obtain rfl := hlists₁.unique hlinked'.linked
  exact ⟨lists₁, h.alone.step hok hs, ⟨_, hlinked'⟩, ⟨_, hboosts.step htimely hs⟩, hlent⟩

/-- Whoever owns a mutex that somebody waits for has it in its list. -/
theorem Inheriting.noInversion (h : Inheriting s lists) : s.NoInversion := by
  intro task m waiter hown hwait
  obtain ⟨last, hlinked⟩ := h.linked
  refine h.lent.lent task m waiter ?_ hwait
  obtain ⟨task', hmem⟩ := h.lent.listed m waiter hwait
  rcases hlinked.exact.only task' m hmem with howner | ⟨yields, hreleases⟩
  · obtain rfl : task = task' := hown.1.symm.trans howner.1
    exact hmem
  · -- a task in front of its `OS_notify` runs, so the owner is not in a section
    refine (hlinked.exact.owned task m hown).resolve_right ?_
    intro hacquiring
    obtain rfl := h.alone task' m _ hreleases rfl
    rcases hacquiring with hp | hp <;>
    · obtain rfl := h.alone task m _ hp rfl
      rw [hreleases] at hp
      cases hp

end Steps

/-! ## The result -/

theorem Fresh.inheriting {s : MutexSystem} (h : listMachine.init s)
    (hpriorities : ∀ task, 0 < (s.sched.tcb task).priority ∧
      (s.sched.tcb task).inheritedPriority = 0) : Inheriting s fun _ => [] where
  alone task m pc hp := by
    rw [h.1.pc] at hp
    cases hp
  linked := ⟨fun _ => NULL, listMachine_linked h _⟩
  boosts := ⟨fun _ => NULL, Fresh.boosts h.1 (fun m => by rw [h.2.1]; rfl) _⟩
  lent :=
    { positive := fun t => (hpriorities t).1
      atMost := fun t => by simp [TCB.heapPriority, (hpriorities t).2]
      listed := fun m w hw => by simp [h.1.waiting] at hw
      lent := fun t m w hm _ => absurd hm List.not_mem_nil }

/-- **No priority inversion** in a run in which the tasks that an owner waits for are
as urgent as the task that comes to wait for the owner. -/
theorem no_priority_inversion {s : MutexSystem} (h : oneLevelMachine.Reach s) :
    s.NoInversion := by
  have hinheriting : ∃ lists, Inheriting s lists := by
    refine Machine.Reach.invariant (P := fun s => ∃ lists, Inheriting s lists) ?_ ?_ h
    · intro s hs
      exact ⟨_, Fresh.inheriting hs.1 hs.2⟩
    · rintro s e s' ⟨lists, hs⟩ hstep
      obtain ⟨⟨⟨htimely, hshallow⟩, habove⟩, hstep⟩ := Machine.guard_step_iff.mp hstep
      obtain ⟨hok, hstep⟩ := Machine.guard_step_iff.mp hstep
      exact hs.step hok htimely hshallow habove hstep
  obtain ⟨lists, hs⟩ := hinheriting
  exact hs.noInversion

/-- Task 7 has priority 3, task 8 priority 2, and task 7 runs. -/
def samplePriorities : MutexSystem :=
  { sampleSystem with
    sched := { sampleSystem.sched with
      tcb := fun task =>
        { sampleSystem.sched.tcb task with
            priority := if task = 7 then 3 else if task = 8 then 2 else 1 } } }

theorem samplePriorities_init : priorityMachine.init samplePriorities := by
  refine ⟨⟨⟨fun _ => rfl, fun _ _ => rfl, fun _ _ => rfl, by decide, rfl, ?_, ?_⟩, fun _ => rfl,
    fun _ => rfl⟩, fun task => ⟨?_, rfl⟩⟩
  · exact sampleSystem_fresh.waiting_wf
  · exact sampleSystem_fresh.waiting
  · show 0 < if task = 7 then 3 else if task = 8 then 2 else 1
    split
    · decide
    · split <;> decide

/-- The steps of an `OS_mutex_acquire` that parks. -/
def waitEvents (mutex : Nat) : List MutexEvent :=
  .call mutex .acquire :: List.replicate 3 (.step false 3)

/-- Task 8 waits for task 7, which is as urgent then. -/
theorem no_priority_inversion_twoTasks :
    ∃ s, oneLevelMachine.run samplePriorities
        (acquireEvents 100 ++ .switchTo 8 :: waitEvents 100) = some s ∧
      (100, 8) ∈ s.sched.waiting ∧ s.NoInversion := by
  obtain ⟨s, hrun, hwaits⟩ := Machine.exists_run (M := oneLevelMachine)
    (P := fun s => (100, 8) ∈ s.sched.waiting) (s := samplePriorities)
    (e := acquireEvents 100 ++ .switchTo 8 :: waitEvents 100) (by decide +kernel)
  have hstart : oneLevelMachine.Reach samplePriorities := .init samplePriorities_init
  exact ⟨s, hrun, hwaits, no_priority_inversion (hstart.run hrun)⟩

/-- Task 8 waits for task 7 and holds a mutex itself; task 9, of priority 1, waits for
it. Task 8 has priority 1 now, and task 7 still 2. -/
theorem priority_inversion : ¬ ∀ s, priorityMachine.Reach s → s.NoInversion := by
  intro h
  obtain ⟨s, hrun, hwaits, hown, hurgent⟩ := Machine.exists_run (M := priorityMachine)
    (P := fun s => (100, 8) ∈ s.sched.waiting ∧ (s.sched.mutexes 100).tcbPointer = 7 ∧
      (s.sched.tcb 8).heapPriority < (s.sched.tcb 7).heapPriority)
    (s := samplePriorities)
    (e := acquireEvents 100 ++ .switchTo 8 :: acquireEvents 104 ++ waitEvents 100 ++
      .switchTo 9 :: waitEvents 104) (by decide +kernel)
  have hstart : priorityMachine.Reach samplePriorities := .init samplePriorities_init
  have hle := h s (hstart.run hrun) 7 100 8 ⟨hown, by decide⟩ hwaits
  exact absurd hurgent (Nat.not_lt.mpr hle)

end MutexSystem

end DocetOS
