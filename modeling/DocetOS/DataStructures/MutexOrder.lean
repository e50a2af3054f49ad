import DocetOS.DataStructures.MutexExclusion
import DocetOS.DataStructures.MutexWakeup
import DocetOS.Lib.WaitFor
import DocetOS.OS.HandlerBooks

/-!
# Mutexes acquired in an order

Tasks that acquire several mutexes may wait for each other for good. They do not when
the mutexes have an order and a task blocks on a mutex only while those it owns come
before it (`InOrder`), whatever they acquire without blocking: from every task that
waits, the owners lead to a task that the scheduler can run (`no_deadlock`).

A waiter needs more than an owner that runs: it must not be left parked when the mutex
is free (`Wakeful`), and it must still be in the tables of the scheduler, so that the
notify finds it and it comes back to the heap (`Books`).
-/

namespace DocetOS

/-- In front of the STREX of a function that waits for the mutex. -/
def MutexPc.blocking : MutexPc → Bool
  | .acquireCode | .acquireLoad _ | .acquireStore | .acquireWait _ => true
  | _ => false

/-- Between the test of the owner and the write of `NULL`. -/
def MutexPc.releasing : MutexPc → Bool
  | .releaseCountLoad _ | .releaseCountStore _ _ | .releaseCountTest _ | .releaseClear _ => true
  | _ => false

namespace Sched

/-- The task was added, and neither sleeps nor has ended. -/
def Ready (s : Sched) (task : Nat) : Prop :=
  task ∈ s.scheduled ∧ (s.tcb task).state.sleep = false ∧ (s.tcb task).state.exit = false

instance (s : Sched) (task : Nat) : Decidable (s.Ready task) :=
  inferInstanceAs (Decidable (_ ∧ _ ∧ _))

/-- Whoever is ready stays so. -/
def KeepsReady (s s' : Sched) : Prop := ∀ task, s.Ready task → s'.Ready task

variable {N : Nat} {tasks : Finset Nat} {life : Nat → Lifecycle} {s s' : Sched} {task : Nat}

theorem Inherits.keepsReady (h : Inherits s s') : KeepsReady s s' := by
  rintro task ⟨hmem, hsleep, hexit⟩
  refine ⟨?_, ?_, ?_⟩
  · rw [h.rest]
    exact hmem
  · rw [h.state]
    exact hsleep
  · rw [h.state]
    exact hexit

theorem park_keepsReady (s : Sched) (reason : Nat) : KeepsReady s (s.park reason) := by
  rintro task ⟨hmem, hsleep, hexit⟩
  refine ⟨hmem, ?_, ?_⟩ <;>
  · rw [park_tcb]
    split <;> assumption

theorem Wakes.keepsReady (h : Wakes s s') : KeepsReady s s' := by
  rintro task ⟨hmem, hsleep, hexit⟩
  refine ⟨?_, ?_, ?_⟩
  · rw [h.rest]
    exact hmem
  · rcases h.tcb task with heq | heq <;> rw [heq] <;> exact hsleep
  · rcases h.tcb task with heq | heq <;> rw [heq] <;> exact hexit

/-- A task that is ready waits, or it is active. -/
theorem Ready.active (h : s.Ready task) (hbooks : Books N tasks True life s)
    (hnodes : tasks.card ≤ N) (hwait : (s.tcb task).state.wait = false) : life task = .active :=
  hbooks.active_of_bits h.1 (fun hl => absurd hnodes (Nat.not_le.mpr (hbooks.rejected task hl)))
    hwait h.2.1 h.2.2

end Sched

namespace MutexSystem

open Lib Sched

instance (s : MutexSystem) (mutex task : Nat) : Decidable (s.IsOwner mutex task) :=
  inferInstanceAs (Decidable (_ ∧ _))

/-- A task blocks on a mutex only while every mutex it owns comes before it, or when the
mutex is its own. The mutexes are those of `locks`. -/
def InOrder (locks : Finset Nat) (rank : Nat → Nat) (s : MutexSystem) : MutexEvent → Prop
  | .call mutex function => mutex ∈ locks ∧
      (function = .acquire → ¬ s.IsOwner mutex s.running →
        ∀ m ∈ locks, s.IsOwner m s.running → rank m < rank mutex)
  | _ => True

/-- The processor goes to tasks that can run. -/
def SwitchesToReady (s : MutexSystem) : MutexEvent → Prop
  | .switchTo task => s.sched.Ready task
  | _ => True

instance (locks : Finset Nat) (rank : Nat → Nat) (s : MutexSystem) :
    (e : MutexEvent) → Decidable (InOrder locks rank s e)
  | .switchTo _ => inferInstanceAs (Decidable True)
  | .call mutex function => inferInstanceAs (Decidable (mutex ∈ locks ∧
      (function = .acquire → ¬ s.IsOwner mutex s.running →
        ∀ m ∈ locks, s.IsOwner m s.running → rank m < rank mutex)))
  | .step _ _ => inferInstanceAs (Decidable True)

instance (s : MutexSystem) : (e : MutexEvent) → Decidable (SwitchesToReady s e)
  | .switchTo task => inferInstanceAs (Decidable (s.sched.Ready task))
  | .call _ _ => inferInstanceAs (Decidable True)
  | .step _ _ => inferInstanceAs (Decidable True)

/-- `task` waits for a mutex that `task'` owns, or has cleared and is about to notify. -/
def WaitsFor (s : MutexSystem) (task task' : Nat) : Prop :=
  ∃ mutex, (mutex, task) ∈ s.sched.waiting ∧
    (s.IsOwner mutex task' ∨ ∃ yields, s.pc task' = some (mutex, .releaseNotify yields))

/-- The runs of tasks on mutexes as `OS_init_mutex` leaves them, after any run of the
scheduler in which nobody waits in the end. -/
def readyMachine (N : Nat) (tasks : Finset Nat) : Machine MutexSystem MutexEvent where
  init s := s.Fresh ∧ (∀ m, s.sched.mutexes m = initMutex) ∧
    (freshMachine N tasks).Reach s.sched ∧ s.sched.Ready s.running
  step := MutexSystem.step true

/-- Those in which the mutexes are acquired in an order. -/
def orderedMachine (N : Nat) (tasks locks : Finset Nat) (rank : Nat → Nat) :
    Machine MutexSystem MutexEvent :=
  (readyMachine N tasks).guard fun s e => InOrder locks rank s e ∧ SwitchesToReady s e ∧ Timely s e

section Steps

variable {N : Nat} {tasks locks : Finset Nat} {rank : Nat → Nat} {s s' x : MutexSystem}
  {mutex : Nat} {inheritance strexFails : Bool} {fuel : Nat} {pc : MutexPc} {pc' : Option MutexPc}

/-! ## Where a step leads -/

/-- From a place to the next one: only a call gets a task into an acquire, only the owner
gets into a release, and what a STREX relies on has been seen. -/
structure Leads (s : MutexSystem) (mutex : Nat) (pc : MutexPc) (pc' : Option MutexPc) : Prop where
  blocking : ∀ p ∈ pc', p.blocking = true → pc.blocking = true
  releasing : ∀ p ∈ pc', p.releasing = true →
    pc.releasing = true ∨ (s.sched.mutexes mutex).tcbPointer = s.running
  seen : Seen (s.sched.mutexes mutex).tcbPointer s.running pc'

theorem place_setPc_running (x : MutexSystem) (mutex : Nat) (pc : MutexPc) :
    (x.setPc (some (mutex, pc))).place mutex (x.setPc (some (mutex, pc))).running = some pc :=
  place_goTo_running x mutex (some pc)

theorem place_setPc_none (x : MutexSystem) (mutex : Nat) :
    (x.setPc none).place mutex (x.setPc none).running = none :=
  place_goTo_running x mutex none

theorem advance_leads (h : s.advance inheritance strexFails fuel mutex pc = some s') :
    Leads s mutex pc (s'.place mutex s'.running) := by
  -- a step ends the call or goes on; the cases below say which, and what the task has seen
  have returns : ∀ pc, Leads s mutex pc none := fun pc => ⟨by simp, by simp, trivial⟩
  have goes : ∀ (pc p : MutexPc), (p.blocking = true → pc.blocking = true) →
      (p.releasing = true → pc.releasing = true) → Seen (s.sched.mutexes mutex).tcbPointer
        s.running (some p) → Leads s mutex pc (some p) := by
    intro pc p hblocking hreleasing hseen
    refine ⟨?_, ?_, hseen⟩
    · rintro _ ⟨⟩
      exact hblocking
    · rintro _ ⟨⟩ hp
      exact .inl (hreleasing hp)
  cases pc <;> simp only [advance] at h
  case acquireLoad checkCode =>
    split at h <;> cases h <;> rw [place_setPc_running]
    · rename_i hfree
      exact goes _ _ (fun _ => rfl) (fun hp => by cases hp) hfree
    · exact goes _ _ (fun _ => rfl) (fun hp => by cases hp) trivial
  case tryLoad =>
    split at h <;> cases h
    · rename_i hfree
      rw [place_setPc_running]
      exact goes _ _ (fun hp => by cases hp) (fun hp => by cases hp) hfree
    · rw [place_setPc_none]
      exact returns _
  case releaseTest yields =>
    split at h <;> cases h
    · rw [place_setPc_none]
      exact returns _
    · -- the only place at which a release comes to know that the task is the owner
      rename_i howner
      rw [place_setPc_running]
      refine ⟨?_, fun _ _ _ => .inr (not_not.mp howner), trivial⟩
      rintro _ ⟨⟩ hp
      cases hp
  case acquireNotify | releaseCountTest | releaseClear =>
    split at h <;> cases h <;> first
      | rw [place_setPc_running]
        exact goes _ _ (fun hp => by cases hp) (by simp [MutexPc.releasing]) trivial
      | rw [place_setPc_none]
        exact returns _
  case acquireStore =>
    split at h <;> cases h <;> rw [place_setPc_running] <;>
      exact goes _ _ (fun _ => rfl) (fun hp => by cases hp) trivial
  case tryStore =>
    split at h <;> cases h
    · rw [place_setPc_running]
      exact goes _ _ (fun hp => by cases hp) (fun hp => by cases hp) trivial
    · rw [place_setPc_none]
      exact returns _
  case acquireWait checkCode =>
    split at h
    · obtain ⟨sched, -, rfl⟩ := Option.map_eq_some_iff.mp h
      rw [place_setPc_running]
      exact goes _ _ (fun _ => rfl) (fun hp => by cases hp) trivial
    · cases h
      rw [place_setPc_running]
      exact goes _ _ (fun _ => rfl) (fun hp => by cases hp) trivial
  case releaseNotify yields =>
    obtain ⟨sched, -, rfl⟩ := Option.map_eq_some_iff.mp h
    split
    · rw [place_setPc_running]
      exact goes _ _ (fun hp => by cases hp) (fun hp => by cases hp) trivial
    · rw [place_setPc_none]
      exact returns _
  case countStore | releaseYield =>
    cases h
    rw [place_setPc_none]
    exact returns _
  all_goals
    cases h
    rw [place_setPc_running]
    exact goes _ _ (by simp [MutexPc.blocking]) (by simp [MutexPc.releasing]) trivial

/-! ## What a step changes -/

theorem Move.effects (h : Move inheritance strexFails mutex s pc x pc') : Effects mutex s x := by
  cases h with
  | quiet _ _ _ hx => exact hx
  | see => exact effects_ghost mutex s (some mutex) _ _
  | store => exact (effects_setTcbPointer mutex s _).trans (effects_ghost mutex _ none _ _)
  | acquired => exact effects_svc mutex s (svcResourceAcquired_frame inheritance s.sched mutex)
  | wait hsvc =>
    exact (effects_svc mutex s (svcWait_frame hsvc)).trans (effects_ghost mutex _ none _ _)
  | clear => exact (effects_setTcbPointer mutex s _).trans (effects_ghost mutex _ none _ _)
  | notify _ _ hx => exact hx

/-- What a task has seen of the owner is so after its step. -/
theorem Move.seen (h : Move inheritance strexFails mutex s pc x pc')
    (hseen : Seen (s.sched.mutexes mutex).tcbPointer s.running pc') :
    Seen (x.sched.mutexes mutex).tcbPointer s.running pc' := by
  cases h with
  | quiet _ _ _ _ hsched =>
    rw [hsched.tcbPointer mutex]
    exact hseen
  | see => trivial
  | store hplace => rcases hplace with ⟨-, rfl⟩ | ⟨-, rfl⟩ <;> trivial
  | acquired => trivial
  | wait => trivial
  | clear => trivial
  | notify hpc' =>
    cases pc' with
    | none => trivial
    | some p =>
      rw [hpc' p rfl]
      trivial

/-- A task about to wait has seen another owner. -/
theorem Move.window (h : Move inheritance strexFails mutex s pc x pc') {checkCode : Nat}
    (hpc' : pc' = some (.acquireWait checkCode)) : ¬ x.IsOwner mutex s.running := by
  cases h with
  | quiet _ _ hquiet => exact absurd (hquiet _ hpc') (by simp [MutexPc.mutexSvc])
  | see _ _ hother => exact fun hown => hother hown.1
  | store hplace => rcases hplace with ⟨-, rfl⟩ | ⟨-, rfl⟩ <;> cases hpc'
  | acquired => cases hpc'
  | wait => cases hpc'
  | clear => cases hpc'
  | notify hyield => cases hyield _ hpc'

/-- Only a STREX that succeeds makes a task the owner. -/
theorem Move.isOwner (h : Move inheritance strexFails mutex s pc x pc') {m task : Nat}
    (hown : x.IsOwner m task) : s.IsOwner m task ∨
      (m = mutex ∧ task = s.running ∧ (pc' = some .acquireNotify ∨ pc' = some .tryNotify)) := by
  have hsame : (x.sched.mutexes m).tcbPointer = (s.sched.mutexes m).tcbPointer →
      s.IsOwner m task := fun heq => ⟨heq ▸ hown.1, hown.2⟩
  cases h with
  | quiet _ _ _ _ hsched => exact .inl (hsame (hsched.tcbPointer m))
  | see => exact .inl hown
  | store hplace =>
    by_cases hm : m = mutex
    · subst hm
      refine .inr ⟨rfl, ?_, hplace.imp (fun h => congrArg some h.2) fun h => congrArg some h.2⟩
      rw [← hown.1]
      exact setTcbPointer_tcbPointer s m s.running
    · exact .inl (hsame ((effects_setTcbPointer mutex s s.running).tcbPointer m hm))
  | acquired =>
    exact .inl (hsame ((svcResourceAcquired_frame inheritance s.sched mutex).tcbPointer m))
  | wait hsvc => exact .inl (hsame ((svcWait_frame hsvc).tcbPointer m))
  | clear yields =>
    by_cases hm : m = mutex
    · subst hm
      refine absurd ?_ hown.2
      rw [← hown.1]
      exact setTcbPointer_tcbPointer s m NULL
    · exact .inl (hsame ((effects_setTcbPointer mutex s NULL).tcbPointer m hm))
  | notify hpc' hsvc => exact .inl (hsame ((svcNotify_frame hsvc).tcbPointer m))

/-- An owner stays the owner until it clears the mutex, when a STREX stores only where
nobody else is the owner and a release clears only what the running task owns. -/
theorem Move.keeps_owner (h : Move inheritance strexFails mutex s pc x pc')
    (hseen : s.monitor = some mutex → Seen (s.sched.mutexes mutex).tcbPointer s.running (some pc))
    (hreleasing : pc.releasing = true → (s.sched.mutexes mutex).tcbPointer = s.running)
    {m task : Nat} (hown : s.IsOwner m task) : x.IsOwner m task ∨
      (m = mutex ∧ task = s.running ∧ ∃ yields, pc' = some (.releaseNotify yields)) := by
  have hsame : (x.sched.mutexes m).tcbPointer = (s.sched.mutexes m).tcbPointer →
      x.IsOwner m task := fun heq => ⟨heq.trans hown.1, hown.2⟩
  cases h with
  | quiet _ _ _ _ hsched => exact .inl (hsame (hsched.tcbPointer m))
  | see => exact .inl hown
  | store hplace hwrites hmonitor =>
    by_cases hm : m = mutex
    · subst hm
      refine .inl ⟨(setTcbPointer_tcbPointer s m s.running).trans ?_, hown.2⟩
      -- the load saw a free mutex or one of the running task: the task is the owner itself
      have hnotNull : (s.sched.mutexes m).tcbPointer ≠ NULL := by
        rw [hown.1]
        exact hown.2
      have hseen := hseen hmonitor
      rcases hplace with ⟨rfl, -⟩ | ⟨rfl, -⟩
      · rw [← hown.1, hseen.resolve_left hnotNull]
      · exact absurd hseen hnotNull
    · exact .inl (hsame ((effects_setTcbPointer mutex s s.running).tcbPointer m hm))
  | acquired =>
    exact .inl (hsame ((svcResourceAcquired_frame inheritance s.sched mutex).tcbPointer m))
  | wait hsvc => exact .inl (hsame ((svcWait_frame hsvc).tcbPointer m))
  | clear yields =>
    by_cases hm : m = mutex
    · subst hm
      -- who clears the mutex owns it
      refine .inr ⟨rfl, ?_, yields, rfl⟩
      rw [← hown.1]
      exact hreleasing rfl
    · exact .inl (hsame ((effects_setTcbPointer mutex s NULL).tcbPointer m hm))
  | notify hpc' hsvc => exact .inl (hsame ((svcNotify_frame hsvc).tcbPointer m))

/-- Only the running task starts to wait, for the mutex it is about to wait for. -/
theorem Move.waiting (h : Move inheritance strexFails mutex s pc x pc') (hparked : Parked s.sched)
    {m task : Nat} (hmem : (m, task) ∈ x.sched.waiting) : (m, task) ∈ s.sched.waiting ∨
      (m = mutex ∧ task = s.running ∧ (∃ checkCode, pc = .acquireWait checkCode) ∧
        pc' = some .acquireCode) := by
  cases h with
  | quiet _ _ _ _ hsched => exact .inl (hsched.waiting ▸ hmem)
  | see => exact .inl hmem
  | store => exact .inl hmem
  | acquired =>
    have hi : Inherits s.sched (svcResourceAcquired inheritance s.sched mutex) := by
      unfold svcResourceAcquired
      split
      · exact s.sched.resourceAcquired_inherits mutex
      · exact .refl _
    exact .inl (hi.waiting ▸ hmem)
  | wait hsvc =>
    rcases svcWait_cases hsvc with ⟨-, rfl⟩ | ⟨-, hi⟩
    · exact .inl hmem
    · rw [hi.waiting] at hmem
      rcases (park_waiting hparked.wf mutex).2 with hw | hw
      · exact .inl (hw ▸ hmem)
      · rw [hw, Multiset.mem_cons, Prod.mk.injEq] at hmem
        exact hmem.symm.imp id fun h => ⟨h.1, h.2, ⟨_, rfl⟩, rfl⟩
  | clear => exact .inl hmem
  | notify hpc' hsvc =>
    rw [(svcNotify_inherits hsvc).waiting, (hparked.nextCheckCode.wakeAll mutex).2,
      Multiset.mem_filter] at hmem
    exact .inl hmem.1

theorem QuietSched.keepsReady {t t' : Sched} (h : QuietSched mutex t t') : KeepsReady t t' := by
  cases h with
  | same => exact fun _ h => h
  | counter => exact fun _ h => h
  | yield =>
    rintro task ⟨hmem, hsleep, hexit⟩
    refine ⟨hmem, ?_, ?_⟩ <;>
    · simp only [yieldCurrent, modifyTCB, Function.update_apply]
      split
      · rename_i heq
        subst heq
        assumption
      · assumption

theorem Move.keepsReady (h : Move inheritance strexFails mutex s pc x pc') :
    KeepsReady s.sched x.sched := by
  cases h with
  | quiet _ _ _ _ hsched => exact hsched.keepsReady
  | see => exact fun _ h => h
  | store => exact fun _ h => h
  | acquired =>
    unfold svcResourceAcquired
    split
    · exact (s.sched.resourceAcquired_inherits mutex).keepsReady
    · exact fun _ h => h
  | wait hsvc =>
    rcases svcWait_cases hsvc with ⟨-, rfl⟩ | ⟨-, hi⟩
    · exact fun _ h => h
    · exact fun task h => hi.keepsReady task (park_keepsReady s.sched mutex task h)
  | clear => exact fun _ h => h
  | notify hpc' hsvc =>
    intro task h
    exact (svcNotify_inherits hsvc).keepsReady task
      ((s.sched.nextCheckCode.wakeAll_wakes mutex).keepsReady task h)

theorem QuietSched.books {t t' : Sched} {life : Nat → Lifecycle} (h : QuietSched mutex t t')
    (hbooks : Books N tasks True life t) : Books N tasks True life t' := by
  cases h with
  | same => exact hbooks
  | counter => exact hbooks.frame rfl (Nat.le_refl _) fun t => ⟨⟨_, rfl⟩, rfl⟩
  | yield =>
    refine hbooks.frame rfl (Nat.le_refl _) fun t => ?_
    simp only [yieldCurrent, modifyTCB, Function.update_apply]
    split
    · rename_i heq
      subst heq
      exact ⟨⟨true, rfl⟩, rfl⟩
    · exact ⟨⟨_, rfl⟩, rfl⟩

/-- The books are right after every step. -/
theorem Move.books {life : Nat → Lifecycle} (h : Move true strexFails mutex s pc x pc')
    (hbooks : Books N tasks True life s.sched) (hnodes : tasks.card ≤ N)
    (hready : s.sched.Ready s.running) (hwait : (s.sched.tcb s.running).state.wait = false) :
    ∃ life', Books N tasks True life' x.sched := by
  have hrunning : Running tasks life s.sched := fun _ => hready.active hbooks hnodes hwait
  have hmutexes : ∀ mutexes, Books N tasks True life { s.sched with mutexes } := fun mutexes =>
    hbooks.frame rfl (Nat.le_refl _) fun t => ⟨⟨_, rfl⟩, rfl⟩
  cases h with
  | quiet _ _ _ _ hsched => exact ⟨life, hsched.books hbooks⟩
  | see => exact ⟨life, hbooks⟩
  | store => exact ⟨life, hmutexes _⟩
  | acquired =>
    -- inheritance changes priorities; no state and no link of a TCB
    obtain ⟨tcb, mutexes, hrest⟩ := s.sched.resourceAcquired_rest mutex
    have htcb := (s.sched.resourceAcquired_inherits mutex).tcb
    refine ⟨life, ?_⟩
    simp only [svcResourceAcquired, if_pos]
    rw [hrest] at htcb ⊢
    refine hbooks.frame rfl (Nat.le_refl _) fun t => ?_
    obtain ⟨_, _, _, htcb⟩ := htcb t
    have hstate := congrArg TCB.state htcb
    have hdata := congrArg TCB.data htcb
    exact ⟨⟨(s.sched.tcb t).state.yield, hstate⟩, hdata⟩
  | @wait checkCode fuel _ hsvc =>
    obtain ⟨life', hcalled⟩ := hbooks.uncheckedCall
      (e := .wait fuel mutex checkCode 1 Sched.toRoot) hrunning trivial (fun _ => trivial)
      (.inl hnodes) ((if_pos hready.1).trans hsvc)
    exact ⟨life', hcalled.books⟩
  | clear => exact ⟨life, hmutexes _⟩
  | notify hpc' hsvc =>
    obtain ⟨life', hcalled⟩ := hbooks.uncheckedCall (e := .notify _ mutex) hrunning trivial
      (fun _ => trivial) (.inl hnodes) hsvc
    exact ⟨life', hcalled.books⟩

/-! ## The invariant -/

structure Ranked (N : Nat) (tasks locks : Finset Nat) (rank : Nat → Nat) (s : MutexSystem) :
    Prop where
  wakeful : Wakeful s
  books : ∃ life, Books N tasks True life s.sched
  running : s.sched.Ready s.running
  seen : ∀ mutex pc, s.monitor = some mutex → s.pc s.running = some (mutex, pc) →
    Seen (s.sched.mutexes mutex).tcbPointer s.running (some pc)
  releasing : ∀ task mutex pc, s.pc task = some (mutex, pc) → pc.releasing = true →
    (s.sched.mutexes mutex).tcbPointer = task
  /-- A task that waits will look at the mutex again, and is not its owner. -/
  queued : ∀ mutex task, (mutex, task) ∈ s.sched.waiting →
    s.pc task = some (mutex, .acquireCode) ∧ ¬ s.IsOwner mutex task
  window : ∀ mutex task, s.AboutToWait mutex task → ¬ s.IsOwner mutex task
  working : ∀ task mutex pc, s.pc task = some (mutex, pc) → mutex ∈ locks ∧ s.sched.Ready task
  owners : ∀ mutex task, s.IsOwner mutex task → mutex ∈ locks ∧ s.sched.Ready task
  ordered : ∀ task mutex pc, s.pc task = some (mutex, pc) → pc.blocking = true →
    ¬ s.IsOwner mutex task → ∀ m, s.IsOwner m task → rank m < rank mutex

namespace Ranked

theorem switchTo (h : Ranked N tasks locks rank s) {task : Nat} (hnull : task ≠ NULL)
    (hready : s.sched.Ready task) :
    Ranked N tasks locks rank
      { s with sched := { s.sched with currentTCB := task }, monitor := none } where
  wakeful :=
    { running := hnull
      svc := h.wakeful.svc
      parked := ⟨h.wakeful.parked.wf, h.wakeful.parked.once, h.wakeful.parked.wait,
        h.wakeful.parked.not_null⟩
      checkCode := h.wakeful.checkCode
      codes := h.wakeful.codes
      safe := h.wakeful.safe }
  books := h.books.imp fun _ hbooks => hbooks.frame rfl (Nat.le_refl _) fun t => ⟨⟨_, rfl⟩, rfl⟩
  running := hready
  seen _ _ hmonitor := by cases hmonitor
  releasing := h.releasing
  queued := h.queued
  window := h.window
  working := h.working
  owners := h.owners
  ordered := h.ordered

/-- A task calls a function on one of the mutexes. -/
theorem call (h : Ranked N tasks locks rank s) {function : MutexCall}
    (hpc : s.pc s.running = none) (horder : InOrder locks rank s (.call mutex function))
    (hwakeful : Wakeful (s.goTo mutex (some function.entry))) :
    Ranked N tasks locks rank (s.goTo mutex (some function.entry)) where
  wakeful := hwakeful
  books := h.books
  running := h.running
  seen m pc hmonitor hp := by
    rcases goTo_pc_cases (.refl mutex s) hp with ⟨hne, -⟩ | ⟨-, _, hentry, heq⟩
    · exact absurd rfl hne
    · cases heq
      cases hentry
      -- a call begins before its first load, so it has seen nothing
      cases function <;> trivial
  releasing task m pc hp hreleasing := by
    rcases goTo_pc_cases (.refl mutex s) hp with ⟨-, hp⟩ | ⟨-, _, hentry, heq⟩
    · exact h.releasing task m pc hp hreleasing
    · cases heq
      cases hentry
      cases function <;> cases hreleasing
  queued m task hmem := by
    -- the running task is in no call and so it is not parked
    obtain ⟨hp, hown⟩ := h.queued m task hmem
    refine ⟨?_, hown⟩
    rw [goTo_pc_of_ne, hp]
    rintro rfl
    rw [hpc] at hp
    cases hp
  window m task := by
    rintro ⟨checkCode, hp⟩
    rcases goTo_pc_cases (.refl mutex s) hp with ⟨-, hp⟩ | ⟨-, _, hentry, heq⟩
    · exact h.window m task ⟨checkCode, hp⟩
    · cases heq
      cases function <;> cases hentry
  working task m pc hp := by
    rcases goTo_pc_cases (.refl mutex s) hp with ⟨-, hp⟩ | ⟨rfl, _, -, heq⟩
    · exact h.working task m pc hp
    · cases heq
      exact ⟨horder.1, h.running⟩
  owners := h.owners
  ordered task m pc hp hblocking hown m' hown' := by
    rcases goTo_pc_cases (.refl mutex s) hp with ⟨-, hp⟩ | ⟨rfl, _, hentry, heq⟩
    · exact h.ordered task m pc hp hblocking hown m' hown'
    · cases heq
      cases hentry
      -- only `OS_mutex_acquire` can block, and it obeys the order
      cases function with
      | acquire => exact horder.2 rfl hown m' (h.owners m' _ hown').1 hown'
      | acquireNonBlocking => cases hblocking
      | release => cases hblocking
      | releaseNoYield => cases hblocking

/-! ### A step of a function -/

section Advance

variable (h : Ranked N tasks locks rank s) (hmove : Move true strexFails mutex s pc x pc')
  (hpc : s.pc s.running = some (mutex, pc)) (hleads : Leads s mutex pc pc')

include h hmove hpc

/-- The owners among the tasks that do not run stay, and become no more. -/
theorem isOwner_iff {m task : Nat} (hne : task ≠ s.running) :
    x.IsOwner m task ↔ s.IsOwner m task := by
  constructor
  · intro hown
    exact (hmove.isOwner hown).resolve_right fun h => hne h.2.1
  · intro hown
    exact (hmove.keeps_owner (fun hm => h.seen _ _ hm hpc) (h.releasing _ _ _ hpc)
      hown).resolve_right fun h => hne h.2.1

theorem owners_goTo {m task : Nat} (hown : x.IsOwner m task) :
    m ∈ locks ∧ x.sched.Ready task := by
  rcases hmove.isOwner hown with hold | ⟨rfl, rfl, -⟩
  · exact (h.owners m task hold).imp id (hmove.keepsReady task)
  · exact ⟨(h.working _ _ _ hpc).1, hmove.keepsReady _ h.running⟩

theorem working_goTo {task m : Nat} {p : MutexPc}
    (hp : (x.goTo mutex pc').pc task = some (m, p)) : m ∈ locks ∧ x.sched.Ready task := by
  rcases goTo_pc_cases hmove.effects hp with ⟨-, hp⟩ | ⟨rfl, _, -, heq⟩
  · exact (h.working task m p hp).imp id (hmove.keepsReady task)
  · cases heq
    exact ⟨(h.working _ _ _ hpc).1, hmove.keepsReady _ h.running⟩

theorem window_goTo {m task : Nat} (hw : (x.goTo mutex pc').AboutToWait m task) :
    ¬ x.IsOwner m task := by
  obtain ⟨checkCode, hp⟩ := hw
  rcases goTo_pc_cases hmove.effects hp with ⟨hne, hp⟩ | ⟨rfl, _, hpc', heq⟩
  · rw [h.isOwner_iff hmove hpc hne]
    exact h.window m task ⟨checkCode, hp⟩
  · cases heq
    exact hmove.window hpc'

theorem queued_goTo (hwait : (s.sched.tcb s.running).state.wait = false) {m task : Nat}
    (hmem : (m, task) ∈ x.sched.waiting) :
    (x.goTo mutex pc').pc task = some (m, .acquireCode) ∧ ¬ x.IsOwner m task := by
  rcases hmove.waiting h.wakeful.parked hmem with hmem | ⟨rfl, rfl, ⟨checkCode, rfl⟩, rfl⟩
  · have hne : task ≠ s.running := by
      rintro rfl
      have := h.wakeful.parked.wait _ _ hmem
      rw [hwait] at this
      cases this
    obtain ⟨hp, hown⟩ := h.queued m task hmem
    rw [goTo_pc_of_ne x mutex pc' (hmove.effects.running ▸ hne), hmove.effects.pc,
      h.isOwner_iff hmove hpc hne]
    exact ⟨hp, hown⟩
  · refine ⟨?_, ?_⟩
    · rw [← hmove.effects.running]
      exact goTo_pc_running x m _
    · intro hown
      have hold := (hmove.isOwner hown).resolve_right (by simp)
      exact h.window m s.running ⟨checkCode, hpc⟩ hold

include hleads

theorem releasing_goTo {task m : Nat} {p : MutexPc}
    (hp : (x.goTo mutex pc').pc task = some (m, p)) (hreleasing : p.releasing = true) :
    (x.sched.mutexes m).tcbPointer = task := by
  have hnull : task ≠ NULL := by
    obtain ⟨life, hbooks⟩ := h.books
    rcases goTo_pc_cases hmove.effects hp with ⟨-, hp⟩ | ⟨rfl, -⟩
    · exact (hbooks.known task (h.working _ _ _ hp).2.1).2
    · exact h.wakeful.running
  rcases goTo_pc_cases hmove.effects hp with ⟨hne, hp⟩ | ⟨rfl, p, rfl, heq⟩
  · exact ((h.isOwner_iff hmove hpc hne).mpr ⟨h.releasing task m p hp hreleasing, hnull⟩).1
  · cases heq
    -- the running task was the owner, and its next place is in front of the write of `NULL`
    have hold : s.IsOwner mutex s.running := by
      refine ⟨?_, hnull⟩
      rcases hleads.releasing _ rfl hreleasing with hpc' | howner
      · exact h.releasing _ _ _ hpc hpc'
      · exact howner
    rcases hmove.keeps_owner (fun hm => h.seen _ _ hm hpc) (h.releasing _ _ _ hpc) hold with
      hown | ⟨-, -, yields, hp⟩
    · exact hown.1
    · cases hp
      cases hreleasing

theorem ordered_goTo {task m : Nat} {p : MutexPc}
    (hp : (x.goTo mutex pc').pc task = some (m, p)) (hblocking : p.blocking = true)
    (hown : ¬ x.IsOwner m task) {m' : Nat} (hown' : x.IsOwner m' task) : rank m' < rank m := by
  rcases goTo_pc_cases hmove.effects hp with ⟨hne, hp⟩ | ⟨rfl, p, rfl, heq⟩
  · rw [h.isOwner_iff hmove hpc hne] at hown hown'
    exact h.ordered task m p hp hblocking hown m' hown'
  · cases heq
    -- it was in the same acquire before, and neither got nor lost a mutex
    have hold' : s.IsOwner m' s.running := by
      refine (hmove.isOwner hown').resolve_right ?_
      rintro ⟨-, -, hp | hp⟩ <;>
      · cases hp
        cases hblocking
    refine h.ordered _ _ _ hpc (hleads.blocking _ rfl hblocking) (fun hold => ?_) m' hold'
    rcases hmove.keeps_owner (fun hm => h.seen _ _ hm hpc) (h.releasing _ _ _ hpc) hold with
      hkept | ⟨-, -, yields, hp⟩
    · exact hown hkept
    · cases hp
      cases hblocking

theorem goTo (hnodes : tasks.card ≤ N) (hwait : (s.sched.tcb s.running).state.wait = false)
    (hwakeful : Wakeful (x.goTo mutex pc')) : Ranked N tasks locks rank (x.goTo mutex pc') where
  wakeful := hwakeful
  books := by
    obtain ⟨life, hbooks⟩ := h.books
    exact hmove.books hbooks hnodes h.running hwait
  running := by
    have hready := hmove.keepsReady _ h.running
    rw [← hmove.effects.running] at hready
    exact hready
  seen m p _ hp := by
    have hrunning : (x.goTo mutex pc').running = s.running := hmove.effects.running
    rcases goTo_pc_cases hmove.effects hp with ⟨hne, -⟩ | ⟨-, p, rfl, heq⟩
    · exact absurd hrunning hne
    · cases heq
      rw [hrunning]
      exact hmove.seen hleads.seen
  releasing _ _ _ hp := h.releasing_goTo hmove hpc hleads hp
  queued _ _ := h.queued_goTo hmove hpc hwait
  window _ _ := h.window_goTo hmove hpc
  working _ _ _ := h.working_goTo hmove hpc
  owners _ _ := h.owners_goTo hmove hpc
  ordered _ _ _ hp hblocking hown _ := h.ordered_goTo hmove hpc hleads hp hblocking hown

end Advance

/-- **Every step of the machine keeps the invariant.** -/
theorem step {e : MutexEvent} (h : Ranked N tasks locks rank s) (hnodes : tasks.card ≤ N)
    (horder : InOrder locks rank s e) (hready : SwitchesToReady s e) (htimely : Timely s e)
    (hs : s.step true e = some s') : Ranked N tasks locks rank s' := by
  have hwakeful := h.wakeful.step htimely hs
  rcases step_cases hs with ⟨task, rfl, hnull, rfl⟩ | ⟨m, function, rfl, hpc, rfl⟩ |
    ⟨strexFails, fuel, m, pc, rfl, hpc, hwait, hadvance⟩
  · exact h.switchTo hnull hready
  · exact h.call hpc horder hwakeful
  · have hleads := advance_leads hadvance
    obtain ⟨x, pc', hmove, rfl⟩ :=
      advance_move (by rw [h.wakeful.svc]; decide) h.wakeful.running hadvance
    have hplace : (x.goTo m pc').place m (x.goTo m pc').running = pc' := place_goTo_running x m pc'
    rw [hplace] at hleads
    exact h.goTo hmove hpc hleads hnodes hwait hwakeful

theorem of_init (hN : 0 < N) (hmax : N ≤ UINT32_MAX) (hnodes : tasks.card ≤ N)
    (htables : tasks.card ≤ WAIT_HASHTABLE_CAPACITY) (h : (readyMachine N tasks).init s) :
    Ranked N tasks locks rank s := by
  obtain ⟨hfresh, hinit, hreach, hready⟩ := h
  obtain ⟨life, hbooks, -⟩ : ∃ life, Books N tasks True life s.sched ∧
      Running tasks life s.sched :=
    books_of_reach hN hmax hnodes htables (fun _ h => h)
      (fun s e s' hstep => (Machine.guard_step_iff.mp hstep).symm.imp id fun h _ => h) hreach
  have hpc : ∀ {task m pc}, s.pc task ≠ some (m, pc) := fun h => by
    rw [hfresh.pc] at h
    cases h
  have hfree : ∀ {m task}, ¬ s.IsOwner m task := by
    rintro m task ⟨heq, hne⟩
    rw [hinit] at heq
    exact hne heq.symm
  exact
    { wakeful := hfresh.wakeful fun m => by rw [hinit]; rfl
      books := ⟨life, hbooks⟩
      running := hready
      seen := fun _ _ _ hp => absurd hp hpc
      releasing := fun _ _ _ hp => absurd hp hpc
      queued := by simp [hfresh.waiting]
      window := fun _ _ _ => hfree
      working := fun _ _ _ hp => absurd hp hpc
      owners := fun _ _ hown => absurd hown hfree
      ordered := fun _ _ _ hp => absurd hp hpc }

/-- Whoever is waited for comes on a higher rank than those who wait for it. -/
theorem exists_waitsFor (h : Ranked N tasks locks rank s) {mutex task : Nat}
    (hmem : (mutex, task) ∈ s.sched.waiting) : ∃ task', s.WaitsFor task task' ∧
      s.sched.Ready task' ∧ ∀ m, (m, task') ∈ s.sched.waiting → rank mutex < rank m := by
  rcases h.wakeful.safe.parked mutex task hmem with howner | ⟨task', yields, hp⟩
  · have hown : s.IsOwner mutex (s.sched.mutexes mutex).tcbPointer := ⟨rfl, howner⟩
    refine ⟨_, ⟨mutex, hmem, .inl hown⟩, (h.owners _ _ hown).2, ?_⟩
    intro m hm
    obtain ⟨hp, hnot⟩ := h.queued m _ hm
    exact h.ordered _ _ _ hp rfl hnot mutex hown
  · refine ⟨task', ⟨mutex, hmem, .inr ⟨yields, hp⟩⟩, (h.working _ _ _ hp).2, ?_⟩
    intro m hm
    have := (h.queued m _ hm).1
    rw [hp] at this
    cases this

/-- A task that is ready and does not wait is one that the scheduler can choose. -/
theorem runnable (h : Ranked N tasks locks rank s) (hnodes : tasks.card ≤ N) {task : Nat}
    (hready : s.sched.Ready task) (hnot : ∀ m, (m, task) ∉ s.sched.waiting) :
    Runnable s.sched task ∧ task ∈ s.sched.schedulerHeap.contents := by
  obtain ⟨life, hbooks⟩ := h.books
  have hwait : (s.sched.tcb task).state.wait = false := by
    rw [(hbooks.shows task hready.1).wait, Bool.eq_false_iff]
    intro hwaiting
    obtain ⟨m, hm⟩ := (hbooks.waiters.mem task).mpr hwaiting
    exact hnot m hm
  refine ⟨⟨hwait, hready.2⟩, (hbooks.onHeap.mem task).mpr ?_⟩
  rw [hready.active hbooks hnodes hwait]
  rfl

end Ranked

end Steps

/-! ## The result -/

/-- **No deadlock**: from every task that waits, the owners of the mutexes lead to a task
on the scheduler heap that can run. -/
theorem no_deadlock {N : Nat} {tasks locks : Finset Nat} {rank : Nat → Nat} {s : MutexSystem}
    (hN : 0 < N) (hmax : N ≤ UINT32_MAX) (hnodes : tasks.card ≤ N)
    (htables : tasks.card ≤ WAIT_HASHTABLE_CAPACITY)
    (h : (orderedMachine N tasks locks rank).Reach s) {mutex task : Nat}
    (hwaits : (mutex, task) ∈ s.sched.waiting) :
    ∃ task', Relation.TransGen s.WaitsFor task task' ∧ Runnable s.sched task' ∧
      task' ∈ s.sched.schedulerHeap.contents := by
  have hinv : Ranked N tasks locks rank s := by
    refine h.invariant ?_ ?_
    · intro s hs
      exact .of_init hN hmax hnodes htables hs
    · intro s e s' hs hstep
      obtain ⟨⟨horder, hready, htimely⟩, hstep⟩ := Machine.guard_step_iff.mp hstep
      exact hs.step hnodes horder hready htimely hstep
  -- the rank of a task that waits is that of its mutex
  let place (t : Nat) : Nat := (s.pc t).elim 0 fun p => rank p.1
  have hplace : ∀ m t, (m, t) ∈ s.sched.waiting → place t = rank m := by
    intro m t hmem
    show (s.pc t).elim 0 _ = rank m
    rw [(hinv.queued m t hmem).1]
    rfl
  have hfinite : {t | ∃ m, (m, t) ∈ s.sched.waiting}.Finite := by
    refine (s.sched.waiting.toFinset.image Prod.snd).finite_toSet.subset ?_
    rintro t ⟨m, hmem⟩
    exact Finset.mem_coe.mpr (Finset.mem_image.mpr ⟨(m, t), Multiset.mem_toFinset.mpr hmem, rfl⟩)
  have hnext : ∀ t, (∃ m, (m, t) ∈ s.sched.waiting) → ∃ t', (s.WaitsFor t t' ∧ s.sched.Ready t') ∧
      ((∃ m, (m, t') ∈ s.sched.waiting) → place t < place t') := by
    rintro t ⟨m, hmem⟩
    obtain ⟨t', hfor, hready, hhigher⟩ := hinv.exists_waitsFor hmem
    refine ⟨t', ⟨hfor, hready⟩, ?_⟩
    rintro ⟨m', hmem'⟩
    rw [hplace m t hmem, hplace m' t' hmem']
    exact hhigher m' hmem'
  obtain ⟨task', hpath, hnot⟩ := exists_transGen_not_waits hfinite hnext ⟨mutex, hwaits⟩
  have hready : s.sched.Ready task' := by
    cases hpath with
    | single hstep => exact hstep.2
    | tail _ hstep => exact hstep.2
  exact ⟨task', Relation.TransGen.mono (fun _ _ hstep => hstep.1) _ _ hpath,
    hinv.runnable hnodes hready fun m hm => hnot ⟨m, hm⟩⟩

/-- The tasks 7, 8 and 9 are added, and 7 runs. -/
def threeTasks : List SchedulerEvent :=
  [.addTask 7 ((sampleSched 1).tcb 0) 0 1, .addTask 8 ((sampleSched 1).tcb 0) 0 2,
    .addTask 9 ((sampleSched 1).tcb 0) 0 3, .schedule toRoot]

/-- Task 7 holds mutex 200, task 8 holds mutex 100 and waits for it, and task 9 waits for
mutex 100. -/
def handedDown : List MutexEvent :=
  let waitEvents (mutex : Nat) : List MutexEvent :=
    .call mutex .acquire :: List.replicate 3 (.step false 3)
  acquireEvents 200 ++ .switchTo 8 :: acquireEvents 100 ++ waitEvents 200 ++
    .switchTo 9 :: waitEvents 100

/-- Nobody works on a mutex, and all are as `OS_init_mutex` leaves them. -/
def startOn (sched : Sched) : MutexSystem :=
  { sampleSystem with sched := { sched with mutexes := fun _ => initMutex } }

theorem no_deadlock_handedDown :
    ∃ sched s, (freshMachine 16 {7, 8, 9}).run (sampleSched 1) threeTasks = some sched ∧
      (orderedMachine 16 {7, 8, 9} {100, 200} id).run (startOn sched) handedDown = some s ∧
      (100, 9) ∈ s.sched.waiting ∧ ∃ task, Relation.TransGen s.WaitsFor 9 task ∧
        Runnable s.sched task ∧ task ∈ s.sched.schedulerHeap.contents := by
  obtain ⟨sched, hsched, hcurrent, hcode, hwaiting, hready, hrun⟩ := Machine.exists_run
    (M := freshMachine 16 {7, 8, 9})
    (P := fun sched => sched.currentTCB = 7 ∧ sched.checkCode = 0 ∧ sched.waiting = 0 ∧
      sched.Ready 7 ∧ ((orderedMachine 16 {7, 8, 9} {100, 200} id).run (startOn sched)
        handedDown).any (fun s => decide ((100, 9) ∈ s.sched.waiting)) = true)
    (s := sampleSched 1) (e := threeTasks) (by decide +kernel)
  obtain ⟨s, hs, hparked⟩ := Machine.exists_run
    (P := fun s : MutexSystem => (100, 9) ∈ s.sched.waiting) hrun
  have hreach := (Machine.Reach.init (sampleSched_rested _ (by decide)).booted).run hsched
  obtain ⟨life, hbooks, -⟩ : ∃ life, Books 16 {7, 8, 9} True life sched ∧
      Running {7, 8, 9} life sched :=
    books_of_reach (by decide) (by decide) (by decide) (by decide) (fun _ h => h)
      (fun s e s' hstep => (Machine.guard_step_iff.mp hstep).symm.imp id fun h _ => h) hreach
  have hfresh : (startOn sched).Fresh :=
    { sampleSystem_fresh with
      running := by
        show sched.currentTCB ≠ NULL
        rw [hcurrent]
        decide
      checkCode := hcode
      waiting_wf := hbooks.waiters.parked.wf
      waiting := hwaiting }
  -- `startOn` has new mutexes, which the tasks may write by `memory`
  have hmemory : (freshMachine 16 {7, 8, 9}).Reach { sched with mutexes := fun _ => initMutex } :=
    hreach.step (e := .memory (fun task => (sched.tcb task).acquiredResourcesLinkedList)
      fun _ => initMutex) (Machine.guard_step_iff.mpr ⟨trivial, rfl⟩)
  have hstart : (orderedMachine 16 {7, 8, 9} {100, 200} id).Reach (startOn sched) := by
    refine .init ⟨hfresh, fun _ => rfl, hmemory, ?_⟩
    show sched.Ready sched.currentTCB
    rw [hcurrent]
    exact hready
  exact ⟨sched, s, hsched, hs, hparked, no_deadlock (by decide) (by decide) (by decide) (by decide)
    (hstart.run hs) hparked⟩

end MutexSystem

end DocetOS
