import DocetOS.DataStructures.MutexWakeup

/-!
# The owner a waiter boosts

A task that parks for a mutex lends its priority to the task `tcbPointer` names.
The check code keeps a task from parking when an `OS_notify` has come since it
saw the owner, but a release writes `NULL` before its `OS_notify`. In between, an
`OS_wait` with a current check code parks the task for a mutex without an owner,
and `__updatePriorityInheritance` is called on `NULL`.

That is the only way: an `OS_wait` finds no owner exactly when the release that
wrote `tcbPointer` last has not come to its `OS_notify` (`owner_at_waits_iff`).
Which task wrote it last is a history variable.
-/

namespace DocetOS

namespace MutexSystem

open Lib Sched

/-- The tasks that wrote `tcbPointer` of each mutex last. -/
def lastWriter (s : MutexSystem) : MutexEvent → (Nat → Nat) → Nat → Nat
  | .step strexFails _, last =>
    match s.pc s.running with
    | some (mutex, pc) =>
      if s.writes strexFails mutex pc then Function.update last mutex s.running else last
    | none => last
  | _, last => last

/-- The next step is an `OS_wait` on `mutex` that parks the running task. -/
def Parks (s : MutexSystem) : MutexEvent → Nat → Prop
  | .step _ _, mutex => s.pc s.running = some (mutex, .acquireWait s.sched.checkCode)
  | _, _ => False

/-- A task that parks for a mutex finds an owner to boost. -/
def OwnerToBoost (p : MutexSystem × (Nat → Nat)) (e : MutexEvent) : Prop :=
  ∀ mutex, p.1.Parks e mutex → (p.1.sched.mutexes mutex).tcbPointer ≠ NULL

/-- No task parks for a mutex between the write of `NULL` and the `OS_notify` of
a release. -/
def ParksOutsideRelease (p : MutexSystem × (Nat → Nat)) (e : MutexEvent) : Prop :=
  ∀ mutex, p.1.Parks e mutex → ¬ p.1.Clearing p.2 mutex

/-- The runs on mutexes that call the scheduler, with the last writers. -/
def inheritanceMachine : Machine (MutexSystem × (Nat → Nat)) MutexEvent :=
  ((mutexMachine true fun mutexes => ∀ m, (mutexes m).svcDelegatesEnabled = 1).withHistory
    lastWriter).guard fun p e => Timely p.1 e

/-! ## The invariant -/

/-- The mutex has an owner, or its last writer is about to notify. -/
def OwnedOrClearing (s : MutexSystem) (last : Nat → Nat) (mutex : Nat) : Prop :=
  (s.sched.mutexes mutex).tcbPointer ≠ NULL ∨ s.Clearing last mutex

/-- The invariant. Nobody counts as parked: parked tasks are no concern here. -/
structure Boosts (s : MutexSystem) (last : Nat → Nat) : Prop where
  wakeful : Wakeful s
  clearing : ∀ m, s.Clearing last m → (s.sched.mutexes m).tcbPointer = NULL
  safe : EventCount.Safe (fun m _ => s.OwnedOrClearing last m) (fun _ _ => False)
    s.AboutToWait s.codeRead s.notifies

section Steps

variable {s s' x : MutexSystem} {last last' : Nat → Nat} {mutex : Nat}
  {inheritance strexFails : Bool} {fuel : Nat} {pc : MutexPc} {pc' : Option MutexPc}

theorem ownedOrClearing_goTo_of_ne (hpc : s.pc s.running = some (mutex, pc))
    (hx : Effects mutex s x) (hlast : ∀ m, m ≠ mutex → last' m = last m) {m : Nat}
    (hne : m ≠ mutex) (h : s.OwnedOrClearing last m) :
    (x.goTo mutex pc').OwnedOrClearing last' m := by
  refine h.imp ?_ ?_
  · intro howner
    show (x.sched.mutexes m).tcbPointer ≠ NULL
    rwa [hx.tcbPointer m hne]
  · intro hclearing
    exact (clearing_goTo_of_ne hpc hx hlast hne).mpr hclearing

theorem aboutToWait_goTo (hx : Effects mutex s x) {m task : Nat}
    (h : (x.goTo mutex pc').AboutToWait m task) :
    (task ≠ s.running ∧ s.AboutToWait m task) ∨
      (task = s.running ∧ m = mutex ∧ ∃ code, pc' = some (.acquireWait code)) := by
  obtain ⟨code, hp⟩ := h
  rcases goTo_pc_cases hx hp with ⟨ht, hp⟩ | ⟨ht, pc₁, hpc₁, heq⟩
  · exact .inl ⟨ht, code, hp⟩
  · cases heq
    exact .inr ⟨ht, rfl, code, hpc₁⟩

/-- A step that notifies nobody. -/
theorem Boosts.move (h : Boosts s last) (hpc : s.pc s.running = some (mutex, pc))
    (hwakeful : Wakeful (x.goTo mutex pc')) (hx : Effects mutex s x)
    (hlast : ∀ m, m ≠ mutex → last' m = last m) (hnotifies : x.notifies = s.notifies)
    (hread : ∀ task, task ≠ s.running → x.codeRead task = s.codeRead task)
    (hwindow : ∀ code, pc' = some (.acquireWait code) →
      (s.sched.mutexes mutex).tcbPointer ≠ NULL ∧ x.codeRead s.running = s.codeRead s.running)
    (hclearing : (x.goTo mutex pc').Clearing last' mutex →
      (x.sched.mutexes mutex).tcbPointer = NULL)
    (hcovered : s.OwnedOrClearing last mutex → (x.goTo mutex pc').OwnedOrClearing last' mutex) :
    Boosts (x.goTo mutex pc') last' where
  wakeful := hwakeful
  clearing m hm := by
    by_cases heq : m = mutex
    · subst heq
      exact hclearing hm
    · show (x.sched.mutexes m).tcbPointer = NULL
      rw [hx.tcbPointer m heq]
      exact h.clearing m ((clearing_goTo_of_ne hpc hx hlast heq).mp hm)
  safe := by
    have hkeeps : ∀ m, s.OwnedOrClearing last m → (x.goTo mutex pc').OwnedOrClearing last' m := by
      intro m hm
      by_cases heq : m = mutex
      · subst heq
        exact hcovered hm
      · exact ownedOrClearing_goTo_of_ne hpc hx hlast heq hm
    show EventCount.Safe _ _ _ x.codeRead x.notifies
    rw [hnotifies]
    by_cases hwait : ∃ code, pc' = some (.acquireWait code)
    · -- the running task opens its window: it has just seen an owner
      obtain ⟨code, hcode⟩ := hwait
      obtain ⟨howner, hsame⟩ := hwindow code hcode
      have hopen : ∀ m task, (x.goTo mutex pc').AboutToWait m task →
          s.AboutToWait m task ∨ (m = mutex ∧ task = s.running) := fun m task hw =>
        (aboutToWait_goTo hx hw).imp And.right fun hw => ⟨hw.2.1, hw.1⟩
      refine (h.safe.observe mutex s.running (fun _ _ hp => hp) hopen (.inl howner)).mono
        (fun _ _ hp => hp) (fun m task hw => ⟨hw, ?_⟩) fun m _ _ hm => hkeeps m hm
      by_cases ht : task = s.running
      · rw [ht, hsame]
      · exact hread task ht
    · refine h.safe.mono (fun _ _ hp => hp) ?_ fun m _ _ hm => hkeeps m hm
      intro m task hw
      rcases aboutToWait_goTo hx hw with ⟨ht, hw⟩ | ⟨-, -, hcode⟩
      · exact ⟨hw, hread task ht⟩
      · exact absurd hcode hwait

/-- A step that neither writes `tcbPointer` nor notifies. -/
theorem Boosts.keep (h : Boosts s last) (hpc : s.pc s.running = some (mutex, pc))
    (hwakeful : Wakeful (x.goTo mutex pc')) (hx : Effects mutex s x)
    (hpointer : (x.sched.mutexes mutex).tcbPointer = (s.sched.mutexes mutex).tcbPointer)
    (hnotifies : x.notifies = s.notifies)
    (hread : ∀ task, task ≠ s.running → x.codeRead task = s.codeRead task)
    (hwindow : ∀ code, pc' = some (.acquireWait code) →
      (s.sched.mutexes mutex).tcbPointer ≠ NULL ∧ x.codeRead s.running = s.codeRead s.running)
    (hnot : ∀ yields, pc ≠ .releaseNotify yields)
    (hnot' : ∀ yields, pc' ≠ some (.releaseNotify yields)) :
    Boosts (x.goTo mutex pc') last := by
  -- the step begins and ends away from the SVC of a release
  have hclearing : (x.goTo mutex pc').Clearing last mutex ↔ s.Clearing last mutex := by
    constructor
    · rintro ⟨yields, hp⟩
      rcases goTo_pc_cases hx hp with ⟨-, hp⟩ | ⟨-, pc₁, hpc₁, heq⟩
      · exact ⟨yields, hp⟩
      · cases heq
        exact absurd hpc₁ (hnot' yields)
    · rintro ⟨yields, hp⟩
      refine ⟨yields, ?_⟩
      rw [goTo_pc_of_ne x mutex pc', hx.pc, hp]
      intro heq
      rw [heq, hx.running] at hp
      exact not_notify hpc hnot mutex yields hp
  refine h.move hpc hwakeful hx (fun _ _ => rfl) hnotifies hread hwindow ?_ ?_
  · intro hm
    rw [hpointer]
    exact h.clearing mutex (hclearing.mp hm)
  · refine Or.imp ?_ hclearing.mpr
    intro howner
    show (x.sched.mutexes mutex).tcbPointer ≠ NULL
    rwa [hpointer]

/-- The `OS_notify` of a release closes every window. -/
theorem Boosts.notify (h : Boosts s last) {yields : Bool}
    (hpc : s.pc s.running = some (mutex, .releaseNotify yields))
    (hwakeful : Wakeful (x.goTo mutex pc')) (hx : Effects mutex s x)
    (hpointer : (x.sched.mutexes mutex).tcbPointer = (s.sched.mutexes mutex).tcbPointer)
    (hnotifies : x.notifies = s.notifies + 1) (hread : x.codeRead = s.codeRead)
    (hpc' : ∀ p ∈ pc', p = .releaseYield) : Boosts (x.goTo mutex pc') last where
  wakeful := hwakeful
  clearing m hm := by
    show (x.sched.mutexes m).tcbPointer = NULL
    by_cases heq : m = mutex
    · subst heq
      obtain ⟨yields', hp⟩ := hm
      rw [hpointer]
      rcases goTo_pc_cases hx hp with ⟨-, hp⟩ | ⟨-, pc₁, hpc₁, heq⟩
      · exact h.clearing m ⟨yields', hp⟩
      · cases heq
        cases hpc' _ hpc₁
    · rw [hx.tcbPointer m heq]
      exact h.clearing m ((clearing_goTo_of_ne hpc hx (fun _ _ => rfl) heq).mp hm)
  safe := by
    -- the running task goes on to yield or returns, and so it is not about to wait
    have hwindows : ∀ m task, (x.goTo mutex pc').AboutToWait m task → s.AboutToWait m task := by
      intro m task hw
      rcases aboutToWait_goTo hx hw with ⟨-, hw⟩ | ⟨-, -, code, hcode⟩
      · exact hw
      · cases hpc' _ hcode
    show EventCount.Safe _ _ _ x.codeRead x.notifies
    rw [hnotifies, hread]
    refine h.safe.notify mutex (fun _ _ hp => hp.elim) ?_ fun m _ hne hm =>
      ownedOrClearing_goTo_of_ne hpc hx (fun _ _ => rfl) hne hm
    intro m task hw
    obtain ⟨code, hp⟩ := hwindows m task hw
    exact (h.wakeful.codes task m code (.inr hp)).2

/-- **Every step of a function keeps the invariant.** -/
theorem Boosts.advance (h : Boosts s last) (hpc : s.pc s.running = some (mutex, pc))
    (hwakeful : Wakeful s') (hs : s.advance inheritance strexFails fuel mutex pc = some s')
    (hlast : last' = if s.writes strexFails mutex pc then Function.update last mutex s.running
      else last) : Boosts s' last' := by
  obtain ⟨x, pc', hmove, rfl⟩ := advance_move (by rw [h.wakeful.svc]; decide) h.wakeful.running hs
  cases hmove with
  | quiet hquiet hwrites hquiet' hx hsched hnotifies hread hload =>
    rw [hwrites] at hlast
    subst hlast
    refine h.keep hpc hwakeful hx (hsched.tcbPointer mutex) hnotifies hread ?_ ?_ ?_
    · intro code hcode
      cases hquiet' _ hcode
    · rintro yields rfl
      cases hquiet
    · intro yields hcode
      cases hquiet' _ hcode
  | see checkCode hnull hother =>
    subst hlast
    exact h.keep hpc hwakeful (effects_ghost mutex s (some mutex) _ _) rfl rfl (fun _ _ => rfl)
      (fun _ _ => ⟨hnull, rfl⟩) (by simp) (by simp)
  | store hplace hwrites hmonitor =>
    rw [hwrites, if_pos rfl] at hlast
    subst hlast
    have hpointer : ((s.setTcbPointer mutex s.running).sched.mutexes mutex).tcbPointer =
        s.running := by
      simp [setTcbPointer, modifyMutex]
    refine h.move hpc hwakeful
      ((effects_setTcbPointer mutex s _).trans (effects_ghost mutex _ none _ _))
      (fun m hne => Function.update_of_ne hne _ _) rfl (fun _ _ => rfl) ?_ ?_ ?_
    · rintro code ⟨⟩
      rcases hplace with ⟨-, ⟨⟩⟩ | ⟨-, ⟨⟩⟩
    · rintro ⟨yields, hp⟩
      rw [Function.update_self] at hp
      have hp' := (goTo_pc_running _ mutex _).symm.trans hp
      rcases hplace with ⟨-, rfl⟩ | ⟨-, rfl⟩ <;> cases hp'
    · intro _
      -- the writer owns the mutex
      refine .inl ?_
      show ((s.setTcbPointer mutex s.running).sched.mutexes mutex).tcbPointer ≠ NULL
      rw [hpointer]
      exact h.wakeful.running
  | acquired hplace =>
    have hsvc := svcResourceAcquired_frame inheritance s.sched mutex
    have hlast' : last' = last := by
      rcases hplace with rfl | rfl <;> exact hlast
    subst hlast'
    refine h.keep hpc hwakeful (effects_svc mutex s hsvc) (hsvc.tcbPointer mutex) rfl
      (fun _ _ => rfl)
      (by simp) ?_ (by simp)
    rcases hplace with rfl | rfl <;> simp
  | wait hsvc =>
    subst hlast
    exact h.keep hpc hwakeful
      ((effects_svc mutex s (svcWait_frame hsvc)).trans (effects_ghost mutex _ none _ _))
      ((svcWait_frame hsvc).tcbPointer mutex) rfl (fun _ _ => rfl) (by simp)
      (by simp) (by simp)
  | clear yields =>
    change last' = Function.update last mutex s.running at hlast
    subst hlast
    refine h.move hpc hwakeful
      ((effects_setTcbPointer mutex s _).trans (effects_ghost mutex _ none _ _))
      (fun m hne => Function.update_of_ne hne _ _) rfl (fun _ _ => rfl) (by simp) ?_ ?_
    · intro _
      simp [setTcbPointer, modifyMutex]
    · -- the running task is the last writer, and in front of its `OS_notify`
      refine fun _ => .inr ⟨yields, ?_⟩
      rw [Function.update_self]
      exact goTo_pc_running _ mutex _
  | notify hpc' hsvc hx hnotifies hread =>
    subst hlast
    exact h.notify hpc hwakeful hx ((svcNotify_frame hsvc).tcbPointer mutex) hnotifies hread hpc'

/-- **Every step of the machine keeps the invariant.** -/
theorem Boosts.step {e : MutexEvent} (h : Boosts s last) (htimely : Timely s e)
    (hs : s.step inheritance e = some s') : Boosts s' (s.lastWriter e last) := by
  have hwakeful := h.wakeful.step htimely hs
  rcases step_cases hs with ⟨task, rfl, -, rfl⟩ | ⟨m, function, rfl, hpc, rfl⟩ |
    ⟨strexFails, fuel, m, pc, rfl, hpc, -, hadvance⟩
  · exact ⟨hwakeful, h.clearing, h.safe⟩
  · have hpcs : ∀ task p, (s.goTo m (some function.entry)).pc task = some p →
        s.pc task = some p ∨ p = (m, function.entry) := by
      intro task p hp
      rcases goTo_pc_cases (.refl m s) hp with ⟨-, hp⟩ | ⟨-, pc₁, hpc₁, rfl⟩
      · exact .inl hp
      · cases hpc₁
        exact .inr rfl
    -- a call begins neither in front of an SVC nor at a wait
    have hkeeps : ∀ mutex, s.Clearing last mutex ↔
        (s.goTo m (some function.entry)).Clearing last mutex := by
      intro mutex
      constructor
      · rintro ⟨yields, hp⟩
        refine ⟨yields, ?_⟩
        rw [goTo_pc_of_ne, hp]
        intro heq
        rw [heq, hpc] at hp
        cases hp
      · rintro ⟨yields, hp⟩
        rcases hpcs _ _ hp with hp | heq
        · exact ⟨yields, hp⟩
        · cases function <;> cases heq
    refine ⟨hwakeful, fun mutex hm => h.clearing mutex ((hkeeps mutex).mpr hm), ?_⟩
    refine h.safe.mono (fun _ _ hp => hp) ?_ fun mutex _ _ hm => hm.imp id (hkeeps mutex).mp
    rintro mutex task ⟨code, hp⟩
    rcases hpcs _ _ hp with hp | heq
    · exact ⟨⟨code, hp⟩, rfl⟩
    · cases function <;> cases heq
  · refine h.advance hpc hwakeful hadvance ?_
    simp only [lastWriter, hpc]

/-- What the invariant says of a task that parks. -/
theorem Boosts.owner_iff (h : Boosts s last) {e : MutexEvent} (htimely : Timely s e)
    (hparks : s.Parks e mutex) :
    (s.sched.mutexes mutex).tcbPointer ≠ NULL ↔ ¬ s.Clearing last mutex := by
  cases e with
  | switchTo task => exact hparks.elim
  | call m function => exact hparks.elim
  | step strexFails fuel =>
    constructor
    · intro howner hclearing
      exact howner (h.clearing mutex hclearing)
    · intro hclearing
      obtain ⟨hcode, hle⟩ := h.wakeful.codes _ _ _ (.inr hparks)
      have hlt := htimely (by simp only [waitsNext, show s.pc s.running = _ from hparks])
      -- the check code is current, so the task's window is open
      have hread : s.codeRead s.running = s.notifies :=
        EventCount.eq_of_mod_eq hle hlt (hcode.symm.trans h.wakeful.checkCode)
      exact (h.safe.window mutex s.running ⟨_, hparks⟩ hread).resolve_right hclearing

end Steps

/-! ## The result -/

theorem Fresh.boosts {s : MutexSystem} (h : s.Fresh)
    (hsvc : ∀ m, (s.sched.mutexes m).svcDelegatesEnabled = 1) (last : Nat → Nat) :
    Boosts s last where
  wakeful := h.wakeful hsvc
  clearing := by
    rintro m ⟨yields, hp⟩
    rw [h.pc] at hp
    cases hp
  safe :=
    { parked := fun _ _ hp => hp.elim
      window := by
        rintro m task ⟨code, hcode⟩
        rw [h.pc] at hcode
        cases hcode }

/-- **A waiter finds an owner to boost** in all of a run iff no task of the run
parks for a mutex between the write of `NULL` and the `OS_notify` of the release
that wrote its `tcbPointer` last. -/
theorem owner_at_waits_iff {p : MutexSystem × (Nat → Nat)} (hstart : inheritanceMachine.init p)
    (es : List MutexEvent) :
    inheritanceMachine.Throughout OwnerToBoost p es ↔
      inheritanceMachine.Throughout ParksOutsideRelease p es := by
  have hinit : Boosts p.1 p.2 := Fresh.boosts hstart.1 hstart.2 p.2
  refine Machine.throughout_congr (I := fun p => Boosts p.1 p.2) ?_ ?_ hinit es
  · intro p e p' h hs
    obtain ⟨htimely, hs⟩ := Machine.guard_step_iff.mp hs
    obtain ⟨hstep, hlast⟩ := Machine.withHistory_step_iff.mp hs
    rw [hlast]
    exact h.step htimely hstep
  · intro p e p' h hs
    obtain ⟨htimely, -⟩ := Machine.guard_step_iff.mp hs
    exact forall_congr' fun mutex => imp_congr_right fun hparks => h.owner_iff htimely hparks

/-- Task 8 reads the check code and sees that task 7 holds the mutex; task 7
clears it; task 8 goes on. -/
def waitInRelease : List MutexEvent :=
  acquireEvents 100 ++ .switchTo 8 :: .call 100 .acquire :: List.replicate 2 (.step false 3) ++
    .switchTo 7 :: .call 100 .release :: List.replicate 5 (.step false 3) ++ [.switchTo 8]

theorem owner_at_waits_iff_waitInRelease :
    inheritanceMachine.Throughout OwnerToBoost (sampleSystem, fun _ => NULL)
        (waitInRelease ++ [.step false 3]) ↔
      inheritanceMachine.Throughout ParksOutsideRelease (sampleSystem, fun _ => NULL)
        (waitInRelease ++ [.step false 3]) :=
  owner_at_waits_iff ⟨sampleSystem_fresh, fun _ => rfl⟩ _

/-- A task that is about to park for a mutex that has no owner. -/
theorem wait_without_owner :
    ¬ ∀ s, (mutexMachine true fun mutexes => ∀ m, (mutexes m).svcDelegatesEnabled = 1).Reach s →
      ∀ mutex checkCode, s.pc s.running = some (mutex, .acquireWait checkCode) →
        (s.sched.tcb s.running).state.wait = false → checkCode = s.sched.checkCode →
          (s.sched.mutexes mutex).tcbPointer ≠ NULL := by
  intro h
  obtain ⟨s, hrun, hpc, hwait, hnull⟩ := Machine.exists_run
    (M := mutexMachine true fun mutexes => ∀ m, (mutexes m).svcDelegatesEnabled = 1)
    (P := fun s => s.pc s.running = some (100, .acquireWait s.sched.checkCode) ∧
      (s.sched.tcb s.running).state.wait = false ∧ (s.sched.mutexes 100).tcbPointer = NULL)
    (s := sampleSystem) (e := waitInRelease) (by decide +kernel)
  have hstart : (mutexMachine true fun mutexes => ∀ m, (mutexes m).svcDelegatesEnabled = 1).Reach
      sampleSystem := .init ⟨sampleSystem_fresh, fun _ => rfl⟩
  exact h s (hstart.run hrun) 100 _ hpc hwait rfl hnull

end MutexSystem

end DocetOS
