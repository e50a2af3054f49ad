import DocetOS.DataStructures.MutexMoves
import DocetOS.Lib.EventCount

/-!
# No lost wake-up on a mutex

A task that finds a mutex taken reads the check code, looks at the owner and
calls `OS_wait` in three steps; the owner writes `NULL` and calls `OS_notify` in
two. A task is never left parked for a mutex that is free and that nobody is
going to notify.

The check code is an event count: `OS_notify` moves it and `OS_wait` refuses to
park when it has moved. A waiter is covered while the mutex has an owner or a
task stands in front of its `OS_notify`. The code is a word, so fewer than
`2 ^ 32` notifies come between reading it and the `OS_wait` (`Timely`).
-/

namespace DocetOS

namespace MutexSystem

open Lib Sched

/-- The mutex has an owner, or a task has cleared it and is about to notify. -/
def Covered (s : MutexSystem) (mutex : Nat) : Prop :=
  (s.sched.mutexes mutex).tcbPointer ≠ NULL ∨
    ∃ task yields, s.pc task = some (mutex, .releaseNotify yields)

/-- The task has seen an owner and is in front of its `OS_wait`. -/
def AboutToWait (s : MutexSystem) (mutex task : Nat) : Prop :=
  ∃ checkCode, s.pc task = some (mutex, .acquireWait checkCode)

/-- The next step of the running task is its `OS_wait`. -/
def waitsNext (s : MutexSystem) : Bool :=
  match s.pc s.running with
  | some (_, .acquireWait _) => true
  | _ => false

/-- Fewer than `2 ^ 32` notifies since a task that calls `OS_wait` has read the
check code. -/
def Timely (s : MutexSystem) : MutexEvent → Prop
  | .step _ _ => s.waitsNext = true → s.notifies - s.codeRead s.running < 4294967296
  | _ => True

instance (s : MutexSystem) : (e : MutexEvent) → Decidable (Timely s e)
  | .switchTo _ => inferInstanceAs (Decidable True)
  | .call _ _ => inferInstanceAs (Decidable True)
  | .step _ _ => inferInstanceAs (Decidable (_ = true → _))

/-- The invariant. -/
structure Wakeful (s : MutexSystem) : Prop where
  running : s.running ≠ NULL
  svc : ∀ m, (s.sched.mutexes m).svcDelegatesEnabled = 1
  parked : Parked s.sched
  checkCode : s.sched.checkCode = wrap s.notifies
  codes : ∀ task m code, s.pc task = some (m, .acquireLoad code) ∨
    s.pc task = some (m, .acquireWait code) →
      code = wrap (s.codeRead task) ∧ s.codeRead task ≤ s.notifies
  safe : EventCount.Safe (fun m _ => s.Covered m) (fun m task => (m, task) ∈ s.sched.waiting)
    s.AboutToWait s.codeRead s.notifies

section Steps

variable {s s' x : MutexSystem} {mutex : Nat} {inheritance strexFails : Bool} {fuel : Nat}
  {pc : MutexPc}

/-- A step keeps every mutex covered that is not covered by the notify the
running task executes. -/
theorem Covered.goTo {pc' : Option MutexPc} (hx : Effects mutex s x)
    (hpointer : (s.sched.mutexes mutex).tcbPointer ≠ NULL →
      (x.sched.mutexes mutex).tcbPointer ≠ NULL ∨ ∃ yields, pc' = some (.releaseNotify yields))
    {m : Nat} (hnot : ∀ yields, s.pc s.running ≠ some (m, .releaseNotify yields))
    (h : s.Covered m) : (x.goTo mutex pc').Covered m := by
  rcases h with hne | ⟨task, yields, htask⟩
  · by_cases heq : m = mutex
    · subst heq
      rcases hpointer hne with hne' | ⟨yields, rfl⟩
      · exact .inl hne'
      · exact .inr ⟨x.running, yields, goTo_pc_running x m _⟩
    · refine .inl ?_
      show (x.sched.mutexes m).tcbPointer ≠ NULL
      rwa [hx.tcbPointer m heq]
  · have hne : task ≠ x.running := by
      rintro rfl
      exact hnot yields (hx.running ▸ htask)
    exact .inr ⟨task, yields, by rw [goTo_pc_of_ne x mutex _ hne, hx.pc, htask]⟩

theorem Wakeful.goTo (h : Wakeful s) (pc' : Option MutexPc) (hx : Effects mutex s x)
    (hparked : Parked x.sched) (hcheck : x.sched.checkCode = wrap x.notifies)
    (hnotifies : s.notifies ≤ x.notifies)
    (hread : ∀ task, task ≠ s.running → x.codeRead task = s.codeRead task)
    (hcodes : ∀ code, pc' = some (.acquireLoad code) ∨ pc' = some (.acquireWait code) →
      code = wrap (x.codeRead s.running) ∧ x.codeRead s.running ≤ x.notifies)
    (hsafe : EventCount.Safe (fun m _ => (x.goTo mutex pc').Covered m)
      (fun m task => (m, task) ∈ x.sched.waiting) (x.goTo mutex pc').AboutToWait
      x.codeRead x.notifies) :
    Wakeful (x.goTo mutex pc') where
  running := by
    show x.running ≠ NULL
    rw [hx.running]
    exact h.running
  svc m := (hx.svc m).trans (h.svc m)
  parked := hparked
  checkCode := hcheck
  codes task m code hcode := by
    show code = wrap (x.codeRead task) ∧ x.codeRead task ≤ x.notifies
    -- the others have read what they had read, and there may have been notifications since
    have hother : task ≠ s.running → (s.pc task = some (m, .acquireLoad code) ∨
        s.pc task = some (m, .acquireWait code)) →
        code = wrap (x.codeRead task) ∧ x.codeRead task ≤ x.notifies := by
      intro ht hp
      rw [hread task ht]
      obtain ⟨heq, hle⟩ := h.codes task m code hp
      exact ⟨heq, hle.trans hnotifies⟩
    rcases hcode with hcode | hcode <;>
      rcases goTo_pc_cases hx hcode with ⟨ht, hp⟩ | ⟨rfl, pc₁, hpc₁, heq⟩
    · exact hother ht (.inl hp)
    · cases heq
      exact hcodes code (.inl hpc₁)
    · exact hother ht (.inr hp)
    · cases heq
      exact hcodes code (.inr hpc₁)
  safe := hsafe

/-- A step that parks nobody and notifies nobody keeps the invariant. -/
theorem Wakeful.move (h : Wakeful s) (pc' : Option MutexPc) (hx : Effects mutex s x)
    (hnot : ∀ m yields, s.pc s.running ≠ some (m, .releaseNotify yields))
    (hparked : Parked x.sched) (hwaiting : x.sched.waiting = s.sched.waiting)
    (hcheck : x.sched.checkCode = s.sched.checkCode) (hnotifies : x.notifies = s.notifies)
    (hread : ∀ task, task ≠ s.running → x.codeRead task = s.codeRead task)
    (hpointer : (s.sched.mutexes mutex).tcbPointer ≠ NULL →
      (x.sched.mutexes mutex).tcbPointer ≠ NULL ∨ ∃ yields, pc' = some (.releaseNotify yields))
    (hcodes : ∀ code, pc' = some (.acquireLoad code) ∨ pc' = some (.acquireWait code) →
      code = wrap (x.codeRead s.running) ∧ x.codeRead s.running ≤ s.notifies)
    (hwindow : ∀ code, pc' = some (.acquireWait code) →
      (s.sched.mutexes mutex).tcbPointer ≠ NULL ∧ x.codeRead s.running = s.codeRead s.running) :
    Wakeful (x.goTo mutex pc') := by
  refine h.goTo pc' hx hparked (by rw [hcheck, hnotifies, h.checkCode]) hnotifies.ge hread
    (by rwa [hnotifies]) ?_
  rw [hwaiting, hnotifies]
  have hcovered : ∀ m, s.Covered m → (x.goTo mutex pc').Covered m := fun m hm =>
    hm.goTo hx hpointer (hnot m)
  by_cases hwait : ∃ code, pc' = some (.acquireWait code)
  · -- the task opens its window: it has just seen an owner
    obtain ⟨code, rfl⟩ := hwait
    obtain ⟨howner, hsame⟩ := hwindow code rfl
    have hopen : ∀ m task, (x.goTo mutex (some (.acquireWait code))).AboutToWait m task →
        s.AboutToWait m task ∨ (m = mutex ∧ task = s.running) := by
      rintro m task ⟨code', hcode'⟩
      rcases goTo_pc_cases hx hcode' with ⟨-, hp⟩ | ⟨ht, pc₁, -, heq⟩
      · exact .inl ⟨code', hp⟩
      · cases heq
        exact .inr ⟨rfl, ht⟩
    refine (h.safe.observe mutex s.running (fun _ _ hp => hp) hopen (.inl howner)).mono
      (fun _ _ hp => hp) (fun m task hw => ⟨hw, ?_⟩) fun m _ _ hm => hcovered m hm
    by_cases ht : task = s.running
    · rw [ht, hsame]
    · exact hread task ht
  · refine h.safe.mono (fun _ _ hp => hp) ?_ fun m _ _ hm => hcovered m hm
    rintro m task ⟨code', hcode'⟩
    rcases goTo_pc_cases hx hcode' with ⟨ht, hp⟩ | ⟨-, pc₁, hpc₁, heq⟩
    · exact ⟨⟨code', hp⟩, hread task ht⟩
    · cases heq
      exact absurd ⟨code', hpc₁⟩ hwait

/-- Tasks that leave the functions, or go on to a place where no code is kept. -/
theorem Wakeful.plain (h : Wakeful s) (pc' : Option MutexPc) (hx : Effects mutex s x)
    (hnot : ∀ m yields, s.pc s.running ≠ some (m, .releaseNotify yields))
    (hparked : Parked x.sched) (hwaiting : x.sched.waiting = s.sched.waiting)
    (hcheck : x.sched.checkCode = s.sched.checkCode) (hnotifies : x.notifies = s.notifies)
    (hread : x.codeRead = s.codeRead)
    (hpointer : (s.sched.mutexes mutex).tcbPointer ≠ NULL →
      (x.sched.mutexes mutex).tcbPointer ≠ NULL ∨ ∃ yields, pc' = some (.releaseNotify yields))
    (hplain : ∀ code, pc' ≠ some (.acquireLoad code) ∧ pc' ≠ some (.acquireWait code)) :
    Wakeful (x.goTo mutex pc') := by
  refine h.move pc' hx hnot hparked hwaiting hcheck hnotifies (fun _ _ => by rw [hread])
    hpointer ?_ fun code hcode => absurd hcode (hplain code).2
  rintro code (hcode | hcode)
  · exact absurd hcode (hplain code).1
  · exact absurd hcode (hplain code).2

/-- The `OS_wait` of a task that has seen an owner. -/
theorem Wakeful.wait (h : Wakeful s) {checkCode : Nat} {sched : Sched}
    (hpc : s.pc s.running = some (mutex, .acquireWait checkCode))
    (hwait : (s.sched.tcb s.running).state.wait = false)
    (htimely : s.notifies - s.codeRead s.running < 4294967296)
    (hs : svcWait inheritance s.sched fuel mutex checkCode = some sched) :
    Wakeful ({ s with sched, monitor := none }.goTo mutex (some .acquireCode)) := by
  have hsvc := svcWait_frame hs
  have hx : Effects mutex s { s with sched, monitor := none } :=
    (effects_svc mutex s hsvc).trans (effects_ghost mutex _ none _ _)
  rcases svcWait_cases hs with ⟨-, rfl⟩ | ⟨hcode, hi⟩
  · -- a notify has come in between, and nobody is parked
    exact h.plain (some .acquireCode) hx (not_notify hpc (by simp)) h.parked
      rfl rfl rfl rfl .inl
      fun _ => ⟨by simp, by simp⟩
  · obtain ⟨hread, hle⟩ := h.codes _ _ _ (.inr hpc)
    have hcheck : sched.checkCode = s.sched.checkCode := hi.checkCode
    refine h.goTo (some .acquireCode) hx ((h.parked.park h.running hwait mutex).inherits hi)
      (hcheck.trans h.checkCode) le_rfl (fun _ _ => rfl) (by rintro code (hc | hc) <;> cases hc) ?_
    have hcovered : ∀ m, s.Covered m →
        ({ s with sched, monitor := none }.goTo mutex (some .acquireCode)).Covered m := fun m hm =>
      hm.goTo hx (fun hne => .inl (by rwa [hsvc.tcbPointer])) (not_notify hpc (by simp) m)
    have hparks : ∀ m task, (m, task) ∈ sched.waiting →
        (m, task) ∈ s.sched.waiting ∨ (m = mutex ∧ task = s.running) := by
      intro m task hmem
      rw [hi.waiting] at hmem
      rcases (park_waiting h.parked.wf mutex).2 with hw | hw
      · exact .inl (hw ▸ hmem)
      · rw [hw, Multiset.mem_cons, Prod.mk.injEq] at hmem
        exact hmem.symm
    have hwindows : ∀ m task,
        ({ s with sched, monitor := none }.goTo mutex (some .acquireCode)).AboutToWait m task →
          s.AboutToWait m task := by
      rintro m task ⟨code, hp⟩
      rcases goTo_pc_cases hx hp with ⟨-, hp⟩ | ⟨-, pc₁, hpc₁, heq⟩
      · exact ⟨code, hp⟩
      · cases hpc₁
        cases heq
    -- the check code shows that the task's window is still open
    have hsafe := h.safe.park ⟨checkCode, hpc⟩ hle htimely
      (show wrap _ = wrap _ by rw [← hread, hcode, h.checkCode]) hparks hwindows
    exact hsafe.mono (fun _ _ hp => hp) (fun _ _ hw => ⟨hw, rfl⟩) fun m _ _ hm => hcovered m hm

/-- The `OS_notify` of a task that has cleared the mutex. -/
theorem Wakeful.notify (h : Wakeful s) (pc' : Option MutexPc) {yields : Bool} {sched : Sched}
    (hpc : s.pc s.running = some (mutex, .releaseNotify yields))
    (hs : svcNotify inheritance s.sched fuel mutex = some sched)
    (hx : Effects mutex s x) (hsched : x.sched = sched) (hnotifies : x.notifies = s.notifies + 1)
    (hread : x.codeRead = s.codeRead)
    (hplain : ∀ code, pc' ≠ some (.acquireLoad code) ∧ pc' ≠ some (.acquireWait code)) :
    Wakeful (x.goTo mutex pc') := by
  subst hsched
  have hi := svcNotify_inherits hs
  obtain ⟨hparked, hwaiting⟩ := h.parked.nextCheckCode.wakeAll mutex
  -- `OS_notify` increments the check code, and `notifies` counts it without wrapping
  have hcheck : x.sched.checkCode = wrap (s.notifies + 1) := by
    rw [hi.checkCode, (s.sched.nextCheckCode.wakeAll_wakes mutex).checkCode]
    show wrap (s.sched.checkCode + 1) = _
    rw [h.checkCode]
    simp [wrap]
  refine h.goTo pc' hx (hparked.inherits hi) (by rw [hcheck, hnotifies]) (by omega)
    (fun _ _ => by rw [hread]) ?_ ?_
  · rintro code (hcode | hcode)
    · exact absurd hcode (hplain code).1
    · exact absurd hcode (hplain code).2
  · rw [hnotifies, hread]
    -- the running task leaves `OS_notify`, so it is not about to wait
    have hwindows : ∀ m task, (x.goTo mutex pc').AboutToWait m task → s.AboutToWait m task := by
      rintro m task ⟨code, hp⟩
      rcases goTo_pc_cases hx hp with ⟨-, hp⟩ | ⟨-, pc₁, hpc₁, heq⟩
      · exact ⟨code, hp⟩
      · cases heq
        exact absurd hpc₁ (hplain code).2
    refine h.safe.notify mutex ?_ ?_ ?_
    · intro m task hmem
      rw [hi.waiting, hwaiting, Multiset.mem_filter] at hmem
      exact hmem
    · intro m task hw
      obtain ⟨code, hp⟩ := hwindows m task hw
      exact (h.codes task m code (.inr hp)).2
    · intro m task hne hm
      refine hm.goTo hx (fun hne => .inl (by rwa [(svcNotify_frame hs).tcbPointer])) ?_
      intro yields' heq
      rw [hpc] at heq
      cases heq
      exact hne rfl

/-- A store to `tcbPointer`: the owner's, or `NULL` in front of an `OS_notify`. -/
theorem Wakeful.store (h : Wakeful s) (pc' : MutexPc) (tcbPointer : Nat)
    (hnot : ∀ m yields, s.pc s.running ≠ some (m, .releaseNotify yields))
    (hpointer : tcbPointer ≠ NULL ∨ ∃ yields, pc' = .releaseNotify yields)
    (hplain : ∀ code, pc' ≠ .acquireLoad code ∧ pc' ≠ .acquireWait code) :
    Wakeful ({ s.setTcbPointer mutex tcbPointer with monitor := none }.goTo mutex (some pc')) := by
  have hp := h.parked
  refine h.plain (some pc')
    ((effects_setTcbPointer mutex s _).trans (effects_ghost mutex _ none _ _))
    hnot ⟨hp.wf, hp.once, hp.wait, hp.not_null⟩ rfl rfl rfl rfl ?_ ?_
  · intro _
    refine hpointer.imp ?_ fun ⟨yields, hyields⟩ => ⟨yields, congrArg some hyields⟩
    intro hne
    simpa [setTcbPointer, modifyMutex] using hne
  · intro code
    rw [Ne, Option.some.injEq, Ne, Option.some.injEq]
    exact hplain code

/-- The SVC after an acquire. -/
theorem Wakeful.resourceAcquired (h : Wakeful s) (pc' : Option MutexPc)
    (hnot : ∀ m yields, s.pc s.running ≠ some (m, .releaseNotify yields))
    (hplain : ∀ code, pc' ≠ some (.acquireLoad code) ∧ pc' ≠ some (.acquireWait code)) :
    Wakeful ({ s with sched := svcResourceAcquired inheritance s.sched mutex }.goTo mutex pc') := by
  have hsvc := svcResourceAcquired_frame inheritance s.sched mutex
  have hi : Inherits s.sched (svcResourceAcquired inheritance s.sched mutex) := by
    unfold svcResourceAcquired
    split
    · exact s.sched.resourceAcquired_inherits mutex
    · exact .refl _
  exact h.plain pc' (effects_svc mutex s hsvc) hnot (h.parked.inherits hi) hi.waiting
    hi.checkCode rfl rfl (fun hne => .inl (by rwa [hsvc.tcbPointer])) hplain

/-- **Every step of a function keeps the invariant.** -/
theorem Wakeful.advance (h : Wakeful s) (hpc : s.pc s.running = some (mutex, pc))
    (hwait : (s.sched.tcb s.running).state.wait = false)
    (htimely : Timely s (.step strexFails fuel))
    (hs : s.advance inheritance strexFails fuel mutex pc = some s') : Wakeful s' := by
  obtain ⟨x, pc', hmove, rfl⟩ := advance_move (by rw [h.svc]; decide) h.running hs
  cases hmove with
  | quiet hquiet hwrites hquiet' hx hsched hnotifies hread hload =>
    refine h.move pc' hx (not_notify hpc ?_) (hsched.parked h.parked) hsched.waiting
      hsched.checkCode hnotifies hread (fun hne => .inl (by rwa [hsched.tcbPointer])) ?_ ?_
    · rintro yields rfl
      cases hquiet
    · rintro code (hcode | hcode)
      · obtain ⟨rfl, hread'⟩ := hload code hcode
        rw [hread', h.checkCode]
        exact ⟨rfl, le_rfl⟩
      · cases hquiet' _ hcode
    · intro code hcode
      cases hquiet' _ hcode
  | see checkCode hnull hother =>
    refine h.move (some _) (effects_ghost mutex s (some mutex) _ _) (not_notify hpc (by simp))
      h.parked rfl rfl rfl (fun _ _ => rfl) .inl ?_ fun _ _ => ⟨hnull, rfl⟩
    rintro code (hcode | hcode) <;> cases hcode
    exact h.codes _ _ _ (.inl hpc)
  | store hplace hwrites hmonitor =>
    rcases hplace with ⟨rfl, rfl⟩ | ⟨rfl, rfl⟩
    · exact h.store .acquireNotify _ (not_notify hpc (by simp)) (.inl h.running)
        fun _ => ⟨by simp, by simp⟩
    · exact h.store .tryNotify _ (not_notify hpc (by simp)) (.inl h.running)
        fun _ => ⟨by simp, by simp⟩
  | acquired hplace =>
    refine h.resourceAcquired (some _) (not_notify hpc ?_) fun _ => ⟨by simp, by simp⟩
    rcases hplace with rfl | rfl <;> simp
  | wait hsvc => exact h.wait hpc hwait (htimely (by simp [waitsNext, hpc])) hsvc
  | clear yields =>
    -- from here on the mutex is covered by the coming notify
    exact h.store (.releaseNotify yields) _ (not_notify hpc (by simp)) (.inr ⟨yields, rfl⟩)
      fun _ => ⟨by simp, by simp⟩
  | notify hpc' hsvc hx hnotifies hread =>
    refine h.notify pc' hpc hsvc hx rfl hnotifies hread fun code => ⟨?_, ?_⟩ <;>
    · intro hcode
      cases hpc' _ hcode

/-- **Every step of the machine keeps the invariant.** -/
theorem Wakeful.step {e : MutexEvent} (h : Wakeful s) (htimely : Timely s e)
    (hs : s.step inheritance e = some s') : Wakeful s' := by
  rcases step_cases hs with ⟨task, rfl, hnull, rfl⟩ | ⟨m, function, rfl, hpc, rfl⟩ |
    ⟨strexFails, fuel, m, pc, rfl, hpc, hwait, hadvance⟩
  · exact
      { running := hnull
        svc := h.svc
        parked := ⟨h.parked.wf, h.parked.once, h.parked.wait, h.parked.not_null⟩
        checkCode := h.checkCode
        codes := h.codes
        safe := h.safe }
  · refine h.plain _ (.refl m s) (fun _ _ => by simp [hpc]) h.parked rfl rfl rfl rfl .inl ?_
    intro code
    cases function <;> constructor <;> intro hcode <;> cases hcode
  · exact h.advance hpc hwait htimely hadvance

end Steps

/-! ## The result -/

/-- The runs on mutexes that call the scheduler. -/
def wakeupMachine (inheritance : Bool) : Lib.Machine MutexSystem MutexEvent :=
  (mutexMachine inheritance fun mutexes => ∀ m, (mutexes m).svcDelegatesEnabled = 1).guard Timely

theorem Fresh.wakeful {s : MutexSystem} (h : s.Fresh)
    (hsvc : ∀ m, (s.sched.mutexes m).svcDelegatesEnabled = 1) : Wakeful s where
  running := h.running
  svc := hsvc
  parked := .of_none h.waiting_wf h.waiting
  checkCode := h.checkCode
  codes := by simp [h.pc]
  safe :=
    { parked := by simp [h.waiting]
      window := by
        rintro m task ⟨code, hcode⟩
        rw [h.pc] at hcode
        cases hcode }

/-- **No lost wake-up**: while a task is parked for a mutex, the mutex has an
owner or a task that has cleared it is about to notify. -/
theorem mutex_no_lost_wakeup (inheritance : Bool) {s : MutexSystem}
    (h : (wakeupMachine inheritance).Reach s) {mutex task : Nat}
    (hparked : (mutex, task) ∈ s.sched.waiting) :
    (s.sched.mutexes mutex).tcbPointer ≠ NULL ∨
      ∃ releaser yields, s.pc releaser = some (mutex, .releaseNotify yields) := by
  have hinv : Wakeful s := by
    refine h.invariant ?_ ?_
    · intro s hs
      exact Fresh.wakeful hs.1 hs.2
    · intro s e s' hs hstep
      obtain ⟨htimely, hstep⟩ := Lib.Machine.guard_step_iff.mp hstep
      exact hs.step htimely hstep
  exact hinv.safe.parked mutex task hparked

/-- Task 8 waits for the mutex task 7 holds, and task 7 has cleared it. -/
def releasedWhileParked : List MutexEvent :=
  acquireEvents 100 ++ .switchTo 8 :: .call 100 .acquire :: List.replicate 3 (.step false 3) ++
    .switchTo 7 :: .call 100 .release :: List.replicate 5 (.step false 3)

theorem mutex_no_lost_wakeup_releasedWhileParked :
    ∃ s, (wakeupMachine true).run sampleSystem releasedWhileParked = some s ∧
      (100, 8) ∈ s.sched.waiting ∧ ((s.sched.mutexes 100).tcbPointer ≠ NULL ∨
        ∃ releaser yields, s.pc releaser = some (100, .releaseNotify yields)) := by
  obtain ⟨s, hs, hparked⟩ := Lib.Machine.exists_run (M := wakeupMachine true)
    (P := fun s => (100, 8) ∈ s.sched.waiting) (s := sampleSystem) (e := releasedWhileParked)
    (by decide +kernel)
  have hstart : (wakeupMachine true).Reach sampleSystem := .init ⟨sampleSystem_fresh, fun _ => rfl⟩
  exact ⟨s, hs, hparked, mutex_no_lost_wakeup true (hstart.run hs) hparked⟩

end MutexSystem

end DocetOS
