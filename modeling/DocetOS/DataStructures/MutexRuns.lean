import DocetOS.OS.Waiting
import DocetOS.Lib.Machine

/-!
# Runs of tasks on mutexes

The functions of `mutex.c` step by step: every load, every store, every
LDREX/STREX and every SVC is a step of the running task, and the processor may
be given to another task between any two of them. Any number of tasks work on
any number of mutexes.

The processor has one exclusive monitor: an LDREX sets it for its address; a
STREX, a context switch and a write to the address clear it. A STREX stores only
while the monitor is set, and may fail even then.

The SVCs are the scheduler's callbacks. `inheritance` says whether they do their
part of priority inheritance; what is proved here holds either way. A task with
its WAIT bit set does not run.

The counters `acquires`, `releases` and `notifies`, and `codeRead` (the number
of notifies when a task last read the check code) are history.
-/

namespace DocetOS

/-- Where a task is in a function of `mutex.c`. `yields` tells
`OS_mutex_release` from `OS_mutex_release_noYield`. -/
inductive MutexPc where
  /-- `OS_mutex_acquire`: in front of `OS_checkCode`. -/
  | acquireCode
  | acquireLoad (checkCode : Nat)
  | acquireStore
  | acquireNotify
  | acquireWait (checkCode : Nat)
  /-- `OS_mutex_acquire_non_blocking`: in front of `OS_checkCode`. -/
  | tryCode
  | tryLoad
  | tryStore
  | tryNotify
  /-- `counter++` at the end of both. -/
  | countLoad
  | countStore (counter : Nat)
  /-- `OS_mutex_release`: in front of the test of the owner. -/
  | releaseTest (yields : Bool)
  | releaseCountLoad (yields : Bool)
  | releaseCountStore (yields : Bool) (counter : Nat)
  | releaseCountTest (yields : Bool)
  | releaseClear (yields : Bool)
  | releaseNotify (yields : Bool)
  | releaseYield
deriving DecidableEq, Repr

/-- The functions of `mutex.c`. -/
inductive MutexCall where
  | acquire
  | acquireNonBlocking
  | release
  | releaseNoYield
deriving DecidableEq, Repr

/-- The first step of a function. -/
def MutexCall.entry : MutexCall → MutexPc
  | .acquire => .acquireCode
  | .acquireNonBlocking => .tryCode
  | .release => .releaseTest true
  | .releaseNoYield => .releaseTest false

/-- The tasks, the scheduler and the memory. -/
structure MutexSystem where
  sched : Sched
  monitor : Option Nat
  /-- The mutex a task works on and where it is, `none` outside the functions. -/
  pc : Nat → Option (Nat × MutexPc)
  acquires : Nat → Nat → Nat
  releases : Nat → Nat → Nat
  notifies : Nat
  codeRead : Nat → Nat

inductive MutexEvent where
  /-- The processor goes to `task`. -/
  | switchTo (task : Nat)
  /-- The running task calls a function on a mutex. -/
  | call (mutex : Nat) (function : MutexCall)
  /-- The running task takes its next step; `strexFails` makes a STREX fail,
  `fuel` bounds the loops of an SVC. -/
  | step (strexFails : Bool) (fuel : Nat)

namespace MutexSystem

/-- The running task. -/
def running (s : MutexSystem) : Nat := s.sched.currentTCB

def setPc (s : MutexSystem) (pc : Option (Nat × MutexPc)) : MutexSystem :=
  { s with pc := Function.update s.pc s.running pc }

/-- The running task has returned from an acquire of `mutex`. -/
def countAcquire (s : MutexSystem) (mutex : Nat) : MutexSystem :=
  { s with
      acquires :=
        Function.update s.acquires s.running
          (Function.update (s.acquires s.running) mutex (s.acquires s.running mutex + 1)) }

/-- The running task has returned from a release of `mutex`. -/
def countRelease (s : MutexSystem) (mutex : Nat) : MutexSystem :=
  { s with
      releases :=
        Function.update s.releases s.running
          (Function.update (s.releases s.running) mutex (s.releases s.running mutex + 1)) }

def setTcbPointer (s : MutexSystem) (mutex tcbPointer : Nat) : MutexSystem :=
  { s with sched := s.sched.modifyMutex mutex fun m => { m with tcbPointer } }

def setCounter (s : MutexSystem) (mutex counter : Nat) : MutexSystem :=
  { s with sched := s.sched.modifyMutex mutex fun m => { m with counter } }

/-- STREX of the running task's address to `tcbPointer`; `none` when it fails. -/
def storeExclusive (s : MutexSystem) (mutex : Nat) (strexFails : Bool) : Option MutexSystem :=
  if s.monitor = some mutex ∧ strexFails = false then
    some { s.setTcbPointer mutex s.running with monitor := none }
  else none

/-- The SVC `OS_wait(mutex, checkCode, 1)`. -/
def svcWait (inheritance : Bool) (s : Sched) (fuel mutex checkCode : Nat) : Option Sched :=
  s.waitCallback fuel mutex checkCode (if inheritance then 1 else 0)

/-- The SVC `OS_notify(mutex)`. -/
def svcNotify (inheritance : Bool) (s : Sched) (fuel mutex : Nat) : Option Sched :=
  if inheritance then s.nextCheckCode.notifyCallback fuel mutex
  else some (s.nextCheckCode.wakeAll mutex)

/-- The SVC `OS_notify_resource_aquired(mutex)`. -/
def svcResourceAcquired (inheritance : Bool) (s : Sched) (mutex : Nat) : Sched :=
  if inheritance then s.resourceAcquired mutex else s

/-- The next step of the running task, which works on `mutex` and is at `pc`. -/
def advance (inheritance : Bool) (s : MutexSystem) (strexFails : Bool) (fuel mutex : Nat)
    (pc : MutexPc) : Option MutexSystem :=
  let m := s.sched.mutexes mutex
  let goto (s : MutexSystem) (pc : MutexPc) : MutexSystem := s.setPc (some (mutex, pc))
  let return' (s : MutexSystem) : MutexSystem := s.setPc none
  match pc with
  | .acquireCode =>
    some (goto { s with codeRead := Function.update s.codeRead s.running s.notifies }
      (.acquireLoad s.sched.checkCode))
  | .acquireLoad checkCode =>
    let s := { s with monitor := some mutex }
    if m.tcbPointer = NULL ∨ m.tcbPointer = s.running then some (goto s .acquireStore)
    else some (goto s (.acquireWait checkCode))
  | .acquireStore =>
    match s.storeExclusive mutex strexFails with
    | some s => some (goto s .acquireNotify)
    | none => some (goto { s with monitor := none } .acquireCode)
  | .acquireNotify =>
    if m.svcDelegatesEnabled ≠ 0 then
      some (goto { s with sched := svcResourceAcquired inheritance s.sched mutex } .countLoad)
    else some (goto s .countLoad)
  | .acquireWait checkCode =>
    if m.svcDelegatesEnabled ≠ 0 then
      (svcWait inheritance s.sched fuel mutex checkCode).map fun sched =>
        goto { s with sched, monitor := none } .acquireCode
    else some (goto s .acquireCode)
  | .tryCode => some (goto s .tryLoad)
  | .tryLoad =>
    let s := { s with monitor := some mutex }
    if m.tcbPointer = NULL then some (goto s .tryStore) else some (return' s)
  | .tryStore =>
    match s.storeExclusive mutex strexFails with
    | some s => some (goto s .tryNotify)
    | none => some (return' { s with monitor := none })
  | .tryNotify =>
    some (goto { s with sched := svcResourceAcquired inheritance s.sched mutex } .countLoad)
  | .countLoad => some (goto s (.countStore m.counter))
  | .countStore counter =>
    some (return' ((s.setCounter mutex (wrap (counter + 1))).countAcquire mutex))
  | .releaseTest yields =>
    -- a failed `ASSERT(0)`: the call returns without a change
    if m.tcbPointer ≠ s.running then some (return' (s.countRelease mutex))
    else some (goto s (.releaseCountLoad yields))
  | .releaseCountLoad yields => some (goto s (.releaseCountStore yields m.counter))
  | .releaseCountStore yields counter =>
    some (goto (s.setCounter mutex (decr counter)) (.releaseCountTest yields))
  | .releaseCountTest yields =>
    if m.counter = 0 then some (goto s (.releaseClear yields))
    else some (return' (s.countRelease mutex))
  | .releaseClear yields =>
    let s := { s.setTcbPointer mutex NULL with monitor := none }
    if m.svcDelegatesEnabled ≠ 0 ∧ s.running ≠ NULL then some (goto s (.releaseNotify yields))
    else some (return' (s.countRelease mutex))
  | .releaseNotify yields =>
    (svcNotify inheritance s.sched fuel mutex).map fun sched =>
      let s := { s with sched, notifies := s.notifies + 1, monitor := none }
      if yields then goto s .releaseYield else return' (s.countRelease mutex)
  | .releaseYield =>
    some (return' ({ s with sched := s.sched.yieldCurrent }.countRelease mutex))

def step (inheritance : Bool) (s : MutexSystem) : MutexEvent → Option MutexSystem
  | .switchTo task =>
    if task = NULL ∨ (s.sched.tcb task).state.wait then none
    else some { s with sched := { s.sched with currentTCB := task }, monitor := none }
  | .call mutex function =>
    if (s.sched.tcb s.running).state.wait then none
    else
      match s.pc s.running with
      | none => some (s.setPc (some (mutex, function.entry)))
      | some _ => none
  | .step strexFails fuel =>
    if (s.sched.tcb s.running).state.wait then none
    else
      match s.pc s.running with
      | none => none
      | some (mutex, pc) => s.advance inheritance strexFails fuel mutex pc

/-- Nobody is in a function or waits for anything, and no history. -/
structure Fresh (s : MutexSystem) : Prop where
  pc : ∀ task, s.pc task = none
  acquires : ∀ task mutex, s.acquires task mutex = 0
  releases : ∀ task mutex, s.releases task mutex = 0
  running : s.running ≠ NULL
  checkCode : s.sched.checkCode = wrap s.notifies
  waiting_wf : s.sched.waitingTasksHashTableReasonAsKey.WF
  waiting : s.sched.waiting = 0

end MutexSystem

/-- The runs that begin in a fresh system with mutexes as `start` says. -/
def mutexMachine (inheritance : Bool) (start : (Nat → Mutex) → Prop) :
    Lib.Machine MutexSystem MutexEvent where
  init s := s.Fresh ∧ start s.sched.mutexes
  step := MutexSystem.step inheritance

namespace MutexSystem

/-! ## What a step changes -/

section Frame

variable {s s' : MutexSystem} {inheritance strexFails : Bool} {fuel mutex : Nat} {pc : MutexPc}

/-- What an SVC keeps: the running task and every lock. -/
structure SvcFrame (s s' : Sched) : Prop where
  currentTCB : s'.currentTCB = s.currentTCB
  mutexes : ∀ m, ∃ next, s'.mutexes m = { s.mutexes m with nextAcquiredResource := next }

theorem SvcFrame.refl (s : Sched) : SvcFrame s s := ⟨rfl, fun _ => ⟨_, rfl⟩⟩

theorem SvcFrame.trans {s s' s'' : Sched} (h : SvcFrame s s') (h' : SvcFrame s' s'') :
    SvcFrame s s'' where
  currentTCB := h'.currentTCB.trans h.currentTCB
  mutexes m := by
    obtain ⟨_, hm⟩ := h.mutexes m
    obtain ⟨next, hm'⟩ := h'.mutexes m
    exact ⟨next, by rw [hm', hm]⟩

theorem SvcFrame.tcbPointer {s s' : Sched} (h : SvcFrame s s') (m : Nat) :
    (s'.mutexes m).tcbPointer = (s.mutexes m).tcbPointer := by
  obtain ⟨_, hm⟩ := h.mutexes m
  simp only [hm]

theorem SvcFrame.counter {s s' : Sched} (h : SvcFrame s s') (m : Nat) :
    (s'.mutexes m).counter = (s.mutexes m).counter := by
  obtain ⟨_, hm⟩ := h.mutexes m
  simp only [hm]

theorem SvcFrame.svc {s s' : Sched} (h : SvcFrame s s') (m : Nat) :
    (s'.mutexes m).svcDelegatesEnabled = (s.mutexes m).svcDelegatesEnabled := by
  obtain ⟨_, hm⟩ := h.mutexes m
  simp only [hm]

theorem svcFrame_inherits {s s' : Sched} (h : Sched.Inherits s s') : SvcFrame s s' :=
  ⟨h.currentTCB, h.mutexes⟩

theorem svcWait_cases {s s' : Sched} {fuel mutex checkCode : Nat}
    (h : svcWait inheritance s fuel mutex checkCode = some s') :
    (checkCode ≠ s.checkCode ∧ s' = s) ∨
      (checkCode = s.checkCode ∧ Sched.Inherits (s.park mutex) s') :=
  Sched.waitCallback_cases h

theorem svcNotify_inherits {s s' : Sched} {fuel mutex : Nat}
    (h : svcNotify inheritance s fuel mutex = some s') :
    Sched.Inherits (s.nextCheckCode.wakeAll mutex) s' := by
  simp only [svcNotify] at h
  split at h
  · exact Sched.notifyCallback_inherits h
  · cases h
    exact .refl _

theorem svcWait_frame {s s' : Sched} {fuel mutex checkCode : Nat}
    (h : svcWait inheritance s fuel mutex checkCode = some s') : SvcFrame s s' := by
  rcases svcWait_cases h with ⟨-, rfl⟩ | ⟨-, hi⟩
  · exact .refl _
  · have hpark : SvcFrame s (s.park mutex) := ⟨rfl, fun _ => ⟨_, rfl⟩⟩
    exact hpark.trans (svcFrame_inherits hi)

theorem svcNotify_frame {s s' : Sched} {fuel mutex : Nat}
    (h : svcNotify inheritance s fuel mutex = some s') : SvcFrame s s' := by
  have hwakes : SvcFrame s (s.nextCheckCode.wakeAll mutex) := by
    rw [(s.nextCheckCode.wakeAll_wakes mutex).rest]
    exact ⟨rfl, fun _ => ⟨_, rfl⟩⟩
  exact hwakes.trans (svcFrame_inherits (svcNotify_inherits h))

theorem svcResourceAcquired_frame (inheritance : Bool) (s : Sched) (mutex : Nat) :
    SvcFrame s (svcResourceAcquired inheritance s mutex) := by
  unfold svcResourceAcquired
  split
  · exact svcFrame_inherits (s.resourceAcquired_inherits mutex)
  · exact .refl s

/-- What a step of the running task on `mutex` changes apart from its place. -/
structure Effects (mutex : Nat) (s s' : MutexSystem) : Prop where
  running : s'.running = s.running
  pc : s'.pc = s.pc
  acquires : ∀ t m, t ≠ s.running ∨ m ≠ mutex → s'.acquires t m = s.acquires t m
  releases : ∀ t m, t ≠ s.running ∨ m ≠ mutex → s'.releases t m = s.releases t m
  tcbPointer : ∀ m, m ≠ mutex → (s'.sched.mutexes m).tcbPointer = (s.sched.mutexes m).tcbPointer
  counter : ∀ m, m ≠ mutex → (s'.sched.mutexes m).counter = (s.sched.mutexes m).counter
  svc : ∀ m, (s'.sched.mutexes m).svcDelegatesEnabled = (s.sched.mutexes m).svcDelegatesEnabled

theorem Effects.refl (mutex : Nat) (s : MutexSystem) : Effects mutex s s where
  running := rfl
  pc := rfl
  acquires _ _ _ := rfl
  releases _ _ _ := rfl
  tcbPointer _ _ := rfl
  counter _ _ := rfl
  svc _ := rfl

theorem Effects.trans {s'' : MutexSystem} (h : Effects mutex s s') (h' : Effects mutex s' s'') :
    Effects mutex s s'' where
  running := h'.running.trans h.running
  pc := h'.pc.trans h.pc
  acquires t m hne := (h'.acquires t m (h.running ▸ hne)).trans (h.acquires t m hne)
  releases t m hne := (h'.releases t m (h.running ▸ hne)).trans (h.releases t m hne)
  tcbPointer m hne := (h'.tcbPointer m hne).trans (h.tcbPointer m hne)
  counter m hne := (h'.counter m hne).trans (h.counter m hne)
  svc m := (h'.svc m).trans (h.svc m)

/-- The monitor, the check code read and the number of notifies are no effects. -/
theorem effects_ghost (mutex : Nat) (s : MutexSystem) (monitor : Option Nat) (notifies : Nat)
    (codeRead : Nat → Nat) : Effects mutex s { s with monitor, notifies, codeRead } :=
  { Effects.refl mutex s with }

theorem effects_svc (mutex : Nat) (s : MutexSystem) {sched : Sched} (h : SvcFrame s.sched sched) :
    Effects mutex s { s with sched } :=
  { Effects.refl mutex s with
    running := h.currentTCB
    tcbPointer := fun m _ => h.tcbPointer m
    counter := fun m _ => h.counter m
    svc := h.svc }

theorem effects_setTcbPointer (mutex : Nat) (s : MutexSystem) (tcbPointer : Nat) :
    Effects mutex s (s.setTcbPointer mutex tcbPointer) :=
  { Effects.refl mutex s with
    tcbPointer := fun m hne => by simp [setTcbPointer, Sched.modifyMutex, hne]
    counter := fun m hne => by simp [setTcbPointer, Sched.modifyMutex, hne]
    svc := fun m => by
      by_cases h : m = mutex
      · subst h
        simp [setTcbPointer, Sched.modifyMutex]
      · simp [setTcbPointer, Sched.modifyMutex, h] }

theorem effects_setCounter (mutex : Nat) (s : MutexSystem) (counter : Nat) :
    Effects mutex s (s.setCounter mutex counter) :=
  { Effects.refl mutex s with
    tcbPointer := fun m hne => by simp [setCounter, Sched.modifyMutex, hne]
    counter := fun m hne => by simp [setCounter, Sched.modifyMutex, hne]
    svc := fun m => by
      by_cases h : m = mutex
      · subst h
        simp [setCounter, Sched.modifyMutex]
      · simp [setCounter, Sched.modifyMutex, h] }

theorem effects_countAcquire (mutex : Nat) (s : MutexSystem) :
    Effects mutex s (s.countAcquire mutex) :=
  { Effects.refl mutex s with
    acquires := fun t m hne => by
      by_cases ht : t = s.running
      · subst ht
        simp [countAcquire, hne.resolve_left fun h => h rfl]
      · simp [countAcquire, ht] }

theorem effects_countRelease (mutex : Nat) (s : MutexSystem) :
    Effects mutex s (s.countRelease mutex) :=
  { Effects.refl mutex s with
    releases := fun t m hne => by
      by_cases ht : t = s.running
      · subst ht
        simp [countRelease, hne.resolve_left fun h => h rfl]
      · simp [countRelease, ht] }

theorem storeExclusive_effects (h : s.storeExclusive mutex strexFails = some s') :
    Effects mutex s s' := by
  unfold storeExclusive at h
  split at h
  · cases h
    exact (effects_setTcbPointer mutex s _).trans (effects_ghost mutex _ none _ _)
  · cases h

/-- The next place of a task on `mutex`. -/
def goTo (s : MutexSystem) (mutex : Nat) (pc : Option MutexPc) : MutexSystem :=
  s.setPc (pc.map fun pc => (mutex, pc))

theorem advance_effects (h : s.advance inheritance strexFails fuel mutex pc = some s') :
    ∃ x pc', Effects mutex s x ∧ s' = x.goTo mutex pc' := by
  cases pc <;> simp only [advance] at h
  case acquireCode =>
    cases h
    exact ⟨_, some _, effects_ghost mutex s _ _ _, rfl⟩
  case acquireLoad checkCode =>
    split at h <;> cases h
    · exact ⟨_, some _, effects_ghost mutex s _ _ _, rfl⟩
    · exact ⟨_, some _, effects_ghost mutex s _ _ _, rfl⟩
  case acquireStore =>
    split at h
    · rename_i x hstore
      cases h
      exact ⟨x, some _, storeExclusive_effects hstore, rfl⟩
    · cases h
      exact ⟨_, some _, effects_ghost mutex s _ _ _, rfl⟩
  case acquireNotify =>
    split at h <;> cases h
    · exact ⟨_, some _, effects_svc mutex s (svcResourceAcquired_frame _ _ _), rfl⟩
    · exact ⟨_, some _, .refl mutex s, rfl⟩
  case acquireWait checkCode =>
    split at h
    · obtain ⟨sched, hwait, rfl⟩ := Option.map_eq_some_iff.mp h
      exact ⟨_, some _, (effects_svc mutex s (svcWait_frame hwait)).trans
        (effects_ghost mutex _ none _ _), rfl⟩
    · cases h
      exact ⟨_, some _, .refl mutex s, rfl⟩
  case tryCode =>
    cases h
    exact ⟨_, some _, .refl mutex s, rfl⟩
  case tryLoad =>
    split at h <;> cases h
    · exact ⟨_, some _, effects_ghost mutex s _ _ _, rfl⟩
    · exact ⟨_, none, effects_ghost mutex s _ _ _, rfl⟩
  case tryStore =>
    split at h
    · rename_i x hstore
      cases h
      exact ⟨x, some _, storeExclusive_effects hstore, rfl⟩
    · cases h
      exact ⟨_, none, effects_ghost mutex s _ _ _, rfl⟩
  case tryNotify =>
    cases h
    exact ⟨_, some _, effects_svc mutex s (svcResourceAcquired_frame _ _ _), rfl⟩
  case countLoad =>
    cases h
    exact ⟨_, some _, .refl mutex s, rfl⟩
  case countStore counter =>
    cases h
    exact ⟨_, none, (effects_setCounter mutex s _).trans (effects_countAcquire mutex _), rfl⟩
  case releaseTest yields =>
    split at h <;> cases h
    · exact ⟨_, none, effects_countRelease mutex s, rfl⟩
    · exact ⟨_, some _, .refl mutex s, rfl⟩
  case releaseCountLoad yields =>
    cases h
    exact ⟨_, some _, .refl mutex s, rfl⟩
  case releaseCountStore yields counter =>
    cases h
    exact ⟨_, some _, effects_setCounter mutex s _, rfl⟩
  case releaseCountTest yields =>
    split at h <;> cases h
    · exact ⟨_, some _, .refl mutex s, rfl⟩
    · exact ⟨_, none, effects_countRelease mutex s, rfl⟩
  case releaseClear yields =>
    -- the pointer is cleared, whether a notify follows or not
    have hclear : Effects mutex s
        { s.setTcbPointer mutex NULL with monitor := none } :=
      (effects_setTcbPointer mutex s NULL).trans (effects_ghost mutex _ none _ _)
    split at h <;> cases h
    · exact ⟨_, some _, hclear, rfl⟩
    · exact ⟨_, none, hclear.trans (effects_countRelease mutex _), rfl⟩
  case releaseNotify yields =>
    obtain ⟨sched, hnotify, rfl⟩ := Option.map_eq_some_iff.mp h
    have hsvc : Effects mutex s
        { s with sched, notifies := s.notifies + 1, monitor := none } :=
      (effects_svc mutex s (svcNotify_frame hnotify)).trans (effects_ghost mutex _ none _ _)
    split
    · exact ⟨_, some _, hsvc, rfl⟩
    · exact ⟨_, none, hsvc.trans (effects_countRelease mutex _), rfl⟩
  case releaseYield =>
    have hyield : SvcFrame s.sched s.sched.yieldCurrent := ⟨rfl, fun _ => ⟨_, rfl⟩⟩
    cases h
    exact ⟨_, none, (effects_svc mutex s hyield).trans (effects_countRelease mutex _), rfl⟩

/-- What a step of the machine is. -/
theorem step_cases {e : MutexEvent} (h : s.step inheritance e = some s') :
    (∃ task, e = .switchTo task ∧ task ≠ NULL ∧
      s' = { s with sched := { s.sched with currentTCB := task }, monitor := none }) ∨
    (∃ mutex function, e = .call mutex function ∧ s.pc s.running = none ∧
      s' = s.goTo mutex (some function.entry)) ∨
    (∃ strexFails fuel mutex pc, e = .step strexFails fuel ∧
      s.pc s.running = some (mutex, pc) ∧ (s.sched.tcb s.running).state.wait = false ∧
      s.advance inheritance strexFails fuel mutex pc = some s') := by
  cases e with
  | switchTo task =>
    simp only [step] at h
    split at h
    · cases h
    · rename_i hok
      cases h
      exact .inl ⟨task, rfl, fun hnull => hok (.inl hnull), rfl⟩
  | call mutex function =>
    simp only [step] at h
    split at h
    · cases h
    · split at h
      · rename_i hpc
        cases h
        exact .inr (.inl ⟨mutex, function, rfl, hpc, rfl⟩)
      · cases h
  | step strexFails fuel =>
    simp only [step] at h
    split at h
    · cases h
    · rename_i hwait
      split at h
      · cases h
      · rename_i mutex pc hpc
        exact .inr (.inr ⟨strexFails, fuel, mutex, pc, rfl, hpc, by simpa using hwait, h⟩)

end Frame

/-! ## A system to try runs on -/

/-- Task 7 runs. -/
def sampleSystem : MutexSystem where
  sched := .sampleSched 7
  monitor := none
  pc _ := none
  acquires _ _ := 0
  releases _ _ := 0
  notifies := 0
  codeRead _ := 0

theorem sampleSystem_fresh : sampleSystem.Fresh where
  pc _ := rfl
  acquires _ _ := rfl
  releases _ _ := rfl
  running := by decide
  checkCode := rfl
  waiting_wf := Hashtable.newHashtable_wf (by decide) (by decide) _ _
  waiting := Hashtable.newHashtable_content _ _

/-- The steps of an `OS_mutex_acquire` that gets the mutex. -/
def acquireEvents (mutex : Nat) : List MutexEvent :=
  .call mutex .acquire :: List.replicate 6 (.step false 0)

end MutexSystem

end DocetOS
