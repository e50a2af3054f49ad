import DocetOS.DataStructures.Semaphore
import DocetOS.OS.Waiting
import DocetOS.Lib.EventCount
import DocetOS.Lib.Machine

/-!
# Runs of tasks on a semaphore

The two functions of `semaphore.c` step by step, by any number of tasks on one
semaphore: reading the check code, LDREX, STREX, `OS_wait` and `OS_notify` are
steps of the running task, with a task switch possible between any two. The
SVCs are the scheduler's callbacks, with the address of the semaphore as the
reason. A task with its WAIT bit set does not run.

- `strex_atomic`: a STREX that stores does to the tokens what `Semaphore.pass`
  does in one go.
- `semaphore_no_lost_wakeup`: a task parked although it need not wait any more
  is about to be notified. The check code is an event count as for a mutex, but
  whether a waiter is covered depends on the function it is in.
-/

namespace DocetOS

/-- Where a task is in a function of `semaphore.c`. -/
inductive SemaphorePc where
  /-- The head of the loop, in front of `OS_checkCode`. -/
  | code
  | load (checkCode : Nat)
  | store (tokens : Nat)
  | wait (checkCode : Nat)
  | notify
deriving DecidableEq, Repr

structure SemaphoreSystem where
  sched : Sched
  semaphore : Semaphore
  /-- The exclusive monitor is set for `availableTokens`. -/
  monitor : Bool
  /-- The function a task is in and where it is, `none` outside of them. -/
  pc : Nat → Option (SemaphoreCall × SemaphorePc)
  notifies : Nat
  codeRead : Nat → Nat

inductive SemaphoreEvent where
  /-- The processor goes to `task`. -/
  | switchTo (task : Nat)
  /-- The running task calls a function. -/
  | call (function : SemaphoreCall)
  /-- The running task takes its next step; `strexFails` makes a STREX fail,
  `fuel` bounds the loops of an SVC. -/
  | step (strexFails : Bool) (fuel : Nat)

namespace SemaphoreSystem

open Lib Sched

/-- The running task. -/
def running (s : SemaphoreSystem) : Nat := s.sched.currentTCB

def setPc (s : SemaphoreSystem) (pc : Option (SemaphoreCall × SemaphorePc)) : SemaphoreSystem :=
  { s with pc := Function.update s.pc s.running pc }

/-- The next step of the running task, which is in `function` at `pc`. The
semaphore is at `address`. -/
def advance (address : Nat) (s : SemaphoreSystem) (strexFails : Bool) (fuel : Nat)
    (function : SemaphoreCall) (pc : SemaphorePc) : Option SemaphoreSystem :=
  match pc with
  | .code =>
    some ({ s with codeRead := Function.update s.codeRead s.running s.notifies }.setPc
      (some (function, .load s.sched.checkCode)))
  | .load checkCode =>
    if function.ready s.semaphore.availableTokens s.semaphore.maxTokens then
      some ({ s with monitor := true }.setPc
        (some (function, .store s.semaphore.availableTokens)))
    else some ({ s with monitor := true }.setPc (some (function, .wait checkCode)))
  | .store tokens =>
    if s.monitor = true ∧ strexFails = false then
      some ({ s with
          semaphore := { s.semaphore with availableTokens := function.newTokens tokens }
          monitor := false }.setPc (some (function, .notify)))
    else some ({ s with monitor := false }.setPc (some (function, .code)))
  | .wait checkCode =>
    (s.sched.waitCallback fuel address checkCode 0).map fun sched =>
      { s with sched, monitor := false }.setPc (some (function, .code))
  | .notify =>
    (s.sched.nextCheckCode.notifyCallback fuel address).map fun sched =>
      { s with sched, notifies := s.notifies + 1, monitor := false }.setPc none

def step (address : Nat) (s : SemaphoreSystem) : SemaphoreEvent → Option SemaphoreSystem
  | .switchTo task =>
    if task = NULL ∨ (s.sched.tcb task).state.wait then none
    else some { s with sched := { s.sched with currentTCB := task }, monitor := false }
  | .call function =>
    if (s.sched.tcb s.running).state.wait then none
    else
      match s.pc s.running with
      | none => some (s.setPc (some (function, .code)))
      | some _ => none
  | .step strexFails fuel =>
    if (s.sched.tcb s.running).state.wait then none
    else
      match s.pc s.running with
      | none => none
      | some (function, pc) => s.advance address strexFails fuel function pc

/-- Nobody is in a function or waits for anything, and no history. -/
structure Fresh (s : SemaphoreSystem) : Prop where
  pc : ∀ task, s.pc task = none
  running : s.running ≠ NULL
  monitor : s.monitor = false
  checkCode : s.sched.checkCode = wrap s.notifies
  waiting_wf : s.sched.waitingTasksHashTableReasonAsKey.WF
  waiting : s.sched.waiting = 0

end SemaphoreSystem

/-- The runs on one semaphore with any numbers of tokens. -/
def semaphoreMachine (address : Nat) : Lib.Machine SemaphoreSystem SemaphoreEvent where
  init := SemaphoreSystem.Fresh
  step := SemaphoreSystem.step address

namespace SemaphoreSystem

open Lib Sched

section Steps

variable {s s' : SemaphoreSystem} {address : Nat} {strexFails : Bool} {fuel : Nat}
  {function : SemaphoreCall} {pc : SemaphorePc}

/-- What a step of the machine is. -/
theorem step_cases {e : SemaphoreEvent} (h : s.step address e = some s') :
    (∃ task, e = .switchTo task ∧ task ≠ NULL ∧
      s' = { s with sched := { s.sched with currentTCB := task }, monitor := false }) ∨
    (∃ function, e = .call function ∧ s.pc s.running = none ∧
      (s.sched.tcb s.running).state.wait = false ∧ s' = s.setPc (some (function, .code))) ∨
    (∃ strexFails fuel function pc, e = .step strexFails fuel ∧
      s.pc s.running = some (function, pc) ∧ (s.sched.tcb s.running).state.wait = false ∧
      s.advance address strexFails fuel function pc = some s') := by
  cases e with
  | switchTo task =>
    simp only [step] at h
    split at h
    · cases h
    · rename_i hok
      cases h
      exact .inl ⟨task, rfl, fun hnull => hok (.inl hnull), rfl⟩
  | call function =>
    simp only [step] at h
    split at h
    · cases h
    · rename_i hwait
      split at h
      · rename_i hpc
        cases h
        exact .inr (.inl ⟨function, rfl, hpc, by simpa using hwait, rfl⟩)
      · cases h
  | step strexFails fuel =>
    simp only [step] at h
    split at h
    · cases h
    · rename_i hwait
      split at h
      · cases h
      · rename_i function pc hpc
        exact .inr (.inr ⟨strexFails, fuel, function, pc, rfl, hpc, by simpa using hwait, h⟩)

theorem setPc_pc (s : SemaphoreSystem) (place : Option (SemaphoreCall × SemaphorePc)) (task : Nat) :
    (s.setPc place).pc task = if task = s.running then place else s.pc task := by
  by_cases ht : task = s.running
  · rw [if_pos ht, ht]
    simp [setPc]
  · simp [setPc, ht]

/-! ## A STREX is atomic -/

/-- While the monitor is set, a task in front of its STREX has loaded the
present number of tokens and need not wait. -/
def Exclusive (s : SemaphoreSystem) : Prop :=
  s.monitor = true → ∀ function tokens, s.pc s.running = some (function, .store tokens) →
    tokens = s.semaphore.availableTokens ∧
      function.ready s.semaphore.availableTokens s.semaphore.maxTokens = true

@[simp] theorem setPc_pc_running (s : SemaphoreSystem)
    (place : Option (SemaphoreCall × SemaphorePc)) :
    (s.setPc place).pc (s.setPc place).running = place :=
  Function.update_self ..

/-- Only the LDREX sets the monitor, and what it has seen stays true until the
monitor is cleared. -/
theorem exclusive_step {e : SemaphoreEvent} (h : s.step address e = some s') : Exclusive s' := by
  intro hmonitor function tokens hstore
  rcases step_cases h with ⟨task, rfl, -, rfl⟩ | ⟨function', rfl, -, -, rfl⟩ |
    ⟨strexFails, fuel, function', pc, rfl, -, -, hs⟩
  · cases hmonitor
  · rw [setPc_pc_running] at hstore
    cases hstore
  · cases pc <;> simp only [advance] at hs
    case code =>
      cases hs
      rw [setPc_pc_running] at hstore
      cases hstore
    case load checkCode =>
      split at hs <;> cases hs
      · rename_i hready
        rw [setPc_pc_running] at hstore
        cases hstore
        exact ⟨rfl, hready⟩
      · rw [setPc_pc_running] at hstore
        cases hstore
    case store tokens' =>
      split at hs <;> cases hs <;> cases hmonitor
    case wait checkCode =>
      obtain ⟨sched, -, rfl⟩ := Option.map_eq_some_iff.mp hs
      cases hmonitor
    case notify =>
      obtain ⟨sched, -, rfl⟩ := Option.map_eq_some_iff.mp hs
      cases hmonitor

/-- The invariant of every run. -/
theorem reach_exclusive (h : (semaphoreMachine address).Reach s) : Exclusive s := by
  refine h.invariant ?_ ?_
  · intro s hfresh hmonitor
    rw [hfresh.monitor] at hmonitor
    cases hmonitor
  · intro s e s' _ hs
    exact @exclusive_step s s' address e hs

/-- The function whose STREX stores in the step. -/
def stores (s : SemaphoreSystem) : SemaphoreEvent → Option SemaphoreCall
  | .step strexFails _ =>
    match s.pc s.running with
    | some (function, .store _) =>
      if s.monitor = true ∧ strexFails = false then some function else none
    | _ => none
  | _ => none

/-- A STREX that stores does to the tokens what one pass through the loop does
without interruption, and no other step changes them. -/
theorem stores_cases (h : Exclusive s) {e : SemaphoreEvent} (hs : s.step address e = some s') :
    (s.stores e = none ∧ s'.semaphore = s.semaphore) ∨
      ∃ function, s.stores e = some function ∧ s.semaphore.pass function = some s'.semaphore := by
  rcases step_cases hs with ⟨task, rfl, -, rfl⟩ | ⟨function', rfl, -, -, rfl⟩ |
    ⟨strexFails, fuel, function', pc, rfl, hpc, -, hs⟩
  · exact .inl ⟨rfl, rfl⟩
  · exact .inl ⟨rfl, rfl⟩
  · cases pc <;> simp only [advance] at hs <;> simp only [stores, hpc]
    case code =>
      cases hs
      exact .inl ⟨trivial, rfl⟩
    case load checkCode =>
      split at hs
      · cases hs
        exact .inl ⟨trivial, rfl⟩
      · cases hs
        exact .inl ⟨trivial, rfl⟩
    case store tokens =>
      split at hs
      · -- the monitor is still open, so the loaded value is the present one
        rename_i hstores
        cases hs
        obtain ⟨rfl, hready⟩ := h hstores.1 _ _ hpc
        exact .inr ⟨function', if_pos hstores, by rw [Semaphore.pass, if_pos hready]; rfl⟩
      · rename_i hfails
        cases hs
        exact .inl ⟨if_neg hfails, rfl⟩
    case wait checkCode =>
      obtain ⟨sched, -, rfl⟩ := Option.map_eq_some_iff.mp hs
      exact .inl ⟨trivial, rfl⟩
    case notify =>
      obtain ⟨sched, -, rfl⟩ := Option.map_eq_some_iff.mp hs
      exact .inl ⟨trivial, rfl⟩

/-- **The tokens change by whole passes**: a step leaves the semaphore as it is
or does what one pass through the loop does without interruption. -/
theorem strex_atomic (h : (semaphoreMachine address).Reach s) {e : SemaphoreEvent}
    (hs : s.step address e = some s') :
    s'.semaphore = s.semaphore ∨ ∃ function, s.semaphore.pass function = some s'.semaphore := by
  rcases stores_cases (reach_exclusive h) hs with ⟨-, hsame⟩ | ⟨function, -, hpass⟩
  · exact .inl hsame
  · exact .inr ⟨function, hpass⟩

/-! ## No lost wake-up -/

/-- The task need not be woken: it still has to wait, or a task is about to
notify. -/
def Covered (s : SemaphoreSystem) (task : Nat) : Prop :=
  (∀ function pc, s.pc task = some (function, pc) →
    function.ready s.semaphore.availableTokens s.semaphore.maxTokens = false) ∨
  ∃ notifier function, s.pc notifier = some (function, .notify)

/-- The task has seen that it has to wait and is in front of its `OS_wait`. -/
def AboutToWait (s : SemaphoreSystem) (task : Nat) : Prop :=
  ∃ function checkCode, s.pc task = some (function, .wait checkCode)

/-- The next step of the running task is its `OS_wait`. -/
def waitsNext (s : SemaphoreSystem) : Bool :=
  match s.pc s.running with
  | some (_, .wait _) => true
  | _ => false

/-- Fewer than `2 ^ 32` notifies since a task that calls `OS_wait` has read the
check code. -/
def Timely (s : SemaphoreSystem) : SemaphoreEvent → Prop
  | .step _ _ => s.waitsNext = true → s.notifies - s.codeRead s.running < 4294967296
  | _ => True

instance (s : SemaphoreSystem) : (e : SemaphoreEvent) → Decidable (Timely s e)
  | .switchTo _ => inferInstanceAs (Decidable True)
  | .call _ => inferInstanceAs (Decidable True)
  | .step _ _ => inferInstanceAs (Decidable (_ = true → _))

/-- The invariant. -/
structure Wakeful (address : Nat) (s : SemaphoreSystem) : Prop where
  running : s.running ≠ NULL
  parked : Parked s.sched
  checkCode : s.sched.checkCode = wrap s.notifies
  codes : ∀ task function code, s.pc task = some (function, .load code) ∨
    s.pc task = some (function, .wait code) →
      code = wrap (s.codeRead task) ∧ s.codeRead task ≤ s.notifies
  safe : EventCount.Safe (fun _ : Unit => s.Covered)
    (fun _ task => (address, task) ∈ s.sched.waiting) (fun _ => s.AboutToWait)
    s.codeRead s.notifies

theorem setPc_cases {x : SemaphoreSystem} {place : Option (SemaphoreCall × SemaphorePc)}
    (hrunning : x.running = s.running) (hpc : x.pc = s.pc) {task : Nat}
    {p : SemaphoreCall × SemaphorePc} (h : (x.setPc place).pc task = some p) :
    (task ≠ s.running ∧ s.pc task = some p) ∨ (task = s.running ∧ place = some p) := by
  rw [setPc_pc, hrunning, hpc] at h
  split at h
  · rename_i ht
    exact .inr ⟨ht, h⟩
  · rename_i ht
    exact .inl ⟨ht, h⟩

/-- A step keeps the invariant when it keeps everybody safe. -/
theorem Wakeful.setPc {x : SemaphoreSystem} (h : Wakeful address s)
    (place : Option (SemaphoreCall × SemaphorePc)) (hrunning : x.running = s.running)
    (hpc : x.pc = s.pc) (hparked : Parked x.sched) (hcheck : x.sched.checkCode = wrap x.notifies)
    (hnotifies : s.notifies ≤ x.notifies)
    (hread : ∀ task, task ≠ s.running → x.codeRead task = s.codeRead task)
    (hcodes : ∀ function code, place = some (function, .load code) ∨
      place = some (function, .wait code) →
        code = wrap (x.codeRead s.running) ∧ x.codeRead s.running ≤ x.notifies)
    (hsafe : EventCount.Safe (fun _ : Unit => (x.setPc place).Covered)
      (fun _ task => (address, task) ∈ x.sched.waiting) (fun _ => (x.setPc place).AboutToWait)
      x.codeRead x.notifies) : Wakeful address (x.setPc place) where
  running := by
    show x.running ≠ NULL
    rw [hrunning]
    exact h.running
  parked := hparked
  checkCode := hcheck
  codes task function code hcode := by
    show code = wrap (x.codeRead task) ∧ x.codeRead task ≤ x.notifies
    by_cases ht : task = s.running
    · subst ht
      rw [setPc_pc, if_pos hrunning.symm] at hcode
      exact hcodes function code hcode
    · rw [setPc_pc, hrunning, if_neg ht, hpc] at hcode
      rw [hread task ht]
      obtain ⟨heq, hle⟩ := h.codes task function code hcode
      exact ⟨heq, hle.trans hnotifies⟩
  safe := hsafe

/-- A step of the loop that stores, parks and notifies nothing keeps everybody
covered. -/
theorem Covered.loop {x : SemaphoreSystem} {pc' : SemaphorePc} (hrunning : x.running = s.running)
    (hpc : x.pc = s.pc) (hsemaphore : x.semaphore = s.semaphore)
    (hplace : ∀ f, s.pc s.running ≠ some (f, .notify))
    (hfunction : ∃ pc, s.pc s.running = some (function, pc)) {task : Nat} (h : s.Covered task) :
    (x.setPc (some (function, pc'))).Covered task := by
  rcases h with hready | ⟨notifier, f, hnotify⟩
  · refine .inl ?_
    intro f p hp
    show f.ready x.semaphore.availableTokens x.semaphore.maxTokens = false
    rw [hsemaphore]
    rcases setPc_cases hrunning hpc hp with ⟨-, hold⟩ | ⟨rfl, hnew⟩
    · exact hready f p hold
    · -- the running task stays in its function
      obtain ⟨pc, hold⟩ := hfunction
      cases hnew
      exact hready _ pc hold
  · refine .inr ⟨notifier, f, ?_⟩
    have hne : notifier ≠ s.running := by
      rintro rfl
      exact hplace f hnotify
    rw [setPc_pc, hrunning, if_neg hne, hpc, hnotify]

/-- A step of the loop that stores, parks and notifies nothing keeps the
invariant. -/
theorem Wakeful.loop (h : Wakeful address s) (hpc : s.pc s.running = some (function, pc))
    (hne : pc ≠ .notify) (pc' : SemaphorePc) (monitor : Bool) {codeRead : Nat → Nat}
    (hread : ∀ task, task ≠ s.running → codeRead task = s.codeRead task)
    (hcodes : ∀ code, pc' = .load code ∨ pc' = .wait code →
      code = wrap (codeRead s.running) ∧ codeRead s.running ≤ s.notifies)
    (hwindow : ∀ code, pc' = .wait code →
      function.ready s.semaphore.availableTokens s.semaphore.maxTokens = false ∧
        codeRead = s.codeRead) :
    Wakeful address ({ s with monitor, codeRead }.setPc (some (function, pc'))) := by
  have hplace : ∀ f, s.pc s.running ≠ some (f, .notify) := by
    intro f heq
    rw [hpc] at heq
    cases heq
    exact hne rfl
  have hcovered : ∀ task, s.Covered task →
      ({ s with monitor, codeRead }.setPc (some (function, pc'))).Covered task := fun task ht =>
    ht.loop rfl rfl rfl hplace ⟨pc, hpc⟩
  refine h.setPc (some (function, pc')) rfl rfl h.parked h.checkCode le_rfl hread ?_ ?_
  · rintro f code (hcode | hcode) <;> cases hcode
    · exact hcodes code (.inl rfl)
    · exact hcodes code (.inr rfl)
  · by_cases hwait : ∃ code, pc' = .wait code
    · -- the task opens its window: it has just seen that it has to wait
      obtain ⟨code, rfl⟩ := hwait
      obtain ⟨hready, rfl⟩ := hwindow code rfl
      have hsees : s.Covered s.running := by
        refine .inl ?_
        intro f p hp
        rw [hpc] at hp
        cases hp
        exact hready
      refine (h.safe.observe () s.running (fun _ _ hp => hp) ?_ hsees).mono
        (fun _ _ hp => hp) (fun _ _ hw => ⟨hw, rfl⟩) fun _ task _ ht => hcovered task ht
      rintro - task ⟨f, code', hp⟩
      rcases setPc_cases (s := s) rfl rfl hp with ⟨-, hp⟩ | ⟨ht, -⟩
      · exact .inl ⟨f, code', hp⟩
      · exact .inr ⟨rfl, ht⟩
    · refine h.safe.mono (fun _ _ hp => hp) ?_ fun _ task _ ht => hcovered task ht
      rintro - task ⟨f, code', hp⟩
      rcases setPc_cases (s := s) rfl rfl hp with ⟨ht, hp⟩ | ⟨-, hp⟩
      · exact ⟨⟨f, code', hp⟩, hread task ht⟩
      · cases hp
        exact absurd ⟨code', rfl⟩ hwait

/-- A STREX that stores covers everybody: its task is about to notify. -/
theorem Wakeful.store (h : Wakeful address s) (semaphore : Semaphore) :
    Wakeful address ({ s with semaphore, monitor := false }.setPc (some (function, .notify))) := by
  have hcovered : ∀ task,
      ({ s with semaphore, monitor := false }.setPc (some (function, .notify))).Covered task :=
    fun _ => .inr ⟨s.running, function, setPc_pc_running _ _⟩
  refine h.setPc _ rfl rfl h.parked h.checkCode le_rfl (fun _ _ => rfl) ?_ ?_
  · rintro f code (hcode | hcode) <;> cases hcode
  · exact ⟨fun _ task _ => hcovered task, fun _ task _ _ => hcovered task⟩

/-- The `OS_wait` of a task that has seen that it has to wait. -/
theorem Wakeful.wait (h : Wakeful address s) {checkCode : Nat} {sched : Sched}
    (hpc : s.pc s.running = some (function, .wait checkCode))
    (hwait : (s.sched.tcb s.running).state.wait = false)
    (htimely : s.notifies - s.codeRead s.running < 4294967296)
    (hs : s.sched.waitCallback fuel address checkCode 0 = some sched) :
    Wakeful address ({ s with sched, monitor := false }.setPc (some (function, .code))) := by
  rcases waitCallback_cases hs with ⟨-, rfl⟩ | ⟨hcode, hi⟩
  · -- a notify has come in between, and nobody is parked
    exact h.loop hpc (by simp) .code false (fun _ _ => rfl)
      (by rintro code (hc | hc) <;> cases hc) (by simp)
  · obtain ⟨hread, hle⟩ := h.codes _ _ _ (.inr hpc)
    have hrunning : ({ s with sched, monitor := false } : SemaphoreSystem).running = s.running :=
      hi.currentTCB
    have hplace : ∀ f, s.pc s.running ≠ some (f, .notify) := by
      intro f heq
      rw [hpc] at heq
      cases heq
    refine h.setPc _ hrunning rfl ((h.parked.park h.running hwait address).inherits hi)
      (hi.checkCode.trans h.checkCode) le_rfl (fun _ _ => rfl)
      (by rintro f code (hc | hc) <;> cases hc) ?_
    have hparks : ∀ (u : Unit) task, (address, task) ∈ sched.waiting →
        (address, task) ∈ s.sched.waiting ∨ (u = () ∧ task = s.running) := by
      intro u task hmem
      rw [hi.waiting] at hmem
      rcases (park_waiting h.parked.wf address).2 with hw | hw
      · exact .inl (hw ▸ hmem)
      · rw [hw, Multiset.mem_cons, Prod.mk.injEq] at hmem
        exact hmem.symm.imp id fun heq => ⟨rfl, heq.2⟩
    have hwindows : ∀ (_ : Unit) task,
        ({ s with sched, monitor := false }.setPc (some (function, .code))).AboutToWait task →
          s.AboutToWait task := by
      rintro - task ⟨f, code, hp⟩
      rcases setPc_cases hrunning rfl hp with ⟨-, hp⟩ | ⟨-, hp⟩
      · exact ⟨f, code, hp⟩
      · cases hp
    -- the check code shows that the task's window is still open
    have hsafe := h.safe.park ⟨function, checkCode, hpc⟩ hle htimely
      (show wrap _ = wrap _ by rw [← hread, hcode, h.checkCode]) hparks hwindows
    exact hsafe.mono (fun _ _ hp => hp) (fun _ _ hw => ⟨hw, rfl⟩) fun _ task _ ht =>
      ht.loop hrunning rfl rfl hplace ⟨_, hpc⟩

/-- The `OS_notify` after a STREX wakes everybody. -/
theorem Wakeful.notify (h : Wakeful address s) {sched : Sched}
    (hs : s.sched.nextCheckCode.notifyCallback fuel address = some sched) :
    Wakeful address
      ({ s with sched, notifies := s.notifies + 1, monitor := false }.setPc none) := by
  have hi := notifyCallback_inherits hs
  obtain ⟨hparked, hwaiting⟩ := h.parked.nextCheckCode.wakeAll address
  have hwakes := s.sched.nextCheckCode.wakeAll_wakes address
  have hcheck : sched.checkCode = wrap (s.notifies + 1) := by
    rw [hi.checkCode, hwakes.checkCode]
    show wrap (s.sched.checkCode + 1) = _
    rw [h.checkCode]
    simp [wrap]
  have hrunning : ({ s with sched, notifies := s.notifies + 1, monitor := false } :
      SemaphoreSystem).running = s.running := by
    show sched.currentTCB = _
    rw [hi.currentTCB, hwakes.rest]
    rfl
  refine h.setPc none hrunning rfl (hparked.inherits hi) hcheck (Nat.le_succ _) (fun _ _ => rfl)
    (by rintro f code (hc | hc) <;> cases hc) ?_
  refine h.safe.notify () ?_ ?_ fun u _ hne => absurd rfl hne
  · intro u task hmem
    rw [hi.waiting, hwaiting, Multiset.mem_filter] at hmem
    exact absurd rfl hmem.2
  · rintro - task ⟨f, code, hp⟩
    rcases setPc_cases hrunning rfl hp with ⟨-, hp⟩ | ⟨-, hp⟩
    · exact (h.codes task f code (.inr hp)).2
    · cases hp

/-- A task that calls a function is neither parked nor about to be. -/
theorem Wakeful.call (h : Wakeful address s) (hpc : s.pc s.running = none)
    (hwait : (s.sched.tcb s.running).state.wait = false) :
    Wakeful address (s.setPc (some (function, .code))) := by
  refine h.setPc (some (function, .code)) rfl rfl h.parked h.checkCode le_rfl (fun _ _ => rfl)
    (by rintro f code (hc | hc) <;> cases hc) ?_
  have hwindows : ∀ (_ : Unit) task, (s.setPc (some (function, .code))).AboutToWait task →
      task ≠ s.running ∧ s.AboutToWait task := by
    rintro - task ⟨f, code, hp⟩
    rcases setPc_cases (s := s) rfl rfl hp with ⟨ht, hp⟩ | ⟨-, hp⟩
    · exact ⟨ht, f, code, hp⟩
    · cases hp
  refine h.safe.mono (fun _ _ hp => hp) (fun u task hw => ⟨(hwindows u task hw).2, rfl⟩) ?_
  intro u task hin hcovered
  -- the running task is not parked, and it is not about to wait
  have hne : task ≠ s.running := by
    rcases hin with hmem | hw
    · rintro rfl
      have hparked := h.parked.wait address _ hmem
      exact absurd hparked (by simpa using hwait)
    · exact (hwindows u task hw).1
  rcases hcovered with hready | ⟨notifier, f, hnotify⟩
  · refine .inl ?_
    intro f p hp
    rcases setPc_cases (s := s) rfl rfl hp with ⟨-, hp⟩ | ⟨ht, -⟩
    · exact hready f p hp
    · exact absurd ht hne
  · refine .inr ⟨notifier, f, ?_⟩
    have hother : notifier ≠ s.running := by
      rintro rfl
      rw [hpc] at hnotify
      cases hnotify
    rw [setPc_pc, if_neg hother, hnotify]

/-- **Every step of the machine keeps the invariant.** -/
theorem Wakeful.step {e : SemaphoreEvent} (h : Wakeful address s) (htimely : Timely s e)
    (hs : s.step address e = some s') : Wakeful address s' := by
  rcases step_cases hs with ⟨task, rfl, hnull, rfl⟩ | ⟨function, rfl, hpc, hwait, rfl⟩ |
    ⟨strexFails, fuel, function, pc, rfl, hpc, hwait, hs⟩
  · exact
      { running := hnull
        parked := ⟨h.parked.wf, h.parked.once, h.parked.wait, h.parked.not_null⟩
        checkCode := h.checkCode
        codes := h.codes
        safe := h.safe }
  · exact h.call hpc hwait
  · cases pc <;> simp only [advance] at hs
    case code =>
      cases hs
      -- the code is read before the semaphore, so a notification after the load is noticed
      refine h.loop hpc (by simp) (.load s.sched.checkCode) s.monitor
        (fun task ht => Function.update_of_ne ht _ _) ?_ (by simp)
      rintro code (hcode | hcode) <;> cases hcode
      simpa using h.checkCode
    case load checkCode =>
      split at hs <;> cases hs
      · exact h.loop hpc (by simp) (.store _) true (fun _ _ => rfl)
          (by rintro code (hc | hc) <;> cases hc) (by simp)
      · -- the task goes on to wait because of the tokens it has seen
        rename_i hready
        refine h.loop hpc (by simp) (.wait checkCode) true (fun _ _ => rfl) ?_
          fun _ _ => ⟨by simpa using hready, rfl⟩
        rintro code (hcode | hcode) <;> cases hcode
        exact h.codes _ _ _ (.inl hpc)
    case store tokens =>
      split at hs <;> cases hs
      · exact h.store _
      · exact h.loop hpc (by simp) .code false (fun _ _ => rfl)
          (by rintro code (hc | hc) <;> cases hc) (by simp)
    case wait checkCode =>
      obtain ⟨sched, hsvc, rfl⟩ := Option.map_eq_some_iff.mp hs
      exact h.wait hpc hwait (htimely (by simp [waitsNext, hpc])) hsvc
    case notify =>
      obtain ⟨sched, hsvc, rfl⟩ := Option.map_eq_some_iff.mp hs
      exact h.notify hsvc

end Steps

/-! ## The result -/

theorem Fresh.wakeful {s : SemaphoreSystem} (h : s.Fresh) (address : Nat) : Wakeful address s where
  running := h.running
  parked := .of_none h.waiting_wf h.waiting
  checkCode := h.checkCode
  codes := by simp [h.pc]
  safe :=
    { parked := by simp [h.waiting]
      window := by
        rintro - task ⟨f, code, hcode⟩
        rw [h.pc] at hcode
        cases hcode }

/-- **No lost wake-up**: when a task is parked in `OS_semaphore_acquire_token`
while there are tokens, or in `OS_semaphore_release_token` while there is room,
some task has stored and is about to notify. -/
theorem semaphore_no_lost_wakeup (address : Nat) {s : SemaphoreSystem}
    (h : ((semaphoreMachine address).guard Timely).Reach s) {task : Nat}
    {function : SemaphoreCall} {pc : SemaphorePc} (hparked : (address, task) ∈ s.sched.waiting)
    (hpc : s.pc task = some (function, pc))
    (hready : match function with
      | .acquireToken => 0 < s.semaphore.availableTokens
      | .releaseToken => s.semaphore.availableTokens < s.semaphore.maxTokens) :
    ∃ notifier function', s.pc notifier = some (function', .notify) := by
  have hinv : Wakeful address s := by
    refine h.invariant ?_ ?_
    · intro s hs
      exact Fresh.wakeful hs address
    · intro s e s' hs hstep
      obtain ⟨htimely, hstep⟩ := Lib.Machine.guard_step_iff.mp hstep
      exact hs.step htimely hstep
  refine (hinv.safe.parked () task hparked).resolve_left ?_
  intro hnot
  have hfalse := hnot function pc hpc
  cases function <;> simp_all [SemaphoreCall.ready]

/-- Task 7 runs, and there is no token. -/
def sampleSystem : SemaphoreSystem where
  sched := .sampleSched 7
  semaphore := semaphoreInit 0 1
  monitor := false
  pc _ := none
  notifies := 0
  codeRead _ := 0

theorem sampleSystem_fresh : sampleSystem.Fresh where
  pc _ := rfl
  running := by decide
  monitor := rfl
  checkCode := rfl
  waiting_wf := Hashtable.newHashtable_wf (by decide) (by decide) _ _
  waiting := Hashtable.newHashtable_content _ _

/-- Task 7 waits for a token, and task 8 stores one. -/
def releasedWhileParked : List SemaphoreEvent :=
  .call .acquireToken :: List.replicate 3 (.step false 1) ++
    .switchTo 8 :: .call .releaseToken :: List.replicate 3 (.step false 1)

theorem semaphore_no_lost_wakeup_releasedWhileParked :
    ∃ s, ((semaphoreMachine 200).guard Timely).run sampleSystem releasedWhileParked = some s ∧
      (200, 7) ∈ s.sched.waiting ∧ 0 < s.semaphore.availableTokens ∧
      ∃ notifier function, s.pc notifier = some (function, .notify) := by
  obtain ⟨s, hs, hparked, hpc, htokens⟩ := Lib.Machine.exists_run
    (M := (semaphoreMachine 200).guard Timely)
    (P := fun s => (200, 7) ∈ s.sched.waiting ∧ s.pc 7 = some (.acquireToken, .code) ∧
      0 < s.semaphore.availableTokens) (s := sampleSystem) (e := releasedWhileParked)
    (by decide +kernel)
  have hstart : ((semaphoreMachine 200).guard Timely).Reach sampleSystem := .init sampleSystem_fresh
  exact ⟨s, hs, hparked, htokens,
    semaphore_no_lost_wakeup 200 (hstart.run hs) hparked hpc htokens⟩

end SemaphoreSystem

end DocetOS
