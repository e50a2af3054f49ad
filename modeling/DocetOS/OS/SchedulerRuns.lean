import DocetOS.OS.Scheduler
import DocetOS.Lib.Machine

/-!
# Runs of the scheduler

The callbacks of the scheduler in any order, as the SVC handlers and the timer
call them. A call of a task that may block pends PendSV, so the scheduler
follows it at once. Between the calls the tasks may write the mutexes and the
lists of acquired mutexes in any way, and time goes on; the tick counter does
not roll over.

`schedulerMachine N tasks` are the runs of a scheduler with heaps of size `N` in
which every task that is ever added is one of `tasks`. A task may be added again
after its exit.
-/

namespace DocetOS

/-- What a call of the scheduler from PendSV meets. -/
structure TaskSwitch where
  memclusterInUse : Bool
  rand : Nat → Nat
  fuel : Nat

inductive SchedulerEvent where
  /-- The tick counter reads `ticks`. -/
  | tick (ticks : Nat)
  /-- The tasks write their lists of acquired mutexes and the mutexes. -/
  | memory (acquired : Nat → Nat) (mutexes : Nat → Mutex)
  /-- A task is initialised on a block that held `memory`, and added. -/
  | addTask (tcb : Nat) (memory : TCB) (stack taskPriority : Nat)
  | notify (fuel reason : Nat)
  | wait (fuel reason checkCode isReasonMutex : Nat) (switch : TaskSwitch)
  | sleep (minSleepDuration : Nat) (switch : TaskSwitch)
  | exit (switch : TaskSwitch)
  | yield (switch : TaskSwitch)
  /-- SysTick. -/
  | schedule (switch : TaskSwitch)

namespace SchedulerEvent

/-- The call of the scheduler that follows. -/
def switch : SchedulerEvent → Option TaskSwitch
  | .wait _ _ _ _ switch | .sleep _ switch | .exit switch | .yield switch | .schedule switch =>
    some switch
  | _ => none

end SchedulerEvent

namespace Sched

/-- The part of an event before the call of the scheduler. The calls that block
or end a task are made by the current task, which is one that was added; a mutex
to wait for has an owner. -/
def call (tasks : Finset Nat) (s : Sched) : SchedulerEvent → Option Sched
  | .tick ticks => if s.ticks ≤ ticks ∧ ticks ≤ UINT32_MAX then some { s with ticks } else none
  | .memory acquired mutexes =>
    some { s with
      tcb := fun task => { s.tcb task with acquiredResourcesLinkedList := acquired task }
      mutexes }
  | .addTask tcb memory stack taskPriority =>
    if tcb ∈ tasks ∧ tcb ∉ s.scheduled ∧ 0 < taskPriority then
      some ((s.modifyTCB tcb fun _ => initialiseTCB memory stack).addTask tcb taskPriority)
    else none
  | .notify fuel reason => s.nextCheckCode.notifyCallback fuel reason
  | .wait fuel reason checkCode isReasonMutex _ =>
    if s.currentTCB ∈ s.scheduled ∧
        (isReasonMutex ≠ 0 → (s.mutexes reason).tcbPointer ∈ s.scheduled) then
      s.waitCallback fuel reason checkCode isReasonMutex
    else none
  | .sleep minSleepDuration _ =>
    if s.currentTCB ∈ s.scheduled then some (s.sleepCallback s.currentTCB minSleepDuration)
    else none
  | .exit _ => if s.currentTCB ∈ s.scheduled then some (s.taskExit s.currentTCB) else none
  | .yield _ => some s.yieldCurrent
  | .schedule _ => some s

def step (tasks : Finset Nat) (s : Sched) (e : SchedulerEvent) : Option Sched := do
  let s ← s.call tasks e
  match e.switch with
  | none => some s
  | some switch => s.pendSV switch.memclusterInUse switch.rand switch.fuel

/-- The scheduler has just been initialised, by code that is none of `tasks`. -/
def Booted (N : Nat) (tasks : Finset Nat) (s : Sched) : Prop :=
  ∃ tcb mutexes currentTCB idleTCB ticks values flags nodes,
    currentTCB ∉ tasks ∧ idleTCB ∉ tasks ∧
      s = initializeScheduler N tcb mutexes currentTCB idleTCB ticks values flags nodes

end Sched

/-- The runs of a scheduler with heaps of size `N` and tasks from `tasks`. -/
def schedulerMachine (N : Nat) (tasks : Finset Nat) : Lib.Machine Sched SchedulerEvent where
  init := Sched.Booted N tasks
  step := Sched.step tasks

namespace Sched

/-- The state in which the wake-up loop of the scheduler starts in an event, if
the event gets there. -/
def loopStart (tasks : Finset Nat) (s : Sched) (e : SchedulerEvent) : Option Sched := do
  let s ← s.call tasks e
  let switch ← e.switch
  if s.currentTCB ≠ s.idleTCB ∧ s.mustSwitch = false then none
  else s.beforeWake switch.memclusterInUse switch.fuel

variable {tasks : Finset Nat} {s s' s₁ : Sched} {e : SchedulerEvent}

/-- An event is a call, and the scheduler if the call pends it. -/
theorem switch_cases {call : Option Sched} {pend : Sched → TaskSwitch → Option Sched}
    (h : (do
      let s ← call
      match e.switch with
      | none => some s
      | some switch => pend s switch) = some s') :
    ∃ s₀, call = some s₀ ∧
      ((e.switch = none ∧ s' = s₀) ∨
        ∃ switch, e.switch = some switch ∧ pend s₀ switch = some s') := by
  simp only [Option.bind_eq_bind, Option.bind_eq_some_iff] at h
  obtain ⟨s₀, hcall, h⟩ := h
  refine ⟨s₀, hcall, ?_⟩
  split at h
  · rename_i hswitch
    cases h
    exact .inl ⟨hswitch, rfl⟩
  · rename_i switch hswitch
    exact .inr ⟨switch, hswitch, h⟩

theorem step_cases (h : s.step tasks e = some s') :
    ∃ s₀, s.call tasks e = some s₀ ∧
      ((e.switch = none ∧ s' = s₀) ∨
        ∃ switch, e.switch = some switch ∧
          s₀.pendSV switch.memclusterInUse switch.rand switch.fuel = some s') :=
  switch_cases h

theorem loopStart_cases (h : s.loopStart tasks e = some s₁) :
    ∃ s₀ switch, s.call tasks e = some s₀ ∧ e.switch = some switch ∧
      s₀.beforeWake switch.memclusterInUse switch.fuel = some s₁ := by
  simp only [loopStart, Option.bind_eq_bind, Option.bind_eq_some_iff] at h
  obtain ⟨s₀, hcall, switch, hswitch, h⟩ := h
  split at h
  · cases h
  · exact ⟨s₀, switch, hcall, hswitch, h⟩

end Sched

end DocetOS
