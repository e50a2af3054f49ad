import DocetOS.OS.ChannelManager
import DocetOS.OS.SchedulerFrame

/-!
# System calls (`os.c`, `os.h`, the table of `os_asm.s`)

An SVC delegate is a function without a body: its arguments are in `r0` to `r2`, and
the number in its SVC instruction names the handler. The handlers find the arguments
in the frame that the exception has pushed, and call a callback of the scheduler or of
the channel manager. A handler whose caller must not go on sets PendSV.

- `svcTable_delegate`: the numbers of `os.h` are those of the table of `os_asm.s`.
- `svcDispatch_currentTCB`: no handler switches the task; that is left to PendSV.

The loop of `_svc_OS_notify` that stores the check code ends in its first round that
is not disturbed; no other code runs during a handler.
-/

namespace DocetOS

/-- `_OS_SVC_StackFrame_t`. -/
structure SvcStackFrame where
  r0 : Nat
  r1 : Nat
  r2 : Nat
  r3 : Nat
  r12 : Nat
  lr : Nat
  pc : Nat
  psr : Nat

/-- The frame at an address. -/
def SvcStackFrame.read (memory : Nat → Nat) (stack : Nat) : SvcStackFrame where
  r0 := memory stack
  r1 := memory (stack + 4)
  r2 := memory (stack + 8)
  r3 := memory (stack + 12)
  r12 := memory (stack + 16)
  lr := memory (stack + 20)
  pc := memory (stack + 24)
  psr := memory (stack + 28)

/-- The static variables of `os.c` and what its callbacks work on. `pendSV` is
PENDSVSET, `systickEnabled` what `SysTick_Config` sets. -/
structure OSState where
  preemptive : Bool
  systickEnabled : Bool
  pendSV : Bool
  sched : Sched
  channelManager : ChannelManager
  /-- The fields `svc_return` of the TCBs. -/
  svcReturn : Nat → Nat

namespace OSState

/-- `SCB->ICSR = SCB_ICSR_PENDSVSET_Msk`. -/
def setPendSV (os : OSState) : OSState := { os with pendSV := true }

/-- Write `_currentTCB`. -/
def switchTo (os : OSState) (tcb : Nat) : OSState :=
  { os with sched := { os.sched with currentTCB := tcb } }

/-- `SysTick_Handler`. -/
def sysTickHandler (os : OSState) : OSState :=
  { os with sched := { os.sched with ticks := wrap (os.sched.ticks + 1) } }.setPendSV

/-- `_svc_OS_enable_systick`. -/
def svcEnableSystick (os : OSState) : OSState :=
  if os.preemptive then { os with systickEnabled := true } else os

/-- `_svc_OS_schedule`. -/
def svcSchedule (os : OSState) : OSState := os.setPendSV

/-- `_svc_OS_wait`. -/
def svcWait (os : OSState) (fuel : Nat) (stack : SvcStackFrame) : Option OSState := do
  let sched ← os.sched.waitCallback fuel stack.r0 stack.r1 stack.r2
  return { os with sched }.setPendSV

/-- `_svc_OS_notify`. -/
def svcNotify (os : OSState) (fuel : Nat) (stack : SvcStackFrame) : Option OSState := do
  let sched ← os.sched.nextCheckCode.notifyCallback fuel stack.r0
  return { os with sched }

/-- `_svc_OS_addTask`. -/
def svcAddTask (os : OSState) (stack : SvcStackFrame) : OSState :=
  { os with sched := os.sched.addTask stack.r0 stack.r1 }

/-- `_svc_OS_sleep`. -/
def svcSleep (os : OSState) (stack : SvcStackFrame) : OSState :=
  { os with sched := os.sched.sleepCallback os.sched.currentTCB stack.r0 }.setPendSV

/-- `_svc_OS_task_exit`. -/
def svcTaskExit (os : OSState) : OSState :=
  { os with sched := os.sched.taskExit os.sched.currentTCB }.setPendSV

/-- `_svc_OS_yield`. -/
def svcYield (os : OSState) : OSState := { os with sched := os.sched.yieldCurrent }.setPendSV

/-- `_svc_OS_resource_acquired`. -/
def svcResourceAcquired (os : OSState) (stack : SvcStackFrame) : OSState :=
  { os with sched := os.sched.resourceAcquired stack.r0 }

/-- The end of the handlers of the channel manager: its answer goes to the TCB of the
task that has called. -/
def returnToCaller (os : OSState) (answer : ChannelManager × Nat) : OSState :=
  { os with
      channelManager := answer.1
      svcReturn := Function.update os.svcReturn os.sched.currentTCB answer.2 }

/-- `_svc_OS_channelManager_connect`. -/
def svcChannelManagerConnect (os : OSState) (stack : SvcStackFrame) : OSState :=
  os.returnToCaller (os.channelManager.connect stack.r0 stack.r1)

/-- `_svc_OS_channelManager_disconnect`. -/
def svcChannelManagerDisconnect (os : OSState) (stack : SvcStackFrame) : OSState :=
  os.returnToCaller (os.channelManager.disconnect stack.r0)

/-- `_svc_OS_channelManager_checkAlive`. -/
def svcChannelManagerCheckAlive (os : OSState) (stack : SvcStackFrame) : OSState :=
  os.returnToCaller (os.channelManager.checkAlive stack.r0)

/-- `_OS_scheduler`, called from PendSV: the task to run next. -/
def schedulerFromPendSV (os : OSState) (switch : TaskSwitch) : Option (OSState × Nat) := do
  let (sched, nextTCB) ← os.sched.scheduler switch.memclusterInUse switch.rand switch.fuel
  return ({ os with sched, pendSV := false }, nextTCB)

end OSState

/-! ## The table -/

/-- The functions that the table lists. -/
inductive SvcHandler where
  | enableSystick
  | addTask
  | taskExit
  | yield
  | schedule
  | wait
  | notify
  | sleep
  | channelManagerConnect
  | channelManagerDisconnect
  | channelManagerCheckAlive
  | resourceAcquired
deriving DecidableEq, Repr

/-- From `SVC_tableStart` to `SVC_tableEnd`. -/
def svcTable : List SvcHandler :=
  [.enableSystick, .addTask, .taskExit, .yield, .schedule, .wait, .notify, .sleep,
    .channelManagerConnect, .channelManagerDisconnect, .channelManagerCheckAlive,
    .resourceAcquired]

/-! The numbers of `enum OS_SVC_e`. -/

abbrev OS_SVC_ENABLE_SYSTICK : Nat := 0x00
abbrev OS_SVC_ADD_TASK : Nat := OS_SVC_ENABLE_SYSTICK + 1
abbrev OS_SVC_EXIT : Nat := OS_SVC_ADD_TASK + 1
abbrev OS_SVC_YIELD : Nat := OS_SVC_EXIT + 1
abbrev OS_SVC_SCHEDULE : Nat := OS_SVC_YIELD + 1
abbrev OS_SVC_WAIT : Nat := OS_SVC_SCHEDULE + 1
abbrev OS_SVC_NOTIFY : Nat := OS_SVC_WAIT + 1
abbrev OS_SVC_SLEEP : Nat := OS_SVC_NOTIFY + 1
abbrev OS_CHANNEL_CONNECT : Nat := OS_SVC_SLEEP + 1
abbrev OS_CHANNEL_DISCONNECT : Nat := OS_CHANNEL_CONNECT + 1
abbrev OS_CHANNEL_CHECK : Nat := OS_CHANNEL_DISCONNECT + 1
abbrev OS_RESOURCE_ACQUIRED : Nat := OS_CHANNEL_CHECK + 1

namespace SvcHandler

/-- The number of the delegate that is meant to reach the handler. -/
def delegate : SvcHandler → Nat
  | .enableSystick => OS_SVC_ENABLE_SYSTICK
  | .addTask => OS_SVC_ADD_TASK
  | .taskExit => OS_SVC_EXIT
  | .yield => OS_SVC_YIELD
  | .schedule => OS_SVC_SCHEDULE
  | .wait => OS_SVC_WAIT
  | .notify => OS_SVC_NOTIFY
  | .sleep => OS_SVC_SLEEP
  | .channelManagerConnect => OS_CHANNEL_CONNECT
  | .channelManagerDisconnect => OS_CHANNEL_DISCONNECT
  | .channelManagerCheckAlive => OS_CHANNEL_CHECK
  | .resourceAcquired => OS_RESOURCE_ACQUIRED

/-- The call of a handler. -/
def call (os : OSState) (fuel : Nat) (stack : SvcStackFrame) : SvcHandler → Option OSState
  | .enableSystick => some os.svcEnableSystick
  | .addTask => some (os.svcAddTask stack)
  | .taskExit => some os.svcTaskExit
  | .yield => some os.svcYield
  | .schedule => some os.svcSchedule
  | .wait => os.svcWait fuel stack
  | .notify => os.svcNotify fuel stack
  | .sleep => some (os.svcSleep stack)
  | .channelManagerConnect => some (os.svcChannelManagerConnect stack)
  | .channelManagerDisconnect => some (os.svcChannelManagerDisconnect stack)
  | .channelManagerCheckAlive => some (os.svcChannelManagerCheckAlive stack)
  | .resourceAcquired => some (os.svcResourceAcquired stack)

end SvcHandler

/-- The end of `SVC_Handler`: the branch to the handler of a number, or the return when
the number is not in the table. -/
def svcDispatch (os : OSState) (fuel number : Nat) (stack : SvcStackFrame) : Option OSState :=
  if h : number < svcTable.length then (svcTable.get ⟨number, h⟩).call os fuel stack
  else some os

/-- **The enumeration matches the table.** -/
theorem svcTable_delegate (handler : SvcHandler) :
    ∃ h, svcTable.get ⟨handler.delegate, h⟩ = handler := by
  cases handler <;> exact ⟨by decide, rfl⟩

theorem svcDispatch_delegate (os : OSState) (fuel : Nat) (stack : SvcStackFrame)
    (handler : SvcHandler) :
    svcDispatch os fuel handler.delegate stack = handler.call os fuel stack := by
  obtain ⟨h, hget⟩ := svcTable_delegate handler
  rw [svcDispatch, dif_pos h, hget]

theorem svcDispatch_of_le {number : Nat} (h : svcTable.length ≤ number) (os : OSState)
    (fuel : Nat) (stack : SvcStackFrame) : svcDispatch os fuel number stack = some os :=
  dif_neg (Nat.not_lt.mpr h)

variable {os os' : OSState} {fuel number : Nat} {stack : SvcStackFrame}

theorem svcDispatch_cases (h : svcDispatch os fuel number stack = some os') :
    (∃ handler, svcTable[number]? = some handler ∧ handler.call os fuel stack = some os') ∨
      os' = os := by
  unfold svcDispatch at h
  split at h
  · rename_i hlt
    exact .inl ⟨_, List.getElem?_eq_getElem hlt, h⟩
  · cases h
    exact .inr rfl

/-! ## Handlers do not switch tasks -/

theorem SvcHandler.call_sameTasks {handler : SvcHandler} (hadd : handler ≠ .addTask)
    (h : handler.call os fuel stack = some os') : os.sched.SameTasks os'.sched := by
  cases handler with
  | enableSystick =>
    cases h
    unfold OSState.svcEnableSystick
    split <;> exact .refl _
  | addTask => exact absurd rfl hadd
  | taskExit | yield | schedule | channelManagerConnect | channelManagerDisconnect
    | channelManagerCheckAlive =>
    cases h
    exact ⟨rfl, rfl, List.Subset.refl _⟩
  | wait =>
    simp only [call, OSState.svcWait, Option.bind_eq_bind, Option.bind_eq_some_iff,
      Option.pure_def, Option.some.injEq] at h
    obtain ⟨sched, hwait, rfl⟩ := h
    exact .waitCallback hwait
  | notify =>
    simp only [call, OSState.svcNotify, Option.bind_eq_bind, Option.bind_eq_some_iff,
      Option.pure_def, Option.some.injEq] at h
    obtain ⟨sched, hnotify, rfl⟩ := h
    have hcode : os.sched.SameTasks os.sched.nextCheckCode := ⟨rfl, rfl, List.Subset.refl _⟩
    exact hcode.trans (.notifyCallback hnotify)
  | sleep =>
    cases h
    exact .sleepCallback _ _ _
  | resourceAcquired =>
    cases h
    exact .resourceAcquired _ _

theorem svcDispatch_currentTCB (h : svcDispatch os fuel number stack = some os') :
    os'.sched.currentTCB = os.sched.currentTCB := by
  rcases svcDispatch_cases h with ⟨handler, -, h⟩ | rfl
  · by_cases hadd : handler = .addTask
    · subst hadd
      cases h
      exact (os.sched.addTask_tasks _ _).1
    · exact (SvcHandler.call_sameTasks hadd h).currentTCB
  · rfl

/-- Only the handlers whose caller must not go on set PendSV. -/
theorem SvcHandler.call_pendSV {handler : SvcHandler}
    (hgoes : handler ∉ [.wait, .sleep, .taskExit, .yield, .schedule])
    (h : handler.call os fuel stack = some os') : os'.pendSV = os.pendSV := by
  cases handler with
  | wait | sleep | taskExit | yield | schedule => exact absurd (by decide) hgoes
  | notify =>
    simp only [call, OSState.svcNotify, Option.bind_eq_bind, Option.bind_eq_some_iff,
      Option.pure_def, Option.some.injEq] at h
    obtain ⟨sched, -, rfl⟩ := h
    rfl
  | enableSystick =>
    cases h
    unfold OSState.svcEnableSystick
    split <;> rfl
  | addTask | resourceAcquired | channelManagerConnect | channelManagerDisconnect
    | channelManagerCheckAlive =>
    cases h
    rfl

theorem SvcHandler.call_systickEnabled {handler : SvcHandler} (hne : handler ≠ .enableSystick)
    (h : handler.call os fuel stack = some os') : os'.systickEnabled = os.systickEnabled := by
  cases handler with
  | enableSystick => exact absurd rfl hne
  | wait =>
    simp only [call, OSState.svcWait, Option.bind_eq_bind, Option.bind_eq_some_iff,
      Option.pure_def, Option.some.injEq] at h
    obtain ⟨sched, -, rfl⟩ := h
    rfl
  | notify =>
    simp only [call, OSState.svcNotify, Option.bind_eq_bind, Option.bind_eq_some_iff,
      Option.pure_def, Option.some.injEq] at h
    obtain ⟨sched, -, rfl⟩ := h
    rfl
  | _ =>
    cases h
    rfl

theorem OSState.schedulerFromPendSV_cases {switch : TaskSwitch} {next : Nat}
    (h : os.schedulerFromPendSV switch = some (os', next)) :
    ∃ sched, os.sched.scheduler switch.memclusterInUse switch.rand switch.fuel =
      some (sched, next) ∧ os' = { os with sched, pendSV := false } := by
  simp only [schedulerFromPendSV, Option.bind_eq_bind, Option.bind_eq_some_iff, Option.pure_def,
    Option.some.injEq, Prod.mk.injEq] at h
  obtain ⟨⟨sched, next'⟩, hscheduler, rfl, rfl⟩ := h
  exact ⟨sched, hscheduler, rfl⟩

theorem OSState.schedulerFromPendSV_sameTasks {switch : TaskSwitch} {next : Nat}
    (h : os.schedulerFromPendSV switch = some (os', next)) : os.sched.SameTasks os'.sched := by
  obtain ⟨sched, hscheduler, rfl⟩ := schedulerFromPendSV_cases h
  exact .scheduler hscheduler

end DocetOS
