import DocetOS.Lib.Machine
import DocetOS.OS.Processor
import DocetOS.OS.SystemCalls

/-!
# Runs of the processor (`os_asm.s`)

One processor, its memory and the state of the operating system. In thread mode the
current task executes instructions, or `main` before the first task; an SVC instruction
or SysTick begins an exception. SVC, SysTick and PendSV have one priority, so that no
handler interrupts another: a handler is one step, and when it returns the processor
takes the next pending one without going back to thread mode. PendSV is taken before
SysTick.

- The instructions are arbitrary. `flash` is the code, which nobody writes.
- The tables of the kernel and all of a TCB but its first word are in `OSState`, not
  in `memory`; so is what the handlers push on the main stack left out of `memory`.
- After a handler the registers that a C function may change hold anything
  (`scratch`).
-/

namespace DocetOS

open Lib

/-- What an instruction does with the exclusive monitor. -/
inductive ExclusiveAccess where
  | none
  /-- LDREX. -/
  | load
  /-- STREX that has stored. -/
  | store
  /-- STREX that has not stored. -/
  | fail
deriving DecidableEq, Repr

/-- An instruction of a task but for SVC: the words it reads and writes, and what the
registers are afterwards. -/
structure Instruction where
  reads : List (Nat × Nat)
  writes : List (Nat × Nat)
  exclusive : ExclusiveAccess
  next : Context

/-- The code: its bytes, and the addresses of the functions that tasks are sent to. -/
structure Code where
  flash : Nat → Nat
  /-- `_OS_task_end`. -/
  taskEnd : Nat
  /-- The instruction `SVC 0x00` at the end of `_task_init_switch`. -/
  idleTask : Nat

/-- The upper byte of an SVC instruction; the lower one is its number. -/
abbrev SVC_OPCODE : Nat := 0xDF

structure Processor where
  registers : Registers
  psp : Nat
  msp : Nat
  /-- Bit 1 of CONTROL: thread mode uses the process stack. -/
  usesPSP : Bool
  handlerMode : Bool
  /-- The exclusive monitor is open. -/
  exclusive : Bool
  memory : Nat → Nat
  os : OSState

inductive ProcessorEvent where
  /-- An instruction other than SVC. -/
  | execute (instruction : Instruction)
  /-- `OS_initialiseTCB`, called by the current task. -/
  | initialiseTCB (tcb stack func data : Nat)
  /-- The current task writes the mutexes and the lists of acquired mutexes. -/
  | writeMutexes (acquired : Nat → Nat) (mutexes : Nat → Mutex)
  /-- The current task uses a channel. -/
  | useChannel (channel : Nat) (readTokens writeTokens : Semaphore) (queueLock : Mutex)
      (queue : Queue)
  /-- The memory of a task that will not run again is put to another use. -/
  | retire (tcb : Nat)
  /-- `OS_start`. -/
  | start
  | svc (fuel : Nat) (scratch : Registers)
  | sysTick (scratch : Registers)
  | pendSV (switch : TaskSwitch) (scratch : Registers)
  | exceptionReturn

namespace Processor

/-- `_currentTCB`. -/
def currentTCB (p : Processor) : Nat := p.os.sched.currentTCB

/-- The stack pointer that thread mode uses, and that an exception pushes its frame
with: EXC_RETURN tells the handlers which one. -/
def sp (p : Processor) : Nat := if p.usesPSP then p.psp else p.msp

def setSP (p : Processor) (sp : Nat) : Processor :=
  if p.usesPSP then { p with psp := sp } else { p with msp := sp }

/-- The monitor after an instruction. -/
def monitorAfter (p : Processor) : ExclusiveAccess → Bool
  | .none => p.exclusive
  | .load => true
  | .store | .fail => false

/-- An instruction other than SVC. It reads what is there, and stores exclusively only
while the monitor is open. -/
def execute (code : Code) (p : Processor) (i : Instruction) : Option Processor :=
  if p.handlerMode = false ∧ code.flash (p.registers.pc + 1) ≠ SVC_OPCODE ∧
      (∀ read ∈ i.reads, p.memory read.1 = read.2) ∧
      (i.exclusive = .store → p.exclusive = true) then
    some { p.setSP i.next.sp with
      registers := i.next.registers
      memory := assign p.memory i.writes
      exclusive := p.monitorAfter i.exclusive }
  else none

/-- `OS_initialiseTCB`. -/
def initialiseTCB (code : Code) (p : Processor) (tcb stack func data : Nat) : Option Processor :=
  if p.handlerMode = false ∧ stack % 4 = 0 then
    some { p with
      memory := initialiseStack p.memory tcb stack code.taskEnd func data
      os := { p.os with
        sched := p.os.sched.modifyTCB tcb fun t => Sched.initialiseTCB t stack } }
  else none

/-- An exception begins. -/
def beginException (p : Processor) : Processor :=
  let (memory, sp) := p.registers.enter p.memory p.sp
  { p.setSP sp with memory, handlerMode := true }

/-- A C function has returned. -/
def clobber (p : Processor) (scratch : Registers) : Processor :=
  { p with registers := p.registers.clobber scratch }

/-- `SVC_Handler`. The return address in the frame is that of the instruction after
the SVC, whose number is two bytes before it. -/
def svcHandler (code : Code) (p : Processor) (fuel : Nat) : Option Processor := do
  let r0 := p.sp
  let r1 := p.memory (r0 + 24)
  let number := code.flash (r1 - 2)
  let os ← svcDispatch p.os fuel number (.read p.memory r0)
  return { p with os }

/-- An SVC instruction and its handler. -/
def svc (code : Code) (p : Processor) (fuel : Nat) (scratch : Registers) : Option Processor :=
  if p.handlerMode = false ∧ code.flash (p.registers.pc + 1) = SVC_OPCODE then do
    let p := { p with registers := { p.registers with pc := p.registers.pc + 2 } }
    let p ← p.beginException.svcHandler code fuel
    return p.clobber scratch
  else none

/-- SysTick interrupts the current task, or follows another handler. -/
def sysTick (p : Processor) (scratch : Registers) : Option Processor :=
  if p.os.systickEnabled = true ∧ p.os.pendSV = false then
    let p := if p.handlerMode then p else p.beginException
    some ({ p with os := p.os.sysTickHandler }.clobber scratch)
  else none

/-- `_task_switch`, with `nextTCB` in `r0`. -/
def taskSwitch (p : Processor) (nextTCB : Nat) : Processor :=
  let r1 := p.currentTCB
  if r1 = nextTCB then p
  else
    let (memory, r3) := p.registers.stackRegisters p.memory p.psp
    let memory := Function.update memory r1 r3
    let r3 := memory nextTCB
    let (registers, r3) := p.registers.unstackRegisters memory r3
    { p with
      registers
      psp := r3
      memory
      exclusive := false
      os := p.os.switchTo nextTCB }

/-- `PendSV_Handler`. -/
def pendSVHandler (p : Processor) (switch : TaskSwitch) (scratch : Registers) :
    Option Processor :=
  if p.handlerMode = true ∧ p.os.pendSV = true then do
    let (os, nextTCB) ← p.os.schedulerFromPendSV switch
    return ({ p with os }.clobber scratch).taskSwitch nextTCB
  else none

/-- The last handler returns. -/
def exceptionReturn (p : Processor) : Option Processor :=
  if p.handlerMode = true ∧ p.os.pendSV = false then
    let (registers, sp) := p.registers.returnFrom p.memory p.sp
    some { p.setSP sp with registers, handlerMode := false }
  else none

/-- `_task_init_switch`, called from `OS_start` with the idle task. -/
def taskInitSwitch (code : Code) (p : Processor) : Option Processor :=
  if p.handlerMode = false ∧ p.usesPSP = false then
    let r0 := p.os.sched.idleTCB
    let r1 := p.memory r0
    some { p with
      registers := { p.registers with r0, r1, r2 := 3, pc := code.idleTask }
      psp := r1
      usesPSP := true
      os := p.os.switchTo r0 }
  else none

/-- Something that a task does to the structures it shares with others. -/
def share (p : Processor) (f : OSState → OSState) : Option Processor :=
  if p.handlerMode then none else some { p with os := f p.os }

end Processor

namespace OSState

/-- Tasks write the mutexes and the lists of acquired mutexes. -/
def writeMutexes (os : OSState) (acquired : Nat → Nat) (mutexes : Nat → Mutex) : OSState :=
  { os with sched := { os.sched with
      tcb := fun task =>
        { os.sched.tcb task with acquiredResourcesLinkedList := acquired task }
      mutexes } }

/-- Tasks use a channel. -/
def useChannel (os : OSState) (channel : Nat) (readTokens writeTokens : Semaphore)
    (queueLock : Mutex) (queue : Queue) : OSState :=
  { os with channelManager := os.channelManager.use channel readTokens writeTokens queueLock queue }

end OSState

namespace Processor

def step (code : Code) (p : Processor) : ProcessorEvent → Option Processor
  | .execute instruction => p.execute code instruction
  | .initialiseTCB tcb stack func data => p.initialiseTCB code tcb stack func data
  | .writeMutexes acquired mutexes => p.share fun os => os.writeMutexes acquired mutexes
  | .useChannel channel readTokens writeTokens queueLock queue =>
    p.share fun os => os.useChannel channel readTokens writeTokens queueLock queue
  | .retire _ => p.share id
  | .start => p.taskInitSwitch code
  | .svc fuel scratch => p.svc code fuel scratch
  | .sysTick scratch => p.sysTick scratch
  | .pendSV switch scratch => p.pendSVHandler switch scratch
  | .exceptionReturn => p.exceptionReturn

/-- `main` runs after `OS_init`, on the main stack. -/
structure Booting (p : Processor) : Prop where
  usesPSP : p.usesPSP = false
  handlerMode : p.handlerMode = false
  currentTCB : p.currentTCB = NULL
  pendSV : p.os.pendSV = false
  systickEnabled : p.os.systickEnabled = false
  wordAligned : p.msp % 4 = 0

end Processor

namespace Processor

variable {p : Processor} {sp : Nat}

@[simp] theorem setSP_sp : (p.setSP sp).sp = sp := by
  unfold setSP Processor.sp
  split <;> simp_all

@[simp] theorem setSP_memory : (p.setSP sp).memory = p.memory := by
  unfold setSP
  split <;> rfl

@[simp] theorem setSP_registers : (p.setSP sp).registers = p.registers := by
  unfold setSP
  split <;> rfl

@[simp] theorem setSP_os : (p.setSP sp).os = p.os := by
  unfold setSP
  split <;> rfl

@[simp] theorem setSP_currentTCB : (p.setSP sp).currentTCB = p.currentTCB := by
  rw [currentTCB, setSP_os, currentTCB]

@[simp] theorem setSP_usesPSP : (p.setSP sp).usesPSP = p.usesPSP := by
  unfold setSP
  split <;> rfl

@[simp] theorem setSP_handlerMode : (p.setSP sp).handlerMode = p.handlerMode := by
  unfold setSP
  split <;> rfl

@[simp] theorem setSP_exclusive : (p.setSP sp).exclusive = p.exclusive := by
  unfold setSP
  split <;> rfl

end Processor

/-- All runs of the processor with some code. -/
def processorMachine (code : Code) : Machine Processor ProcessorEvent where
  init := Processor.Booting
  step := Processor.step code

end DocetOS
