import DocetOS.OS.ProcessorRuns

/-!
# Every task has the processor to itself

`Virtual` is what the context switch is for: every task has registers of its own, a
system call is a call with the arguments in the registers, and the scheduler only says
who goes on. There are no stack frames. The price is that an exception leaves some
words undefined: the first word of the TCB of the task it interrupts, and the seventeen
words below its stack pointer (`Context.reserved`).

`Virtual.Legal` is what the tasks have to keep to.
-/

namespace DocetOS

open Lib

/-- A processor for each task. -/
structure Virtual where
  context : Nat → Option Context
  /-- The words of the memory that are defined. -/
  memory : Nat → Option Nat
  /-- `main` runs; it has the context of the TCB `NULL`. -/
  booting : Bool
  handlerMode : Bool
  os : OSState

/-- The arguments of a system call are in the registers. -/
def SvcStackFrame.ofRegisters (r : Registers) : SvcStackFrame where
  r0 := r.r0
  r1 := r.r1
  r2 := r.r2
  r3 := r.r3
  r12 := r.r12
  lr := r.lr
  pc := r.pc
  psr := r.psr.word

/-- The next instruction. -/
def Context.advance (c : Context) : Context :=
  { c with registers := { c.registers with pc := c.registers.pc + 2 } }

instance (tcb : Nat) (c : Context) (a : Nat) : Decidable (a ∈ c.reserved tcb) :=
  inferInstanceAs (Decidable (a = tcb ∨ (frameBottom c.sp ≤ a ∧ a < c.sp)))

namespace Virtual

def currentTCB (v : Virtual) : Nat := v.os.sched.currentTCB

def setContext (v : Virtual) (tcb : Nat) (c : Context) : Virtual :=
  { v with context := Function.update v.context tcb (some c) }

@[simp] theorem setContext_self (v : Virtual) (tcb : Nat) (c : Context) :
    (v.setContext tcb c).context tcb = some c := by
  simp only [setContext, Function.update_self]

theorem setContext_of_ne {v : Virtual} {tcb t : Nat} {c : Context} (h : t ≠ tcb) :
    (v.setContext tcb c).context t = v.context t := by
  simp only [setContext, Function.update_of_ne h]

/-- The words that the context switch may use are not defined any more. -/
def forget (v : Virtual) (tcb : Nat) (c : Context) : Virtual :=
  { v with memory := fun a => if a ∈ c.reserved tcb then none else v.memory a }

/-- An instruction. An undefined word may hold anything. -/
def execute (code : Code) (v : Virtual) (i : Instruction) : Option Virtual := do
  let c ← v.context v.currentTCB
  if v.handlerMode = false ∧ code.flash (c.registers.pc + 1) ≠ SVC_OPCODE ∧
      (∀ read ∈ i.reads, v.memory read.1 = none ∨ v.memory read.1 = some read.2) then
    return { v.setContext v.currentTCB i.next with
      memory := assign v.memory (i.writes.map fun write => (write.1, some write.2)) }
  else none

/-- `OS_initialiseTCB` makes a task. -/
def initialiseTCB (code : Code) (v : Virtual) (tcb stack func data : Nat) : Option Virtual :=
  if v.handlerMode = false then
    if h : stack % 4 = 0 then
      let c := Context.initial code.taskEnd func data stack h
      some { (v.setContext tcb c).forget tcb c with
        os := { v.os with
          sched := v.os.sched.modifyTCB tcb fun t => Sched.initialiseTCB t stack } }
    else none
  else none

/-- A system call. -/
def svc (code : Code) (v : Virtual) (fuel : Nat) : Option Virtual := do
  let c ← v.context v.currentTCB
  if v.handlerMode = false ∧ code.flash (c.registers.pc + 1) = SVC_OPCODE then
    let os ← svcDispatch v.os fuel (code.flash c.registers.pc) (.ofRegisters c.registers)
    return { (v.setContext v.currentTCB c.advance).forget v.currentTCB c.advance with
      handlerMode := true
      os }
  else none

def sysTick (v : Virtual) : Option Virtual :=
  if v.os.systickEnabled = true ∧ v.os.pendSV = false then
    if v.handlerMode = true then some { v with os := v.os.sysTickHandler }
    else do
      let c ← v.context v.currentTCB
      return { v.forget v.currentTCB c with
        handlerMode := true
        os := v.os.sysTickHandler }
  else none

/-- The scheduler says who goes on. -/
def pendSV (v : Virtual) (switch : TaskSwitch) : Option Virtual :=
  if v.handlerMode = true ∧ v.os.pendSV = true then do
    let (os, nextTCB) ← v.os.schedulerFromPendSV switch
    return { v with os := os.switchTo nextTCB }
  else none

def exceptionReturn (v : Virtual) : Option Virtual :=
  if v.handlerMode = true ∧ v.os.pendSV = false then some { v with handlerMode := false }
  else none

/-- `OS_start`: the idle task takes over from `main`. Its stack pointer is in its TCB. -/
def start (code : Code) (v : Virtual) : Option Virtual := do
  let main ← v.context v.currentTCB
  let idleTCB := v.os.sched.idleTCB
  let sp ← v.memory idleTCB
  if h : sp % 4 = 0 then
    if v.handlerMode = false ∧ v.booting = true then
      let idle : Context :=
        { registers := { main.registers with r0 := idleTCB, r1 := sp, r2 := 3, pc := code.idleTask }
          sp
          wordAligned := h }
      return { v with
        context := Function.update (Function.update v.context v.currentTCB none) idleTCB
          (some idle)
        booting := false
        os := v.os.switchTo idleTCB }
    else none
  else none

/-- A task that is not current will not run any more. -/
def retire (v : Virtual) (tcb : Nat) : Option Virtual :=
  if v.handlerMode then none else some { v with context := Function.update v.context tcb none }

def share (v : Virtual) (f : OSState → OSState) : Option Virtual :=
  if v.handlerMode then none else some { v with os := f v.os }

def step (code : Code) (v : Virtual) : ProcessorEvent → Option Virtual
  | .execute instruction => v.execute code instruction
  | .initialiseTCB tcb stack func data => v.initialiseTCB code tcb stack func data
  | .writeMutexes acquired mutexes => v.share fun os => os.writeMutexes acquired mutexes
  | .useChannel channel readTokens writeTokens queueLock queue =>
    v.share fun os => os.useChannel channel readTokens writeTokens queueLock queue
  | .retire tcb => v.retire tcb
  | .start => v.start code
  | .svc fuel _ => v.svc code fuel
  | .sysTick _ => v.sysTick
  | .pendSV switch _ => v.pendSV switch
  | .exceptionReturn => v.exceptionReturn

/-- Only `main` runs, with the registers of the processor. -/
structure Booted (p : Processor) (v : Virtual) : Prop where
  context : ∀ tcb, tcb ≠ NULL → v.context tcb = none
  main : ∃ c, v.context NULL = some c ∧ c.registers = p.registers ∧ c.sp = p.msp
  memory : Agrees v.memory p.memory
  booting : v.booting = true
  handlerMode : v.handlerMode = false
  os : v.os = p.os

/-- The words that the context switch has for a task are not used for another one. -/
def Apart (v : Virtual) : Prop :=
  ∀ tcb c, v.context tcb = some c → 68 ≤ c.sp ∧ ¬ (frameBottom c.sp ≤ tcb ∧ tcb < c.sp) ∧
    ∀ tcb' c', tcb' ≠ tcb → v.context tcb' = some c' →
      Disjoint (c.reserved tcb) (c'.reserved tcb')

/-- None of the words is one that the context switch has for another task than the
current one. -/
def Spares (v : Virtual) (words : Set Nat) : Prop :=
  ∀ tcb c, tcb ≠ v.currentTCB → v.context tcb = some c → Disjoint words (c.reserved tcb)

/-- What the tasks have to keep to: they write to no words of the context switch for
another task, and their stack pointers leave room for a frame. `main` calls nothing that
switches tasks, and the scheduler chooses only among the tasks. -/
def Legal (code : Code) (v : Virtual) : ProcessorEvent → Prop
  | .execute i => v.Spares {a | ∃ write ∈ i.writes, write.1 = a}
  | .initialiseTCB tcb stack _ _ =>
    tcb ≠ v.currentTCB ∧ 68 ≤ stack ∧ ¬ (frameBottom stack ≤ tcb ∧ tcb < stack) ∧
      ∀ tcb' c, tcb' ≠ tcb → tcb' ≠ v.currentTCB → v.context tcb' = some c →
        Disjoint {a | a = tcb ∨ (frameBottom stack ≤ a ∧ a < stack)} (c.reserved tcb')
  | .retire tcb => tcb ≠ v.currentTCB
  | .start => ∃ sp, v.memory v.os.sched.idleTCB = some sp ∧ sp % 4 = 0
  | .svc fuel _ => v.Apart ∧ (v.booting = true → ∀ v', v.svc code fuel = some v' →
      v'.os.pendSV = false)
  | .sysTick _ => (v.os.systickEnabled = true → v.booting = false) ∧
    (v.handlerMode = false → v.Apart)
  | .pendSV switch _ => v.os.pendSV = true → ∀ os nextTCB,
      v.os.schedulerFromPendSV switch = some (os, nextTCB) → (v.context nextTCB).isSome = true
  | _ => True

end Virtual

/-- Every task with a processor to itself. -/
def virtualMachine (code : Code) : Machine Virtual ProcessorEvent where
  init v := ∃ p : Processor, p.Booting ∧ Virtual.Booted p v
  step := Virtual.step code

end DocetOS
