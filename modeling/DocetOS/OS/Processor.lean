import DocetOS.Lib.WordMemory
import DocetOS.Words

/-!
# The registers of a task (`os_asm.s`, `task.h`)

What a task is while it does not run: its registers on its stack. The hardware
stacks the registers that a C function may change when an exception begins, at an
address that is a multiple of eight (`OS_init` sets STKALIGN), and takes them back
when the exception ends. In between, the task switcher stacks the other registers
below and notes the stack pointer in the TCB. Both halves together are the
`OS_StackFrame_t`.

- `returnFrom_enter`: the end of an exception undoes its beginning, wherever the
  stack pointer is.
- `Saved.restores`: a task whose registers are saved is resumed with them.
- `initialise_saved`: `OS_initialiseTCB` leaves the frame of a task that is about to
  execute its function.

Addresses do not wrap around: the stack of a task has room for a frame.
-/

namespace DocetOS

open Lib

/-! ## Registers -/

/-- The program status register of a task, whose bit 9 is reserved. -/
structure ProgramStatus where
  word : Nat
  reserved : word / 512 % 2 = 0
deriving DecidableEq

namespace ProgramStatus

/-- The word on the stack. Bit 9 tells that the stack pointer was moved down to a
multiple of eight. -/
def stacked (psr : ProgramStatus) (realigned : Bool) : Nat :=
  psr.word + if realigned then 512 else 0

/-- The program status that is taken from the stack. -/
def unstacked (word : Nat) : ProgramStatus where
  word := word - word / 512 % 2 * 512
  reserved := by omega

/-- Bit 9 of a word on the stack. -/
def realigned (word : Nat) : Bool := word / 512 % 2 = 1

@[simp] theorem unstacked_stacked (psr : ProgramStatus) (realigned : Bool) :
    unstacked (psr.stacked realigned) = psr := by
  obtain ⟨word, reserved⟩ := psr
  simp only [unstacked, stacked, mk.injEq]
  cases realigned <;> simp only [Bool.false_eq_true, ↓reduceIte] <;> omega

@[simp] theorem realigned_stacked (psr : ProgramStatus) (b : Bool) :
    realigned (psr.stacked b) = b := by
  obtain ⟨word, reserved⟩ := psr
  cases b <;> simp only [realigned, stacked, Bool.false_eq_true, ↓reduceIte, decide_eq_true_eq,
    decide_eq_false_iff_not] <;> omega

end ProgramStatus

/-- The registers of a task but for its stack pointer. -/
structure Registers where
  r0 : Nat
  r1 : Nat
  r2 : Nat
  r3 : Nat
  r4 : Nat
  r5 : Nat
  r6 : Nat
  r7 : Nat
  r8 : Nat
  r9 : Nat
  r10 : Nat
  r11 : Nat
  r12 : Nat
  lr : Nat
  pc : Nat
  psr : ProgramStatus
deriving DecidableEq

/-- What a task sees of the processor. A stack pointer is the address of a word. -/
structure Context where
  registers : Registers
  sp : Nat
  wordAligned : sp % 4 = 0
deriving DecidableEq

/-! ## Exceptions -/

/-- Set bit 2 of a stack pointer. -/
def setBit2 (sp : Nat) : Nat := if sp % 8 < 4 then sp + 4 else sp

/-- Where the frame begins that an exception pushes. -/
def frameAddress (sp : Nat) : Nat := (sp - 32) / 8 * 8

/-- Where the `OS_StackFrame_t` of a task begins that is switched away from. -/
def frameBottom (sp : Nat) : Nat := frameAddress sp - 32

theorem frameBottom_add {sp : Nat} (hroom : 68 ≤ sp) : frameBottom sp + 32 = frameAddress sp := by
  unfold frameBottom frameAddress
  omega

theorem frameBottom_le {sp : Nat} (hroom : 68 ≤ sp) : frameBottom sp + 64 ≤ sp := by
  unfold frameBottom frameAddress
  omega

namespace Registers

/-- The words an exception pushes. -/
def frame (r : Registers) (realigned : Bool) : List Nat :=
  [r.r0, r.r1, r.r2, r.r3, r.r12, r.lr, r.pc, r.psr.stacked realigned]

/-- An exception begins: the memory and the stack pointer with its frame. -/
def enter (memory : Nat → Nat) (sp : Nat) (r : Registers) : (Nat → Nat) × Nat :=
  (storeWords memory (frameAddress sp) (r.frame (decide (4 ≤ sp % 8))), frameAddress sp)

/-- An exception ends: the registers and the stack pointer of the task whose frame is
at `sp`. -/
def returnFrom (memory : Nat → Nat) (sp : Nat) (r : Registers) : Registers × Nat :=
  ({ r with
      r0 := memory sp
      r1 := memory (sp + 4)
      r2 := memory (sp + 8)
      r3 := memory (sp + 12)
      r12 := memory (sp + 16)
      lr := memory (sp + 20)
      pc := memory (sp + 24)
      psr := .unstacked (memory (sp + 28)) },
    if ProgramStatus.realigned (memory (sp + 28)) then setBit2 (sp + 32) else sp + 32)

/-- What a handler has left in the registers: a C function keeps `r4` to `r11`. -/
def clobber (r scratch : Registers) : Registers :=
  { scratch with
      r4 := r.r4
      r5 := r.r5
      r6 := r.r6
      r7 := r.r7
      r8 := r.r8
      r9 := r.r9
      r10 := r.r10
      r11 := r.r11 }

/-- `STMFD r3!, {r4-r11}`: the memory and the new `r3`. -/
def stackRegisters (memory : Nat → Nat) (sp : Nat) (r : Registers) : (Nat → Nat) × Nat :=
  (storeWords memory (sp - 32) [r.r4, r.r5, r.r6, r.r7, r.r8, r.r9, r.r10, r.r11], sp - 32)

/-- `LDMFD r3!, {r4-r11}`: the registers and the new `r3`. -/
def unstackRegisters (memory : Nat → Nat) (sp : Nat) (r : Registers) : Registers × Nat :=
  ({ r with
      r4 := memory sp
      r5 := memory (sp + 4)
      r6 := memory (sp + 8)
      r7 := memory (sp + 12)
      r8 := memory (sp + 16)
      r9 := memory (sp + 20)
      r10 := memory (sp + 24)
      r11 := memory (sp + 28) }, sp + 32)

/-! ### Round trips -/

variable {memory memory' : Nat → Nat} {sp : Nat} {r r' : Registers}

/-- The end of an exception needs of the registers only those that handlers keep. -/
@[simp] theorem returnFrom_clobber (scratch : Registers) :
    returnFrom memory sp (r.clobber scratch) = returnFrom memory sp r := rfl

theorem returnFrom_congr (h : ∀ a, sp ≤ a → a < sp + 32 → memory' a = memory a) :
    returnFrom memory' sp r = returnFrom memory sp r := by
  simp only [returnFrom, h sp (Nat.le_refl sp) (by omega), h (sp + 4) (by omega) (by omega),
    h (sp + 8) (by omega) (by omega), h (sp + 12) (by omega) (by omega),
    h (sp + 16) (by omega) (by omega), h (sp + 20) (by omega) (by omega),
    h (sp + 24) (by omega) (by omega), h (sp + 28) (by omega) (by omega)]

theorem unstackRegisters_congr (h : ∀ a, sp ≤ a → a < sp + 32 → memory' a = memory a) :
    unstackRegisters memory' sp r = unstackRegisters memory sp r := by
  simp only [unstackRegisters, h sp (Nat.le_refl sp) (by omega),
    h (sp + 4) (by omega) (by omega),
    h (sp + 8) (by omega) (by omega), h (sp + 12) (by omega) (by omega),
    h (sp + 16) (by omega) (by omega), h (sp + 20) (by omega) (by omega),
    h (sp + 24) (by omega) (by omega), h (sp + 28) (by omega) (by omega)]

/-- The frame begins at a multiple of eight, at most nine words below. -/
theorem frameAddress_bounds (hsp : sp % 4 = 0) (hroom : 68 ≤ sp) :
    frameAddress sp + 32 + (if 4 ≤ sp % 8 then 4 else 0) = sp ∧ frameAddress sp % 8 = 0 := by
  unfold frameAddress
  split <;> omega

/-- The frame of an exception is taken back from where it was pushed. -/
theorem returnFrom_frame (r₀ : Registers) (realigned : Bool) :
    returnFrom (storeWords memory sp (r₀.frame realigned)) sp r =
      (r.clobber r₀, if realigned then setBit2 (sp + 32) else sp + 32) := by
  have hget : ∀ i (hi : i < 8), storeWords memory sp (r₀.frame realigned) (sp + 4 * i) =
      (r₀.frame realigned)[i] := fun i hi => storeWords_get hi
  have h0 := hget 0 (by decide)
  rw [Nat.mul_zero, Nat.add_zero] at h0
  simp only [returnFrom, h0, hget 1 (by decide), hget 2 (by decide), hget 3 (by decide),
    hget 4 (by decide), hget 5 (by decide), hget 6 (by decide), hget 7 (by decide)]
  simp only [frame, clobber, List.getElem_cons_zero, List.getElem_cons_succ,
    ProgramStatus.unstacked_stacked, ProgramStatus.realigned_stacked]

/-- **Round trip**: the end of an exception undoes its beginning, wherever the stack
pointer is and whatever a handler leaves in the other registers. -/
theorem returnFrom_enter (hsp : sp % 4 = 0) (hroom : 68 ≤ sp) (scratch : Registers) :
    returnFrom (enter memory sp r).1 (enter memory sp r).2 (r.clobber scratch) = (r, sp) := by
  show returnFrom (storeWords memory (frameAddress sp) (r.frame _)) (frameAddress sp)
    (r.clobber scratch) = (r, sp)
  obtain ⟨hframe, haligned⟩ := frameAddress_bounds hsp hroom
  rw [returnFrom_frame]
  refine Prod.ext rfl ?_
  show (if decide (4 ≤ sp % 8) = true then setBit2 (frameAddress sp + 32)
    else frameAddress sp + 32) = sp
  by_cases hodd : 4 ≤ sp % 8
  · rw [if_pos hodd] at hframe
    rw [if_pos (decide_eq_true hodd), setBit2, if_pos (by omega)]
    exact hframe
  · rw [if_neg hodd] at hframe
    rw [if_neg (by simpa using hodd)]
    exact hframe

theorem unstackRegisters_stackRegisters (hroom : 32 ≤ sp) :
    unstackRegisters (stackRegisters memory sp r).1 (stackRegisters memory sp r).2 r' =
      (r.clobber r', sp) := by
  have hget : ∀ i (hi : i < 8), (stackRegisters memory sp r).1 (sp - 32 + 4 * i) =
      [r.r4, r.r5, r.r6, r.r7, r.r8, r.r9, r.r10, r.r11][i] := fun i hi => storeWords_get hi
  have h0 := hget 0 (by decide)
  rw [Nat.mul_zero, Nat.add_zero] at h0
  have hsp : (stackRegisters memory sp r).2 = sp - 32 := rfl
  rw [hsp]
  simp only [unstackRegisters, h0, hget 1 (by decide), hget 2 (by decide), hget 3 (by decide),
    hget 4 (by decide), hget 5 (by decide), hget 6 (by decide), hget 7 (by decide)]
  simp only [clobber, List.getElem_cons_zero, List.getElem_cons_succ, Nat.sub_add_cancel hroom]

end Registers

/-! ## Saved tasks -/

namespace Context

/-- The words that the context switch may use for a task: the first word of its TCB,
and those below its stack pointer that a frame takes up. -/
def reserved (tcb : Nat) (c : Context) : Set Nat :=
  {a | a = tcb ∨ (frameBottom c.sp ≤ a ∧ a < c.sp)}

theorem mem_reserved {tcb a : Nat} {c : Context} :
    a ∈ c.reserved tcb ↔ a = tcb ∨ (frameBottom c.sp ≤ a ∧ a < c.sp) := Iff.rfl

end Context

/-- What the switch to a task does with the registers, if the exception ends then. -/
def resume (memory : Nat → Nat) (sp : Nat) (r : Registers) : Registers × Nat :=
  let (r, sp) := r.unstackRegisters memory sp
  r.returnFrom memory sp

/-- The task is saved: its frame lies below its stack pointer, and its TCB points to
the frame. -/
structure Saved (memory : Nat → Nat) (tcb : Nat) (c : Context) : Prop where
  room : 68 ≤ c.sp
  outside : ¬ (frameBottom c.sp ≤ tcb ∧ tcb < c.sp)
  below : frameBottom c.sp ≤ memory tcb
  above : memory tcb + 64 ≤ c.sp
  restores : ∀ r, resume memory (memory tcb) r = (c.registers, c.sp)

/-- The task is interrupted: an exception has pushed its frame at `sp`, and its other
registers are still those of the processor. -/
structure Interrupted (memory : Nat → Nat) (sp : Nat) (r : Registers) (tcb : Nat) (c : Context) :
    Prop where
  room : 68 ≤ c.sp
  outside : ¬ (frameBottom c.sp ≤ tcb ∧ tcb < c.sp)
  below : frameBottom c.sp + 32 ≤ sp
  above : sp + 32 ≤ c.sp
  restores : r.returnFrom memory sp = (c.registers, c.sp)

variable {memory memory' : Nat → Nat} {sp tcb : Nat} {r : Registers} {c : Context}

/-- Who writes only elsewhere leaves a saved task saved. -/
theorem Saved.congr (h : Saved memory tcb c) (hm : ∀ a ∈ c.reserved tcb, memory' a = memory a) :
    Saved memory' tcb c := by
  have htcb : memory' tcb = memory tcb := hm tcb (.inl rfl)
  have hroom := h.room
  have hbelow := h.below
  have habove := h.above
  have hin : ∀ a, memory tcb ≤ a → a < memory tcb + 64 → memory' a = memory a :=
    fun a hlo hhi => hm a (.inr ⟨by omega, by omega⟩)
  refine ⟨hroom, h.outside, htcb ▸ hbelow, htcb ▸ habove, ?_⟩
  intro r
  rw [htcb, ← h.restores r]
  unfold resume
  rw [Registers.unstackRegisters_congr fun a hlo hhi => hin a hlo (by omega)]
  exact Registers.returnFrom_congr fun a (hlo : memory tcb + 32 ≤ a)
    (hhi : a < memory tcb + 32 + 32) => hin a (by omega) (by omega)

/-- A handler keeps the registers that are not in the frame. -/
theorem Interrupted.clobber (h : Interrupted memory sp r tcb c) (scratch : Registers) :
    Interrupted memory sp (r.clobber scratch) tcb c :=
  { h with restores := by rw [Registers.returnFrom_clobber, h.restores] }

/-- An exception begins. -/
theorem Context.interrupted (c : Context) (memory : Nat → Nat) (scratch : Registers)
    (hroom : 68 ≤ c.sp) (hout : ¬ (frameBottom c.sp ≤ tcb ∧ tcb < c.sp)) :
    Interrupted (c.registers.enter memory c.sp).1 (c.registers.enter memory c.sp).2
      (c.registers.clobber scratch) tcb c := by
  obtain ⟨hframe, -⟩ := Registers.frameAddress_bounds c.wordAligned hroom
  refine ⟨hroom, hout, ?_, ?_, Registers.returnFrom_enter c.wordAligned hroom scratch⟩
  · exact (frameBottom_add hroom).le
  · show frameAddress c.sp + 32 ≤ c.sp
    split at hframe <;> omega

/-- The task switcher saves the task that was interrupted. -/
theorem Interrupted.save (h : Interrupted memory sp r tcb c) :
    Saved (Function.update (r.stackRegisters memory sp).1 tcb (r.stackRegisters memory sp).2) tcb
      c := by
  have hroom := h.room
  have hbelow := h.below
  have habove := h.above
  have hout := h.outside
  have htcb : Function.update (r.stackRegisters memory sp).1 tcb (r.stackRegisters memory sp).2
      tcb = sp - 32 := Function.update_self ..
  refine ⟨hroom, hout, by rw [htcb]; omega, by rw [htcb]; omega, ?_⟩
  intro r'
  rw [htcb]
  -- the field of the stack pointer is written last, and no saved word is under it
  have helse : ∀ a, sp - 32 ≤ a → a < sp + 32 →
      Function.update (r.stackRegisters memory sp).1 tcb (r.stackRegisters memory sp).2 a =
        (r.stackRegisters memory sp).1 a :=
    fun a hlo hhi => Function.update_of_ne (by rintro rfl; exact hout ⟨by omega, by omega⟩) _ _
  unfold resume
  rw [Registers.unstackRegisters_congr fun a hlo hhi => helse a hlo (by omega)]
  have hback : Registers.unstackRegisters (r.stackRegisters memory sp).1 (sp - 32) r' =
      (r.clobber r', sp) := Registers.unstackRegisters_stackRegisters (by omega)
  rw [hback]
  show Registers.returnFrom _ sp (r.clobber r') = _
  -- the frame of the exception is above the eight words pushed here
  have hmemory : ∀ a, sp ≤ a → a < sp + 32 →
      Function.update (r.stackRegisters memory sp).1 tcb (r.stackRegisters memory sp).2 a =
        memory a := by
    intro a hlo hhi
    rw [helse a (by omega) hhi]
    exact storeWords_of_le (by simp only [List.length_cons, List.length_nil]; omega)
  rw [Registers.returnFrom_congr hmemory, Registers.returnFrom_clobber, h.restores]

/-- The task switcher takes back the registers of a task that is saved. The rest is left
to the end of the exception. -/
theorem Saved.unstack (h : Saved memory tcb c) (r : Registers) :
    Interrupted memory (r.unstackRegisters memory (memory tcb)).2
      (r.unstackRegisters memory (memory tcb)).1 tcb c := by
  have hbelow := h.below
  have habove := h.above
  refine ⟨h.room, h.outside, ?_, ?_, h.restores r⟩
  · show frameBottom c.sp + 32 ≤ memory tcb + 32
    omega
  · show memory tcb + 32 + 32 ≤ c.sp
    omega

/-! ## A task that has not run yet -/

/-- The words of the `OS_StackFrame_t` that `OS_initialiseTCB` writes. -/
def initialFrame (taskEnd func data : Nat) : List Nat :=
  [0, 0, 0, 0, 0, 0, 0, 0, data, 0, 0, 0, 0, taskEnd, func, 0x01000000]

/-- What `OS_initialiseTCB` does to the stack and to the first word of the TCB. -/
def initialiseStack (memory : Nat → Nat) (tcb stack taskEnd func data : Nat) : Nat → Nat :=
  storeWords (Function.update memory tcb (stack - 64)) (stack - 64) (initialFrame taskEnd func data)

/-- A task at the beginning of its function, with its argument in `r0` and the address
of `_OS_task_end` to return to. -/
def Registers.initial (taskEnd func data : Nat) : Registers where
  r0 := data
  r1 := 0
  r2 := 0
  r3 := 0
  r4 := 0
  r5 := 0
  r6 := 0
  r7 := 0
  r8 := 0
  r9 := 0
  r10 := 0
  r11 := 0
  r12 := 0
  lr := taskEnd
  pc := func
  psr := ⟨0x01000000, by decide⟩

/-- The context of a task that has not run yet; its stack begins below `stack`. -/
def Context.initial (taskEnd func data stack : Nat) (h : stack % 4 = 0) : Context where
  registers := .initial taskEnd func data
  sp := stack
  wordAligned := h

/-- **`OS_initialiseTCB`** prepares a frame from which the task is resumed at the
beginning of its function. -/
theorem initialise_saved {stack taskEnd func data : Nat} (hword : stack % 4 = 0)
    (hroom : 68 ≤ stack) (hout : ¬ (frameBottom stack ≤ tcb ∧ tcb < stack)) :
    Saved (initialiseStack memory tcb stack taskEnd func data) tcb
      (.initial taskEnd func data stack hword) := by
  have hbottom := frameBottom_le hroom
  -- the field of the stack pointer is not under the frame, and so the frame does not write over it
  have htcb : initialiseStack memory tcb stack taskEnd func data tcb = stack - 64 := by
    have hne : tcb < stack - 64 ∨
        stack - 64 + 4 * (initialFrame taskEnd func data).length ≤ tcb := by
      simp only [initialFrame, List.length_cons, List.length_nil]
      omega
    unfold initialiseStack
    rcases hne with hlt | hle
    · rw [storeWords_of_lt hlt, Function.update_self]
    · rw [storeWords_of_le hle, Function.update_self]
  have hget : ∀ i (hi : i < 16),
      initialiseStack memory tcb stack taskEnd func data (stack - 64 + 4 * i) =
        (initialFrame taskEnd func data)[i] := fun i hi => storeWords_get hi
  refine ⟨hroom, hout, ?_, ?_, ?_⟩
  · show frameBottom stack ≤ _
    rw [htcb]
    omega
  · show _ ≤ stack
    rw [htcb]
    omega
  · intro r
    -- every register is read back from the frame, whatever it held before
    have h0 := hget 0 (by decide)
    rw [Nat.mul_zero, Nat.add_zero] at h0
    rw [htcb]
    simp only [resume, Registers.unstackRegisters, Registers.returnFrom, Nat.add_assoc,
      Nat.reduceAdd, h0, hget 1 (by decide), hget 2 (by decide), hget 3 (by decide),
      hget 4 (by decide), hget 5 (by decide), hget 6 (by decide), hget 7 (by decide),
      hget 8 (by decide), hget 9 (by decide), hget 10 (by decide), hget 11 (by decide),
      hget 12 (by decide), hget 13 (by decide), hget 14 (by decide), hget 15 (by decide)]
    -- the status word of the frame asks for no realignment: 64 bytes are taken off
    have hrealigned : ProgramStatus.realigned 0x01000000 = false := by decide
    have hpsr : ProgramStatus.unstacked 0x01000000 = ⟨0x01000000, by decide⟩ := by
      simp only [ProgramStatus.unstacked]
    simp only [initialFrame, List.getElem_cons_zero, List.getElem_cons_succ, hrealigned, hpsr,
      Bool.false_eq_true, ↓reduceIte]
    exact Prod.ext rfl (by show stack - 64 + 64 = stack; omega)

end DocetOS
