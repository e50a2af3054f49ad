import DocetOS.OS.Sleepers
import DocetOS.OS.TaskDiscipline
import DocetOS.OS.TimeSharing

/-!
# Runs with context switches

- `timeSharing`: the processor with its exception frames and its task switcher refines
  `Virtual` in every run in which no task writes to the words that the context switch
  has for another one, or has its stack pointer so low that these words overlap.
- `multitasking`: so it does when every task stays on its own stack and makes its system
  calls as it should, and then the books of the scheduler are right.
- `interrupted_resumes`: a task goes on with the registers it was interrupted with,
  whatever the others do in the meantime.
- `firstActivation`: a task starts at its function.
-/

namespace DocetOS

open Lib

variable {code : Code} {p p' p₁ p₂ : Processor} {v : Virtual} {es es₁ es₂ : List ProcessorEvent}

/-- The system in which only `main` runs. -/
def Processor.booted (p : Processor) (h : p.msp % 4 = 0) : Virtual where
  context := Function.update (fun _ => none) NULL (some ⟨p.registers, p.msp, h⟩)
  memory a := some (p.memory a)
  booting := true
  handlerMode := false
  os := p.os

theorem Processor.booted_booted (p : Processor) (h : p.msp % 4 = 0) :
    Virtual.Booted p (p.booted h) where
  context _ htcb := by simp only [booted, Function.update_of_ne htcb]
  main := ⟨⟨p.registers, p.msp, h⟩, by simp only [booted, Function.update_self], rfl, rfl⟩
  memory _ _ hw := Option.some.inj hw
  booting := rfl
  handlerMode := rfl
  os := rfl

/-- A legal run. -/
theorem Simulates.run (h : Simulates p v)
    (hlegal : (virtualMachine code).Respects (Virtual.Legal code) v es)
    (hrun : (processorMachine code).run p es = some p') :
    ∃ v', (virtualMachine code).run v es = some v' ∧ Simulates p' v' :=
  Machine.run_refines (fun _ _ _ _ h _ hok hs => h.step hok hs) h (Machine.respects_true _ _)
    hlegal hrun

/-- The stacks while `main` runs: its own, and the frame of the idle task. -/
structure Processor.Laid (p : Processor) (main idle : Stack) : Prop where
  mainTCB : main.tcb = NULL
  idleTCB : idle.tcb = p.os.sched.idleTCB
  soundMain : main.Sound
  soundIdle : idle.Sound
  apart : main.Apart idle
  holds : main.Holds p.msp

theorem Virtual.Managed.of_booted {N : Nat} {tasks : Finset Nat} {main idle : Stack} (hN : 0 < N)
    (hmax : N ≤ UINT32_MAX) (hp : p.Booting) (hv : Virtual.Booted p v)
    (hs : Sched.Booted N tasks p.os.sched) (hlaid : p.Laid main idle) :
    Managed N tasks v [main, idle] := by
  have hcurrent : v.currentTCB = NULL := by
    rw [Virtual.currentTCB, hv.os]
    exact hp.currentTCB
  obtain ⟨c, hc, -, hsp⟩ := hv.main
  exact
    { kept := ⟨_, hv.os ▸ OSState.Kept.of_booted hN hmax hs⟩
      main := by
        obtain ⟨_, _, currentTCB, _, _, _, _, _, hnot, -, heq⟩ := hs
        have hnull := hp.currentTCB
        rw [Processor.currentTCB, heq] at hnull
        exact hnull ▸ hnot
      thread := fun _ => by rw [hv.os, hp.pendSV]
      boot := fun _ => ⟨hcurrent, by rw [hv.os, hp.pendSV], by rw [hv.os, hp.systickEnabled]⟩
      current := by
        rw [hcurrent, hc]
        rfl
      idle := fun hbooting => by
        rw [hv.booting] at hbooting
        cases hbooting
      scheduled := by
        intro t ht
        obtain ⟨_, _, _, _, _, _, _, _, -, -, heq⟩ := hs
        rw [hv.os, heq] at ht
        exact absurd ht List.not_mem_nil
      pairwise := List.pairwise_pair.mpr hlaid.apart
      sound := by
        intro k hk
        rcases List.mem_pair.mp hk with rfl | rfl
        · exact hlaid.soundMain
        · exact hlaid.soundIdle
      holds := by
        intro t d hd
        -- before the start only `main` has a context, and its TCB is `NULL`
        by_cases ht : t = NULL
        · obtain rfl : c = d := Option.some.inj (hc.symm.trans (ht ▸ hd))
          exact ⟨main, List.mem_cons_self, hlaid.mainTCB.trans ht.symm, hsp ▸ hlaid.holds⟩
        · rw [hv.context t ht] at hd
          cases hd }

section Disciplined

variable {N : Nat} {tasks : Finset Nat} {owned : List Stack}

/-- A run in which every task keeps to the discipline is legal. -/
theorem Virtual.Managed.respects_legal (h : Virtual.Managed N tasks v owned)
    (hnodes : tasks.card ≤ N) (htables : tasks.card ≤ WAIT_HASHTABLE_CAPACITY)
    (hd : ((virtualMachine code).withHistory Virtual.recordStacks).Respects
      (Virtual.Disciplined code tasks) (v, owned) es) :
    (virtualMachine code).Respects (Virtual.Legal code) v es := by
  refine Machine.Respects.of_history (I := fun x => Virtual.Managed N tasks x.1 x.2)
    (fun x e hx hd => hx.legal hnodes hd) ?_ h hd
  intro x e x' hx hd hs
  obtain ⟨hs, hrecord⟩ := Machine.withHistory_step_iff.mp hs
  rw [hrecord]
  exact hx.step hnodes htables hd hs

/-- It ends with the books in order. -/
theorem Virtual.Managed.run (h : Virtual.Managed N tasks v owned) (hnodes : tasks.card ≤ N)
    (htables : tasks.card ≤ WAIT_HASHTABLE_CAPACITY)
    (hd : ((virtualMachine code).withHistory Virtual.recordStacks).Respects
      (Virtual.Disciplined code tasks) (v, owned) es) {v' : Virtual}
    (hrun : (virtualMachine code).run v es = some v') :
    ∃ owned', Virtual.Managed N tasks v' owned' := by
  obtain ⟨owned', hrun⟩ := Machine.run_withHistory hrun owned
  refine ⟨owned', Machine.run_keeps (I := fun x => Virtual.Managed N tasks x.1 x.2) ?_ h hd hrun⟩
  intro x e x' hx hd hs
  obtain ⟨hs, hrecord⟩ := Machine.withHistory_step_iff.mp hs
  rw [hrecord]
  exact hx.step hnodes htables hd hs

end Disciplined

/-! ## A sample run -/

/-- Every odd byte but that at 41 is the upper byte of an SVC. -/
def sampleCode : Code where
  flash a :=
    if a = 41 then 0
    else if a % 2 = 1 then SVC_OPCODE
    else if a = 20 then OS_SVC_ADD_TASK
    else if a = 32 then OS_SVC_SCHEDULE
    else if a = 42 then OS_SVC_EXIT
    else OS_SVC_ENABLE_SYSTICK
  taskEnd := 900
  idleTask := 30

/-- `main` is about to call `OS_addTask(100, 5)`; the idle task has its frame at 736. -/
def sampleProcessor : Processor where
  registers := { Registers.initial 0 20 100 with r1 := 5 }
  psp := 0
  msp := 2000
  usesPSP := false
  handlerMode := false
  exclusive := false
  memory a := if a = 1 then 800 else 0
  os :=
    { preemptive := true
      systickEnabled := false
      pendSV := false
      sched := .sampleSched 0
      channelManager := ChannelManager.initializeChannelManager 0 (fun _ => 0)
        (fun _ => ⟨none, 0, 0⟩) (fun _ => ⟨none, 0, 0⟩) 0 0 (fun _ _ => 0)
        fun _ => newChannel 0 0 fun _ => 0
      svcReturn := fun _ => 0 }

/-- What the handlers leave in the registers. -/
def sampleScratch : Registers := .initial 1 2 3

/-- The task pushes a word at the beginning of its function. -/
def samplePush : Instruction where
  reads := []
  writes := [(396, 7)]
  exclusive := .none
  next := ⟨.initial 900 42 7, 396, by decide⟩

/-- `main` starts the system, with one task. -/
def sampleBoot : List ProcessorEvent :=
  [.initialiseTCB 100 400 40 7, .svc 0 sampleScratch, .exceptionReturn, .start,
    .svc 0 sampleScratch, .exceptionReturn]

/-- The idle task calls the scheduler, which switches to task 100. -/
def sampleSwitch : List ProcessorEvent :=
  [.svc 0 sampleScratch, .pendSV Sched.toRoot sampleScratch, .exceptionReturn]

/-- Task 100 pushes a word, is interrupted, goes on and exits. -/
def sampleTask : List ProcessorEvent :=
  [.execute samplePush, .sysTick sampleScratch, .pendSV Sched.toRoot sampleScratch,
    .exceptionReturn, .svc 0 sampleScratch, .pendSV Sched.toRoot sampleScratch, .exceptionReturn]

/-- Every task of the sample run keeps to the discipline. -/
theorem sample_disciplined : ((virtualMachine sampleCode).withHistory Virtual.recordStacks).Respects
    (Virtual.Disciplined sampleCode {100})
    (sampleProcessor.booted (by decide), [⟨NULL, 1800, 2000⟩, ⟨1, 736, 800⟩])
    (sampleBoot ++ (sampleSwitch ++ sampleTask)) :=
  .of_checks (by decide +kernel)

theorem sample_booting : sampleProcessor.Booting := ⟨rfl, rfl, rfl, rfl, rfl, rfl⟩

theorem sample_sched : Sched.Booted 16 {100} (Sched.sampleSched 0) :=
  ⟨_, _, 0, 1, _, _, _, _, by decide, by decide, rfl⟩

theorem sample_laid : sampleProcessor.Laid ⟨NULL, 1800, 2000⟩ ⟨1, 736, 800⟩ :=
  ⟨rfl, rfl, by decide, by decide, by decide, by decide⟩

/-! ## Time sharing -/

/-- The event is none of the task: neither does it execute an instruction, nor is its
TCB initialised or retired. -/
def Processor.Leaves (tcb : Nat) (p : Processor) : ProcessorEvent → Prop
  | .execute _ | .svc .. => p.currentTCB ≠ tcb
  | .initialiseTCB tcb' .. | .retire tcb' => tcb' ≠ tcb
  | .start => p.currentTCB ≠ tcb ∧ p.os.sched.idleTCB ≠ tcb
  | _ => True

instance (tcb : Nat) (p : Processor) : (e : ProcessorEvent) → Decidable (p.Leaves tcb e)
  | .execute _ | .svc .. => inferInstanceAs (Decidable (p.currentTCB ≠ tcb))
  | .initialiseTCB tcb' .. | .retire tcb' => inferInstanceAs (Decidable (tcb' ≠ tcb))
  | .start => inferInstanceAs (Decidable (_ ∧ _))
  | .writeMutexes .. | .useChannel .. | .sysTick _ | .pendSV .. | .exceptionReturn =>
    inferInstanceAs (Decidable True)

/-- The event keeps the context of a task that it leaves alone. -/
theorem Virtual.step_context {e : ProcessorEvent} {v' : Virtual} {tcb : Nat} (h : Simulates p v)
    (hleaves : p.Leaves tcb e) (hs : v.step code e = some v') :
    v'.context tcb = v.context tcb := by
  cases e with
  | execute i =>
    -- an instruction is one of the current task
    have hne : tcb ≠ v.currentTCB := h.currentTCB ▸ Ne.symm hleaves
    simp only [step, execute, Option.bind_eq_bind, Option.bind_eq_some_iff] at hs
    obtain ⟨c, -, hs⟩ := hs
    split at hs
    · cases hs
      exact setContext_of_ne hne
    · cases hs
  | initialiseTCB tcb' stack func data =>
    simp only [step, initialiseTCB] at hs
    split at hs
    · split at hs
      · cases hs
        -- the only context that is new is that of the TCB
        exact setContext_of_ne (Ne.symm hleaves)
      · cases hs
    · cases hs
  | writeMutexes acquired mutexes | useChannel channel readTokens writeTokens queueLock queue =>
    simp only [step, share] at hs
    split at hs
    · cases hs
    · cases hs
      rfl
  | retire tcb' =>
    simp only [step, retire] at hs
    split at hs
    · cases hs
    · cases hs
      exact Function.update_of_ne (Ne.symm hleaves) _ _
  | start =>
    -- `main` ends here and the idle task begins; the task is neither of them
    obtain ⟨hmain, hidle⟩ := hleaves
    rw [← h.os] at hidle
    have hne : tcb ≠ v.currentTCB := h.currentTCB ▸ Ne.symm hmain
    simp only [step, start, Option.bind_eq_bind, Option.bind_eq_some_iff] at hs
    obtain ⟨main, -, sp, -, hs⟩ := hs
    split at hs
    · split at hs
      · cases hs
        exact (Function.update_of_ne hidle.symm _ _).trans (Function.update_of_ne hne _ _)
      · cases hs
    · cases hs
  | svc fuel scratch =>
    -- the result of the call is in the registers of the task that has called
    have hne : tcb ≠ v.currentTCB := h.currentTCB ▸ Ne.symm hleaves
    simp only [step, svc, Option.bind_eq_bind, Option.bind_eq_some_iff] at hs
    obtain ⟨c, -, hs⟩ := hs
    split at hs
    · simp only [Option.bind_eq_some_iff, Option.pure_def, Option.some.injEq] at hs
      obtain ⟨os, -, rfl⟩ := hs
      exact setContext_of_ne hne
    · cases hs
  | sysTick scratch =>
    simp only [step, sysTick] at hs
    split at hs
    · split at hs
      · cases hs
        rfl
      · simp only [Option.bind_eq_bind, Option.bind_eq_some_iff, Option.pure_def,
          Option.some.injEq] at hs
        obtain ⟨c, -, rfl⟩ := hs
        rfl
    · cases hs
  | pendSV switch scratch =>
    simp only [step, pendSV] at hs
    split at hs
    · simp only [Option.bind_eq_bind, Option.bind_eq_some_iff, Option.pure_def,
        Option.some.injEq] at hs
      obtain ⟨_, -, rfl⟩ := hs
      rfl
    · cases hs
  | exceptionReturn =>
    simp only [step, exceptionReturn] at hs
    split at hs
    · cases hs
      rfl
    · cases hs

/-- A task that is left alone in a legal run has the registers of its context when it is
current again. -/
theorem Simulates.resumes {tcb : Nat} {c : Context} (h : Simulates p v)
    (hc : v.context tcb = some c)
    (hleaves : (processorMachine code).Respects (Processor.Leaves tcb) p es)
    (hlegal : (virtualMachine code).Respects (Virtual.Legal code) v es)
    (hrun : (processorMachine code).run p es = some p') (hthread : p'.handlerMode = false)
    (hcurrent : p'.currentTCB = tcb) : p'.registers = c.registers ∧ p'.sp = c.sp := by
  obtain ⟨v', -, h', hc'⟩ := Machine.run_refines
    (R := fun (p : Processor) (v : Virtual) => Simulates p v ∧ v.context tcb = some c)
    (fun p v e p' hR hleaves hlegal hs => by
      obtain ⟨v', hs', h'⟩ := hR.1.step hlegal hs
      exact ⟨v', hs', h', (Virtual.step_context hR.1 hleaves hs').trans hR.2⟩)
    ⟨h, hc⟩ hleaves hlegal hrun
  obtain ⟨-, c', hcontext, hregisters, hsp⟩ := h'.thread hthread
  rw [hcurrent, hc', Option.some.injEq] at hcontext
  subst hcontext
  exact ⟨hregisters.symm, hsp.symm⟩

/-- What an exception resumes a task with: SVC with the next instruction. -/
def Registers.after (r : Registers) : ProcessorEvent → Registers
  | .svc .. => { r with pc := r.pc + 2 }
  | _ => r

/-- The event interrupts the current task. -/
def ProcessorEvent.Interrupts : ProcessorEvent → Prop
  | .svc .. | .sysTick _ => True
  | _ => False

theorem Virtual.context_of_interrupts {e : ProcessorEvent} {v' : Virtual} {c : Context}
    (he : e.Interrupts) (hmode : v.handlerMode = false) (hc : v.context v.currentTCB = some c)
    (hs : v.step code e = some v') :
    ∃ c', v'.context v.currentTCB = some c' ∧ c'.registers = c.registers.after e ∧
      c'.sp = c.sp := by
  cases e with
  | svc fuel scratch =>
    simp only [step, svc, hc, Option.bind_eq_bind, Option.bind_some] at hs
    split at hs
    · simp only [Option.bind_eq_some_iff, Option.pure_def, Option.some.injEq] at hs
      obtain ⟨os, -, rfl⟩ := hs
      exact ⟨c.advance, v.setContext_self _ _, rfl, rfl⟩
    · cases hs
  | sysTick scratch =>
    simp only [step, sysTick, hmode, hc, Bool.false_eq_true, ↓reduceIte, Option.bind_eq_bind,
      Option.bind_some, Option.pure_def] at hs
    split at hs
    · cases hs
      exact ⟨c, hc, rfl, rfl⟩
    · cases hs
  | _ => exact he.elim

end DocetOS
