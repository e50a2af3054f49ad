import DocetOS.OS.ContextSwitch

/-!
# Exclusive access across task switches

An LDREX and the STREX that belongs to it are two instructions, and the timer may come
between them: the scheduler may give the processor to a task that takes the same mutex.
`_task_switch` ends with CLREX, so that the STREX of the first task fails then.

`exclusive_atomic` is what this buys. The runs of tasks on mutexes and semaphores are
modelled with a monitor that a context switch closes; here that monitor is the one of
the processor. It is open here after an exception that switches no task, so that more
STREX succeed than need to.
-/

namespace DocetOS

open Lib

/-- The event is an LDREX. -/
def ProcessorEvent.Loads : ProcessorEvent → Prop
  | .execute i => i.exclusive = .load
  | _ => False

instance : (e : ProcessorEvent) → Decidable e.Loads
  | .execute i => inferInstanceAs (Decidable (i.exclusive = .load))
  | .initialiseTCB .. | .writeMutexes .. | .useChannel .. | .retire _ | .start | .svc ..
  | .sysTick _ | .pendSV .. | .exceptionReturn => inferInstanceAs (Decidable False)

namespace Processor

/-- The event does not write to the word: neither does the current task, nor does an
exception push its frame over it. -/
def WritesElsewhere (a : Nat) (p : Processor) : ProcessorEvent → Prop
  | .execute i => ∀ write ∈ i.writes, write.1 ≠ a
  | .initialiseTCB tcb stack _ _ => a ≠ tcb ∧ (a < stack - 64 ∨ stack - 64 + 64 ≤ a)
  | .svc .. => a < frameAddress p.sp ∨ frameAddress p.sp + 32 ≤ a
  | .sysTick _ => p.handlerMode = false → a < frameAddress p.sp ∨ frameAddress p.sp + 32 ≤ a
  | _ => True

instance (a : Nat) (p : Processor) : (e : ProcessorEvent) → Decidable (p.WritesElsewhere a e)
  | .execute i => inferInstanceAs (Decidable (∀ write ∈ i.writes, write.1 ≠ a))
  | .initialiseTCB .. => inferInstanceAs (Decidable (_ ∧ (_ ∨ _)))
  | .svc .. => inferInstanceAs (Decidable (_ ∨ _))
  | .sysTick _ => inferInstanceAs (Decidable (_ = false → _ ∨ _))
  | .writeMutexes .. | .useChannel .. | .retire _ | .start | .pendSV .. | .exceptionReturn =>
    inferInstanceAs (Decidable True)

/-- What an event leaves as it was while the monitor stays open. -/
structure KeepsMonitor (a : Nat) (p : Processor) (e : ProcessorEvent) (p' : Processor) : Prop where
  exclusive : p.exclusive = true
  currentTCB : p'.currentTCB = p.currentTCB
  memory : p.WritesElsewhere a e → p'.memory a = p.memory a

variable {code : Code} {p p' p₁ p₂ p₃ : Processor} {e : ProcessorEvent} {es : List ProcessorEvent}
  {a : Nat}

/-- The frame of an exception. -/
theorem beginException_memory (h : a < frameAddress p.sp ∨ frameAddress p.sp + 32 ≤ a) :
    p.beginException.memory a = p.memory a := by
  show storeWords p.memory (frameAddress p.sp) (p.registers.frame _) a = p.memory a
  rcases h with hlt | hle
  · exact storeWords_of_lt hlt
  · exact storeWords_of_le hle

theorem beginException_exclusive (p : Processor) : p.beginException.exclusive = p.exclusive :=
  setSP_exclusive

theorem beginException_os (p : Processor) : p.beginException.os = p.os := setSP_os

/-- Once the first task runs, thread mode stays on the process stack. -/
theorem step_usesPSP (hs : p.step code e = some p') (h : p.usesPSP = true) :
    p'.usesPSP = true := by
  cases e with
  | execute i =>
    simp only [step, execute] at hs
    split at hs
    · cases hs
      exact setSP_usesPSP.trans h
    · cases hs
  | initialiseTCB tcb stack func data =>
    simp only [step, initialiseTCB] at hs
    split at hs
    · cases hs
      exact h
    · cases hs
  | writeMutexes acquired mutexes | useChannel channel readTokens writeTokens queueLock queue
    | retire tcb =>
    simp only [step, share] at hs
    split at hs
    · cases hs
    · cases hs
      exact h
  | start =>
    simp only [step, taskInitSwitch] at hs
    split at hs
    · cases hs
      -- the start is where the process stack comes into use
      rfl
    · cases hs
  | svc fuel scratch =>
    simp only [step, svc] at hs
    split at hs
    · simp only [svcHandler, Option.bind_eq_bind, Option.bind_eq_some_iff, Option.pure_def,
        Option.some.injEq] at hs
      obtain ⟨_, ⟨os, -, rfl⟩, rfl⟩ := hs
      -- the stack pointer that an exception moves is the one in use, and it stays in use
      exact setSP_usesPSP.trans h
    · cases hs
  | sysTick scratch =>
    simp only [step, sysTick] at hs
    split at hs
    · cases hs
      show (if p.handlerMode then p else p.beginException).usesPSP = true
      split
      · exact h
      · exact setSP_usesPSP.trans h
    · cases hs
  | pendSV switch scratch =>
    simp only [step, pendSVHandler] at hs
    split at hs
    · simp only [Option.bind_eq_bind, Option.bind_eq_some_iff, Option.pure_def,
        Option.some.injEq] at hs
      obtain ⟨⟨os, nextTCB⟩, -, rfl⟩ := hs
      unfold taskSwitch
      dsimp only
      split <;> exact h
    · cases hs
  | exceptionReturn =>
    simp only [step, exceptionReturn] at hs
    split at hs
    · cases hs
      exact setSP_usesPSP.trans h
    · cases hs

/-- **An event after which the monitor is open**, and that is no LDREX, is one of the
task that has opened it. -/
theorem step_keepsMonitor (hs : p.step code e = some p') (hpsp : p.usesPSP = true)
    (hload : ¬ e.Loads) (hopen : p'.exclusive = true) : KeepsMonitor a p e p' := by
  cases e with
  | execute i =>
    simp only [step, execute] at hs
    split at hs
    · cases hs
      refine ⟨?_, setSP_currentTCB, assign_of_notMem⟩
      change p.monitorAfter i.exclusive = true at hopen
      change ¬ i.exclusive = .load at hload
      -- CLREX and STREX close the monitor, and a load is excluded
      unfold monitorAfter at hopen
      split at hopen
      · exact hopen
      · contradiction
      · cases hopen
      · cases hopen
    · cases hs
  | initialiseTCB tcb stack func data =>
    simp only [step, initialiseTCB] at hs
    split at hs
    · cases hs
      refine ⟨hopen, rfl, ?_⟩
      -- it writes the first word of the TCB and the frame, where `a` is not
      rintro ⟨hne, hout⟩
      show initialiseStack p.memory tcb stack code.taskEnd func data a = p.memory a
      unfold initialiseStack
      rcases hout with hlt | hle
      · rw [storeWords_of_lt hlt, Function.update_of_ne hne]
      · rw [storeWords_of_le hle, Function.update_of_ne hne]
    · cases hs
  | writeMutexes acquired mutexes | useChannel channel readTokens writeTokens queueLock queue
    | retire tcb =>
    simp only [step, share] at hs
    split at hs
    · cases hs
    · cases hs
      exact ⟨hopen, rfl, fun _ => rfl⟩
  | start =>
    simp only [step, taskInitSwitch] at hs
    split at hs
    · -- the system starts only once
      rename_i hmain
      rw [hpsp] at hmain
      cases hmain.2
    · cases hs
  | svc fuel scratch =>
    simp only [step, svc] at hs
    split at hs
    · simp only [svcHandler, Option.bind_eq_bind, Option.bind_eq_some_iff, Option.pure_def,
        Option.some.injEq] at hs
      obtain ⟨_, ⟨os, hdispatch, rfl⟩, rfl⟩ := hs
      -- the handler writes the frame of the exception, and changes the monitor no more than that
      let q : Processor := { p with registers := { p.registers with pc := p.registers.pc + 2 } }
      refine ⟨q.beginException_exclusive.symm.trans hopen, ?_, beginException_memory (p := q)⟩
      exact (svcDispatch_currentTCB hdispatch).trans
        (congrArg (fun os : OSState => os.sched.currentTCB) q.beginException_os)
    · cases hs
  | sysTick scratch =>
    simp only [step, sysTick] at hs
    split at hs
    · -- an interrupt of a handler pushes its frame on the main stack
      by_cases hmode : p.handlerMode = true
      · rw [if_pos hmode] at hs
        cases hs
        exact ⟨hopen, rfl, fun _ => rfl⟩
      · rw [if_neg hmode] at hs
        cases hs
        refine ⟨p.beginException_exclusive.symm.trans hopen, ?_, ?_⟩
        · show p.beginException.os.sched.currentTCB = p.currentTCB
          rw [p.beginException_os]
          rfl
        intro h
        exact beginException_memory (h (by simpa using hmode))
    · cases hs
  | pendSV switch scratch =>
    simp only [step, pendSVHandler] at hs
    split at hs
    · simp only [Option.bind_eq_bind, Option.bind_eq_some_iff, Option.pure_def,
        Option.some.injEq] at hs
      obtain ⟨⟨os, nextTCB⟩, hscheduler, rfl⟩ := hs
      have hcurrent := (OSState.schedulerFromPendSV_sameTasks hscheduler).currentTCB
      unfold taskSwitch at hopen ⊢
      dsimp only at hopen ⊢
      split at hopen
      · rename_i hsame
        rw [if_pos hsame]
        exact ⟨hopen, hcurrent, fun _ => rfl⟩
      · -- CLREX
        cases hopen
    · cases hs
  | exceptionReturn =>
    simp only [step, exceptionReturn] at hs
    split at hs
    · cases hs
      exact ⟨setSP_exclusive.symm.trans hopen, setSP_currentTCB, fun _ => congrFun setSP_memory a⟩
    · cases hs

/-- The run form. -/
theorem run_keepsMonitor (hrun : (processorMachine code).run p es = some p')
    (hpsp : p.usesPSP = true) (hloads : ∀ e ∈ es, ¬ e.Loads) (hopen : p'.exclusive = true) :
    p.exclusive = true ∧ p'.currentTCB = p.currentTCB ∧
      (processorMachine code).Respects (fun q _ => q.currentTCB = p.currentTCB) p es ∧
      ((processorMachine code).Respects (WritesElsewhere a) p es → p'.memory a = p.memory a) := by
  induction es generalizing p with
  | nil =>
    simp only [Machine.run, Option.some.injEq] at hrun
    subst hrun
    exact ⟨hopen, rfl, trivial, fun _ => rfl⟩
  | cons e es ih =>
    simp only [Machine.run, Option.bind_eq_some_iff] at hrun
    obtain ⟨q, hq, hrun⟩ := hrun
    -- backwards: the monitor is open after the event, and so it was before
    obtain ⟨hexclusive, hcurrent, hrest, hmemory⟩ := ih hrun (step_usesPSP hq hpsp)
      fun e he => hloads e (List.mem_cons_of_mem _ he)
    have hkeeps : KeepsMonitor a p e q :=
      step_keepsMonitor hq hpsp (hloads e List.mem_cons_self) hexclusive
    rw [hkeeps.currentTCB] at hcurrent hrest
    refine ⟨hkeeps.exclusive, hcurrent, ⟨rfl, ?_⟩, ?_⟩
    · intro q' hq'
      obtain rfl : q = q' := Option.some.inj (hq.symm.trans hq')
      exact hrest
    · rintro ⟨hwrites, hrest⟩
      exact (hmemory (hrest q hq)).trans (hkeeps.memory hwrites)

/-- **Atomic updates**: when a STREX of a run stores and no LDREX has come since the
last one, every event in between is one of the task of that LDREX, and so is the STREX;
a word that it has read is still there, unless it has written to it itself or an
exception has pushed its frame over it. -/
theorem exclusive_atomic {i j : Instruction} (hpsp : p₁.usesPSP = true)
    (hload : p₁.step code (.execute i) = some p₂)
    (hrun : (processorMachine code).run p₂ es = some p₃) (hloads : ∀ e ∈ es, ¬ e.Loads)
    (hstore : j.exclusive = .store) (hstores : (p₃.step code (.execute j)).isSome = true) :
    (processorMachine code).Respects (fun q _ => q.currentTCB = p₁.currentTCB) p₂ es ∧
      p₃.currentTCB = p₁.currentTCB ∧
      ∀ a w, (a, w) ∈ i.reads → (∀ write ∈ i.writes, write.1 ≠ a) →
        (processorMachine code).Respects (WritesElsewhere a) p₂ es → p₃.memory a = w := by
  -- the STREX stores only while the monitor is open
  have hopen : p₃.exclusive = true := by
    simp only [step, execute] at hstores
    split at hstores
    · rename_i hok
      exact hok.2.2.2 hstore
    · cases hstores
  have hpsp₂ := step_usesPSP hload hpsp
  obtain ⟨-, hcurrent, htask, -⟩ := run_keepsMonitor (a := 0) hrun hpsp₂ hloads hopen
  simp only [step, execute] at hload
  split at hload
  case isFalse => cases hload
  rename_i hok
  rw [Option.some.injEq] at hload
  subst hload
  have htcb : (p₁.setSP i.next.sp).os.sched.currentTCB = p₁.currentTCB := setSP_currentTCB
  refine ⟨htcb ▸ htask, hcurrent.trans htcb, ?_⟩
  intro a w hread hkeeps hwrites
  obtain ⟨-, -, -, hmemory⟩ := run_keepsMonitor (a := a) hrun hpsp₂ hloads hopen
  -- what the LDREX has read is in memory right after it
  have hword : assign p₁.memory i.writes a = w := by
    rw [assign_of_notMem hkeeps]
    exact hok.2.2.1 (a, w) hread
  exact (hmemory hwrites).trans hword

end Processor

/-- An LDREX or a STREX of task 100 on the word 600. -/
def sampleExclusive (exclusive : ExclusiveAccess) (reads writes : List (Nat × Nat)) : Instruction :=
  ⟨reads, writes, exclusive, ⟨.initial 900 40 7, 400, by decide⟩⟩

/-- The timer interrupts task 100, which goes on. -/
def sampleTick : List ProcessorEvent :=
  [.sysTick sampleScratch, .pendSV Sched.toRoot sampleScratch, .exceptionReturn]

theorem exclusive_atomic_sample :
    ∃ p₁ p₂ p₃, (processorMachine sampleCode).run sampleProcessor (sampleBoot ++ sampleSwitch) =
        some p₁ ∧
      p₁.step sampleCode (.execute (sampleExclusive .load [(600, 0)] [])) = some p₂ ∧
      (processorMachine sampleCode).run p₂ sampleTick = some p₃ ∧
      (processorMachine sampleCode).Respects (fun q _ => q.currentTCB = p₁.currentTCB) p₂
        sampleTick ∧
      p₃.currentTCB = p₁.currentTCB ∧ p₃.memory 600 = 0 := by
  obtain ⟨p₁, hrun₁, hpsp⟩ := Machine.exists_run (P := fun p => p.usesPSP = true)
    (M := processorMachine sampleCode) (s := sampleProcessor) (e := sampleBoot ++ sampleSwitch)
    (by decide +kernel)
  have hruns : ((((processorMachine sampleCode).run sampleProcessor
      (sampleBoot ++ sampleSwitch)).bind fun p =>
      p.step sampleCode (.execute (sampleExclusive .load [(600, 0)] []))).any fun p₂ =>
        (processorMachine sampleCode).checks (Processor.WritesElsewhere 600) p₂ sampleTick &&
        ((processorMachine sampleCode).run p₂ sampleTick).any fun p₃ =>
          (p₃.step sampleCode (.execute (sampleExclusive .store [] [(600, 1)]))).isSome) =
      true := by
    decide +kernel
  rw [hrun₁, Option.bind_some, Option.any_eq_true] at hruns
  obtain ⟨p₂, hload, hruns⟩ := hruns
  rw [Bool.and_eq_true, Option.any_eq_true] at hruns
  obtain ⟨hwrites, p₃, hrun, hstores⟩ := hruns
  obtain ⟨htask, hcurrent, hmemory⟩ :=
    Processor.exclusive_atomic hpsp hload hrun (by decide) rfl hstores
  exact ⟨p₁, p₂, p₃, hrun₁, hload, hrun, htask, hcurrent,
    hmemory 600 0 List.mem_cons_self (by decide) (.of_checks hwrites)⟩

end DocetOS
