import DocetOS.Lib.Refinement
import DocetOS.OS.Virtual

/-!
# The context switch shares the processor

`Simulates` relates the processor to `Virtual`: what it has in its registers is the
context of the current task, and the contexts of the others are in their stack frames.
Every step that is legal keeps the relation (`Simulates.step`); the one that the task
switcher is for is `Simulates.taskSwitch`.
-/

namespace DocetOS

open Lib

/-! ## What an exception pushes -/

theorem SvcStackFrame.read_enter (memory : Nat → Nat) (sp : Nat) (r : Registers) :
    SvcStackFrame.read (r.enter memory sp).1 (r.enter memory sp).2 =
      { SvcStackFrame.ofRegisters r with psr := r.psr.stacked (decide (4 ≤ sp % 8)) } := by
  have hget : ∀ i (hi : i < 8), (r.enter memory sp).1 (frameAddress sp + 4 * i) =
      (r.frame (decide (4 ≤ sp % 8)))[i] := fun i hi => storeWords_get hi
  have h0 := hget 0 (by decide)
  rw [Nat.mul_zero, Nat.add_zero] at h0
  rw [show (r.enter memory sp).2 = frameAddress sp from rfl]
  simp only [read, h0, hget 1 (by decide), hget 2 (by decide), hget 3 (by decide),
    hget 4 (by decide), hget 5 (by decide), hget 6 (by decide), hget 7 (by decide)]
  rfl

/-- The handlers read the arguments only. -/
theorem svcDispatch_congr {os : OSState} {fuel number : Nat} {stack stack' : SvcStackFrame}
    (h0 : stack'.r0 = stack.r0) (h1 : stack'.r1 = stack.r1) (h2 : stack'.r2 = stack.r2) :
    svcDispatch os fuel number stack' = svcDispatch os fuel number stack := by
  have hcall : ∀ handler : SvcHandler,
      handler.call os fuel stack' = handler.call os fuel stack := by
    intro handler
    cases handler <;>
      simp only [SvcHandler.call, OSState.svcWait, OSState.svcNotify, OSState.svcAddTask,
        OSState.svcSleep, OSState.svcResourceAcquired, OSState.svcChannelManagerConnect,
        OSState.svcChannelManagerDisconnect, OSState.svcChannelManagerCheckAlive, h0, h1, h2]
  unfold svcDispatch
  split
  · exact hcall _
  · rfl

/-- The frame lies in the words that the context switch has for the task. -/
theorem Registers.enter_of_notMem {c : Context} {memory : Nat → Nat} {tcb a : Nat} (r : Registers)
    (hroom : 68 ≤ c.sp) (ha : a ∉ c.reserved tcb) : (r.enter memory c.sp).1 a = memory a := by
  obtain ⟨hframe, -⟩ := frameAddress_bounds c.wordAligned hroom
  have hbottom := frameBottom_add hroom
  rw [Context.mem_reserved] at ha
  have hlength : (r.frame (decide (4 ≤ c.sp % 8))).length = 8 := rfl
  by_cases hlt : a < frameAddress c.sp
  · exact storeWords_of_lt hlt
  · refine storeWords_of_le ?_
    rw [hlength]
    split at hframe <;> omega

/-- What the task switcher pushes does, too. -/
theorem Interrupted.stackRegisters_of_notMem {memory : Nat → Nat} {sp tcb a : Nat} {r : Registers}
    {c : Context} (h : Interrupted memory sp r tcb c) (ha : a ∉ c.reserved tcb) :
    Function.update (r.stackRegisters memory sp).1 tcb (r.stackRegisters memory sp).2 a =
      memory a := by
  have hroom := h.room
  have hbelow := h.below
  have habove := h.above
  rw [Context.mem_reserved, not_or] at ha
  rw [Function.update_of_ne ha.1]
  by_cases hlt : a < sp - 32
  · exact storeWords_of_lt hlt
  · exact storeWords_of_le (by simp only [List.length_cons, List.length_nil]; omega)

/-! ## The simulation relation -/

namespace Virtual

variable {v : Virtual} {tcb t : Nat} {c : Context}

/-- The words that the context switch has for the task are undefined. -/
def Forgotten (v : Virtual) (tcb : Nat) (c : Context) : Prop :=
  ∀ a ∈ c.reserved tcb, v.memory a = none

theorem forget_forgotten : (v.forget tcb c).Forgotten tcb c := fun _ ha => if_pos ha

theorem Forgotten.forget {t : Nat} {d : Context} (h : v.Forgotten t d) :
    (v.forget tcb c).Forgotten t d := by
  intro a ha
  show (if a ∈ c.reserved tcb then none else v.memory a) = none
  rw [h a ha, ite_self]

/-- The next instruction has the same stack pointer. -/
theorem Apart.advance (h : v.Apart) (hc : v.context tcb = some c) :
    (v.setContext tcb c.advance).Apart := by
  have hback : ∀ t d, (v.setContext tcb c.advance).context t = some d →
      ∃ d', v.context t = some d' ∧ d'.sp = d.sp := by
    intro t d hd
    by_cases ht : t = tcb
    · subst ht
      rw [setContext_self, Option.some.injEq] at hd
      exact ⟨c, hc, hd ▸ rfl⟩
    · rw [setContext_of_ne ht] at hd
      exact ⟨d, hd, rfl⟩
  intro t d hd
  obtain ⟨d', hd', hsp⟩ := hback t d hd
  obtain ⟨hroom, hout, hapart⟩ := h t d' hd'
  refine ⟨hsp ▸ hroom, hsp ▸ hout, ?_⟩
  intro t' e hne he
  obtain ⟨e', he', hsp'⟩ := hback t' e he
  have hdisjoint := hapart t' e' hne he'
  unfold Context.reserved at hdisjoint ⊢
  rw [← hsp, ← hsp']
  exact hdisjoint

end Virtual

/-- The processor stands for a processor for each task. The current task has its
registers in it, or has been interrupted; the others are saved. -/
structure Simulates (p : Processor) (v : Virtual) : Prop where
  os : v.os = p.os
  handlerMode : v.handlerMode = p.handlerMode
  booting : v.booting = !p.usesPSP
  memory : Agrees v.memory p.memory
  others : ∀ tcb c, tcb ≠ p.currentTCB → v.context tcb = some c →
    Saved p.memory tcb c ∧ v.Forgotten tcb c
  thread : p.handlerMode = false → p.os.pendSV = false ∧
    ∃ c, v.context p.currentTCB = some c ∧ c.registers = p.registers ∧ c.sp = p.sp
  interrupted : p.handlerMode = true → v.Apart ∧ (p.os.pendSV = true → p.usesPSP = true) ∧
    ∃ c, v.context p.currentTCB = some c ∧ v.Forgotten p.currentTCB c ∧
      Interrupted p.memory p.sp p.registers p.currentTCB c

namespace Simulates

variable {code : Code} {p p' : Processor} {v : Virtual}

theorem currentTCB (h : Simulates p v) : v.currentTCB = p.currentTCB :=
  congrArg (fun os : OSState => os.sched.currentTCB) h.os

theorem of_booted (hp : p.Booting) (hv : Virtual.Booted p v) : Simulates p v where
  os := hv.os
  handlerMode := hv.handlerMode.trans hp.handlerMode.symm
  booting := by rw [hv.booting, hp.usesPSP]; rfl
  memory := hv.memory
  others tcb c hne hc := by
    rw [hp.currentTCB] at hne
    rw [hv.context tcb hne] at hc
    cases hc
  thread _ := by
    obtain ⟨c, hc, hregisters, hsp⟩ := hv.main
    refine ⟨hp.pendSV, c, by rw [hp.currentTCB]; exact hc, hregisters, ?_⟩
    rw [hsp, Processor.sp, hp.usesPSP]
    rfl
  interrupted hmode := by
    rw [hp.handlerMode] at hmode
    cases hmode

/-! ## Steps in thread mode -/

theorem execute {i : Instruction} (h : Simulates p v) (hlegal : v.Legal code (.execute i))
    (hs : p.execute code i = some p') : ∃ v', v.execute code i = some v' ∧ Simulates p' v' := by
  unfold Processor.execute at hs
  split at hs
  case isFalse => cases hs
  case isTrue hcan =>
  obtain ⟨hmode, hopcode, hreads, -⟩ := hcan
  cases hs
  obtain ⟨hpend, c, hc, hregisters, -⟩ := h.thread hmode
  have hcurrent := h.currentTCB
  -- what the instruction reads is either known or forgotten, so the virtual machine can do it
  have hdefined : ∀ read ∈ i.reads, v.memory read.1 = none ∨ v.memory read.1 = some read.2 := by
    intro read hread
    cases hv : v.memory read.1 with
    | none => exact .inl rfl
    | some w => exact .inr (by rw [← hreads read hread, h.memory _ w hv])
  -- a legal instruction writes no word that is reserved for another task
  have hkeeps : ∀ tcb d, tcb ≠ p.currentTCB → v.context tcb = some d →
      ∀ a ∈ d.reserved tcb, ∀ write ∈ i.writes, write.1 ≠ a := by
    intro tcb d hne hd a ha write hwrite heq
    exact Set.disjoint_left.mp (hlegal tcb d (hcurrent ▸ hne) hd) ⟨write, hwrite, heq⟩ ha
  refine ⟨{ v.setContext p.currentTCB i.next with
    memory := assign v.memory (i.writes.map fun write => (write.1, some write.2)) }, ?_, ?_⟩
  · simp only [Virtual.execute, hcurrent, hc, Option.bind_eq_bind, Option.bind_some]
    exact if_pos ⟨h.handlerMode.trans hmode, by rw [hregisters]; exact hopcode, hdefined⟩
  exact
    { os := h.os.trans Processor.setSP_os.symm
      handlerMode := h.handlerMode.trans Processor.setSP_handlerMode.symm
      booting := by
        show v.booting = !(p.setSP i.next.sp).usesPSP
        rw [Processor.setSP_usesPSP, h.booting]
      memory := h.memory.assign i.writes
      others := by
        intro tcb d hne hd
        replace hne : tcb ≠ p.currentTCB := fun heq =>
          hne (heq.trans Processor.setSP_currentTCB.symm)
        have hd' : v.context tcb = some d := (Virtual.setContext_of_ne hne).symm.trans hd
        obtain ⟨hsaved, hforgotten⟩ := h.others tcb d hne hd'
        have hwrites := hkeeps tcb d hne hd'
        refine ⟨hsaved.congr fun a ha => assign_of_notMem (hwrites a ha), ?_⟩
        intro a ha
        show assign v.memory _ a = none
        rw [assign_of_notMem, hforgotten a ha]
        intro write hwrite
        obtain ⟨write', hwrite', rfl⟩ := List.mem_map.mp hwrite
        exact hwrites a ha write' hwrite'
      thread := by
        intro _
        refine ⟨by show (p.setSP i.next.sp).os.pendSV = false; rw [Processor.setSP_os, hpend],
          i.next, ?_, rfl, ?_⟩
        · show (v.setContext p.currentTCB i.next).context (p.setSP i.next.sp).currentTCB = _
          rw [Processor.setSP_currentTCB, Virtual.setContext_self]
        · exact Processor.setSP_sp.symm
      interrupted := by
        intro hmode'
        rw [show _ = p.handlerMode from Processor.setSP_handlerMode, hmode] at hmode'
        cases hmode' }

/-- A step that changes neither the registers nor the memory nor the current task. -/
theorem share {f : OSState → OSState} (h : Simulates p v) (hpend : ∀ os, (f os).pendSV = os.pendSV)
    (hcurrent : ∀ os, (f os).sched.currentTCB = os.sched.currentTCB) (hs : p.share f = some p') :
    ∃ v', v.share f = some v' ∧ Simulates p' v' := by
  unfold Processor.share at hs
  split at hs
  case isTrue => cases hs
  case isFalse hmode =>
  cases hs
  have hmode' : p.handlerMode = false := by simpa using hmode
  refine ⟨{ v with os := f v.os }, ?_, ?_⟩
  · rw [Virtual.share, h.handlerMode, hmode']
    rfl
  have hcurrent' : (f p.os).sched.currentTCB = p.currentTCB := hcurrent p.os
  exact
    { h with
      os := congrArg f h.os
      others := fun tcb c hne hc => h.others tcb c (hcurrent' ▸ hne) hc
      thread := by
        intro _
        obtain ⟨hpend', c, hc, hregisters, hsp⟩ := h.thread hmode'
        refine ⟨(hpend p.os).trans hpend', c, ?_, hregisters, hsp⟩
        show v.context (f p.os).sched.currentTCB = some c
        rw [hcurrent', hc]
      interrupted := fun hhandler => absurd hhandler hmode }

theorem retire {tcb : Nat} (h : Simulates p v) (hlegal : v.Legal code (.retire tcb))
    (hs : p.share id = some p') : ∃ v', v.retire tcb = some v' ∧ Simulates p' v' := by
  unfold Processor.share at hs
  split at hs
  case isTrue => cases hs
  case isFalse hmode =>
  cases hs
  have hmode' : p.handlerMode = false := by simpa using hmode
  have hne : p.currentTCB ≠ tcb := h.currentTCB ▸ (Ne.symm hlegal)
  refine ⟨{ v with context := Function.update v.context tcb none }, ?_, ?_⟩
  · rw [Virtual.retire, h.handlerMode, hmode']
    rfl
  have hback : ∀ t c, Function.update v.context tcb none t = some c → v.context t = some c := by
    intro t c hc
    by_cases ht : t = tcb
    · rw [ht, Function.update_self] at hc
      cases hc
    · rwa [Function.update_of_ne ht] at hc
  exact
    { h with
      others := fun t c ht hc => h.others t c ht (hback t c hc)
      thread := by
        intro _
        obtain ⟨hpend, c, hc, hregisters, hsp⟩ := h.thread hmode'
        exact ⟨hpend, c, (Function.update_of_ne hne _ _).trans hc, hregisters, hsp⟩
      interrupted := fun hhandler => absurd hhandler hmode }

theorem initialiseTCB {tcb stack func data : Nat} (h : Simulates p v)
    (hlegal : v.Legal code (.initialiseTCB tcb stack func data))
    (hs : p.initialiseTCB code tcb stack func data = some p') :
    ∃ v', v.initialiseTCB code tcb stack func data = some v' ∧ Simulates p' v' := by
  unfold Processor.initialiseTCB at hs
  split at hs
  case isFalse => cases hs
  case isTrue hcan =>
  obtain ⟨hmode, hword⟩ := hcan
  cases hs
  obtain ⟨hne, hroom, hout, hapart⟩ := hlegal
  rw [h.currentTCB] at hne
  let c := Context.initial code.taskEnd func data stack hword
  have hsaved : Saved (initialiseStack p.memory tcb stack code.taskEnd func data) tcb c :=
    initialise_saved hword hroom hout
  have hbottom := frameBottom_le hroom
  -- the words it writes are those that the context switch has for the new task
  have hframe : ∀ a, a ∉ c.reserved tcb →
      initialiseStack p.memory tcb stack code.taskEnd func data a = p.memory a := by
    intro a ha
    rw [Context.mem_reserved, not_or] at ha
    have hsp : c.sp = stack := rfl
    rw [hsp] at ha
    by_cases hlt : a < stack - 64
    · exact (storeWords_of_lt hlt).trans (Function.update_of_ne ha.1 _ _)
    · refine (storeWords_of_le ?_).trans (Function.update_of_ne ha.1 _ _)
      have hlength : (initialFrame code.taskEnd func data).length = 16 := rfl
      rw [hlength]
      omega
  refine ⟨{ (v.setContext tcb c).forget tcb c with
    os := { v.os with
      sched := v.os.sched.modifyTCB tcb fun t => Sched.initialiseTCB t stack } }, ?_, ?_⟩
  · rw [Virtual.initialiseTCB, h.handlerMode, hmode, if_pos rfl, dif_pos hword]
  exact
    { os := by rw [h.os]
      handlerMode := h.handlerMode
      booting := h.booting
      memory := h.memory.forget hframe
      others := by
        intro t d ht hd
        by_cases htcb : t = tcb
        · subst htcb
          have hd' : some c = some d := (v.setContext_self t c).symm.trans hd
          cases hd'
          exact ⟨hsaved, Virtual.forget_forgotten⟩
        · have hd' : v.context t = some d := (Virtual.setContext_of_ne htcb).symm.trans hd
          obtain ⟨hsaved', hforgotten⟩ := h.others t d ht hd'
          have hdisjoint := hapart t d htcb (h.currentTCB ▸ ht) hd'
          refine ⟨hsaved'.congr fun a ha => hframe a ?_, hforgotten.forget⟩
          exact fun hin => Set.disjoint_left.mp hdisjoint hin ha
      thread := by
        intro _
        obtain ⟨hpend, d, hd, hregisters, hsp⟩ := h.thread hmode
        exact ⟨hpend, d, (Virtual.setContext_of_ne hne.symm).trans hd, hregisters, hsp⟩
      interrupted := fun hhandler => by
        rw [show _ = p.handlerMode from rfl, hmode] at hhandler
        cases hhandler }

theorem start (h : Simulates p v) (hlegal : v.Legal code .start)
    (hs : p.taskInitSwitch code = some p') : ∃ v', v.start code = some v' ∧ Simulates p' v' := by
  unfold Processor.taskInitSwitch at hs
  split at hs
  case isFalse => cases hs
  case isTrue hcan =>
  obtain ⟨hmode, hmain⟩ := hcan
  cases hs
  obtain ⟨sp, hsp, hword⟩ := hlegal
  rw [h.os] at hsp
  have hmemory : p.memory p.os.sched.idleTCB = sp := h.memory _ sp hsp
  obtain ⟨hpend, c, hc, hregisters, -⟩ := h.thread hmode
  -- the idle task goes on with the registers of `main`, on a stack of its own
  let idle : Context :=
    { registers := { c.registers with
        r0 := p.os.sched.idleTCB, r1 := sp, r2 := 3, pc := code.idleTask }
      sp
      wordAligned := hword }
  refine ⟨{ v with
    context := Function.update (Function.update v.context p.currentTCB none) p.os.sched.idleTCB
      (some idle)
    booting := false
    os := p.os.switchTo p.os.sched.idleTCB }, ?_, ?_⟩
  · simp only [Virtual.start, h.currentTCB, h.os, hc, hsp, Option.bind_eq_bind, Option.bind_some]
    rw [dif_pos hword, if_pos ⟨h.handlerMode.trans hmode, by rw [h.booting, hmain]; rfl⟩]
    rfl
  exact
    { os := rfl
      handlerMode := h.handlerMode
      booting := rfl
      memory := h.memory
      others := by
        intro t d (ht : t ≠ p.os.sched.idleTCB) hd
        have hd' : Function.update v.context p.currentTCB none t = some d :=
          (Function.update_of_ne ht _ _).symm.trans hd
        by_cases hcurrent : t = p.currentTCB
        · rw [hcurrent, Function.update_self] at hd'
          cases hd'
        · rw [Function.update_of_ne hcurrent] at hd'
          exact h.others t d hcurrent hd'
      thread := by
        intro _
        refine ⟨hpend, idle, Function.update_self _ _ _, ?_, ?_⟩
        · simp only [idle, hregisters, hmemory]
        · exact hmemory.symm
      interrupted := fun hhandler => by
        rw [show _ = p.handlerMode from rfl, hmode] at hhandler
        cases hhandler }

/-! ## Exceptions -/

/-- An exception interrupts the current task, whose registers are then those of `c`, and
its handler leaves `os`. -/
theorem beginException {os : OSState} {c : Context} (h : Simulates p v) (hsp : c.sp = p.sp)
    (hapart : (v.setContext p.currentTCB c).Apart) (hcurrent : os.sched.currentTCB = p.currentTCB)
    (hpend : os.pendSV = true → p.usesPSP = true) (scratch : Registers) :
    Simulates ({ { p with registers := c.registers }.beginException with os }.clobber scratch)
      { (v.setContext p.currentTCB c).forget p.currentTCB c with handlerMode := true, os } := by
  obtain ⟨hroom, hout, hothers⟩ := hapart p.currentTCB c (v.setContext_self _ _)
  let q := ({ p with registers := c.registers } : Processor)
  have hq : q.sp = c.sp := hsp.symm
  have hmemory : q.beginException.memory = (c.registers.enter p.memory c.sp).1 := by
    rw [← hq]
    rfl
  have hqsp : q.beginException.sp = (c.registers.enter p.memory c.sp).2 := by
    rw [← hq]
    exact Processor.setSP_sp
  have hframe : ∀ a, a ∉ c.reserved p.currentTCB → q.beginException.memory a = p.memory a := by
    intro a ha
    rw [hmemory]
    exact Registers.enter_of_notMem c.registers hroom ha
  have husesPSP : q.beginException.usesPSP = p.usesPSP := Processor.setSP_usesPSP
  exact
    { os := rfl
      handlerMode := rfl
      booting := by
        show v.booting = !q.beginException.usesPSP
        rw [husesPSP, h.booting]
      memory := h.memory.forget hframe
      others := by
        intro t d (ht : t ≠ os.sched.currentTCB) hd
        rw [hcurrent] at ht
        have hd' : v.context t = some d := (Virtual.setContext_of_ne ht).symm.trans hd
        -- the frame lies in words that are reserved for the current task only
        obtain ⟨hsaved, hforgotten⟩ := h.others t d ht hd'
        have hdisjoint := hothers t d ht hd
        refine ⟨hsaved.congr fun a ha => hframe a ?_, hforgotten.forget⟩
        exact fun hin => Set.disjoint_left.mp hdisjoint hin ha
      thread := fun hthread => by cases hthread
      interrupted := by
        intro _
        refine ⟨hapart, fun hset => husesPSP.trans (hpend hset), c, ?_, ?_, ?_⟩
        · show (v.setContext p.currentTCB c).context os.sched.currentTCB = some c
          rw [hcurrent, Virtual.setContext_self]
        · show Virtual.Forgotten _ os.sched.currentTCB c
          rw [hcurrent]
          exact Virtual.forget_forgotten
        · have hinterrupted := c.interrupted p.memory scratch hroom hout
          rw [← hmemory, ← hqsp] at hinterrupted
          have hregisters : q.beginException.registers = c.registers := Processor.setSP_registers
          show Interrupted q.beginException.memory q.beginException.sp
            (q.beginException.registers.clobber scratch) os.sched.currentTCB c
          rw [hcurrent, hregisters]
          exact hinterrupted }

theorem svc {fuel : Nat} {scratch : Registers} (h : Simulates p v)
    (hlegal : v.Legal code (.svc fuel scratch)) (hs : p.svc code fuel scratch = some p') :
    ∃ v', v.svc code fuel = some v' ∧ Simulates p' v' := by
  unfold Processor.svc at hs
  split at hs
  case isFalse => cases hs
  case isTrue hcan =>
  obtain ⟨hmode, hopcode⟩ := hcan
  obtain ⟨hapart, hboot⟩ := hlegal
  obtain ⟨hpend, c, hc, hregisters, hsp⟩ := h.thread hmode
  have hset := hapart.advance hc
  obtain ⟨hroom, -, -⟩ := hapart _ _ hc
  let q := ({ p with registers := c.advance.registers } : Processor)
  have hq : { p with registers := { p.registers with pc := p.registers.pc + 2 } } = q := by
    simp only [q, Context.advance, hregisters]
  -- what the handler reads in the frame
  have hread : SvcStackFrame.read q.beginException.memory q.beginException.sp =
      { SvcStackFrame.ofRegisters c.advance.registers with
        psr := c.advance.registers.psr.stacked (decide (4 ≤ q.sp % 8)) } := by
    have hframe := SvcStackFrame.read_enter q.memory q.sp q.registers
    rw [show q.beginException.sp = (q.registers.enter q.memory q.sp).2 from Processor.setSP_sp]
    exact hframe
  have hpc : q.beginException.memory (q.beginException.sp + 24) = c.registers.pc + 2 :=
    congrArg SvcStackFrame.pc hread
  simp only [hq, Processor.svcHandler, hpc, Nat.add_sub_cancel, Option.bind_eq_bind,
    Option.bind_assoc, Option.bind_eq_some_iff, Option.pure_def, Option.bind_some,
    Option.some.injEq] at hs
  obtain ⟨os, hdispatch, rfl⟩ := hs
  have hos : q.beginException.os = p.os := Processor.setSP_os
  have hdispatch' : svcDispatch v.os fuel (code.flash c.registers.pc)
      (.ofRegisters c.registers) = some os := by
    rw [h.os, ← hos, ← hdispatch]
    refine svcDispatch_congr ?_ ?_ ?_ <;> rw [hread] <;> rfl
  have hv' : v.svc code fuel = some { (v.setContext v.currentTCB c.advance).forget v.currentTCB
      c.advance with handlerMode := true, os } := by
    simp only [Virtual.svc, h.currentTCB, hc, Option.bind_eq_bind, Option.bind_some]
    rw [if_pos ⟨h.handlerMode.trans hmode, by rw [hregisters]; exact hopcode⟩, hdispatch']
    rfl
  refine ⟨_, hv', ?_⟩
  rw [h.currentTCB] at hv' ⊢
  refine h.beginException (c := c.advance) hsp hset ?_ ?_ scratch
  · rw [svcDispatch_currentTCB hdispatch, hos]
    rfl
  · intro hpend'
    by_contra hmain
    have hbooting : v.booting = true := by
      rw [h.booting, Bool.not_eq_true _ |>.mp hmain]
      rfl
    have hno := hboot hbooting _ hv'
    rw [show _ = os.pendSV from rfl, hpend'] at hno
    cases hno

/-- A handler of another exception runs before the processor goes back to thread mode. -/
theorem handler {os : OSState} (h : Simulates p v) (hmode : p.handlerMode = true)
    (hcurrent : os.sched.currentTCB = p.currentTCB) (hpend : os.pendSV = true → p.usesPSP = true)
    (scratch : Registers) : Simulates ({ p with os }.clobber scratch) { v with os } :=
  { os := rfl
    handlerMode := h.handlerMode
    booting := h.booting
    memory := h.memory
    others := fun t c ht hc => h.others t c (hcurrent ▸ ht) hc
    thread := fun hthread => by
      rw [show _ = p.handlerMode from rfl, hmode] at hthread
      cases hthread
    interrupted := by
      intro _
      obtain ⟨hapart, -, c, hc, hforgotten, hinterrupted⟩ := h.interrupted hmode
      refine ⟨hapart, hpend, c, ?_, ?_, ?_⟩
      · show v.context os.sched.currentTCB = some c
        rw [hcurrent, hc]
      · show v.Forgotten os.sched.currentTCB c
        rw [hcurrent]
        exact hforgotten
      · show Interrupted p.memory p.sp (p.registers.clobber scratch) os.sched.currentTCB c
        rw [hcurrent]
        exact hinterrupted.clobber scratch }

theorem sysTick {scratch : Registers} (h : Simulates p v) (hlegal : v.Legal code (.sysTick scratch))
    (hs : p.sysTick scratch = some p') : ∃ v', v.sysTick = some v' ∧ Simulates p' v' := by
  unfold Processor.sysTick at hs
  split at hs
  case isFalse => cases hs
  case isTrue hcan =>
  have hcan' : v.os.systickEnabled = true ∧ v.os.pendSV = false := by rw [h.os]; exact hcan
  obtain ⟨hbooting, hapart⟩ := hlegal
  have husesPSP : p.usesPSP = true := by simpa [h.booting] using hbooting hcan'.1
  cases hmode : p.handlerMode with
  | true =>
    rw [hmode, if_pos rfl] at hs
    cases hs
    refine ⟨{ v with os := p.os.sysTickHandler }, ?_, ?_⟩
    · rw [Virtual.sysTick, if_pos hcan', if_pos (h.handlerMode.trans hmode), h.os]
    · have hcurrent : p.os.sysTickHandler.sched.currentTCB = p.currentTCB := rfl
      exact h.handler hmode hcurrent (fun _ => husesPSP) scratch
  | false =>
    have hos : p.beginException.os = p.os := Processor.setSP_os
    simp only [hmode, Bool.false_eq_true, ↓reduceIte, hos, Option.some.injEq] at hs
    cases hs
    have hmode' := h.handlerMode.trans hmode
    obtain ⟨-, c, hc, hregisters, hsp⟩ := h.thread hmode
    -- the registers of the current task are those of its context already
    have hset : v.setContext p.currentTCB c = v := by
      simp only [Virtual.setContext, ← hc, Function.update_eq_self]
    refine ⟨{ v.forget p.currentTCB c with
      handlerMode := true
      os := p.os.sysTickHandler }, ?_, ?_⟩
    · rw [Virtual.sysTick, if_pos hcan', if_neg (by rw [hmode']; exact Bool.false_ne_true),
        h.currentTCB, hc, h.os]
      rfl
    · have hcurrent : p.os.sysTickHandler.sched.currentTCB = p.currentTCB := rfl
      have hbegin := h.beginException hsp (by rw [hset]; exact hapart hmode') hcurrent
        (fun _ => husesPSP) scratch
      rw [hset, hregisters] at hbegin
      exact hbegin

/-- **The task switch**: the task that was interrupted is saved, and the next one stands
where it was interrupted itself. -/
theorem taskSwitch {nextTCB : Nat} (h : Simulates p v) (hmode : p.handlerMode = true)
    (husesPSP : p.usesPSP = true) (hpend : p.os.pendSV = false)
    (hnext : (v.context nextTCB).isSome) :
    Simulates (p.taskSwitch nextTCB)
      { v with os := p.os.switchTo nextTCB } := by
  by_cases hsame : p.currentTCB = nextTCB
  · -- the switcher does nothing if the next task is the current one
    have hv : ({ v with os := p.os.switchTo nextTCB } : Virtual) = v := by
      rw [← hsame, Processor.currentTCB, ← h.os]
      rfl
    rw [Processor.taskSwitch, if_pos hsame, hv]
    exact h
  obtain ⟨hapart, -, c, hc, hforgotten, hinterrupted⟩ := h.interrupted hmode
  obtain ⟨d, hd⟩ := Option.isSome_iff_exists.mp hnext
  have hpsp : p.sp = p.psp := if_pos husesPSP
  rw [hpsp] at hinterrupted
  -- the memory after the first half of the switch, in which the registers are stacked
  obtain ⟨memory, hmemory⟩ : ∃ memory, memory = Function.update
      (p.registers.stackRegisters p.memory p.psp).1 p.currentTCB
      (p.registers.stackRegisters p.memory p.psp).2 := ⟨_, rfl⟩
  have hframe : ∀ a, a ∉ c.reserved p.currentTCB → memory a = p.memory a := by
    intro a ha
    rw [hmemory]
    exact hinterrupted.stackRegisters_of_notMem ha
  have hcurrent : Saved memory p.currentTCB c := hmemory ▸ hinterrupted.save
  -- the others are apart from the frame and stay saved
  have hothers : ∀ t e, t ≠ p.currentTCB → v.context t = some e →
      Saved memory t e ∧ v.Forgotten t e := by
    intro t e ht he
    obtain ⟨hsaved, hforgotten'⟩ := h.others t e ht he
    obtain ⟨-, -, hdisjoint⟩ := hapart _ _ hc
    exact ⟨hsaved.congr fun a ha => hframe a fun hin =>
      Set.disjoint_left.mp (hdisjoint t e ht he) hin ha, hforgotten'⟩
  obtain ⟨hsaved, hforgotten'⟩ := hothers nextTCB d (Ne.symm hsame) hd
  -- the second half takes the registers of the next task back
  have hswitch : p.taskSwitch nextTCB = { p with
      registers := (p.registers.unstackRegisters memory (memory nextTCB)).1
      psp := (p.registers.unstackRegisters memory (memory nextTCB)).2
      memory
      exclusive := false
      os := p.os.switchTo nextTCB } := by
    rw [Processor.taskSwitch, if_neg hsame, hmemory]
  rw [hswitch]
  exact
    { os := rfl
      handlerMode := h.handlerMode
      booting := h.booting
      memory := by
        intro a w (hw : v.memory a = some w)
        have ha : a ∉ c.reserved p.currentTCB := fun ha => by
          rw [hforgotten a ha] at hw
          cases hw
        exact (hframe a ha).trans (h.memory a w hw)
      others := by
        intro t e _ he
        by_cases ht : t = p.currentTCB
        · subst ht
          obtain rfl : c = e := Option.some.inj (hc.symm.trans he)
          exact ⟨hcurrent, hforgotten⟩
        · exact hothers t e ht he
      thread := fun hthread => by
        rw [show _ = p.handlerMode from rfl, hmode] at hthread
        cases hthread
      interrupted := by
        intro _
        refine ⟨hapart, fun hset => ?_, d, hd, hforgotten', ?_⟩
        · have hno : p.os.pendSV = true := hset
          rw [hpend] at hno
          cases hno
        · rw [Processor.sp, if_pos husesPSP]
          exact hsaved.unstack p.registers }

theorem pendSV {switch : TaskSwitch} {scratch : Registers} (h : Simulates p v)
    (hlegal : v.Legal code (.pendSV switch scratch))
    (hs : p.pendSVHandler switch scratch = some p') :
    ∃ v', v.pendSV switch = some v' ∧ Simulates p' v' := by
  unfold Processor.pendSVHandler at hs
  split at hs
  case isFalse => cases hs
  case isTrue hcan =>
  obtain ⟨hmode, hset⟩ := hcan
  simp only [Option.bind_eq_bind, Option.bind_eq_some_iff, Option.pure_def,
    Option.some.injEq] at hs
  obtain ⟨⟨os, nextTCB⟩, hscheduler, rfl⟩ := hs
  have husesPSP := (h.interrupted hmode).2.1 hset
  have hpend : os.pendSV = false := by
    obtain ⟨sched, -, rfl⟩ := OSState.schedulerFromPendSV_cases hscheduler
    rfl
  have hhandler := h.handler hmode (OSState.schedulerFromPendSV_sameTasks hscheduler).currentTCB
    (fun _ => husesPSP) scratch
  refine ⟨{ v with os := os.switchTo nextTCB }, ?_, ?_⟩
  · rw [Virtual.pendSV, if_pos ⟨h.handlerMode.trans hmode, by rw [h.os]; exact hset⟩, h.os,
      hscheduler]
    rfl
  · exact hhandler.taskSwitch hmode husesPSP hpend (hlegal (h.os ▸ hset) os nextTCB
      (h.os.symm ▸ hscheduler))

theorem exceptionReturn (h : Simulates p v) (hs : p.exceptionReturn = some p') :
    ∃ v', v.exceptionReturn = some v' ∧ Simulates p' v' := by
  unfold Processor.exceptionReturn at hs
  split at hs
  case isFalse => cases hs
  case isTrue hcan =>
  obtain ⟨hmode, hpend⟩ := hcan
  obtain ⟨-, -, c, hc, -, hinterrupted⟩ := h.interrupted hmode
  -- the frame on the stack is that of the context
  rw [hinterrupted.restores] at hs
  cases hs
  refine ⟨{ v with handlerMode := false }, ?_, ?_⟩
  · exact if_pos ⟨h.handlerMode.trans hmode, by rw [h.os]; exact hpend⟩
  exact
    { os := h.os.trans Processor.setSP_os.symm
      handlerMode := rfl
      booting := by
        show v.booting = !(p.setSP c.sp).usesPSP
        rw [Processor.setSP_usesPSP, h.booting]
      memory := by
        show Agrees v.memory (p.setSP c.sp).memory
        rw [Processor.setSP_memory]
        exact h.memory
      others := by
        intro t d ht hd
        replace ht : t ≠ p.currentTCB := fun heq => ht (heq.trans Processor.setSP_currentTCB.symm)
        show Saved (p.setSP c.sp).memory t d ∧ _
        rw [Processor.setSP_memory]
        exact h.others t d ht hd
      thread := by
        intro _
        refine ⟨?_, c, ?_, rfl, Processor.setSP_sp.symm⟩
        · show (p.setSP c.sp).os.pendSV = false
          rw [Processor.setSP_os, hpend]
        · show v.context (p.setSP c.sp).currentTCB = some c
          rw [Processor.setSP_currentTCB, hc]
      interrupted := fun hhandler => by cases hhandler }

/-! ## Runs -/

/-- The step lemma. -/
theorem step {e : ProcessorEvent} (h : Simulates p v) (hlegal : v.Legal code e)
    (hs : p.step code e = some p') : ∃ v', v.step code e = some v' ∧ Simulates p' v' := by
  cases e with
  | execute i => exact h.execute hlegal hs
  | initialiseTCB tcb stack func data => exact h.initialiseTCB hlegal hs
  | writeMutexes acquired mutexes =>
    exact h.share (f := fun os => os.writeMutexes acquired mutexes) (fun _ => rfl) (fun _ => rfl) hs
  | useChannel channel readTokens writeTokens queueLock queue =>
    exact h.share (f := fun os => os.useChannel channel readTokens writeTokens queueLock queue)
      (fun _ => rfl) (fun _ => rfl) hs
  | retire tcb => exact h.retire hlegal hs
  | start => exact h.start hlegal hs
  | svc fuel scratch => exact h.svc hlegal hs
  | sysTick scratch => exact h.sysTick hlegal hs
  | pendSV switch scratch => exact h.pendSV hlegal hs
  | exceptionReturn => exact h.exceptionReturn hs

end Simulates

end DocetOS
