import DocetOS.OS.HandlerBooks
import DocetOS.OS.Virtual

/-!
# What tasks have to keep to

`Virtual.Legal` speaks about all contexts at once. Here is what a task can see to by
itself: it stays on its stack, it writes to no TCB and no stack of another task, it adds
tasks that `OS_initialiseTCB` has made, and only tasks wait, sleep or exit
(`Virtual.Disciplined`). Who has which stack is history.

`Managed` is what these runs keep: the books of the scheduler are right, every task in
them has a context, and every context is on the stack of its task.

- `Managed.legal`: then every event is legal. In particular the scheduler chooses a
  task that has a context.
- `Managed.step`: every event keeps it so.
-/

namespace DocetOS

open Lib

/-! ## Stacks -/

/-- The memory of a task: the first word of its TCB, and its stack. -/
structure Stack where
  tcb : Nat
  low : Nat
  high : Nat
deriving DecidableEq

namespace Stack

variable {k k' : Stack} {c : Context} {a sp : Nat}

def words (k : Stack) : Set Nat := {a | a = k.tcb ∨ (k.low ≤ a ∧ a < k.high)}

instance (k : Stack) (a : Nat) : Decidable (a ∈ k.words) :=
  inferInstanceAs (Decidable (a = k.tcb ∨ (k.low ≤ a ∧ a < k.high)))

/-- The TCB is not on the stack. -/
def Sound (k : Stack) : Prop := 0 < k.low ∧ ¬ (k.low ≤ k.tcb ∧ k.tcb < k.high)

instance (k : Stack) : Decidable k.Sound :=
  inferInstanceAs (Decidable (0 < k.low ∧ ¬ (k.low ≤ k.tcb ∧ k.tcb < k.high)))

/-- Two tasks share no words. -/
def Apart (k k' : Stack) : Prop :=
  k.tcb ≠ k'.tcb ∧ ¬ (k'.low ≤ k.tcb ∧ k.tcb < k'.high) ∧
    ¬ (k.low ≤ k'.tcb ∧ k'.tcb < k.high) ∧ (k.high ≤ k'.low ∨ k'.high ≤ k.low)

instance (k k' : Stack) : Decidable (k.Apart k') :=
  inferInstanceAs (Decidable (_ ∧ _ ∧ _ ∧ _))

/-- There is room for a frame below the stack pointer. -/
def Holds (k : Stack) (sp : Nat) : Prop := k.low ≤ frameBottom sp ∧ sp ≤ k.high

instance (k : Stack) (sp : Nat) : Decidable (k.Holds sp) :=
  inferInstanceAs (Decidable (_ ∧ _))

/-- The stack of a task that `OS_initialiseTCB` makes: 64 words. -/
def initial (tcb stack : Nat) : Stack := ⟨tcb, stack - 256, stack⟩

theorem Apart.symm (h : k.Apart k') : k'.Apart k :=
  ⟨h.1.symm, h.2.2.1, h.2.1, h.2.2.2.symm⟩

instance : Std.Symm Apart := ⟨fun _ _ => Apart.symm⟩

theorem Apart.disjoint (h : k.Apart k') : Disjoint k.words k'.words := by
  obtain ⟨htcb, hout, hout', hstacks⟩ := h
  rw [Set.disjoint_left]
  rintro a (htask | ⟨hlo, hhi⟩) (htask' | ⟨hlo', hhi'⟩)
  · exact htcb (htask.symm.trans htask')
  · exact hout (htask ▸ ⟨hlo', hhi'⟩)
  · exact hout' (htask' ▸ ⟨hlo, hhi⟩)
  · omega

theorem Holds.reserved_subset (h : k.Holds c.sp) : c.reserved k.tcb ⊆ k.words := by
  rintro a (rfl | ⟨hlo, hhi⟩)
  · exact .inl rfl
  · exact .inr ⟨h.1.trans hlo, hhi.trans_le h.2⟩

theorem Holds.room (h : k.Holds sp) (hk : k.Sound) : 68 ≤ sp := by
  have hlow := hk.1
  have hbottom := h.1
  unfold frameBottom frameAddress at hbottom
  omega

theorem Holds.outside (h : k.Holds sp) (hk : k.Sound) :
    ¬ (frameBottom sp ≤ k.tcb ∧ k.tcb < sp) := by
  rintro ⟨hlo, hhi⟩
  exact hk.2 ⟨h.1.trans hlo, hhi.trans_le h.2⟩

theorem initial_holds {tcb stack : Nat} (h : (initial tcb stack).Sound) :
    (initial tcb stack).Holds stack := by
  have hlow : 0 < stack - 256 := h.1
  refine ⟨?_, Nat.le_refl _⟩
  show stack - 256 ≤ frameBottom stack
  unfold frameBottom frameAddress
  omega

end Stack

/-! ## The discipline -/

/-- Who may make a system call. `main` must go on, and the idle task is always ready. -/
def SvcHandler.Allowed (tasks : Finset Nat) (v : Virtual) (r : Registers) : SvcHandler → Prop
  | .addTask => v.os.sched.Unused tasks r.r0 ∧ (v.context r.r0).isSome = true
  | .wait | .sleep | .taskExit => v.currentTCB ∈ tasks
  | .yield | .schedule | .enableSystick => v.booting = false
  | _ => True

namespace Virtual

/-- The stacks after an event. -/
def recordStacks (v : Virtual) (e : ProcessorEvent) (owned : List Stack) : List Stack :=
  match e with
  | .initialiseTCB tcb stack _ _ => .initial tcb stack :: owned.filter fun k => k.tcb ≠ tcb
  | .retire tcb => owned.filter fun k => k.tcb ≠ tcb
  | .start => owned.filter fun k => k.tcb ≠ v.currentTCB
  | _ => owned

/-- What the current task keeps to in an event. -/
def Disciplined (code : Code) (tasks : Finset Nat) (p : Virtual × List Stack) :
    ProcessorEvent → Prop
  | .execute i => ∀ k ∈ p.2, if k.tcb = p.1.currentTCB then k.Holds i.next.sp
    else ∀ write ∈ i.writes, write.1 ∉ k.words
  | .initialiseTCB tcb stack _ _ =>
    p.1.os.sched.Unused tasks tcb ∧ (Stack.initial tcb stack).Sound ∧
    ∀ k ∈ p.2, k.tcb ≠ tcb → k.Apart (.initial tcb stack)
  | .retire tcb => tcb ∈ tasks ∧ tcb ∉ p.1.os.sched.scheduled
  | .start => ∃ sp ∈ p.1.memory p.1.os.sched.idleTCB, sp % 4 = 0 ∧
    ∃ k ∈ p.2, k.tcb = p.1.os.sched.idleTCB ∧ k.tcb ≠ p.1.currentTCB ∧ k.Holds sp
  | .svc _ _ => ∀ c ∈ p.1.context p.1.currentTCB,
    ∀ handler ∈ svcTable[code.flash c.registers.pc]?, handler.Allowed tasks p.1 c.registers
  | .sysTick _ => p.1.os.sched.ticks < UINT32_MAX
  | _ => True

instance (tasks : Finset Nat) (v : Virtual) (r : Registers) :
    (handler : SvcHandler) → Decidable (handler.Allowed tasks v r)
  | .addTask => inferInstanceAs (Decidable (_ ∧ _))
  | .wait | .sleep | .taskExit => inferInstanceAs (Decidable (v.currentTCB ∈ tasks))
  | .yield | .schedule | .enableSystick => inferInstanceAs (Decidable (v.booting = false))
  | .notify | .resourceAcquired | .channelManagerConnect | .channelManagerDisconnect
  | .channelManagerCheckAlive => inferInstanceAs (Decidable True)

instance (code : Code) (tasks : Finset Nat) (p : Virtual × List Stack) :
    (e : ProcessorEvent) → Decidable (Disciplined code tasks p e)
  | .execute i => inferInstanceAs (Decidable (∀ k ∈ p.2, if k.tcb = p.1.currentTCB
    then k.Holds i.next.sp else ∀ write ∈ i.writes, write.1 ∉ k.words))
  | .initialiseTCB .. => inferInstanceAs (Decidable (_ ∧ _ ∧ _))
  | .retire _ => inferInstanceAs (Decidable (_ ∧ _))
  | .start => inferInstanceAs (Decidable (∃ sp ∈ p.1.memory p.1.os.sched.idleTCB, sp % 4 = 0 ∧
    ∃ k ∈ p.2, k.tcb = p.1.os.sched.idleTCB ∧ k.tcb ≠ p.1.currentTCB ∧ k.Holds sp))
  | .svc _ _ => inferInstanceAs (Decidable (∀ c ∈ p.1.context p.1.currentTCB,
    ∀ handler ∈ svcTable[code.flash c.registers.pc]?, handler.Allowed tasks p.1 c.registers))
  | .sysTick _ => inferInstanceAs (Decidable (_ < _))
  | .writeMutexes .. | .useChannel .. | .pendSV .. | .exceptionReturn =>
    inferInstanceAs (Decidable True)

/-! ## What disciplined runs keep -/

/-- The books are right, and every task in them has a context, on its own stack. -/
structure Managed (N : Nat) (tasks : Finset Nat) (v : Virtual) (owned : List Stack) : Prop where
  kept : ∃ life, v.os.Kept N tasks life
  main : NULL ∉ tasks
  thread : v.handlerMode = false → v.os.pendSV = false
  boot : v.booting = true →
    v.currentTCB = NULL ∧ v.os.pendSV = false ∧ v.os.systickEnabled = false
  current : (v.context v.currentTCB).isSome = true
  idle : v.booting = false → (v.context v.os.sched.idleTCB).isSome = true
  scheduled : ∀ t ∈ v.os.sched.scheduled, (v.context t).isSome = true
  pairwise : owned.Pairwise Stack.Apart
  sound : ∀ k ∈ owned, k.Sound
  holds : ∀ t c, v.context t = some c → ∃ k ∈ owned, k.tcb = t ∧ k.Holds c.sp

namespace Managed

variable {code : Code} {N : Nat} {tasks : Finset Nat} {v v' : Virtual} {owned : List Stack}
  {e : ProcessorEvent} {t : Nat} {c : Context}

theorem stacks_apart (h : Managed N tasks v owned) {k k' : Stack} (hk : k ∈ owned)
    (hk' : k' ∈ owned) (hne : k.tcb ≠ k'.tcb) : k.Apart k' :=
  h.pairwise.forall hk hk' fun heq => hne (heq ▸ rfl)

/-- The current task is not one whose TCB is unused. -/
theorem ne_current (h : Managed N tasks v owned) (htask : t ∈ tasks)
    (hnot : t ∉ v.os.sched.scheduled) : t ≠ v.currentTCB := by
  rintro rfl
  obtain ⟨life, hkept⟩ := h.kept
  exact hnot (hkept.books.scheduled_of_held hkept.held htask)

theorem contexts_apart (h : Managed N tasks v owned) : v.Apart := by
  intro t c hc
  obtain ⟨k, hk, rfl, hholds⟩ := h.holds t c hc
  refine ⟨hholds.room (h.sound k hk), hholds.outside (h.sound k hk), ?_⟩
  intro t' c' hne hc'
  obtain ⟨k', hk', rfl, hholds'⟩ := h.holds t' c' hc'
  exact (h.stacks_apart hk hk' hne.symm).disjoint.mono hholds.reserved_subset
    hholds'.reserved_subset

/-- `main` makes no system call that switches the task. -/
theorem boot_handler (h : Managed N tasks v owned) (hboot : v.booting = true)
    {handler : SvcHandler} (hallowed : handler.Allowed tasks v c.registers) :
    handler ∉ [.wait, .sleep, .taskExit, .yield, .schedule, .enableSystick] := by
  have hmain : v.currentTCB ∉ tasks := (h.boot hboot).1 ▸ h.main
  intro hmem
  have hbooting : ¬ v.booting = false := by simp [hboot]
  cases handler <;> first | exact hmain hallowed | exact hbooting hallowed | simp at hmem

/-- **What the tasks keep to is enough**: the event is legal. -/
theorem legal (h : Managed N tasks v owned) (hnodes : tasks.card ≤ N)
    (hd : Disciplined code tasks (v, owned) e) : Legal code v e := by
  obtain ⟨life, hkept⟩ := h.kept
  cases e with
  | execute i =>
    intro t c hne hc
    -- the words of another task are in its stack, and the current task does not write there
    obtain ⟨k, hk, rfl, hholds⟩ := h.holds t c hc
    have hwrites := hd k hk
    rw [if_neg hne] at hwrites
    rw [Set.disjoint_left]
    rintro a ⟨write, hwrite, rfl⟩ ha
    exact hwrites write hwrite (hholds.reserved_subset ha)
  | initialiseTCB tcb stack func data =>
    obtain ⟨hunused, hsound, hapart⟩ := hd
    have hholds := Stack.initial_holds hsound
    refine ⟨h.ne_current hunused.1 hunused.2.1, hholds.room hsound, hholds.outside hsound, ?_⟩
    intro t c hne _ hc
    obtain ⟨k, hk, rfl, hholds'⟩ := h.holds t c hc
    refine (hapart k hk hne).symm.disjoint.mono ?_ hholds'.reserved_subset
    rintro a (htask | ⟨hlo, hhi⟩)
    · exact .inl htask
    · exact .inr ⟨hholds.1.trans hlo, hhi⟩
  | writeMutexes | useChannel | exceptionReturn => trivial
  | retire tcb => exact h.ne_current hd.1 hd.2
  | start =>
    obtain ⟨sp, hsp, hword, -⟩ := hd
    exact ⟨sp, hsp, hword⟩
  | svc fuel scratch =>
    -- before the start no system call asks for a switch
    refine ⟨h.contexts_apart, ?_⟩
    intro hboot v' hs
    simp only [svc, Option.bind_eq_bind, Option.bind_eq_some_iff] at hs
    obtain ⟨c, hc, hs⟩ := hs
    split at hs
    · simp only [Option.bind_eq_some_iff, Option.pure_def, Option.some.injEq] at hs
      obtain ⟨os, hdispatch, rfl⟩ := hs
      show os.pendSV = false
      rcases svcDispatch_cases hdispatch with ⟨handler, hget, hcall⟩ | rfl
      · have hnot := h.boot_handler hboot (hd c hc handler hget)
        rw [SvcHandler.call_pendSV (fun hmem => hnot (by simp at hmem ⊢; tauto)) hcall]
        exact (h.boot hboot).2.1
      · exact (h.boot hboot).2.1
    · cases hs
  | sysTick scratch =>
    refine ⟨?_, fun _ => h.contexts_apart⟩
    intro henabled
    -- SysTick is off before the start
    by_contra hboot
    rw [(h.boot (by simpa using hboot)).2.2] at henabled
    cases henabled
  | pendSV switch scratch =>
    intro hset os nextTCB hs
    obtain ⟨sched, hscheduler, rfl⟩ := OSState.schedulerFromPendSV_cases hs
    -- the scheduler returns the current task, a scheduled one or the idle task
    rcases hkept.books.scheduler_next hnodes hscheduler with rfl | hmem | rfl
    · exact h.current
    · exact h.scheduled _ hmem
    · refine h.idle ?_
      by_contra hboot
      rw [(h.boot (by simpa using hboot)).2.1] at hset
      cases hset

/-! ### Steps -/

/-- A task has moved its stack pointer, at most. -/
theorem holds_setContext {k : Stack} (h : Managed N tasks v owned) (hk : k ∈ owned)
    (htcb : k.tcb = t) (hholds : k.Holds c.sp) :
    ∀ u d, (v.setContext t c).context u = some d → ∃ k ∈ owned, k.tcb = u ∧ k.Holds d.sp := by
  intro u d hd
  by_cases hu : u = t
  · subst hu
    rw [setContext_self, Option.some.injEq] at hd
    exact ⟨k, hk, htcb, hd ▸ hholds⟩
  · rw [setContext_of_ne hu] at hd
    exact h.holds u d hd

theorem isSome_setContext (h : (v.context t).isSome = true) (u : Nat) (d : Context) :
    ((v.setContext u d).context t).isSome = true := by
  by_cases ht : t = u
  · rw [ht, setContext_self]
    rfl
  · rwa [setContext_of_ne ht]

theorem execute {i : Instruction} (h : Managed N tasks v owned)
    (hd : Disciplined code tasks (v, owned) (.execute i)) (hs : v.execute code i = some v') :
    Managed N tasks v' owned := by
  simp only [Virtual.execute, Option.bind_eq_bind, Option.bind_eq_some_iff] at hs
  obtain ⟨c, hc, hs⟩ := hs
  split at hs
  case isFalse => cases hs
  cases hs
  obtain ⟨k, hk, htcb, -⟩ := h.holds _ c hc
  have hnext := hd k hk
  rw [if_pos htcb] at hnext
  exact
    { h with
      current := isSome_setContext h.current _ _
      idle := fun hboot => isSome_setContext (h.idle hboot) _ _
      scheduled := fun t ht => isSome_setContext (h.scheduled t ht) _ _
      holds := h.holds_setContext hk htcb hnext }

theorem initialiseTCB {tcb stack func data : Nat} (h : Managed N tasks v owned)
    (hd : Disciplined code tasks (v, owned) (.initialiseTCB tcb stack func data))
    (hs : v.initialiseTCB code tcb stack func data = some v') :
    Managed N tasks v' (.initial tcb stack :: owned.filter fun k => k.tcb ≠ tcb) := by
  obtain ⟨hunused, hsound, hapart⟩ := hd
  simp only [Virtual.initialiseTCB] at hs
  split at hs
  case isFalse => cases hs
  split at hs
  case isFalse => cases hs
  cases hs
  obtain ⟨life, hkept⟩ := h.kept
  refine
    { h with
      kept := ⟨life, hkept.initialiseTCB hunused fun t => Sched.initialiseTCB t stack⟩
      current := isSome_setContext h.current _ _
      idle := fun hboot => isSome_setContext (h.idle hboot) _ _
      scheduled := fun t ht => isSome_setContext (h.scheduled t ht) _ _
      pairwise := List.pairwise_cons.mpr ⟨?_, h.pairwise.filter _⟩
      sound := ?_
      holds := ?_ }
  · intro k hk
    obtain ⟨hk, hne⟩ := List.mem_filter.mp hk
    exact (hapart k hk (by simpa using hne)).symm
  · intro k hk
    rcases List.mem_cons.mp hk with rfl | hk
    · exact hsound
    · exact h.sound k (List.mem_filter.mp hk).1
  · intro t d hc
    -- the new context is at the top of the new stack
    by_cases ht : t = tcb
    · subst ht
      have hc' : some _ = some d := (v.setContext_self t _).symm.trans hc
      cases hc'
      exact ⟨_, List.mem_cons_self, rfl, Stack.initial_holds hsound⟩
    · have hc' : v.context t = some d := (Function.update_of_ne ht _ _).symm.trans hc
      obtain ⟨k, hk, rfl, hholds⟩ := h.holds t d hc'
      exact ⟨k, List.mem_cons_of_mem _ (List.mem_filter.mpr ⟨hk, by simpa using ht⟩), rfl, hholds⟩

/-- What a task does to the structures it shares with others. -/
theorem share {f : OSState → OSState} (h : Managed N tasks v owned)
    (hkept : ∀ life, v.os.Kept N tasks life → (f v.os).Kept N tasks life)
    (hpend : (f v.os).pendSV = v.os.pendSV)
    (hsystick : (f v.os).systickEnabled = v.os.systickEnabled)
    (hcurrent : (f v.os).sched.currentTCB = v.os.sched.currentTCB)
    (hidle : (f v.os).sched.idleTCB = v.os.sched.idleTCB)
    (hscheduled : (f v.os).sched.scheduled = v.os.sched.scheduled)
    (hs : v.share f = some v') : Managed N tasks v' owned := by
  simp only [Virtual.share] at hs
  split at hs
  · cases hs
  cases hs
  obtain ⟨life, hlife⟩ := h.kept
  refine
    { h with
      kept := ⟨life, hkept life hlife⟩
      thread := fun hmode => hpend.trans (h.thread hmode)
      boot := fun hboot => ⟨hcurrent.trans (h.boot hboot).1, hpend.trans (h.boot hboot).2.1,
        hsystick.trans (h.boot hboot).2.2⟩
      current := ?_
      idle := ?_
      scheduled := ?_ }
  · show (v.context (f v.os).sched.currentTCB).isSome = true
    rw [hcurrent]
    exact h.current
  · intro hboot
    show (v.context (f v.os).sched.idleTCB).isSome = true
    rw [hidle]
    exact h.idle hboot
  · intro t (ht : t ∈ (f v.os).sched.scheduled)
    rw [hscheduled] at ht
    exact h.scheduled t ht

theorem retire {tcb : Nat} (h : Managed N tasks v owned)
    (hd : Disciplined code tasks (v, owned) (.retire tcb)) (hs : v.retire tcb = some v') :
    Managed N tasks v' (owned.filter fun k => k.tcb ≠ tcb) := by
  simp only [Virtual.retire] at hs
  split at hs
  · cases hs
  cases hs
  obtain ⟨life, hkept⟩ := h.kept
  -- only the task itself goes; it does not run, and it is not scheduled
  have hstays : ∀ t, t ≠ tcb → (v.context t).isSome = true →
      (Function.update v.context tcb none t).isSome = true := by
    intro t ht hsome
    rwa [Function.update_of_ne ht]
  refine
    { h with
      current := hstays _ (h.ne_current hd.1 hd.2).symm h.current
      idle := fun hboot => hstays _ (fun heq => hkept.books.idle (heq ▸ hd.1)) (h.idle hboot)
      scheduled := fun t ht => hstays t (fun heq => hd.2 (heq ▸ ht)) (h.scheduled t ht)
      pairwise := h.pairwise.filter _
      sound := fun k hk => h.sound k (List.mem_filter.mp hk).1
      holds := ?_ }
  intro t d hc
  by_cases ht : t = tcb
  · subst ht
    have hc' : Function.update v.context t none t = some d := hc
    rw [Function.update_self] at hc'
    cases hc'
  · have hc' : v.context t = some d := (Function.update_of_ne ht _ _).symm.trans hc
    obtain ⟨k, hk, rfl, hholds⟩ := h.holds t d hc'
    exact ⟨k, List.mem_filter.mpr ⟨hk, by simpa using ht⟩, rfl, hholds⟩

/-- `OS_start`. -/
theorem start (h : Managed N tasks v owned) (hd : Disciplined code tasks (v, owned) .start)
    (hs : v.start code = some v') :
    Managed N tasks v' (owned.filter fun k => k.tcb ≠ v.currentTCB) := by
  obtain ⟨sp, hsp, -, k, hk, htcb, hne, hholds⟩ := hd
  obtain ⟨life, hkept⟩ := h.kept
  simp only [Virtual.start, Option.bind_eq_bind, Option.bind_eq_some_iff] at hs
  obtain ⟨main, -, sp', hsp', hs⟩ := hs
  obtain rfl : sp = sp' := Option.some.inj (hsp.symm.trans hsp')
  split at hs
  case isFalse => cases hs
  split at hs
  case isFalse => cases hs
  rename_i hcan
  cases hs
  obtain ⟨hcurrent, hpend, -⟩ := h.boot hcan.2
  have hidle : ∀ c, (Function.update (Function.update v.context v.currentTCB none)
      v.os.sched.idleTCB (some c) v.os.sched.idleTCB).isSome = true := by
    intro c
    rw [Function.update_self]
    rfl
  have hsome : ∀ t, t ≠ v.currentTCB → (v.context t).isSome = true → ∀ c,
      (Function.update (Function.update v.context v.currentTCB none) v.os.sched.idleTCB (some c)
        t).isSome = true := by
    intro t ht hsome c
    by_cases hidle : t = v.os.sched.idleTCB
    · rw [hidle, Function.update_self]
      rfl
    · rwa [Function.update_of_ne hidle, Function.update_of_ne ht]
  exact
    { kept := ⟨life, hkept.start⟩
      main := h.main
      thread := fun _ => hpend
      boot := fun hboot => by cases hboot
      current := hidle _
      idle := fun _ => hidle _
      scheduled := fun t ht =>
        hsome t (fun heq => (hkept.books.known t ht).2 (heq.trans hcurrent)) (h.scheduled t ht) _
      pairwise := h.pairwise.filter _
      sound := fun k hk => h.sound k (List.mem_filter.mp hk).1
      holds := by
        intro u d hd
        -- `main` loses its stack, and the idle task begins on its own
        by_cases hidle : u = v.os.sched.idleTCB
        · subst hidle
          have hd' := (Function.update_self ..).symm.trans hd
          cases hd'
          exact ⟨k, List.mem_filter.mpr ⟨hk, by simpa using hne⟩, htcb, hholds⟩
        · have hd' : Function.update v.context v.currentTCB none u = some d :=
            (Function.update_of_ne hidle _ _).symm.trans hd
          by_cases hu : u = v.currentTCB
          · rw [hu, Function.update_self] at hd'
            cases hd'
          · rw [Function.update_of_ne hu] at hd'
            obtain ⟨k', hk', rfl, hholds'⟩ := h.holds u d hd'
            exact ⟨k', List.mem_filter.mpr ⟨hk', by simpa using hu⟩, rfl, hholds'⟩ }

theorem svc {fuel : Nat} {scratch : Registers} (h : Managed N tasks v owned)
    (hnodes : tasks.card ≤ N) (htables : tasks.card ≤ WAIT_HASHTABLE_CAPACITY)
    (hd : Disciplined code tasks (v, owned) (.svc fuel scratch))
    (hs : v.svc code fuel = some v') : Managed N tasks v' owned := by
  obtain ⟨life, hkept⟩ := h.kept
  simp only [Virtual.svc, Option.bind_eq_bind, Option.bind_eq_some_iff] at hs
  obtain ⟨c, hc, hs⟩ := hs
  split at hs
  case isFalse => cases hs
  rename_i hcan
  simp only [Option.bind_eq_some_iff, Option.pure_def, Option.some.injEq] at hs
  obtain ⟨os, hdispatch, rfl⟩ := hs
  have hno := h.thread hcan.1
  obtain ⟨k, hk, htcb, hholds⟩ := h.holds _ c hc
  -- what the handler leaves of the tasks
  obtain ⟨hlife, hidle, hscheduled, hboot⟩ : (∃ life', os.Kept N tasks life') ∧
      os.sched.idleTCB = v.os.sched.idleTCB ∧
      (∀ t ∈ os.sched.scheduled, (v.context t).isSome = true) ∧
      (v.booting = true → os.pendSV = false ∧ os.systickEnabled = false) := by
    rcases svcDispatch_cases hdispatch with ⟨handler, hget, hcall⟩ | rfl
    · have hallowed := hd c hc handler hget
      refine ⟨hkept.svc hnodes htables hno ?_ ?_ hcall, ?_, ?_, ?_⟩
      · rintro rfl
        exact hallowed.1
      · intro hmem
        cases handler <;> first | exact hallowed | simp at hmem
      · by_cases hadd : handler = .addTask
        · subst hadd
          cases hcall
          exact (v.os.sched.addTask_tasks _ _).2.1
        · exact (SvcHandler.call_sameTasks hadd hcall).idleTCB
      · intro t ht
        by_cases hadd : handler = .addTask
        · subst hadd
          cases hcall
          rcases List.mem_cons.mp ((v.os.sched.addTask_tasks _ _).2.2 ht) with rfl | ht
          · exact hallowed.2
          · exact h.scheduled t ht
        · exact h.scheduled t ((SvcHandler.call_sameTasks hadd hcall).scheduled ht)
      · intro hboot
        have hnot := h.boot_handler hboot hallowed
        refine ⟨?_, ?_⟩
        · rw [SvcHandler.call_pendSV (fun hmem => hnot (by simp at hmem ⊢; tauto)) hcall]
          exact hno
        · rw [SvcHandler.call_systickEnabled (fun heq => hnot (by simp [heq])) hcall]
          exact (h.boot hboot).2.2
    · exact ⟨⟨life, hkept⟩, rfl, h.scheduled, fun hboot => (h.boot hboot).2⟩
  have hcurrent : os.sched.currentTCB = v.currentTCB := svcDispatch_currentTCB hdispatch
  exact
    { kept := hlife
      main := h.main
      thread := fun hmode => by cases hmode
      boot := fun hbooting => ⟨hcurrent.trans (h.boot hbooting).1, hboot hbooting⟩
      current := by
        show ((v.setContext v.currentTCB c.advance).context os.sched.currentTCB).isSome = true
        rw [hcurrent, setContext_self]
        rfl
      idle := fun hbooting => by
        show ((v.setContext v.currentTCB c.advance).context os.sched.idleTCB).isSome = true
        rw [hidle]
        exact isSome_setContext (h.idle hbooting) _ _
      scheduled := fun t ht => isSome_setContext (hscheduled t ht) _ _
      pairwise := h.pairwise
      sound := h.sound
      holds := h.holds_setContext hk htcb (c := c.advance) hholds }

/-- A handler that leaves the tasks as they are. -/
theorem handler {os : OSState} {life : Nat → Lifecycle} (h : Managed N tasks v owned)
    (hkept : os.Kept N tasks life) (hbooting : v.booting = false)
    (hcurrent : (v.context os.sched.currentTCB).isSome = true)
    (hidle : os.sched.idleTCB = v.os.sched.idleTCB)
    (hscheduled : os.sched.scheduled ⊆ v.os.sched.scheduled) (memory : Nat → Option Nat) :
    Managed N tasks { v with memory, handlerMode := true, os } owned :=
  { kept := ⟨life, hkept⟩
    main := h.main
    thread := fun hmode => by cases hmode
    boot := fun hboot => by
      rw [show _ = v.booting from rfl, hbooting] at hboot
      cases hboot
    current := hcurrent
    idle := fun _ => by
      show (v.context os.sched.idleTCB).isSome = true
      rw [hidle]
      exact h.idle hbooting
    scheduled := fun t ht => h.scheduled t (hscheduled ht)
    pairwise := h.pairwise
    sound := h.sound
    holds := h.holds }

theorem sysTick {scratch : Registers} (h : Managed N tasks v owned)
    (hd : Disciplined code tasks (v, owned) (.sysTick scratch)) (hs : v.sysTick = some v') :
    Managed N tasks v' owned := by
  obtain ⟨life, hkept⟩ := h.kept
  have hticks : v.os.sched.ticks < UINT32_MAX := hd
  simp only [Virtual.sysTick] at hs
  split at hs
  case isFalse => cases hs
  rename_i hcan
  have hbooting : v.booting = false := by
    by_contra hboot
    rw [(h.boot (by simpa using hboot)).2.2] at hcan
    cases hcan.1
  have htick := fun memory => h.handler (hkept.sysTick hticks) hbooting h.current rfl
    (List.Subset.refl _) memory
  split at hs
  · rename_i hmode
    cases hs
    have hv := htick v.memory
    rw [← hmode] at hv
    exact hv
  · simp only [Option.bind_eq_bind, Option.bind_eq_some_iff, Option.pure_def,
      Option.some.injEq] at hs
    obtain ⟨c, -, rfl⟩ := hs
    exact htick _

theorem pendSV {switch : TaskSwitch} {scratch : Registers} (h : Managed N tasks v owned)
    (hnodes : tasks.card ≤ N) (hlegal : Legal code v (.pendSV switch scratch))
    (hs : v.pendSV switch = some v') : Managed N tasks v' owned := by
  obtain ⟨life, hkept⟩ := h.kept
  simp only [Virtual.pendSV] at hs
  split at hs
  case isFalse => cases hs
  rename_i hcan
  simp only [Option.bind_eq_bind, Option.bind_eq_some_iff, Option.pure_def,
    Option.some.injEq] at hs
  obtain ⟨⟨os, nextTCB⟩, hscheduler, rfl⟩ := hs
  obtain ⟨life', hlife'⟩ := hkept.pendSV hnodes hscheduler
  have hsame := OSState.schedulerFromPendSV_sameTasks hscheduler
  have hbooting : v.booting = false := by
    by_contra hboot
    rw [(h.boot (by simpa using hboot)).2.1] at hcan
    cases hcan.2
  have hv := h.handler hlife' hbooting (hlegal hcan.2 os nextTCB hscheduler) hsame.idleTCB
    hsame.scheduled v.memory
  rw [← hcan.1] at hv
  exact hv

theorem exceptionReturn (h : Managed N tasks v owned) (hs : v.exceptionReturn = some v') :
    Managed N tasks v' owned := by
  simp only [Virtual.exceptionReturn] at hs
  split at hs
  case isFalse => cases hs
  rename_i hcan
  cases hs
  exact { h with thread := fun _ => hcan.2 }

/-- **One event of a disciplined run.** -/
theorem step (h : Managed N tasks v owned) (hnodes : tasks.card ≤ N)
    (htables : tasks.card ≤ WAIT_HASHTABLE_CAPACITY)
    (hd : Disciplined code tasks (v, owned) e) (hs : v.step code e = some v') :
    Managed N tasks v' (v.recordStacks e owned) := by
  cases e with
  | execute i => exact h.execute hd hs
  | initialiseTCB tcb stack func data => exact h.initialiseTCB hd hs
  | writeMutexes acquired mutexes =>
    exact h.share (f := fun os => os.writeMutexes acquired mutexes)
      (fun life hkept => hkept.writeMutexes acquired mutexes) rfl rfl rfl rfl rfl hs
  | useChannel channel readTokens writeTokens queueLock queue =>
    exact h.share (f := fun os => os.useChannel channel readTokens writeTokens queueLock queue)
      (fun life hkept => { hkept with }) rfl rfl rfl rfl rfl hs
  | retire tcb => exact h.retire hd hs
  | start => exact h.start hd hs
  | svc fuel scratch => exact h.svc hnodes htables hd hs
  | sysTick scratch => exact h.sysTick hd hs
  | pendSV switch scratch => exact h.pendSV hnodes (h.legal hnodes hd) hs
  | exceptionReturn => exact h.exceptionReturn hs

end Managed

end Virtual

end DocetOS
