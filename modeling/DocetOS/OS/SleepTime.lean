import DocetOS.OS.Lifecycle

/-!
# How long a task sleeps

`__updateSleepState` takes the ticks since the last call off the remaining time,
from two readings of a counter that rolls over. When the counter has rolled over
in between, the difference through `UINT32_MAX` is one tick short
(`elapsedTicks_add_rollovers`), so what a sleeping task has left is

  `data2 = duration - (ticks since the request) + (rollovers since the request)`

after every call (`Counted`). A sleep hence never ends early
(`sleep_never_early`), and its accounting is exact as long as no rollover is in
the way (`elapsed_exact_iff`).
-/

namespace DocetOS

open Lib

namespace Sched

/-! ## One call -/

/-- The ticks between two readings of the counter, as `__updateSleepState`
computes them. -/
def elapsedTicks (lastSleepStateUpdate currentTime : Nat) : Nat :=
  if currentTime < lastSleepStateUpdate then
    wrap (currentTime + (UINT32_MAX - lastSleepStateUpdate))
  else currentTime - lastSleepStateUpdate

/-- Two readings less than a full round apart: the elapsed ticks, and one less if
the counter has rolled over. -/
theorem elapsedTicks_add_rollovers {last now : Nat} (hle : last ≤ now)
    (hround : now - last < 4294967296) :
    elapsedTicks (wrap last) (wrap now) + (now / 4294967296 - last / 4294967296) = now - last := by
  unfold elapsedTicks
  by_cases hrollover : wrap now < wrap last
  · rw [if_pos hrollover]
    simp only [wrap, UINT32_MAX] at *
    omega
  · rw [if_neg hrollover]
    simp only [wrap] at *
    omega

/-- The flag after a reading of the counter in `__updateSleepState`. -/
def noteRollover (s : Sched) (task : Nat) : Sched :=
  { s with
      systickRolloverDetectedFLAG :=
        if s.ticks < (s.tcb task).data then 1 else s.systickRolloverDetectedFLAG }

/-- A task that sleeps on gets a new time stamp, and `elapsed` ticks less. -/
def keepAsleep (s : Sched) (task elapsed : Nat) : Sched :=
  s.modifyTCB task fun tcb => { tcb with data := s.ticks, data2 := tcb.data2 - elapsed }

/-- What `__updateSleepState` does to a sleeping task: with enough ticks elapsed
it wakes the task, and it takes them off the remaining time otherwise. -/
theorem updateSleepState_sleeping {s : Sched} {task : Nat}
    (hsleep : (s.tcb task).state.sleep = true) :
    ((s.tcb task).data2 ≤ elapsedTicks (s.tcb task).data s.ticks ∧
        s.updateSleepState task = ((s.noteRollover task).wakeSleeper task, false)) ∨
      (elapsedTicks (s.tcb task).data s.ticks < (s.tcb task).data2 ∧
        s.updateSleepState task = ((s.noteRollover task).keepAsleep task
          (elapsedTicks (s.tcb task).data s.ticks), true)) := by
  have hunfold : s.updateSleepState task =
      if (s.tcb task).data2 ≤ elapsedTicks (s.tcb task).data s.ticks then
        ((s.noteRollover task).wakeSleeper task, false)
      else ((s.noteRollover task).keepAsleep task (elapsedTicks (s.tcb task).data s.ticks),
        true) := by
    simp only [updateSleepState, hsleep, Bool.true_eq_false, if_false, noteRollover, elapsedTicks]
    by_cases hrollover : s.ticks < (s.tcb task).data
    · simp only [hrollover, if_true]
      simp [wakeSleeper, keepAsleep, modifyTCB]
    · simp only [hrollover, if_false]
      simp [wakeSleeper, keepAsleep, modifyTCB]
  rw [hunfold]
  by_cases htime : (s.tcb task).data2 ≤ elapsedTicks (s.tcb task).data s.ticks
  · exact .inl ⟨htime, if_pos htime⟩
  · exact .inr ⟨Nat.not_le.mp htime, if_neg htime⟩

/-- A task that does not sleep is left alone. -/
theorem updateSleepState_awake {s : Sched} {task : Nat} (h : (s.tcb task).state.sleep = false) :
    s.updateSleepState task = (s, false) := by
  simp only [updateSleepState, h, if_true]

theorem wakeSleeper_sleep (s : Sched) (task : Nat) :
    ((s.wakeSleeper task).tcb task).state.sleep = false := by
  simp only [wakeSleeper, modifyTCB_tcb, if_true]

theorem wakeSleeper_ticks (s : Sched) (task : Nat) : (s.wakeSleeper task).ticks = s.ticks := by
  simp only [wakeSleeper, modifyTCB]
  rw [returnToSchedulerHeap_rest]

theorem updateSleepState_ticks (s : Sched) (task : Nat) :
    (s.updateSleepState task).1.ticks = s.ticks := by
  cases hsleep : (s.tcb task).state.sleep with
  | false => rw [updateSleepState_awake hsleep]
  | true =>
    rcases updateSleepState_sleeping hsleep with ⟨-, hs⟩ | ⟨-, hs⟩
    · rw [hs]
      exact wakeSleeper_ticks _ _
    · rw [hs]
      rfl

end Sched

/-! ## Runs -/

/-- A task that has asked for sleep. `now` and `lastCall` count the ticks without
rolling over: those up to now and up to the last call for this task. -/
structure Sleep where
  sched : Sched
  now : Nat
  lastCall : Nat

inductive SleepEvent where
  /-- Time passes, and the rest of the system does anything. -/
  | others (ticks : Nat) (sched : Sched)
  /-- `__updateSleepState` is called for the task. -/
  | update

namespace Sleep

/-- The task sleeps and has the same time stamp and remaining time. -/
def SameSleep (task : Nat) (s s' : Sched) : Prop :=
  (s'.tcb task).state.sleep = (s.tcb task).state.sleep ∧ (s'.tcb task).data = (s.tcb task).data ∧
    (s'.tcb task).data2 = (s.tcb task).data2

instance (task : Nat) (s s' : Sched) : Decidable (SameSleep task s s') :=
  inferInstanceAs (Decidable (_ ∧ _))

/-- Two calls for one task are less than a full round of the counter apart. -/
def step (task : Nat) (s : Sleep) : SleepEvent → Option Sleep
  | .others ticks sched =>
    if SameSleep task s.sched sched ∧ sched.ticks = wrap (s.now + ticks) then
      some { s with sched, now := s.now + ticks }
    else none
  | .update =>
    if s.now - s.lastCall < 4294967296 then
      some { s with sched := (s.sched.updateSleepState task).1, lastCall := s.now }
    else none

/-- The task, which is active, has asked for `duration` ticks of sleep at the
tick `request`. -/
def Requested (task duration request : Nat) (s : Sleep) : Prop :=
  ∃ sched : Sched, sched.ticks = wrap request ∧ (sched.activeTasksHashTable.remove task).2 ≠ NULL ∧
    s = { sched := sched.sleepCallback task duration, now := request, lastCall := request }

/-- The sleep bit of the task is set. -/
def Sleeping (task : Nat) (s : Sleep) : Prop := (s.sched.tcb task).state.sleep = true

instance (task : Nat) (s : Sleep) : Decidable (s.Sleeping task) :=
  inferInstanceAs (Decidable (_ = _))

end Sleep

/-- The runs of one sleep. -/
def sleepMachine (task duration request : Nat) : Machine Sleep SleepEvent where
  init := Sleep.Requested task duration request
  step := Sleep.step task

namespace Sleep

variable {task duration request : Nat} {s s' : Sleep} {e : SleepEvent}

/-- The number of rollovers of the counter between two ticks. -/
def rollovers (earlier later : Nat) : Nat := later / 4294967296 - earlier / 4294967296

/-- The invariant: the remaining time of a sleeping task is what it asked for,
less the ticks up to the last call, plus the rollovers up to then. -/
structure Counted (task duration request : Nat) (s : Sleep) : Prop where
  request_le : request ≤ s.lastCall
  lastCall_le : s.lastCall ≤ s.now
  ticks : s.sched.ticks = wrap s.now
  data : s.Sleeping task → (s.sched.tcb task).data = wrap s.lastCall
  data2 : s.Sleeping task → (s.sched.tcb task).data2 + (s.lastCall - request) =
    duration + rollovers request s.lastCall

theorem Requested.counted (hd : 0 < duration) (h : Requested task duration request s) :
    Counted task duration request s := by
  obtain ⟨sched, hticks, hactive, rfl⟩ := h
  have hsleep : sched.sleepCallback task duration = sched.fallAsleep task duration := by
    simp only [Sched.sleepCallback]
    rw [if_neg (Nat.pos_iff_ne_zero.mp hd), if_pos hactive]
    rfl
  refine
    { request_le := Nat.le_refl _
      lastCall_le := Nat.le_refl _
      ticks := ?_
      data := fun _ => ?_
      data2 := fun _ => ?_ }
  · rw [hsleep]
    exact hticks
  · simp [hsleep, Sched.fallAsleep, Sched.modifyTCB, hticks]
  · simp [hsleep, Sched.fallAsleep, Sched.modifyTCB, rollovers]

/-- What a call does, in ticks: it wakes the task when the duration and a tick
for every rollover have passed. -/
theorem Counted.update (h : Counted task duration request s) (hsleeping : s.Sleeping task)
    (hround : s.now - s.lastCall < 4294967296) :
    (duration + rollovers request s.now ≤ s.now - request ∧
        ((s.sched.updateSleepState task).1.tcb task).state.sleep = false) ∨
      (s.now - request < duration + rollovers request s.now ∧
        ((s.sched.updateSleepState task).1.tcb task).state.sleep = true ∧
        ((s.sched.updateSleepState task).1.tcb task).data = wrap s.now ∧
        ((s.sched.updateSleepState task).1.tcb task).data2 + (s.now - request) =
          duration + rollovers request s.now ∧
        (s.sched.updateSleepState task).1.activeTasksHashTable =
          s.sched.activeTasksHashTable) := by
  have hrequest := h.request_le
  have hlast := h.lastCall_le
  have hdata2 := h.data2 hsleeping
  have hdelta := Sched.elapsedTicks_add_rollovers hlast hround
  rw [← h.data hsleeping, ← h.ticks] at hdelta
  unfold rollovers at *
  rcases Sched.updateSleepState_sleeping hsleeping with ⟨htime, hs⟩ | ⟨htime, hs⟩
  · rw [hs]
    exact .inl ⟨by omega, Sched.wakeSleeper_sleep _ _⟩
  · rw [hs]
    simp only [Sched.keepAsleep, Sched.noteRollover, Sched.modifyTCB, Function.update_self]
    exact .inr ⟨by omega, hsleeping, h.ticks, by omega, trivial⟩

/-- The step lemma. -/
theorem Counted.step (h : Counted task duration request s)
    (hs : (sleepMachine task duration request).step s e = some s') :
    Counted task duration request s' := by
  cases e with
  | others ticks sched =>
    simp only [sleepMachine, Sleep.step, Option.ite_none_right_eq_some, Option.some.injEq] at hs
    obtain ⟨⟨⟨hsleep, hdata, hdata2⟩, hticks⟩, rfl⟩ := hs
    -- the others leave the task and its sleep alone
    have hsame : Sleeping task { s with sched, now := s.now + ticks } → s.Sleeping task :=
      fun hsleeping => hsleep.symm.trans hsleeping
    exact
      { request_le := h.request_le
        lastCall_le := Nat.le_trans h.lastCall_le (Nat.le_add_right _ _)
        ticks := hticks
        data := fun hsleeping => hdata.trans (h.data (hsame hsleeping))
        data2 := fun hsleeping => by rw [hdata2]; exact h.data2 (hsame hsleeping) }
  | update =>
    simp only [sleepMachine, Sleep.step, Option.ite_none_right_eq_some, Option.some.injEq] at hs
    obtain ⟨hround, rfl⟩ := hs
    -- a task that sleeps after the update was asleep before it
    have hbefore : Sleeping task
        { s with sched := (s.sched.updateSleepState task).1, lastCall := s.now } →
        s.Sleeping task := by
      intro hsleeping
      by_contra hawake
      rw [Sleeping, Bool.not_eq_true] at hawake
      rw [Sleeping, Sched.updateSleepState_awake hawake, hawake] at hsleeping
      cases hsleeping
    refine
      { request_le := Nat.le_trans h.request_le h.lastCall_le
        lastCall_le := Nat.le_refl _
        ticks := (Sched.updateSleepState_ticks _ _).trans h.ticks
        data := fun hsleeping => ?_
        data2 := fun hsleeping => ?_ }
    · rcases h.update (hbefore hsleeping) hround with ⟨-, hawake⟩ | ⟨-, -, hdata, -⟩
      · rw [Sleeping, hawake] at hsleeping
        cases hsleeping
      · exact hdata
    · rcases h.update (hbefore hsleeping) hround with ⟨-, hawake⟩ | ⟨-, -, -, hdata2, -⟩
      · rw [Sleeping, hawake] at hsleeping
        cases hsleeping
      · exact hdata2

theorem reach_counted (hd : 0 < duration)
    (h : (sleepMachine task duration request).Reach s) : Counted task duration request s :=
  Machine.Reach.invariant (P := Counted task duration request)
    (fun _ hs => Requested.counted hd hs) (fun _ _ _ hc hs => hc.step hs) h

/-- **A sleep never ends early**: in every run, a call that clears the sleep bit
of the task, or changes the active tasks, comes when at least `duration` ticks
have passed since the request. -/
theorem sleep_never_early (hd : 0 < duration)
    (h : (sleepMachine task duration request).Reach s)
    (hs : (sleepMachine task duration request).step s .update = some s') (hsleep : s.Sleeping task)
    (hwakes : ¬ s'.Sleeping task ∨
      s'.sched.activeTasksHashTable ≠ s.sched.activeTasksHashTable) :
    request + duration ≤ s'.now := by
  have hcounted := reach_counted hd h
  simp only [sleepMachine, Sleep.step, Option.ite_none_right_eq_some, Option.some.injEq] at hs
  obtain ⟨hround, rfl⟩ := hs
  have hrequest := hcounted.request_le
  have hlast := hcounted.lastCall_le
  rcases hcounted.update hsleep hround with ⟨hpassed, -⟩ | ⟨-, hasleep, -, -, hactive⟩
  · show request + duration ≤ s.now
    omega
  · rcases hwakes with hawake | hchanged
    · exact absurd hasleep hawake
    · exact absurd hactive hchanged

/-- A task that is active five ticks before the counter rolls over. -/
def lateSched : Sched := { (Sched.sampleSched 100).addTask 100 1 with ticks := 4294967291 }

/-- The task asks for ten ticks. -/
def lateSleep : Sleep where
  sched := lateSched.sleepCallback 100 10
  now := 4294967291
  lastCall := 4294967291

theorem lateSleep_requested : Requested 100 10 4294967291 lateSleep :=
  ⟨lateSched, by decide +kernel, by decide +kernel, rfl⟩

/-- `ticks` pass, and nothing else. -/
def waitTicks (s : Sleep) (ticks : Nat) : SleepEvent :=
  .others ticks { s.sched with ticks := wrap (s.now + ticks) }

/-- The sleep of `lateSleep` ends with the call eleven ticks after the request. -/
theorem sleep_never_early_late :
    ∃ s s', (sleepMachine 100 10 4294967291).Reach s ∧
      (sleepMachine 100 10 4294967291).step s .update = some s' ∧ ¬ s'.Sleeping 100 ∧
      4294967291 + 10 ≤ s'.now := by
  have hrun : ((sleepMachine 100 10 4294967291).run lateSleep [lateSleep.waitTicks 11]).any
      (fun s => decide (s.Sleeping 100 ∧ (((sleepMachine 100 10 4294967291).step s .update).any
        fun s' => decide (¬ s'.Sleeping 100)) = true)) = true := by decide +kernel
  obtain ⟨s, hs, hsleep, hstep⟩ := Machine.exists_run hrun
  obtain ⟨s', hs', hawake⟩ := (Option.any_eq_true _ _).mp hstep
  have hreach := Machine.Reach.run (.init lateSleep_requested) hs
  have hawake' := of_decide_eq_true hawake
  exact ⟨s, s', hreach, hs', hawake',
    sleep_never_early (by decide) hreach hs' hsleep (.inl hawake')⟩

/-! ## Exactness -/

/-- A call for the sleeping task leaves it what it asked for less the ticks that
have passed, and wakes it once these are enough. -/
def ExactCall (task duration request : Nat) (s : Sleep) : SleepEvent → Prop
  | .others _ _ => True
  | .update => s.Sleeping task →
    (((s.sched.updateSleepState task).1.tcb task).state.sleep = true →
      ((s.sched.updateSleepState task).1.tcb task).data2 + (s.now - request) = duration) ∧
    (request + duration ≤ s.now →
      ((s.sched.updateSleepState task).1.tcb task).state.sleep = false)

/-- A call for the sleeping task comes before the first rollover after the
request, or as many ticks late as the counter has rolled over. -/
def ClearOfRollovers (task duration request : Nat) (s : Sleep) : SleepEvent → Prop
  | .others _ _ => True
  | .update => s.Sleeping task →
    rollovers request s.now = 0 ∨ request + duration + rollovers request s.now ≤ s.now

theorem Counted.exactCall_iff (h : Counted task duration request s)
    (hs : (sleepMachine task duration request).step s e = some s') :
    ExactCall task duration request s e ↔ ClearOfRollovers task duration request s e := by
  cases e with
  | others ticks sched => exact Iff.rfl
  | update =>
    simp only [sleepMachine, Sleep.step, Option.ite_none_right_eq_some, Option.some.injEq] at hs
    obtain ⟨hround, -⟩ := hs
    have hrequest := h.request_le
    have hlast := h.lastCall_le
    refine forall_congr' ?_
    intro hsleeping
    rcases h.update hsleeping hround with ⟨hpassed, hawake⟩ | ⟨hshort, hasleep, -, hdata2, -⟩
    · -- the call wakes the task, late enough for the rollovers there were
      refine iff_of_true ⟨?_, fun _ => hawake⟩ (.inr (by omega))
      intro hasleep
      rw [hawake] at hasleep
      cases hasleep
    · rw [hasleep]
      constructor
      · rintro ⟨hexact, -⟩
        have := hexact rfl
        exact .inl (by omega)
      · rintro (hzero | hlate)
        · exact ⟨fun _ => by omega, fun hdue => by omega⟩
        · omega

/-- **Elapsed time**: along every run, every call for the sleeping task leaves
exactly the time that is left and wakes the task once its time is up, iff every
call comes before the first rollover after the request or is late by one tick
for each rollover. -/
theorem elapsed_exact_iff (hd : 0 < duration) (h : Requested task duration request s)
    (es : List SleepEvent) :
    (sleepMachine task duration request).Throughout (ExactCall task duration request) s es ↔
      (sleepMachine task duration request).Throughout (ClearOfRollovers task duration request)
        s es :=
  Machine.throughout_congr (fun _ _ _ hc hs => Counted.step hc hs)
    (fun _ _ _ hc hs => Counted.exactCall_iff hc hs) (h.counted hd) es

/-- Exactness of `lateSleep` with a call three ticks after the request. -/
theorem elapsed_exact_iff_late :
    (sleepMachine 100 10 4294967291).Throughout (ExactCall 100 10 4294967291) lateSleep
        [lateSleep.waitTicks 3, .update] ↔
      (sleepMachine 100 10 4294967291).Throughout (ClearOfRollovers 100 10 4294967291) lateSleep
        [lateSleep.waitTicks 3, .update] :=
  elapsed_exact_iff (by decide) lateSleep_requested _

/-- Ten ticks after the request, `lateSleep` is still asleep with one tick left:
the counter has rolled over in between. -/
theorem sleep_one_tick_long :
    ¬ ∀ (task duration request : Nat) (s : Sleep) (es : List SleepEvent), 0 < duration →
      Requested task duration request s →
      (sleepMachine task duration request).Throughout (ExactCall task duration request) s es := by
  intro h
  have hrun := h 100 10 4294967291 lateSleep [lateSleep.waitTicks 10, .update] (by decide)
    lateSleep_requested
  have hlate : ((sleepMachine 100 10 4294967291).step lateSleep (lateSleep.waitTicks 10)).any
      (fun s => decide (s.Sleeping 100 ∧ s.now = 4294967301 ∧
        ((sleepMachine 100 10 4294967291).step s .update).isSome ∧
        ((s.sched.updateSleepState 100).1.tcb 100).state.sleep = true)) = true := by decide +kernel
  obtain ⟨s, hs, hstate⟩ := (Option.any_eq_true _ _).mp hlate
  obtain ⟨hsleep, hnow, hcall, hasleep⟩ := of_decide_eq_true hstate
  obtain ⟨s', hs'⟩ := Option.isSome_iff_exists.mp hcall
  have hawake := (((hrun s hs).2 s' hs').1 hsleep).2 (by omega)
  rw [hasleep] at hawake
  cases hawake

end Sleep

end DocetOS
