import DocetOS.DataStructures.MutexRuns

/-!
# The kinds of steps of `mutex.c`

What a step of a function of `mutex.c` does to the owners, the waiting tasks and
the lists of acquired mutexes, for mutexes that call the scheduler. `Move` names
the seven kinds; everything else a step does is a write of the counter, the YIELD
bit and history. A task is in front of an SVC on its mutex (`mutexSvc`) only
after a step of the kind that leads there:

- `see`: an acquire finds another owner and goes on to its `OS_wait`;
- `store`: a successful STREX, then `OS_notify_resource_aquired` (`acquired`);
- `clear`: a release writes `NULL`, then `OS_notify` (`notify`).
-/

namespace DocetOS

/-- In front of an SVC on the mutex. -/
def MutexPc.mutexSvc : MutexPc → Bool
  | .acquireNotify | .tryNotify | .acquireWait _ | .releaseNotify _ => true
  | _ => false

namespace MutexSystem

open Sched

/-- The step writes `tcbPointer`: a STREX that succeeds, the `NULL` of a release. -/
def writes (s : MutexSystem) (strexFails : Bool) (mutex : Nat) : MutexPc → Bool
  | .acquireStore | .tryStore => (s.storeExclusive mutex strexFails).isSome
  | .releaseClear _ => true
  | _ => false

/-- What a step without an SVC on the mutex and without a store to `tcbPointer`
makes of the scheduler. -/
inductive QuietSched (mutex : Nat) (s : Sched) : Sched → Prop
  | same : QuietSched mutex s s
  | counter (counter : Nat) :
      QuietSched mutex s (s.modifyMutex mutex fun m => { m with counter })
  | yield : QuietSched mutex s s.yieldCurrent

/-- The steps of the running task on `mutex` from a place `pc`: the state the step
leaves, and the place the task goes on to. -/
inductive Move (inheritance strexFails : Bool) (mutex : Nat) (s : MutexSystem) :
    MutexPc → MutexSystem → Option MutexPc → Prop
  | quiet {pc : MutexPc} {x : MutexSystem} {pc' : Option MutexPc} (hpc : pc.mutexSvc = false)
      (hwrites : s.writes strexFails mutex pc = false) (hpc' : ∀ p ∈ pc', p.mutexSvc = false)
      (hx : Effects mutex s x)
      (hsched : QuietSched mutex s.sched x.sched) (hnotifies : x.notifies = s.notifies)
      (hread : ∀ task, task ≠ s.running → x.codeRead task = s.codeRead task)
      (hload : ∀ checkCode, pc' = some (.acquireLoad checkCode) →
        checkCode = s.sched.checkCode ∧ x.codeRead s.running = s.notifies) :
      Move inheritance strexFails mutex s pc x pc'
  | see (checkCode : Nat) (hnull : (s.sched.mutexes mutex).tcbPointer ≠ NULL)
      (hother : (s.sched.mutexes mutex).tcbPointer ≠ s.running) :
      Move inheritance strexFails mutex s (.acquireLoad checkCode) { s with monitor := some mutex }
        (some (.acquireWait checkCode))
  | store {pc pc' : MutexPc}
      (hpc : pc = .acquireStore ∧ pc' = .acquireNotify ∨ pc = .tryStore ∧ pc' = .tryNotify)
      (hwrites : s.writes strexFails mutex pc = true) (hmonitor : s.monitor = some mutex) :
      Move inheritance strexFails mutex s pc
        { s.setTcbPointer mutex s.running with monitor := none } (some pc')
  | acquired {pc : MutexPc} (hpc : pc = .acquireNotify ∨ pc = .tryNotify) :
      Move inheritance strexFails mutex s pc
        { s with sched := svcResourceAcquired inheritance s.sched mutex } (some .countLoad)
  | wait {checkCode fuel : Nat} {sched : Sched}
      (hsvc : svcWait inheritance s.sched fuel mutex checkCode = some sched) :
      Move inheritance strexFails mutex s (.acquireWait checkCode) { s with sched, monitor := none }
        (some .acquireCode)
  | clear (yields : Bool) :
      Move inheritance strexFails mutex s (.releaseClear yields)
        { s.setTcbPointer mutex NULL with monitor := none } (some (.releaseNotify yields))
  | notify {yields : Bool} {fuel : Nat} {x : MutexSystem} {pc' : Option MutexPc}
      (hpc' : ∀ p ∈ pc', p = .releaseYield)
      (hsvc : svcNotify inheritance s.sched fuel mutex = some x.sched)
      (hx : Effects mutex s x) (hnotifies : x.notifies = s.notifies + 1)
      (hread : x.codeRead = s.codeRead) :
      Move inheritance strexFails mutex s (.releaseNotify yields) x pc'

section Moves

variable {s s' x : MutexSystem} {mutex : Nat} {inheritance strexFails : Bool} {fuel : Nat}
  {pc : MutexPc} {pc' : Option MutexPc}

/-- A step without an SVC that goes on to the place `p`. -/
theorem Move.next (p : MutexPc) (hpc : pc.mutexSvc = false)
    (hwrites : s.writes strexFails mutex pc = false) (hp : p.mutexSvc = false)
    (hload : ∀ checkCode, p ≠ .acquireLoad checkCode) (hx : Effects mutex s x)
    (hsched : QuietSched mutex s.sched x.sched) (hnotifies : x.notifies = s.notifies)
    (hread : x.codeRead = s.codeRead) : Move inheritance strexFails mutex s pc x (some p) := by
  refine .quiet hpc hwrites ?_ hx hsched hnotifies (fun _ _ => by rw [hread]) ?_
  · rintro _ ⟨⟩
    exact hp
  · rintro checkCode ⟨⟩
    exact absurd rfl (hload checkCode)

/-- A step without an SVC at the end of a function. -/
theorem Move.return (hpc : pc.mutexSvc = false)
    (hwrites : s.writes strexFails mutex pc = false) (hx : Effects mutex s x)
    (hsched : QuietSched mutex s.sched x.sched) (hnotifies : x.notifies = s.notifies)
    (hread : x.codeRead = s.codeRead) : Move inheritance strexFails mutex s pc x none :=
  .quiet hpc hwrites (by simp) hx hsched hnotifies (fun _ _ => by rw [hread]) (by simp)

theorem storeExclusive_cases (h : s.storeExclusive mutex strexFails = some x) :
    s.monitor = some mutex ∧ x = { s.setTcbPointer mutex s.running with monitor := none } := by
  unfold storeExclusive at h
  split at h
  · rename_i hmonitor
    cases h
    exact ⟨hmonitor.1, rfl⟩
  · cases h

/-- **Every step is of one of the kinds.** -/
theorem advance_move (hsvc : (s.sched.mutexes mutex).svcDelegatesEnabled ≠ 0)
    (hrunning : s.running ≠ NULL)
    (h : s.advance inheritance strexFails fuel mutex pc = some s') :
    ∃ x pc', Move inheritance strexFails mutex s pc x pc' ∧ s' = x.goTo mutex pc' := by
  cases pc <;> simp only [advance] at h
  case acquireCode =>
    cases h
    -- the code is read here, and nowhere else: `codeRead` notes the notifications so far
    refine ⟨_, some _, .quiet rfl rfl ?_
      (effects_ghost mutex s _ _ (Function.update s.codeRead s.running s.notifies)) .same rfl
      ?_ ?_, rfl⟩
    · rintro _ ⟨⟩
      rfl
    · intro task hne
      exact Function.update_of_ne hne _ _
    · rintro checkCode ⟨⟩
      exact ⟨rfl, Function.update_self _ _ _⟩
  case acquireLoad checkCode =>
    split at h <;> cases h
    · exact ⟨_, some _, .next .acquireStore rfl rfl rfl (by simp)
        (effects_ghost mutex s (some mutex) _ _) .same rfl rfl, rfl⟩
    · -- another task owns the mutex, and the running task is about to wait for it
      rename_i howner
      push Not at howner
      exact ⟨_, some _, .see checkCode howner.1 howner.2, rfl⟩
  case acquireStore =>
    split at h
    · rename_i x hstore
      cases h
      -- the STREX stores only while the monitor is open
      obtain ⟨hmonitor, hx⟩ := storeExclusive_cases hstore
      subst hx
      exact ⟨_, some _, .store (.inl ⟨rfl, rfl⟩) (by simp [writes, hstore]) hmonitor, rfl⟩
    · rename_i hstore
      cases h
      -- it has failed: back to the code, as it may have changed meanwhile
      exact ⟨_, some _, .next .acquireCode rfl (by simp [writes, hstore]) rfl (by simp)
        (effects_ghost mutex s none _ _)
        .same rfl rfl, rfl⟩
  case acquireNotify =>
    rw [if_pos hsvc] at h
    cases h
    exact ⟨_, some _, .acquired (.inl rfl), rfl⟩
  case acquireWait checkCode =>
    rw [if_pos hsvc] at h
    obtain ⟨sched, hwait, rfl⟩ := Option.map_eq_some_iff.mp h
    exact ⟨_, some _, .wait hwait, rfl⟩
  case tryCode =>
    cases h
    exact ⟨_, some _, .next .tryLoad rfl rfl rfl (by simp) (.refl mutex s) .same rfl rfl, rfl⟩
  case tryLoad =>
    split at h <;> cases h
    · exact ⟨_, some _, .next .tryStore rfl rfl rfl (by simp)
        (effects_ghost mutex s (some mutex) _ _) .same rfl rfl, rfl⟩
    · -- not free: the call that does not block returns at once
      exact ⟨_, none, .return rfl rfl (effects_ghost mutex s (some mutex) _ _) .same rfl rfl, rfl⟩
  case tryStore =>
    split at h
    · rename_i x hstore
      cases h
      obtain ⟨hmonitor, hx⟩ := storeExclusive_cases hstore
      subst hx
      exact ⟨_, some _, .store (.inr ⟨rfl, rfl⟩) (by simp [writes, hstore]) hmonitor, rfl⟩
    · rename_i hstore
      cases h
      exact ⟨_, none, .return rfl (by simp [writes, hstore])
        (effects_ghost mutex s none _ _) .same rfl rfl, rfl⟩
  case tryNotify =>
    cases h
    exact ⟨_, some _, .acquired (.inr rfl), rfl⟩
  case countLoad =>
    cases h
    exact ⟨_, some _, .next (.countStore _) rfl rfl rfl (by simp) (.refl mutex s) .same rfl rfl,
      rfl⟩
  case countStore counter =>
    cases h
    exact ⟨_, none, .return rfl rfl
      ((effects_setCounter mutex s _).trans (effects_countAcquire mutex _)) (.counter _)
      rfl rfl, rfl⟩
  case releaseTest yields =>
    split at h <;> cases h
    · -- not the owner: nothing to release
      exact ⟨_, none, .return rfl rfl (effects_countRelease mutex s) .same rfl rfl, rfl⟩
    · exact ⟨_, some _, .next (.releaseCountLoad yields) rfl rfl rfl (by simp) (.refl mutex s) .same
        rfl rfl, rfl⟩
  case releaseCountLoad yields =>
    cases h
    exact ⟨_, some _, .next (.releaseCountStore yields _) rfl rfl rfl (by simp) (.refl mutex s)
      .same rfl rfl, rfl⟩
  case releaseCountStore yields counter =>
    cases h
    exact ⟨_, some _, .next (.releaseCountTest yields) rfl rfl rfl (by simp)
      (effects_setCounter mutex s _)
      (.counter _) rfl rfl, rfl⟩
  case releaseCountTest yields =>
    split at h <;> cases h
    · exact ⟨_, some _, .next (.releaseClear yields) rfl rfl rfl (by simp) (.refl mutex s) .same
        rfl rfl, rfl⟩
    · -- the owner still has to release the mutex as often as the counter says
      exact ⟨_, none, .return rfl rfl (effects_countRelease mutex s) .same rfl rfl, rfl⟩
  case releaseClear yields =>
    -- the running task is a task, and the mutex calls the scheduler
    rw [if_pos ⟨by simpa [setTcbPointer, Sched.modifyMutex] using hsvc, hrunning⟩] at h
    cases h
    exact ⟨_, some _, .clear yields, rfl⟩
  case releaseNotify yields =>
    obtain ⟨sched, hnotify, rfl⟩ := Option.map_eq_some_iff.mp h
    -- with the yield the call goes on for one step, and without it it ends
    have hx : Effects mutex s { s with sched, notifies := s.notifies + 1, monitor := none } :=
      (effects_svc mutex s (svcNotify_frame hnotify)).trans (effects_ghost mutex _ none _ _)
    split
    · refine ⟨_, some _, .notify ?_ hnotify hx rfl rfl, rfl⟩
      rintro _ ⟨⟩
      rfl
    · exact ⟨_, none, .notify (by simp) hnotify (hx.trans (effects_countRelease mutex _)) rfl rfl,
        rfl⟩
  case releaseYield =>
    have hyield : SvcFrame s.sched s.sched.yieldCurrent := ⟨rfl, fun _ => ⟨_, rfl⟩⟩
    cases h
    exact ⟨_, none, .return rfl rfl
      ((effects_svc mutex s hyield).trans (effects_countRelease mutex _)) .yield rfl rfl, rfl⟩

/-! ## The place of a task after a step -/

theorem goTo_pc_running (x : MutexSystem) (mutex : Nat) (pc' : Option MutexPc) :
    (x.goTo mutex pc').pc x.running = pc'.map fun pc => (mutex, pc) := by
  simp [goTo, setPc]

theorem goTo_pc_of_ne (x : MutexSystem) (mutex : Nat) (pc' : Option MutexPc) {task : Nat}
    (h : task ≠ x.running) : (x.goTo mutex pc').pc task = x.pc task := by
  simp [goTo, setPc, h]

theorem not_notify (hpc : s.pc s.running = some (mutex, pc))
    (h : ∀ yields, pc ≠ .releaseNotify yields) (m : Nat) (yields : Bool) :
    s.pc s.running ≠ some (m, .releaseNotify yields) := by
  intro heq
  rw [hpc] at heq
  cases heq
  exact h yields rfl

theorem goTo_pc_cases {pc' : Option MutexPc} (hx : Effects mutex s x) {task : Nat}
    {p : Nat × MutexPc} (hp : (x.goTo mutex pc').pc task = some p) :
    (task ≠ s.running ∧ s.pc task = some p) ∨
      (task = s.running ∧ ∃ pc₁, pc' = some pc₁ ∧ p = (mutex, pc₁)) := by
  by_cases ht : task = s.running
  · rw [ht, ← hx.running, goTo_pc_running, Option.map_eq_some_iff] at hp
    obtain ⟨pc₁, hpc₁, heq⟩ := hp
    exact .inr ⟨ht, pc₁, hpc₁, heq.symm⟩
  · rw [goTo_pc_of_ne x mutex pc' (hx.running ▸ ht), hx.pc] at hp
    exact .inl ⟨ht, hp⟩

/-- The task `last mutex` is in front of the `OS_notify` of a release. -/
def Clearing (s : MutexSystem) (last : Nat → Nat) (mutex : Nat) : Prop :=
  ∃ yields, s.pc (last mutex) = some (mutex, .releaseNotify yields)

instance (s : MutexSystem) (last : Nat → Nat) (mutex : Nat) : Decidable (s.Clearing last mutex) :=
  inferInstanceAs (Decidable (∃ _ : Bool, _))

/-- Only a step on `mutex` changes whether `mutex` is being cleared. -/
theorem clearing_goTo_of_ne (hpc : s.pc s.running = some (mutex, pc)) (hx : Effects mutex s x)
    {last last' : Nat → Nat} (hlast : ∀ m, m ≠ mutex → last' m = last m) {m : Nat}
    (hne : m ≠ mutex) :
    (x.goTo mutex pc').Clearing last' m ↔ s.Clearing last m := by
  simp only [Clearing, hlast m hne]
  constructor
  · rintro ⟨yields, hp⟩
    rcases goTo_pc_cases hx hp with ⟨-, hp⟩ | ⟨-, pc₁, -, heq⟩
    · exact ⟨yields, hp⟩
    · cases heq
      exact absurd rfl hne
  · rintro ⟨yields, hp⟩
    refine ⟨yields, ?_⟩
    rw [goTo_pc_of_ne x mutex pc', hx.pc, hp]
    intro heq
    rw [heq, hx.running, hpc] at hp
    cases hp
    exact hne rfl

/-! ## Steps without an SVC on the mutex -/

section Quiet

variable {t t' : Sched}

theorem QuietSched.parked (h : QuietSched mutex t t') (hp : Parked t) : Parked t' := by
  cases h with
  | same => exact hp
  | counter c => exact ⟨hp.wf, hp.once, hp.wait, hp.not_null⟩
  | yield => exact hp.yieldCurrent

theorem QuietSched.waiting (h : QuietSched mutex t t') : t'.waiting = t.waiting := by
  cases h <;> rfl

theorem QuietSched.checkCode (h : QuietSched mutex t t') : t'.checkCode = t.checkCode := by
  cases h <;> rfl

theorem QuietSched.tcbPointer (h : QuietSched mutex t t') (m : Nat) :
    (t'.mutexes m).tcbPointer = (t.mutexes m).tcbPointer := by
  cases h with
  | same => rfl
  | counter c =>
    by_cases hm : m = mutex
    · subst hm
      simp [modifyMutex]
    · simp [modifyMutex, hm]
  | yield => rfl

end Quiet

end Moves

end MutexSystem

end DocetOS
