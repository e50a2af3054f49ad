import DocetOS.DataStructures.MutexExclusion
import DocetOS.DataStructures.MutexMoves
import DocetOS.OS.AcquiredLists

/-!
# The lists of acquired mutexes, step by step

An acquire links the mutex into the list of its task with
`OS_notify_resource_aquired`, after the STREX; a release takes it out with
`OS_notify`, after the write of `NULL`. The lists are exact when they are apart
and each holds the mutexes its task owns, up to one mutex between the store and
the SVC (`ExactLists`).

The link is a field of the mutex. If a task has got the mutex and links it while
the task that cleared it has not come to its `OS_notify`, the mutex is in two
lists. The lists stay exact in the runs in which this does not happen
(`Uncrossed`): the task that cleared a mutex last executes its `OS_notify` before
the next owner executes its `OS_notify_resource_aquired`. Which task cleared it
last is a history variable. As the SVC tells a first acquire from a nested one by
`counter`, a task also may not nest acquires `2 ^ 32` deep.
-/

namespace DocetOS

/-- In front of an SVC that links a mutex into a list or takes it out. -/
def MutexPc.linksNext : MutexPc → Bool
  | .acquireNotify | .tryNotify | .releaseNotify _ => true
  | _ => false

namespace MutexSystem

open Lib Sched

/-- The tasks that cleared each mutex last. -/
def lastClear (s : MutexSystem) : MutexEvent → (Nat → Nat) → Nat → Nat
  | .step _ _, last =>
    match s.pc s.running with
    | some (mutex, .releaseClear _) => Function.update last mutex s.running
    | _ => last
  | _, last => last

/-- The task has got the mutex and is in front of `OS_notify_resource_aquired`. -/
def Acquiring (s : MutexSystem) (mutex task : Nat) : Prop :=
  s.pc task = some (mutex, .acquireNotify) ∨ s.pc task = some (mutex, .tryNotify)

/-- The lists are apart and hold the mutexes of their tasks. -/
structure ExactLists (s : MutexSystem) (lists : Nat → List Nat) : Prop where
  chain : ∀ task, Chain s.sched.nextAcquired (s.sched.firstAcquired task) (lists task)
  nodup : ∀ task, (lists task).Nodup
  apart : ∀ task task' mutex, mutex ∈ lists task → mutex ∈ lists task' → task = task'
  owned : ∀ task mutex, s.IsOwner mutex task → mutex ∈ lists task ∨ s.Acquiring mutex task
  only : ∀ task mutex, mutex ∈ lists task →
    s.IsOwner mutex task ∨ ∃ yields, s.pc task = some (mutex, .releaseNotify yields)

/-- A mutex is at an address, is linked only after the task that cleared it last
has executed its `OS_notify`, and its `counter` does not roll over. -/
def Uncrossed (p : MutexSystem × (Nat → Nat)) : MutexEvent → Prop
  | .switchTo _ => True
  | .call mutex _ => mutex ≠ NULL
  | .step _ _ =>
    match p.1.pc p.1.running with
    | some (mutex, .acquireNotify) | some (mutex, .tryNotify) => ¬ p.1.Clearing p.2 mutex
    | some (_, .countStore counter) => counter + 1 < 4294967296
    | _ => True

instance (p : MutexSystem × (Nat → Nat)) : (e : MutexEvent) → Decidable (Uncrossed p e)
  | .switchTo _ => inferInstanceAs (Decidable True)
  | .call _ _ => inferInstanceAs (Decidable (_ ≠ _))
  | .step _ _ => by
    unfold Uncrossed
    dsimp only
    split <;> infer_instance

/-- The runs on mutexes as `OS_init_mutex` leaves them, by tasks whose lists are
empty. -/
def listMachine : Machine MutexSystem MutexEvent where
  init s := s.Fresh ∧ (∀ m, s.sched.mutexes m = initMutex) ∧
    ∀ task, (s.sched.tcb task).acquiredResourcesLinkedList = NULL
  step := MutexSystem.step true

/-! ## The invariant -/

/-- A task that is not inside an acquire or a release of the mutex. -/
def Settled (owner listed : Prop) (counter : Nat) : Prop :=
  (owner ∧ listed ∧ counter ≠ 0) ∨ (¬ owner ∧ ¬ listed)

/-- Whether the mutex is in the task's list at each place. -/
def ListFits (owner listed : Prop) (counter : Nat) : Option MutexPc → Prop
  | some .acquireNotify | some .tryNotify => owner ∧ (listed ↔ counter ≠ 0)
  | some .countLoad | some (.countStore _) | some (.releaseCountLoad _)
  | some (.releaseCountStore _ _) | some (.releaseCountTest _) => owner ∧ listed
  | some (.releaseClear _) => owner ∧ listed ∧ counter = 0
  | some (.releaseNotify _) => ¬ owner ∧ listed
  | _ => Settled owner listed counter

/-- The invariant of one mutex; `listed` are the tasks that have it in their
list. -/
structure Listed (mutex : Nat) (listed : Nat → Prop) (last : Nat → Nat) (s : MutexSystem) :
    Prop where
  fits : ∀ task, ListFits (s.IsOwner mutex task) (listed task) (s.sched.mutexes mutex).counter
    (s.place mutex task)
  free : (s.sched.mutexes mutex).tcbPointer = NULL → (s.sched.mutexes mutex).counter = 0
  seen : s.monitor = some mutex →
    Seen (s.sched.mutexes mutex).tcbPointer s.running (s.place mutex s.running)
  releasing : ∀ task yields, s.place mutex task = some (.releaseNotify yields) →
    last mutex = task ∧ ∀ owner, s.IsOwner mutex owner → s.Acquiring mutex owner

/-- The invariant of the system. -/
structure Linked (s : MutexSystem) (last : Nat → Nat) (lists : Nat → List Nat) : Prop where
  running : s.running ≠ NULL
  svc : ∀ m, (s.sched.mutexes m).svcDelegatesEnabled = 1
  calls : ∀ task m pc, s.pc task = some (m, pc) → m ≠ NULL
  linked : s.sched.Lists lists
  listed : ∀ mutex, Listed mutex (fun task => mutex ∈ lists task) last s

section Steps

variable {s s' x : MutexSystem} {last last' : Nat → Nat} {lists lists' : Nat → List Nat}
  {listed listed' : Nat → Prop} {mutex : Nat} {inheritance strexFails : Bool} {fuel : Nat}
  {pc : MutexPc} {pc' : Option MutexPc}

theorem place_eq_some {task : Nat} :
    s.place mutex task = some pc ↔ s.pc task = some (mutex, pc) := by
  unfold place
  split
  · rename_i m pc₁ hpc
    rw [hpc]
    split
    · rename_i hm
      simp [hm]
    · rename_i hm
      simp [hm]
  · rename_i hpc
    simp [hpc]

theorem ListFits.congr {owner owner' listed listed' : Prop} {counter counter' : Nat}
    {place : Option MutexPc} (h : ListFits owner listed counter place) (ho : owner' ↔ owner)
    (hl : listed' ↔ listed) (hc : owner → counter' = counter) :
    ListFits owner' listed' counter' place := by
  have howner : owner' = owner := propext ho
  have hlisted : listed' = listed := propext hl
  subst howner hlisted
  by_cases hold : owner'
  · rw [hc hold]
    exact h
  · have hsettled : Settled owner' listed' counter → Settled owner' listed' counter' := by
      rintro (⟨hown, -⟩ | hout)
      · exact absurd hown hold
      · exact .inr hout
    -- a task that is not the owner is at no place that mentions `counter`
    cases place with
    | none => exact hsettled h
    | some pc =>
      cases pc
      case releaseNotify => exact h
      case acquireNotify => exact absurd h.1 hold
      case tryNotify => exact absurd h.1 hold
      case releaseClear => exact absurd h.1 hold
      all_goals first | exact h | exact hsettled h

/-- A step of the running task on the mutex keeps the invariant of the mutex when
it writes `tcbPointer` only from and to `NULL` and itself, writes `counter` only
as the owner, changes only its own list, and fits afterwards. -/
theorem Listed.goTo (h : Listed mutex listed last s) (hx : Effects mutex s x)
    (hothers : ∀ task, task ≠ s.running → (listed' task ↔ listed task))
    (hpointer : (x.sched.mutexes mutex).tcbPointer = (s.sched.mutexes mutex).tcbPointer ∨
      ((s.sched.mutexes mutex).tcbPointer = NULL ∨
        (s.sched.mutexes mutex).tcbPointer = s.running) ∧
      ((x.sched.mutexes mutex).tcbPointer = NULL ∨
        (x.sched.mutexes mutex).tcbPointer = s.running))
    (hcounter : (x.sched.mutexes mutex).counter = (s.sched.mutexes mutex).counter ∨
      (s.sched.mutexes mutex).tcbPointer = s.running)
    (hfits : ListFits (x.IsOwner mutex s.running) (listed' s.running)
      (x.sched.mutexes mutex).counter pc')
    (hfree : (x.sched.mutexes mutex).tcbPointer = NULL → (x.sched.mutexes mutex).counter = 0)
    (hseen : x.monitor = some mutex → Seen (x.sched.mutexes mutex).tcbPointer s.running pc')
    (hreleasing : ∀ task yields,
      (x.goTo mutex pc').place mutex task = some (.releaseNotify yields) →
      last' mutex = task ∧
        ∀ owner, x.IsOwner mutex owner → (x.goTo mutex pc').Acquiring mutex owner) :
    Listed mutex listed' last' (x.goTo mutex pc') where
  fits task := by
    by_cases ht : task = s.running
    · rw [ht, ← hx.running, place_goTo_running, hx.running]
      exact hfits
    · rw [hx.place_goTo pc' ht]
      exact (h.fits task).congr (isOwner_iff_of_ne ht hpointer) (hothers task ht)
        (counter_of_isOwner ht hcounter)
  free := hfree
  seen hmonitor := by
    show Seen _ x.running ((x.goTo mutex pc').place mutex x.running)
    rw [place_goTo_running, hx.running]
    exact hseen hmonitor
  releasing := hreleasing

/-- A step on another mutex keeps the invariant of the mutex. -/
theorem Listed.other (h : Listed mutex listed last s) {m : Nat} (hne : m ≠ mutex)
    (hx : Effects m s x) (hplace : s.place mutex s.running = none)
    (hlisted : ∀ task, listed' task ↔ listed task) (hlast : last' mutex = last mutex) :
    Listed mutex listed' last' (x.goTo m pc') := by
  have hpointer := hx.tcbPointer mutex hne.symm
  have hcounter := hx.counter mutex hne.symm
  -- nobody moves as far as this mutex is concerned
  have hplaces := hx.place_goTo_other pc' hne hplace
  have howner : ∀ task, (x.goTo m pc').IsOwner mutex task ↔ s.IsOwner mutex task := by
    intro task
    show x.IsOwner mutex task ↔ _
    unfold IsOwner
    rw [hpointer]
  refine { fits := ?_, free := ?_, seen := ?_, releasing := ?_ }
  · intro task
    rw [hplaces]
    exact (h.fits task).congr (howner task) (hlisted task) fun _ => hcounter
  · show (x.sched.mutexes mutex).tcbPointer = NULL → (x.sched.mutexes mutex).counter = 0
    rw [hpointer, hcounter]
    exact h.free
  · intro _
    show Seen _ x.running ((x.goTo m pc').place mutex x.running)
    rw [place_goTo_other x pc' hne]
    trivial
  · intro task yields htask
    rw [hplaces] at htask
    obtain ⟨hlast', howners⟩ := h.releasing task yields htask
    refine ⟨hlast.trans hlast', ?_⟩
    intro owner hown
    have hacquiring := howners owner ((howner owner).mp hown)
    unfold Acquiring at hacquiring ⊢
    rw [← place_eq_some, ← place_eq_some, hplaces, place_eq_some, place_eq_some]
    exact hacquiring

/-- A step on a mutex keeps the invariant when it keeps that of the mutex and
changes membership of no other mutex. -/
theorem Linked.goTo (h : Linked s last lists) (hnull : mutex ≠ NULL)
    (hpc : ∀ m p, s.pc s.running = some (m, p) → m = mutex) (hx : Effects mutex s x)
    (hlists : x.sched.Lists lists')
    (hothers : ∀ m task, m ≠ mutex → (m ∈ lists' task ↔ m ∈ lists task))
    (hlast : ∀ m, m ≠ mutex → last' m = last m)
    (hthis : Listed mutex (fun task => mutex ∈ lists' task) last' (x.goTo mutex pc')) :
    Linked (x.goTo mutex pc') last' lists' where
  running := by
    show x.running ≠ NULL
    rw [hx.running]
    exact h.running
  svc m := (hx.svc m).trans (h.svc m)
  calls task m pc₁ hp := by
    rcases goTo_pc_cases hx hp with ⟨-, hp⟩ | ⟨-, pc₂, -, heq⟩
    · exact h.calls task m pc₁ hp
    · cases heq
      exact hnull
  linked := hlists
  listed m := by
    by_cases hm : m = mutex
    · subst hm
      exact hthis
    · have hplace : s.place m s.running = none := by
        refine Option.eq_none_iff_forall_ne_some.mpr fun p hp => hm ?_
        exact hpc m p (place_eq_some.mp hp)
      exact (h.listed m).other (Ne.symm hm) hx hplace (fun task => hothers m task hm) (hlast m hm)

/-- A step that writes no owner and no list, between places that are not in front
of an SVC that does. -/
theorem Linked.keep (h : Linked s last lists) (hnull : mutex ≠ NULL) (pc' : Option MutexPc)
    (hpc : ∀ m p, s.pc s.running = some (m, p) → m = mutex ∧ p.linksNext = false)
    (hpc' : ∀ p ∈ pc', p.linksNext = false) (hx : Effects mutex s x)
    (hlists : SameLists s.sched x.sched)
    (hpointer : (x.sched.mutexes mutex).tcbPointer = (s.sched.mutexes mutex).tcbPointer)
    (hcounter : (x.sched.mutexes mutex).counter = (s.sched.mutexes mutex).counter ∨
      s.IsOwner mutex s.running)
    (hfits : ListFits (s.IsOwner mutex s.running) (mutex ∈ lists s.running)
      (x.sched.mutexes mutex).counter pc')
    (hseen : x.monitor = some mutex → Seen (s.sched.mutexes mutex).tcbPointer s.running pc') :
    Linked (x.goTo mutex pc') last lists := by
  have howner : ∀ task, x.IsOwner mutex task ↔ s.IsOwner mutex task := by
    intro task
    unfold IsOwner
    rw [hpointer]
  refine h.goTo hnull (fun m p hp => (hpc m p hp).1) hx (h.linked.same hlists)
    (fun _ _ _ => Iff.rfl) (fun _ _ => rfl) ?_
  refine (h.listed mutex).goTo hx (fun _ _ => Iff.rfl) (.inl hpointer) (hcounter.imp id And.left)
    ?_ ?_ ?_ ?_
  · rw [howner]
    exact hfits
  · rw [hpointer]
    intro hnull
    rcases hcounter with heq | hown
    · rw [heq]
      exact (h.listed mutex).free hnull
    · rw [hown.1] at hnull
      exact absurd hnull hown.2
  · rw [hpointer]
    exact hseen
  · intro task yields htask
    rw [place_eq_some] at htask
    rcases goTo_pc_cases hx htask with ⟨-, hp⟩ | ⟨-, pc₁, hpc₁, heq⟩
    · -- the task that releases is another one, and the owner that acquires is not the running task
      obtain ⟨hlast, howners⟩ := (h.listed mutex).releasing task yields (place_eq_some.mpr hp)
      refine ⟨hlast, ?_⟩
      intro owner hown
      have hacquiring := howners owner ((howner owner).mp hown)
      have hne : owner ≠ x.running := by
        rintro rfl
        rw [Acquiring, hx.running] at hacquiring
        rcases hacquiring with heq | heq <;> cases (hpc _ _ heq).2
      unfold Acquiring
      rw [goTo_pc_of_ne x mutex pc' hne, hx.pc]
      exact hacquiring
    · cases heq
      cases hpc' _ hpc₁

/-- The same for a step of the running task that leaves the scheduler alone. -/
theorem Linked.move (h : Linked s last lists) (hpc : s.pc s.running = some (mutex, pc))
    (hlinks : pc.linksNext = false) (pc' : Option MutexPc)
    (hpc' : ∀ p ∈ pc', p.linksNext = false) (hx : Effects mutex s x) (hsched : x.sched = s.sched)
    (hfits : ListFits (s.IsOwner mutex s.running) (mutex ∈ lists s.running)
      (s.sched.mutexes mutex).counter pc')
    (hseen : x.monitor = some mutex → Seen (s.sched.mutexes mutex).tcbPointer s.running pc') :
    Linked (x.goTo mutex pc') last lists := by
  refine h.keep (h.calls _ _ _ hpc) pc' ?_ hpc' hx ?_ ?_ (.inl ?_) ?_ hseen
  · intro m p hp
    rw [hpc] at hp
    cases hp
    exact ⟨rfl, hlinks⟩
  · rw [hsched]
    exact .refl _
  · rw [hsched]
  · rw [hsched]
  · rw [hsched]
    exact hfits

theorem setTcbPointer_sameLists (s : MutexSystem) (mutex v : Nat) :
    SameLists s.sched (s.setTcbPointer mutex v).sched :=
  sameLists_modifyMutex (f := fun m => { m with tcbPointer := v }) mutex fun _ => rfl

theorem setCounter_sameLists (s : MutexSystem) (mutex v : Nat) :
    SameLists s.sched (s.setCounter mutex v).sched :=
  sameLists_modifyMutex (f := fun m => { m with counter := v }) mutex fun _ => rfl

theorem mutex_eq (hpc : s.pc s.running = some (mutex, pc)) {m : Nat} {p : MutexPc}
    (hp : s.pc s.running = some (m, p)) : m = mutex := by
  rw [hpc] at hp
  cases hp
  rfl

/-- Who has the mutex in its list. -/
theorem ListFits.of_listed {owner listed : Prop} {counter : Nat} {place : Option MutexPc}
    (h : ListFits owner listed counter place) (hl : listed) :
    owner ∨ ∃ yields, place = some (.releaseNotify yields) := by
  have hsettled : Settled owner listed counter → owner := fun hs =>
    (hs.resolve_right fun hout => hout.2 hl).1
  cases place with
  | none => exact .inl (hsettled h)
  | some pc =>
    cases pc
    case releaseNotify yields => exact .inr ⟨yields, rfl⟩
    all_goals first | exact .inl h.1 | exact .inl (hsettled h)

/-- An owner has the mutex in its list, or is going to link it. -/
theorem ListFits.of_owner {owner listed : Prop} {counter : Nat} {place : Option MutexPc}
    (h : ListFits owner listed counter place) (ho : owner) :
    listed ∨ place = some .acquireNotify ∨ place = some .tryNotify := by
  have hsettled : Settled owner listed counter → listed := fun hs =>
    (hs.resolve_right fun hout => hout.1 ho).2.1
  cases place with
  | none => exact .inl (hsettled h)
  | some pc =>
    cases pc
    case acquireNotify => exact .inr (.inl rfl)
    case tryNotify => exact .inr (.inr rfl)
    case releaseClear => exact .inl h.2.1
    all_goals first | exact .inl h.2 | exact .inl (hsettled h)

/-- A successful STREX. -/
theorem Linked.store (h : Linked s last lists) (hpc : s.pc s.running = some (mutex, pc))
    {pc' : MutexPc} (hpc' : pc' = .acquireNotify ∨ pc' = .tryNotify)
    (hsettled : Settled (s.IsOwner mutex s.running) (mutex ∈ lists s.running)
      (s.sched.mutexes mutex).counter)
    (hseen : (s.sched.mutexes mutex).tcbPointer = NULL ∨
      (s.sched.mutexes mutex).tcbPointer = s.running) :
    Linked ({ s.setTcbPointer mutex s.running with monitor := none }.goTo mutex (some pc'))
      last lists := by
  set x : MutexSystem := { s.setTcbPointer mutex s.running with monitor := none }
  have hx : Effects mutex s x :=
    (effects_setTcbPointer mutex s _).trans (effects_ghost mutex _ none _ _)
  have hpointer : (x.sched.mutexes mutex).tcbPointer = s.running :=
    setTcbPointer_tcbPointer s mutex _
  have hcounter : (x.sched.mutexes mutex).counter = (s.sched.mutexes mutex).counter :=
    setTcbPointer_counter s mutex _
  refine h.goTo (h.calls _ _ _ hpc) (fun _ _ => mutex_eq hpc) hx
    (h.linked.same (setTcbPointer_sameLists s mutex _))
    (fun _ _ _ => Iff.rfl) (fun _ _ => rfl) ?_
  refine (h.listed mutex).goTo hx (fun _ _ => Iff.rfl) (.inr ⟨hseen, .inr hpointer⟩) (.inl hcounter)
    ?_ ?_ (fun hmonitor => by cases hmonitor) ?_
  · have hfits : mutex ∈ lists s.running ↔ (x.sched.mutexes mutex).counter ≠ 0 := by
      rw [hcounter]
      rcases hsettled with ⟨-, hl, hne⟩ | ⟨hnot, hl⟩
      · exact iff_of_true hl hne
      · -- the task was not the owner, so the mutex was free
        have hnull := hseen.resolve_right fun heq => hnot ⟨heq, h.running⟩
        exact iff_of_false hl fun hne => hne ((h.listed mutex).free hnull)
    rcases hpc' with rfl | rfl <;> exact ⟨⟨hpointer, h.running⟩, hfits⟩
  · rw [hpointer]
    exact fun hnull => absurd hnull h.running
  · intro task yields htask
    rw [place_eq_some] at htask
    rcases goTo_pc_cases hx htask with ⟨-, hp⟩ | ⟨-, pc₁, hpc₁, heq⟩
    · refine ⟨((h.listed mutex).releasing task yields (place_eq_some.mpr hp)).1, ?_⟩
      rintro owner ⟨hown, -⟩
      obtain rfl : x.running = owner := hpointer.symm.trans hown
      unfold Acquiring
      rw [goTo_pc_running]
      rcases hpc' with rfl | rfl
      · exact .inl rfl
      · exact .inr rfl
    · cases heq
      rcases hpc' with rfl | rfl <;> cases hpc₁

/-- In front of `OS_notify_resource_aquired` the mutex is in the list only if the task
had it already. -/
theorem Linked.acquiring (h : Linked s last lists) (hpc : s.pc s.running = some (mutex, pc))
    (hpc' : pc = .acquireNotify ∨ pc = .tryNotify) :
    s.IsOwner mutex s.running ∧
      (mutex ∈ lists s.running ↔ (s.sched.mutexes mutex).counter ≠ 0) := by
  have hfits := (h.listed mutex).fits s.running
  rw [place_eq_some.mpr hpc] at hfits
  rcases hpc' with rfl | rfl <;> exact hfits

/-- A mutex that is linked for the first time is in no list, if no task that has cleared
it is about to notify. -/
theorem Linked.not_listed (h : Linked s last lists) (hpc : s.pc s.running = some (mutex, pc))
    (hpc' : pc = .acquireNotify ∨ pc = .tryNotify)
    (hnone : ∀ task yields, s.pc task ≠ some (mutex, .releaseNotify yields))
    (hzero : (s.sched.mutexes mutex).counter = 0) (task : Nat) : mutex ∉ lists task := by
  intro hmem
  obtain ⟨hown, hlisted⟩ := h.acquiring hpc hpc'
  rcases ((h.listed mutex).fits task).of_listed hmem with howner | ⟨yields, htask⟩
  · obtain rfl : s.running = task := hown.1.symm.trans howner.1
    exact hlisted.mp hmem hzero
  · exact hnone task yields (place_eq_some.mp htask)

/-- `OS_notify_resource_aquired` with no release of the mutex in front of its
`OS_notify`. -/
theorem Linked.acquired (h : Linked s last lists) (hpc : s.pc s.running = some (mutex, pc))
    (hpc' : pc = .acquireNotify ∨ pc = .tryNotify) (hclearing : ¬ s.Clearing last mutex) :
    ∃ lists', Linked ({ s with sched := s.sched.resourceAcquired mutex }.goTo mutex
      (some .countLoad)) last lists' := by
  have hnone : ∀ task yields, s.pc task ≠ some (mutex, .releaseNotify yields) := by
    intro task yields htask
    obtain ⟨hlast, -⟩ := (h.listed mutex).releasing task yields (place_eq_some.mpr htask)
    exact hclearing ⟨yields, by rw [hlast, htask]⟩
  obtain ⟨hown, hcounter⟩ := h.acquiring hpc hpc'
  have hsvc := svcResourceAcquired_frame true s.sched mutex
  set x : MutexSystem := { s with sched := s.sched.resourceAcquired mutex }
  have hx : Effects mutex s x := effects_svc mutex s hsvc
  have hpointer : (x.sched.mutexes mutex).tcbPointer = (s.sched.mutexes mutex).tcbPointer :=
    hsvc.tcbPointer mutex
  have hsame : (x.sched.mutexes mutex).counter = (s.sched.mutexes mutex).counter :=
    hsvc.counter mutex
  -- whatever the new lists are, the mutex is in that of the running task
  have hthis : ∀ lists' : Nat → List Nat, mutex ∈ lists' s.running →
      (∀ task, task ≠ s.running → lists' task = lists task) →
      Listed mutex (fun task => mutex ∈ lists' task) last (x.goTo mutex (some .countLoad)) := by
    intro lists' hmem hothers
    refine (h.listed mutex).goTo hx (fun task ht => by rw [hothers task ht]) (.inl hpointer)
      (.inl hsame) ⟨⟨hpointer.trans hown.1, hown.2⟩, hmem⟩ ?_ (fun _ => trivial) ?_
    · rw [hpointer, hsame]
      exact (h.listed mutex).free
    · intro task yields htask
      rw [place_eq_some] at htask
      rcases goTo_pc_cases hx htask with ⟨-, hp⟩ | ⟨-, pc₁, hpc₁, heq⟩
      · exact absurd hp (hnone task yields)
      · cases heq
        cases hpc₁
  by_cases hzero : (s.sched.mutexes mutex).counter = 0
  · have hnew := h.not_listed hpc hpc' hnone hzero
    refine ⟨_, h.goTo (h.calls _ _ _ hpc) (fun _ _ => mutex_eq hpc) hx
      (h.linked.resourceAcquired (h.calls _ _ _ hpc) h.running hzero hnew) ?_
      (fun _ _ => rfl) (hthis _ ?_ fun task ht => Function.update_of_ne ht _ _)⟩
    · intro m task hm
      show m ∈ Function.update lists s.running (mutex :: lists s.running) task ↔ _
      by_cases ht : task = s.running
      · rw [ht, Function.update_self, List.mem_cons]
        exact or_iff_right hm
      · rw [Function.update_of_ne ht]
    · show mutex ∈ Function.update lists s.running (mutex :: lists s.running) s.running
      rw [Function.update_self]
      exact List.mem_cons_self
  · -- a nested acquire
    refine ⟨lists, h.goTo (h.calls _ _ _ hpc) (fun _ _ => mutex_eq hpc) hx ?_
      (fun _ _ _ => Iff.rfl) (fun _ _ => rfl)
      (hthis lists (hcounter.mpr hzero) fun _ _ => rfl)⟩
    show (s.sched.resourceAcquired mutex).Lists lists
    rw [Sched.resourceAcquired_nested hzero]
    exact h.linked

/-- The write of `NULL` of a release. -/
theorem Linked.clear (h : Linked s last lists) {yields : Bool}
    (hpc : s.pc s.running = some (mutex, .releaseClear yields)) :
    Linked ({ s.setTcbPointer mutex NULL with monitor := none }.goTo mutex
      (some (.releaseNotify yields))) (Function.update last mutex s.running) lists := by
  have hfits := (h.listed mutex).fits s.running
  rw [place_eq_some.mpr hpc] at hfits
  obtain ⟨hown, hmem, hzero⟩ := hfits
  set x : MutexSystem := { s.setTcbPointer mutex NULL with monitor := none }
  have hx : Effects mutex s x :=
    (effects_setTcbPointer mutex s NULL).trans (effects_ghost mutex _ none _ _)
  have hpointer : (x.sched.mutexes mutex).tcbPointer = NULL := setTcbPointer_tcbPointer s mutex _
  have hcounter : (x.sched.mutexes mutex).counter = (s.sched.mutexes mutex).counter :=
    setTcbPointer_counter s mutex _
  have hnotOwner : ∀ task, ¬ x.IsOwner mutex task := by
    rintro task ⟨heq, hne⟩
    exact hne (heq.symm.trans hpointer)
  refine h.goTo (h.calls _ _ _ hpc) (fun _ _ => mutex_eq hpc) hx
    (h.linked.same (setTcbPointer_sameLists s mutex _))
    (fun _ _ _ => Iff.rfl) (fun m hne => Function.update_of_ne hne _ _) ?_
  refine (h.listed mutex).goTo hx (fun _ _ => Iff.rfl) (.inr ⟨.inr hown.1, .inl hpointer⟩)
    (.inl hcounter) ⟨hnotOwner _, hmem⟩ (fun _ => hcounter.trans hzero) (fun _ => trivial) ?_
  intro task yields' htask
  refine ⟨?_, fun owner howner => absurd howner (hnotOwner owner)⟩
  rw [Function.update_self]
  rw [place_eq_some] at htask
  rcases goTo_pc_cases hx htask with ⟨-, hp⟩ | ⟨rfl, -⟩
  · -- nobody else can stand in front of the `OS_notify`: the owner is not acquiring
    obtain ⟨-, howners⟩ := (h.listed mutex).releasing task yields' (place_eq_some.mpr hp)
    have hacquiring := howners s.running hown
    rw [Acquiring, hpc] at hacquiring
    rcases hacquiring with heq | heq <;> cases heq
  · rfl

/-- The `OS_notify` of a release. -/
theorem Linked.notify (h : Linked s last lists) (pc' : Option MutexPc) {yields : Bool} {fuel : Nat}
    (hpc : s.pc s.running = some (mutex, .releaseNotify yields)) (hx : Effects mutex s x)
    (hs : s.sched.nextCheckCode.notifyCallback fuel mutex = some x.sched)
    (hmonitor : x.monitor = none) (hpc' : ∀ p ∈ pc', p = .releaseYield) :
    Linked (x.goTo mutex pc') last
      (Function.update lists s.running ((lists s.running).erase mutex)) := by
  have hfits := (h.listed mutex).fits s.running
  rw [place_eq_some.mpr hpc] at hfits
  -- in front of the SVC the task does not own the mutex any more, and the list still has it
  obtain ⟨hnotOwner, hmem⟩ := hfits
  have hsvc : SvcFrame s.sched x.sched := @svcNotify_frame true _ _ _ _ hs
  have hpointer := hsvc.tcbPointer mutex
  have hcounter := hsvc.counter mutex
  have howner : ∀ task, x.IsOwner mutex task ↔ s.IsOwner mutex task := by
    intro task
    unfold IsOwner
    rw [hpointer]
  -- waking leaves the lists alone, and the current task drops the mutex from its list
  have hwakes := s.sched.nextCheckCode.wakeAll_wakes mutex
  have hnext : s.sched.nextCheckCode.Lists lists := h.linked.congr rfl rfl
  have hlists : (s.sched.nextCheckCode.wakeAll mutex).Lists lists := hnext.same hwakes.sameLists
  have hcurrent : (s.sched.nextCheckCode.wakeAll mutex).currentTCB = s.running := by
    rw [hwakes.rest]
    rfl
  have hdrop := hlists.dropAcquired hs
  rw [hcurrent] at hdrop
  refine h.goTo (h.calls _ _ _ hpc) (fun _ _ => mutex_eq hpc) hx hdrop ?_ (fun _ _ => rfl) ?_
  · intro m task hm
    by_cases ht : task = s.running
    · rw [ht, Function.update_self, List.mem_erase_of_ne hm]
    · rw [Function.update_of_ne ht]
  refine (h.listed mutex).goTo hx (fun task ht => by rw [Function.update_of_ne ht]) (.inl hpointer)
    (.inl hcounter) ?_ ?_ ?_ ?_
  · have hout : Settled (x.IsOwner mutex s.running)
        (mutex ∈ Function.update lists s.running ((lists s.running).erase mutex) s.running)
        (x.sched.mutexes mutex).counter := by
      refine .inr ⟨fun hown => hnotOwner ((howner _).mp hown), ?_⟩
      rw [Function.update_self]
      exact (h.linked.chain s.running).nodup.not_mem_erase
    cases hp : pc' with
    | none => exact hout
    | some p =>
      obtain rfl := hpc' p hp
      exact hout
  · rw [hpointer, hcounter]
    exact (h.listed mutex).free
  · intro heq
    rw [hmonitor] at heq
    cases heq
  · intro task yields' htask
    rw [place_eq_some] at htask
    rcases goTo_pc_cases hx htask with ⟨hne, hp⟩ | ⟨-, pc₁, hpc₁, heq⟩
    · -- one task at most is between its release and its SVC: the one noted last
      obtain ⟨hlast, -⟩ := (h.listed mutex).releasing task yields' (place_eq_some.mpr hp)
      obtain ⟨hlast', -⟩ := (h.listed mutex).releasing s.running yields (place_eq_some.mpr hpc)
      exact absurd (hlast.symm.trans hlast') hne
    · cases heq
      cases hpc' _ hpc₁

/-- **Every step of a function keeps the invariant.** -/
theorem Linked.advance (h : Linked s last lists) (hpc : s.pc s.running = some (mutex, pc))
    (hok : Uncrossed (s, last) (.step strexFails fuel))
    (hs : s.advance true strexFails fuel mutex pc = some s') :
    ∃ lists', Linked s' (s.lastClear (.step strexFails fuel) last) lists' := by
  have hfits := (h.listed mutex).fits s.running
  have hseen := (h.listed mutex).seen
  have hsvc : (s.sched.mutexes mutex).svcDelegatesEnabled ≠ 0 := by rw [h.svc]; decide
  rw [place_eq_some.mpr hpc] at hfits hseen
  simp only [lastClear, hpc]
  simp only [Uncrossed, hpc] at hok
  have hnull := h.calls _ _ _ hpc
  have hat : pc.linksNext = false →
      ∀ m p, s.pc s.running = some (m, p) → m = mutex ∧ p.linksNext = false := by
    intro hlinks m p hp
    rw [hpc] at hp
    cases hp
    exact ⟨rfl, hlinks⟩
  have hnext : ∀ q : MutexPc, q.linksNext = false → ∀ p ∈ some q, p.linksNext = false := by
    rintro q hq p ⟨⟩
    exact hq
  -- the lists change where a mutex is linked or unlinked: in `acquired` and `notify`
  cases pc <;> simp only [MutexSystem.advance] at hs
  case acquireCode =>
    cases hs
    exact ⟨lists, h.move hpc rfl (some _) (hnext _ rfl) (effects_ghost mutex s _ _ _) rfl hfits
      fun _ => trivial⟩
  case acquireLoad checkCode =>
    split at hs <;> cases hs
    · rename_i hfree
      exact ⟨lists, h.move hpc rfl (some _) (hnext _ rfl)
        (effects_ghost mutex s (some mutex) _ _) rfl hfits fun _ => hfree⟩
    · exact ⟨lists, h.move hpc rfl (some _) (hnext _ rfl)
        (effects_ghost mutex s (some mutex) _ _) rfl hfits fun _ => trivial⟩
  case acquireStore =>
    split at hs
    · rename_i x hstore
      cases hs
      obtain ⟨hmonitor, rfl⟩ := storeExclusive_cases hstore
      exact ⟨lists, h.store hpc (.inl rfl) hfits (hseen hmonitor)⟩
    · cases hs
      exact ⟨lists, h.move hpc rfl (some _) (hnext _ rfl) (effects_ghost mutex s none _ _) rfl
        hfits fun _ => trivial⟩
  case acquireNotify =>
    rw [if_pos hsvc] at hs
    cases hs
    exact h.acquired hpc (.inl rfl) hok
  case acquireWait checkCode =>
    rw [if_pos hsvc] at hs
    obtain ⟨sched, hwait, rfl⟩ := Option.map_eq_some_iff.mp hs
    have hframe := svcWait_frame hwait
    refine ⟨lists, h.keep hnull (some _) (hat rfl) (hnext _ rfl) ((effects_svc mutex s hframe).trans
      (effects_ghost mutex _ none _ _)) (waitCallback_sameLists hwait) (hframe.tcbPointer _)
      (.inl (hframe.counter _)) ?_ fun _ => trivial⟩
    rw [hframe.counter]
    exact hfits
  case tryCode =>
    cases hs
    exact ⟨lists, h.move hpc rfl (some _) (hnext _ rfl) (.refl mutex s) rfl hfits
      fun _ => trivial⟩
  case tryLoad =>
    split at hs <;> cases hs
    · rename_i hfree
      exact ⟨lists, h.move hpc rfl (some _) (hnext _ rfl)
        (effects_ghost mutex s (some mutex) _ _) rfl hfits fun _ => hfree⟩
    · exact ⟨lists, h.move hpc rfl none (by simp) (effects_ghost mutex s (some mutex) _ _) rfl
        hfits fun _ => trivial⟩
  case tryStore =>
    split at hs
    · rename_i x hstore
      cases hs
      obtain ⟨hmonitor, rfl⟩ := storeExclusive_cases hstore
      exact ⟨lists, h.store hpc (.inr rfl) hfits (.inl (hseen hmonitor))⟩
    · cases hs
      exact ⟨lists, h.move hpc rfl none (by simp) (effects_ghost mutex s none _ _) rfl
        hfits fun _ => trivial⟩
  case tryNotify =>
    cases hs
    exact h.acquired hpc (.inr rfl) hok
  case countLoad =>
    cases hs
    exact ⟨lists, h.move hpc rfl (some _) (hnext _ rfl) (.refl mutex s) rfl hfits
      fun _ => trivial⟩
  case countStore counter =>
    cases hs
    obtain ⟨hown, hmem⟩ := hfits
    refine ⟨lists, h.keep hnull none (hat rfl) (by simp)
      ((effects_setCounter mutex s _).trans (effects_countAcquire mutex _))
      (setCounter_sameLists s mutex _) (setCounter_tcbPointer s mutex _) (.inr hown)
      (.inl ⟨hown, hmem, ?_⟩) fun _ => trivial⟩
    -- the counter does not wrap, so the mutex still counts as held
    show ((s.setCounter mutex (wrap (counter + 1))).sched.mutexes mutex).counter ≠ 0
    rw [setCounter_counter, wrap_of_lt hok]
    exact Nat.succ_ne_zero counter
  case releaseTest yields =>
    split at hs <;> cases hs
    · exact ⟨lists, h.move hpc rfl none (by simp) (effects_countRelease mutex s) rfl hfits
        fun _ => trivial⟩
    · rename_i howner
      push Not at howner
      have hmem : mutex ∈ lists s.running :=
        (hfits.resolve_right fun hout => hout.1 ⟨howner, h.running⟩).2.1
      exact ⟨lists, h.move hpc rfl (some _) (hnext _ rfl) (.refl mutex s) rfl
        ⟨⟨howner, h.running⟩, hmem⟩ fun _ => trivial⟩
  case releaseCountLoad yields =>
    cases hs
    exact ⟨lists, h.move hpc rfl (some _) (hnext _ rfl) (.refl mutex s) rfl hfits
      fun _ => trivial⟩
  case releaseCountStore yields counter =>
    cases hs
    exact ⟨lists, h.keep hnull (some _) (hat rfl) (hnext _ rfl) (effects_setCounter mutex s _)
      (setCounter_sameLists s mutex _)
      (setCounter_tcbPointer s mutex _) (.inr hfits.1) hfits fun _ => trivial⟩
  case releaseCountTest yields =>
    split at hs <;> cases hs
    · rename_i hzero
      exact ⟨lists, h.move hpc rfl (some _) (hnext _ rfl) (.refl mutex s) rfl
        ⟨hfits.1, hfits.2, hzero⟩ fun _ => trivial⟩
    · rename_i hne
      exact ⟨lists, h.move hpc rfl none (by simp) (effects_countRelease mutex s) rfl
        (.inl ⟨hfits.1, hfits.2, hne⟩) fun _ => trivial⟩
  case releaseClear yields =>
    rw [if_pos ⟨by simpa [setTcbPointer, modifyMutex] using hsvc, h.running⟩] at hs
    cases hs
    exact ⟨lists, h.clear hpc⟩
  case releaseNotify yields =>
    obtain ⟨sched, hnotify, rfl⟩ := Option.map_eq_some_iff.mp hs
    have hx : Effects mutex s { s with sched, notifies := s.notifies + 1, monitor := none } :=
      (effects_svc mutex s (svcNotify_frame hnotify)).trans (effects_ghost mutex _ none _ _)
    -- a release that yields does so after its notify
    split
    · refine ⟨_, h.notify (some .releaseYield) hpc hx hnotify rfl ?_⟩
      rintro p ⟨⟩
      rfl
    · exact ⟨_, h.notify none hpc (hx.trans (effects_countRelease mutex _)) hnotify rfl (by simp)⟩
  case releaseYield =>
    have hyield : SvcFrame s.sched s.sched.yieldCurrent := ⟨rfl, fun _ => ⟨_, rfl⟩⟩
    have hlists : SameLists s.sched s.sched.yieldCurrent :=
      sameLists_modifyTCB s.sched.currentTCB fun _ => rfl
    cases hs
    exact ⟨lists, h.keep hnull none (hat rfl) (by simp)
      ((effects_svc mutex s hyield).trans (effects_countRelease mutex _)) hlists rfl (.inl rfl)
      hfits fun _ => trivial⟩

/-- **Every step of the machine keeps the invariant.** -/
theorem Linked.step {e : MutexEvent} (h : Linked s last lists) (hok : Uncrossed (s, last) e)
    (hs : s.step true e = some s') : ∃ lists', Linked s' (s.lastClear e last) lists' := by
  rcases step_cases hs with ⟨task, rfl, hnull, rfl⟩ | ⟨m, function, rfl, hpc, rfl⟩ |
    ⟨strexFails, fuel, m, pc, rfl, hpc, -, hadvance⟩
  · refine ⟨lists, { h with running := hnull, listed := ?_ }⟩
    intro mutex
    exact
      { fits := (h.listed mutex).fits
        free := (h.listed mutex).free
        seen := fun hmonitor => by cases hmonitor
        releasing := (h.listed mutex).releasing }
  · have hplace : s.place m s.running = none := by simp [place, hpc]
    have hfits := (h.listed m).fits s.running
    rw [hplace] at hfits
    refine ⟨lists, h.keep hok (some _) ?_ ?_ (.refl m s) (.refl _) rfl (.inl rfl) ?_ ?_⟩
    · intro m' p hp
      rw [hpc] at hp
      cases hp
    · rintro p ⟨⟩
      cases function <;> rfl
    · cases function <;> exact hfits
    · cases function <;> exact fun _ => trivial
  · exact h.advance hpc hok hadvance

end Steps

/-! ## The result -/

theorem listMachine_linked {s : MutexSystem} (h : listMachine.init s) (last : Nat → Nat) :
    Linked s last fun _ => [] := by
  obtain ⟨hfresh, hmutexes, hlists⟩ := h
  have hpointer : ∀ m, (s.sched.mutexes m).tcbPointer = NULL := fun m => by
    rw [hmutexes]
    rfl
  refine { running := hfresh.running, svc := ?_, calls := ?_, linked := ?_, listed := ?_ }
  · intro m
    rw [hmutexes]
    rfl
  · intro task m pc hp
    rw [hfresh.pc] at hp
    cases hp
  · intro tasks
    refine ⟨?_, by simp⟩
    intro task _
    rw [firstAcquired, hlists]
    exact .nil none
  · intro mutex
    have hplace : ∀ task, s.place mutex task = none := fun task => by simp [place, hfresh.pc]
    refine { fits := ?_, free := ?_, seen := ?_, releasing := ?_ }
    · intro task
      rw [hplace]
      refine .inr ⟨?_, List.not_mem_nil⟩
      rintro ⟨heq, hne⟩
      exact hne (heq.symm.trans (hpointer mutex))
    · intro _
      rw [hmutexes]
      rfl
    · intro _
      rw [hplace]
      trivial
    · intro task yields htask
      rw [hplace] at htask
      cases htask

theorem Linked.exact {s : MutexSystem} {last : Nat → Nat} {lists : Nat → List Nat}
    (h : Linked s last lists) : ExactLists s lists where
  chain := h.linked.chain
  nodup task := (h.linked.chain task).nodup
  apart _ _ _ hm hm' := h.linked.task_unique hm hm'
  owned task mutex hown := by
    refine (((h.listed mutex).fits task).of_owner hown).imp id ?_
    intro hplace
    exact hplace.imp place_eq_some.mp place_eq_some.mp
  only task mutex hm := by
    refine (((h.listed mutex).fits task).of_listed hm).imp id ?_
    rintro ⟨yields, hplace⟩
    exact ⟨yields, place_eq_some.mp hplace⟩

/-- **The lists of acquired mutexes stay exact** in every run in which a task links
a mutex only after the task that cleared it last has executed its `OS_notify`. -/
theorem lists_exact {p : MutexSystem × (Nat → Nat)}
    (h : ((listMachine.withHistory lastClear).guard Uncrossed).Reach p) :
    ∃ lists, ExactLists p.1 lists := by
  have hlinked : ∃ lists, Linked p.1 p.2 lists := by
    refine Machine.Reach.invariant (P := fun p => ∃ lists, Linked p.1 p.2 lists) ?_ ?_ h
    · intro p hp
      exact ⟨_, listMachine_linked hp p.2⟩
    · rintro p e p' ⟨lists, hp⟩ hs
      obtain ⟨hok, hs⟩ := Machine.guard_step_iff.mp hs
      obtain ⟨hstep, hlast⟩ := Machine.withHistory_step_iff.mp hs
      rw [hlast]
      exact hp.step hok hstep
  obtain ⟨lists, hp⟩ := hlinked
  exact ⟨lists, hp.exact⟩

/-- Task 7 acquires two mutexes. -/
theorem lists_exact_twoMutexes :
    ∃ p, ((listMachine.withHistory lastClear).guard Uncrossed).run (sampleSystem, fun _ => NULL)
        (acquireEvents 100 ++ acquireEvents 104) = some p ∧
      (p.1.sched.firstAcquired 7 = some 104 ∧ p.1.sched.nextAcquired 104 = some 100) ∧
        ∃ lists, ExactLists p.1 lists := by
  obtain ⟨p, hrun, hlinks⟩ := Machine.exists_run
    (M := (listMachine.withHistory lastClear).guard Uncrossed)
    (P := fun p => p.1.sched.firstAcquired 7 = some 104 ∧ p.1.sched.nextAcquired 104 = some 100)
    (s := (sampleSystem, fun _ => NULL)) (e := acquireEvents 100 ++ acquireEvents 104)
    (by decide +kernel)
  have hstart : ((listMachine.withHistory lastClear).guard Uncrossed).Reach
      (sampleSystem, fun _ => NULL) :=
    .init ⟨sampleSystem_fresh, fun _ => rfl, fun _ => rfl⟩
  exact ⟨p, hrun, hlinks, lists_exact (hstart.run hrun)⟩

/-- Task 7 has cleared the mutex and task 8 acquires it before task 7 executes its
`OS_notify`: the mutex is in both lists. -/
theorem lists_cross : ¬ ∀ s, listMachine.Reach s → ∃ lists, ExactLists s lists := by
  intro h
  obtain ⟨s, hrun, h7, h8⟩ := Machine.exists_run (M := listMachine)
    (P := fun s => s.sched.firstAcquired 7 = some 100 ∧ s.sched.firstAcquired 8 = some 100)
    (s := sampleSystem)
    (e := acquireEvents 100 ++ .call 100 .release :: List.replicate 5 (.step false 3) ++
      .switchTo 8 :: acquireEvents 100)
    (by decide +kernel)
  have hstart : listMachine.Reach sampleSystem :=
    .init ⟨sampleSystem_fresh, fun _ => rfl, fun _ => rfl⟩
  obtain ⟨lists, hexact⟩ := h s (hstart.run hrun)
  have hfirst : ∀ task, s.sched.firstAcquired task = some 100 → 100 ∈ lists task := by
    intro task hf
    have hchain := hexact.chain task
    rw [hf] at hchain
    cases hl : lists task with
    | nil =>
      rw [hl] at hchain
      cases hchain
    | cons a l =>
      rw [hl] at hchain
      obtain ⟨ha, -⟩ := Path.cons_iff.mp hchain
      cases ha
      exact List.mem_cons_self
  exact absurd (hexact.apart 7 8 100 (hfirst 7 h7) (hfirst 8 h8)) (by decide)

end MutexSystem

end DocetOS
