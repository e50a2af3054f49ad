import DocetOS.DataStructures.MutexRuns

/-!
# Mutual exclusion and the nesting depth

A mutex that begins as `OS_init_mutex` leaves it is held by one task at a time,
that task is `tcbPointer`, and `counter` is how often it has acquired the mutex
more than released it.

`Owned` is the invariant. `Fits` gives its main part: what `counter` is for a
task at each place of the code, given how deep it holds the mutex and whether
`tcbPointer` is the task. Only the owner writes `counter`, and a task becomes
the owner only by a STREX whose monitor shows that nobody has written
`tcbPointer` since the task saw it free or its own.

A task gives the mutex up with its write of `NULL`, before its call of
`OS_mutex_release` returns: from there on the release counts as completed
(`released`). The counter is a word, so a task nests its acquires fewer than
`2 ^ 32` deep (`Nests`).
-/

namespace DocetOS

/-- Between the write of `NULL` to `tcbPointer` and the return of the release. -/
def MutexPc.givenUp : Option MutexPc → Bool
  | some (.releaseNotify _) | some .releaseYield => true
  | _ => false

namespace MutexSystem

/-- Where a task is in a function on `mutex`, `none` outside of them. -/
def place (s : MutexSystem) (mutex task : Nat) : Option MutexPc :=
  match s.pc task with
  | some (m, pc) => if m = mutex then some pc else none
  | none => none

/-- How much more often a task has acquired `mutex` than released it, counting
calls that have returned. -/
def depth (s : MutexSystem) (mutex task : Nat) : Nat :=
  s.acquires task mutex - s.releases task mutex

/-- The releases of a task, one that has given the mutex up and not returned
included. -/
def released (s : MutexSystem) (mutex task : Nat) : Nat :=
  s.releases task mutex + (MutexPc.givenUp (s.place mutex task)).toNat

/-- The task holds `mutex`. -/
def Holds (s : MutexSystem) (mutex task : Nat) : Prop :=
  s.released mutex task < s.acquires task mutex

/-- `tcbPointer` is the task. -/
def IsOwner (s : MutexSystem) (mutex task : Nat) : Prop :=
  (s.sched.mutexes mutex).tcbPointer = task ∧ task ≠ NULL

/-! ## What the callers keep to -/

/-- A task releases `mutex` only as often as it has acquired it. -/
def ReleasesOwn (mutex : Nat) (s : MutexSystem) : MutexEvent → Prop
  | .call m function =>
    m = mutex ∧ (function = .release ∨ function = .releaseNoYield) →
      s.releases s.running mutex < s.acquires s.running mutex
  | _ => True

/-- A task nests its acquires of `mutex` fewer than `2 ^ 32` deep. -/
def Nests (mutex : Nat) (s : MutexSystem) : MutexEvent → Prop
  | .call m function =>
    m = mutex ∧ (function = .acquire ∨ function = .acquireNonBlocking) →
      s.depth mutex s.running + 1 < 4294967296
  | _ => True

instance (mutex : Nat) (s : MutexSystem) : (e : MutexEvent) → Decidable (ReleasesOwn mutex s e)
  | .switchTo _ => inferInstanceAs (Decidable True)
  | .call _ _ => inferInstanceAs (Decidable (_ ∧ (_ ∨ _) → _))
  | .step _ _ => inferInstanceAs (Decidable True)

instance (mutex : Nat) (s : MutexSystem) : (e : MutexEvent) → Decidable (Nests mutex s e)
  | .switchTo _ => inferInstanceAs (Decidable True)
  | .call _ _ => inferInstanceAs (Decidable (_ ∧ (_ ∨ _) → _))
  | .step _ _ => inferInstanceAs (Decidable True)

/-! ## The invariant -/

/-- A task outside the functions: the owner's depth is `counter`, others have
none. -/
def Balanced (owner : Prop) (counter depth : Nat) : Prop :=
  (owner ∧ counter = depth ∧ 0 < depth) ∨ (¬ owner ∧ depth = 0)

/-- What holds of a task at each place. -/
def Fits (owner : Prop) (counter depth : Nat) : Option MutexPc → Prop
  | some .acquireNotify | some .tryNotify | some .countLoad =>
    owner ∧ counter = depth ∧ depth + 1 < 4294967296
  | some (.countStore value) =>
    owner ∧ counter = depth ∧ value = depth ∧ depth + 1 < 4294967296
  | some (.releaseTest _) | some (.releaseCountLoad _) => owner ∧ counter = depth ∧ 0 < depth
  | some (.releaseCountStore _ value) => owner ∧ counter = depth ∧ value = depth ∧ 0 < depth
  | some (.releaseCountTest _) => owner ∧ counter + 1 = depth
  | some (.releaseClear _) => owner ∧ counter = 0 ∧ depth = 1
  | some (.releaseNotify _) | some .releaseYield => ¬ owner ∧ depth = 1
  | none => Balanced owner counter depth
  -- in front of the STREX of an acquire
  | some _ => Balanced owner counter depth ∧ depth + 1 < 4294967296

/-- What a task about to do its STREX may rely on while the monitor is set. -/
def Seen (tcbPointer running : Nat) : Option MutexPc → Prop
  | some .acquireStore => tcbPointer = NULL ∨ tcbPointer = running
  | some .tryStore => tcbPointer = NULL
  | _ => True

structure Owned (mutex : Nat) (s : MutexSystem) : Prop where
  running : s.running ≠ NULL
  le : ∀ task, s.releases task mutex ≤ s.acquires task mutex
  fits : ∀ task, Fits (s.IsOwner mutex task) (s.sched.mutexes mutex).counter (s.depth mutex task)
    (s.place mutex task)
  free : (s.sched.mutexes mutex).tcbPointer = NULL → (s.sched.mutexes mutex).counter = 0
  seen : s.monitor = some mutex →
    Seen (s.sched.mutexes mutex).tcbPointer s.running (s.place mutex s.running)

section Steps

variable {s s' x : MutexSystem} {mutex : Nat} {inheritance strexFails : Bool} {fuel : Nat}
  {pc : MutexPc}

theorem Fits.congr {owner owner' : Prop} {counter counter' depth : Nat} {pc' : Option MutexPc}
    (h : Fits owner counter depth pc') (ho : owner' ↔ owner)
    (hc : owner → counter' = counter) : Fits owner' counter' depth pc' := by
  have howner : owner' = owner := propext ho
  subst howner
  by_cases hold : owner'
  · rw [hc hold]
    exact h
  · have hbalanced : Balanced owner' counter depth → Balanced owner' counter' depth := by
      rintro (⟨hown, -⟩ | hzero)
      · exact absurd hown hold
      · exact .inr hzero
    -- a task that is not the owner is at no place that mentions `counter`
    cases pc' with
    | none => exact hbalanced h
    | some pc =>
      cases pc
      case acquireCode => exact ⟨hbalanced h.1, h.2⟩
      case acquireLoad => exact ⟨hbalanced h.1, h.2⟩
      case acquireStore => exact ⟨hbalanced h.1, h.2⟩
      case acquireWait => exact ⟨hbalanced h.1, h.2⟩
      case tryCode => exact ⟨hbalanced h.1, h.2⟩
      case tryLoad => exact ⟨hbalanced h.1, h.2⟩
      case tryStore => exact ⟨hbalanced h.1, h.2⟩
      case releaseNotify => exact h
      case releaseYield => exact h
      all_goals exact absurd h.1 hold

/-- A task that is not the owner has nothing of the mutex left to give up. -/
theorem Fits.not_owner {owner : Prop} {counter depth : Nat} {pc' : Option MutexPc}
    (h : Fits owner counter depth pc') (hown : ¬ owner) :
    depth = (MutexPc.givenUp pc').toNat := by
  have hbalanced : Balanced owner counter depth → depth = 0 := fun hb =>
    (hb.resolve_left fun ho => hown ho.1).2
  cases pc' with
  | none => exact hbalanced h
  | some pc =>
    cases pc
    case acquireCode => exact hbalanced h.1
    case acquireLoad => exact hbalanced h.1
    case acquireStore => exact hbalanced h.1
    case acquireWait => exact hbalanced h.1
    case tryCode => exact hbalanced h.1
    case tryLoad => exact hbalanced h.1
    case tryStore => exact hbalanced h.1
    case releaseNotify => exact h.2
    case releaseYield => exact h.2
    all_goals exact absurd h.1 hown

theorem place_goTo_running (x : MutexSystem) (mutex : Nat) (pc' : Option MutexPc) :
    (x.goTo mutex pc').place mutex x.running = pc' := by
  cases pc' <;> simp [place, goTo, setPc]

theorem place_goTo_of_ne (x : MutexSystem) (mutex m : Nat) {task : Nat} (pc' : Option MutexPc)
    (h : task ≠ x.running) : (x.goTo m pc').place mutex task = x.place mutex task := by
  simp [place, goTo, setPc, h]

theorem place_goTo_other (x : MutexSystem) {m : Nat} (pc' : Option MutexPc) (h : m ≠ mutex) :
    (x.goTo m pc').place mutex x.running = none := by
  cases pc' <;> simp [place, goTo, setPc, h]

/-- A step of the running task on the mutex leaves the places of the other tasks. -/
theorem Effects.place_goTo {task : Nat} (hx : Effects mutex s x) (pc' : Option MutexPc)
    (ht : task ≠ s.running) : (x.goTo mutex pc').place mutex task = s.place mutex task := by
  rw [place_goTo_of_ne x mutex mutex pc' (hx.running ▸ ht)]
  simp only [place, hx.pc]

/-- A step on another mutex leaves all places. -/
theorem Effects.place_goTo_other {m : Nat} (hx : Effects m s x) (pc' : Option MutexPc)
    (hne : m ≠ mutex) (hplace : s.place mutex s.running = none) (task : Nat) :
    (x.goTo m pc').place mutex task = s.place mutex task := by
  by_cases ht : task = s.running
  · rw [ht, hplace, ← hx.running, MutexSystem.place_goTo_other x pc' hne]
  · rw [place_goTo_of_ne x mutex m pc' (hx.running ▸ ht)]
    simp only [place, hx.pc]

/-- Writing `tcbPointer` from and to `NULL` and the running task makes no other
task an owner, and takes it from none. -/
theorem isOwner_iff_of_ne {task : Nat} (ht : task ≠ s.running)
    (hpointer : (x.sched.mutexes mutex).tcbPointer = (s.sched.mutexes mutex).tcbPointer ∨
      ((s.sched.mutexes mutex).tcbPointer = NULL ∨
        (s.sched.mutexes mutex).tcbPointer = s.running) ∧
      ((x.sched.mutexes mutex).tcbPointer = NULL ∨
        (x.sched.mutexes mutex).tcbPointer = s.running)) :
    x.IsOwner mutex task ↔ s.IsOwner mutex task := by
  unfold IsOwner
  rcases hpointer with heq | ⟨hs, hx⟩
  · rw [heq]
  · constructor
    · rintro ⟨rfl, hne⟩
      exact absurd (hx.resolve_left hne) ht
    · rintro ⟨rfl, hne⟩
      exact absurd (hs.resolve_left hne) ht

/-- The `counter` that only the owner writes stays while another task is the owner. -/
theorem counter_of_isOwner {task : Nat} (ht : task ≠ s.running)
    (hcounter : (x.sched.mutexes mutex).counter = (s.sched.mutexes mutex).counter ∨
      (s.sched.mutexes mutex).tcbPointer = s.running) (hown : s.IsOwner mutex task) :
    (x.sched.mutexes mutex).counter = (s.sched.mutexes mutex).counter := by
  refine hcounter.resolve_right fun hrun => ht ?_
  rw [← hown.1, hrun]

/-- A step of the running task on the mutex keeps the invariant when it writes
`tcbPointer` only from and to `NULL` and itself, writes `counter` only as the
owner, and fits afterwards. -/
theorem Owned.goTo (h : Owned mutex s) (pc' : Option MutexPc) (hx : Effects mutex s x)
    (hpointer : (x.sched.mutexes mutex).tcbPointer = (s.sched.mutexes mutex).tcbPointer ∨
      ((s.sched.mutexes mutex).tcbPointer = NULL ∨
        (s.sched.mutexes mutex).tcbPointer = s.running) ∧
      ((x.sched.mutexes mutex).tcbPointer = NULL ∨
        (x.sched.mutexes mutex).tcbPointer = s.running))
    (hcounter : (x.sched.mutexes mutex).counter = (s.sched.mutexes mutex).counter ∨
      (s.sched.mutexes mutex).tcbPointer = s.running)
    (hle : x.releases s.running mutex ≤ x.acquires s.running mutex)
    (hfits : Fits (x.IsOwner mutex s.running) (x.sched.mutexes mutex).counter
      (x.depth mutex s.running) pc')
    (hfree : (x.sched.mutexes mutex).tcbPointer = NULL → (x.sched.mutexes mutex).counter = 0)
    (hseen : x.monitor = some mutex →
      Seen (x.sched.mutexes mutex).tcbPointer s.running pc') :
    Owned mutex (x.goTo mutex pc') where
  running := by
    show x.running ≠ NULL
    rw [hx.running]
    exact h.running
  le task := by
    show x.releases task mutex ≤ x.acquires task mutex
    by_cases ht : task = s.running
    · rw [ht]
      exact hle
    · rw [hx.releases task mutex (.inl ht), hx.acquires task mutex (.inl ht)]
      exact h.le task
  fits task := by
    by_cases ht : task = s.running
    · rw [ht, ← hx.running, place_goTo_running, hx.running]
      exact hfits
    · -- the calls of the others, and so their depths, are as before
      have hdepth : x.depth mutex task = s.depth mutex task := by
        simp only [depth, hx.releases task mutex (.inl ht), hx.acquires task mutex (.inl ht)]
      rw [hx.place_goTo pc' ht]
      show Fits (x.IsOwner mutex task) _ (x.depth mutex task) _
      rw [hdepth]
      exact (h.fits task).congr (isOwner_iff_of_ne ht hpointer) (counter_of_isOwner ht hcounter)
  free := hfree
  seen hmonitor := by
    show Seen _ x.running ((x.goTo mutex pc').place mutex x.running)
    rw [place_goTo_running, hx.running]
    exact hseen hmonitor

/-- A step on another mutex keeps the invariant. -/
theorem Owned.other (h : Owned mutex s) (pc' : Option MutexPc) {m : Nat} (hne : m ≠ mutex)
    (hx : Effects m s x)
    (hplace : s.place mutex s.running = none) : Owned mutex (x.goTo m pc') := by
  have hpointer := hx.tcbPointer mutex hne.symm
  have hcounter := hx.counter mutex hne.symm
  refine
    { running := ?_
      le := fun task => ?_
      fits := fun task => ?_
      free := ?_
      seen := ?_ }
  · show x.running ≠ NULL
    rw [hx.running]
    exact h.running
  · show x.releases task mutex ≤ x.acquires task mutex
    rw [hx.releases task mutex (.inr hne.symm), hx.acquires task mutex (.inr hne.symm)]
    exact h.le task
  · have hdepth : x.depth mutex task = s.depth mutex task := by
      simp only [depth, hx.releases task mutex (.inr hne.symm),
        hx.acquires task mutex (.inr hne.symm)]
    rw [hx.place_goTo_other pc' hne hplace]
    show Fits (x.IsOwner mutex task) (x.sched.mutexes mutex).counter (x.depth mutex task) _
    rw [hdepth]
    refine (h.fits task).congr ?_ fun _ => hcounter
    unfold IsOwner
    rw [hpointer]
  · show (x.sched.mutexes mutex).tcbPointer = NULL → (x.sched.mutexes mutex).counter = 0
    rw [hpointer, hcounter]
    exact h.free
  · intro _
    -- the running task is not inside this mutex, and has read nothing of it
    show Seen _ x.running ((x.goTo m pc').place mutex x.running)
    rw [place_goTo_other x pc' hne]
    trivial

@[simp] theorem setTcbPointer_tcbPointer (s : MutexSystem) (mutex v : Nat) :
    ((s.setTcbPointer mutex v).sched.mutexes mutex).tcbPointer = v := by
  simp [setTcbPointer, Sched.modifyMutex]

@[simp] theorem setTcbPointer_counter (s : MutexSystem) (mutex v : Nat) :
    ((s.setTcbPointer mutex v).sched.mutexes mutex).counter =
      (s.sched.mutexes mutex).counter := by
  simp [setTcbPointer, Sched.modifyMutex]

@[simp] theorem setCounter_tcbPointer (s : MutexSystem) (mutex v : Nat) :
    ((s.setCounter mutex v).sched.mutexes mutex).tcbPointer =
      (s.sched.mutexes mutex).tcbPointer := by
  simp [setCounter, Sched.modifyMutex]

@[simp] theorem setCounter_counter (s : MutexSystem) (mutex v : Nat) :
    ((s.setCounter mutex v).sched.mutexes mutex).counter = v := by
  simp [setCounter, Sched.modifyMutex]

theorem countAcquire_acquires (s : MutexSystem) (mutex : Nat) :
    (s.countAcquire mutex).acquires s.running mutex = s.acquires s.running mutex + 1 := by
  simp [countAcquire]

theorem countRelease_releases (s : MutexSystem) (mutex : Nat) :
    (s.countRelease mutex).releases s.running mutex = s.releases s.running mutex + 1 := by
  simp [countRelease]

/-- A step that writes nothing of the mutex keeps the invariant when the task
fits its next place. -/
theorem Owned.move (h : Owned mutex s) (pc' : Option MutexPc) (hx : Effects mutex s x)
    (hpointer : (x.sched.mutexes mutex).tcbPointer = (s.sched.mutexes mutex).tcbPointer)
    (hcounter : (x.sched.mutexes mutex).counter = (s.sched.mutexes mutex).counter)
    (hacquires : x.acquires = s.acquires) (hreleases : x.releases = s.releases)
    (hfits : Fits (s.IsOwner mutex s.running) (s.sched.mutexes mutex).counter
      (s.depth mutex s.running) pc')
    (hseen : x.monitor = some mutex → Seen (s.sched.mutexes mutex).tcbPointer s.running pc') :
    Owned mutex (x.goTo mutex pc') := by
  refine h.goTo pc' hx (.inl hpointer) (.inl hcounter) ?_ ?_ ?_ ?_
  · rw [hacquires, hreleases]
    exact h.le _
  · unfold IsOwner depth
    rw [hpointer, hcounter, hacquires, hreleases]
    exact hfits
  · rw [hpointer, hcounter]
    exact h.free
  · rw [hpointer]
    exact hseen

/-- A successful STREX makes the running task the owner; its depth is already
what `counter` is. -/
theorem Owned.store (h : Owned mutex s) (pc' : Option MutexPc)
    (hx : s.storeExclusive mutex strexFails = some x)
    (hbalanced : Balanced (s.IsOwner mutex s.running) (s.sched.mutexes mutex).counter
      (s.depth mutex s.running))
    (hlt : s.depth mutex s.running + 1 < 4294967296)
    (hseen : s.monitor = some mutex → (s.sched.mutexes mutex).tcbPointer = NULL ∨
      (s.sched.mutexes mutex).tcbPointer = s.running)
    (hfits : ∀ owner counter depth, owner ∧ counter = depth ∧ depth + 1 < 4294967296 →
      Fits owner counter depth pc')
    (hpc' : ∀ p r, Seen p r pc') :
    Owned mutex (x.goTo mutex pc') := by
  have heffects := storeExclusive_effects hx
  unfold storeExclusive at hx
  split at hx
  · rename_i hok
    cases hx
    have hp := hseen hok.1
    refine h.goTo pc' heffects (.inr ⟨hp, .inr (by simp)⟩) (.inl (by simp)) (h.le _)
      (hfits _ _ _ ⟨⟨by simp, h.running⟩, ?_, hlt⟩) ?_ fun _ => hpc' _ _
    · show ((s.setTcbPointer mutex s.running).sched.mutexes mutex).counter =
        s.depth mutex s.running
      rw [setTcbPointer_counter]
      rcases hbalanced with ⟨-, heq, -⟩ | ⟨hown, hzero⟩
      · exact heq
      · -- the task was not the owner, so the mutex was free
        rw [hzero]
        exact h.free (hp.resolve_right fun heq => hown ⟨heq, h.running⟩)
    · intro hnull
      simp only [setTcbPointer_tcbPointer] at hnull
      exact absurd hnull h.running
  · cases hx

/-- The last step of a release: the depth goes down by one. -/
theorem Owned.returnRelease {y : MutexSystem} (h : Owned mutex s) (hy : Effects mutex s y)
    (hpointer : (y.sched.mutexes mutex).tcbPointer = (s.sched.mutexes mutex).tcbPointer ∨
      (s.sched.mutexes mutex).tcbPointer = s.running ∧ (y.sched.mutexes mutex).tcbPointer = NULL)
    (hcounter : (y.sched.mutexes mutex).counter = (s.sched.mutexes mutex).counter)
    (hacquires : y.acquires = s.acquires) (hreleases : y.releases = s.releases)
    (hpos : 0 < s.depth mutex s.running)
    (hbalanced : Balanced (y.IsOwner mutex s.running) (s.sched.mutexes mutex).counter
      (s.depth mutex s.running - 1))
    (hfree : (y.sched.mutexes mutex).tcbPointer = NULL → (s.sched.mutexes mutex).counter = 0) :
    Owned mutex ((y.countRelease mutex).goTo mutex none) := by
  have hrel : (y.countRelease mutex).releases s.running mutex =
      s.releases s.running mutex + 1 := by
    rw [← hy.running, countRelease_releases, hreleases]
  have hacq : (y.countRelease mutex).acquires s.running mutex = s.acquires s.running mutex :=
    congrFun (congrFun hacquires _) _
  unfold depth at hpos
  refine h.goTo none (hy.trans (effects_countRelease mutex y)) ?_ (.inl hcounter) ?_ ?_ ?_
    fun _ => trivial
  · exact hpointer.imp id fun ⟨hs, hx⟩ => ⟨.inr hs, .inl hx⟩
  · omega
  · -- the call counts as returned from here on
    have hdepth : (y.countRelease mutex).depth mutex s.running = s.depth mutex s.running - 1 := by
      unfold depth
      omega
    rw [hdepth]
    show Balanced (y.IsOwner mutex s.running) (y.sched.mutexes mutex).counter _
    rw [hcounter]
    exact hbalanced
  · intro hnull
    exact hcounter.trans (hfree hnull)

/-- **Every step of a function on the mutex keeps the invariant.** -/
theorem Owned.advance (h : Owned mutex s) (hpc : s.pc s.running = some (mutex, pc))
    (hs : s.advance inheritance strexFails fuel mutex pc = some s') : Owned mutex s' := by
  have hplace : s.place mutex s.running = some pc := by simp [place, hpc]
  have hfits := h.fits s.running
  have hseen := h.seen
  rw [hplace] at hfits hseen
  -- one case per place in the code; only the pointer and the counter matter
  cases pc <;> simp only [MutexSystem.advance] at hs
  case acquireCode =>
    cases hs
    exact h.move (some _) (effects_ghost mutex s _ _ _) rfl rfl rfl rfl hfits fun _ => trivial
  case acquireLoad checkCode =>
    split at hs <;> cases hs
    · rename_i hfree
      exact h.move (some _) (effects_ghost mutex s _ _ _) rfl rfl rfl rfl hfits fun _ => hfree
    · exact h.move (some _) (effects_ghost mutex s _ _ _) rfl rfl rfl rfl hfits
        fun _ => trivial
  case acquireStore =>
    split at hs
    · rename_i x hstore
      cases hs
      exact h.store (some _) hstore hfits.1 hfits.2 hseen (fun _ _ _ hown => hown)
        fun _ _ => trivial
    · cases hs
      exact h.move (some _) (effects_ghost mutex s _ _ _) rfl rfl rfl rfl hfits
        fun _ => trivial
  case acquireNotify =>
    split at hs <;> cases hs
    · have hsvc := svcResourceAcquired_frame inheritance s.sched mutex
      exact h.move (some _) (effects_svc mutex s hsvc) (hsvc.tcbPointer _) (hsvc.counter _) rfl rfl
        hfits fun _ => trivial
    · exact h.move (some _) (.refl mutex s) rfl rfl rfl rfl hfits fun _ => trivial
  case acquireWait checkCode =>
    split at hs
    · obtain ⟨sched, hwait, rfl⟩ := Option.map_eq_some_iff.mp hs
      have hsvc := svcWait_frame hwait
      exact h.move (some _) ((effects_svc mutex s hsvc).trans (effects_ghost mutex _ none _ _))
        (hsvc.tcbPointer _) (hsvc.counter _) rfl rfl hfits fun _ => trivial
    · cases hs
      exact h.move (some _) (.refl mutex s) rfl rfl rfl rfl hfits fun _ => trivial
  case tryCode =>
    cases hs
    exact h.move (some _) (.refl mutex s) rfl rfl rfl rfl hfits fun _ => trivial
  case tryLoad =>
    split at hs <;> cases hs
    · rename_i hfree
      exact h.move (some _) (effects_ghost mutex s _ _ _) rfl rfl rfl rfl hfits fun _ => hfree
    · exact h.move none (effects_ghost mutex s _ _ _) rfl rfl rfl rfl hfits.1 fun _ => trivial
  case tryStore =>
    split at hs
    · rename_i x hstore
      cases hs
      exact h.store (some _) hstore hfits.1 hfits.2 (fun hm => .inl (hseen hm))
        (fun _ _ _ hown => hown) fun _ _ => trivial
    · cases hs
      exact h.move none (effects_ghost mutex s _ _ _) rfl rfl rfl rfl hfits.1 fun _ => trivial
  case tryNotify =>
    cases hs
    have hsvc := svcResourceAcquired_frame inheritance s.sched mutex
    exact h.move (some _) (effects_svc mutex s hsvc) (hsvc.tcbPointer _) (hsvc.counter _) rfl rfl
      hfits fun _ => trivial
  case countLoad =>
    cases hs
    obtain ⟨hown, hcount, hlt⟩ := hfits
    exact h.move (some _) (.refl mutex s) rfl rfl rfl rfl ⟨hown, hcount, hcount, hlt⟩
      fun _ => trivial
  case countStore counter =>
    cases hs
    obtain ⟨hown, hcount, hvalue, hlt⟩ := hfits
    set x := (s.setCounter mutex (wrap (counter + 1))).countAcquire mutex
    have hacquires : x.acquires s.running mutex = s.acquires s.running mutex + 1 :=
      countAcquire_acquires (s.setCounter mutex (wrap (counter + 1))) mutex
    have hreleases : x.releases s.running mutex = s.releases s.running mutex := rfl
    have hpointer : (x.sched.mutexes mutex).tcbPointer = (s.sched.mutexes mutex).tcbPointer :=
      setCounter_tcbPointer s mutex _
    have hcounter : (x.sched.mutexes mutex).counter = wrap (counter + 1) :=
      setCounter_counter s mutex _
    have hle := h.le s.running
    have hdepth : x.depth mutex s.running = s.depth mutex s.running + 1 := by
      unfold depth
      omega
    -- the acquisition is counted where the counter is stored: both grow by one
    refine h.goTo none ((effects_setCounter mutex s _).trans (effects_countAcquire mutex _))
      (.inl hpointer) (.inr hown.1) (by omega) ?_ ?_ fun _ => trivial
    · rw [hcounter, hdepth, hvalue, wrap_of_lt hlt]
      exact .inl ⟨⟨hpointer.trans hown.1, hown.2⟩, rfl, Nat.succ_pos _⟩
    · intro hnull
      rw [hpointer, hown.1] at hnull
      exact absurd hnull hown.2
  case releaseTest yields =>
    split at hs <;> cases hs
    · -- a caller that releases its own mutex never takes the early return
      rename_i hne
      exact absurd hfits.1.1 hne
    · exact h.move (some _) (.refl mutex s) rfl rfl rfl rfl hfits fun _ => trivial
  case releaseCountLoad yields =>
    cases hs
    obtain ⟨hown, hcount, hpos⟩ := hfits
    exact h.move (some _) (.refl mutex s) rfl rfl rfl rfl ⟨hown, hcount, hcount, hpos⟩
      fun _ => trivial
  case releaseCountStore yields counter =>
    cases hs
    obtain ⟨hown, hcount, hvalue, hpos⟩ := hfits
    have hpointer := setCounter_tcbPointer s mutex (decr counter)
    refine h.goTo (some _) (effects_setCounter mutex s _) (.inl hpointer) (.inr hown.1)
      (h.le _) ⟨⟨hpointer.trans hown.1, hown.2⟩, ?_⟩ ?_ fun _ => trivial
    · rw [setCounter_counter, hvalue, decr_of_pos hpos]
      show s.depth mutex s.running - 1 + 1 = s.depth mutex s.running
      omega
    · intro hnull
      rw [hpointer, hown.1] at hnull
      exact absurd hnull hown.2
  case releaseCountTest yields =>
    obtain ⟨hown, hcount⟩ := hfits
    split at hs <;> cases hs
    · rename_i hzero
      exact h.move (some _) (.refl mutex s) rfl rfl rfl rfl ⟨hown, hzero, by omega⟩ fun _ => trivial
    · rename_i hne
      -- the mutex was nested, and stays with its owner
      exact h.returnRelease (.refl mutex s) (.inl rfl) rfl rfl rfl (by omega)
        (.inl ⟨hown, by omega, by omega⟩) h.free
  case releaseClear yields =>
    obtain ⟨hown, hzero, hdepth⟩ := hfits
    set y : MutexSystem := { s.setTcbPointer mutex NULL with monitor := none }
    have hy : Effects mutex s y :=
      (effects_setTcbPointer mutex s NULL).trans (effects_ghost mutex _ none _ _)
    have hpointer : (y.sched.mutexes mutex).tcbPointer = NULL := setTcbPointer_tcbPointer s mutex _
    have hcounter : (y.sched.mutexes mutex).counter = (s.sched.mutexes mutex).counter :=
      setTcbPointer_counter s mutex _
    -- from here on another task may take the mutex; the releaser only notifies
    have hnotOwner : ¬ y.IsOwner mutex s.running := by
      rintro ⟨heq, hne⟩
      exact hne (heq.symm.trans hpointer)
    split at hs <;> cases hs
    · exact h.goTo (some _) hy (.inr ⟨.inr hown.1, .inl hpointer⟩) (.inl hcounter) (h.le _)
        ⟨hnotOwner, hdepth⟩ (fun _ => hcounter.trans hzero) fun _ => trivial
    · exact h.returnRelease hy (.inr ⟨hown.1, hpointer⟩) hcounter rfl rfl (by omega)
        (.inr ⟨hnotOwner, by omega⟩) fun _ => hzero
  case releaseNotify yields =>
    obtain ⟨hnotOwner, hdepth⟩ := hfits
    obtain ⟨sched, hnotify, rfl⟩ := Option.map_eq_some_iff.mp hs
    have hsvc := svcNotify_frame hnotify
    have heffects := (effects_svc mutex s hsvc).trans
      (effects_ghost mutex _ none (s.notifies + 1) s.codeRead)
    split
    · exact h.move (some _) heffects (hsvc.tcbPointer _) (hsvc.counter _) rfl rfl
        ⟨hnotOwner, hdepth⟩ fun _ => trivial
    · refine h.returnRelease heffects (.inl (hsvc.tcbPointer _)) (hsvc.counter _) rfl rfl (by omega)
        (.inr ⟨?_, by omega⟩) fun hnull => h.free ((hsvc.tcbPointer _).symm.trans hnull)
      rintro ⟨heq, hne⟩
      exact hnotOwner ⟨(hsvc.tcbPointer _).symm.trans heq, hne⟩
  case releaseYield =>
    obtain ⟨hnotOwner, hdepth⟩ := hfits
    cases hs
    have hsvc : SvcFrame s.sched s.sched.yieldCurrent := ⟨rfl, fun _ => ⟨_, rfl⟩⟩
    exact h.returnRelease (effects_svc mutex s hsvc) (.inl rfl) rfl rfl rfl (by omega)
      (.inr ⟨hnotOwner, by omega⟩) h.free

/-- **Every step of the machine keeps the invariant.** -/
theorem Owned.step {e : MutexEvent} (h : Owned mutex s) (hreleases : ReleasesOwn mutex s e)
    (hnests : Nests mutex s e) (hs : s.step inheritance e = some s') : Owned mutex s' := by
  rcases step_cases hs with ⟨task, rfl, hnull, rfl⟩ | ⟨m, function, rfl, hpc, rfl⟩ |
    ⟨strexFails, fuel, m, pc, rfl, hpc, -, hadvance⟩
  · exact
      { running := hnull
        le := h.le
        fits := h.fits
        free := h.free
        seen := fun hmonitor => by cases hmonitor }
  · have hplace : s.place mutex s.running = none := by simp [place, hpc]
    by_cases hm : m = mutex
    · subst hm
      have hfits := h.fits s.running
      rw [hplace] at hfits
      refine h.move (some _) (.refl m s) rfl rfl rfl rfl ?_ fun _ => by cases function <;> trivial
      -- a release is that of an owner, because no task releases more often than it has acquired
      have hheld : s.releases s.running m < s.acquires s.running m →
          s.IsOwner m s.running ∧ (s.sched.mutexes m).counter = s.depth m s.running ∧
            0 < s.depth m s.running := by
        intro hlt
        refine hfits.resolve_right ?_
        intro hzero
        have := hzero.2
        unfold depth at this
        omega
      cases function with
      | acquire => exact ⟨hfits, hnests ⟨rfl, .inl rfl⟩⟩
      | acquireNonBlocking => exact ⟨hfits, hnests ⟨rfl, .inr rfl⟩⟩
      | release => exact hheld (hreleases ⟨rfl, .inl rfl⟩)
      | releaseNoYield => exact hheld (hreleases ⟨rfl, .inr rfl⟩)
    · exact h.other _ hm (.refl m s) hplace
  · by_cases hm : m = mutex
    · subst hm
      exact h.advance hpc hadvance
    · -- a step on another mutex has no effect on this one
      obtain ⟨x, pc', hx, rfl⟩ := advance_effects hadvance
      exact h.other pc' hm hx (by simp [place, hpc, hm])

theorem Fresh.owned (h : s.Fresh) (hinit : s.sched.mutexes mutex = initMutex) :
    Owned mutex s where
  running := h.running
  le task := by rw [h.acquires, h.releases]
  fits task := by
    have hplace : s.place mutex task = none := by simp [place, h.pc]
    have hnotOwner : ¬ s.IsOwner mutex task := by
      rintro ⟨heq, hne⟩
      rw [hinit] at heq
      exact hne heq.symm
    rw [hplace]
    exact .inr ⟨hnotOwner, by simp [depth, h.acquires]⟩
  free _ := by rw [hinit]; rfl
  seen _ := by
    have hplace : s.place mutex s.running = none := by simp [place, h.pc]
    rw [hplace]
    trivial

/-- The runs on one mutex as `OS_init_mutex` leaves it, whose calls `ok` allows;
the other mutexes are arbitrary. -/
def exclusionMachine (inheritance : Bool) (mutex : Nat) (ok : MutexSystem → MutexEvent → Prop)
    [∀ s e, Decidable (ok s e)] : Lib.Machine MutexSystem MutexEvent :=
  (mutexMachine inheritance fun mutexes => mutexes mutex = initMutex).guard ok

theorem reach_owned
    (h : (exclusionMachine inheritance mutex fun s e =>
      ReleasesOwn mutex s e ∧ Nests mutex s e).Reach s) : Owned mutex s := by
  refine h.invariant ?_ ?_
  · intro s hs
    exact Fresh.owned hs.1 hs.2
  · intro s e s' hs hstep
    obtain ⟨⟨hreleases, hnests⟩, hstep⟩ := Lib.Machine.guard_step_iff.mp hstep
    exact hs.step hreleases hnests hstep

/-- Only the owner holds the mutex. -/
theorem Owned.holds_owner (h : Owned mutex s) {task : Nat} (ht : s.Holds mutex task) :
    s.IsOwner mutex task := by
  by_contra hown
  have hdepth := (h.fits task).not_owner hown
  have hle := h.le task
  simp only [Holds, released, depth] at ht hdepth
  omega

/-- Outside the functions, the depth of the task that holds the mutex is
`counter`. -/
theorem Owned.counter_eq (h : Owned mutex s) {task : Nat} (ht : s.Holds mutex task)
    (hout : s.place mutex task = none) :
    (s.sched.mutexes mutex).counter = s.acquires task mutex - s.releases task mutex := by
  have hfits := h.fits task
  rw [hout] at hfits
  rcases hfits with ⟨-, heq, -⟩ | ⟨hown, -⟩
  · exact heq
  · exact absurd (h.holds_owner ht) hown

/-- A mutex nobody works on or holds is free. -/
theorem Owned.free_of_idle (h : Owned mutex s)
    (hidle : ∀ task, s.place mutex task = none ∧ ¬ s.Holds mutex task) :
    (s.sched.mutexes mutex).tcbPointer = NULL ∧ (s.sched.mutexes mutex).counter = 0 := by
  have hnull : (s.sched.mutexes mutex).tcbPointer = NULL := by
    by_contra hne
    obtain ⟨hout, hnot⟩ := hidle (s.sched.mutexes mutex).tcbPointer
    have hfits := h.fits (s.sched.mutexes mutex).tcbPointer
    rw [hout] at hfits
    rcases hfits with ⟨-, -, hpos⟩ | ⟨hown, -⟩
    · refine hnot ?_
      simp only [depth] at hpos
      simp only [Holds, released, hout, MutexPc.givenUp]
      simp only [Bool.toNat_false]
      omega
    · exact hown ⟨rfl, hne⟩
  exact ⟨hnull, h.free hnull⟩

end Steps

/-! ## The result -/

/-- **Mutual exclusion and nesting depth**: at most one task holds the mutex, it
is `tcbPointer`, and outside the functions its depth is `counter`; a mutex
nobody works on or holds is as `OS_init_mutex` left it. -/
theorem mutual_exclusion (inheritance : Bool) (mutex : Nat) {s : MutexSystem}
    (h : (exclusionMachine inheritance mutex fun s e =>
      ReleasesOwn mutex s e ∧ Nests mutex s e).Reach s) :
    (∀ task task', s.Holds mutex task → s.Holds mutex task' → task = task') ∧
    (∀ task, s.Holds mutex task → (s.sched.mutexes mutex).tcbPointer = task ∧
      (s.place mutex task = none → (s.sched.mutexes mutex).counter =
        s.acquires task mutex - s.releases task mutex)) ∧
    ((∀ task, s.place mutex task = none ∧ ¬ s.Holds mutex task) →
      (s.sched.mutexes mutex).tcbPointer = NULL ∧ (s.sched.mutexes mutex).counter = 0) := by
  have hinv := reach_owned h
  refine ⟨?_, ?_, hinv.free_of_idle⟩
  · intro task task' ht ht'
    rw [← (hinv.holds_owner ht).1, (hinv.holds_owner ht').1]
  · intro task ht
    exact ⟨(hinv.holds_owner ht).1, hinv.counter_eq ht⟩

/-! ## The exceptions are real -/

theorem sampleSystem_reach (ok : MutexSystem → MutexEvent → Prop) [∀ s e, Decidable (ok s e)] :
    (exclusionMachine true 100 ok).Reach sampleSystem :=
  .init ⟨sampleSystem_fresh, rfl⟩

/-- Task 7 acquires and releases the mutex and is preempted after its write of
`NULL`, and task 8 acquires it. -/
def preemptedRelease (mutex : Nat) : List MutexEvent :=
  acquireEvents mutex ++ .call mutex .releaseNoYield :: List.replicate 5 (.step false 0) ++
    .switchTo 8 :: acquireEvents mutex

theorem mutual_exclusion_preemptedRelease :
    ∃ s, (exclusionMachine true 100 fun s e => ReleasesOwn 100 s e ∧ Nests 100 s e).run
        sampleSystem (preemptedRelease 100) = some s ∧
      (∀ task task', s.Holds 100 task → s.Holds 100 task' → task = task') ∧
      (∀ task, s.Holds 100 task → (s.sched.mutexes 100).tcbPointer = task ∧
        (s.place 100 task = none → (s.sched.mutexes 100).counter =
          s.acquires task 100 - s.releases task 100)) ∧
      ((∀ task, s.place 100 task = none ∧ ¬ s.Holds 100 task) →
        (s.sched.mutexes 100).tcbPointer = NULL ∧ (s.sched.mutexes 100).counter = 0) := by
  have hruns : ((exclusionMachine true 100 fun s e => ReleasesOwn 100 s e ∧ Nests 100 s e).run
      sampleSystem (preemptedRelease 100)).isSome := by decide +kernel
  obtain ⟨s, hs⟩ := Option.isSome_iff_exists.mp hruns
  exact ⟨s, hs, mutual_exclusion true 100 ((sampleSystem_reach _).run hs)⟩

/-- The owner acquires the mutex once more. -/
theorem acquire_nested {s : MutexSystem} {mutex : Nat} (hpc : s.pc s.running = none)
    (hwait : (s.sched.tcb s.running).state.wait = false)
    (hpointer : (s.sched.mutexes mutex).tcbPointer = s.running)
    (hcounter : (s.sched.mutexes mutex).counter ≠ 0) :
    ∃ s', (exclusionMachine true mutex (ReleasesOwn mutex)).run s (acquireEvents mutex) = some s' ∧
      s'.running = s.running ∧ s'.pc s.running = none ∧
      (s'.sched.tcb s.running).state.wait = false ∧
      (s'.sched.mutexes mutex).tcbPointer = s.running ∧
      (s'.sched.mutexes mutex).counter = wrap ((s.sched.mutexes mutex).counter + 1) ∧
      s'.acquires s.running mutex = s.acquires s.running mutex + 1 ∧
      s'.releases = s.releases := by
  simp only [running] at hpc hwait hpointer hcounter ⊢
  simp [acquireEvents, List.replicate, Lib.Machine.run, exclusionMachine, Lib.Machine.guard,
    mutexMachine, step, MutexSystem.advance, hpc, hwait, hpointer, hcounter, running, setPc,
    storeExclusive, ReleasesOwn, MutexCall.entry, setTcbPointer, setCounter, countAcquire,
    Sched.modifyMutex, svcResourceAcquired, Sched.resourceAcquired_nested]

/-- `n` nested acquires leave `counter` at `n` modulo `2 ^ 32`. -/
theorem nested_counter (n : Nat) (hn : n < 4294967296) :
    ∃ s, (exclusionMachine true 100 (ReleasesOwn 100)).Reach s ∧ s.running = 7 ∧ s.pc 7 = none ∧
      (s.sched.tcb 7).state.wait = false ∧ (s.sched.mutexes 100).tcbPointer = 7 ∧
      (s.sched.mutexes 100).counter = wrap (n + 1) ∧ s.acquires 7 100 = n + 1 ∧
      s.releases 7 100 = 0 := by
  induction n with
  | zero =>
    obtain ⟨s, hs, hrun, hpc, hrest⟩ := Lib.Machine.exists_run
      (M := exclusionMachine true 100 (ReleasesOwn 100))
      (P := fun s => s.running = 7 ∧ (s.pc 7).isNone ∧ (s.sched.tcb 7).state.wait = false ∧
        (s.sched.mutexes 100).tcbPointer = 7 ∧ (s.sched.mutexes 100).counter = 1 ∧
        s.acquires 7 100 = 1 ∧ s.releases 7 100 = 0)
      (s := sampleSystem) (e := acquireEvents 100) (by decide +kernel)
    exact ⟨s, (sampleSystem_reach _).run hs, hrun, Option.isNone_iff_eq_none.mp hpc, hrest⟩
  | succ n ih =>
    obtain ⟨s, hreach, hrun, hpc, hwait, hpointer, hcounter, hacquires, hreleases⟩ :=
      ih (by omega)
    rw [wrap_of_lt hn] at hcounter
    rw [← hrun] at hpc hwait hpointer
    obtain ⟨s', hs', hrun', hpc', hwait', hpointer', hcounter', hacquires', hreleases'⟩ :=
      acquire_nested hpc hwait hpointer (by omega)
    rw [hrun] at hrun' hpc' hwait' hpointer' hacquires'
    refine ⟨s', hreach.run hs', hrun', hpc', hwait', hpointer', ?_, ?_, ?_⟩
    · rw [hcounter', hcounter]
    · rw [hacquires', hacquires]
    · rw [hreleases', hreleases]

/-- Counting only calls that have returned, two tasks hold the mutex of
`preemptedRelease`; and after `2 ^ 32` nested acquires `counter` is back at 0. -/
theorem mutual_exclusion_exceptions :
    (∃ s, (exclusionMachine true 100 (ReleasesOwn 100)).Reach s ∧
      s.releases 7 100 < s.acquires 7 100 ∧ s.releases 8 100 < s.acquires 8 100) ∧
    (∃ s, (exclusionMachine true 100 (ReleasesOwn 100)).Reach s ∧
      s.releases 7 100 < s.acquires 7 100 ∧ s.place 100 7 = none ∧
      (s.sched.mutexes 100).counter ≠ s.acquires 7 100 - s.releases 7 100) := by
  constructor
  · obtain ⟨s, hs, hholds⟩ := Lib.Machine.exists_run
      (M := exclusionMachine true 100 (ReleasesOwn 100))
      (P := fun s => s.releases 7 100 < s.acquires 7 100 ∧ s.releases 8 100 < s.acquires 8 100)
      (s := sampleSystem) (e := preemptedRelease 100) (by decide +kernel)
    exact ⟨s, (sampleSystem_reach _).run hs, hholds⟩
  · obtain ⟨s, hreach, -, hpc, -, -, hcounter, hacquires, hreleases⟩ :=
      nested_counter 4294967295 (by omega)
    refine ⟨s, hreach, by omega, by simp [place, hpc], ?_⟩
    rw [hcounter, hacquires, hreleases]
    decide

end MutexSystem

end DocetOS
