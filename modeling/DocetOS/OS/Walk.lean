import DocetOS.OS.Scheduler

/-!
# The rounds of the walk down the scheduler heap

`selectTaskEach` is the walk of `stochasticScheduler_scheduler` when every test of
the in-use flag of the memory cluster may find another value; `selectTask` is the
case that all of them find the same one (`selectTask_eq`).

`selectTaskRounds` lists the rounds of a walk: the states in which it looks at a
node, and the index of the node. A fact about the walk is proved round by round
(`selectTaskEach_rule`, `afterWakeEach_keeps`).
-/

namespace DocetOS

namespace Sched

/-- `selectTask`, where the test of the in-use flag in the round after which `n`
rounds are left finds `inUse n`. -/
def selectTaskEach (inUse : Nat → Bool) (rand : Nat → Nat) :
    Nat → Nat → Sched → Nat → Nat → Nat → Option (Sched × Nat)
  | 0, _, _, _, _, _ => none
  | fuel + 1, k, s, nodeIndex, maxValidHeapIdx, lastActiveNodeIndex =>
    match s.removeIfInactive (inUse fuel) nodeIndex with
    | (s, true) =>
      if s.schedulerHeap.currentNumNodes = 0 then some (s, s.idleTCB)
      else
        let maxValidHeapIdx := s.schedulerHeap.currentNumNodes - 1
        if nodeIndex > maxValidHeapIdx then some (s, s.taskAt lastActiveNodeIndex)
        else selectTaskEach inUse rand fuel k s nodeIndex maxValidHeapIdx lastActiveNodeIndex
    | (s, false) =>
      let randNodeSelection := getRandForTaskChoice (rand k)
      let nextNodeIdx :=
        if randNodeSelection = 1 then getFirstChildIndex nodeIndex
        else getSecondChildIndex nodeIndex
      if randNodeSelection ≠ 0 ∧ nextNodeIdx ≤ maxValidHeapIdx then
        selectTaskEach inUse rand fuel (k + 1) s nextNodeIdx maxValidHeapIdx nodeIndex
      else
        some (s, if s.taskAt nodeIndex = NULL then s.idleTCB else s.taskAt nodeIndex)

/-- A round of the walk: it looks at the node at `index` in the state `sched`. -/
structure Round where
  sched : Sched
  index : Nat
  memclusterInUse : Bool

/-- The state after a round. -/
def Round.after (r : Round) : Sched := (r.sched.removeIfInactive r.memclusterInUse r.index).1

/-- The rounds of `selectTaskEach`. -/
def selectTaskRounds (inUse : Nat → Bool) (rand : Nat → Nat) :
    Nat → Nat → Sched → Nat → Nat → List Round
  | 0, _, _, _, _ => []
  | fuel + 1, k, s, nodeIndex, maxValidHeapIdx =>
    ⟨s, nodeIndex, inUse fuel⟩ ::
      match s.removeIfInactive (inUse fuel) nodeIndex with
      | (s, true) =>
        if s.schedulerHeap.currentNumNodes = 0 then []
        else if nodeIndex > s.schedulerHeap.currentNumNodes - 1 then []
        else
          selectTaskRounds inUse rand fuel k s nodeIndex (s.schedulerHeap.currentNumNodes - 1)
      | (s, false) =>
        let randNodeSelection := getRandForTaskChoice (rand k)
        let nextNodeIdx :=
          if randNodeSelection = 1 then getFirstChildIndex nodeIndex
          else getSecondChildIndex nodeIndex
        if randNodeSelection ≠ 0 ∧ nextNodeIdx ≤ maxValidHeapIdx then
          selectTaskRounds inUse rand fuel (k + 1) s nextNodeIdx maxValidHeapIdx
        else []

/-- One value for all tests. -/
theorem selectTask_eq (memclusterInUse : Bool) (rand : Nat → Nat)
    (fuel k : Nat) (s : Sched) (nodeIndex maxValidHeapIdx lastActiveNodeIndex : Nat) :
    selectTask memclusterInUse rand fuel k s nodeIndex maxValidHeapIdx lastActiveNodeIndex =
      selectTaskEach (fun _ => memclusterInUse) rand fuel k s nodeIndex maxValidHeapIdx
        lastActiveNodeIndex := by
  induction fuel generalizing k s nodeIndex maxValidHeapIdx lastActiveNodeIndex with
  | zero => rfl
  | succ fuel ih =>
    simp only [selectTask, ih]
    rfl

variable {s s' : Sched} {inUse : Nat → Bool} {rand : Nat → Nat}

/-- What taking a task off the sleep heap and `__updateSleepState` keep, the wake-up
loop keeps. -/
theorem wakeLoop_keeps {R : Sched → Sched → Prop} (hrefl : ∀ s, R s s)
    (htrans : ∀ s s' s'', R s s' → R s' s'' → R s s'')
    (hheap : ∀ s heap, R s { s with sleepHeap := heap })
    (hupdate : ∀ s task, R s (s.updateSleepState task).1) (rounds : Nat) (s : Sched) :
    R s (wakeLoop rounds s) := by
  induction rounds generalizing s with
  | zero => exact hrefl s
  | succ rounds ih =>
    simp only [wakeLoop]
    split
    · exact hrefl s
    · rename_i heap sleepingTask hs
      have hpop := htrans _ _ _ (hheap s heap) (hupdate { s with sleepHeap := heap } sleepingTask)
      split
      · exact htrans _ _ _ hpop (hheap _ _)
      · exact htrans _ _ _ hpop (ih _)

/-- **The rule for the walk**: what holds of no round, and of one round more, holds of
all. -/
theorem selectTaskEach_rule {R : List Round → Sched → Sched → Prop} (hnil : ∀ s, R [] s s)
    (hcons : ∀ r l s', R l r.after s' → R (r :: l) r.sched s')
    {fuel k nodeIndex maxValidHeapIdx lastActiveNodeIndex next : Nat}
    (hs : selectTaskEach inUse rand fuel k s nodeIndex maxValidHeapIdx lastActiveNodeIndex =
      some (s', next)) :
    R (selectTaskRounds inUse rand fuel k s nodeIndex maxValidHeapIdx) s s' := by
  induction fuel generalizing k s nodeIndex maxValidHeapIdx lastActiveNodeIndex with
  | zero => cases hs
  | succ fuel ih =>
    simp only [selectTaskRounds]
    refine hcons ⟨s, nodeIndex, inUse fuel⟩ _ _ ?_
    simp only [selectTaskEach] at hs
    simp only [Round.after]
    cases hremove : s.removeIfInactive (inUse fuel) nodeIndex with
    | mk s₁ removed =>
      rw [hremove] at hs
      -- the walk and its list of rounds branch alike
      cases removed with
      | true =>
        by_cases hempty : s₁.schedulerHeap.currentNumNodes = 0
        · simp only [if_pos hempty] at hs ⊢
          cases hs
          exact hnil s'
        by_cases hpast : nodeIndex > s₁.schedulerHeap.currentNumNodes - 1
        · simp only [if_neg hempty, if_pos hpast] at hs ⊢
          cases hs
          exact hnil s'
        · simp only [if_neg hempty, if_neg hpast] at hs ⊢
          exact ih hs
      | false =>
        by_cases hdown : getRandForTaskChoice (rand k) ≠ 0 ∧
            (if getRandForTaskChoice (rand k) = 1 then getFirstChildIndex nodeIndex
              else getSecondChildIndex nodeIndex) ≤ maxValidHeapIdx
        · simp only [if_pos hdown] at hs ⊢
          exact ih hs
        · simp only [if_neg hdown] at hs ⊢
          cases hs
          exact hnil s'

/-! ## The scheduler with a flag for each test -/

/-- The part of the scheduler after the wake-up loop. -/
def afterWakeEach (s : Sched) (inUse : Nat → Bool) (rand : Nat → Nat) : Option (Sched × Nat) :=
  if s.schedulerHeap.currentNumNodes = 0 then some (s, s.idleTCB)
  else
    selectTaskEach inUse rand s.selectRounds 0 s 0 (s.schedulerHeap.currentNumNodes - 1) 0

/-- The rounds of `afterWakeEach`. -/
def afterWakeRounds (s : Sched) (inUse : Nat → Bool) (rand : Nat → Nat) : List Round :=
  if s.schedulerHeap.currentNumNodes = 0 then []
  else selectTaskRounds inUse rand s.selectRounds 0 s 0 (s.schedulerHeap.currentNumNodes - 1)

/-- `stochasticScheduler_scheduler`, where the test before the loop over the completed
tasks finds `memclusterInUse`. -/
def schedulerEach (s : Sched) (memclusterInUse : Bool) (inUse : Nat → Bool) (rand : Nat → Nat)
    (fuel : Nat) : Option (Sched × Nat) :=
  if s.currentTCB ≠ s.idleTCB ∧ s.mustSwitch = false then
    some ({ s with ticksSinceLastTaskSwitch := s.ticksSinceLastTaskSwitch + 1 }, s.currentTCB)
  else do
    let s ← s.beforeWake memclusterInUse fuel
    s.wakeSleepers.afterWakeEach inUse rand

/-- `PendSV_Handler`. -/
def pendSVEach (s : Sched) (memclusterInUse : Bool) (inUse : Nat → Bool) (rand : Nat → Nat)
    (fuel : Nat) : Option Sched := do
  let (s, nextTCB) ← s.schedulerEach memclusterInUse inUse rand fuel
  return { s with currentTCB := nextTCB }

theorem afterWake_eq (s : Sched) (memclusterInUse : Bool) (rand : Nat → Nat) :
    s.afterWake memclusterInUse rand = s.afterWakeEach (fun _ => memclusterInUse) rand := by
  simp only [afterWake, afterWakeEach, selectTask_eq]

theorem pendSV_eq (s : Sched) (memclusterInUse : Bool) (rand : Nat → Nat) (fuel : Nat) :
    s.pendSV memclusterInUse rand fuel =
      s.pendSVEach memclusterInUse (fun _ => memclusterInUse) rand fuel := by
  simp only [pendSV, pendSVEach, scheduler, schedulerEach, afterWake_eq]

/-- The rule for the part after the wake-up loop. -/
theorem afterWakeEach_rule {R : List Round → Sched → Sched → Prop} (hnil : ∀ s, R [] s s)
    (hcons : ∀ r l s', R l r.after s' → R (r :: l) r.sched s') {next : Nat}
    (hs : s.afterWakeEach inUse rand = some (s', next)) :
    R (s.afterWakeRounds inUse rand) s s' := by
  unfold afterWakeEach at hs
  unfold afterWakeRounds
  by_cases hempty : s.schedulerHeap.currentNumNodes = 0
  · rw [if_pos hempty] at hs ⊢
    cases hs
    exact hnil _
  · rw [if_neg hempty] at hs ⊢
    exact selectTaskEach_rule hnil hcons hs

/-- What every round keeps, the part after the wake-up loop keeps. -/
theorem afterWakeEach_keeps {R : Sched → Sched → Prop} (hrefl : ∀ s, R s s)
    (htrans : ∀ s s' s'', R s s' → R s' s'' → R s s'') {next : Nat}
    (hround : ∀ r ∈ s.afterWakeRounds inUse rand, R r.sched r.after)
    (hs : s.afterWakeEach inUse rand = some (s', next)) : R s s' := by
  refine afterWakeEach_rule (R := fun l s s' => (∀ r ∈ l, R r.sched r.after) → R s s')
    (fun s _ => hrefl s) ?_ hs hround
  intro r l s' ih hall
  rw [List.forall_mem_cons] at hall
  exact htrans _ _ _ hall.1 (ih hall.2)

/-- The scheduler goes on with the current task, or comes to the wake-up loop and
then to the walk. -/
theorem pendSVEach_cases {memclusterInUse : Bool} {fuel : Nat}
    (h : s.pendSVEach memclusterInUse inUse rand fuel = some s') :
    ((s.currentTCB ≠ s.idleTCB ∧ s.mustSwitch = false) ∧
        s' = { s with ticksSinceLastTaskSwitch := s.ticksSinceLastTaskSwitch + 1 }) ∨
      (¬ (s.currentTCB ≠ s.idleTCB ∧ s.mustSwitch = false) ∧
        ∃ s₁ s₂ next, s.beforeWake memclusterInUse fuel = some s₁ ∧
          s₁.wakeSleepers.afterWakeEach inUse rand = some (s₂, next) ∧
          s' = { s₂ with currentTCB := next }) := by
  simp only [pendSVEach, schedulerEach, Option.bind_eq_bind, Option.bind_eq_some_iff,
    Option.pure_def, Option.some.injEq] at h
  obtain ⟨⟨s₂, next⟩, hs, rfl⟩ := h
  split at hs
  · rename_i hgoes
    cases hs
    exact .inl ⟨hgoes, rfl⟩
  · rename_i hswitches
    obtain ⟨s₁, hbefore, hafter⟩ := Option.bind_eq_some_iff.mp hs
    exact .inr ⟨hswitches, s₁, s₂, next, hbefore, hafter, rfl⟩

end Sched

end DocetOS
