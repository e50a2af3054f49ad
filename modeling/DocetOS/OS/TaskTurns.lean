import DocetOS.DataStructures.HeapRemoval
import DocetOS.Lib.Chance
import DocetOS.OS.Bookkeeping

/-!
# Every task gets its turn

The scheduler walks down its heap at random: a task of low priority is deep in the heap,
and it is selected only when `rand()` leads there. No task starves all the same.

- Of more than `MAX_TASK_TIME_IN_SYSTICKS` calls of the scheduler one looks for another
  task, whatever the tasks do between the calls (`exists_switches`).
- In a heap of `N` nodes the way to a task takes at most `log₂ N + 1` choices, and each of
  them comes for at least three of ten outcomes of `rand()`. Nodes that leave the heap
  during the walk do not make it longer: a removal keeps the task below the node at which
  the walk is (`Books.selectTaskEach_reaches`).
-/

namespace DocetOS

open Lib BinaryHeap

/-! ## Removal below a node -/

namespace MinHeap

variable {known : Finset Nat} {heap : MinHeap} {index i j k : Nat}

theorem Distinct.index_unique (h : Distinct known heap) (hi : i < heap.currentNumNodes)
    (hj : j < heap.currentNumNodes) (heq : (heap.ptrToUnderlyingArray i).ptrToNodeContent =
      (heap.ptrToUnderlyingArray j).ptrToNodeContent) : i = j := by
  have hnodup := h.nodup
  simp only [contents, nodes, BinaryHeap.contents, Multiset.map_map] at hnodup
  exact Multiset.inj_on_of_nodup_map hnodup i (Multiset.mem_range.mpr hi) j
    (Multiset.mem_range.mpr hj) heq

/-- What was below the index of a removal is below it afterwards. -/
theorem Distinct.inSubtree_heapDown (h : Distinct known heap) (hi : index < heap.currentNumNodes)
    (hj : j < heap.currentNumNodes) (hbelow : InSubtree index j) (hk : k + 1 < heap.currentNumNodes)
    (heq : ((heap.heapDown index).ptrToUnderlyingArray k).ptrToNodeContent =
      (heap.ptrToUnderlyingArray j).ptrToNodeContent) : InSubtree index k := by
  by_contra hout
  -- a place outside the subtree holds what it held
  rw [heapDown_array_of_not_inSubtree h.wf hi hout (by omega)] at heq
  obtain rfl := h.index_unique (by omega) hj heq
  exact hout hbelow

end MinHeap

namespace Sched

/-! ## The choices on the way to a task -/

/-- The outcomes of `rand()` from the `k`-th on lead to the choices. -/
def Chooses (rand : Nat → Nat) : Nat → List Nat → Prop
  | _, [] => True
  | k, choice :: choices => getRandForTaskChoice (rand k) = choice ∧ Chooses rand (k + 1) choices

/-- The choice that leads to the child above `j`. -/
theorem exists_choice {i j : Nat} (h : InSubtree i j) (hne : i ≠ j) :
    ∃ choice, choice ≤ 2 ∧ choice ≠ 0 ∧
      InSubtree (if choice = 1 then getFirstChildIndex i else getSecondChildIndex i) j ∧
      level (if choice = 1 then getFirstChildIndex i else getSecondChildIndex i) = level i + 1 := by
  rcases h.cases_root with heq | hleft | hright
  · exact absurd heq.symm hne
  · exact ⟨1, by decide, by decide, hleft, level_left i⟩
  · exact ⟨2, by decide, by decide, hright, level_right i⟩

variable {N : Nat} {tasks : Finset Nat} {fresh : Prop} {life life' : Nat → Lifecycle}
  {s s' s₀ : Sched} {task : Nat} {e : SchedulerEvent}

/-- **The walk reaches every active task** below the node at which it is. -/
theorem Books.selectTaskEach_reaches (h : Books N tasks fresh life s) (hnodes : tasks.card ≤ N)
    (inUse : Nat → Bool) {fuel nodeIndex j : Nat} (hactive : life (s.taskAt j) = .active)
    (hj : j < s.schedulerHeap.currentNumNodes) (hbelow : InSubtree nodeIndex j)
    (hfuel : 2 * s.schedulerHeap.currentNumNodes < fuel + nodeIndex) :
    ∃ choices : List Nat, (∀ choice ∈ choices, choice ≤ 2) ∧
      choices.length + level nodeIndex ≤ level (s.schedulerHeap.currentNumNodes - 1) + 1 ∧
      ∀ rand k lastActiveNodeIndex, Chooses rand k choices →
        ∃ s', Sched.selectTaskEach inUse rand fuel k s nodeIndex
          (s.schedulerHeap.currentNumNodes - 1) lastActiveNodeIndex = some (s', s.taskAt j) := by
  induction fuel generalizing s life nodeIndex j with
  | zero =>
    have := hbelow.le
    omega
  | succ fuel ih =>
    have hle := hbelow.le
    have hi : nodeIndex < s.schedulerHeap.currentNumNodes := by omega
    -- what a round does to the node, and the induction is on the rounds: each one removes the
    -- node or goes down, so `2 * currentNumNodes - nodeIndex` shrinks
    obtain ⟨life₁, s₁, hbooks, honward, -, hround⟩ :=
      h.removeIfInactive hi (inUse fuel) (.inl hnodes)
    have hactive₁ := honward.active _ hactive
    rcases hround with ⟨hremove, hheap⟩ | ⟨hremove, hheap, -⟩
    · -- the node has left; the task is still below it
      have hnum : s₁.schedulerHeap.currentNumNodes = s.schedulerHeap.currentNumNodes - 1 := by
        rw [hheap, MinHeap.heapDown_num h.onHeap.heap.distinct.wf hi]
      obtain ⟨i, hlt, heq⟩ := MinHeap.mem_contents.mp
        ((hbooks.onHeap.mem (s.taskAt j)).mpr (by rw [hactive₁]; rfl))
      have hbelow₁ : InSubtree nodeIndex i :=
        h.onHeap.heap.distinct.inSubtree_heapDown hi hj hbelow (by omega) (hheap ▸ heq)
      have hle₁ := hbelow₁.le
      have htask : s₁.taskAt i = s.taskAt j := heq
      obtain ⟨choices, hchoices, hlength, hreaches⟩ :=
        ih hbooks (j := i) (by rw [htask]; exact hactive₁) hlt hbelow₁ (by omega)
      refine ⟨choices, hchoices, ?_, ?_⟩
      · have := level_mono (i := s₁.schedulerHeap.currentNumNodes - 1)
          (k := s.schedulerHeap.currentNumNodes - 1) (by omega)
        omega
      · intro rand k lastActiveNodeIndex hchooses
        simp only [Sched.selectTaskEach, hremove]
        rw [if_neg (by omega), if_neg (by omega), ← htask]
        exact hreaches rand k lastActiveNodeIndex hchooses
    · have htask : ∀ i, s₁.taskAt i = s.taskAt i := by
        intro i
        unfold taskAt
        rw [hheap]
      have hnum : s₁.schedulerHeap.currentNumNodes = s.schedulerHeap.currentNumNodes := by
        rw [hheap]
      by_cases hhere : nodeIndex = j
      · -- the walk has come to the task and stops
        subst hhere
        have hnull : s.taskAt nodeIndex ≠ NULL :=
          (h.known _ (h.mem_of_ne_absent (by rw [hactive]; simp))).2
        refine ⟨[0], by simp, ?_, ?_⟩
        · have := level_mono (i := nodeIndex) (k := s.schedulerHeap.currentNumNodes - 1) (by omega)
          simp only [List.length_singleton]
          omega
        · rintro rand k lastActiveNodeIndex ⟨hchoice, -⟩
          simp only [Sched.selectTaskEach, hremove, hchoice]
          rw [if_neg fun hgoes => hgoes.1 rfl, htask, if_neg hnull]
          exact ⟨_, rfl⟩
      · -- the walk goes down to the child above the task
        obtain ⟨choice, hchoice, hnonzero, hchild, hlevel⟩ := exists_choice hbelow hhere
        generalize hnext : (if choice = 1 then getFirstChildIndex nodeIndex
          else getSecondChildIndex nodeIndex) = child at *
        have hle₁ := hchild.le
        have hdown : nodeIndex < child := by
          rw [← hnext]
          unfold getFirstChildIndex getSecondChildIndex
          split <;> omega
        obtain ⟨choices, hchoices, hlength, hreaches⟩ :=
          ih hbooks (j := j) (by rw [htask]; exact hactive₁) (by omega) hchild (by omega)
        rw [hnum, htask] at hreaches
        rw [hlevel, hnum] at hlength
        refine ⟨choice :: choices, List.forall_mem_cons.mpr ⟨hchoice, hchoices⟩, ?_, ?_⟩
        · rw [List.length_cons]
          omega
        · rintro rand k lastActiveNodeIndex ⟨rfl, hchooses⟩
          simp only [Sched.selectTaskEach, hremove, hnext]
          rw [if_pos ⟨hnonzero, by omega⟩]
          exact hreaches rand (k + 1) nodeIndex hchooses

/-! ## The chance of a task -/

/-- The last digits of `rand()` that lead to a choice. -/
def digits (choice : Nat) : Finset (Fin 10) :=
  Finset.univ.filter fun digit => getRandForTaskChoice digit = choice

theorem three_le_card_digits {choice : Nat} (h : choice ≤ 2) : 3 ≤ (digits choice).card := by
  interval_cases choice <;> decide

theorem getRandForTaskChoice_mod (rand : Nat) :
    getRandForTaskChoice (rand % 10) = getRandForTaskChoice rand := by
  unfold getRandForTaskChoice
  rw [Nat.mod_mod]

theorem chooses_of_getElem {rand : Nat → Nat} {choices : List Nat} {k : Nat}
    (h : ∀ (i : Nat) (hi : i < choices.length),
      getRandForTaskChoice (rand (k + i)) = choices[i]) : Chooses rand k choices := by
  induction choices generalizing k with
  | nil => trivial
  | cons choice choices ih =>
    refine ⟨h 0 (Nat.zero_lt_succ _), ih ?_⟩
    intro i hi
    have := h (i + 1) (Nat.succ_lt_succ hi)
    rwa [← Nat.add_assoc, Nat.add_right_comm] at this

/-- Draws of the right digits lead to the choices. -/
theorem chooses_of_draws {L : Nat} {choices : List Nat} {r : Fin L → Fin 10} {rand : Nat → Nat}
    (hlength : choices.length ≤ L) (hdraws : Draws r (choices.map digits))
    (hrand : ∀ i : Fin L, rand i % 10 = r i) : Chooses rand 0 choices := by
  refine chooses_of_getElem ?_
  intro i hi
  have hmem := hdraws i (by omega) (by rwa [List.length_map])
  rw [List.getElem_map, digits, Finset.mem_filter] at hmem
  rw [Nat.zero_add, ← hmem.2, ← hrand ⟨i, by omega⟩, getRandForTaskChoice_mod]

/-- The scheduler, called in this state, looks for another task. -/
def Switches (s : Sched) : Prop := ¬ (s.currentTCB ≠ s.idleTCB ∧ s.mustSwitch = false)

/-- Of the `10 ^ draws` possible last digits of the first `draws` calls of `rand()`, at
least `3 ^ draws` make the scheduler switch to the task. -/
def GetsTurn (s : Sched) (draws task : Nat) : Prop :=
  ∀ memclusterInUse, ∃ fuel₀, ∀ fuel, fuel₀ ≤ fuel →
    Chance draws (3 ^ draws) fun r : Fin draws → Fin 10 =>
      ∀ rand : Nat → Nat, (∀ i : Fin draws, rand i % 10 = r i) →
        ∃ s', s.pendSV memclusterInUse rand fuel = some s' ∧ s'.currentTCB = task

theorem Books.getsTurn (h : Books N tasks True life s) (hnodes : tasks.card ≤ N)
    (hswitches : s.Switches) (hactive : life task = .active) :
    s.GetsTurn (Nat.log 2 N + 1) task := by
  intro memclusterInUse
  obtain ⟨fuel₀, hfuel₀⟩ := h.beforeWake_isSome trivial memclusterInUse
  refine ⟨fuel₀, ?_⟩
  intro fuel hfuel
  obtain ⟨s₁, hbefore⟩ := hfuel₀ fuel hfuel
  obtain ⟨hbooks, -, -⟩ := h.beforeWake hbefore
  obtain ⟨life₁, hbooks₁, honward⟩ : ∃ life₁, Books N tasks True life₁ s₁.wakeSleepers ∧
      Onward life life₁ s₁ s₁.wakeSleepers := hbooks.wakeLoop (.inl hnodes)
  have hactive₁ := honward.active _ hactive
  -- the task is on the heap, so the scheduler walks down to it
  obtain ⟨j, hj, rfl⟩ := MinHeap.mem_contents.mp
    ((hbooks₁.onHeap.mem task).mpr (by rw [hactive₁]; rfl))
  obtain ⟨choices, hchoices, hlength, hreaches⟩ :=
    hbooks₁.selectTaskEach_reaches hnodes (fun _ => memclusterInUse) hactive₁ hj
      (inSubtree_zero j) (show _ < s₁.wakeSleepers.selectRounds + 0 by unfold selectRounds; omega)
  have hlevel : level (s₁.wakeSleepers.schedulerHeap.currentNumNodes - 1) ≤ Nat.log 2 N := by
    have hsize := hbooks₁.onHeap.size
    have hle := hbooks₁.onHeap.heap.distinct.wf.num_le
    exact Nat.log_mono_right (by omega)
  rw [level_zero] at hlength
  refine .of_draws (A := choices.map digits) (by decide) ?_ ?_
  · intro a ha
    obtain ⟨choice, hchoice, rfl⟩ := List.mem_map.mp ha
    exact three_le_card_digits (hchoices choice hchoice)
  · intro r hdraws rand hrand
    obtain ⟨s₂, hs₂⟩ := hreaches rand 0 0 (chooses_of_draws (by omega) hdraws hrand)
    refine ⟨{ s₂ with currentTCB := s₁.wakeSleepers.taskAt j }, ?_, rfl⟩
    rw [pendSV_eq]
    simp only [Sched.pendSVEach, schedulerEach, if_neg hswitches, hbefore, Sched.afterWakeEach,
      if_neg (show s₁.wakeSleepers.schedulerHeap.currentNumNodes ≠ 0 by omega), hs₂,
      Option.bind_eq_bind, Option.bind_some, Option.pure_def]

/-! ## The time of a task -/

theorem call_ticksSinceLastTaskSwitch (h : s.call tasks e = some s₀) :
    s₀.ticksSinceLastTaskSwitch = s.ticksSinceLastTaskSwitch := by
  cases e with
  | tick ticks =>
    simp only [call] at h
    split at h
    · cases h
      rfl
    · cases h
  | memory acquired mutexes =>
    cases h
    rfl
  | addTask tcb memory stack taskPriority =>
    simp only [call] at h
    split at h
    · cases h
      rcases addTask_cases (s.modifyTCB tcb fun _ => initialiseTCB memory stack) tcb taskPriority
        with heq | ⟨-, -, heq⟩
      · rw [heq]
        rfl
      · rw [heq]
        rfl
    · cases h
  | notify fuel reason =>
    -- priority inheritance changes TCBs and the scheduler heap only
    rw [(notifyCallback_inherits h).rest]
    show (s.nextCheckCode.wakeAll reason).ticksSinceLastTaskSwitch = _
    rw [(s.nextCheckCode.wakeAll_wakes reason).rest]
    rfl
  | wait fuel reason checkCode isReasonMutex switch =>
    simp only [call] at h
    split at h
    · rcases waitCallback_cases h with ⟨-, rfl⟩ | ⟨-, hi⟩
      · rfl
      · rw [hi.rest]
        rfl
    · cases h
  | sleep minSleepDuration switch =>
    simp only [call] at h
    split at h
    · cases h
      rcases sleepCallback_cases s s.currentTCB minSleepDuration with heq | ⟨-, heq⟩ | ⟨-, heq⟩
      · rw [heq]
      · rw [heq]
      · rw [heq]
        rfl
    · cases h
  | exit switch =>
    simp only [call] at h
    split at h
    · cases h
      rfl
    · cases h
  | yield switch | schedule switch =>
    cases h
    rfl

/-- The scheduler lets a task go on until its time is up. -/
theorem pendSV_of_not_switches {memclusterInUse : Bool} {rand : Nat → Nat} {fuel : Nat}
    (hgoes : ¬ s.Switches) (h : s.pendSV memclusterInUse rand fuel = some s') :
    s.ticksSinceLastTaskSwitch < MAX_TASK_TIME_IN_SYSTICKS ∧
      s'.ticksSinceLastTaskSwitch = s.ticksSinceLastTaskSwitch + 1 := by
  have hstays := not_not.mp hgoes
  simp only [Sched.pendSV, Sched.scheduler, if_pos hstays, Option.bind_eq_bind, Option.bind_some,
    Option.pure_def, Option.some.injEq] at h
  refine ⟨?_, by rw [← h]⟩
  have hmust := hstays.2
  simp only [mustSwitch, Bool.or_eq_false_iff, Bool.not_eq_false', decide_eq_true_eq] at hmust
  exact hmust.2

/-- Of more than `MAX_TASK_TIME_IN_SYSTICKS` calls of the scheduler, one looks for another
task. -/
theorem exists_switches {es : List SchedulerEvent} {t : Nat} (ht : t ≤ s.ticksSinceLastTaskSwitch)
    (hlate : t ≤ MAX_TASK_TIME_IN_SYSTICKS)
    (hcalls : MAX_TASK_TIME_IN_SYSTICKS < t + (es.filterMap SchedulerEvent.switch).length)
    (hrun : (freshMachine N tasks).run s es = some s') :
    ∃ es₁ e es₂ s₁ s₀, es = es₁ ++ e :: es₂ ∧ (freshMachine N tasks).run s es₁ = some s₁ ∧
      s₁.call tasks e = some s₀ ∧ e.switch ≠ none ∧ s₀.Switches := by
  induction es generalizing s t with
  | nil =>
    rw [List.filterMap_nil, List.length_nil] at hcalls
    omega
  | cons e es ih =>
    obtain ⟨s₁, hs₁, hrest⟩ := Option.bind_eq_some_iff.mp hrun
    obtain ⟨s₀, hcall, hnext⟩ := step_cases (Machine.guard_step_iff.mp hs₁).2
    have hticks := call_ticksSinceLastTaskSwitch hcall
    -- it is enough to find the call later in the run
    have hlater : ∀ t', t' ≤ s₁.ticksSinceLastTaskSwitch → t' ≤ MAX_TASK_TIME_IN_SYSTICKS →
        MAX_TASK_TIME_IN_SYSTICKS < t' + (es.filterMap SchedulerEvent.switch).length →
        ∃ es₁ e' es₂ s₂ s₀, e :: es = es₁ ++ e' :: es₂ ∧
          (freshMachine N tasks).run s es₁ = some s₂ ∧ s₂.call tasks e' = some s₀ ∧
          e'.switch ≠ none ∧ s₀.Switches := by
      intro t' ht' hlate' hcalls'
      obtain ⟨es₁, e', es₂, s₂, s₀, rfl, hrun₁, hfound⟩ := ih ht' hlate' hcalls' hrest
      exact ⟨e :: es₁, e', es₂, s₂, s₀, rfl, Option.bind_eq_some_iff.mpr ⟨s₁, hs₁, hrun₁⟩, hfound⟩
    rcases hnext with ⟨hnone, rfl⟩ | ⟨switch, hswitch, hpend⟩
    · rw [List.filterMap_cons_none hnone] at hcalls
      exact hlater t (hticks ▸ ht) hlate hcalls
    · rw [List.filterMap_cons_some hswitch, List.length_cons] at hcalls
      by_cases hswitches : s₀.Switches
      · exact ⟨[], e, es, s, s₀, rfl, rfl, hcall, by rw [hswitch]; simp, hswitches⟩
      · obtain ⟨hearly, hnext⟩ := pendSV_of_not_switches hswitches hpend
        exact hlater (t + 1) (by omega) (by omega) (by omega)

/-! ## The result -/

/-- **No starvation**: in every run with more than `MAX_TASK_TIME_IN_SYSTICKS` calls of the
scheduler there is one that looks for another task, and at which every task that can run
gets its turn with a chance of `(3 / 10) ^ (log₂ N + 1)` at least. -/
theorem no_starvation (hN : 0 < N) (hmax : N ≤ UINT32_MAX) (hnodes : tasks.card ≤ N)
    (htables : tasks.card ≤ WAIT_HASHTABLE_CAPACITY) (h : (freshMachine N tasks).Reach s)
    {es : List SchedulerEvent} (hrun : (freshMachine N tasks).run s es = some s')
    (hcalls : MAX_TASK_TIME_IN_SYSTICKS < (es.filterMap SchedulerEvent.switch).length) :
    ∃ es₁ e es₂ s₁ s₀, es = es₁ ++ e :: es₂ ∧ (freshMachine N tasks).run s es₁ = some s₁ ∧
      s₁.call tasks e = some s₀ ∧ e.switch ≠ none ∧ s₀.Switches ∧
      ∀ task ∈ s₀.scheduled, Runnable s₀ task → s₀.GetsTurn (Nat.log 2 N + 1) task := by
  obtain ⟨es₁, e, es₂, s₁, s₀, hes, hrun₁, hcall, hswitch, hswitches⟩ :=
    exists_switches (Nat.zero_le _) (Nat.zero_le _) (by rwa [Nat.zero_add]) hrun
  refine ⟨es₁, e, es₂, s₁, s₀, hes, hrun₁, hcall, hswitch, hswitches, ?_⟩
  obtain ⟨life, hbooks, hr⟩ : ∃ life, Books N tasks True life s₁ ∧ Running tasks life s₁ :=
    books_of_reach hN hmax hnodes htables (fun _ hs => hs)
      (fun _ _ _ hs => ⟨(Machine.guard_step_iff.mp hs).2,
        fun _ => (Machine.guard_step_iff.mp hs).1⟩) (h.run hrun₁)
  -- the scheduler does not follow `addTask`
  have hfresh : s₁.Fresh tasks e := by
    cases e <;> trivial
  obtain ⟨life₀, hcalled⟩ :=
    hbooks.call hr (hbooks.hasRoom htables hcall) (fun _ => hfresh) (.inl hnodes) hcall
  intro task htask hruns
  refine hcalled.books.getsTurn hnodes hswitches ?_
  refine hcalled.books.active_of_bits htask ?_ hruns.1 hruns.2.1 hruns.2.2
  intro hl
  exact absurd hnodes (Nat.not_le.mpr (hcalled.books.rejected task hl))

/-- Three tasks of which none calls the scheduler while the timer does. -/
def threeTurns : List SchedulerEvent :=
  threeSleepers.take 4 ++ List.replicate 100 (.schedule toRoot)

theorem no_starvation_threeTurns :
    ∃ s', (freshMachine 16 {100, 200, 300}).run (sampleSched 1) threeTurns = some s' ∧
      ∃ es₁ e es₂ s₁ s₀, threeTurns = es₁ ++ e :: es₂ ∧
        (freshMachine 16 {100, 200, 300}).run (sampleSched 1) es₁ = some s₁ ∧
        s₁.call {100, 200, 300} e = some s₀ ∧ e.switch ≠ none ∧ s₀.Switches ∧
        ∀ task ∈ s₀.scheduled, Runnable s₀ task → s₀.GetsTurn (Nat.log 2 16 + 1) task := by
  obtain ⟨s', hrun, -⟩ := Machine.exists_run (P := fun s => s.currentTCB = 100)
    (M := freshMachine 16 {100, 200, 300}) (s := sampleSched 1) (e := threeTurns)
    (by decide +kernel)
  exact ⟨s', hrun, no_starvation (by decide) (by decide) (by decide) (by decide)
    (.init (sampleSched_rested _ (by decide)).booted) hrun (by decide)⟩

end Sched

end DocetOS
