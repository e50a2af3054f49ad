import DocetOS.OS.HeapKeys

/-!
# The exact minimum is inherited

`__updatePriorityInheritance` on its own: whatever the waiting tasks are and
wherever the task is, it ends, and the task has the least of its own priority
and of those of the tasks that wait for its mutexes.

- `MovesOnly.same_nodes`: the node of the task is replaced, all other nodes stay.
- `inherits_minimum`: the result, for a lookup table that finds every node.
-/

namespace DocetOS

open Lib Hashtable

namespace Sched

variable {s s' : Sched} {task : Nat} {mutexes : List Nat}

/-- The list of the mutexes of the task ends, other tasks may wait for them, and
none of these has priority 0. -/
structure Owns (s : Sched) (task : Nat) (mutexes : List Nat) : Prop where
  wf : s.waitingTasksHashTableReasonAsKey.WF
  chain : Chain s.nextAcquired (s.firstAcquired task) mutexes
  others : ∀ mutex ∈ mutexes, (mutex, task) ∉ s.waiting
  positive : 0 < (s.tcb task).priority
  waiters_positive : ∀ mutex w, mutex ∈ mutexes → (mutex, w) ∈ s.waiting →
    0 < (s.tcb w).priority

/-- The lookup table finds the node of every task on the scheduler heap, and the
table of these tasks has their keys. -/
structure LookedUp (s : Sched) : Prop where
  heap : s.schedulerHeap.WF
  finds : ∀ t ∈ s.schedulerHeap.contents, s.schedulerHeap.Finds t
  table : s.tasksInSchedulerHeapHashTable.WF
  mem : ∀ t v, (t, v) ∈ s.tasksInSchedulerHeapHashTable.content ↔
    v = t ∧ t ∈ s.schedulerHeap.contents

/-- The effective priority of the task is the minimum, and of the scheduler heap
only the node of the task has changed. -/
structure InheritsMinimum (s s' : Sched) (task : Nat) (mutexes : List Nat) : Prop where
  waiting : s'.waiting = s.waiting
  others : ∀ t, t ≠ task → s'.tcb t = s.tcb t
  priority : (s'.tcb task).priority = (s.tcb task).priority
  minimum : IsLeast (insert (s'.tcb task).priority (s'.waitingPriorities mutexes))
    (s'.tcb task).heapPriority
  reset : (s'.tcb task).inheritedPriority = 0 ↔
    ∀ mutex ∈ mutexes, ∀ w, (mutex, w) ∈ s'.waiting →
      (s'.tcb task).priority ≤ (s'.tcb w).heapPriority
  members : s'.schedulerHeap.contents = s.schedulerHeap.contents
  table : s'.tasksInSchedulerHeapHashTable.content = s.tasksInSchedulerHeapHashTable.content
  keys : s'.schedulerHeap.nodes.filter (fun node => node.ptrToNodeContent ≠ task) =
    s.schedulerHeap.nodes.filter fun node => node.ptrToNodeContent ≠ task

/-- Moving the node of a task that is found changes no other node, and no task
leaves the heap. -/
theorem MovesOnly.same_nodes {moves : Bool} (h : MovesOnly moves task s s')
    (hwf : s.schedulerHeap.WF)
    (hfinds : (s.tasksInSchedulerHeapHashTable.get task).1.validValueFlag ≠ 0 →
      s.schedulerHeap.Finds task) :
    s'.schedulerHeap.contents = s.schedulerHeap.contents ∧
      s'.schedulerHeap.nodes.filter (fun node => node.ptrToNodeContent ≠ task) =
        s.schedulerHeap.nodes.filter fun node => node.ptrToNodeContent ≠ task := by
  rcases h with heq | ⟨-, hflag, value, heq⟩
  · rw [heq]
    exact ⟨rfl, rfl⟩
  · obtain ⟨node, rest, hnode, hnodes, hreadd⟩ :=
      MinHeap.readd_nodes hwf (hfinds hflag) value
    have hnodes' : s'.schedulerHeap.nodes = ⟨task, value⟩ ::ₘ rest := by
      rw [heq]
      exact hreadd
    constructor
    · unfold MinHeap.contents
      rw [hnodes', ← hnodes, Multiset.map_cons, Multiset.map_cons, hnode]
    · rw [hnodes', ← hnodes, Multiset.filter_cons_of_neg _ (by simp),
        Multiset.filter_cons_of_neg _ (by simpa using hnode)]

/-- The table has the task only when the heap has, and then it is found. -/
theorem LookedUp.finds_of_flag (h : s.LookedUp)
    (hflag : (s.tasksInSchedulerHeapHashTable.get task).1.validValueFlag ≠ 0) :
    s.schedulerHeap.Finds task := by
  obtain ⟨v, hv⟩ := mem_of_get h.table hflag
  exact h.finds task ((h.mem task v).mp hv).2

/-- `__updatePriorityInheritance` ends when the list of mutexes does. -/
theorem updatePriorityInheritance_isSome
    (h : Chain s.nextAcquired (s.firstAcquired task) mutexes) {fuel : Nat}
    (hfuel : mutexes.length < fuel) : ∃ s', s.updatePriorityInheritance fuel task = some s' := by
  obtain ⟨table, highestPriority, hhighest⟩ := highestInherited_isSome (s := s) h hfuel
    s.waitingTasksHashTableReasonAsKey (s.tcb task).priority
  simp only [updatePriorityInheritance, hhighest, Option.bind_eq_bind, Option.bind_some,
    Option.pure_def]
  exact ⟨_, rfl⟩

/-- The tasks that wait are others, so their priorities stay. -/
theorem Owns.waitingPriorities_eq (h : s.Owns task mutexes) (hwaiting : s'.waiting = s.waiting)
    (hothers : ∀ t, t ≠ task → s'.tcb t = s.tcb t) :
    s'.waitingPriorities mutexes = s.waitingPriorities mutexes := by
  have hwaiters : ∀ mutex ∈ mutexes, ∀ w, (mutex, w) ∈ s.waiting → s'.tcb w = s.tcb w := by
    intro mutex hmutex w hw
    refine hothers w ?_
    rintro rfl
    exact h.others mutex hmutex hw
  ext p
  unfold waitingPriorities
  rw [hwaiting]
  constructor
  · rintro ⟨m, w, hm, hw, rfl⟩
    exact ⟨m, w, hm, hw, by rw [hwaiters m hm w hw]⟩
  · rintro ⟨m, w, hm, hw, rfl⟩
    exact ⟨m, w, hm, hw, by rw [hwaiters m hm w hw]⟩

/-- **The exact minimum**: `__updatePriorityInheritance` ends, the task has the
least of its priority and the effective priorities of the tasks that wait for its
mutexes, and the heap is the same but for the place of the task. -/
theorem inherits_minimum (h : s.Owns task mutexes) (hheap : s.LookedUp) {fuel : Nat}
    (hfuel : mutexes.length < fuel) :
    ∃ s', s.updatePriorityInheritance fuel task = some s' ∧
      InheritsMinimum s s' task mutexes := by
  obtain ⟨s', hs⟩ := updatePriorityInheritance_isSome h.chain hfuel
  have hi := updatePriorityInheritance_inherits hs
  have hinherits := updatePriorityInheritance_isLeast h.chain h.wf h.positive
    h.waiters_positive hs
  -- the waiting tasks are others, so their priorities are those from before
  have hpriorities := h.waitingPriorities_eq hi.waiting hinherits.others
  obtain ⟨hmembers, hkeys⟩ :=
    (updatePriorityInheritance_moves hs).same_nodes hheap.heap fun hflag =>
      hheap.finds_of_flag hflag
  obtain ⟨flag, htable⟩ := hi.inHeap
  refine ⟨s', hs,
    { waiting := hi.waiting
      others := hinherits.others
      priority := hinherits.priority
      minimum := ?_
      reset := ?_
      members := hmembers
      table := ?_
      keys := hkeys }⟩
  · rw [hinherits.priority, hpriorities]
    exact hinherits.least
  · rw [hinherits.reset, hi.waiting, hinherits.priority, ← hpriorities]
    constructor
    · intro hnone mutex hmutex w hw
      exact hnone _ ⟨mutex, w, hmutex, hi.waiting ▸ hw, rfl⟩
    · rintro hnone p ⟨mutex, w, hmutex, hw, rfl⟩
      exact hnone mutex hmutex w (hi.waiting ▸ hw)
  · rw [htable]
    rfl

/-- The books of a scheduler with no more tasks than nodes look every task up. -/
theorem Books.lookedUp {N : Nat} {tasks : Finset Nat} {fresh : Prop} {life : Nat → Lifecycle}
    (h : Books N tasks fresh life s) (hnodes : tasks.card ≤ N) : s.LookedUp where
  heap := h.onHeap.heap.distinct.wf
  finds t ht := h.onHeap.heap.finds (by rwa [h.onHeap.size]) ht
  table := h.onHeap.table.keys.keyed.wf
  mem t v := by
    have haccepted : life t ≠ .rejected := fun hl =>
      absurd hnodes (Nat.not_le.mpr (h.rejected t hl))
    rw [h.onHeap.table.keys.mem, h.onHeap.mem]
    simp [Lifecycle.inTable, haccepted]

/-- Task 100 has inherited the priority of task 200, and inherits it again. -/
theorem inherits_minimum_lendsPriority :
    ∃ s s', (schedulerMachine 16 {100, 200}).run (sampleSched 1) lendsPriority = some s ∧
      s.waiting = {(500, 200)} ∧ s.Owns 100 [500] ∧ s.LookedUp ∧
      s.updatePriorityInheritance 2 100 = some s' ∧
      InheritsMinimum s s' 100 [500] := by
  obtain ⟨s, hrun, hfirst, hnext, hothers, htask, hpairs⟩ := Machine.exists_run
    (P := fun s => s.firstAcquired 100 = some 500 ∧ s.nextAcquired 500 = none ∧
      (500, 100) ∉ s.waiting ∧ 100 ∈ s.scheduled ∧ s.waiting = {(500, 200)})
    (M := schedulerMachine 16 {100, 200}) (s := sampleSched 1) (e := lendsPriority)
    (by decide +kernel)
  have hreach := (Machine.Reach.init (M := schedulerMachine 16 {100, 200})
    (sampleSched_rested _ (by decide)).booted).run hrun
  have hpositive := (reach_effectiveKeys (by decide) (by decide) (by decide) (by decide)
    hreach).positive
  obtain ⟨life, hbooks, -⟩ : ∃ life, Books 16 {100, 200} False life s ∧
      Running {100, 200} life s :=
    books_of_reach (by decide) (by decide) (by decide) (by decide) (fun _ hs => hs)
      (fun _ _ _ hs => ⟨hs, False.elim⟩) hreach
  have howns : s.Owns 100 [500] :=
    { wf := hbooks.waiters.parked.wf
      chain := Path.cons_iff.mpr ⟨hfirst, Path.nil_iff.mpr hnext⟩
      others := fun mutex hmutex => by
        obtain rfl := List.mem_singleton.mp hmutex
        exact hothers
      positive := hpositive 100 htask
      waiters_positive := fun mutex w _ hw => hpositive w (hbooks.mem_of_ne_absent fun hl => by
        have hwaiting := (hbooks.waiters.mem w).mp ⟨mutex, hw⟩
        rw [hl] at hwaiting
        cases hwaiting) }
  have hheap := hbooks.lookedUp (by decide)
  obtain ⟨s', hs, hminimum⟩ := @inherits_minimum _ _ _ howns hheap 2 (by decide)
  exact ⟨s, s', hrun, hpairs, howns, hheap, hs, hminimum⟩

end Sched

end DocetOS
