import DocetOS.OS.AcquiredLists
import DocetOS.DataStructures.HashtableMultimap
import DocetOS.Lib.PriorityInheritance

/-!
# The priority a task inherits

`__updatePriorityInheritance` gives a task the least of its own priority and of the
priorities of the tasks that wait for one of its mutexes
(`updatePriorityInheritance_isLeast`). A task that waits counts with the priority it
has inherited itself, if any.

`Lent s lists` says that no task inherits too little: whoever waits for a mutex in a
task's list is not more urgent than the task.

- `Lent.wait`: a new waiter lends its priority to the owner. Nothing goes on from
  there: if the owner waits for a mutex of a task that is less urgent, that task stays
  as it is.
- `Lent.notify`: a task that gives a mutex back falls back to what the others lend it.
-/

namespace DocetOS

namespace Sched

open Lib Hashtable

variable {s s' s'' : Sched} {lists : Nat → List Nat} {mutex : Nat}

/-- The priorities of the tasks that wait for one of the mutexes. -/
def waitingPriorities (s : Sched) (mutexes : List Nat) : Set Nat :=
  {p | ∃ m w, m ∈ mutexes ∧ (m, w) ∈ s.waiting ∧ (s.tcb w).heapPriority = p}

/-! ## The loops -/

/-- The loop over the tasks that wait for one mutex. -/
theorem highestWaiting_isLeast {table : Hashtable} (hwf : table.WF) {rounds n : Nat}
    (hrounds : (table.toMultimap mutex).length < n + rounds) (highestPriority : Nat) :
    IsLeast (insert highestPriority
        {p | ∃ w ∈ (table.toMultimap mutex).drop n, (s.tcb w).heapPriority = p})
      (s.highestWaiting mutex rounds n table highestPriority).2 := by
  induction rounds generalizing n table highestPriority with
  | zero =>
    rw [List.drop_eq_nil_of_le (by omega)]
    simp [highestWaiting]
  | succ rounds ih =>
    simp only [highestWaiting, getNthValueAtKey_eq hwf]
    cases hn : (table.toMultimap mutex)[n]? with
    | none =>
      -- the flag is 0: no more task waits
      rw [List.drop_eq_nil_of_le (List.getElem?_eq_none_iff.mp hn)]
      simp [found]
    | some w =>
      obtain ⟨hlt, hw⟩ := List.getElem?_eq_some_iff.mp hn
      have hfirst : IsLeast {highestPriority, (s.tcb w).heapPriority}
          (if (s.tcb w).heapPriority < highestPriority then (s.tcb w).heapPriority
            else highestPriority) := by
        have hpair := isLeast_pair (a := highestPriority) (b := (s.tcb w).heapPriority)
        rw [min_comm, min_def_lt] at hpair
        exact hpair
      have hrest := ih (hwf.setFlag 1) (n := n + 1) (by rw [toMultimap_setFlag]; omega)
        (if (s.tcb w).heapPriority < highestPriority then (s.tcb w).heapPriority
          else highestPriority)
      rw [toMultimap_setFlag] at hrest
      have hall := hfirst.insert_union hrest
      have hset : {p | ∃ w ∈ (table.toMultimap mutex).drop n, (s.tcb w).heapPriority = p} =
          {(s.tcb w).heapPriority} ∪
            {p | ∃ w ∈ (table.toMultimap mutex).drop (n + 1), (s.tcb w).heapPriority = p} := by
        ext p
        rw [List.drop_eq_getElem_cons hlt, hw]
        simp [eq_comm]
      rw [hset]
      exact hall

/-- A table has no more values of a key than structs. -/
theorem length_toMultimap_le {table : Hashtable} (hwf : table.WF) (k : Nat) :
    (table.toMultimap k).length ≤ table.maximumCapacity := by
  have hcard := hwf.card_content
  obtain ⟨chains, free, hrep⟩ := hwf
  rw [hrep.length_toMultimap]
  have hcount := Multiset.count_le_card k (table.content.map Prod.fst)
  rw [Multiset.card_map] at hcount
  omega

/-- The loop over the mutexes of a task. -/
theorem highestInherited_isLeast {table table' : Hashtable} (hwf : table.WF)
    (hcontent : table.content = s.waiting) {fuel acquiredMutex priority highestPriority : Nat}
    {l : List Nat} (hchain : Chain s.nextAcquired (toPtr acquiredMutex) l)
    (h : s.highestInherited fuel table acquiredMutex priority = some (table', highestPriority)) :
    IsLeast (insert priority (s.waitingPriorities l)) highestPriority := by
  induction fuel generalizing table acquiredMutex priority l with
  | zero => cases h
  | succ fuel ih =>
    simp only [highestInherited] at h
    split at h
    · -- the end of the list: the task has its own priority
      rename_i hnull
      cases h
      rw [hnull] at hchain
      obtain rfl := hchain.nil_of_none
      simp [waitingPriorities]
    · rename_i hne
      rw [toPtr_of_ne hne] at hchain
      cases hchain with
      | @cons _ l _ hrest =>
        have hrounds : (table.toMultimap acquiredMutex).length <
            0 + (table.maximumCapacity + 1) := by
          have hlength := length_toMultimap_le hwf acquiredMutex
          omega
        -- the first mutex gives the least of its waiting tasks, the rest by the induction
        have hfirst := highestWaiting_isLeast (s := s) hwf hrounds priority
        obtain ⟨flag, htable⟩ := s.highestWaiting_table acquiredMutex (table.maximumCapacity + 1) 0
          table priority
        rw [htable] at h
        have hall := hfirst.insert_union (ih (hwf.setFlag flag) hcontent hrest h)
        -- who waits for a mutex of the list waits for the first or for another one
        have hset : s.waitingPriorities (acquiredMutex :: l) =
            {p | ∃ w ∈ (table.toMultimap acquiredMutex).drop 0, (s.tcb w).heapPriority = p} ∪
              s.waitingPriorities l := by
          ext p
          constructor
          · rintro ⟨m, w, hm, hw, rfl⟩
            rcases List.mem_cons.mp hm with rfl | hm
            · rw [← hcontent, ← mem_toMultimap hwf] at hw
              exact .inl ⟨w, hw, rfl⟩
            · exact .inr ⟨m, w, hm, hw, rfl⟩
          · rintro (⟨w, hw, rfl⟩ | ⟨m, w, hm, hw, rfl⟩)
            · rw [List.drop_zero, mem_toMultimap hwf, hcontent] at hw
              exact ⟨_, w, List.mem_cons_self, hw, rfl⟩
            · exact ⟨m, w, List.mem_cons_of_mem _ hm, hw, rfl⟩
        rw [hset]
        exact hall

/-! ## What changes no priority -/

/-- Every task has the priority and the inherited priority it had. -/
def SamePriorities (s s' : Sched) : Prop :=
  ∀ task, (s'.tcb task).priority = (s.tcb task).priority ∧
    (s'.tcb task).inheritedPriority = (s.tcb task).inheritedPriority

theorem SamePriorities.refl (s : Sched) : SamePriorities s s := fun _ => ⟨rfl, rfl⟩

theorem SamePriorities.trans (h : SamePriorities s s') (h' : SamePriorities s' s'') :
    SamePriorities s s'' := fun task =>
  ⟨(h' task).1.trans (h task).1, (h' task).2.trans (h task).2⟩

theorem SamePriorities.heapPriority (h : SamePriorities s s') (task : Nat) :
    (s'.tcb task).heapPriority = (s.tcb task).heapPriority := by
  unfold TCB.heapPriority
  rw [(h task).1, (h task).2]

theorem samePriorities_modifyTCB (task : Nat) {f : TCB → TCB}
    (hf : ∀ tcb, (f tcb).priority = tcb.priority ∧
      (f tcb).inheritedPriority = tcb.inheritedPriority) :
    SamePriorities s (s.modifyTCB task f) := by
  intro task'
  by_cases h : task' = task
  · subst h
    simpa [modifyTCB] using hf (s.tcb task')
  · simp [modifyTCB, h]

theorem park_samePriorities (s : Sched) (reason : Nat) : SamePriorities s (s.park reason) := by
  intro task
  rw [park_tcb]
  split <;> exact ⟨rfl, rfl⟩

theorem Wakes.samePriorities (h : Wakes s s') : SamePriorities s s' := by
  intro task
  rcases h.tcb task with ht | ht <;> rw [ht] <;> exact ⟨rfl, rfl⟩

theorem resourceAcquired_samePriorities (s : Sched) (mutex : Nat) :
    SamePriorities s (s.resourceAcquired mutex) := by
  simp only [resourceAcquired]
  split
  · exact .refl s
  · split
    · exact .refl s
    · exact samePriorities_modifyTCB
        (f := fun tcb => { tcb with acquiredResourcesLinkedList := mutex }) s.currentTCB
        fun _ => ⟨rfl, rfl⟩

/-! ## `__updatePriorityInheritance` -/

theorem moveToInheritedPriority_tcb (s : Sched) (task : Nat) (isActiveAndInHeap : Bool) :
    (s.moveToInheritedPriority task isActiveAndInHeap).tcb = s.tcb := by
  simp only [moveToInheritedPriority]
  split <;> rfl

theorem setInheritedPriority_tcb (s : Sched) (task highestPriority : Nat)
    (isActiveAndInHeap : Bool) :
    ∃ inherited prev, (s.setInheritedPriority task highestPriority isActiveAndInHeap).tcb =
        Function.update s.tcb task { s.tcb task with
          inheritedPriority := inherited
          prevInheritedPriority := prev } ∧
      inherited = if highestPriority < (s.tcb task).priority then highestPriority else 0 := by
  unfold setInheritedPriority
  split
  · exact ⟨_, _, rfl, rfl⟩
  · refine ⟨0, 0, ?_, rfl⟩
    split <;> rfl

/-- With enough fuel the loop gets to the end of the list. -/
theorem highestInherited_isSome {fuel acquiredMutex : Nat} {l : List Nat}
    (hchain : Chain s.nextAcquired (toPtr acquiredMutex) l) (hfuel : l.length < fuel)
    (table : Hashtable) (priority : Nat) :
    ∃ table' highestPriority,
      s.highestInherited fuel table acquiredMutex priority = some (table', highestPriority) := by
  induction fuel generalizing table acquiredMutex priority l with
  | zero => exact absurd hfuel (Nat.not_lt_zero _)
  | succ fuel ih =>
    simp only [highestInherited]
    split
    · exact ⟨_, _, rfl⟩
    · rename_i hne
      rw [toPtr_of_ne hne] at hchain
      cases hchain with
      | cons hrest => exact ih hrest (Nat.lt_of_succ_lt_succ hfuel) _ _

/-- What a task with these mutexes has after it has inherited. -/
structure InheritsLeast (s s' : Sched) (task : Nat) (mutexes : List Nat) : Prop where
  others : ∀ t, t ≠ task → s'.tcb t = s.tcb t
  priority : (s'.tcb task).priority = (s.tcb task).priority
  least : IsLeast (insert (s.tcb task).priority (s.waitingPriorities mutexes))
    (s'.tcb task).heapPriority
  /-- It inherits nothing when no waiting task is more urgent. -/
  reset : (s'.tcb task).inheritedPriority = 0 ↔
    ∀ p ∈ s.waitingPriorities mutexes, (s.tcb task).priority ≤ p

/-- **What a task inherits**: the least of its priority and of those of the tasks that
wait for its mutexes. -/
theorem updatePriorityInheritance_isLeast {fuel task : Nat} {mutexes : List Nat}
    (hchain : Chain s.nextAcquired (s.firstAcquired task) mutexes)
    (hwf : s.waitingTasksHashTableReasonAsKey.WF) (hpositive : 0 < (s.tcb task).priority)
    (hwaiting : ∀ m w, m ∈ mutexes → (m, w) ∈ s.waiting → 0 < (s.tcb w).priority)
    (hs : s.updatePriorityInheritance fuel task = some s') :
    InheritsLeast s s' task mutexes := by
  simp only [updatePriorityInheritance, Option.bind_eq_bind, Option.bind_eq_some_iff,
    Option.pure_def, Option.some.injEq] at hs
  obtain ⟨⟨table, highestPriority⟩, hhighest, rfl⟩ := hs
  have hleast := highestInherited_isLeast hwf rfl hchain hhighest
  obtain ⟨inherited, prev, htcb, hinherited⟩ := setInheritedPriority_tcb { s with
    waitingTasksHashTableReasonAsKey := table
    tasksInSchedulerHeapHashTable := (s.tasksInSchedulerHeapHashTable.get task).1 } task
    highestPriority (decide ((s.tasksInSchedulerHeapHashTable.get task).2 ≠ 0 ∧
      (s.tasksInSchedulerHeapHashTable.get task).1.validValueFlag ≠ 0))
  -- an inherited priority is not 0, the mark of a task that inherits nothing
  have hne : highestPriority ≠ 0 := by
    rcases hleast.1 with heq | ⟨m, w, hm, hw, heq⟩
    · exact heq ▸ hpositive.ne'
    · rw [← heq]
      unfold TCB.heapPriority
      split
      · assumption
      · exact (hwaiting m w hm hw).ne'
  have hle : highestPriority ≤ (s.tcb task).priority := hleast.2 (.inl rfl)
  refine
    { others := fun t ht => ?_
      priority := ?_
      least := ?_
      reset := ?_ } <;> rw [moveToInheritedPriority_tcb, htcb]
  · rw [Function.update_of_ne ht]
  · rw [Function.update_self]
  · have hvalue : (Function.update s.tcb task { s.tcb task with
        inheritedPriority := inherited
        prevInheritedPriority := prev } task).heapPriority = highestPriority := by
      rw [Function.update_self, hinherited]
      by_cases hlower : highestPriority < (s.tcb task).priority
      · simp only [TCB.heapPriority, if_pos hlower, if_pos hne]
      · simp only [TCB.heapPriority, if_neg hlower, ne_eq, not_true_eq_false, if_false]
        exact Nat.le_antisymm (Nat.not_lt.mp hlower) hle
    rw [hvalue]
    exact hleast
  · rw [Function.update_self]
    show inherited = 0 ↔ _
    rw [hinherited]
    constructor
    · intro hzero p hp
      have hnot : ¬ highestPriority < (s.tcb task).priority := by
        intro hlower
        rw [if_pos hlower] at hzero
        exact hne hzero
      exact (Nat.not_lt.mp hnot).trans (hleast.2 (.inr hp))
    · intro hnone
      refine if_neg (Nat.not_lt.mpr ?_)
      rcases hleast.1 with heq | hp
      · exact heq.ge
      · exact hnone _ hp

/-! ## No task inherits too little -/

/-- Whoever waits for a mutex waits for one in a list, and is not more urgent than the
task whose list it is. -/
structure Lent (s : Sched) (lists : Nat → List Nat) : Prop where
  positive : ∀ t, 0 < (s.tcb t).priority
  atMost : ∀ t, (s.tcb t).heapPriority ≤ (s.tcb t).priority
  listed : ∀ m w, (m, w) ∈ s.waiting → ∃ t, m ∈ lists t
  lent : NoInversion (fun t m => m ∈ lists t) (fun m w => (m, w) ∈ s.waiting)
    fun t => (s.tcb t).heapPriority

/-- Nobody starts to wait. -/
theorem Lent.mono (h : Lent s lists) (hsame : SamePriorities s s')
    (hwaiting : ∀ p ∈ s'.waiting, p ∈ s.waiting) : Lent s' lists where
  positive t := by
    rw [(hsame t).1]
    exact h.positive t
  atMost t := by
    rw [(hsame t).1, hsame.heapPriority]
    exact h.atMost t
  listed m w hw := h.listed m w (hwaiting _ hw)
  lent := by
    simp only [hsame.heapPriority]
    exact h.lent.mono fun t m w ht hw => ⟨m, ht, hwaiting _ hw⟩

/-- A task links a mutex that nobody waits for. -/
theorem Lent.acquired (h : Lent s lists) (hnew : ∀ t, mutex ∉ lists t) :
    Lent (s.resourceAcquired mutex)
      (Function.update lists s.currentTCB (mutex :: lists s.currentTCB)) := by
  have hwaiting := (s.resourceAcquired_inherits mutex).waiting
  have hsame := h.mono (resourceAcquired_samePriorities s mutex) fun p hp => hwaiting ▸ hp
  have hmem : ∀ t m, m ≠ mutex →
      (m ∈ Function.update lists s.currentTCB (mutex :: lists s.currentTCB) t ↔ m ∈ lists t) := by
    intro t m hm
    by_cases ht : t = s.currentTCB
    · rw [ht, Function.update_self, List.mem_cons]
      exact or_iff_right hm
    · rw [Function.update_of_ne ht]
  have hne : ∀ m w, (m, w) ∈ (s.resourceAcquired mutex).waiting → m ≠ mutex := by
    rintro m w hw rfl
    obtain ⟨t, ht⟩ := hsame.listed m w hw
    exact hnew t ht
  refine { hsame with listed := ?_, lent := ?_ }
  · intro m w hw
    obtain ⟨t, ht⟩ := hsame.listed m w hw
    exact ⟨t, (hmem t m (hne m w hw)).mpr ht⟩
  · exact hsame.lent.mono fun t m w ht hw => ⟨m, (hmem t m (hne m w hw)).mp ht, hw⟩

/-- A task inherits anew, after the lists and the waiting tasks have changed. -/
theorem Lent.update {s₁ : Sched} (h : Lent s lists) {lists' : Nat → List Nat} {fuel task : Nat}
    (hsame : SamePriorities s s₁) (hlists : s₁.Lists lists')
    (hwf : s₁.waitingTasksHashTableReasonAsKey.WF)
    (hlisted : ∀ m w, (m, w) ∈ s₁.waiting → ∃ t, m ∈ lists' t)
    (hpairs : ∀ t m w, t ≠ task → m ∈ lists' t → (m, w) ∈ s₁.waiting →
      m ∈ lists t ∧ (m, w) ∈ s.waiting)
    (hnew : ∀ m w, m ∈ lists' task → (m, w) ∈ s₁.waiting →
      (m ∈ lists task ∧ (m, w) ∈ s.waiting) ∨
        ∀ t m', t ≠ task → m' ∈ lists t → (m', task) ∈ s.waiting →
          (s.tcb t).heapPriority ≤ (s.tcb w).heapPriority)
    (hs : s₁.updatePriorityInheritance fuel task = some s') : Lent s' lists' := by
  have hwaiting := (updatePriorityInheritance_inherits hs).waiting
  have hpositive : ∀ t, 0 < (s₁.tcb t).priority := by
    intro t
    rw [(hsame t).1]
    exact h.positive t
  -- the task now has the least of the waiting priorities, and the others keep theirs
  have hinherits := updatePriorityInheritance_isLeast (hlists.chain task) hwf (hpositive task)
    (fun _ w _ _ => hpositive w) hs
  have hpriority : ∀ t, (s'.tcb t).priority = (s₁.tcb t).priority := by
    intro t
    by_cases ht : t = task
    · rw [ht, hinherits.priority]
    · rw [hinherits.others t ht]
  have hother : ∀ t, t ≠ task → (s'.tcb t).heapPriority = (s₁.tcb t).heapPriority :=
    fun t ht => congrArg TCB.heapPriority (hinherits.others t ht)
  have hleast := hinherits.least
  simp only [waitingPriorities, ← hwaiting, hsame.heapPriority, (hsame task).1] at hleast
  simp only [hsame.heapPriority] at hother
  simp only [← hwaiting] at hlisted hpairs hnew
  refine { positive := ?_, atMost := ?_, listed := hlisted, lent := ?_ }
  · intro t
    rw [hpriority]
    exact hpositive t
  · intro t
    rw [hpriority, (hsame t).1]
    by_cases ht : t = task
    · rw [ht]
      exact hleast.2 (.inl rfl)
    · rw [hother t ht]
      exact h.atMost t
  · refine h.lent.lend (h.atMost task) hother ?_ hpairs hnew
    simpa only [exists_and_left] using hleast

/-- **A new waiter** lends its priority to the owner of the mutex. The tasks that the
owner waits for must be as urgent already. -/
theorem Lent.wait (h : Lent s lists) (hlists : s.Lists lists)
    (hwf : s.waitingTasksHashTableReasonAsKey.WF) {owner fuel : Nat} (howner : mutex ∈ lists owner)
    (habove : ∀ t m, m ∈ lists t → (m, owner) ∈ s.waiting →
      (s.tcb t).heapPriority ≤ (s.tcb s.currentTCB).heapPriority)
    (hs : (s.park mutex).updatePriorityInheritance fuel owner = some s') : Lent s' lists := by
  obtain ⟨hwf', hparks⟩ := park_waiting hwf mutex
  have hcases : ∀ m w, (m, w) ∈ (s.park mutex).waiting →
      (m, w) ∈ s.waiting ∨ (m = mutex ∧ w = s.currentTCB) := by
    intro m w hw
    rcases hparks with heq | heq
    · exact .inl (heq ▸ hw)
    · rw [heq, Multiset.mem_cons, Prod.mk.injEq] at hw
      exact hw.symm
  refine h.update (park_samePriorities s mutex) (hlists.same (park_sameLists s mutex)) hwf'
    ?_ (fun t m w ht hm hw => ⟨hm, (hcases m w hw).resolve_right ?_⟩) ?_ hs
  · intro m w hw
    rcases hcases m w hw with hold | ⟨rfl, -⟩
    · exact h.listed m w hold
    · exact ⟨owner, howner⟩
  · -- the new waiter waits for the owner and for nobody else
    rintro ⟨rfl, -⟩
    exact ht (hlists.task_unique hm howner)
  · intro m w hm hw
    rcases hcases m w hw with hold | ⟨-, rfl⟩
    · exact .inl ⟨hm, hold⟩
    · exact .inr fun t m' _ hm' hw' => habove t m' hm' hw'

/-- **A task that gives a mutex back** has what the others lend it. -/
theorem Lent.notify (h : Lent s lists) (hlists : s.Lists lists) (hparked : Parked s) {fuel : Nat}
    (hs : s.notifyCallback fuel mutex = some s') :
    Lent s' (Function.update lists s.currentTCB ((lists s.currentTCB).erase mutex)) := by
  have hwakes := s.wakeAll_wakes mutex
  obtain ⟨hparked₀, hwaiting₀⟩ := hparked.wakeAll mutex
  have hcurrent : (s.wakeAll mutex).currentTCB = s.currentTCB := by rw [hwakes.rest]
  have h₀ : Lent (s.wakeAll mutex) lists := by
    refine h.mono hwakes.samePriorities fun p hp => ?_
    rw [hwaiting₀] at hp
    exact (Multiset.mem_filter.mp hp).1
  rw [← hcurrent]
  rcases (hlists.same hwakes.sameLists).dropAcquired_cases hs with
    ⟨hnot, rfl⟩ | ⟨fuel', s₁, hlists₁, hrelinked, hs₁⟩
  · rw [List.erase_of_not_mem hnot, Function.update_eq_self]
    exact h₀
  · have hwaiting₁ : s₁.waiting = (s.wakeAll mutex).waiting := by
      rw [hrelinked.rest]
      rfl
    have hsame : SamePriorities (s.wakeAll mutex) s₁ := by
      intro t
      obtain ⟨acquired, ht⟩ := hrelinked.tcb t
      rw [ht]
      exact ⟨rfl, rfl⟩
    refine h₀.update hsame hlists₁ (by rw [hrelinked.rest]; exact hparked₀.wf) (fun m w hw => ?_)
      (fun t m w ht hm hw => ?_) (fun m w hm hw => .inl ?_) hs₁ <;> rw [hwaiting₁] at hw
    · -- nobody waits for the mutex any more, and the others are where they were
      have hne : m ≠ mutex := by
        rw [hwaiting₀] at hw
        simpa using (Multiset.mem_filter.mp hw).2
      obtain ⟨t, ht⟩ := h₀.listed m w hw
      refine ⟨t, ?_⟩
      by_cases htc : t = (s.wakeAll mutex).currentTCB
      · rw [htc, Function.update_self, List.mem_erase_of_ne hne]
        exact htc ▸ ht
      · rwa [Function.update_of_ne htc]
    · rw [Function.update_of_ne ht] at hm
      exact ⟨hm, hw⟩
    · rw [Function.update_self] at hm
      exact ⟨List.mem_of_mem_erase hm, hw⟩

end Sched

end DocetOS
