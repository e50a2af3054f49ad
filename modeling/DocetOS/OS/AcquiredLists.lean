import DocetOS.OS.Waiting
import DocetOS.Lib.ChainFamily

/-!
# The lists of acquired mutexes

A task's mutexes are linked through `nextAcquiredResource`, a field of the mutex,
from `acquiredResourcesLinkedList` of the task. `Lists s lists` says that the
mutexes `lists task` are linked from each task and that no mutex is in two lists.

`resourceAcquired_callback` pushes a mutex that is in no list
(`Lists.resourceAcquired`); the last part of `notifyCallback` takes one out of the
list of the current task (`Lists.dropAcquired`). Nothing else the scheduler does
touches the lists (`SameLists`).
-/

namespace DocetOS

namespace Sched

open Lib

variable {s s' s'' : Sched} {lists : Nat → List Nat}

/-- The mutex linked behind a mutex. -/
def nextAcquired (s : Sched) (mutex : Nat) : Option Nat :=
  toPtr (s.mutexes mutex).nextAcquiredResource

/-- The first mutex of a task. -/
def firstAcquired (s : Sched) (task : Nat) : Option Nat :=
  toPtr (s.tcb task).acquiredResourcesLinkedList

/-- The mutexes `lists task` are linked from every task, and no mutex is linked
twice. -/
def Lists (s : Sched) (lists : Nat → List Nat) : Prop :=
  ∀ tasks : Finset Nat, Family s.nextAcquired tasks s.firstAcquired (fun _ => none) lists

namespace Lists

theorem chain (h : s.Lists lists) (task : Nat) :
    Chain s.nextAcquired (s.firstAcquired task) (lists task) :=
  (h {task}).path task (Finset.mem_singleton_self task)

theorem task_unique (h : s.Lists lists) {task task' mutex : Nat} (hm : mutex ∈ lists task)
    (hm' : mutex ∈ lists task') : task = task' :=
  (h {task, task'}).index_unique (by simp) (by simp) hm hm'

/-- The links determine the lists. -/
theorem unique {lists' : Nat → List Nat} (h : s.Lists lists) (h' : s.Lists lists') :
    lists = lists' :=
  funext fun task => (h.chain task).unique (h'.chain task)

theorem congr (h : s.Lists lists) (hnext : s'.nextAcquired = s.nextAcquired)
    (hfirst : s'.firstAcquired = s.firstAcquired) : s'.Lists lists := by
  intro tasks
  rw [hnext, hfirst]
  exact h tasks

end Lists

/-! ## What leaves the lists alone -/

/-- No link of a list has changed. -/
structure SameLists (s s' : Sched) : Prop where
  acquired : ∀ task,
    (s'.tcb task).acquiredResourcesLinkedList = (s.tcb task).acquiredResourcesLinkedList
  next : ∀ mutex, (s'.mutexes mutex).nextAcquiredResource = (s.mutexes mutex).nextAcquiredResource

theorem SameLists.refl (s : Sched) : SameLists s s := ⟨fun _ => rfl, fun _ => rfl⟩

theorem SameLists.trans (h : SameLists s s') (h' : SameLists s' s'') : SameLists s s'' where
  acquired task := (h'.acquired task).trans (h.acquired task)
  next mutex := (h'.next mutex).trans (h.next mutex)

theorem Lists.same (h : s.Lists lists) (hsame : SameLists s s') : s'.Lists lists := by
  refine h.congr ?_ ?_
  · funext mutex
    exact congrArg toPtr (hsame.next mutex)
  · funext task
    exact congrArg toPtr (hsame.acquired task)

theorem sameLists_modifyTCB (task : Nat) {f : TCB → TCB}
    (hf : ∀ tcb, (f tcb).acquiredResourcesLinkedList = tcb.acquiredResourcesLinkedList) :
    SameLists s (s.modifyTCB task f) where
  acquired task' := by
    by_cases h : task' = task
    · subst h
      simpa [modifyTCB] using hf (s.tcb task')
    · simp [modifyTCB, h]
  next _ := rfl

theorem sameLists_modifyMutex (mutex : Nat) {f : Mutex → Mutex}
    (hf : ∀ m, (f m).nextAcquiredResource = m.nextAcquiredResource) :
    SameLists s (s.modifyMutex mutex f) where
  acquired _ := rfl
  next mutex' := by
    by_cases h : mutex' = mutex
    · subst h
      simpa [modifyMutex] using hf (s.mutexes mutex')
    · simp [modifyMutex, h]

theorem setInheritedPriority_sameLists (s : Sched) (task highestPriority : Nat)
    (isActiveAndInHeap : Bool) :
    SameLists s (s.setInheritedPriority task highestPriority isActiveAndInHeap) := by
  unfold setInheritedPriority
  split
  · exact sameLists_modifyTCB task fun _ => rfl
  · refine SameLists.trans ?_ (sameLists_modifyTCB task fun _ => rfl)
    split
    · exact ⟨fun _ => rfl, fun _ => rfl⟩
    · exact .refl s

theorem moveToInheritedPriority_sameLists (s : Sched) (task : Nat) (isActiveAndInHeap : Bool) :
    SameLists s (s.moveToInheritedPriority task isActiveAndInHeap) := by
  simp only [moveToInheritedPriority]
  split
  · exact ⟨fun _ => rfl, fun _ => rfl⟩
  · exact .refl s

/-- `__updatePriorityInheritance` only reads the list. -/
theorem updatePriorityInheritance_sameLists {fuel task : Nat}
    (h : s.updatePriorityInheritance fuel task = some s') : SameLists s s' := by
  simp only [updatePriorityInheritance, Option.bind_eq_bind, Option.bind_eq_some_iff,
    Option.pure_def, Option.some.injEq] at h
  obtain ⟨⟨table, highestPriority⟩, -, rfl⟩ := h
  have hlookups : SameLists s { s with
      waitingTasksHashTableReasonAsKey := table
      tasksInSchedulerHeapHashTable := (s.tasksInSchedulerHeapHashTable.get task).1 } :=
    ⟨fun _ => rfl, fun _ => rfl⟩
  exact hlookups.trans ((setInheritedPriority_sameLists _ task highestPriority _).trans
    (moveToInheritedPriority_sameLists _ task _))

theorem park_sameLists (s : Sched) (reason : Nat) : SameLists s (s.park reason) := by
  refine ⟨?_, fun _ => rfl⟩
  intro task
  rw [park_tcb]
  split <;> rfl

theorem waitCallback_sameLists {fuel reason checkCode isReasonMutex : Nat}
    (h : s.waitCallback fuel reason checkCode isReasonMutex = some s') : SameLists s s' := by
  simp only [waitCallback] at h
  split at h
  · cases h
    exact .refl s
  · split at h
    · exact (park_sameLists s reason).trans (updatePriorityInheritance_sameLists h)
    · cases h
      exact park_sameLists s reason

theorem Wakes.sameLists (h : Wakes s s') : SameLists s s' where
  acquired task := by
    rcases h.tcb task with ht | ht <;> rw [ht]
  next mutex := by rw [h.rest]

/-! ## Linking and unlinking a mutex -/

variable {mutex reason : Nat}

theorem firstAcquired_modifyMutex (m : Nat) (f : Mutex → Mutex) :
    (s.modifyMutex m f).firstAcquired = s.firstAcquired := rfl

theorem firstAcquired_modifyTCB (task v task' : Nat) :
    (s.modifyTCB task fun tcb =>
        { tcb with acquiredResourcesLinkedList := v }).firstAcquired task' =
      if task' = task then toPtr v else s.firstAcquired task' := by
  by_cases h : task' = task
  · subst h
    simp [firstAcquired, modifyTCB]
  · simp [firstAcquired, modifyTCB, h]

theorem nextAcquired_modifyMutex (m v m' : Nat) :
    (s.modifyMutex m fun mutex => { mutex with nextAcquiredResource := v }).nextAcquired m' =
      if m' = m then toPtr v else s.nextAcquired m' := by
  by_cases h : m' = m
  · subst h
    simp [nextAcquired, modifyMutex]
  · simp [nextAcquired, modifyMutex, h]

/-- A mutex that is in no list joins that of the current task. -/
theorem Lists.resourceAcquired (h : s.Lists lists) (hnull : mutex ≠ NULL)
    (hcurrent : s.currentTCB ≠ NULL) (hcounter : (s.mutexes mutex).counter = 0)
    (hnew : ∀ task, mutex ∉ lists task) :
    (s.resourceAcquired mutex).Lists
      (Function.update lists s.currentTCB (mutex :: lists s.currentTCB)) := by
  -- the code would not link a mutex that is the first one already
  have hfirst : mutex ≠ (s.tcb s.currentTCB).acquiredResourcesLinkedList := by
    intro heq
    have hchain := h.chain s.currentTCB
    rw [firstAcquired, ← heq, toPtr_of_ne hnull] at hchain
    cases hl : lists s.currentTCB with
    | nil =>
      rw [hl] at hchain
      cases hchain
    | cons a l =>
      rw [hl] at hchain
      obtain ⟨ha, -⟩ := Path.cons_iff.mp hchain
      cases ha
      exact hnew s.currentTCB (by simp [hl])
  have heq : s.resourceAcquired mutex =
      (s.modifyTCB s.currentTCB fun tcb =>
        { tcb with acquiredResourcesLinkedList := mutex }).modifyMutex mutex fun m =>
          { m with
              nextAcquiredResource := (s.tcb s.currentTCB).acquiredResourcesLinkedList } := by
    simp only [Sched.resourceAcquired, hcounter, hcurrent, ne_eq, not_true_eq_false, or_self,
      if_false, if_neg hfirst]
  rw [heq]
  intro tasks
  refine Family.mono ?_ (Finset.subset_insert s.currentTCB tasks)
  refine (h _).push (Finset.mem_insert_self _ _) (fun task _ => hnew task) ?_ ?_ ?_ ?_
  · rw [firstAcquired_modifyMutex, firstAcquired_modifyTCB, if_pos rfl, toPtr_of_ne hnull]
  · intro task _ hne
    rw [firstAcquired_modifyMutex, firstAcquired_modifyTCB, if_neg hne]
  · rw [nextAcquired_modifyMutex, if_pos rfl]
    rfl
  · intro task _ m hm
    rw [nextAcquired_modifyMutex, if_neg (ne_of_mem_of_not_mem hm (hnew task))]
    rfl

/-- The writes that unlink `mutex` behind the mutexes `l₁`. -/
theorem Lists.unlink (h : s.Lists lists) {l₁ l₂ : List Nat} {prevAcquiredMutex : Nat}
    (hl : lists s.currentTCB = l₁ ++ mutex :: l₂)
    (hprev : toPtr prevAcquiredMutex = l₁.getLast?) :
    (((if prevAcquiredMutex ≠ NULL then
        s.modifyMutex prevAcquiredMutex fun m =>
          { m with nextAcquiredResource := (s.mutexes mutex).nextAcquiredResource }
      else
        s.modifyTCB s.currentTCB fun tcb =>
          { tcb with
              acquiredResourcesLinkedList := (s.mutexes mutex).nextAcquiredResource }).modifyMutex
        mutex fun m => { m with nextAcquiredResource := NULL }).Lists
      (Function.update lists s.currentTCB (l₁ ++ l₂))) := by
  have hnodup : (l₁ ++ mutex :: l₂).Nodup := hl ▸ (h.chain s.currentTCB).nodup
  have hnot : mutex ∉ l₁ := fun hm =>
    List.disjoint_of_nodup_append hnodup hm List.mem_cons_self
  intro tasks
  refine Family.mono ?_ (Finset.subset_insert s.currentTCB tasks)
  refine (h _).unlink (Finset.mem_insert_self _ _) hl ?_ ?_ ?_ ?_
  · split
    · rename_i hne
      rw [toPtr_of_ne hne] at hprev
      rw [if_neg (by rintro rfl; cases hprev)]
      rfl
    · -- the mutex is the first one: the TCB takes over its link
      rename_i hnull
      push Not at hnull
      rw [hnull, toPtr_null, eq_comm, List.getLast?_eq_none_iff] at hprev
      rw [if_pos hprev]
      rw [firstAcquired_modifyMutex, firstAcquired_modifyTCB, if_pos rfl]
      rfl
  · intro task _ hne
    split
    · rfl
    · rw [firstAcquired_modifyMutex, firstAcquired_modifyTCB, if_neg hne]
  · -- the mutex in front takes over the link
    intro b hb
    obtain rfl := eq_of_toPtr (hprev.trans hb)
    have hbl := List.mem_of_getLast? hb
    have hne : prevAcquiredMutex ≠ NULL := by
      rintro rfl
      cases hprev.trans hb
    rw [nextAcquired_modifyMutex, if_neg (ne_of_mem_of_not_mem hbl hnot), if_pos hne,
      nextAcquired_modifyMutex, if_pos rfl]
    rfl
  · intro task _ a _ hne hlast
    -- no other link changes
    rw [nextAcquired_modifyMutex, if_neg hne]
    split
    · rename_i hprevne
      rw [nextAcquired_modifyMutex, if_neg]
      rintro rfl
      exact hlast (hprev.symm.trans (toPtr_of_ne hprevne))
    · rfl

/-- Only links have changed. -/
structure Relinked (s s' : Sched) : Prop where
  rest : s' = { s with
    tcb := s'.tcb
    mutexes := s'.mutexes }
  tcb : ∀ task, ∃ acquired,
    s'.tcb task = { s.tcb task with acquiredResourcesLinkedList := acquired }

theorem Relinked.currentTCB (h : Relinked s s') : s'.currentTCB = s.currentTCB := by
  rw [h.rest]

theorem relinked_unlink (s : Sched) (prevAcquiredMutex mutex next : Nat) :
    Relinked s ((if prevAcquiredMutex ≠ NULL then
        s.modifyMutex prevAcquiredMutex fun m => { m with nextAcquiredResource := next }
      else
        s.modifyTCB s.currentTCB fun tcb =>
          { tcb with acquiredResourcesLinkedList := next }).modifyMutex
        mutex fun m => { m with nextAcquiredResource := NULL }) := by
  split
  · exact ⟨rfl, fun _ => ⟨_, rfl⟩⟩
  · refine ⟨rfl, ?_⟩
    intro task
    by_cases ht : task = s.currentTCB
    · subst ht
      exact ⟨next, by simp [modifyTCB, modifyMutex]⟩
    · exact ⟨_, by simp only [modifyTCB, modifyMutex, Function.update_of_ne ht]; rfl⟩

/-- The walk of `notifyCallback` behind the mutexes `l₁`, none of which is the
reason: it unlinks the reason, or does not find it. -/
theorem Lists.dropAcquired_behind (h : s.Lists lists) {fuel : Nat} {l₁ l₂ : List Nat}
    {prevAcquiredMutex acquiredMutex : Nat} (hl : lists s.currentTCB = l₁ ++ l₂)
    (hprev : toPtr prevAcquiredMutex = l₁.getLast?)
    (hchain : Chain s.nextAcquired (toPtr acquiredMutex) l₂) (hnot : reason ∉ l₁)
    (hs : dropAcquired reason fuel s prevAcquiredMutex acquiredMutex = some s') :
    (reason ∉ l₂ ∧ s' = s) ∨
      ∃ fuel' s₁, s₁.Lists (Function.update lists s.currentTCB (l₁ ++ l₂.erase reason)) ∧
        Relinked s s₁ ∧ s₁.updatePriorityInheritance fuel' s.currentTCB = some s' := by
  -- on what is left of the list; `l₁` is what the walk has passed
  induction l₂ generalizing l₁ prevAcquiredMutex acquiredMutex fuel with
  | nil =>
    cases fuel with
    | zero => cases hs
    | succ fuel =>
      have hnull : acquiredMutex = NULL := by
        by_contra hne
        rw [toPtr_of_ne hne] at hchain
        cases hchain
      simp only [dropAcquired, if_pos hnull, Option.some.injEq] at hs
      exact .inl ⟨List.not_mem_nil, hs.symm⟩
  | cons mutex l₂ ih =>
    cases fuel with
    | zero => cases hs
    | succ fuel =>
      obtain ⟨hfirst, hrest⟩ := Path.cons_iff.mp hchain
      obtain rfl := eq_of_toPtr hfirst
      have hne : acquiredMutex ≠ NULL := by
        rintro rfl
        cases hfirst
      simp only [dropAcquired, if_neg hne] at hs
      by_cases hreason : acquiredMutex = reason
      · subst hreason
        rw [if_pos rfl] at hs
        rw [List.erase_cons_head]
        have hrelinked := relinked_unlink s prevAcquiredMutex acquiredMutex
          (s.mutexes acquiredMutex).nextAcquiredResource
        refine .inr ⟨fuel, _, h.unlink hl hprev, hrelinked, ?_⟩
        rw [hrelinked.currentTCB] at hs
        exact hs
      · -- not the reason: the walk passes it
        rw [if_neg hreason] at hs
        have hlast : toPtr acquiredMutex = (l₁ ++ [acquiredMutex]).getLast? := by
          rw [toPtr_of_ne hne, List.getLast?_concat]
        have hl' : lists s.currentTCB = (l₁ ++ [acquiredMutex]) ++ l₂ := by simpa using hl
        have hnot' : reason ∉ l₁ ++ [acquiredMutex] := by
          simpa [hnot] using fun heq => hreason heq.symm
        rcases ih hl' hlast hrest hnot' hs with ⟨hnone, heq⟩ | ⟨fuel', s₁, hlists, hs₁⟩
        · refine .inl ⟨?_, heq⟩
          rw [List.mem_cons, not_or]
          exact ⟨Ne.symm hreason, hnone⟩
        · rw [List.append_assoc, List.singleton_append] at hlists
          rw [List.erase_cons_tail (by simpa using hreason)]
          exact .inr ⟨fuel', s₁, hlists, hs₁⟩

theorem Lists.dropAcquired_cases (h : s.Lists lists) {fuel : Nat}
    (hs : dropAcquired reason fuel s NULL (s.tcb s.currentTCB).acquiredResourcesLinkedList =
      some s') :
    (reason ∉ lists s.currentTCB ∧ s' = s) ∨
      ∃ fuel' s₁, s₁.Lists
          (Function.update lists s.currentTCB ((lists s.currentTCB).erase reason)) ∧
        Relinked s s₁ ∧ s₁.updatePriorityInheritance fuel' s.currentTCB = some s' := by
  have hl : lists s.currentTCB = [] ++ lists s.currentTCB := rfl
  exact h.dropAcquired_behind hl rfl (h.chain s.currentTCB) List.not_mem_nil hs

/-- The mutex leaves the list of the current task. -/
theorem Lists.dropAcquired (h : s.Lists lists) {fuel : Nat}
    (hs : dropAcquired reason fuel s NULL (s.tcb s.currentTCB).acquiredResourcesLinkedList =
      some s') :
    s'.Lists (Function.update lists s.currentTCB ((lists s.currentTCB).erase reason)) := by
  rcases h.dropAcquired_cases hs with ⟨hnone, rfl⟩ | ⟨fuel', s₁, hlists, -, hs₁⟩
  · rw [List.erase_of_not_mem hnone, Function.update_eq_self]
    exact h
  · exact hlists.same (updatePriorityInheritance_sameLists hs₁)

end Sched

end DocetOS
