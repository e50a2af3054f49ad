import DocetOS.DataStructures.HashtableZeroed
import DocetOS.OS.Integrity
import DocetOS.OS.RolloverCalls

/-!
# The pass over the sleeping tasks after a tick rollover

The loop of `stochasticScheduler_scheduler` that updates the sleeping tasks makes the
calls of `RolloverPass.calls`: it always ends, and whatever `__updateSleepState` does
to the table under it shows in the order of the calls only (`SleepersListed.pass`).
So it updates every sleeper once iff no sleeper is due, or the table is full and the
only sleeper that is due is the last one of its bucket (`updatesEverySleeper_iff`).

It needs that the table was made in zeroed memory and lists tasks that sleep, as it
does in every run in which the tasks leave the sleep bits alone
(`reach_sleepersListed`).
-/

namespace DocetOS

open Lib Hashtable

namespace Sched

/-! ## The calls of the loop -/

/-- The time that the task still had to sleep at the last call has elapsed. -/
def Due (s : Sched) (task : Nat) : Prop :=
  (s.tcb task).data2 ≤ elapsedTicks (s.tcb task).data s.ticks

instance (s : Sched) : DecidablePred s.Due := fun task =>
  inferInstanceAs (Decidable ((s.tcb task).data2 ≤ elapsedTicks (s.tcb task).data s.ticks))

/-- The tasks `updateBucket` calls `__updateSleepState` for, each with its sleep bit
at the call. -/
def bucketCalls : Nat → Sched → Option Nat → Option (List (Nat × Bool))
  | 0, _, _ => none
  | _ + 1, _, none => some []
  | fuel + 1, s, some element =>
    let task := (s.sleepingTasksHashTable.values element).underlyingData
    let s' := (s.updateSleepState task).1
    (bucketCalls fuel s' (s'.sleepingTasksHashTable.values element).nextHashtableValue).map
      ((task, (s.tcb task).state.sleep) :: ·)

/-- The tasks `updateBuckets` calls `__updateSleepState` for. -/
def passCalls (fuel : Nat) : Nat → Nat → Sched → Option (List (Nat × Bool))
  | 0, _, _ => some []
  | n + 1, bucketInd, s => do
    let (table, element) := s.sleepingTasksHashTable.getFirstElementOfNthBucket bucketInd
    let s := { s with sleepingTasksHashTable := table }
    let calls ← bucketCalls fuel s element
    let s ← updateBucket fuel s element
    let later ← passCalls fuel n (bucketInd + 1) s
    return calls ++ later

/-- The loop ends; it has called `__updateSleepState` exactly once for each task in
`sleepingTasksHashTable`, and only for tasks that slept, never for `NULL`. -/
def UpdatesEverySleeper (s : Sched) : Prop :=
  ∃ bound, ∀ fuel ≥ bound, ∃ s' calls,
    updateBuckets fuel s.sleepingTasksHashTable.numberOfBuckets 0 s = some s' ∧
      passCalls fuel s.sleepingTasksHashTable.numberOfBuckets 0 s = some calls ∧
      (∀ p ∈ s.sleepingTasksHashTable.content, (calls.map Prod.fst).count p.2 = 1) ∧
      ∀ call ∈ calls, call.1 ≠ NULL ∧ call.2 = true

/-! ## One call -/

/-- One round of the loop over a bucket. -/
theorem bucket_round {s : Sched} {n task : Nat} (fuel : Nat)
    (hdata : (s.sleepingTasksHashTable.values n).underlyingData = task) :
    updateBucket (fuel + 1) s (some n) =
        updateBucket fuel (s.updateSleepState task).1
          ((s.updateSleepState task).1.sleepingTasksHashTable.next n) ∧
      bucketCalls (fuel + 1) s (some n) =
        (bucketCalls fuel (s.updateSleepState task).1
          ((s.updateSleepState task).1.sleepingTasksHashTable.next n)).map
            ((task, (s.tcb task).state.sleep) :: ·) := by
  subst hdata
  exact ⟨rfl, rfl⟩

/-- Only the TCBs of `tasks` have changed, and the time is the same. -/
structure Frame (tasks : List Nat) (s s' : Sched) : Prop where
  ticks : s'.ticks = s.ticks
  tcb : ∀ t ∉ tasks, s'.tcb t = s.tcb t

namespace Frame

variable {tasks tasks' : List Nat} {s s' s'' : Sched}

theorem refl (s : Sched) : Frame [] s s := ⟨rfl, fun _ _ => rfl⟩

theorem trans (h : Frame tasks s s') (h' : Frame tasks' s' s'') :
    Frame (tasks ++ tasks') s s'' where
  ticks := h'.ticks.trans h.ticks
  tcb t ht := by
    rw [List.mem_append, not_or] at ht
    rw [h'.tcb t ht.2, h.tcb t ht.1]

theorem due_iff (h : Frame tasks s s') {task : Nat} (ht : task ∉ tasks) :
    s'.Due task ↔ s.Due task := by
  unfold Due
  rw [h.tcb task ht, h.ticks]

end Frame

theorem wakeSleeper_frame (s : Sched) (task : Nat) :
    Frame [task] s (s.wakeSleeper task) ∧
      (s.wakeSleeper task).sleepingTasksHashTable =
        (s.sleepingTasksHashTable.remove task).1 := by
  refine ⟨⟨wakeSleeper_ticks s task, ?_⟩, ?_⟩
  · intro t ht
    rw [List.mem_singleton] at ht
    simp only [wakeSleeper, modifyTCB_tcb, if_neg ht]
    rw [returnToSchedulerHeap_rest]
    simp only [modifyTCB_tcb, if_neg ht]
  · simp only [wakeSleeper, modifyTCB]
    rw [returnToSchedulerHeap_rest]

/-- `__updateSleepState` changes its own task only, and takes it out of
`sleepingTasksHashTable` if it slept and is due. -/
theorem updateSleepState_frame (s : Sched) (task : Nat) :
    Frame [task] s (s.updateSleepState task).1 ∧
      (s.updateSleepState task).1.sleepingTasksHashTable =
        if (s.tcb task).state.sleep = true ∧ s.Due task then
          (s.sleepingTasksHashTable.remove task).1
        else s.sleepingTasksHashTable := by
  cases hsleep : (s.tcb task).state.sleep with
  | false =>
    rw [updateSleepState_awake hsleep, if_neg (by simp)]
    exact ⟨⟨rfl, fun _ _ => rfl⟩, rfl⟩
  | true =>
    rcases updateSleepState_sleeping hsleep with ⟨hdue, hs⟩ | ⟨hnot, hs⟩
    · rw [hs, if_pos ⟨rfl, hdue⟩]
      obtain ⟨hframe, htable⟩ := wakeSleeper_frame (s.noteRollover task) task
      exact ⟨⟨hframe.ticks, hframe.tcb⟩, htable⟩
    · rw [hs, if_neg fun h => absurd h.2 (Nat.not_le.mpr hnot)]
      refine ⟨⟨rfl, ?_⟩, rfl⟩
      intro t ht
      rw [List.mem_singleton] at ht
      simp only [keepAsleep, modifyTCB_tcb, if_neg ht]
      rfl

/-! ## Along the free list -/

/-- The tables agree but for the flag. -/
def SameTable (s s' : Sched) : Prop :=
  ∃ flag, s'.sleepingTasksHashTable = { s.sleepingTasksHashTable with validValueFlag := flag }

/-- A call for `NULL` finds no struct to remove. -/
theorem updateSleepState_null {s : Sched} (hwf : s.sleepingTasksHashTable.WF)
    (hnull : ∀ w, (NULL, w) ∉ s.sleepingTasksHashTable.content) :
    SameTable s (s.updateSleepState NULL).1 := by
  obtain ⟨-, htable⟩ := updateSleepState_frame s NULL
  split at htable
  · rw [remove_of_not_mem hwf hnull] at htable
    exact ⟨0, htable⟩
  · exact ⟨s.sleepingTasksHashTable.validValueFlag, htable⟩

/-- Along the free list the loop calls `__updateSleepState(NULL)` for each struct. -/
theorem bucketCalls_free {s : Sched} {fuel : Nat} {p : Option Nat} {free : List Nat}
    (hwf : s.sleepingTasksHashTable.WF)
    (hnull : ∀ w, (NULL, w) ∉ s.sleepingTasksHashTable.content)
    (hchain : Chain s.sleepingTasksHashTable.next p free)
    (hzero : ∀ n ∈ free, (s.sleepingTasksHashTable.values n).underlyingData = NULL)
    (hfuel : free.length < fuel) :
    ∃ s' calls, updateBucket fuel s p = some s' ∧ bucketCalls fuel s p = some calls ∧
      calls.map Prod.fst = List.replicate free.length NULL ∧ SameTable s s' ∧
      Frame (List.replicate free.length NULL) s s' := by
  induction free generalizing s fuel p with
  | nil =>
    obtain ⟨fuel, rfl⟩ := Nat.exists_eq_succ_of_ne_zero (Nat.ne_of_gt hfuel)
    obtain rfl := Path.nil_iff.mp hchain
    exact ⟨s, [], rfl, rfl, rfl, ⟨_, rfl⟩, .refl s⟩
  | cons n free ih =>
    obtain ⟨fuel, rfl⟩ := Nat.exists_eq_succ_of_ne_zero (Nat.ne_zero_of_lt hfuel)
    obtain ⟨rfl, htail⟩ := Path.cons_iff.mp hchain
    -- a free struct holds `NULL`, and the call for it changes no list
    obtain ⟨hround, hcall⟩ := bucket_round fuel (hzero n List.mem_cons_self)
    obtain ⟨hframe, -⟩ := updateSleepState_frame s NULL
    obtain ⟨flag, htable⟩ := updateSleepState_null hwf hnull
    obtain ⟨s', calls, hs', hcalls, hmap, ⟨flag', htable'⟩, hframe'⟩ := ih
      (s := (s.updateSleepState NULL).1)
      (p := (s.updateSleepState NULL).1.sleepingTasksHashTable.next n)
      (by rw [htable]; exact hwf.setFlag flag) (by rw [htable]; exact hnull)
      (by rw [htable]; exact htail)
      (by rw [htable]; exact fun m hm => hzero m (List.mem_cons_of_mem _ hm))
      (Nat.lt_of_succ_lt_succ hfuel)
    refine ⟨s', (NULL, (s.tcb NULL).state.sleep) :: calls, ?_, ?_, ?_, ⟨flag', ?_⟩, ?_⟩
    · rw [hround, hs']
    · rw [hcall, hcalls, Option.map_some]
    · rw [List.map_cons, hmap, List.length_cons, List.replicate_succ]
    · rw [htable', htable]
    · exact hframe.trans hframe'

/-! ## Along a bucket -/

/-- What is stored in `sleepingTasksHashTable`: every task once and under its own
address. -/
structure TasksOnly (t : Hashtable) : Prop where
  once : (t.content.map Prod.fst).Nodup
  task : ∀ p ∈ t.content, p.2 = p.1 ∧ p.1 ≠ NULL

namespace TasksOnly

variable {t t' : Hashtable} {chains : Nat → List Nat} {free : List Nat} {b n : Nat}

theorem of_le (h : TasksOnly t) (hle : t'.content ≤ t.content) : TasksOnly t' where
  once := Multiset.nodup_of_le (Multiset.map_le_map hle) h.once
  task p hp := h.task p (Multiset.mem_of_le hle hp)

theorem null_not_mem (h : TasksOnly t) (w : Nat) : (NULL, w) ∉ t.content := fun hmem =>
  (h.task _ hmem).2 rfl

theorem data_eq (h : TasksOnly t) (hrep : Rep t chains free) (hb : b < t.numberOfBuckets)
    (hn : n ∈ chains b) :
    (t.values n).underlyingData = (t.values n).key ∧ (t.values n).key ≠ NULL :=
  h.task _ (hrep.entry_mem hb hn)

/-- The tasks of a bucket are different. -/
theorem bucket_nodup (h : TasksOnly t) (hrep : Rep t chains free) (hb : b < t.numberOfBuckets) :
    ((chains b).map fun n => (t.values n).key).Nodup := by
  have hle := Multiset.map_le_map (f := Prod.fst) (Multiset.map_le_map (f := t.entry)
    (coe_le_sum (Finset.mem_range.mpr hb) chains))
  rw [← hrep.content_eq] at hle
  have hnodup := Multiset.nodup_of_le hle h.once
  rw [Multiset.map_map, Multiset.map_coe, Multiset.coe_nodup] at hnodup
  exact hnodup

end TasksOnly

/-- The table after a walk along bucket `b`: at most one struct of the bucket has
been freed, and the other buckets are what they were. -/
structure Walked (b : Nat) (t : Hashtable) (chains : Nat → List Nat) (t' : Hashtable)
    (chains' : Nat → List Nat) (free' : List Nat) : Prop where
  rep : ZeroedRep t' chains' free'
  buckets : t'.numberOfBuckets = t.numberOfBuckets
  capacity : t'.maximumCapacity = t.maximumCapacity
  content : t'.content ≤ t.content
  others : ∀ b' < t.numberOfBuckets, b' ≠ b →
    chains' b' = chains b' ∧ ∀ n ∈ chains b', t'.entry n = t.entry n

/-- Unlinking a struct of bucket `b`. -/
theorem Walked.unlink {b x flag : Nat} {t : Hashtable} {chains : Nat → List Nat}
    {free l₁ l₂ : List Nat} (h : ZeroedRep t chains free) (hb : b < t.numberOfBuckets)
    (hl : chains b = l₁ ++ x :: l₂) :
    Walked b t chains { t.unlink b l₁.getLast? x with validValueFlag := flag }
      (Function.update chains b (l₁ ++ l₂)) (x :: free) where
  rep := (h.unlink hb hl).setFlag flag
  buckets := rfl
  capacity := rfl
  content := h.toRep.unlink_content_le hb hl
  others b' hb' hne := by
    refine ⟨Function.update_of_ne hne _ _, fun m hm => unlink_entry_of_ne (b := b) ?_⟩
    rintro rfl
    exact hne (h.bucket_unique hb' hb hm (by rw [hl]; simp))

/-- The struct `n` of a task that is due goes to the front of the free list, and the
walk along with it. -/
theorem bucketCalls_of_due {s : Sched} {fuel b n task : Nat} {chains : Nat → List Nat}
    {free visited todo : List Nat} (h : ZeroedRep s.sleepingTasksHashTable chains free)
    (htasks : TasksOnly s.sleepingTasksHashTable)
    (hb : b < s.sleepingTasksHashTable.numberOfBuckets)
    (hsplit : chains b = visited ++ n :: todo)
    (htask : (s.sleepingTasksHashTable.values n).key = task)
    (hasleep : (s.tcb task).state.sleep = true) (hdue : s.Due task)
    (hfuel : free.length < fuel) :
    ∃ s' calls chains', updateBucket (fuel + 1) s (some n) = some s' ∧
      bucketCalls (fuel + 1) s (some n) = some calls ∧
      calls.map Prod.fst = task :: List.replicate free.length NULL ∧
      (∀ call ∈ calls, call.1 ≠ NULL → call.2 = true) ∧
      Frame (calls.map Prod.fst) s s' ∧
      Walked b s.sleepingTasksHashTable chains s'.sleepingTasksHashTable chains' (n :: free) := by
  have hn : n ∈ chains b := by rw [hsplit]; simp
  have hbucket := h.hashed b hb n hn
  obtain ⟨hdata, -⟩ := htasks.data_eq h.toRep hb hn
  have hnodup := htasks.bucket_nodup h.toRep hb
  rw [htask] at hbucket hdata
  rw [hsplit, List.map_append, List.map_cons, List.nodup_middle, List.nodup_cons, htask] at hnodup
  -- no task is twice in a bucket, so the removal finds the struct `n`
  have hfirst : ∀ m ∈ visited, (s.sleepingTasksHashTable.values m).key ≠ task := by
    rintro m hm rfl
    exact hnodup.1 (List.mem_append_left _
      (List.mem_map_of_mem (f := fun n => (s.sleepingTasksHashTable.values n).key) hm))
  obtain ⟨hround, hcall⟩ := bucket_round fuel hdata
  obtain ⟨hframe, htable⟩ := updateSleepState_frame s task
  rw [if_pos ⟨hasleep, hdue⟩,
    h.toRep.remove_eq (hbucket.symm ▸ hsplit) hfirst htask, hbucket] at htable
  dsimp only at htable
  have hunlinked := h.unlink hb hsplit
  have hle := h.toRep.unlink_content_le hb hsplit
  rw [← htable] at hunlinked hle
  -- the next struct that the walk comes to is the first of the free list
  obtain ⟨s', calls, hs', hcalls, hmap, ⟨flag, hflag⟩, hframe'⟩ := bucketCalls_free
    (s := (s.updateSleepState task).1) ⟨_, _, hunlinked.toRep⟩
    (htasks.of_le hle).null_not_mem (Path.cons_iff.mp hunlinked.freeChain).2
    (fun m hm => hunlinked.zero m (List.mem_cons_of_mem _ hm)) hfuel
  refine ⟨s', (task, true) :: calls, Function.update chains b (visited ++ todo),
    ?_, ?_, ?_, ?_, ?_, ?_⟩
  · rw [hround, hs']
  · rw [hcall, hcalls, hasleep, Option.map_some]
  · rw [List.map_cons, hmap]
  · refine List.forall_mem_cons.mpr ⟨fun _ => rfl, fun call hcall hne => absurd ?_ hne⟩
    have hmem := List.mem_map_of_mem (f := Prod.fst) hcall
    rw [hmap] at hmem
    exact List.eq_of_mem_replicate hmem
  · rw [List.map_cons, hmap]
    exact hframe.trans hframe'
  · rw [hflag, htable]
    exact .unlink h hb hsplit

/-- A walk along the rest `todo` of bucket `b`. -/
theorem bucketCalls_eq {due : Nat → Prop} [DecidablePred due] {s : Sched} {fuel b : Nat}
    {p : Option Nat} {chains : Nat → List Nat} {free todo : List Nat}
    (h : ZeroedRep s.sleepingTasksHashTable chains free)
    (htasks : TasksOnly s.sleepingTasksHashTable)
    (hb : b < s.sleepingTasksHashTable.numberOfBuckets)
    (hsplit : ∃ visited, chains b = visited ++ todo)
    (hchain : Chain s.sleepingTasksHashTable.next p todo)
    (htodo : ∀ n ∈ todo,
      (s.tcb (s.sleepingTasksHashTable.values n).key).state.sleep = true ∧
        (due (s.sleepingTasksHashTable.values n).key ↔
          s.Due (s.sleepingTasksHashTable.values n).key))
    (hfuel : todo.length + free.length < fuel) :
    ∃ s' calls chains' free', updateBucket fuel s p = some s' ∧
      bucketCalls fuel s p = some calls ∧
      calls.map Prod.fst = RolloverPass.bucketCalls due free.length
        (todo.map fun n => (s.sleepingTasksHashTable.values n).key) ∧
      (∀ call ∈ calls, call.1 ≠ NULL → call.2 = true) ∧
      Frame (calls.map Prod.fst) s s' ∧
      Walked b s.sleepingTasksHashTable chains s'.sleepingTasksHashTable chains' free' ∧
      free'.length = RolloverPass.freeAfter due free.length
        (todo.map fun n => (s.sleepingTasksHashTable.values n).key) := by
  induction todo generalizing s fuel p with
  | nil =>
    obtain ⟨fuel, rfl⟩ := Nat.exists_eq_succ_of_ne_zero (Nat.ne_zero_of_lt hfuel)
    obtain rfl := Path.nil_iff.mp hchain
    exact ⟨s, [], chains, free, rfl, rfl, rfl, by simp, .refl s,
      ⟨h, rfl, rfl, le_rfl, fun _ _ _ => ⟨rfl, fun _ _ => rfl⟩⟩,
      (RolloverPass.freeAfter_of_none (by simp)).symm⟩
  | cons n todo ih =>
    obtain ⟨fuel, rfl⟩ := Nat.exists_eq_succ_of_ne_zero (Nat.ne_zero_of_lt hfuel)
    have hlt : todo.length + free.length < fuel := by
      rw [List.length_cons] at hfuel
      omega
    obtain ⟨visited, hsplit⟩ := hsplit
    obtain ⟨rfl, htail⟩ := Path.cons_iff.mp hchain
    have hn : n ∈ chains b := by rw [hsplit]; simp
    obtain ⟨hdata, -⟩ := htasks.data_eq h.toRep hb hn
    have hnodup := htasks.bucket_nodup h.toRep hb
    obtain ⟨⟨hasleep, hdue⟩, htodo⟩ := List.forall_mem_cons.mp htodo
    rw [hsplit, List.map_append, List.map_cons] at hnodup
    generalize htask : (s.sleepingTasksHashTable.values n).key = task at *
    obtain ⟨hround, hcall⟩ := bucket_round fuel hdata
    obtain ⟨hframe, htable⟩ := updateSleepState_frame s task
    -- a due task takes its own cell out, and the walk leaves the bucket for the free list
    by_cases hcase : due task
    · obtain ⟨s', calls, chains', hs', hcalls, hmap, hslept, hframe', hwalked⟩ :=
        bucketCalls_of_due h htasks hb hsplit htask hasleep (hdue.mp hcase)
          (Nat.lt_of_le_of_lt (Nat.le_add_left _ _) hlt)
      refine ⟨s', calls, chains', n :: free, hs', hcalls, ?_, hslept, hframe', hwalked, ?_⟩
      · rw [hmap, List.map_cons, RolloverPass.bucketCalls, htask, if_pos hcase]
      · have hmem : task ∈ (n :: todo).map fun n => (s.sleepingTasksHashTable.values n).key := by
          rw [List.map_cons, htask]
          exact List.mem_cons_self
        rw [RolloverPass.freeAfter_of_due hmem hcase, List.length_cons]
    · -- the task sleeps on, and the walk goes on along the bucket
      rw [if_neg fun hand => hcase (hdue.mpr hand.2)] at htable
      have hother : ∀ m ∈ todo, (s.sleepingTasksHashTable.values m).key ∉ [task] := by
        intro m hm hmem
        rw [List.nodup_middle, List.nodup_cons] at hnodup
        rw [← List.mem_singleton.mp hmem] at hnodup
        exact hnodup.1 (List.mem_append_right _
          (List.mem_map_of_mem (f := fun n => (s.sleepingTasksHashTable.values n).key) hm))
      obtain ⟨s', calls, chains', free', hs', hcalls, hmap, hslept, hframe', hwalked, hfree⟩ := ih
        (s := (s.updateSleepState task).1)
        (p := (s.updateSleepState task).1.sleepingTasksHashTable.next n)
        (by rw [htable]; exact h) (by rw [htable]; exact htasks) (by rw [htable]; exact hb)
        ⟨visited ++ [n], by rw [hsplit, List.append_assoc, List.singleton_append]⟩
        (by rw [htable]; exact htail)
        (fun m hm => by
          rw [htable, hframe.tcb _ (hother m hm), hframe.due_iff (hother m hm)]
          exact htodo m hm)
        hlt
      rw [htable] at hmap hwalked hfree
      refine ⟨s', (task, true) :: calls, chains', free', ?_, ?_, ?_,
        List.forall_mem_cons.mpr ⟨fun _ => rfl, hslept⟩, hframe.trans hframe', hwalked, ?_⟩
      · rw [hround, hs']
      · rw [hcall, hcalls, hasleep, Option.map_some]
      · simp only [List.map_cons, hmap, RolloverPass.bucketCalls, htask, if_neg hcase]
      · rw [hfree, List.map_cons, htask, RolloverPass.freeAfter_cons_of_not hcase]

/-! ## The whole pass -/

theorem passCalls_eq {due : Nat → Prop} [DecidablePred due] {s : Sched} {fuel n b : Nat}
    {chains : Nat → List Nat} {free : List Nat}
    (h : ZeroedRep s.sleepingTasksHashTable chains free)
    (htasks : TasksOnly s.sleepingTasksHashTable)
    (hn : b + n = s.sleepingTasksHashTable.numberOfBuckets)
    (hsleepers : ∀ b' < s.sleepingTasksHashTable.numberOfBuckets, b ≤ b' → ∀ m ∈ chains b',
      (s.tcb (s.sleepingTasksHashTable.values m).key).state.sleep = true ∧
        (due (s.sleepingTasksHashTable.values m).key ↔
          s.Due (s.sleepingTasksHashTable.values m).key))
    (hfuel : s.sleepingTasksHashTable.maximumCapacity < fuel) :
    ∃ s' calls, updateBuckets fuel n b s = some s' ∧ passCalls fuel n b s = some calls ∧
      calls.map Prod.fst = RolloverPass.calls due free.length ((List.range' b n).map fun b =>
        (chains b).map fun m => (s.sleepingTasksHashTable.values m).key) ∧
      ∀ call ∈ calls, call.1 ≠ NULL → call.2 = true := by
  induction n generalizing s b chains free with
  | zero => exact ⟨s, [], rfl, rfl, rfl, by simp⟩
  | succ n ih =>
    have hb : b < s.sleepingTasksHashTable.numberOfBuckets := by omega
    have hrest : b + 1 + n = s.sleepingTasksHashTable.numberOfBuckets := by omega
    obtain ⟨flag, hfirst⟩ := getFirstElementOfNthBucket_of_lt hb
    obtain ⟨s₁, calls, chains', free', hs₁, hcalls, hmap, hslept, hframe, hwalked, hfree⟩ :=
      bucketCalls_eq (b := b) (s := { s with
          sleepingTasksHashTable := { s.sleepingTasksHashTable with validValueFlag := flag } })
        (h.setFlag flag) ⟨htasks.once, htasks.task⟩ hb ⟨[], rfl⟩ (h.toRep.chain hb)
        (hsleepers b hb le_rfl) (Nat.lt_of_le_of_lt (h.toRep.chain_add_free_length hb) hfuel)
    -- the calls so far were for tasks of this bucket, so the later ones are as they were
    have hlater : ∀ b' < s.sleepingTasksHashTable.numberOfBuckets, b + 1 ≤ b' →
        chains' b' = chains b' ∧ ∀ m ∈ chains b',
          (s₁.sleepingTasksHashTable.values m).key = (s.sleepingTasksHashTable.values m).key ∧
            (s.sleepingTasksHashTable.values m).key ∉ calls.map Prod.fst := by
      intro b' hb' hlt
      obtain ⟨hchain, hentry⟩ := hwalked.others b' hb' (by omega)
      refine ⟨hchain, fun m hm => ⟨congrArg Prod.fst (hentry m hm), ?_⟩⟩
      intro hmem
      rw [hmap] at hmem
      rcases RolloverPass.mem_of_mem_bucketCalls hmem with hnull | hmem
      · exact (htasks.data_eq h.toRep hb' hm).2 hnull
      · obtain ⟨m', hm', hkey⟩ := List.mem_map.mp hmem
        have hbucket := h.hashed b' hb' m hm
        rw [← hkey] at hbucket
        have := (h.hashed b hb m' hm').symm.trans hbucket
        omega
    obtain ⟨s', later, hs', hlaterCalls, hmap', hslept'⟩ := ih (s := s₁) (b := b + 1) hwalked.rep
      (htasks.of_le hwalked.content) (hrest.trans hwalked.buckets.symm)
      (fun b' hb' hle m hm => by
        rw [hwalked.buckets] at hb'
        obtain ⟨hchain, hcells⟩ := hlater b' hb' hle
        rw [hchain] at hm
        obtain ⟨hkey, hnot⟩ := hcells m hm
        rw [hkey, hframe.tcb _ hnot, hframe.due_iff hnot]
        exact hsleepers b' hb' (by omega) m hm)
      (by rw [hwalked.capacity]; exact hfuel)
    have hbuckets : ((List.range' (b + 1) n).map fun b =>
          (chains' b).map fun m => (s₁.sleepingTasksHashTable.values m).key) =
        (List.range' (b + 1) n).map fun b =>
          (chains b).map fun m => (s.sleepingTasksHashTable.values m).key := by
      refine List.map_congr_left ?_
      intro b' hb'
      obtain ⟨hle, hlt⟩ := List.mem_range'_1.mp hb'
      obtain ⟨hchain, hcells⟩ := hlater b' (by omega) hle
      rw [hchain]
      exact List.map_congr_left fun m hm => (hcells m hm).1
    refine ⟨s', calls ++ later, ?_, ?_, ?_, List.forall_mem_append.mpr ⟨hslept, hslept'⟩⟩
    · simp only [updateBuckets, hfirst, Option.bind_eq_bind, hs₁, Option.bind_some]
      exact hs'
    · simp only [passCalls, hfirst, Option.bind_eq_bind, hs₁, hcalls, Option.bind_some,
        hlaterCalls, Option.pure_def]
    · rw [List.map_append, hmap, hmap', List.range'_succ, List.map_cons, RolloverPass.calls,
        hbuckets, hfree]

/-- The table of the sleeping tasks lists tasks whose sleep bit is set. -/
structure SleepersListed (t : Hashtable) (asleep : Nat → Bool) : Prop where
  zeroed : t.Zeroed
  tasks : TasksOnly t
  asleep : ∀ p ∈ t.content, asleep p.1 = true

/-- The tasks in the buckets of `sleepingTasksHashTable`. -/
def sleeperBuckets (s : Sched) : List (List Nat) :=
  (List.range s.sleepingTasksHashTable.numberOfBuckets).map fun b =>
    (s.sleepingTasksHashTable.bucket b).map Prod.fst

theorem sleeperBuckets_flatten (s : Sched) :
    (s.sleeperBuckets.flatten : Multiset Nat) = s.sleepingTasksHashTable.content.map Prod.fst := by
  unfold sleeperBuckets Hashtable.content
  induction s.sleepingTasksHashTable.numberOfBuckets with
  | zero => rfl
  | succ n ih =>
    rw [List.range_succ, List.map_append, List.flatten_append, ← Multiset.coe_add, ih,
      Finset.sum_range_succ, Multiset.map_add]
    simp

theorem mem_sleeperBuckets {s : Sched} {task : Nat} :
    task ∈ s.sleeperBuckets.flatten ↔ ∃ p ∈ s.sleepingTasksHashTable.content, p.1 = task := by
  rw [← Multiset.mem_coe, sleeperBuckets_flatten, Multiset.mem_map]

namespace SleepersListed

variable {s : Sched}

theorem nodup (h : SleepersListed s.sleepingTasksHashTable s.asleep) :
    s.sleeperBuckets.flatten.Nodup := by
  rw [← Multiset.coe_nodup, sleeperBuckets_flatten]
  exact h.tasks.once

theorem null_not_mem (h : SleepersListed s.sleepingTasksHashTable s.asleep) :
    NULL ∉ s.sleeperBuckets.flatten := by
  intro hmem
  obtain ⟨p, hp, hnull⟩ := mem_sleeperBuckets.mp hmem
  exact (h.tasks.task p hp).2 hnull

/-- With enough steps the pass ends, and its calls are those of `RolloverPass.calls`. -/
theorem pass (h : SleepersListed s.sleepingTasksHashTable s.asleep) {fuel : Nat}
    (hfuel : s.sleepingTasksHashTable.maximumCapacity < fuel) :
    ∃ s' calls, updateBuckets fuel s.sleepingTasksHashTable.numberOfBuckets 0 s = some s' ∧
      passCalls fuel s.sleepingTasksHashTable.numberOfBuckets 0 s = some calls ∧
      calls.map Prod.fst = RolloverPass.calls s.Due
        s.sleepingTasksHashTable.remainingCapacity s.sleeperBuckets ∧
      ∀ call ∈ calls, call.1 ≠ NULL → call.2 = true := by
  obtain ⟨chains, free, hrep⟩ := h.zeroed
  have hasleep : ∀ b < s.sleepingTasksHashTable.numberOfBuckets, 0 ≤ b → ∀ m ∈ chains b,
      (s.tcb (s.sleepingTasksHashTable.values m).key).state.sleep = true ∧
        (s.Due (s.sleepingTasksHashTable.values m).key ↔
          s.Due (s.sleepingTasksHashTable.values m).key) := fun b hb _ m hm =>
    ⟨h.asleep _ (hrep.toRep.entry_mem hb hm), Iff.rfl⟩
  have hbuckets : s.sleeperBuckets =
      (List.range' 0 s.sleepingTasksHashTable.numberOfBuckets).map fun b =>
        (chains b).map fun m => (s.sleepingTasksHashTable.values m).key := by
    unfold sleeperBuckets
    rw [List.range_eq_range']
    refine List.map_congr_left ?_
    intro b hb
    have hlt := (List.mem_range'_1.mp hb).2
    unfold Hashtable.bucket
    rw [hrep.toRep.cells_eq (by omega), List.map_map]
    rfl
  rw [hbuckets, ← hrep.free_length]
  exact passCalls_eq hrep h.tasks (Nat.zero_add _) hasleep hfuel

/-- The pass is right iff the list of its calls is. -/
theorem updatesEverySleeper_iff_exact (h : SleepersListed s.sleepingTasksHashTable s.asleep) :
    s.UpdatesEverySleeper ↔ RolloverPass.Exact s.Due
      s.sleepingTasksHashTable.remainingCapacity s.sleeperBuckets := by
  constructor
  · rintro ⟨bound, hbound⟩
    -- compare the two passes at a fuel that is enough for both
    have hfuel : s.sleepingTasksHashTable.maximumCapacity <
        max bound (s.sleepingTasksHashTable.maximumCapacity + 1) := by omega
    obtain ⟨s', calls, -, hcalls, hmap, -⟩ := h.pass hfuel
    obtain ⟨s'', calls', -, hcalls', hcount, hsound⟩ := hbound _ (le_max_left _ _)
    rw [hcalls', Option.some.injEq] at hcalls
    subst hcalls
    unfold RolloverPass.Exact
    rw [← hmap]
    constructor
    · intro task hmem
      obtain ⟨p, hp, rfl⟩ := mem_sleeperBuckets.mp hmem
      rw [← (h.tasks.task p hp).1]
      exact hcount p hp
    · intro hmem
      obtain ⟨call, hcall, hnull⟩ := List.mem_map.mp hmem
      exact (hsound call hcall).1 hnull
  · rintro ⟨hcount, hnull⟩
    refine ⟨s.sleepingTasksHashTable.maximumCapacity + 1, ?_⟩
    intro fuel hfuel
    obtain ⟨s', calls, hs', hcalls, hmap, hslept⟩ := h.pass hfuel
    refine ⟨s', calls, hs', hcalls, ?_, ?_⟩
    · intro p hp
      rw [hmap, (h.tasks.task p hp).1]
      exact hcount p.1 (mem_sleeperBuckets.mpr ⟨p, hp, rfl⟩)
    · intro call hcall
      have hne : call.1 ≠ NULL := by
        intro heq
        rw [← hmap, ← heq] at hnull
        exact hnull (List.mem_map_of_mem hcall)
      exact ⟨hne, hslept call hcall hne⟩

end SleepersListed

/-! ## Runs -/

theorem SleepersListed.rule : SleepRule SleepersListed where
  setFlag flag h := ⟨h.zeroed.setFlag flag, ⟨h.tasks.once, h.tasks.task⟩, h.asleep⟩
  fallAsleep := by
    intro t asleep task hnull h
    have hbits : ∀ p ∈ t.content, Function.update asleep task true p.1 = true := by
      intro p hp
      rw [Function.update_apply, h.asleep p hp, ite_self]
    by_cases hk : ∃ w, (task, w) ∈ t.content
    · rw [put_of_duplicate h.zeroed.wf (.inl ⟨rfl, hk⟩)]
      exact ⟨h.zeroed, h.tasks, hbits⟩
    · have hzeroed := h.zeroed.put task task .rejectMultipleValuesPerKey
      rcases put_cases h.zeroed.wf task task .rejectMultipleValuesPerKey with
        hput | ⟨t', hput, -, hcontent, -⟩
      · rw [hput]
        exact ⟨h.zeroed, h.tasks, hbits⟩
      · rw [hput] at hzeroed ⊢
        refine ⟨hzeroed, ⟨?_, ?_⟩, ?_⟩
        · rw [hcontent, Multiset.map_cons, Multiset.nodup_cons]
          refine ⟨?_, h.tasks.once⟩
          intro hmem
          obtain ⟨⟨k, w⟩, hp, rfl⟩ := Multiset.mem_map.mp hmem
          exact hk ⟨w, hp⟩
        · intro p hp
          rw [hcontent, Multiset.mem_cons] at hp
          rcases hp with rfl | hp
          · exact ⟨rfl, hnull⟩
          · exact h.tasks.task p hp
        · intro p hp
          rw [hcontent, Multiset.mem_cons] at hp
          rcases hp with rfl | hp
          · exact Function.update_self _ _ _
          · exact hbits p hp
  wake := by
    intro t asleep task h
    have hle := remove_content_le h.zeroed.wf task
    refine ⟨h.zeroed.remove task, h.tasks.of_le hle, ?_⟩
    intro p hp
    -- a task that wakes up has left the table
    have hne : p.1 ≠ task := by
      rintro rfl
      by_cases hk : ∃ w, (p.1, w) ∈ t.content
      · obtain ⟨t', w, hremove, -, hcontent, -⟩ := remove_of_mem h.zeroed.wf hk
        rw [hremove] at hp
        have honce := h.tasks.once
        rw [← hcontent, Multiset.map_cons, Multiset.nodup_cons] at honce
        exact honce.1 (Multiset.mem_map.mpr ⟨p, hp, rfl⟩)
      · exact hk ⟨p.2, Multiset.mem_of_le hle hp⟩
    rw [Function.update_of_ne hne]
    exact h.asleep p (Multiset.mem_of_le hle hp)

/-- Tasks may write anything to the TCBs, except to the sleep bits. -/
def keepSleepBits (s : Sched) : Callback → Callback
  | .memory tcb mutexes currentTCB ticks =>
    .memory (fun task => { tcb task with
      state := { (tcb task).state with sleep := s.asleep task } }) mutexes currentTCB ticks
  | e => e

end Sched

/-- The runs of `callbackMachine` in which no task writes to a sleep bit. The memory
of `sleepingTasksHashTable` was zeroed when it was allocated. -/
def sleeperMachine (N : Nat) : Machine Sched Sched.Callback where
  init s := Sched.FreshlyBooted N s ∧ s.sleepingTasksHashTable.Zeroed
  step s e := s.callback (s.keepSleepBits e)

namespace Sched

/-- In every run the rollover pass starts on a table of sleeping tasks. -/
theorem reach_sleepersListed {N : Nat} (hN : 0 < N) (hmax : N ≤ UINT32_MAX) {s : Sched}
    (h : (sleeperMachine N).Reach s) :
    SleepersListed s.sleepingTasksHashTable s.asleep := by
  have hintact : Intact SleepersListed s := by
    refine Machine.Reach.invariant (P := Intact SleepersListed) ?_ ?_ h
    · intro s hs
      obtain ⟨hbooted, hzeroed⟩ := hs
      refine hbooted.intact hN hmax ⟨hzeroed, ?_, ?_⟩
      · obtain ⟨tcb, mutexes, currentTCB, idleTCB, ticks, values, flags, nodes, rfl⟩ := hbooted
        exact ⟨by simp [initializeScheduler], by simp [initializeScheduler]⟩
      · obtain ⟨tcb, mutexes, currentTCB, idleTCB, ticks, values, flags, nodes, rfl⟩ := hbooted
        simp [initializeScheduler]
    · intro s e s' hs hstep
      refine Keeps.callback SleepersListed.rule ?_ hstep hs
      intro tcb mutexes currentTCB ticks he hlisted
      cases e with
      | memory =>
        cases he
        exact hlisted
      | _ => cases he
  exact hintact.sleeping

/-- **The rollover pass** updates every sleeper once iff no sleeper is due, or
`sleepingTasksHashTable` is full and the only sleeper that is due is the last one of
its bucket. -/
theorem updatesEverySleeper_iff {s : Sched} (h : SleepersListed s.sleepingTasksHashTable s.asleep) :
    s.UpdatesEverySleeper ↔ RolloverPass.NoneOrLast s.Due
      s.sleepingTasksHashTable.remainingCapacity s.sleeperBuckets :=
  h.updatesEverySleeper_iff_exact.trans (RolloverPass.calls_exact_iff h.nodup h.null_not_mem)

/-- Task 100 of `Sleep.lateSched` slept for five ticks, and twelve have passed. -/
def rolledOver : Sched :=
  { Sleep.lateSched.sleepCallback 100 5 with ticks := 7, systickRolloverDetectedFLAG := 1 }

theorem rolledOver_sleepersListed :
    SleepersListed rolledOver.sleepingTasksHashTable rolledOver.asleep where
  zeroed := (newHashtable_zeroed (by decide) (by decide) rfl 0).put 100 100
    .rejectMultipleValuesPerKey
  tasks := ⟨by decide +kernel, by decide +kernel⟩
  asleep := by decide +kernel

/-- The equivalence for `rolledOver`. -/
theorem updatesEverySleeper_iff_rolledOver :
    rolledOver.UpdatesEverySleeper ↔ RolloverPass.NoneOrLast rolledOver.Due
      rolledOver.sleepingTasksHashTable.remainingCapacity rolledOver.sleeperBuckets :=
  updatesEverySleeper_iff rolledOver_sleepersListed

/-- Task 100 is woken, and behind it come 31 calls for `NULL`. -/
theorem rollover_pass_calls_null :
    ¬ ∀ s : Sched, SleepersListed s.sleepingTasksHashTable s.asleep →
      s.systickRolloverDetectedFLAG ≠ 0 → s.UpdatesEverySleeper := by
  intro h
  have hpass := h rolledOver rolledOver_sleepersListed (by decide +kernel)
  obtain ⟨-, hnull⟩ := rolledOver_sleepersListed.updatesEverySleeper_iff_exact.mp hpass
  have hmem : NULL ∈ RolloverPass.calls rolledOver.Due
      rolledOver.sleepingTasksHashTable.remainingCapacity rolledOver.sleeperBuckets := by
    decide +kernel
  exact hnull hmem

end Sched

end DocetOS
