import DocetOS.Words

/-!
# The calls of a pass over buckets that change under it

A loop follows the buckets of a table while the function it calls may take the very
struct the loop stands on out of its bucket. That struct becomes the first free one,
so the loop goes on along the free list: it leaves out the rest of the bucket and
calls the function with `NULL` once for every struct that was free.

`RolloverPass.calls` is the list of the tasks such a pass calls the function for, in
terms of the lists of tasks in the buckets alone. `calls_exact_iff` says when it is
right: no task is due, or the table is full and the only task that is due is the last
of its bucket.
-/

namespace DocetOS

namespace RolloverPass

variable {due : Nat → Prop} [DecidablePred due] {free : Nat} {task : Nat} {bucket : List Nat}
  {buckets : List (List Nat)}

/-- The tasks a walk along a bucket meets: behind one that is due come the free
structs, which hold `NULL`. -/
def bucketCalls (due : Nat → Prop) [DecidablePred due] (free : Nat) : List Nat → List Nat
  | [] => []
  | task :: bucket =>
    task :: if due task then List.replicate free NULL else bucketCalls due free bucket

/-- The number of free structs after a walk along a bucket. -/
def freeAfter (due : Nat → Prop) [DecidablePred due] (free : Nat) (bucket : List Nat) : Nat :=
  if ∃ task ∈ bucket, due task then free + 1 else free

/-- The tasks a pass over the buckets meets. -/
def calls (due : Nat → Prop) [DecidablePred due] : Nat → List (List Nat) → List Nat
  | _, [] => []
  | free, bucket :: buckets =>
    bucketCalls due free bucket ++ calls due (freeAfter due free bucket) buckets

theorem bucketCalls_of_none (h : ∀ task ∈ bucket, ¬ due task) :
    bucketCalls due free bucket = bucket := by
  induction bucket with
  | nil => rfl
  | cons task bucket ih =>
    obtain ⟨htask, hrest⟩ := List.forall_mem_cons.mp h
    rw [bucketCalls, if_neg htask, ih hrest]

/-- The first task that is due ends the walk along its bucket. -/
theorem bucketCalls_of_due {before behind : List Nat} (h : ∀ task ∈ before, ¬ due task)
    (hdue : due task) :
    bucketCalls due free (before ++ task :: behind) =
      before ++ task :: List.replicate free NULL := by
  induction before with
  | nil => rw [List.nil_append, List.nil_append, bucketCalls, if_pos hdue]
  | cons t before ih =>
    obtain ⟨ht, hrest⟩ := List.forall_mem_cons.mp h
    rw [List.cons_append, bucketCalls, if_neg ht, ih hrest, List.cons_append]

theorem freeAfter_of_none (h : ∀ task ∈ bucket, ¬ due task) : freeAfter due free bucket = free :=
  if_neg fun ⟨task, hmem, hdue⟩ => h task hmem hdue

theorem freeAfter_cons_of_not (h : ¬ due task) :
    freeAfter due free (task :: bucket) = freeAfter due free bucket := by
  simp [freeAfter, h]

theorem freeAfter_of_due (hmem : task ∈ bucket) (hdue : due task) :
    freeAfter due free bucket = free + 1 :=
  if_pos ⟨task, hmem, hdue⟩

/-- A bucket with a task that is due, cut at the first one. -/
theorem exists_first_due (h : ∃ task ∈ bucket, due task) :
    ∃ before task behind, bucket = before ++ task :: behind ∧ (∀ t ∈ before, ¬ due t) ∧
      due task := by
  obtain ⟨t, hmem, hdue⟩ := h
  obtain ⟨task, before, behind, hbefore, htask, hbucket, -⟩ :=
    List.exists_of_eraseP (p := fun t => decide (due t)) hmem (decide_eq_true hdue)
  exact ⟨before, task, behind, hbucket, fun t ht => by simpa using hbefore t ht,
    of_decide_eq_true htask⟩

/-- A pass that finds no task due meets them all. -/
theorem calls_of_none (h : ∀ task ∈ buckets.flatten, ¬ due task) :
    calls due free buckets = buckets.flatten := by
  induction buckets with
  | nil => rfl
  | cons bucket buckets ih =>
    rw [List.flatten_cons, List.forall_mem_append] at h
    rw [calls, bucketCalls_of_none h.1, freeAfter_of_none h.1, ih h.2, List.flatten_cons]

/-- With a free struct, the first task that is due leads to a call for `NULL`. -/
theorem null_mem_calls (hfree : 0 < free) (h : ∃ task ∈ buckets.flatten, due task) :
    NULL ∈ calls due free buckets := by
  induction buckets with
  | nil =>
    obtain ⟨task, hmem, -⟩ := h
    cases hmem
  | cons bucket buckets ih =>
    rw [calls, List.mem_append]
    by_cases hbucket : ∃ task ∈ bucket, due task
    · obtain ⟨before, task, behind, rfl, hbefore, hdue⟩ := exists_first_due hbucket
      left
      rw [bucketCalls_of_due hbefore hdue]
      exact List.mem_append_right _ (List.mem_cons_of_mem _
        (List.mem_replicate.mpr ⟨hfree.ne', rfl⟩))
    · have hnone : ∀ task ∈ bucket, ¬ due task := fun t ht hdue => hbucket ⟨t, ht, hdue⟩
      right
      rw [freeAfter_of_none hnone]
      refine ih ?_
      obtain ⟨task, hmem, hdue⟩ := h
      rcases List.mem_append.mp (List.flatten_cons ▸ hmem) with hmem | hmem
      · exact absurd hdue (hnone task hmem)
      · exact ⟨task, hmem, hdue⟩

theorem mem_of_mem_bucketCalls (h : task ∈ bucketCalls due free bucket) :
    task = NULL ∨ task ∈ bucket := by
  by_cases hbucket : ∃ task ∈ bucket, due task
  · obtain ⟨before, first, behind, rfl, hbefore, hdue⟩ := exists_first_due hbucket
    rw [bucketCalls_of_due hbefore hdue, List.mem_append, List.mem_cons] at h
    rcases h with h | rfl | h
    · exact .inr (List.mem_append_left _ h)
    · exact .inr (List.mem_append_right _ List.mem_cons_self)
    · exact .inl (List.eq_of_mem_replicate h)
  · rw [bucketCalls_of_none fun t ht hdue => hbucket ⟨t, ht, hdue⟩] at h
    exact .inr h

/-- A pass meets nothing but `NULL` and the tasks of its buckets. -/
theorem mem_of_mem_calls (h : task ∈ calls due free buckets) :
    task = NULL ∨ task ∈ buckets.flatten := by
  induction buckets generalizing free with
  | nil => cases h
  | cons bucket buckets ih =>
    rw [List.flatten_cons, List.mem_append]
    rcases List.mem_append.mp h with h | h
    · exact (mem_of_mem_bucketCalls h).imp_right .inl
    · exact (ih h).imp_right .inr

/-- The pass meets every task exactly once, and nothing else. -/
def Exact (due : Nat → Prop) [DecidablePred due] (free : Nat) (buckets : List (List Nat)) :
    Prop :=
  (∀ task ∈ buckets.flatten, (calls due free buckets).count task = 1) ∧
    NULL ∉ calls due free buckets

/-- No task is due, or there is no free struct and the only task that is due is the
last of its bucket. -/
def NoneOrLast (due : Nat → Prop) (free : Nat) (buckets : List (List Nat)) : Prop :=
  (∀ task ∈ buckets.flatten, ¬ due task) ∨
    free = 0 ∧ ∃ bucket ∈ buckets, ∃ task, bucket.getLast? = some task ∧
      ∀ t ∈ buckets.flatten, due t → t = task

/-- A bucket without a task that is due does not matter. -/
theorem exact_cons_of_none (hnodup : (bucket :: buckets).flatten.Nodup)
    (hnull : NULL ∉ (bucket :: buckets).flatten) (h : ∀ task ∈ bucket, ¬ due task) :
    Exact due free (bucket :: buckets) ↔ Exact due free buckets := by
  rw [List.flatten_cons] at hnodup hnull
  obtain ⟨hbucket, -, hdisjoint⟩ := List.nodup_append'.mp hnodup
  rw [List.mem_append, not_or] at hnull
  have hcalls : calls due free (bucket :: buckets) = bucket ++ calls due free buckets := by
    rw [calls, bucketCalls_of_none h, freeAfter_of_none h]
  -- a task of this bucket is called here, and cannot be called again from a later one
  have hfirst : ∀ task ∈ bucket, (bucket ++ calls due free buckets).count task = 1 := by
    intro task hmem
    have hlater : task ∉ calls due free buckets := by
      intro hcall
      rcases mem_of_mem_calls hcall with rfl | hcall
      · exact hnull.1 hmem
      · exact hdisjoint hmem hcall
    rw [List.count_append, List.count_eq_one_of_mem hbucket hmem, List.count_eq_zero.mpr hlater]
  have hrest : ∀ task ∈ buckets.flatten, (bucket ++ calls due free buckets).count task =
      (calls due free buckets).count task := by
    intro task hmem
    have hnot : task ∉ bucket := fun hbucket => hdisjoint hbucket hmem
    rw [List.count_append, List.count_eq_zero.mpr hnot, zero_add]
  unfold Exact
  rw [hcalls, List.flatten_cons, List.forall_mem_append, List.mem_append, not_or]
  constructor
  · rintro ⟨⟨-, hcount⟩, -, hnot⟩
    exact ⟨fun task hmem => by rw [← hrest task hmem]; exact hcount task hmem, hnot⟩
  · rintro ⟨hcount, hnot⟩
    exact ⟨⟨hfirst, fun task hmem => by rw [hrest task hmem]; exact hcount task hmem⟩,
      hnull.1, hnot⟩

omit [DecidablePred due] in
theorem noneOrLast_cons_of_none (h : ∀ task ∈ bucket, ¬ due task) :
    NoneOrLast due free (bucket :: buckets) ↔ NoneOrLast due free buckets := by
  unfold NoneOrLast
  rw [List.flatten_cons, List.forall_mem_append]
  constructor
  · rintro (⟨-, hnone⟩ | ⟨hfree, last, hlast, task, htask, honly⟩)
    · exact .inl hnone
    · rcases List.mem_cons.mp hlast with rfl | hlast
      · refine .inl fun t ht hdue => h task (List.mem_of_getLast? htask) ?_
        rwa [← honly t (List.mem_append_right _ ht) hdue]
      · exact .inr ⟨hfree, last, hlast, task, htask,
          fun t ht hdue => honly t (List.mem_append_right _ ht) hdue⟩
  · rintro (hnone | ⟨hfree, last, hlast, task, htask, honly⟩)
    · exact .inl ⟨h, hnone⟩
    · refine .inr ⟨hfree, last, List.mem_cons_of_mem _ hlast, task, htask, ?_⟩
      intro t ht hdue
      rcases List.mem_append.mp ht with ht | ht
      · exact absurd hdue (h t ht)
      · exact honly t ht hdue

section FirstDue

variable {before behind : List Nat}

/-- In a bucket with a task that is due, the first such task has to be the last of
its bucket, no struct may be free, and no task is due in the buckets that follow. -/
theorem exact_cons_of_due (hnodup : ((before ++ task :: behind) :: buckets).flatten.Nodup)
    (hnull : NULL ∉ ((before ++ task :: behind) :: buckets).flatten)
    (hbefore : ∀ t ∈ before, ¬ due t) (hdue : due task) :
    Exact due free ((before ++ task :: behind) :: buckets) ↔
      free = 0 ∧ behind = [] ∧ ∀ t ∈ buckets.flatten, ¬ due t := by
  have hmem : task ∈ before ++ task :: behind := List.mem_append_right _ List.mem_cons_self
  obtain ⟨hbucket, -, hdisjoint⟩ := List.nodup_append'.mp hnodup
  have hcalls : calls due free ((before ++ task :: behind) :: buckets) =
      (before ++ task :: List.replicate free NULL) ++ calls due (free + 1) buckets := by
    rw [calls, bucketCalls_of_due hbefore hdue, freeAfter_of_due hmem hdue]
  constructor
  · rintro ⟨hcount, hnot⟩
    rw [hcalls, List.mem_append, not_or] at hnot
    have hnone : ∀ t ∈ buckets.flatten, ¬ due t := fun t ht hdue' =>
      hnot.2 (null_mem_calls (Nat.succ_pos free) ⟨t, ht, hdue'⟩)
    refine ⟨?_, List.eq_nil_iff_forall_not_mem.mpr ?_, hnone⟩
    · by_contra hfree
      exact hnot.1 (List.mem_append_right _ (List.mem_cons_of_mem _
        (List.mem_replicate.mpr ⟨hfree, rfl⟩)))
    · intro t ht
      -- a task behind the first one that is due is never met
      have htmem : t ∈ before ++ task :: behind :=
        List.mem_append_right _ (List.mem_cons_of_mem _ ht)
      have hone := hcount t (List.mem_append_left _ htmem)
      have hcall : t ∈ calls due free ((before ++ task :: behind) :: buckets) :=
        List.count_pos_iff.mp (by omega)
      rw [hcalls, calls_of_none hnone, List.mem_append, List.mem_append, List.mem_cons] at hcall
      rw [List.nodup_append', List.nodup_cons] at hbucket
      rcases hcall with (hcall | rfl | hcall) | hcall
      · exact hbucket.2.2 hcall (List.mem_cons_of_mem _ ht)
      · exact hbucket.2.1.1 ht
      · obtain rfl := List.eq_of_mem_replicate hcall
        exact hnull (List.mem_append_left _ htmem)
      · exact hdisjoint htmem hcall
  · rintro ⟨rfl, rfl, hnone⟩
    have hall : calls due 0 ((before ++ [task]) :: buckets) =
        ((before ++ [task]) :: buckets).flatten := by
      rw [hcalls, calls_of_none hnone, List.flatten_cons, List.replicate_zero]
    unfold Exact
    rw [hall]
    exact ⟨fun t ht => List.count_eq_one_of_mem hnodup ht, hnull⟩

omit [DecidablePred due] in
theorem noneOrLast_cons_of_due (hnodup : ((before ++ task :: behind) :: buckets).flatten.Nodup)
    (hbefore : ∀ t ∈ before, ¬ due t) (hdue : due task) :
    NoneOrLast due free ((before ++ task :: behind) :: buckets) ↔
      free = 0 ∧ behind = [] ∧ ∀ t ∈ buckets.flatten, ¬ due t := by
  have hmem : task ∈ before ++ task :: behind := List.mem_append_right _ List.mem_cons_self
  obtain ⟨hbucket, -, hdisjoint⟩ := List.nodup_append'.mp hnodup
  rw [List.nodup_append', List.nodup_cons] at hbucket
  constructor
  · rintro (hnone | ⟨rfl, last, hlastMem, t, ht, honly⟩)
    · exact absurd hdue (hnone task (List.mem_append_left _ hmem))
    · obtain rfl : task = t := honly task (List.mem_append_left _ hmem) hdue
      refine ⟨rfl, ?_, ?_⟩
      · -- the bucket that ends with `task` is this one
        rcases List.mem_cons.mp hlastMem with rfl | hlastMem
        · by_contra hne
          rw [List.getLast?_append_of_ne_nil _ (List.cons_ne_nil _ _),
            List.getLast?_cons_of_ne_nil hne] at ht
          exact hbucket.2.1.1 (List.mem_of_getLast? ht)
        · exact (hdisjoint hmem (List.mem_flatten.mpr
            ⟨last, hlastMem, List.mem_of_getLast? ht⟩)).elim
      · intro t ht' hdue'
        obtain rfl := honly t (List.mem_append_right _ ht') hdue'
        exact hdisjoint hmem ht'
  · rintro ⟨rfl, rfl, hnone⟩
    refine .inr ⟨rfl, _, List.mem_cons_self, task, List.getLast?_concat, fun t ht hdue' => ?_⟩
    rw [List.flatten_cons, List.mem_append, List.mem_append, List.mem_singleton] at ht
    rcases ht with (ht | ht) | ht
    · exact absurd hdue' (hbefore t ht)
    · exact ht
    · exact absurd hdue' (hnone t ht)

end FirstDue

/-- **The pass is exact** iff no task is due, or the table is full and the only task
that is due is the last of its bucket. -/
theorem calls_exact_iff (hnodup : buckets.flatten.Nodup) (hnull : NULL ∉ buckets.flatten) :
    Exact due free buckets ↔ NoneOrLast due free buckets := by
  induction buckets with
  | nil =>
    refine iff_of_true ⟨?_, List.not_mem_nil⟩ (.inl ?_)
    · intro task hmem
      cases hmem
    · intro task hmem
      cases hmem
  | cons bucket buckets ih =>
    by_cases hbucket : ∃ task ∈ bucket, due task
    · obtain ⟨before, task, behind, rfl, hbefore, hdue⟩ := exists_first_due hbucket
      rw [exact_cons_of_due hnodup hnull hbefore hdue,
        noneOrLast_cons_of_due hnodup hbefore hdue]
    · have hnone : ∀ task ∈ bucket, ¬ due task := fun t ht hdue => hbucket ⟨t, ht, hdue⟩
      rw [exact_cons_of_none hnodup hnull hnone, noneOrLast_cons_of_none hnone]
      exact ih (List.nodup_append'.mp hnodup).2.1 fun hmem => hnull (List.mem_append_right _ hmem)

end RolloverPass

end DocetOS
