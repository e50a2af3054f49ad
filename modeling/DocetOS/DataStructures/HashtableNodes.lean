import DocetOS.DataStructures.HashtableMultimap

/-!
# The value structs of a table

`new_hashtable` leaves the pointer of the last value struct as the memory held it,
and this pointer becomes the head of the free list when the table is full. It is
never followed, because `remainingCapacity` is 0 then.

- `Alike`: two tables with the same chains and the same stored structs, whatever
  else their memory holds; a call answers alike on both and leaves them alike.
- `withOutside`: another content of the memory around the value structs; a call
  commutes with it, so it neither reads nor writes there.
- `nodes_never_lost`: every run on a fresh table.
-/

namespace DocetOS.Hashtable

open Lib

variable {t t' : Hashtable} {chains : Nat → List Nat} {free : List Nat} {k v : Nat}

/-! ## The loops read the chain only -/

section Loops

variable {p : Option Nat} {l : List Nat}

theorem hasDuplicate_congr (hl : Chain t.next p l) (hv : ∀ n ∈ l, t'.values n = t.values n)
    (m : DuplicateCheck) (fuel : Nat) :
    t'.hasDuplicate k v m fuel p = t.hasDuplicate k v m fuel p := by
  induction fuel generalizing p l with
  | zero => rfl
  | succ fuel ih =>
    cases hl with
    | nil => rfl
    | @cons n l _ ht =>
      have hrest := ih ht fun a ha => hv a (List.mem_cons_of_mem n ha)
      unfold hasDuplicate
      rw [hv n List.mem_cons_self, show (t.values n).nextHashtableValue = t.next n from rfl, hrest]

theorem getLoop_congr (hl : Chain t.next p l) (hv : ∀ n ∈ l, t'.values n = t.values n)
    (fuel : Nat) : t'.getLoop k fuel p = t.getLoop k fuel p := by
  induction fuel generalizing p l with
  | zero => rfl
  | succ fuel ih =>
    cases hl with
    | nil => rfl
    | @cons n l _ ht =>
      have hrest := ih ht fun a ha => hv a (List.mem_cons_of_mem n ha)
      unfold getLoop
      rw [hv n List.mem_cons_self, show (t.values n).nextHashtableValue = t.next n from rfl, hrest]

theorem getNthLoop_congr (hl : Chain t.next p l) (hv : ∀ n ∈ l, t'.values n = t.values n)
    (fuel n : Nat) : t'.getNthLoop k fuel n p = t.getNthLoop k fuel n p := by
  induction fuel generalizing p l n with
  | zero => rfl
  | succ fuel ih =>
    cases hl with
    | nil => rfl
    | @cons a l _ ht =>
      have hrest := fun n => ih ht (fun b hb => hv b (List.mem_cons_of_mem a hb)) n
      unfold getNthLoop
      rw [hv a List.mem_cons_self, show (t.values a).nextHashtableValue = t.next a from rfl,
        hrest, hrest]

theorem removeLoop_congr (hl : Chain t.next p l) (hv : ∀ n ∈ l, t'.values n = t.values n)
    (fuel : Nat) (prev : Option Nat) :
    t'.removeLoop k fuel prev p = t.removeLoop k fuel prev p := by
  induction fuel generalizing p l prev with
  | zero => rfl
  | succ fuel ih =>
    cases hl with
    | nil => rfl
    | @cons n l _ ht =>
      have hrest := fun prev => ih ht (fun a ha => hv a (List.mem_cons_of_mem n ha)) prev
      unfold removeLoop
      rw [hv n List.mem_cons_self, show (t.values n).nextHashtableValue = t.next n from rfl, hrest]

end Loops

/-! ## Tables that store the same -/

/-- Two tables with the same lists whose buckets hold the same structs. Their free
structs may hold anything, and so may the pointer at the end of the free list. -/
structure Alike (t t' : Hashtable) (chains : Nat → List Nat) (free : List Nat) : Prop where
  left : Rep t chains free
  right : Rep t' chains free
  buckets_eq : t'.numberOfBuckets = t.numberOfBuckets
  capacity_eq : t'.maximumCapacity = t.maximumCapacity
  stored : ∀ b < t.numberOfBuckets, ∀ n ∈ chains b, t'.values n = t.values n

namespace Alike

theorem bucketNumber_eq (h : Alike t t' chains free) (k : Nat) :
    t'.bucketNumber k = t.bucketNumber k := by
  unfold bucketNumber
  rw [h.buckets_eq]

theorem remaining_eq (h : Alike t t' chains free) :
    t'.remainingCapacity = t.remainingCapacity :=
  h.right.free_length.symm.trans h.left.free_length

theorem bucketArray_eq (h : Alike t t' chains free) {b : Nat} (hb : b < t.numberOfBuckets) :
    t'.bucketArray b = t.bucketArray b := by
  have hb' : b < t'.numberOfBuckets := h.buckets_eq.symm ▸ hb
  rw [(h.left.chain hb).head_eq, (h.right.chain hb').head_eq]

theorem setFlag (h : Alike t t' chains free) (flag flag' : Nat) :
    Alike { t with validValueFlag := flag } { t' with validValueFlag := flag' } chains free :=
  ⟨h.left.setFlag flag, h.right.setFlag flag', h.buckets_eq, h.capacity_eq, h.stored⟩

/-- What the loops find in the bucket of a key. -/
theorem hasDuplicate_eq (h : Alike t t' chains free) (k v : Nat) (m : DuplicateCheck) :
    t'.hasDuplicate k v m t'.maximumCapacity (t'.bucketArray (t'.bucketNumber k)) =
      t.hasDuplicate k v m t.maximumCapacity (t.bucketArray (t.bucketNumber k)) := by
  have hbk := bucketNumber_lt h.left.buckets_pos k
  rw [h.bucketNumber_eq, h.bucketArray_eq hbk, h.capacity_eq]
  exact hasDuplicate_congr (h.left.chain hbk) (h.stored _ hbk) m _

theorem getLoop_eq (h : Alike t t' chains free) (k : Nat) :
    t'.getLoop k t'.maximumCapacity (t'.bucketArray (t'.bucketNumber k)) =
      t.getLoop k t.maximumCapacity (t.bucketArray (t.bucketNumber k)) := by
  have hbk := bucketNumber_lt h.left.buckets_pos k
  rw [h.bucketNumber_eq, h.bucketArray_eq hbk, h.capacity_eq]
  exact getLoop_congr (h.left.chain hbk) (h.stored _ hbk) _

theorem getNthLoop_eq (h : Alike t t' chains free) (k n : Nat) :
    t'.getNthLoop k t'.maximumCapacity n (t'.bucketArray (t'.bucketNumber k)) =
      t.getNthLoop k t.maximumCapacity n (t.bucketArray (t.bucketNumber k)) := by
  have hbk := bucketNumber_lt h.left.buckets_pos k
  rw [h.bucketNumber_eq, h.bucketArray_eq hbk, h.capacity_eq]
  exact getNthLoop_congr (h.left.chain hbk) (h.stored _ hbk) _ n

theorem removeLoop_eq (h : Alike t t' chains free) (k : Nat) :
    t'.removeLoop k t'.maximumCapacity none (t'.bucketArray (t'.bucketNumber k)) =
      t.removeLoop k t.maximumCapacity none (t.bucketArray (t.bucketNumber k)) := by
  have hbk := bucketNumber_lt h.left.buckets_pos k
  rw [h.bucketNumber_eq, h.bucketArray_eq hbk, h.capacity_eq]
  exact removeLoop_congr (h.left.chain hbk) (h.stored _ hbk) _ none

/-- The same struct linked into both tables. -/
theorem link {n : Nat} (h : Alike t t' chains (n :: free)) (k v : Nat) :
    Alike (t.link (t.bucketNumber k) n k v) (t'.link (t'.bucketNumber k) n k v)
      (Function.update chains (t.bucketNumber k) (n :: chains (t.bucketNumber k))) free := by
  have hbk := bucketNumber_lt h.left.buckets_pos k
  have hright := h.right.link (k := k) (v := v)
  rw [h.bucketNumber_eq] at hright ⊢
  refine ⟨h.left.link, hright, h.buckets_eq, h.capacity_eq, ?_⟩
  intro b hb a ha
  by_cases han : a = n
  · subst han
    simp [Hashtable.link, h.bucketArray_eq hbk]
  · have hold : a ∈ chains b := by
      by_cases hbb : b = t.bucketNumber k
      · subst hbb
        rw [Function.update_self] at ha
        exact (List.mem_cons.mp ha).resolve_left han
      · rwa [Function.update_of_ne hbb] at ha
    simpa [Hashtable.link, Function.update_of_ne han] using h.stored b hb a hold

/-- The same struct unlinked from both tables. -/
theorem unlink {b x : Nat} {l₁ l₂ : List Nat} (h : Alike t t' chains free)
    (hb : b < t.numberOfBuckets) (hl : chains b = l₁ ++ x :: l₂) :
    Alike (t.unlink b l₁.getLast? x) (t'.unlink b l₁.getLast? x)
      (Function.update chains b (l₁ ++ l₂)) (x :: free) := by
  have hb' : b < t'.numberOfBuckets := h.buckets_eq.symm ▸ hb
  refine ⟨h.left.unlink hb hl, h.right.unlink hb' hl, h.buckets_eq, h.capacity_eq, ?_⟩
  intro c hc a ha
  have hx : x ∈ chains b := by rw [hl]; simp
  have hold : a ≠ x ∧ a ∈ chains c := by
    by_cases hcb : c = b
    · subst hcb
      rw [Function.update_self] at ha
      have hnodup := (h.left.chain hb).nodup
      rw [hl, List.nodup_middle] at hnodup
      refine ⟨ne_of_mem_of_not_mem ha (List.nodup_cons.mp hnodup).1, ?_⟩
      rw [hl]
      rcases List.mem_append.mp ha with ha | ha <;> simp [ha]
    · rw [Function.update_of_ne hcb] at ha
      exact ⟨fun hax => hcb (h.left.bucket_unique hc hb (hax ▸ ha) hx), ha⟩
  by_cases hprev : l₁.getLast? = some a
  · -- the struct before takes over the pointer
    have hax := h.stored c hc a hold.2
    have hxx := h.stored b hb x hx
    simp [Hashtable.unlink, hprev, Function.update_of_ne hold.1, hax, hxx]
  · rw [unlink_values_of_ne hold.1 hprev, unlink_values_of_ne hold.1 hprev]
    exact h.stored c hc a hold.2

/-- The free list of both tables starts with the same struct. -/
theorem free_eq {n : Nat} (h : Alike t t' chains (n :: free)) :
    t.freeHashtableValueStructLinkedList = some n ∧
      t'.freeHashtableValueStructLinkedList = some n := by
  obtain ⟨q, hq⟩ := h.left.freeList
  obtain ⟨q', hq'⟩ := h.right.freeList
  exact ⟨(Path.cons_iff.mp hq).1, (Path.cons_iff.mp hq').1⟩

theorem put (h : Alike t t' chains free) (k v : Nat) (m : DuplicateCheck) :
    (t'.put k v m).2 = (t.put k v m).2 ∧
      ∃ chains' free', Alike (t.put k v m).1 (t'.put k v m).1 chains' free' := by
  have hduplicate := h.hasDuplicate_eq k v m
  unfold Hashtable.put
  dsimp only
  rw [h.remaining_eq, hduplicate]
  split
  · exact ⟨rfl, chains, free, h⟩
  · split
    · exact ⟨rfl, chains, free, h⟩
    · rename_i hroom _
      cases free with
      | nil => exact absurd h.left.free_length.symm hroom
      | cons n free =>
        obtain ⟨hfirst, hfirst'⟩ := h.free_eq
        rw [hfirst, hfirst']
        exact ⟨rfl, _, _, h.link k v⟩

theorem get (h : Alike t t' chains free) (k : Nat) :
    returned (t'.get k) = returned (t.get k) ∧ Alike (t.get k).1 (t'.get k).1 chains free := by
  unfold Hashtable.get
  rw [h.getLoop_eq]
  cases t.getLoop k t.maximumCapacity (t.bucketArray (t.bucketNumber k)) with
  | none => exact ⟨rfl, h.setFlag 0 0⟩
  | some value => exact ⟨rfl, h.setFlag 1 1⟩

theorem getNthValueAtKey (h : Alike t t' chains free) (k n : Nat) :
    returned (t'.getNthValueAtKey k n) = returned (t.getNthValueAtKey k n) ∧
      Alike (t.getNthValueAtKey k n).1 (t'.getNthValueAtKey k n).1 chains free := by
  unfold Hashtable.getNthValueAtKey
  rw [h.getNthLoop_eq]
  cases t.getNthLoop k t.maximumCapacity n (t.bucketArray (t.bucketNumber k)) with
  | none => exact ⟨rfl, h.setFlag 0 0⟩
  | some value => exact ⟨rfl, h.setFlag 1 1⟩

theorem remove (h : Alike t t' chains free) (k : Nat) :
    returned (t'.remove k) = returned (t.remove k) ∧
      ∃ chains' free', Alike (t.remove k).1 (t'.remove k).1 chains' free' := by
  have hbk := bucketNumber_lt h.left.buckets_pos k
  by_cases hk : ∃ n ∈ chains (t.bucketNumber k), (t.values n).key = k
  · obtain ⟨l₁, x, l₂, hl, hfirst, hx⟩ := exists_first_key hk
    have hvalues : ∀ n ∈ l₁ ++ x :: l₂, t'.values n = t.values n := hl ▸ h.stored _ hbk
    have hxx := hvalues x (by simp)
    have hfirst' : ∀ n ∈ l₁, (t'.values n).key ≠ k := fun n hn => by
      rw [hvalues n (List.mem_append_left _ hn)]
      exact hfirst n hn
    have hl' : chains (t'.bucketNumber k) = l₁ ++ x :: l₂ := by rw [h.bucketNumber_eq, hl]
    rw [h.left.remove_eq hl hfirst hx, h.right.remove_eq hl' hfirst' (by rw [hxx, hx]),
      h.bucketNumber_eq, hxx]
    exact ⟨rfl, _, _, h.unlink hbk hl⟩
  · push Not at hk
    have hnone := removeLoop_none (h.left.chain hbk) (f := t.maximumCapacity) hk none
    have hnone' := (h.removeLoop_eq k).trans hnone
    unfold Hashtable.remove
    rw [hnone, hnone']
    exact ⟨rfl, chains, free, h.setFlag 0 0⟩

/-- **A call** answers alike on both tables and leaves them alike. -/
theorem call (h : Alike t t' chains free) (c : Call) :
    c.answer t' = c.answer t ∧ ∃ chains' free', Alike (c.next t) (c.next t') chains' free' := by
  cases c with
  | put k v m =>
    obtain ⟨hstatus, halike⟩ := h.put k v m
    simp only [Call.answer, Call.next, hstatus]
    exact ⟨trivial, halike⟩
  | get k =>
    obtain ⟨hreturned, halike⟩ := h.get k
    simp only [Call.answer, Call.next, hreturned]
    exact ⟨trivial, _, _, halike⟩
  | getNthValueAtKey k n =>
    obtain ⟨hreturned, halike⟩ := h.getNthValueAtKey k n
    simp only [Call.answer, Call.next, hreturned]
    exact ⟨trivial, _, _, halike⟩
  | remove k =>
    obtain ⟨hreturned, halike⟩ := h.remove k
    simp only [Call.answer, Call.next, hreturned]
    exact ⟨trivial, halike⟩

/-- Runs on both tables give the same answers. -/
theorem transcript_eq (h : Alike t t' chains free) (calls : List Call) :
    transcript Call.next Call.answer t' calls = transcript Call.next Call.answer t calls := by
  induction calls generalizing t t' chains free with
  | nil => rfl
  | cons c calls ih =>
    obtain ⟨hanswer, chains', free', hnext⟩ := h.call c
    rw [transcript, transcript, hanswer, ih hnext]

end Alike

/-! ## The memory around a table -/

/-- The table with `outside` in the memory behind its value structs. -/
def withOutside (t : Hashtable) (outside : Nat → HashtableValue) : Hashtable :=
  { t with values := fun n => if n < t.maximumCapacity then t.values n else outside n }

section Outside

variable {outside : Nat → HashtableValue}

theorem withOutside_values {n : Nat} (hn : n < t.maximumCapacity) :
    (t.withOutside outside).values n = t.values n := if_pos hn

theorem Rep.free_lt (h : Rep t chains free) {n : Nat} (hn : n ∈ free) : n < t.maximumCapacity := by
  rw [← Multiset.mem_range, ← h.cells]
  exact Multiset.mem_add.mpr (.inl hn)

theorem Rep.chain_lt (h : Rep t chains free) {b n : Nat} (hb : b < t.numberOfBuckets)
    (hn : n ∈ chains b) : n < t.maximumCapacity := by
  rw [← Multiset.mem_range, ← h.cells]
  exact Multiset.mem_add.mpr (.inr (mem_sum_coe.mpr ⟨b, Finset.mem_range.mpr hb, hn⟩))

/-- The lists of a table lie within its value structs. -/
theorem Rep.withOutside (h : Rep t chains free) (outside : Nat → HashtableValue) :
    Alike t (t.withOutside outside) chains free := by
  have hstored : ∀ b < t.numberOfBuckets, ∀ n ∈ chains b,
      (t.withOutside outside).values n = t.values n :=
    fun b hb n hn => withOutside_values (h.chain_lt hb hn)
  refine ⟨h, ?_, rfl, rfl, hstored⟩
  obtain ⟨q, hq⟩ := h.links
  refine
    { buckets_pos := h.buckets_pos
      links := ⟨q, hq.congr (fun i hi n hn => ?_) fun i _ => ?_⟩
      free_length := h.free_length
      cells := h.cells
      hashed := fun b hb n hn => ?_ }
  · refine congrArg HashtableValue.nextHashtableValue ?_
    cases i with
    | none => exact withOutside_values (h.free_lt hn)
    | some b => exact hstored b (Finset.mem_range.mp (Finset.some_mem_insertNone.mp hi)) n hn
  · cases i <;> rfl
  · rw [hstored b hb n hn]
    exact h.hashed b hb n hn

theorem link_withOutside {b n : Nat} (hn : n < t.maximumCapacity) (k v : Nat) :
    (t.withOutside outside).link b n k v = (t.link b n k v).withOutside outside := by
  have hvalues : ((t.withOutside outside).link b n k v).values =
      ((t.link b n k v).withOutside outside).values := by
    funext a
    by_cases ha : a = n
    · subst ha
      simp [Hashtable.link, Hashtable.withOutside, hn]
    · simp [Hashtable.link, Hashtable.withOutside, Function.update_of_ne ha]
  have hfree : ((t.withOutside outside).link b n k v).freeHashtableValueStructLinkedList =
      ((t.link b n k v).withOutside outside).freeHashtableValueStructLinkedList :=
    congrArg HashtableValue.nextHashtableValue (withOutside_values hn)
  calc (t.withOutside outside).link b n k v
      = { t.link b n k v with
          values := ((t.withOutside outside).link b n k v).values
          freeHashtableValueStructLinkedList :=
            ((t.withOutside outside).link b n k v).freeHashtableValueStructLinkedList } := rfl
    _ = (t.link b n k v).withOutside outside := by
      rw [hvalues, hfree]
      rfl

theorem unlink_withOutside {b x : Nat} {prev : Option Nat} (hx : x < t.maximumCapacity)
    (hprev : ∀ a, prev = some a → a < t.maximumCapacity) :
    (t.withOutside outside).unlink b prev x = (t.unlink b prev x).withOutside outside := by
  have hxx : (t.withOutside outside).values x = t.values x := withOutside_values hx
  have hvalues : ((t.withOutside outside).unlink b prev x).values =
      ((t.unlink b prev x).withOutside outside).values := by
    funext a
    -- the struct itself, the one in front of it, or one that is not written
    by_cases hax : a = x
    · subst hax
      simp [Hashtable.unlink, Hashtable.withOutside, hx]
    · by_cases hap : prev = some a
      · have ha := hprev a hap
        simp [Hashtable.unlink, Hashtable.withOutside, hap, Function.update_of_ne hax, ha, hx]
      · have hout : ((t.unlink b prev x).withOutside outside).values a =
            (t.withOutside outside).values a := by
          show (if a < t.maximumCapacity then (t.unlink b prev x).values a else outside a) = _
          rw [unlink_values_of_ne hax hap]
          rfl
        rw [unlink_values_of_ne hax hap, hout]
  have hbuckets : ((t.withOutside outside).unlink b prev x).bucketArray =
      (t.unlink b prev x).bucketArray := by
    simp only [Hashtable.unlink, hxx]
    rfl
  calc (t.withOutside outside).unlink b prev x
      = { t.unlink b prev x with
          values := ((t.withOutside outside).unlink b prev x).values
          bucketArray := ((t.withOutside outside).unlink b prev x).bucketArray } := rfl
    _ = (t.unlink b prev x).withOutside outside := by
      rw [hvalues, hbuckets]
      rfl

theorem Rep.put_withOutside (h : Rep t chains free) (k v : Nat) (m : DuplicateCheck) :
    ((t.withOutside outside).put k v m).1 = (t.put k v m).1.withOutside outside := by
  have hduplicate := (h.withOutside outside).hasDuplicate_eq k v m
  have hremaining := (h.withOutside outside).remaining_eq
  unfold Hashtable.put
  dsimp only
  rw [hremaining, hduplicate]
  split
  · rfl
  · split
    · rfl
    · rename_i hroom _
      cases free with
      | nil => exact absurd h.free_length.symm hroom
      | cons n free =>
        obtain ⟨hfirst, hfirst'⟩ := (h.withOutside outside).free_eq
        rw [hfirst, hfirst']
        exact link_withOutside (h.free_lt List.mem_cons_self) k v

theorem Rep.remove_withOutside (h : Rep t chains free) (k : Nat) :
    ((t.withOutside outside).remove k).1 = (t.remove k).1.withOutside outside := by
  have hbk := bucketNumber_lt h.buckets_pos k
  have hloop := (h.withOutside outside).removeLoop_eq k
  by_cases hk : ∃ n ∈ chains (t.bucketNumber k), (t.values n).key = k
  · obtain ⟨l₁, x, l₂, hl, hfirst, hx⟩ := exists_first_key hk
    have hlt : ∀ n ∈ l₁ ++ x :: l₂, n < t.maximumCapacity := by
      rw [← hl]
      exact fun n hn => h.chain_lt hbk hn
    have hfound := removeLoop_some (hl ▸ h.chain hbk) (hl ▸ h.chain_length hbk) hfirst hx none
    rw [Option.or_none] at hfound
    have hremove := h.remove_eq hl hfirst hx
    rw [hfound] at hloop
    rw [hremove]
    unfold Hashtable.remove
    rw [hloop]
    refine unlink_withOutside (hlt x (by simp)) fun a ha => hlt a ?_
    exact List.mem_append_left _ (List.mem_of_getLast? ha)
  · push Not at hk
    have hnone := removeLoop_none (h.chain hbk) (f := t.maximumCapacity) hk none
    rw [hnone] at hloop
    unfold Hashtable.remove
    rw [hnone, hloop]
    rfl

/-- **A call is local**: it answers the same whatever lies behind the value
structs, and leaves that as it is. -/
theorem Rep.is_local (h : Rep t chains free) (c : Call) (outside : Nat → HashtableValue) :
    c.answer (t.withOutside outside) = c.answer t ∧
      c.next (t.withOutside outside) = (c.next t).withOutside outside := by
  have halike := h.withOutside outside
  refine ⟨(halike.call c).1, ?_⟩
  cases c with
  | put k v m => exact h.put_withOutside k v m
  | get k =>
    have hloop := halike.getLoop_eq k
    simp only [Call.next, Hashtable.get]
    rw [hloop]
    cases t.getLoop k t.maximumCapacity (t.bucketArray (t.bucketNumber k)) <;> rfl
  | getNthValueAtKey k n =>
    have hloop := halike.getNthLoop_eq k n
    simp only [Call.next, Hashtable.getNthValueAtKey]
    rw [hloop]
    cases t.getNthLoop k t.maximumCapacity n (t.bucketArray (t.bucketNumber k)) <;> rfl
  | remove k => exact h.remove_withOutside k

end Outside

/-! ## Runs -/

/-- Where the `capacity` value structs of a table are. -/
structure KeepsNodes (capacity : Nat) (t : Hashtable) (chains : Nat → List Nat)
    (free : List Nat) : Prop where
  capacity_eq : t.maximumCapacity = capacity
  /-- A bucket is a null-terminated list, -/
  chain : ∀ b < t.numberOfBuckets, Chain t.next (t.bucketArray b) (chains b)
  /-- visits no struct twice, -/
  nodup : ∀ b < t.numberOfBuckets, (chains b).Nodup
  /-- and holds keys of this bucket. -/
  hashed : ∀ b < t.numberOfBuckets, ∀ n ∈ chains b, t.bucketNumber (t.values n).key = b
  /-- The free list starts with `free`, whatever follows. -/
  freeList : ∃ q, Path t.next t.freeHashtableValueStructLinkedList free q
  free_length : free.length = t.remainingCapacity
  /-- Every struct is in one of these lists, once. -/
  once : ∀ n < capacity,
    free.count n + ∑ b ∈ Finset.range t.numberOfBuckets, (chains b).count n = 1
  /-- Nothing else is. -/
  inside : (∀ n ∈ free, n < capacity) ∧ ∀ b < t.numberOfBuckets, ∀ n ∈ chains b, n < capacity

theorem Rep.keepsNodes {capacity : Nat} (h : Rep t chains free)
    (hc : t.maximumCapacity = capacity) : KeepsNodes capacity t chains free where
  capacity_eq := hc
  chain _ hb := h.chain hb
  nodup _ hb := (h.chain hb).nodup
  hashed := h.hashed
  freeList := h.freeList
  free_length := h.free_length
  once n hn := by
    have hcount := congrArg (Multiset.count n) h.cells
    rw [Multiset.count_add, Multiset.count_sum', Multiset.count_eq_one_of_mem
      (Multiset.nodup_range _) (Multiset.mem_range.mpr (hc ▸ hn))] at hcount
    simpa using hcount
  inside := hc ▸ ⟨fun _ hn => h.free_lt hn, fun _ hb _ hn => h.chain_lt hb hn⟩

/-- **No value struct is lost, shared or invented**, in any run of calls on a table
made on any memory: each is once in a bucket or among the free ones, no call
depends on or changes what lies behind them, and no answer depends on what the
memory held. -/
theorem nodes_never_lost {capacity numberOfBuckets : Nat} (hc : 0 < capacity)
    (hb : 0 < numberOfBuckets) (memory : Nat → HashtableValue) (flag : Nat) (calls : List Call) :
    let t := calls.foldl Call.next (newHashtable capacity numberOfBuckets memory flag)
    (∃ chains free, KeepsNodes capacity t chains free) ∧
      (∀ (c : Call) (outside : Nat → HashtableValue),
        c.answer (t.withOutside outside) = c.answer t ∧
          c.next (t.withOutside outside) = (c.next t).withOutside outside) ∧
      ∀ memory' flag', transcript Call.next Call.answer
          (newHashtable capacity numberOfBuckets memory' flag') calls =
        transcript Call.next Call.answer
          (newHashtable capacity numberOfBuckets memory flag) calls := by
  intro t
  have hnew := newHashtable_rep hc hb memory flag
  have ht : IsMultimap capacity t :=
    List.foldlRecOn calls Call.next ⟨⟨_, _, hnew⟩, rfl⟩ fun _ h c _ => (h.step c).1
  obtain ⟨chains, free, hrep⟩ := ht.wf
  refine ⟨⟨chains, free, hrep.keepsNodes ht.capacity_eq⟩, hrep.is_local, ?_⟩
  intro memory' flag'
  have hnew' := newHashtable_rep hc hb memory' flag'
  have halike : Alike (newHashtable capacity numberOfBuckets memory flag)
      (newHashtable capacity numberOfBuckets memory' flag') (fun _ => []) (List.range capacity) :=
    ⟨hnew, hnew', rfl, rfl, fun _ _ _ hn => absurd hn List.not_mem_nil⟩
  exact halike.transcript_eq calls

/-- A table of two structs on memory that points far behind them: it is filled, a
third value is refused, and one struct comes back. -/
theorem nodes_never_lost_refilled :
    let t := [Call.put 7 70 .disableDuplicateChecks, .put 8 80 .disableDuplicateChecks,
        .put 9 90 .disableDuplicateChecks, .remove 8].foldl Call.next
      (newHashtable 2 1 (fun _ => ⟨some 99, 0, 0⟩) 0)
    (∃ chains free, KeepsNodes 2 t chains free) ∧
      (∀ (c : Call) (outside : Nat → HashtableValue),
        c.answer (t.withOutside outside) = c.answer t ∧
          c.next (t.withOutside outside) = (c.next t).withOutside outside) ∧
      ∀ memory' flag', transcript Call.next Call.answer (newHashtable 2 1 memory' flag')
          [.put 7 70 .disableDuplicateChecks, .put 8 80 .disableDuplicateChecks,
            .put 9 90 .disableDuplicateChecks, .remove 8] =
        transcript Call.next Call.answer (newHashtable 2 1 (fun _ => ⟨some 99, 0, 0⟩) 0)
          [.put 7 70 .disableDuplicateChecks, .put 8 80 .disableDuplicateChecks,
            .put 9 90 .disableDuplicateChecks, .remove 8] :=
  nodes_never_lost (by decide) (by decide) _ 0 _

end DocetOS.Hashtable
