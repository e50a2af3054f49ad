import DocetOS.DataStructures.HashtableSpec
import DocetOS.Lib.Multimap

/-!
# The hashtable is a bounded multimap

`toMultimap t` reads a table as a multimap: the values of a key in the order in which
its bucket chain holds them. A `put` links a struct in at the front of a bucket,
a `remove` unlinks the first one with the key, so they push and pop, and the
values of the other keys of the bucket keep their order.

- `put_toMultimap`, `get_eq`, `getNthValueAtKey_eq`, `remove_toMultimap`: one call.
- `walkBuckets_filter`: the walk over all buckets meets the values of a key in
  the order of its stack, and nothing else.
- `hashtable_refines_multimap`: every run on a fresh table.
- `rejects_per_key_iff`: what mode 2 of `put` refuses.
-/

namespace DocetOS.Hashtable

open Lib

/-- The values of every key, the one stored last first. -/
def toMultimap (t : Hashtable) : Multimap Nat Nat := fun k =>
  ((t.bucket (t.bucketNumber k)).filter fun e => e.1 = k).map Prod.snd

/-- A table with its flag set, and the value found or `NULL`. -/
def found (t : Hashtable) : Option Nat → Hashtable × Nat
  | some value => ({ t with validValueFlag := 1 }, value)
  | none => ({ t with validValueFlag := 0 }, NULL)

/-- The pairs met by a walk over the buckets `ns`: from the struct that
`OS_hashtable_getFirstElementOfNthBucket` returns along `nextHashtableValue`. -/
def walkBuckets : List Nat → Hashtable → List (Nat × Nat)
  | [], _ => []
  | n :: ns, t =>
    let (t, first) := t.getFirstElementOfNthBucket n
    (walk t.next t.maximumCapacity first).map t.entry ++ walkBuckets ns t

variable {t : Hashtable} {chains : Nat → List Nat} {free : List Nat} {k v : Nat}

theorem Rep.bucket_eq (h : Rep t chains free) {b : Nat} (hb : b < t.numberOfBuckets) :
    t.bucket b = (chains b).map t.entry := by
  rw [bucket, h.cells_eq hb]

/-- The entries of a bucket hash to it. -/
theorem Rep.hashed_bucket (h : Rep t chains free) {b : Nat} (hb : b < t.numberOfBuckets)
    {e : Nat × Nat} (he : e ∈ t.bucket b) : t.bucketNumber e.1 = b := by
  rw [h.bucket_eq hb] at he
  obtain ⟨n, hn, rfl⟩ := List.mem_map.mp he
  exact h.hashed b hb n hn

/-- The stack of a key in terms of the chain of its bucket. -/
theorem Rep.toMultimap_eq (h : Rep t chains free) (k : Nat) :
    t.toMultimap k = ((chains (t.bucketNumber k)).filter fun n => (t.values n).key = k).map
      fun n => (t.values n).underlyingData := by
  unfold toMultimap
  rw [h.bucket_eq (bucketNumber_lt h.buckets_pos k), List.filter_map, List.map_map]
  rfl

theorem mem_toMultimap (h : t.WF) : v ∈ t.toMultimap k ↔ (k, v) ∈ t.content := by
  obtain ⟨chains, free, h⟩ := h
  rw [h.toMultimap_eq, h.mem_content, List.mem_map]
  constructor
  · rintro ⟨n, hn, hv⟩
    obtain ⟨hn, hkey⟩ := List.mem_filter.mp hn
    exact ⟨n, hn, Prod.ext (of_decide_eq_true hkey) hv⟩
  · rintro ⟨n, hn, he⟩
    exact ⟨n, List.mem_filter.mpr ⟨hn, decide_eq_true (congrArg Prod.fst he)⟩,
      congrArg Prod.snd he⟩

/-- A key has a value iff its stack is not empty. -/
theorem toMultimap_ne_nil_iff (h : t.WF) : t.toMultimap k ≠ [] ↔ ∃ w, (k, w) ∈ t.content := by
  constructor
  · intro hne
    obtain ⟨w, hw⟩ := List.exists_mem_of_ne_nil _ hne
    exact ⟨w, (mem_toMultimap h).mp hw⟩
  · rintro ⟨w, hw⟩
    exact List.ne_nil_of_mem ((mem_toMultimap h).mpr hw)

theorem Rep.length_toMultimap (h : Rep t chains free) (k : Nat) :
    (t.toMultimap k).length = (t.content.map Prod.fst).count k := by
  have hbk := bucketNumber_lt h.buckets_pos k
  have hcount : Multiset.count k ((t.bucket (t.bucketNumber k) : Multiset (Nat × Nat)).map
      Prod.fst) = (t.toMultimap k).length := by
    rw [toMultimap, List.length_map, Multiset.map_coe, Multiset.coe_count,
      List.count_eq_length_filter, List.filter_map, List.length_map]
    rfl
  -- the pairs of the other buckets have other keys
  have hother : ∀ b ∈ Finset.range t.numberOfBuckets, b ≠ t.bucketNumber k →
      Multiset.count k ((t.bucket b : Multiset (Nat × Nat)).map Prod.fst) = 0 := by
    intro b hb hne
    rw [Multiset.count_eq_zero, Multiset.mem_map]
    rintro ⟨e, he, rfl⟩
    exact hne (h.hashed_bucket (Finset.mem_range.mp hb) (Multiset.mem_coe.mp he)).symm
  unfold content
  rw [← Multiset.coe_mapAddMonoidHom, map_sum, Multiset.count_sum']
  exact ((Finset.sum_eq_single_of_mem _ (Finset.mem_range.mpr hbk) hother).trans hcount).symm

theorem size_toMultimap (h : t.WF) : t.toMultimap.size = t.content.card := by
  obtain ⟨chains, free, h⟩ := h
  exact Multimap.size_eq_card h.length_toMultimap

/-- Free structs and stored values make up the capacity. -/
theorem remaining_add_size (h : t.WF) :
    t.remainingCapacity + t.toMultimap.size = t.maximumCapacity := by
  rw [size_toMultimap h, h.card_content]

@[simp] theorem toMultimap_setFlag (t : Hashtable) (flag : Nat) :
    ({ t with validValueFlag := flag } : Hashtable).toMultimap = t.toMultimap := rfl

/-! ## `put` -/

/-- A struct linked in is the first of its bucket. -/
theorem Rep.link_bucket {n b : Nat} (h : Rep t chains (n :: free)) (hb : b < t.numberOfBuckets) :
    (t.link (t.bucketNumber k) n k v).bucket b =
      if b = t.bucketNumber k then (k, v) :: t.bucket b else t.bucket b := by
  have hentry : (chains b).map (t.link (t.bucketNumber k) n k v).entry =
      (chains b).map t.entry := by
    refine List.map_congr_left fun m hm => link_entry_of_ne ?_
    rintro rfl
    exact h.not_mem_free hb hm List.mem_cons_self
  rw [h.link.bucket_eq hb, h.bucket_eq hb, Function.update_apply]
  split
  · rename_i hbk
    subst hbk
    rw [List.map_cons, hentry]
    simp [Hashtable.link, entry]
  · exact hentry

theorem Rep.link_toMultimap {n : Nat} (h : Rep t chains (n :: free)) :
    (t.link (t.bucketNumber k) n k v).toMultimap = t.toMultimap.push k v := by
  funext k'
  have hbucket := h.link_bucket (k := k) (v := v) (bucketNumber_lt h.buckets_pos k')
  rw [Multimap.push_apply]
  show (List.filter _ ((t.link _ n k v).bucket (t.bucketNumber k'))).map _ = _
  rw [hbucket]
  unfold toMultimap
  by_cases hk : k' = k
  · subst hk
    simp
  · rw [if_neg hk]
    split
    · rw [List.filter_cons_of_neg (by simpa using Ne.symm hk)]
    · rfl

/-- What `put` refuses, in terms of the multimap: with mode 0 nothing, with mode 1
a key with a value. -/
theorem duplicate_iff (h : t.WF) {m : DuplicateCheck}
    (hm : m ≠ .rejectMultipleIdenticalValuesPerKey) :
    t.Duplicate k v m ↔ m = .rejectMultipleValuesPerKey ∧ t.toMultimap k ≠ [] := by
  rw [toMultimap_ne_nil_iff h]
  exact ⟨fun hd => hd.resolve_right fun hd => hm hd.1, Or.inl⟩

theorem put_of_room_toMultimap (h : t.WF) (hc : 0 < t.remainingCapacity) {m : DuplicateCheck}
    (hd : ¬ t.Duplicate k v m) :
    (t.put k v m).2 = 1 ∧ (t.put k v m).1.toMultimap = t.toMultimap.push k v := by
  obtain ⟨chains, free, h⟩ := h
  cases free with
  | nil =>
    have hlen := h.free_length
    simp only [List.length_nil] at hlen
    omega
  | cons n free =>
    obtain ⟨q, hq⟩ := h.freeList
    have hfirst : t.freeHashtableValueStructLinkedList = some n := (Path.cons_iff.mp hq).1
    have hput : t.put k v m = (t.link (t.bucketNumber k) n k v, 1) := by
      unfold put
      rw [if_neg (by omega), if_neg fun hdup => hd (h.hasDuplicate_iff.mp hdup), hfirst]
    rw [hput]
    exact ⟨rfl, h.link_toMultimap⟩

/-- When `put` is refused. -/
theorem put_eq_zero_iff (h : t.WF) (k v : Nat) (m : DuplicateCheck) :
    (t.put k v m).2 = 0 ↔ t.remainingCapacity = 0 ∨ t.Duplicate k v m := by
  constructor
  · intro hstatus
    by_contra hne
    push Not at hne
    have hput := (put_of_room_toMultimap h (Nat.pos_of_ne_zero hne.1) hne.2).1
    rw [hstatus] at hput
    exact absurd hput Nat.zero_ne_one
  · rintro (hc | hd)
    · rw [put_of_full hc]
    · rw [put_of_duplicate h hd]

/-- A refused `put` changes nothing. -/
theorem put_of_status_zero (h : t.WF) {m : DuplicateCheck} (hstatus : (t.put k v m).2 = 0) :
    t.put k v m = (t, 0) := by
  rcases (put_eq_zero_iff h k v m).mp hstatus with hc | hd
  · exact put_of_full hc
  · exact put_of_duplicate h hd

/-- `put` pushes or is refused. -/
theorem put_toMultimap (h : t.WF) (k v : Nat) (m : DuplicateCheck) :
    (t.put k v m).2 = 0 ∨
      (t.put k v m).2 = 1 ∧ (t.put k v m).1.toMultimap = t.toMultimap.push k v := by
  by_cases hrefused : t.remainingCapacity = 0 ∨ t.Duplicate k v m
  · exact .inl ((put_eq_zero_iff h k v m).mpr hrefused)
  · push Not at hrefused
    exact .inr (put_of_room_toMultimap h (Nat.pos_of_ne_zero hrefused.1) hrefused.2)

/-! ## `get` and `getNthValueAtKey` -/

/-- `get` finds the top of the stack. -/
theorem get_eq (h : t.WF) (k : Nat) : t.get k = t.found (t.toMultimap k).head? := by
  obtain ⟨chains, free, h⟩ := h
  have hbk := bucketNumber_lt h.buckets_pos k
  have hloop := getLoop_eq (h.chain hbk) (h.chain_length hbk) k
  rw [← List.head?_filter, ← List.head?_map, ← h.toMultimap_eq] at hloop
  unfold get
  rw [hloop]
  cases (t.toMultimap k).head? <;> rfl

/-- The search of `getNthValueAtKey` passes over `n` structs with the key. -/
theorem getNthLoop_eq {p : Option Nat} {l : List Nat} (hc : Chain t.next p l) {f : Nat}
    (hl : l.length ≤ f) (k n : Nat) :
    t.getNthLoop k f n p =
      ((l.filter fun n => (t.values n).key = k).map fun n => (t.values n).underlyingData)[n]? := by
  induction l generalizing p f n with
  | nil =>
    obtain rfl := Path.nil_iff.mp hc
    cases f <;> rfl
  | cons a l ih =>
    obtain ⟨rfl, ht⟩ := Path.cons_iff.mp hc
    cases f with
    | zero => simp at hl
    | succ f =>
      have hrec := fun n => ih ht (f := f) (by simpa using hl) n
      unfold getNthLoop
      by_cases hk : (t.values a).key = k
      · rw [if_pos hk, List.filter_cons_of_pos (by simpa using hk), List.map_cons]
        cases n with
        | zero => rfl
        | succ n => exact hrec n
      · rw [if_neg hk, List.filter_cons_of_neg (by simpa using hk)]
        exact hrec n

/-- `getNthValueAtKey` finds the `n`-th value from the top. -/
theorem getNthValueAtKey_eq (h : t.WF) (k n : Nat) :
    t.getNthValueAtKey k n = t.found (t.toMultimap k)[n]? := by
  obtain ⟨chains, free, h⟩ := h
  have hbk := bucketNumber_lt h.buckets_pos k
  have hloop := getNthLoop_eq (h.chain hbk) (h.chain_length hbk) k n
  rw [← h.toMultimap_eq] at hloop
  unfold getNthValueAtKey
  rw [hloop]
  cases (t.toMultimap k)[n]? <;> rfl

theorem found_wf (h : t.WF) (value : Option Nat) : (t.found value).1.WF := by
  cases value <;> exact h.setFlag _

@[simp] theorem found_toMultimap (t : Hashtable) (value : Option Nat) :
    (t.found value).1.toMultimap = t.toMultimap := by
  cases value <;> rfl

@[simp] theorem found_capacity (t : Hashtable) (value : Option Nat) :
    (t.found value).1.maximumCapacity = t.maximumCapacity := by
  cases value <;> rfl

/-! ## `remove` -/

/-- What is left of a bucket keeps its order. -/
theorem Rep.unlink_bucket {b b' x : Nat} {l₁ l₂ : List Nat} (h : Rep t chains free)
    (hb : b < t.numberOfBuckets) (hl : chains b = l₁ ++ x :: l₂) (hb' : b' < t.numberOfBuckets) :
    (t.unlink b l₁.getLast? x).bucket b' =
      if b' = b then l₁.map t.entry ++ l₂.map t.entry else t.bucket b' := by
  have hentry : ∀ m, m ≠ x → (t.unlink b l₁.getLast? x).entry m = t.entry m :=
    fun _ => unlink_entry_of_ne
  rw [(h.unlink hb hl).bucket_eq hb', h.bucket_eq hb', Function.update_apply]
  split
  · have hnodup := (h.chain hb).nodup
    rw [hl, List.nodup_middle] at hnodup
    rw [← List.map_append]
    exact List.map_congr_left fun m hm =>
      hentry m (ne_of_mem_of_not_mem hm (List.nodup_cons.mp hnodup).1)
  · rename_i hne
    refine List.map_congr_left fun m hm => hentry m ?_
    rintro rfl
    exact hne (h.bucket_unique hb' hb hm (by rw [hl]; simp))

/-- Unlinking the first struct with a key pops the stack of the key. -/
theorem Rep.unlink_toMultimap {x : Nat} {l₁ l₂ : List Nat} (h : Rep t chains free)
    (hl : chains (t.bucketNumber k) = l₁ ++ x :: l₂) (hx : (t.values x).key = k)
    (hl₁ : ∀ n ∈ l₁, (t.values n).key ≠ k) :
    t.toMultimap k = (t.values x).underlyingData ::
        (t.unlink (t.bucketNumber k) l₁.getLast? x).toMultimap k ∧
      (t.unlink (t.bucketNumber k) l₁.getLast? x).toMultimap = t.toMultimap.pop k := by
  have hbk := bucketNumber_lt h.buckets_pos k
  have hsplit : t.bucket (t.bucketNumber k) =
      l₁.map t.entry ++ (k, (t.values x).underlyingData) :: l₂.map t.entry := by
    rw [h.bucket_eq hbk, hl, List.map_append, List.map_cons, ← hx]
    rfl
  have hnone : (l₁.map t.entry).filter (fun e => e.1 = k) = [] := by
    rw [List.filter_eq_nil_iff]
    rintro e he
    obtain ⟨n, hn, rfl⟩ := List.mem_map.mp he
    exact fun hkey => hl₁ n hn (of_decide_eq_true hkey)
  have hstack : t.toMultimap k = (t.values x).underlyingData ::
      ((l₂.map t.entry).filter fun e => e.1 = k).map Prod.snd := by
    unfold toMultimap
    rw [hsplit, List.filter_append, hnone, List.nil_append, List.filter_cons_of_pos (by simp),
      List.map_cons]
  have hpop : (t.unlink (t.bucketNumber k) l₁.getLast? x).toMultimap = t.toMultimap.pop k := by
    funext k'
    have hbucket := h.unlink_bucket hbk hl (bucketNumber_lt h.buckets_pos k')
    rw [Multimap.pop_apply]
    show (List.filter _ ((t.unlink _ l₁.getLast? x).bucket (t.bucketNumber k'))).map _ = _
    rw [hbucket]
    by_cases hk : k' = k
    · subst hk
      rw [if_pos rfl, if_pos rfl, hstack, List.filter_append, hnone]
      rfl
    · rw [if_neg hk]
      split
      · -- another key of the same bucket
        rename_i hsame
        unfold toMultimap
        rw [hsame, hsplit, List.filter_append, List.filter_append,
          List.filter_cons_of_neg (by simpa using Ne.symm hk)]
      · rfl
  refine ⟨?_, hpop⟩
  rw [hpop, Multimap.pop_apply, if_pos rfl, hstack, List.tail_cons]

/-- `remove` pops the stack of its key. -/
theorem remove_toMultimap (h : t.WF) (k : Nat) :
    (t.remove k).1.WF ∧ (t.remove k).1.maximumCapacity = t.maximumCapacity ∧
      (t.remove k).1.toMultimap = t.toMultimap.pop k ∧
      match t.toMultimap k with
      | [] => t.remove k = t.found none
      | value :: _ => (t.remove k).2 = value ∧ (t.remove k).1.validValueFlag = 1 := by
  by_cases hk : t.toMultimap k = []
  · have hremove := remove_of_not_mem h fun w hw => (toMultimap_ne_nil_iff h).mpr ⟨w, hw⟩ hk
    rw [hremove, hk, Multimap.pop_of_nil hk]
    exact ⟨h.setFlag 0, rfl, rfl, rfl⟩
  · obtain ⟨chains, free, h⟩ := h
    have hbk := bucketNumber_lt h.buckets_pos k
    -- split the bucket at the first struct with the key
    obtain ⟨x, hx⟩ : ∃ x, (chains (t.bucketNumber k)).find? (fun n => (t.values n).key = k) =
        some x := by
      rw [← Option.isSome_iff_exists, List.find?_isSome]
      obtain ⟨w, hw⟩ := (toMultimap_ne_nil_iff ⟨_, _, h⟩).mp hk
      obtain ⟨n, hn, he⟩ := h.mem_content.mp hw
      exact ⟨n, hn, decide_eq_true (congrArg Prod.fst he)⟩
    obtain ⟨hxk, l₁, l₂, hl, hl₁⟩ := List.find?_eq_some_iff_append.mp hx
    have hxk : (t.values x).key = k := by simpa using hxk
    have hl₁ : ∀ n ∈ l₁, (t.values n).key ≠ k := fun n hn => by simpa using hl₁ n hn
    have hloop := removeLoop_some (hl ▸ h.chain hbk) (hl ▸ h.chain_length hbk) hl₁ hxk none
    rw [Option.or_none] at hloop
    have hremove : t.remove k = (t.unlink (t.bucketNumber k) l₁.getLast? x,
        (t.values x).underlyingData) := by
      unfold remove
      rw [hloop]
    obtain ⟨hstack, hpop⟩ := h.unlink_toMultimap hl hxk hl₁
    rw [hremove, hstack]
    exact ⟨⟨_, _, h.unlink hbk hl⟩, rfl, hpop, rfl, rfl⟩

/-! ## The walk over all buckets -/

theorem walkBuckets_eq {ns : List Nat} (hns : ∀ n ∈ ns, n < t.numberOfBuckets) :
    t.walkBuckets ns = ns.flatMap t.bucket := by
  induction ns generalizing t with
  | nil => rfl
  | cons n ns ih =>
    obtain ⟨flag, hfirst⟩ := getFirstElementOfNthBucket_of_lt (hns n List.mem_cons_self)
    have hrest := ih (t := { t with validValueFlag := flag })
      fun m hm => hns m (List.mem_cons_of_mem n hm)
    simp only [walkBuckets, hfirst]
    rw [hrest]
    rfl

/-- Of a list of lists all but one of which are empty, that one is left. -/
theorem flatMap_of_unique {α β : Type} {f : α → List β} {l : List α} {a : α} (hl : l.Nodup)
    (ha : a ∈ l) (h : ∀ b ∈ l, b ≠ a → f b = []) : l.flatMap f = f a := by
  obtain ⟨l₁, l₂, rfl⟩ := List.append_of_mem ha
  rw [List.nodup_middle] at hl
  have ha' := (List.nodup_cons.mp hl).1
  have hnil : ∀ l', l' ⊆ l₁ ++ l₂ → l'.flatMap f = [] := by
    intro l' hsub
    rw [List.flatMap_eq_nil_iff]
    intro b hb
    refine h b ?_ (ne_of_mem_of_not_mem (hsub hb) ha')
    have hmem := List.mem_append.mp (hsub hb)
    simp only [List.mem_append, List.mem_cons]
    tauto
  rw [List.flatMap_append, List.flatMap_cons, hnil l₁ (List.subset_append_left l₁ l₂),
    hnil l₂ (List.subset_append_right l₁ l₂), List.nil_append, List.append_nil]

/-- The walk meets the values of a key from the top of its stack to the bottom. -/
theorem walkBuckets_filter (h : t.WF) (k : Nat) :
    ((t.walkBuckets (List.range t.numberOfBuckets)).filter fun e => e.1 = k).map Prod.snd =
      t.toMultimap k := by
  obtain ⟨chains, free, h⟩ := h
  have hbk := bucketNumber_lt h.buckets_pos k
  rw [walkBuckets_eq fun n hn => List.mem_range.mp hn, List.filter_flatMap,
    flatMap_of_unique (f := fun b => (t.bucket b).filter fun e => e.1 = k) List.nodup_range
      (List.mem_range.mpr hbk)]
  · rfl
  · intro b hb hne
    rw [List.filter_eq_nil_iff]
    intro e he hek
    have hhash := h.hashed_bucket (List.mem_range.mp hb) he
    rw [of_decide_eq_true hek] at hhash
    exact hne hhash.symm

/-- From the first struct of a bucket the pointers lead to `NULL`. -/
theorem chain_walk (h : t.WF) {n : Nat} (hn : n < t.numberOfBuckets) :
    Chain t.next (t.getFirstElementOfNthBucket n).2
      (walk t.next t.maximumCapacity (t.getFirstElementOfNthBucket n).2) := by
  obtain ⟨chains, free, h⟩ := h
  obtain ⟨flag, hfirst⟩ := getFirstElementOfNthBucket_of_lt hn
  have hchain := h.chain hn
  rw [hfirst]
  dsimp only
  rw [hchain.walk_eq (h.chain_length hn)]
  exact hchain

theorem newHashtable_toMultimap {capacity numberOfBuckets : Nat} (memory : Nat → HashtableValue)
    (flag k : Nat) : (newHashtable capacity numberOfBuckets memory flag).toMultimap k = [] := by
  unfold toMultimap bucket cells newHashtable
  cases capacity <;> rfl

/-! ## Runs -/

/-- A call on a table. -/
inductive Call where
  | put (key value : Nat) (checkForDuplicates : DuplicateCheck)
  | get (key : Nat)
  | getNthValueAtKey (key n : Nat)
  | remove (key : Nat)

/-- What the third argument of `put` stands for; mode 2 looks at the whole
bucket, so what it refuses depends on the hash function. -/
def DuplicateCheck.policy : DuplicateCheck → Multimap.Policy
  | .disableDuplicateChecks => .every
  | .rejectMultipleValuesPerKey => .newKeys
  | .rejectMultipleIdenticalValuesPerKey => .other

/-- A value returned together with the flag that says whether there is one. -/
def returned (result : Hashtable × Nat) : Option Nat :=
  if result.1.validValueFlag = 0 then none else some result.2

namespace Call

/-- The table after a call. -/
def next (t : Hashtable) : Call → Hashtable
  | .put k v m => (t.put k v m).1
  | .get k => (t.get k).1
  | .getNthValueAtKey k n => (t.getNthValueAtKey k n).1
  | .remove k => (t.remove k).1

/-- The call with what it returns. -/
def answer (t : Hashtable) : Call → Multimap.Event Nat Nat
  | .put k v m => .put k v (DuplicateCheck.policy m) (decide ((t.put k v m).2 ≠ 0))
  | .get k => .get k (returned (t.get k))
  | .getNthValueAtKey k n => .getNth k n (returned (t.getNthValueAtKey k n))
  | .remove k => .remove k (returned (t.remove k))

end Call

/-- What every call of a run keeps. -/
structure IsMultimap (capacity : Nat) (t : Hashtable) : Prop where
  wf : t.WF
  capacity_eq : t.maximumCapacity = capacity

variable {capacity : Nat}

@[simp] theorem returned_found (t : Hashtable) (value : Option Nat) :
    returned (t.found value) = value := by
  cases value <;> rfl

theorem IsMultimap.room_iff (h : IsMultimap capacity t) :
    t.remainingCapacity = 0 ↔ t.toMultimap.size = capacity := by
  have hsize := remaining_add_size h.wf
  have hcapacity := h.capacity_eq
  omega

theorem IsMultimap.put (h : IsMultimap capacity t) (k v : Nat) (m : DuplicateCheck) :
    IsMultimap capacity (t.put k v m).1 ∧
      Multimap.Step capacity t.toMultimap ((Call.put k v m).answer t)
        (t.put k v m).1.toMultimap := by
  simp only [Call.answer]
  rcases put_toMultimap h.wf k v m with hstatus | ⟨hstatus, hpush⟩
  · -- refused
    have hrefused := (put_eq_zero_iff h.wf k v m).mp hstatus
    rw [put_of_status_zero h.wf hstatus]
    refine ⟨h, .refuse ?_ ?_⟩
    · intro hevery
      obtain rfl : m = .disableDuplicateChecks := by cases m <;> simp_all [DuplicateCheck.policy]
      rw [duplicate_iff h.wf (by decide), h.room_iff] at hrefused
      exact hrefused.resolve_right fun hd => absurd hd.1 (by decide)
    · intro hnew
      obtain rfl : m = .rejectMultipleValuesPerKey := by
        cases m <;> simp_all [DuplicateCheck.policy]
      rw [duplicate_iff h.wf (by decide), h.room_iff] at hrefused
      exact hrefused.imp_right And.right
  · -- stored
    have haccepted : ¬ (t.remainingCapacity = 0 ∨ t.Duplicate k v m) := by
      rw [← put_eq_zero_iff h.wf, hstatus]
      exact Nat.one_ne_zero
    push Not at haccepted
    have hsize := remaining_add_size h.wf
    have hcapacity := h.capacity_eq
    rw [hpush, hstatus]
    refine ⟨?_, .put (by omega) ?_⟩
    · obtain ⟨t', hput, hwf, -, -, hmax⟩ := put_of_room h.wf (by omega) haccepted.2
      rw [hput]
      exact ⟨hwf, hmax.trans hcapacity⟩
    · intro hnew
      obtain rfl : m = .rejectMultipleValuesPerKey := by
        cases m <;> simp_all [DuplicateCheck.policy]
      by_contra hne
      exact haccepted.2 ((duplicate_iff h.wf (by decide)).mpr ⟨rfl, hne⟩)

theorem IsMultimap.found (h : IsMultimap capacity t) (value : Option Nat) :
    IsMultimap capacity (t.found value).1 :=
  ⟨found_wf h.wf value, (found_capacity t value).trans h.capacity_eq⟩

/-- **One call** keeps the table in shape and is a call of the multimap. -/
theorem IsMultimap.step (h : IsMultimap capacity t) (call : Call) :
    IsMultimap capacity (call.next t) ∧
      Multimap.Step capacity t.toMultimap (call.answer t) (call.next t).toMultimap := by
  cases call with
  | put k v m => exact h.put k v m
  | get k =>
    simp only [Call.next, Call.answer, get_eq h.wf, returned_found, found_toMultimap]
    exact ⟨h.found _, .get _ k⟩
  | getNthValueAtKey k n =>
    simp only [Call.next, Call.answer, getNthValueAtKey_eq h.wf, returned_found, found_toMultimap]
    exact ⟨h.found _, .getNth _ k n⟩
  | remove k =>
    obtain ⟨hwf, hmax, hpop, hreturned⟩ := remove_toMultimap h.wf k
    have hvalue : returned (t.remove k) = (t.toMultimap k).head? := by
      cases hstack : t.toMultimap k with
      | nil =>
        rw [hstack] at hreturned
        rw [hreturned, returned_found, List.head?_nil]
      | cons value rest =>
        rw [hstack] at hreturned
        rw [returned, hreturned.2, if_neg Nat.one_ne_zero, hreturned.1, List.head?_cons]
    simp only [Call.next, Call.answer, hpop, hvalue]
    exact ⟨⟨hwf, hmax.trans h.capacity_eq⟩, .remove _ k⟩

/-- The table after the run with these events is the multimap of at most
`capacity` values. -/
structure RefinesMultimap (capacity : Nat) (events : List (Multimap.Event Nat Nat))
    (t : Hashtable) : Prop where
  run : Run (Multimap.Step capacity) (fun _ => []) events t.toMultimap
  remaining : t.remainingCapacity + t.toMultimap.size = capacity
  put_mode0 : ∀ k v, (t.put k v .disableDuplicateChecks).2 = 0 ↔ t.remainingCapacity = 0
  put_mode1 : ∀ k v, (t.put k v .rejectMultipleValuesPerKey).2 = 0 ↔
    t.remainingCapacity = 0 ∨ t.toMultimap k ≠ []
  put_refused : ∀ k v m, (t.put k v m).2 = 0 → (t.put k v m).1 = t
  put_accepted : ∀ k v m, (t.put k v m).2 ≠ 0 →
    (t.put k v m).2 = 1 ∧ (t.put k v m).1.toMultimap = t.toMultimap.push k v
  get : ∀ k, t.get k = t.found (t.toMultimap k).head?
  getNth : ∀ k n, t.getNthValueAtKey k n = t.found (t.toMultimap k)[n]?
  remove : ∀ k, (t.remove k).1.toMultimap = t.toMultimap.pop k ∧
    match t.toMultimap k with
    | [] => t.remove k = t.found none
    | value :: _ => (t.remove k).2 = value ∧ (t.remove k).1.validValueFlag = 1
  /-- Every bucket is a null-terminated list, -/
  buckets : ∀ n < t.numberOfBuckets, Chain t.next (t.getFirstElementOfNthBucket n).2
    (walk t.next t.maximumCapacity (t.getFirstElementOfNthBucket n).2)
  /-- and a walk over all of them meets the values stored under each key. -/
  visits : ∀ k, ((t.walkBuckets (List.range t.numberOfBuckets)).filter fun e => e.1 = k).map
    Prod.snd = t.toMultimap k

/-- **The hashtable is a bounded multimap**: in every run of `put`, `get`,
`getNthValueAtKey` and `remove` on a fresh table. A call acts on the stack of its
own key only (`Multimap.push`, `Multimap.pop`). -/
theorem hashtable_refines_multimap {numberOfBuckets : Nat} (hc : 0 < capacity)
    (hb : 0 < numberOfBuckets) (memory : Nat → HashtableValue) (flag : Nat) (calls : List Call) :
    RefinesMultimap capacity
      (transcript Call.next Call.answer (newHashtable capacity numberOfBuckets memory flag) calls)
      (calls.foldl Call.next (newHashtable capacity numberOfBuckets memory flag)) := by
  have hnew : IsMultimap capacity (newHashtable capacity numberOfBuckets memory flag) :=
    ⟨newHashtable_wf hc hb memory flag, rfl⟩
  have h : IsMultimap capacity
      (calls.foldl Call.next (newHashtable capacity numberOfBuckets memory flag)) :=
    List.foldlRecOn calls Call.next hnew fun t h call _ => (h.step call).1
  have hempty : (newHashtable capacity numberOfBuckets memory flag).toMultimap = fun _ => [] :=
    funext fun k => newHashtable_toMultimap memory flag k
  have hrun := Run.of_simulation toMultimap (fun _ call h => (IsMultimap.step h call).1)
    (fun _ call h => (IsMultimap.step h call).2) hnew calls
  rw [hempty] at hrun
  exact
    { run := hrun
      remaining := (remaining_add_size h.wf).trans h.capacity_eq
      put_mode0 := fun k v => by
        rw [put_eq_zero_iff h.wf, duplicate_iff h.wf (by decide)]
        simp
      put_mode1 := fun k v => by
        rw [put_eq_zero_iff h.wf, duplicate_iff h.wf (by decide)]
        simp
      put_refused := fun k v m hstatus => by rw [put_of_status_zero h.wf hstatus]
      put_accepted := fun k v m hstatus => (put_toMultimap h.wf k v m).resolve_left hstatus
      get := get_eq h.wf
      getNth := getNthValueAtKey_eq h.wf
      remove := fun k => (remove_toMultimap h.wf k).2.2
      buckets := fun n hn => chain_walk h.wf hn
      visits := walkBuckets_filter h.wf }

/-- Two values under one key, one under another key of the same bucket, a value
too many, and a removal. -/
theorem hashtable_refines_multimap_oneBucket :
    RefinesMultimap 3
      (transcript Call.next Call.answer (newHashtable 3 1 (fun _ => ⟨none, 0, 0⟩) 0)
        [.put 7 70 .disableDuplicateChecks, .put 9 90 .rejectMultipleValuesPerKey,
          .put 7 71 .rejectMultipleIdenticalValuesPerKey, .put 8 80 .disableDuplicateChecks,
          .remove 7, .getNthValueAtKey 7 0])
      ([.put 7 70 .disableDuplicateChecks, .put 9 90 .rejectMultipleValuesPerKey,
          .put 7 71 .rejectMultipleIdenticalValuesPerKey, .put 8 80 .disableDuplicateChecks,
          .remove 7, .getNthValueAtKey 7 0].foldl Call.next
        (newHashtable 3 1 (fun _ => ⟨none, 0, 0⟩) 0)) :=
  hashtable_refines_multimap (by decide) (by decide) _ 0 _

/-! ## Identical values -/

/-- A call on a table, or the first step of a walk over one of its buckets. -/
inductive Operation where
  | call (call : Call)
  | getFirstElementOfNthBucket (n : Nat)

/-- The table after an operation. -/
def Operation.next (t : Hashtable) : Operation → Hashtable
  | .call c => c.next t
  | .getFirstElementOfNthBucket n => (t.getFirstElementOfNthBucket n).1

theorem Operation.next_wf (h : t.WF) (operation : Operation) : (operation.next t).WF := by
  cases operation with
  | call c =>
    have hself : IsMultimap t.maximumCapacity t := ⟨h, rfl⟩
    exact (hself.step c).1.wf
  | getFirstElementOfNthBucket n =>
    obtain ⟨flag, htable⟩ := getFirstElementOfNthBucket_table t n
    show (t.getFirstElementOfNthBucket n).1.WF
    rw [htable]
    exact h.setFlag flag

/-- With mode 2, `put` is refused only for want of room, or because the value is
stored under the key already. -/
def RejectsPerKey (t : Hashtable) (k v : Nat) : Prop :=
  (t.put k v .rejectMultipleIdenticalValuesPerKey).2 = 0 ↔
    t.remainingCapacity = 0 ∨ v ∈ t.toMultimap k

/-- What mode 2 refuses: a value that any key of the bucket has. -/
theorem duplicate_identical_iff (h : t.WF) :
    t.Duplicate k v .rejectMultipleIdenticalValuesPerKey ↔
      ∃ k', t.bucketNumber k' = t.bucketNumber k ∧ v ∈ t.toMultimap k' := by
  simp only [mem_toMultimap h]
  constructor
  · rintro (⟨hmode, -⟩ | ⟨-, k', hbucket, hv⟩)
    · cases hmode
    · exact ⟨k', hbucket, hv⟩
  · rintro ⟨k', hbucket, hv⟩
    exact .inr ⟨rfl, k', hbucket, hv⟩

/-- **Identical values** are refused per key exactly when, with room left and the
value not under the key yet, no other key of the same bucket has it. -/
theorem rejects_per_key_iff {capacity numberOfBuckets : Nat} (hc : 0 < capacity)
    (hb : 0 < numberOfBuckets) (memory : Nat → HashtableValue) (flag : Nat)
    (operations : List Operation) (k v : Nat) :
    let t := operations.foldl Operation.next (newHashtable capacity numberOfBuckets memory flag)
    t.RejectsPerKey k v ↔ t.remainingCapacity = 0 ∨ v ∈ t.toMultimap k ∨
      ∀ k', t.bucketNumber k' = t.bucketNumber k → v ∉ t.toMultimap k' := by
  intro t
  have h : t.WF := List.foldlRecOn operations Operation.next (newHashtable_wf hc hb memory flag)
    fun _ h operation _ => Operation.next_wf h operation
  unfold RejectsPerKey
  rw [put_eq_zero_iff h, duplicate_identical_iff h]
  constructor
  · intro hper
    by_contra hne
    push Not at hne
    obtain ⟨hroom, hnew, hother⟩ := hne
    exact (hper.mp (.inr hother)).elim hroom hnew
  · rintro (hfull | hold | hother)
    · simp [hfull]
    · exact ⟨fun _ => .inr hold, fun _ => .inr ⟨k, rfl, hold⟩⟩
    · have hnew := hother k rfl
      have hnone : ¬ ∃ k', t.bucketNumber k' = t.bucketNumber k ∧ v ∈ t.toMultimap k' :=
        fun ⟨k', hbucket, hv⟩ => hother k' hbucket hv
      simp [hnew, hnone]

/-- A value put under key 7 of a table of one bucket. -/
def sharedBucket : Hashtable :=
  [Operation.call (.put 7 70 .rejectMultipleIdenticalValuesPerKey)].foldl Operation.next
    (newHashtable 3 1 (fun _ => ⟨none, 0, 0⟩) 0)

/-- Per key with a value that no key has. -/
theorem rejects_per_key_iff_sharedBucket :
    sharedBucket.RejectsPerKey 9 71 ↔ sharedBucket.remainingCapacity = 0 ∨
      71 ∈ sharedBucket.toMultimap 9 ∨
      ∀ k', sharedBucket.bucketNumber k' = sharedBucket.bucketNumber 9 →
        71 ∉ sharedBucket.toMultimap k' :=
  rejects_per_key_iff (by decide) (by decide) _ 0 _ 9 71

/-- Under key 9 the value of key 7 is refused. -/
theorem other_key_rejects : ¬ sharedBucket.RejectsPerKey 9 70 := by
  intro h
  exact absurd (h.mp (by decide)) (by decide)

end DocetOS.Hashtable
