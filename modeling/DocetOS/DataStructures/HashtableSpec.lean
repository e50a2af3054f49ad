import DocetOS.DataStructures.Hashtable
import DocetOS.Lib.ChainFamily

/-!
# What the hashtable stores

`Rep t chains free` ties the pointers of a table to lists: bucket `b` is the
null-terminated chain `chains b`, the first `remainingCapacity` structs of the
free list are `free`, and every value struct of the block is in exactly one of
these lists. What lies behind the last free struct is not mentioned: it is the
uninitialised `nextHashtableValue` the table starts with.

`content t` is the multiset of the `(key, value)` pairs stored. The operations
keep `WF` (`Rep` for some lists) and act on `content` as a bounded multimap:

- `put_of_room`, `put_of_duplicate`, `put_of_full`;
- `get_of_mem`, `get_of_not_mem`, `get_content`;
- `remove_of_mem`, `remove_of_not_mem`.
-/

namespace DocetOS.Hashtable

open Lib

/-! ## The lists of a table -/

/-- The cell after a cell. -/
def next (t : Hashtable) (n : Nat) : Option Nat := (t.values n).nextHashtableValue

/-- The pair a cell stores. -/
def entry (t : Hashtable) (n : Nat) : Nat × Nat :=
  ((t.values n).key, (t.values n).underlyingData)

/-- The cells of bucket `b`, first to last. -/
def cells (t : Hashtable) (b : Nat) : List Nat :=
  walk t.next t.maximumCapacity (t.bucketArray b)

/-- The pairs of bucket `b`, first to last. -/
def bucket (t : Hashtable) (b : Nat) : List (Nat × Nat) :=
  (t.cells b).map t.entry

/-- The pairs the table stores. -/
def content (t : Hashtable) : Multiset (Nat × Nat) :=
  ∑ b ∈ Finset.range t.numberOfBuckets, (t.bucket b : Multiset (Nat × Nat))

/-- Where the lists of a table start: `none` is the free list, `some b` is
bucket `b`. -/
def head (t : Hashtable) : Option Nat → Option Nat
  | none => t.freeHashtableValueStructLinkedList
  | some b => t.bucketArray b

/-- The free list and the bucket chains as one family of lists. -/
def lists (free : List Nat) (chains : Nat → List Nat) : Option Nat → List Nat
  | none => free
  | some b => chains b

/-- The indices of the lists of a table. -/
abbrev indices (t : Hashtable) : Finset (Option Nat) :=
  Finset.insertNone (Finset.range t.numberOfBuckets)

/-- The pointers of `t` form the bucket chains `chains` and the free list
`free`. The buckets are null-terminated, the free list ends anywhere. -/
structure Rep (t : Hashtable) (chains : Nat → List Nat) (free : List Nat) : Prop where
  buckets_pos : 0 < t.numberOfBuckets
  links : ∃ q, Family t.next t.indices t.head (fun i => i.elim q fun _ => none)
    (lists free chains)
  free_length : free.length = t.remainingCapacity
  cells : (free : Multiset Nat) +
      ∑ b ∈ Finset.range t.numberOfBuckets, (chains b : Multiset Nat) =
    Multiset.range t.maximumCapacity
  hashed : ∀ b < t.numberOfBuckets, ∀ n ∈ chains b, t.bucketNumber (t.values n).key = b

/-- A table every operation keeps in shape. -/
def WF (t : Hashtable) : Prop := ∃ chains free, Rep t chains free

section Rep

variable {t : Hashtable} {chains : Nat → List Nat} {free : List Nat}

theorem bucketNumber_lt (h : 0 < t.numberOfBuckets) (k : Nat) :
    t.bucketNumber k < t.numberOfBuckets :=
  Nat.mod_lt _ h

@[simp] theorem lists_update_none (free l : List Nat) (chains : Nat → List Nat) :
    Function.update (lists free chains) none l = lists l chains := by
  funext i
  cases i <;> simp [lists]

@[simp] theorem lists_update_some (free l : List Nat) (chains : Nat → List Nat) (b : Nat) :
    Function.update (lists free chains) (some b) l = lists free (Function.update chains b l) := by
  funext i
  cases i <;> simp [lists, Function.update_apply]

theorem some_mem_indices {b : Nat} (hb : b < t.numberOfBuckets) : some b ∈ t.indices :=
  Finset.some_mem_insertNone.mpr (Finset.mem_range.mpr hb)

theorem none_mem_indices (t : Hashtable) : none ∈ t.indices := Finset.none_mem_insertNone

theorem Rep.chain (h : Rep t chains free) {b : Nat} (hb : b < t.numberOfBuckets) :
    Chain t.next (t.bucketArray b) (chains b) := by
  obtain ⟨q, hq⟩ := h.links
  exact hq.path (some b) (some_mem_indices hb)

theorem Rep.freeList (h : Rep t chains free) :
    ∃ q, Path t.next t.freeHashtableValueStructLinkedList free q := by
  obtain ⟨q, hq⟩ := h.links
  exact ⟨q, hq.path none (none_mem_indices t)⟩

theorem Rep.chain_add_free_length (h : Rep t chains free) {b : Nat} (hb : b < t.numberOfBuckets) :
    (chains b).length + free.length ≤ t.maximumCapacity := by
  have hle := Multiset.card_le_card (add_le_add_right
    (coe_le_sum (Finset.mem_range.mpr hb) chains) (free : Multiset Nat))
  rw [h.cells] at hle
  simp only [Multiset.card_add, Multiset.coe_card, Multiset.card_range] at hle
  omega

theorem Rep.chain_length (h : Rep t chains free) {b : Nat} (hb : b < t.numberOfBuckets) :
    (chains b).length ≤ t.maximumCapacity :=
  (Nat.le_add_right _ _).trans (h.chain_add_free_length hb)

theorem Rep.cells_eq (h : Rep t chains free) {b : Nat} (hb : b < t.numberOfBuckets) :
    t.cells b = chains b :=
  (h.chain hb).walk_eq (h.chain_length hb)

theorem Rep.content_eq (h : Rep t chains free) :
    t.content = (∑ b ∈ Finset.range t.numberOfBuckets, (chains b : Multiset Nat)).map t.entry := by
  unfold content bucket
  rw [← Multiset.coe_mapAddMonoidHom, map_sum]
  refine Finset.sum_congr rfl ?_
  intro b hb
  rw [h.cells_eq (Finset.mem_range.mp hb)]
  rfl

/-- A cell of a bucket stores its pair. -/
theorem Rep.entry_mem (h : Rep t chains free) {b n : Nat} (hb : b < t.numberOfBuckets)
    (hn : n ∈ chains b) : t.entry n ∈ t.content := by
  rw [h.content_eq]
  exact Multiset.mem_map_of_mem t.entry (mem_sum_coe.mpr ⟨b, Finset.mem_range.mpr hb, hn⟩)

/-- Free cells and stored pairs make up the capacity. -/
theorem Rep.card_content (h : Rep t chains free) :
    t.remainingCapacity + t.content.card = t.maximumCapacity := by
  have hc := congrArg Multiset.card h.cells
  rw [h.content_eq, Multiset.card_map, ← h.free_length]
  simpa using hc

/-- A cell of a bucket is not free. -/
theorem Rep.not_mem_free (h : Rep t chains free) {b n : Nat} (hb : b < t.numberOfBuckets)
    (hn : n ∈ chains b) : n ∉ free := by
  intro hf
  obtain ⟨q, hq⟩ := h.links
  exact absurd (hq.index_unique (some_mem_indices hb) (none_mem_indices t) hn hf) (by simp)

/-- Two buckets share no cell: a cell tells its bucket by its key. -/
theorem Rep.bucket_unique (h : Rep t chains free) {b b' n : Nat} (hb : b < t.numberOfBuckets)
    (hb' : b' < t.numberOfBuckets) (hn : n ∈ chains b) (hn' : n ∈ chains b') : b = b' :=
  (h.hashed b hb n hn).symm.trans (h.hashed b' hb' n hn')

/-- A pair stored under `k` is the pair of a cell of the bucket of `k`. -/
theorem Rep.mem_content (h : Rep t chains free) {k v : Nat} :
    (k, v) ∈ t.content ↔
      ∃ n ∈ chains (t.bucketNumber k), t.entry n = (k, v) := by
  rw [h.content_eq, Multiset.mem_map]
  constructor
  · rintro ⟨n, hn, he⟩
    obtain ⟨b, hb, hn⟩ := Multiset.mem_sum.mp hn
    have hk : (t.values n).key = k := congrArg Prod.fst he
    have hbk := h.hashed b (Finset.mem_range.mp hb) n hn
    rw [hk] at hbk
    exact ⟨n, by rw [hbk]; exact hn, he⟩
  · rintro ⟨n, hn, he⟩
    refine ⟨n, Multiset.mem_sum.mpr ⟨t.bucketNumber k, ?_, Multiset.mem_coe.mpr hn⟩, he⟩
    exact Finset.mem_range.mpr (bucketNumber_lt h.buckets_pos k)

end Rep

/-! ## The loops over a chain -/

section Loops

variable {t : Hashtable} {p : Option Nat} {l : List Nat}

/-- The scan of `put` looks at every cell of the chain. -/
theorem hasDuplicate_iff (hc : Chain t.next p l) {f : Nat} (hl : l.length ≤ f)
    {k v : Nat} {m : DuplicateCheck} :
    t.hasDuplicate k v m f p = true ↔
      ∃ n ∈ l, (m = .rejectMultipleValuesPerKey ∧ (t.values n).key = k) ∨
        (m = .rejectMultipleIdenticalValuesPerKey ∧ (t.values n).underlyingData = v) := by
  induction l generalizing p f with
  | nil =>
    obtain rfl := Path.nil_iff.mp hc
    cases f <;> simp [hasDuplicate]
  | cons n l ih =>
    obtain ⟨rfl, ht⟩ := Path.cons_iff.mp hc
    cases f with
    | zero => simp at hl
    | succ f =>
      have hrec := ih ht (f := f) (by simpa using hl)
      -- the two tests of the cell, and then the rest of the chain
      unfold hasDuplicate
      split
      · rename_i h1
        simp [h1]
      · split
        · rename_i h1 h2
          simp [h2]
        · rename_i h1 h2
          rw [show (t.values n).nextHashtableValue = t.next n from rfl, hrec]
          simp only [List.mem_cons, exists_eq_or_imp]
          constructor
          · exact fun h => Or.inr h
          · rintro ((h | h) | h)
            · exact absurd h h1
            · exact absurd h h2
            · exact h

/-- The search of `get` finds the first cell with the key. -/
theorem getLoop_eq (hc : Chain t.next p l) {f : Nat} (hl : l.length ≤ f) (k : Nat) :
    t.getLoop k f p =
      (l.find? fun n => (t.values n).key = k).map fun n => (t.values n).underlyingData := by
  induction l generalizing p f with
  | nil =>
    obtain rfl := Path.nil_iff.mp hc
    cases f <;> rfl
  | cons n l ih =>
    obtain ⟨rfl, ht⟩ := Path.cons_iff.mp hc
    cases f with
    | zero => simp at hl
    | succ f =>
      unfold getLoop
      by_cases hk : (t.values n).key = k
      · simp [hk]
      · rw [if_neg hk, List.find?_cons_of_neg (by simpa using hk)]
        exact ih ht (by simpa using hl)

/-- The search of `remove` fails when no cell has the key. -/
theorem removeLoop_none (hc : Chain t.next p l) {f : Nat} {k : Nat}
    (hk : ∀ n ∈ l, (t.values n).key ≠ k) (prev : Option Nat) :
    t.removeLoop k f prev p = none := by
  induction l generalizing p f prev with
  | nil =>
    obtain rfl := Path.nil_iff.mp hc
    cases f <;> rfl
  | cons n l ih =>
    obtain ⟨rfl, ht⟩ := Path.cons_iff.mp hc
    cases f with
    | zero => rfl
    | succ f =>
      unfold removeLoop
      rw [if_neg (hk n List.mem_cons_self)]
      exact ih ht (fun m hm => hk m (List.mem_cons_of_mem _ hm)) _

/-- The search of `remove` finds the first cell `x` with the key, and the cell
before it. -/
theorem removeLoop_some {l₁ l₂ : List Nat} {x : Nat} (hc : Chain t.next p (l₁ ++ x :: l₂))
    {f : Nat} (hl : (l₁ ++ x :: l₂).length ≤ f) {k : Nat}
    (hk : ∀ n ∈ l₁, (t.values n).key ≠ k) (hx : (t.values x).key = k) (prev : Option Nat) :
    t.removeLoop k f prev p = some (l₁.getLast?.or prev, x) := by
  induction l₁ generalizing p f prev with
  | nil =>
    obtain ⟨rfl, -⟩ := Path.cons_iff.mp hc
    cases f with
    | zero => simp at hl
    | succ f => simp [removeLoop, hx]
  | cons n l₁ ih =>
    obtain ⟨rfl, ht⟩ := Path.cons_iff.mp hc
    cases f with
    | zero => simp at hl
    | succ f =>
      unfold removeLoop
      rw [if_neg (hk n List.mem_cons_self),
        show (t.values n).nextHashtableValue = t.next n from rfl,
        ih ht (by simpa using hl) fun m hm => hk m (List.mem_cons_of_mem _ hm)]
      cases l₁ with
      | nil => rfl
      | cons a l₁ => simp [List.getLast?_cons]

end Loops

/-! ## `put` -/

section Link

variable {t : Hashtable} {chains : Nat → List Nat} {free : List Nat} {n : Nat} {k v : Nat}

theorem link_entry_of_ne {b m : Nat} (h : m ≠ n) :
    (t.link b n k v).entry m = t.entry m := by
  simp [link, entry, Function.update_of_ne h]

theorem link_next_of_ne {b m : Nat} (h : m ≠ n) :
    (t.link b n k v).next m = t.next m := by
  simp [link, next, Function.update_of_ne h]

/-- Linking the first free cell moves it from the free list to the front of its
bucket. -/
theorem Rep.link (h : Rep t chains (n :: free)) :
    Rep (t.link (t.bucketNumber k) n k v)
      (Function.update chains (t.bucketNumber k) (n :: chains (t.bucketNumber k))) free := by
  have hbk := bucketNumber_lt h.buckets_pos k
  have hfree : ∀ b < t.numberOfBuckets, ∀ m ∈ chains b, m ≠ n := by
    rintro b hb m hm rfl
    exact h.not_mem_free hb hm List.mem_cons_self
  refine
    { buckets_pos := h.buckets_pos
      links := ?_
      free_length := ?_
      cells := ?_
      hashed := fun b hb m hm => ?_ }
  · obtain ⟨q, hq⟩ := h.links
    have hn : n ∉ free := (List.nodup_cons.mp (hq.list_nodup (none_mem_indices t))).1
    -- take `n` off the free list, then push it onto its bucket
    have hpop : Family (t.link (t.bucketNumber k) n k v).next t.indices
        (Function.update t.head none (t.next n)) (fun i => i.elim q fun _ => none)
        (Function.update (lists (n :: free) chains) none ([] ++ free)) :=
      hq.unlink (none_mem_indices t) rfl (by simp)
        (fun _ _ hne => Function.update_of_ne hne _ _) (by simp)
        (fun _ _ m _ hm _ => link_next_of_ne hm)
    rw [lists_update_none] at hpop
    refine ⟨q, ?_⟩
    rw [← lists_update_some]
    refine hpop.push (some_mem_indices hbk) ?_ ?_ ?_ ?_ fun _ _ _ _ => rfl
    · intro i hi
      cases i with
      | none => exact hn
      | some b =>
        exact fun hmem =>
          hfree b (Finset.mem_range.mp (Finset.some_mem_insertNone.mp hi)) n hmem rfl
    · simp [head, Hashtable.link]
    · intro i _ hne
      cases i with
      | none => simp [head, Hashtable.link, next]
      | some b =>
        have hbne : b ≠ t.bucketNumber k := fun hb => hne (by rw [hb])
        simp [head, Hashtable.link, Function.update_of_ne hbne]
    · simp [Hashtable.link, next, head]
  · have := h.free_length
    simp only [List.length_cons] at this
    simp only [Hashtable.link]
    omega
  · show (free : Multiset Nat) + ∑ i ∈ Finset.range t.numberOfBuckets, _ = _
    rw [sum_coe_push (Finset.mem_range.mpr hbk), Multiset.add_cons, ← Multiset.cons_add]
    exact h.cells
  · show t.bucketNumber ((t.link (t.bucketNumber k) n k v).values m).key = b
    by_cases hmn : m = n
    · subst hmn
      have hkey : ((t.link (t.bucketNumber k) m k v).values m).key = k := by
        simp [Hashtable.link]
      rw [hkey]
      by_contra hbb
      rw [Function.update_of_ne (Ne.symm hbb)] at hm
      exact hfree b hb m hm rfl
    · have hval : (t.link (t.bucketNumber k) n k v).values m = t.values m := by
        simp [Hashtable.link, Function.update_of_ne hmn]
      rw [hval]
      by_cases hbb : b = t.bucketNumber k
      · subst hbb
        rw [Function.update_self] at hm
        exact h.hashed _ hb m ((List.mem_cons.mp hm).resolve_left hmn)
      · rw [Function.update_of_ne hbb] at hm
        exact h.hashed b hb m hm

/-- Linking stores one more pair. -/
theorem Rep.link_content (h : Rep t chains (n :: free)) :
    (t.link (t.bucketNumber k) n k v).content = (k, v) ::ₘ t.content := by
  have hbk := bucketNumber_lt h.buckets_pos k
  rw [h.link.content_eq, h.content_eq]
  show Multiset.map _ (∑ i ∈ Finset.range t.numberOfBuckets, _) = _
  rw [sum_coe_push (Finset.mem_range.mpr hbk), Multiset.map_cons]
  congr 1
  · simp [Hashtable.link, entry]
  · refine Multiset.map_congr rfl fun m hm => link_entry_of_ne ?_
    rintro rfl
    obtain ⟨b, hb, hm⟩ := Multiset.mem_sum.mp hm
    exact h.not_mem_free (Finset.mem_range.mp hb) hm List.mem_cons_self

end Link

section Put

variable {t : Hashtable} {k v : Nat} {m : DuplicateCheck}

/-- What `put` refuses to store: with mode 1 a key that is present, with mode 2
a value that is present anywhere in the bucket of the key. -/
def Duplicate (t : Hashtable) (k v : Nat) (m : DuplicateCheck) : Prop :=
  (m = .rejectMultipleValuesPerKey ∧ ∃ w, (k, w) ∈ t.content) ∨
  (m = .rejectMultipleIdenticalValuesPerKey ∧
    ∃ k', t.bucketNumber k' = t.bucketNumber k ∧ (k', v) ∈ t.content)

theorem Rep.hasDuplicate_iff {chains : Nat → List Nat} {free : List Nat}
    (h : Rep t chains free) :
    (m ≠ .disableDuplicateChecks ∧
      t.hasDuplicate k v m t.maximumCapacity (t.bucketArray (t.bucketNumber k)) = true) ↔
    t.Duplicate k v m := by
  have hbk := bucketNumber_lt h.buckets_pos k
  rw [Hashtable.hasDuplicate_iff (h.chain hbk) (h.chain_length hbk)]
  unfold Duplicate
  constructor
  · rintro ⟨-, n, hn, ⟨hm, hk⟩ | ⟨hm, hv⟩⟩
    · exact .inl ⟨hm, (t.values n).underlyingData, h.mem_content.mpr ⟨n, hn, by simp [entry, hk]⟩⟩
    · refine .inr ⟨hm, (t.values n).key, h.hashed _ hbk n hn, h.mem_content.mpr ⟨n, ?_, ?_⟩⟩
      · rw [h.hashed _ hbk n hn]; exact hn
      · simp [entry, hv]
  · rintro (⟨rfl, w, hw⟩ | ⟨rfl, k', hk', hv⟩)
    · obtain ⟨n, hn, he⟩ := h.mem_content.mp hw
      exact ⟨by decide, n, hn, .inl ⟨rfl, congrArg Prod.fst he⟩⟩
    · obtain ⟨n, hn, he⟩ := h.mem_content.mp hv
      exact ⟨by decide, n, by rw [← hk']; exact hn, .inr ⟨rfl, congrArg Prod.snd he⟩⟩

theorem put_of_full (hc : t.remainingCapacity = 0) : t.put k v m = (t, 0) := by
  simp [put, hc]

theorem put_of_duplicate (h : t.WF) (hd : t.Duplicate k v m) : t.put k v m = (t, 0) := by
  obtain ⟨chains, free, h⟩ := h
  unfold put
  split
  · rfl
  · rw [if_pos (h.hasDuplicate_iff.mpr hd)]

/-- `put` with room and no duplicate stores the pair. -/
theorem put_of_room (h : t.WF) (hc : 0 < t.remainingCapacity) (hd : ¬ t.Duplicate k v m) :
    ∃ t', t.put k v m = (t', 1) ∧ t'.WF ∧ t'.content = (k, v) ::ₘ t.content ∧
      t'.numberOfBuckets = t.numberOfBuckets ∧ t'.maximumCapacity = t.maximumCapacity := by
  obtain ⟨chains, free, h⟩ := h
  cases free with
  | nil =>
    have := h.free_length
    simp at this
    omega
  | cons n free =>
    obtain ⟨q, hq⟩ := h.freeList
    have hfirst : t.freeHashtableValueStructLinkedList = some n := (Path.cons_iff.mp hq).1
    refine ⟨t.link (t.bucketNumber k) n k v, ?_, ⟨_, _, h.link⟩, h.link_content, rfl, rfl⟩
    unfold put
    rw [if_neg (by omega), if_neg fun hdup => hd (h.hasDuplicate_iff.mp hdup), hfirst]

/-- `put` stores the pair or changes nothing. -/
theorem put_cases (h : t.WF) (k v : Nat) (m : DuplicateCheck) :
    t.put k v m = (t, 0) ∨
      ∃ t', t.put k v m = (t', 1) ∧ t'.WF ∧ t'.content = (k, v) ::ₘ t.content ∧
        t'.numberOfBuckets = t.numberOfBuckets ∧ t'.maximumCapacity = t.maximumCapacity := by
  by_cases hc : t.remainingCapacity = 0
  · exact .inl (put_of_full hc)
  · by_cases hd : t.Duplicate k v m
    · exact .inl (put_of_duplicate h hd)
    · exact .inr (put_of_room h (Nat.pos_of_ne_zero hc) hd)

theorem put_wf (h : t.WF) (k v : Nat) (mode : DuplicateCheck) : (t.put k v mode).1.WF := by
  rcases put_cases h k v mode with hput | ⟨t', hput, hwf, -⟩
  · rw [hput]
    exact h
  · rw [hput]
    exact hwf

end Put

/-! ## `get` -/

section Get

variable {t : Hashtable} {k v : Nat}

theorem get_table (t : Hashtable) (k : Nat) :
    ∃ flag, (t.get k).1 = { t with validValueFlag := flag } := by
  unfold get
  split
  · exact ⟨1, rfl⟩
  · exact ⟨0, rfl⟩

theorem Rep.setFlag {chains : Nat → List Nat} {free : List Nat} (h : Rep t chains free)
    (flag : Nat) : Rep { t with validValueFlag := flag } chains free :=
  { h with }

theorem WF.setFlag (h : t.WF) (flag : Nat) : WF { t with validValueFlag := flag } := by
  obtain ⟨chains, free, h⟩ := h
  exact ⟨chains, free, h.setFlag flag⟩

@[simp] theorem content_setFlag (t : Hashtable) (flag : Nat) :
    ({ t with validValueFlag := flag } : Hashtable).content = t.content := rfl

/-- `get` changes nothing but the flag. -/
theorem get_wf (h : t.WF) (k : Nat) : (t.get k).1.WF := by
  obtain ⟨flag, hf⟩ := get_table t k
  rw [hf]
  exact h.setFlag flag

@[simp] theorem get_content (t : Hashtable) (k : Nat) : (t.get k).1.content = t.content := by
  obtain ⟨flag, hf⟩ := get_table t k
  rw [hf, content_setFlag]

theorem get_of_mem (h : t.WF) (hk : ∃ w, (k, w) ∈ t.content) :
    ∃ w, t.get k = ({ t with validValueFlag := 1 }, w) ∧ (k, w) ∈ t.content := by
  obtain ⟨chains, free, h⟩ := h
  obtain ⟨w, hw⟩ := hk
  obtain ⟨n, hn, he⟩ := h.mem_content.mp hw
  have hbk := bucketNumber_lt h.buckets_pos k
  have hloop := getLoop_eq (h.chain hbk) (h.chain_length hbk) k
  cases hfind : (chains (t.bucketNumber k)).find? fun n => (t.values n).key = k with
  | none =>
    have := List.find?_eq_none.mp hfind n hn
    simp [show (t.values n).key = k from congrArg Prod.fst he] at this
  | some x =>
    rw [hfind] at hloop
    have hxk : (t.values x).key = k := by simpa using List.find?_some hfind
    refine ⟨(t.values x).underlyingData, by simp [get, hloop], ?_⟩
    exact h.mem_content.mpr ⟨x, List.mem_of_find?_eq_some hfind, by simp [entry, hxk]⟩

theorem get_of_not_mem (h : t.WF) (hk : ∀ w, (k, w) ∉ t.content) :
    t.get k = ({ t with validValueFlag := 0 }, NULL) := by
  obtain ⟨chains, free, h⟩ := h
  have hbk := bucketNumber_lt h.buckets_pos k
  have hloop := getLoop_eq (h.chain hbk) (h.chain_length hbk) k
  have hfind : ((chains (t.bucketNumber k)).find? fun n => (t.values n).key = k) = none := by
    refine List.find?_eq_none.mpr fun n hn hkey => ?_
    exact hk (t.values n).underlyingData
      (h.mem_content.mpr ⟨n, hn, by simpa [entry] using hkey⟩)
  rw [hfind] at hloop
  simp [get, hloop]

end Get

/-! ## `remove` -/

section Unlink

variable {t : Hashtable} {chains : Nat → List Nat} {free l₁ l₂ : List Nat} {b x : Nat}

theorem unlink_values_of_ne {prev : Option Nat} {n : Nat} (hx : n ≠ x) (hp : prev ≠ some n) :
    (t.unlink b prev x).values n = t.values n := by
  unfold unlink
  cases prev with
  | none => simp [Function.update_of_ne hx]
  | some p =>
    have hnp : n ≠ p := fun h => hp (by rw [h])
    simp [Function.update_of_ne hx, Function.update_of_ne hnp]

/-- Unlinking only changes the pointer of the cell before. -/
theorem unlink_entry_of_ne {prev : Option Nat} {n : Nat} (hx : n ≠ x) :
    (t.unlink b prev x).entry n = t.entry n := by
  unfold unlink
  cases prev with
  | none => simp [entry, Function.update_of_ne hx]
  | some p =>
    by_cases hnp : n = p
    · subst hnp
      simp [entry, Function.update_of_ne hx]
    · simp [entry, Function.update_of_ne hx, Function.update_of_ne hnp]

/-- Unlinking a cell moves it from its bucket to the front of the free list. -/
theorem Rep.unlink (h : Rep t chains free) (hb : b < t.numberOfBuckets)
    (hl : chains b = l₁ ++ x :: l₂) :
    Rep (t.unlink b l₁.getLast? x) (Function.update chains b (l₁ ++ l₂)) (x :: free) := by
  have hmem : x ∈ chains b := by rw [hl]; simp
  have hx : x ∉ l₁ ++ l₂ := by
    have hnodup := (h.chain hb).nodup
    rw [hl, List.nodup_middle] at hnodup
    exact (List.nodup_cons.mp hnodup).1
  -- what is left of bucket `b` was there before, and so was every other bucket
  have hleft : ∀ b' < t.numberOfBuckets, ∀ n ∈ Function.update chains b (l₁ ++ l₂) b',
      n ≠ x ∧ n ∈ chains b' := by
    intro b' hb' n hn
    by_cases hbb : b' = b
    · subst hbb
      rw [Function.update_self] at hn
      refine ⟨fun hnx => hx (hnx ▸ hn), ?_⟩
      rw [hl]
      rcases List.mem_append.mp hn with hn | hn <;> simp [hn]
    · rw [Function.update_of_ne hbb] at hn
      exact ⟨fun hnx => hbb (h.bucket_unique hb' hb (hnx ▸ hn) hmem), hn⟩
  refine
    { buckets_pos := h.buckets_pos
      links := ?_
      free_length := ?_
      cells := ?_
      hashed := fun b' hb' n hn => ?_ }
  · obtain ⟨q, hq⟩ := h.links
    have hcut : Family (t.unlink b l₁.getLast? x).next t.indices
        (Function.update (t.unlink b l₁.getLast? x).head none (t.head none))
        (fun i => i.elim q fun _ => none)
        (Function.update (lists free chains) (some b) (l₁ ++ l₂)) := by
      refine hq.unlink (some_mem_indices hb) hl ?_ ?_ ?_ ?_
      · rw [Function.update_of_ne (by simp)]
        cases l₁ using List.reverseRecOn <;> simp [Hashtable.unlink, next, head]
      · rintro (_ | b') _ hne
        · exact Function.update_self _ _ _
        · have hbb : b' ≠ b := fun hbb => hne (by rw [hbb])
          rw [Function.update_of_ne (by simp)]
          simp only [Hashtable.unlink, head]
          cases l₁.getLast? <;> simp [Function.update_of_ne hbb]
      · intro p hp
        have hpx : p ≠ x := fun hpx =>
          hx (hpx ▸ List.mem_append_left _ (List.mem_of_getLast? hp))
        simp [Hashtable.unlink, next, hp, Function.update_of_ne hpx]
      · exact fun _ _ n _ hnx hnp =>
          congrArg HashtableValue.nextHashtableValue (unlink_values_of_ne hnx hnp)
    -- and push `x` onto the free list
    rw [lists_update_some] at hcut
    refine ⟨q, ?_⟩
    rw [← lists_update_none free]
    refine hcut.push (none_mem_indices t) ?_ rfl
      (fun i _ hne => (Function.update_of_ne hne _ _).symm) ?_ fun _ _ _ _ => rfl
    · intro i hi
      cases i with
      | none => exact h.not_mem_free hb hmem
      | some b' =>
        have hb' := Finset.mem_range.mp (Finset.some_mem_insertNone.mp hi)
        exact fun hxb => (hleft b' hb' x hxb).1 rfl
    · rw [Function.update_self]
      simp [Hashtable.unlink, next, head]
  · have := h.free_length
    simp only [List.length_cons, this]
    simp [Hashtable.unlink]
  · show ((x :: free : List Nat) : Multiset Nat) +
      ∑ i ∈ Finset.range t.numberOfBuckets, _ = _
    rw [← Multiset.cons_coe, Multiset.cons_add, ← Multiset.add_cons,
      sum_coe_drop (Finset.mem_range.mpr hb) hl]
    exact h.cells
  · show t.bucketNumber ((t.unlink b l₁.getLast? x).values n).key = b'
    obtain ⟨hnx, hn⟩ := hleft b' hb' n hn
    have hentry : (t.unlink b l₁.getLast? x).entry n = t.entry n := unlink_entry_of_ne hnx
    have hkey : ((t.unlink b l₁.getLast? x).values n).key = (t.values n).key :=
      congrArg Prod.fst hentry
    rw [hkey]
    exact h.hashed b' hb' n hn

/-- Unlinking a cell takes its pair out of the content. -/
theorem Rep.unlink_content (h : Rep t chains free) (hb : b < t.numberOfBuckets)
    (hl : chains b = l₁ ++ x :: l₂) :
    t.entry x ::ₘ (t.unlink b l₁.getLast? x).content = t.content := by
  have hrep := h.unlink hb hl
  have hdrop := sum_coe_drop (Finset.mem_range.mpr hb) hl
  have hnodup : (∑ i ∈ Finset.range t.numberOfBuckets, (chains i : Multiset Nat)).Nodup :=
    Multiset.nodup_of_le (Multiset.le_add_left _ _) (h.cells ▸ Multiset.nodup_range _)
  rw [← hdrop] at hnodup
  have hx := (Multiset.nodup_cons.mp hnodup).1
  rw [hrep.content_eq, h.content_eq, ← hdrop, Multiset.map_cons]
  congr 1
  exact Multiset.map_congr rfl fun n hn => unlink_entry_of_ne (ne_of_mem_of_not_mem hn hx)

theorem Rep.unlink_content_le (h : Rep t chains free) (hb : b < t.numberOfBuckets)
    (hl : chains b = l₁ ++ x :: l₂) : (t.unlink b l₁.getLast? x).content ≤ t.content := by
  rw [← h.unlink_content hb hl]
  exact Multiset.le_cons_self _ _

end Unlink

section Remove

variable {t : Hashtable} {k : Nat}

/-- `remove` unlinks the first struct with its key. -/
theorem Rep.remove_eq {chains : Nat → List Nat} {free l₁ l₂ : List Nat} {x : Nat}
    (h : Rep t chains free) (hl : chains (t.bucketNumber k) = l₁ ++ x :: l₂)
    (hfirst : ∀ n ∈ l₁, (t.values n).key ≠ k) (hx : (t.values x).key = k) :
    t.remove k =
      (t.unlink (t.bucketNumber k) l₁.getLast? x, (t.values x).underlyingData) := by
  have hbk := bucketNumber_lt h.buckets_pos k
  have hloop := removeLoop_some (hl ▸ h.chain hbk) (hl ▸ h.chain_length hbk) hfirst hx none
  rw [Option.or_none] at hloop
  unfold remove
  rw [hloop]

/-- A bucket with a key, split at the first struct that has it. -/
theorem exists_first_key {l : List Nat} (h : ∃ n ∈ l, (t.values n).key = k) :
    ∃ l₁ x l₂, l = l₁ ++ x :: l₂ ∧ (∀ n ∈ l₁, (t.values n).key ≠ k) ∧ (t.values x).key = k := by
  obtain ⟨n, hn, hk⟩ := h
  obtain ⟨x, l₁, l₂, hfirst, hx, hl, -⟩ :=
    List.exists_of_eraseP (p := fun n => decide ((t.values n).key = k)) hn (decide_eq_true hk)
  exact ⟨l₁, x, l₂, hl, fun n hn => by simpa using hfirst n hn, of_decide_eq_true hx⟩

/-- `remove` of a key that is present takes one of its pairs out. -/
theorem remove_of_mem (h : t.WF) (hk : ∃ w, (k, w) ∈ t.content) :
    ∃ t' w, t.remove k = (t', w) ∧ t'.WF ∧ (k, w) ::ₘ t'.content = t.content ∧
      t'.validValueFlag = 1 ∧ t'.numberOfBuckets = t.numberOfBuckets ∧
      t'.maximumCapacity = t.maximumCapacity := by
  obtain ⟨chains, free, h⟩ := h
  obtain ⟨w, hw⟩ := hk
  obtain ⟨n, hn, he⟩ := h.mem_content.mp hw
  have hbk := bucketNumber_lt h.buckets_pos k
  obtain ⟨l₁, x, l₂, hl, hl₁, hxk⟩ := exists_first_key ⟨n, hn, congrArg Prod.fst he⟩
  refine ⟨_, _, h.remove_eq hl hl₁ hxk, ⟨_, _, h.unlink hbk hl⟩, ?_, rfl, rfl, rfl⟩
  have hcontent := h.unlink_content hbk hl
  have hentry : t.entry x = (k, (t.values x).underlyingData) := by
    unfold entry
    rw [hxk]
  rw [← hcontent, hentry]

theorem remove_of_not_mem (h : t.WF) (hk : ∀ w, (k, w) ∉ t.content) :
    t.remove k = ({ t with validValueFlag := 0 }, NULL) := by
  obtain ⟨chains, free, h⟩ := h
  have hbk := bucketNumber_lt h.buckets_pos k
  have hloop := removeLoop_none (h.chain hbk) (f := t.maximumCapacity) (k := k)
    (fun n hn hkey => hk (t.values n).underlyingData
      (h.mem_content.mpr ⟨n, hn, by simp [entry, hkey]⟩)) none
  unfold remove
  rw [hloop]

theorem remove_wf (h : t.WF) (k : Nat) : (t.remove k).1.WF := by
  by_cases hk : ∃ w, (k, w) ∈ t.content
  · obtain ⟨t', w, hremove, hwf, -⟩ := remove_of_mem h hk
    rw [hremove]
    exact hwf
  · rw [remove_of_not_mem h fun w hw => hk ⟨w, hw⟩]
    exact h.setFlag 0

theorem remove_content_le (h : t.WF) (k : Nat) : (t.remove k).1.content ≤ t.content := by
  by_cases hk : ∃ w, (k, w) ∈ t.content
  · obtain ⟨t', w, hremove, -, hcontent, -⟩ := remove_of_mem h hk
    rw [hremove, ← hcontent]
    exact Multiset.le_cons_self _ _
  · rw [remove_of_not_mem h fun w hw => hk ⟨w, hw⟩]
    exact le_rfl

end Remove

theorem WF.card_content {t : Hashtable} (h : t.WF) :
    t.remainingCapacity + t.content.card = t.maximumCapacity := by
  obtain ⟨chains, free, h⟩ := h
  exact h.card_content

/-! ## `getFirstElementOfNthBucket` -/

/-- `OS_hashtable_getFirstElementOfNthBucket` only sets the flag. -/
theorem getFirstElementOfNthBucket_table (t : Hashtable) (n : Nat) :
    ∃ flag, (t.getFirstElementOfNthBucket n).1 = { t with validValueFlag := flag } := by
  unfold getFirstElementOfNthBucket
  split
  · exact ⟨0, rfl⟩
  · split
    · exact ⟨1, rfl⟩
    · exact ⟨0, rfl⟩

/-- It reads the head of the bucket, and sets the flag. -/
theorem getFirstElementOfNthBucket_of_lt {t : Hashtable} {b : Nat} (hb : b < t.numberOfBuckets) :
    ∃ flag, t.getFirstElementOfNthBucket b =
      ({ t with validValueFlag := flag }, t.bucketArray b) := by
  have hle : ¬ b > decr t.numberOfBuckets := by
    unfold decr
    split <;> omega
  unfold getFirstElementOfNthBucket
  rw [if_neg hle]
  cases hfirst : t.bucketArray b with
  | none => exact ⟨0, rfl⟩
  | some val => exact ⟨1, rfl⟩

/-! ## Fresh tables -/

theorem linkValues_of_lt {i hashVal n : Nat} {values : Nat → HashtableValue} (h : n < hashVal) :
    linkValues i hashVal values n = values n := by
  induction i generalizing hashVal values with
  | zero => rfl
  | succ i ih =>
    unfold linkValues
    rw [ih (by omega), Function.update_of_ne (by omega), Function.update_of_ne (by omega)]

/-- The initialisation loop links the structs from `hashVal` on; the pointer of
the last one is whatever the memory held. -/
theorem linkValues_path (i hashVal : Nat) (values : Nat → HashtableValue) :
    ∃ q, Path (fun n => (linkValues i hashVal values n).nextHashtableValue) (some hashVal)
      (List.range' hashVal (i + 1)) q := by
  induction i generalizing hashVal values with
  | zero => exact ⟨_, .cons (.nil _)⟩
  | succ i ih =>
    unfold linkValues
    obtain ⟨q, hq⟩ := ih (hashVal + 1) _
    refine ⟨q, ?_⟩
    rw [List.range'_succ]
    refine .cons ?_
    rw [linkValues_of_lt (by omega), Function.update_self]
    exact hq

/-- In a fresh table every struct is free. -/
theorem newHashtable_rep {capacity numberOfBuckets : Nat} (hc : 0 < capacity)
    (hb : 0 < numberOfBuckets) (memory : Nat → HashtableValue) (flag : Nat) :
    Rep (newHashtable capacity numberOfBuckets memory flag) (fun _ => [])
      (List.range capacity) := by
  refine
    { buckets_pos := hb
      links := ?_
      free_length := List.length_range
      cells := by simp [newHashtable, Multiset.range]
      hashed := fun _ _ _ hn => absurd hn List.not_mem_nil }
  obtain ⟨q, hq⟩ := linkValues_path (capacity - 1) 0
    (Function.update memory 0 { memory 0 with key := 0, underlyingData := 0 })
  rw [Nat.sub_add_cancel hc, ← List.range_eq_range'] at hq
  refine ⟨q, ?_, ?_⟩
  · rintro (_ | b) _
    · exact hq
    · exact .nil _
  · rw [Finset.sum_insertNone]
    simpa [lists] using List.nodup_range

/-- A fresh table is well formed, whatever its memory held. -/
theorem newHashtable_wf {capacity numberOfBuckets : Nat} (hc : 0 < capacity)
    (hb : 0 < numberOfBuckets) (memory : Nat → HashtableValue) (flag : Nat) :
    (newHashtable capacity numberOfBuckets memory flag).WF :=
  ⟨_, _, newHashtable_rep hc hb memory flag⟩

/-- A table without value structs is well formed too: its free list is cut before
the first one. -/
theorem newHashtable_wf_of_buckets {capacity numberOfBuckets : Nat} (hb : 0 < numberOfBuckets)
    (memory : Nat → HashtableValue) (flag : Nat) :
    (newHashtable capacity numberOfBuckets memory flag).WF := by
  rcases Nat.eq_zero_or_pos capacity with rfl | hc
  · refine ⟨fun _ => [], [],
      { buckets_pos := hb
        links := ⟨some 0, ?_, ?_⟩
        free_length := rfl
        cells := by simp [newHashtable, Multiset.range]
        hashed := fun _ _ _ hn => absurd hn List.not_mem_nil }⟩
    · rintro (_ | b) _
      · exact .nil _
      · exact .nil _
    · rw [Finset.sum_insertNone]
      simp [lists]
  · exact newHashtable_wf hc hb memory flag

@[simp] theorem newHashtable_content {capacity numberOfBuckets : Nat}
    (memory : Nat → HashtableValue) (flag : Nat) :
    (newHashtable capacity numberOfBuckets memory flag).content = 0 := by
  refine Finset.sum_eq_zero ?_
  intro b _
  cases capacity <;> rfl

end DocetOS.Hashtable
