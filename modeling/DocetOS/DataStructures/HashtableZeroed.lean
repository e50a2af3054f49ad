import DocetOS.DataStructures.HashtableSpec

/-!
# Hashtables on zeroed memory

`OS_alloc` clears the memory it hands out. So the free list of a table ends with a
null pointer (`new_hashtable` does not write one), and the structs on it hold
`NULL`: `Zeroed`, which every operation keeps.
-/

namespace DocetOS.Hashtable

open Lib

/-- The free structs hold nothing, and their list ends with a null pointer. -/
structure ZeroedRep (t : Hashtable) (chains : Nat → List Nat) (free : List Nat) : Prop
    extends Rep t chains free where
  freeChain : Chain t.next t.freeHashtableValueStructLinkedList free
  zero : ∀ n ∈ free, (t.values n).underlyingData = NULL

/-- A table in a block of memory that was cleared. -/
def Zeroed (t : Hashtable) : Prop := ∃ chains free, ZeroedRep t chains free

variable {t : Hashtable} {chains : Nat → List Nat} {free l₁ l₂ : List Nat} {b n x k v : Nat}

theorem ZeroedRep.setFlag (h : ZeroedRep t chains free) (flag : Nat) :
    ZeroedRep { t with validValueFlag := flag } chains free :=
  { h.toRep.setFlag flag with
    freeChain := h.freeChain
    zero := h.zero }

namespace Zeroed

theorem wf (h : t.Zeroed) : t.WF := by
  obtain ⟨chains, free, h⟩ := h
  exact ⟨chains, free, h.toRep⟩

theorem setFlag (h : t.Zeroed) (flag : Nat) : Zeroed { t with validValueFlag := flag } := by
  obtain ⟨chains, free, h⟩ := h
  exact ⟨chains, free, h.setFlag flag⟩

end Zeroed

/-! ## `put` -/

theorem ZeroedRep.link (h : ZeroedRep t chains (n :: free)) :
    ZeroedRep (t.link (t.bucketNumber k) n k v)
      (Function.update chains (t.bucketNumber k) (n :: chains (t.bucketNumber k))) free := by
  have hn : n ∉ free := (List.nodup_cons.mp h.freeChain.nodup).1
  refine { h.toRep.link with freeChain := ?_, zero := ?_ }
  · refine (Path.cons_iff.mp h.freeChain).2.congr fun m hm => link_next_of_ne ?_
    rintro rfl
    exact hn hm
  · intro m hm
    have hentry : (t.link (t.bucketNumber k) n k v).entry m = t.entry m := by
      refine link_entry_of_ne ?_
      rintro rfl
      exact hn hm
    exact (congrArg Prod.snd hentry).trans (h.zero m (List.mem_cons_of_mem _ hm))

theorem Zeroed.put (h : t.Zeroed) (k v : Nat) (m : DuplicateCheck) : (t.put k v m).1.Zeroed := by
  obtain ⟨chains, free, h⟩ := h
  unfold Hashtable.put
  split
  · exact ⟨chains, free, h⟩
  · dsimp only
    split
    · exact ⟨chains, free, h⟩
    · split
      · exact ⟨chains, free, h⟩
      · rename_i n hfree
        have hchain := h.freeChain
        rw [hfree] at hchain
        -- the struct taken is the first one of the free list
        cases free with
        | nil => cases hchain
        | cons m free =>
          obtain ⟨hm, -⟩ := Path.cons_iff.mp hchain
          obtain rfl : n = m := Option.some.inj hm
          exact ⟨_, _, h.link⟩

/-! ## `remove` -/

theorem ZeroedRep.unlink (h : ZeroedRep t chains free) (hb : b < t.numberOfBuckets)
    (hl : chains b = l₁ ++ x :: l₂) :
    ZeroedRep (t.unlink b l₁.getLast? x) (Function.update chains b (l₁ ++ l₂)) (x :: free) := by
  have hcells : ∀ m ∈ free, m ∉ chains b := fun m hm hmb => h.not_mem_free hb hmb hm
  have hkeep : ∀ m ∈ free, (t.unlink b l₁.getLast? x).values m = t.values m := by
    intro m hm
    refine unlink_values_of_ne ?_ fun hprev => hcells m hm ?_
    · rintro rfl
      exact hcells m hm (by rw [hl]; simp)
    · rw [hl]
      exact List.mem_append_left _ (List.mem_of_getLast? hprev)
  refine { h.toRep.unlink hb hl with freeChain := Path.cons_iff.mpr ⟨rfl, ?_⟩, zero := ?_ }
  · have hnext : (t.unlink b l₁.getLast? x).next x = t.freeHashtableValueStructLinkedList := by
      simp [next, Hashtable.unlink]
    rw [hnext]
    exact h.freeChain.congr fun m hm => congrArg HashtableValue.nextHashtableValue (hkeep m hm)
  · intro m hm
    rcases List.mem_cons.mp hm with rfl | hm
    · simp [Hashtable.unlink, NULL]
    · rw [hkeep m hm]
      exact h.zero m hm

theorem Zeroed.remove (h : t.Zeroed) (k : Nat) : (t.remove k).1.Zeroed := by
  obtain ⟨chains, free, h⟩ := h
  have hbk := bucketNumber_lt h.buckets_pos k
  by_cases hk : ∃ n ∈ chains (t.bucketNumber k), (t.values n).key = k
  · obtain ⟨l₁, x, l₂, hl, hfirst, hx⟩ := exists_first_key hk
    rw [h.toRep.remove_eq hl hfirst hx]
    exact ⟨_, _, h.unlink hbk hl⟩
  · have habsent : ∀ w, (k, w) ∉ t.content := by
      intro w hw
      obtain ⟨n, hn, hentry⟩ := h.mem_content.mp hw
      exact hk ⟨n, hn, congrArg Prod.fst hentry⟩
    rw [remove_of_not_mem ⟨chains, free, h.toRep⟩ habsent]
    exact ⟨chains, free, h.setFlag 0⟩

/-! ## Fresh tables -/

/-- The initialisation loop does not write the pointer of the last struct. -/
theorem linkValues_last (i hashVal : Nat) (values : Nat → HashtableValue) :
    (linkValues i hashVal values (hashVal + i)).nextHashtableValue =
      (values (hashVal + i)).nextHashtableValue := by
  induction i generalizing hashVal values with
  | zero => rfl
  | succ i ih =>
    unfold linkValues
    dsimp only
    rw [show hashVal + (i + 1) = hashVal + 1 + i by omega, ih,
      Function.update_of_ne (by omega)]
    by_cases hi : i = 0
    · subst hi
      rw [Nat.add_zero, Function.update_self]
    · rw [Function.update_of_ne (by omega)]

theorem linkValues_first (i hashVal : Nat) (values : Nat → HashtableValue) :
    (linkValues i hashVal values hashVal).underlyingData = (values hashVal).underlyingData := by
  cases i with
  | zero => rfl
  | succ i =>
    unfold linkValues
    dsimp only
    rw [linkValues_of_lt (by omega), Function.update_self, Function.update_of_ne (by omega)]

/-- The loop clears every struct behind the first one. -/
theorem linkValues_zero {i hashVal n : Nat} {values : Nat → HashtableValue} (hlt : hashVal < n)
    (hle : n ≤ hashVal + i) : (linkValues i hashVal values n).underlyingData = NULL := by
  induction i generalizing hashVal values with
  | zero => omega
  | succ i ih =>
    unfold linkValues
    dsimp only
    rcases Nat.eq_or_lt_of_le (Nat.succ_le_of_lt hlt) with rfl | hbehind
    · rw [linkValues_first, Function.update_of_ne (by omega), Function.update_self]
    · exact ih hbehind (by omega)

/-- A table made in a cleared block. -/
theorem newHashtable_zeroed {capacity numberOfBuckets : Nat} (hc : 0 < capacity)
    (hb : 0 < numberOfBuckets) {memory : Nat → HashtableValue}
    (hmemory : (memory (capacity - 1)).nextHashtableValue = none) (flag : Nat) :
    (newHashtable capacity numberOfBuckets memory flag).Zeroed := by
  have h := newHashtable_rep hc hb memory flag
  obtain ⟨capacity, rfl⟩ := Nat.exists_eq_succ_of_ne_zero hc.ne'
  refine ⟨_, _, { h with freeChain := ?_, zero := ?_ }⟩
  · obtain ⟨q, hq⟩ := h.freeList
    rw [List.range_succ] at hq ⊢
    obtain ⟨hpath, rfl⟩ := Path.concat_iff.mp hq
    have hlast :
        (newHashtable (capacity + 1) numberOfBuckets memory flag).next capacity = none := by
      have hmem := linkValues_last capacity 0
        (Function.update memory 0 { memory 0 with key := 0, underlyingData := 0 })
      rw [Nat.zero_add] at hmem
      refine hmem.trans ?_
      rcases Nat.eq_zero_or_pos capacity with rfl | hpos
      · rw [Function.update_self]
        exact hmemory
      · rw [Function.update_of_ne hpos.ne']
        exact hmemory
    exact Path.concat_iff.mpr ⟨hpath, hlast.symm⟩
  · intro n hn
    rcases Nat.eq_zero_or_pos n with rfl | hpos
    · exact (linkValues_first _ _ _).trans (congrArg _ (Function.update_self _ _ _))
    · exact linkValues_zero hpos (by have := List.mem_range.mp hn; omega)

end DocetOS.Hashtable
