import DocetOS.Lib.Chain

/-!
# Families of disjoint chains

A program often threads several linked lists through one pointer field: the
buckets of a hash table and its free list, the pools and the chains of an
allocator. `Family next s head tail lists` says that for every index in `s` the
cells `lists i` are linked from `head i` to `tail i`, and that no cell is linked
twice, neither in one list nor in two.

The rules follow the operations such a program has:

- `Family.congr`: writes outside the cells change nothing (frame);
- `Family.unlink`: taking a cell out of a list, at its head or behind another
  cell;
- `Family.push`: linking a new cell at the head of a list.

The cells of the family are the multiset sum of the lists; `sum_coe_push` and
`sum_coe_drop` say how the last two rules change it.
-/

namespace Lib

universe u v

variable {α : Type u} {ι : Type v}

/-! ## Sums of lists -/

section Sums

variable {s : Finset ι} {i : ι} {f : ι → List α}

theorem coe_le_sum (hi : i ∈ s) (f : ι → List α) :
    (f i : Multiset α) ≤ ∑ k ∈ s, (f k : Multiset α) :=
  Finset.single_le_sum (f := fun k => (f k : Multiset α)) (fun _ _ => zero_le) hi

theorem mem_sum_coe {x : α} : x ∈ ∑ k ∈ s, (f k : Multiset α) ↔ ∃ k ∈ s, x ∈ f k := by
  simp [Multiset.mem_sum]

variable [DecidableEq ι]

/-- Replacing one of finitely many lists replaces its elements in the sum. -/
theorem sum_coe_update (hi : i ∈ s) (f : ι → List α) (l : List α) :
    (f i : Multiset α) + ∑ k ∈ s, (Function.update f i l k : Multiset α) =
      (l : Multiset α) + ∑ k ∈ s, (f k : Multiset α) := by
  rw [← Finset.add_sum_erase _ _ hi, ← Finset.add_sum_erase _ (fun k => (f k : Multiset α)) hi,
    Function.update_self]
  have hrest : ∑ k ∈ s.erase i, (Function.update f i l k : Multiset α) =
      ∑ k ∈ s.erase i, (f k : Multiset α) := by
    refine Finset.sum_congr rfl ?_
    intro k hk
    rw [Function.update_of_ne (Finset.ne_of_mem_erase hk)]
  rw [hrest, ← add_assoc, ← add_assoc, add_comm (f i : Multiset α)]

/-- Pushing a cell onto one of the lists. -/
theorem sum_coe_push (hi : i ∈ s) (f : ι → List α) (x : α) :
    ∑ k ∈ s, (Function.update f i (x :: f i) k : Multiset α) =
      x ::ₘ ∑ k ∈ s, (f k : Multiset α) := by
  refine add_left_cancel (a := (f i : Multiset α)) ?_
  rw [sum_coe_update hi, Multiset.add_cons, ← Multiset.cons_coe, Multiset.cons_add]

/-- Dropping a cell from one of the lists. -/
theorem sum_coe_drop (hi : i ∈ s) {x : α} {l₁ l₂ : List α} (hf : f i = l₁ ++ x :: l₂) :
    x ::ₘ ∑ k ∈ s, (Function.update f i (l₁ ++ l₂) k : Multiset α) =
      ∑ k ∈ s, (f k : Multiset α) := by
  refine add_left_cancel (a := ((l₁ ++ l₂ : List α) : Multiset α)) ?_
  rw [← sum_coe_update hi, hf, Multiset.add_cons, ← Multiset.cons_add, Multiset.cons_coe]
  congr 1
  exact Multiset.coe_eq_coe.mpr List.perm_middle.symm

end Sums

/-! ## Families -/

/-- For every index of `s` the cells `lists i` are linked from `head i` to
`tail i`, and no cell is linked twice. -/
structure Family (next : α → Option α) (s : Finset ι) (head tail : ι → Option α)
    (lists : ι → List α) : Prop where
  path : ∀ i ∈ s, Path next (head i) (lists i) (tail i)
  nodup : (∑ i ∈ s, (lists i : Multiset α)).Nodup

namespace Family

variable {next next' : α → Option α} {s : Finset ι} {head head' tail : ι → Option α}
  {lists : ι → List α} {i : ι}

/-- The frame rule: only the pointers of the cells and the heads matter. -/
theorem congr (h : Family next s head tail lists)
    (hn : ∀ i ∈ s, ∀ a ∈ lists i, next' a = next a) (hh : ∀ i ∈ s, head' i = head i) :
    Family next' s head' tail lists where
  path i hi := by
    rw [hh i hi]
    exact (h.path i hi).congr (hn i hi)
  nodup := h.nodup

/-- Fewer lists are a family as well. -/
theorem mono {t : Finset ι} (h : Family next t head tail lists) (hst : s ⊆ t) :
    Family next s head tail lists where
  path i hi := h.path i (hst hi)
  nodup := Multiset.nodup_of_le (Finset.sum_le_sum_of_subset hst) h.nodup

theorem list_nodup (h : Family next s head tail lists) (hi : i ∈ s) : (lists i).Nodup :=
  Multiset.coe_nodup.mp (Multiset.nodup_of_le (coe_le_sum hi lists) h.nodup)

variable [DecidableEq ι]

/-- A cell is in one list only. -/
theorem index_unique (h : Family next s head tail lists) {j : ι} (hi : i ∈ s) (hj : j ∈ s)
    {x : α} (hxi : x ∈ lists i) (hxj : x ∈ lists j) : i = j := by
  by_contra hne
  have hnodup := h.nodup
  rw [← Finset.add_sum_erase _ _ hi] at hnodup
  refine Multiset.disjoint_left.mp (Multiset.nodup_add.mp hnodup).2.2
    (Multiset.mem_coe.mpr hxi) ?_
  exact mem_sum_coe.mpr ⟨j, Finset.mem_erase.mpr ⟨Ne.symm hne, hj⟩, hxj⟩

/-- Taking the cell `x` out of list `i`: what pointed at `x`, the head or the
cell before `x`, now points where `x` pointed. The pointer of `x` itself may
have changed, and so may that of any cell outside the family. -/
theorem unlink (h : Family next s head tail lists) (hi : i ∈ s) {x : α} {l₁ l₂ : List α}
    (hl : lists i = l₁ ++ x :: l₂)
    (hhead : head' i = if l₁ = [] then next x else head i)
    (hheads : ∀ k ∈ s, k ≠ i → head' k = head k)
    (hprev : ∀ b, l₁.getLast? = some b → next' b = next x)
    (hrest : ∀ k ∈ s, ∀ a ∈ lists k, a ≠ x → l₁.getLast? ≠ some a → next' a = next a) :
    Family next' s head' tail (Function.update lists i (l₁ ++ l₂)) where
  path k hk := by
    by_cases hki : k = i
    · subst hki
      have hnodup := h.list_nodup hk
      have hpath := h.path k hk
      rw [hl] at hnodup hpath
      have hx₁ : x ∉ l₁ := fun hx =>
        List.disjoint_of_nodup_append hnodup hx List.mem_cons_self
      have hx₂ : x ∉ l₂ := (List.nodup_cons.mp (List.nodup_append.mp hnodup).2.1).1
      rw [Function.update_self, hhead]
      rcases List.eq_nil_or_concat l₁ with rfl | ⟨l, b, rfl⟩
      · -- `x` is the first cell: the list now starts at its successor
        obtain ⟨-, ht⟩ := Path.cons_iff.mp hpath
        rw [if_pos rfl]
        refine ht.congr fun a ha => hrest k hk a ?_ (ne_of_mem_of_not_mem ha hx₂) (by simp)
        rw [hl]
        exact List.mem_cons_of_mem _ ha
      · -- `b` is the cell before `x` and takes over its pointer
        rw [List.concat_eq_append] at *
        rw [if_neg (by simp)]
        simp only [List.append_assoc, List.singleton_append] at hpath ⊢
        refine Path.unlink hpath (hprev b (by simp)) fun a ha => hrest k hk a ?_ ?_ ?_
        · rw [hl]
          rcases List.mem_append.mp ha with ha | ha <;> simp [ha]
        · rintro rfl
          rcases List.mem_append.mp ha with ha | ha
          · exact hx₁ (List.mem_append_left _ ha)
          · exact hx₂ ha
        · simp only [List.getLast?_append, List.getLast?_singleton, Option.some_or, ne_eq,
            Option.some.injEq]
          rintro rfl
          simp only [List.append_assoc, List.singleton_append] at hnodup
          obtain ⟨-, hb, hdisj⟩ := List.nodup_append.mp hnodup
          rcases List.mem_append.mp ha with ha | ha
          · exact hdisj b ha b (by simp) rfl
          · exact (List.nodup_cons.mp hb).1 (List.mem_cons_of_mem _ ha)
    · -- another list meets neither `x` nor the cell before it
      rw [Function.update_of_ne hki, hheads k hk hki]
      refine (h.path k hk).congr fun a ha => hrest k hk a ha ?_ ?_
      · rintro rfl
        exact hki (h.index_unique hk hi ha (by rw [hl]; simp))
      · intro hlast
        refine hki (h.index_unique hk hi ha ?_)
        rw [hl]
        exact List.mem_append_left _ (List.mem_of_getLast? hlast)
  nodup := by
    have hnodup := h.nodup
    rw [← sum_coe_drop hi hl] at hnodup
    exact (Multiset.nodup_cons.mp hnodup).2

/-- Linking a new cell `x` at the head of list `i`. -/
theorem push (h : Family next s head tail lists) (hi : i ∈ s) {x : α}
    (hx : ∀ k ∈ s, x ∉ lists k) (hhead : head' i = some x)
    (hheads : ∀ k ∈ s, k ≠ i → head' k = head k) (hnext : next' x = head i)
    (hrest : ∀ k ∈ s, ∀ a ∈ lists k, next' a = next a) :
    Family next' s head' tail (Function.update lists i (x :: lists i)) where
  path k hk := by
    by_cases hki : k = i
    · subst hki
      rw [Function.update_self]
      refine Path.cons_iff.mpr ⟨hhead, ?_⟩
      rw [hnext]
      exact (h.path k hk).congr (hrest k hk)
    · rw [Function.update_of_ne hki, hheads k hk hki]
      exact (h.path k hk).congr (hrest k hk)
  nodup := by
    rw [sum_coe_push hi]
    refine Multiset.nodup_cons.mpr ⟨?_, h.nodup⟩
    intro hmem
    obtain ⟨k, hk, hxk⟩ := mem_sum_coe.mp hmem
    exact hx k hk hxk

end Family

end Lib
