import Mathlib

/-!
# Binary heaps in an array

An array is a function `a : Nat → α`, of which the first `n` cells are in use;
`v : α → β` gives the value the heap is ordered by. The children of `i` are
`2 * i + 1` and `2 * i + 2`.

- `Ordered v a n`: no cell in use has a smaller value than its parent.
- `siftUp`, `siftDown`: the two repairs, with a step bound. `siftUp_ordered`
  and `siftDown_ordered` say from which half-broken arrays they restore the
  order; `siftDown_undershoot` is the case `siftDown` alone cannot repair (a
  cell smaller than its parent).
- `contents a n`: the multiset held; both repairs only permute it.
- `InSubtree i k`: position `k` is in the subtree of `i`, the only part of the
  array `siftDown` from `i` touches.
- `SinksTo v a n x i e`: how far down a cell of value `x` put at `i` goes.
-/

namespace Lib.BinaryHeap

universe u v

variable {α : Type u} {β : Type v}

/-! ## Positions -/

/-- The parent of position `i`. -/
def parent (i : Nat) : Nat := (i - 1) / 2

theorem parent_lt {i : Nat} (h : 0 < i) : parent i < i := by
  unfold parent; omega

theorem parent_le (i : Nat) : parent i ≤ i := by
  unfold parent; omega

@[simp] theorem parent_left (i : Nat) : parent (2 * i + 1) = i := by
  unfold parent; omega

@[simp] theorem parent_right (i : Nat) : parent (2 * i + 2) = i := by
  unfold parent; omega

theorem child_cases {c i : Nat} (hc : 0 < c) (h : parent c = i) :
    c = 2 * i + 1 ∨ c = 2 * i + 2 := by
  unfold parent at h; omega

/-- The positions of the subtree rooted at `i`. -/
inductive InSubtree (i : Nat) : Nat → Prop
  | root : InSubtree i i
  | child {c : Nat} (pos : 0 < c) (below : InSubtree i (parent c)) : InSubtree i c

theorem InSubtree.trans {i j k : Nat} (hij : InSubtree i j) (hjk : InSubtree j k) :
    InSubtree i k := by
  induction hjk with
  | root => exact hij
  | child pos _ ih => exact .child pos ih

theorem InSubtree.le {i k : Nat} (h : InSubtree i k) : i ≤ k := by
  induction h with
  | root => exact Nat.le_refl i
  | child pos _ ih => exact ih.trans (parent_le _)

/-- A position below `i` is `i`, or below one of its children. -/
theorem InSubtree.cases_root {i k : Nat} (h : InSubtree i k) :
    k = i ∨ InSubtree (2 * i + 1) k ∨ InSubtree (2 * i + 2) k := by
  induction h with
  | root => exact .inl rfl
  | child pos _ ih =>
    rcases ih with hparent | hleft | hright
    · rcases child_cases pos hparent with rfl | rfl
      · exact .inr (.inl .root)
      · exact .inr (.inr .root)
    · exact .inr (.inl (.child pos hleft))
    · exact .inr (.inr (.child pos hright))

theorem inSubtree_zero (k : Nat) : InSubtree 0 k := by
  induction k using Nat.strong_induction_on with
  | _ k ih =>
    rcases Nat.eq_zero_or_pos k with rfl | pos
    · exact .root
    · exact .child pos (ih (parent k) (parent_lt pos))

/-- How far below the root position `i` is. -/
def level (i : Nat) : Nat := Nat.log 2 (i + 1)

theorem level_mono {i k : Nat} (h : i ≤ k) : level i ≤ level k :=
  Nat.log_mono_right (Nat.add_le_add_right h 1)

@[simp] theorem level_zero : level 0 = 0 := rfl

@[simp] theorem level_left (i : Nat) : level (2 * i + 1) = level i + 1 := by
  unfold level
  rw [Nat.log_of_one_lt_of_le Nat.one_lt_two (by omega),
    show (2 * i + 1 + 1) / 2 = i + 1 by omega]

@[simp] theorem level_right (i : Nat) : level (2 * i + 2) = level i + 1 := by
  unfold level
  rw [Nat.log_of_one_lt_of_le Nat.one_lt_two (by omega),
    show (2 * i + 2 + 1) / 2 = i + 1 by omega]

/-! ## Swapping two cells -/

/-- Exchange the cells `i` and `j`. -/
def swap (a : Nat → α) (i j : Nat) : Nat → α :=
  Function.update (Function.update a i (a j)) j (a i)

@[simp] theorem swap_right (a : Nat → α) (i j : Nat) : swap a i j j = a i := by
  simp [swap]

@[simp] theorem swap_left (a : Nat → α) (i j : Nat) : swap a i j i = a j := by
  by_cases h : i = j
  · subst h; simp [swap]
  · simp [swap, Function.update_of_ne h]

theorem swap_of_ne {a : Nat → α} {i j k : Nat} (hi : k ≠ i) (hj : k ≠ j) :
    swap a i j k = a k := by
  simp [swap, hi, hj]

/-- The multiset the first `n` cells hold. -/
def contents (a : Nat → α) (n : Nat) : Multiset α :=
  (Multiset.range n).map a

theorem contents_succ (a : Nat → α) (n : Nat) :
    contents a (n + 1) = a n ::ₘ contents a n := by
  simp [contents, Multiset.range_succ]

theorem mem_contents {a : Nat → α} {n : Nat} {x : α} :
    x ∈ contents a n ↔ ∃ i < n, a i = x := by
  simp [contents]

@[simp] theorem card_contents (a : Nat → α) (n : Nat) : (contents a n).card = n := by
  simp [contents]

theorem contents_congr {a b : Nat → α} {n : Nat} (h : ∀ i < n, a i = b i) :
    contents a n = contents b n :=
  Multiset.map_congr rfl fun i hi => h i (Multiset.mem_range.mp hi)

/-- Writing a cell that is not in use does not change what is held. -/
theorem contents_update_of_le {a : Nat → α} {n i : Nat} (h : n ≤ i) (x : α) :
    contents (Function.update a i x) n = contents a n :=
  contents_congr fun j hj => Function.update_of_ne (by omega) _ _

/-- Writing a cell in use replaces what it held. -/
theorem cons_contents_update {a : Nat → α} {n i : Nat} (h : i < n) (x : α) :
    a i ::ₘ contents (Function.update a i x) n = x ::ₘ contents a n := by
  have hsplit : Multiset.range n = i ::ₘ (Multiset.range n).erase i :=
    (Multiset.cons_erase (Multiset.mem_range.mpr h)).symm
  have hrest : ((Multiset.range n).erase i).map (Function.update a i x) =
      ((Multiset.range n).erase i).map a := by
    refine Multiset.map_congr rfl fun j hj => Function.update_of_ne ?_ _ _
    exact ((Multiset.nodup_range n).mem_erase_iff.mp hj).1
  unfold contents
  rw [hsplit, Multiset.map_cons, Multiset.map_cons, hrest, Function.update_self,
    Multiset.cons_swap]

/-- Swapping two cells in use permutes what is held. -/
theorem contents_swap {a : Nat → α} {n i j : Nat} (hi : i < n) (hj : j < n) :
    contents (swap a i j) n = contents a n := by
  have h₁ := cons_contents_update (a := a) hi (a j)
  have h₂ := cons_contents_update (a := Function.update a i (a j)) hj (a i)
  have hij : Function.update a i (a j) j = a j := by
    by_cases h : j = i
    · subst h; simp
    · simp [h]
  rw [hij] at h₂
  refine Multiset.cons_inj_right (a j) |>.mp ?_
  rw [swap, h₂, h₁]

/-! ## Heap order -/

section Order

variable [LinearOrder β] (v : α → β)

/-- No cell in use has a smaller value than its parent. -/
def Ordered (a : Nat → α) (n : Nat) : Prop :=
  ∀ i, 0 < i → i < n → v (a (parent i)) ≤ v (a i)

instance (a : Nat → α) (n : Nat) : Decidable (Ordered v a n) :=
  decidable_of_iff (∀ i < n, 0 < i → v (a (parent i)) ≤ v (a i))
    ⟨fun h i hi hin => h i hin hi, fun h i hin hi => h i hi hin⟩

variable {v}

theorem Ordered.mono {a : Nat → α} {n m : Nat} (h : Ordered v a n) (hm : m ≤ n) :
    Ordered v a m :=
  fun i hi him => h i hi (by omega)

theorem Ordered.congr {a b : Nat → α} {n : Nat} (h : Ordered v a n)
    (hab : ∀ i < n, b i = a i) : Ordered v b n := by
  intro i hi hin
  rw [hab i hin, hab (parent i) (by have := parent_lt hi; omega)]
  exact h i hi hin

/-- The root of an ordered heap is a minimum. -/
theorem Ordered.root_le {a : Nat → α} {n : Nat} (h : Ordered v a n) :
    ∀ i, i < n → v (a 0) ≤ v (a i) := by
  intro i
  induction i using Nat.strongRecOn with
  | ind i ih =>
    intro hin
    rcases Nat.eq_zero_or_pos i with rfl | hi
    · exact le_rfl
    · have hp := parent_lt hi
      exact (ih (parent i) hp (by omega)).trans (h i hi hin)

/-! ## Sifting up -/

variable (v)

/-- Move cell `i` towards the root while its value is smaller than its
parent's. -/
def siftUp : Nat → (Nat → α) → Nat → (Nat → α)
  | 0, a, _ => a
  | f + 1, a, i =>
    if i = 0 then a
    else if v (a i) < v (a (parent i)) then siftUp f (swap a i (parent i)) (parent i)
    else a

/-- Ordered except that cell `i` may be smaller than its parent: what `siftUp`
repairs. -/
structure OrderedAbove (a : Nat → α) (n i : Nat) : Prop where
  other : ∀ j, 0 < j → j < n → j ≠ i → v (a (parent j)) ≤ v (a j)
  grand : 0 < i → ∀ c, 0 < c → c < n → parent c = i → v (a (parent i)) ≤ v (a c)

variable {v}

theorem OrderedAbove.swap {a : Nat → α} {n i : Nat} (h : OrderedAbove v a n i)
    (hi : 0 < i) (hin : i < n) (hlt : v (a i) < v (a (parent i))) :
    OrderedAbove v (swap a i (parent i)) n (parent i) := by
  have hp := parent_lt hi
  have hpi : parent i ≠ i := by omega
  constructor
  · intro j hj hjn hjp
    by_cases hji : j = i
    · subst hji
      rw [swap_left, swap_right]
      exact hlt.le
    · rw [swap_of_ne hji hjp]
      -- a child of `i` gets a new parent, which was its grandparent
      by_cases hpj : parent j = i
      · rw [hpj, swap_left]
        exact h.grand hi j hj hjn hpj
      by_cases hpp : parent j = parent i
      · rw [hpp, swap_right]
        -- the sibling of `i` gets a smaller parent
        have := h.other j hj hjn hji
        rw [hpp] at this
        exact hlt.le.trans this
      · rw [swap_of_ne hpj hpp]
        exact h.other j hj hjn hji
  · intro hpos c hc hcn hcp
    have hpp := parent_lt hpos
    have hgp : v (a (parent (parent i))) ≤ v (a (parent i)) :=
      h.other (parent i) hpos (by omega) hpi
    rw [swap_of_ne (by omega) (by omega)]
    by_cases hci : c = i
    · subst hci
      rw [swap_left]
      exact hgp
    · have hcp' : c ≠ parent i := by have := parent_lt hc; omega
      rw [swap_of_ne hci hcp']
      have := h.other c hc hcn hci
      rw [hcp] at this
      exact hgp.trans this

/-- **`siftUp` restores the order** of an array that is ordered but for its
start cell. -/
theorem siftUp_ordered {a : Nat → α} {n i f : Nat} (h : OrderedAbove v a n i)
    (hin : i < n) (hf : i ≤ f) : Ordered v (siftUp v f a i) n := by
  induction f generalizing a i with
  | zero =>
    obtain rfl : i = 0 := by omega
    exact fun j hj hjn => h.other j hj hjn (by omega)
  | succ f ih =>
    unfold siftUp
    split
    · rename_i hi
      exact fun j hj hjn => h.other j hj hjn (by omega)
    · rename_i hi
      have hi' : 0 < i := by omega
      have hp := parent_lt hi'
      split
      · rename_i hlt
        exact ih (h.swap hi' hin hlt) (by omega) (by omega)
      · rename_i hle
        intro j hj hjn
        by_cases hji : j = i
        · subst hji; exact not_lt.mp hle
        · exact h.other j hj hjn hji

theorem contents_siftUp {a : Nat → α} {n i f : Nat} (hin : i < n) :
    contents (siftUp v f a i) n = contents a n := by
  induction f generalizing a i with
  | zero => rfl
  | succ f ih =>
    have hp := parent_le i
    unfold siftUp
    split
    · rfl
    · split
      · rw [ih (by omega), contents_swap hin (by omega)]
      · rfl

/-! ## Sifting down -/

variable (v)

/-- The child of `i` in use with the smaller value, the left one on a tie. -/
def smallerChild (a : Nat → α) (n i : Nat) : Option Nat :=
  if 2 * i + 2 < n then
    some (if v (a (2 * i + 1)) ≤ v (a (2 * i + 2)) then 2 * i + 1 else 2 * i + 2)
  else if 2 * i + 1 < n then some (2 * i + 1)
  else none

/-- Move cell `i` away from the root while a child has a smaller value. -/
def siftDown (n : Nat) : Nat → (Nat → α) → Nat → (Nat → α)
  | 0, a, _ => a
  | f + 1, a, i =>
    match smallerChild v a n i with
    | none => a
    | some c => if v (a c) < v (a i) then siftDown n f (swap a i c) c else a

/-- Ordered except that cell `i` may be larger than its children: what
`siftDown` repairs. -/
structure OrderedBelow (a : Nat → α) (n i : Nat) : Prop where
  other : ∀ j, 0 < j → j < n → parent j ≠ i → v (a (parent j)) ≤ v (a j)
  grand : 0 < i → ∀ c, 0 < c → c < n → parent c = i → v (a (parent i)) ≤ v (a c)

variable {v}

theorem smallerChild_some {a : Nat → α} {n i c : Nat} (h : smallerChild v a n i = some c) :
    c < n ∧ 0 < c ∧ parent c = i ∧
      ∀ d, 0 < d → d < n → parent d = i → v (a c) ≤ v (a d) := by
  unfold smallerChild at h
  split at h
  · rename_i h2
    split at h
    · rename_i hle
      obtain rfl : 2 * i + 1 = c := by simpa using h
      refine ⟨by omega, by omega, parent_left i, ?_⟩
      intro d hd _ hdi
      rcases child_cases hd hdi with rfl | rfl
      · exact le_rfl
      · exact hle
    · rename_i hle
      obtain rfl : 2 * i + 2 = c := by simpa using h
      refine ⟨h2, by omega, parent_right i, ?_⟩
      intro d hd _ hdi
      rcases child_cases hd hdi with rfl | rfl
      · exact (not_le.mp hle).le
      · exact le_rfl
  · split at h
    · rename_i h2 h1
      obtain rfl : 2 * i + 1 = c := by simpa using h
      refine ⟨h1, by omega, parent_left i, ?_⟩
      intro d hd hdn hdi
      rcases child_cases hd hdi with rfl | rfl
      · exact le_rfl
      · omega
    · cases h

theorem smallerChild_none {a : Nat → α} {n i : Nat} (h : smallerChild v a n i = none) :
    ∀ c, 0 < c → parent c = i → n ≤ c := by
  unfold smallerChild at h
  intro c hc hci
  split at h
  · cases h
  · split at h
    · cases h
    · rcases child_cases hc hci with rfl | rfl <;> omega

theorem OrderedBelow.swap {a : Nat → α} {n i c : Nat} (h : OrderedBelow v a n i)
    (hc : smallerChild v a n i = some c) (hlt : v (a c) < v (a i)) :
    OrderedBelow v (swap a i c) n c := by
  obtain ⟨hcn, hc0, hci, hmin⟩ := smallerChild_some hc
  have hic : i < c := by have := parent_lt hc0; omega
  constructor
  · intro j hj hjn hjc
    by_cases hjc' : j = c
    · subst hjc'
      rw [hci, swap_left, swap_right]
      exact hlt.le
    by_cases hji : j = i
    · subst hji
      have hp := parent_lt hj
      rw [swap_left, swap_of_ne (by omega) (by omega)]
      exact h.grand hj c hc0 hcn hci
    · rw [swap_of_ne hji hjc']
      by_cases hpi : parent j = i
      · rw [hpi, swap_left]
        exact hmin j hj hjn hpi
      · rw [swap_of_ne hpi hjc]
        exact h.other j hj hjn hpi
  · intro _ d hd hdn hdc
    have hdc' := parent_lt hd
    rw [hci, swap_left, swap_of_ne (by omega) (by omega)]
    have := h.other d hd hdn (by omega)
    rwa [hdc] at this

/-- **`siftDown` restores the order** of an array that is ordered but for its
start cell being too large. -/
theorem siftDown_ordered {a : Nat → α} {n i f : Nat} (h : OrderedBelow v a n i)
    (hf : n ≤ i + f) : Ordered v (siftDown v n f a i) n := by
  induction f generalizing a i with
  | zero =>
    -- `i` is outside the heap, so it has no child in use
    refine fun j hj hjn => h.other j hj hjn ?_
    have := parent_le j
    omega
  | succ f ih =>
    unfold siftDown
    split
    · rename_i hnone
      refine fun j hj hjn => h.other j hj hjn ?_
      intro hji
      have := smallerChild_none hnone j hj hji
      omega
    · rename_i c hsome
      obtain ⟨hcn, hc0, hci, hmin⟩ := smallerChild_some hsome
      have hic : i < c := by have := parent_lt hc0; omega
      split
      · rename_i hlt
        exact ih (h.swap hsome hlt) (by omega)
      · rename_i hle
        intro j hj hjn
        by_cases hji : parent j = i
        · rw [hji]
          exact (not_lt.mp hle).trans (hmin j hj hjn hji)
        · exact h.other j hj hjn hji

/-- A start cell no larger than its children is left where it is. -/
theorem siftDown_of_le {a : Nat → α} {n i f : Nat}
    (h : ∀ c, 0 < c → c < n → parent c = i → v (a i) ≤ v (a c)) :
    siftDown v n f a i = a := by
  cases f with
  | zero => rfl
  | succ f =>
    unfold siftDown
    split
    · rfl
    · rename_i c hsome
      obtain ⟨hcn, hc0, hci, -⟩ := smallerChild_some hsome
      rw [if_neg (not_lt.mpr (h c hc0 hcn hci))]

/-- **The case `siftDown` cannot repair**: a start cell smaller than its parent
stays smaller than its parent. -/
theorem siftDown_undershoot {a : Nat → α} {n i f : Nat}
    (h : ∀ c, 0 < c → c < n → parent c = i → v (a (parent i)) ≤ v (a c))
    (hi : 0 < i) (hin : i < n) (hlt : v (a i) < v (a (parent i))) :
    ¬ Ordered v (siftDown v n f a i) n := by
  rw [siftDown_of_le fun c hc hcn hci => hlt.le.trans (h c hc hcn hci)]
  exact fun hord => absurd (hord i hi hin) (not_le.mpr hlt)

/-- `siftDown` stays in the subtree of its start. -/
theorem siftDown_of_not_inSubtree {a : Nat → α} {n i f k : Nat} (hk : ¬ InSubtree i k) :
    siftDown v n f a i k = a k := by
  induction f generalizing a i with
  | zero => rfl
  | succ f ih =>
    cases hsome : smallerChild v a n i with
    | none => simp only [siftDown, hsome]
    | some c =>
      obtain ⟨-, hc0, hci, -⟩ := smallerChild_some hsome
      have hchild : InSubtree i c := .child hc0 (hci ▸ .root)
      have hki : k ≠ i := fun heq => hk (heq ▸ .root)
      have hkc : k ≠ c := fun heq => hk (heq ▸ hchild)
      simp only [siftDown, hsome]
      split
      · rw [ih fun hbelow => hk (hchild.trans hbelow), swap_of_ne hki hkc]
      · rfl

/-- `siftDown` does not touch the cells before its start. -/
theorem siftDown_of_lt {a : Nat → α} {n i f k : Nat} (hk : k < i) :
    siftDown v n f a i k = a k :=
  siftDown_of_not_inSubtree fun hbelow => absurd hbelow.le (Nat.not_le.mpr hk)

theorem contents_siftDown {a : Nat → α} {n i f : Nat} (hin : i < n) :
    contents (siftDown v n f a i) n = contents a n := by
  induction f generalizing a i with
  | zero => rfl
  | succ f ih =>
    unfold siftDown
    split
    · rfl
    · rename_i c hsome
      have hcn := (smallerChild_some hsome).1
      split
      · rw [ih hcn, contents_swap hin hcn]
      · rfl

/-! ## Where a cell sinks -/

variable (v)

/-- A cell of value `x` at position `i` reaches `e` on its way down: each
position on the way has a smaller child of a value below `x`. -/
inductive SinksTo (a : Nat → α) (n : Nat) (x : β) : Nat → Nat → Prop
  | here (i : Nat) : SinksTo a n x i i
  | further {i c e : Nat} (child : smallerChild v a n i = some c) (less : v (a c) < x)
      (rest : SinksTo a n x c e) : SinksTo a n x i e

variable {v}

theorem SinksTo.lt {a : Nat → α} {n i e : Nat} {x : β} (h : SinksTo v a n x i e) (hi : i < n) :
    e < n := by
  induction h with
  | here => exact hi
  | further child _ _ ih => exact ih (smallerChild_some child).1

/-- Only the cells in use below `i` are looked at. -/
theorem smallerChild_congr {a b : Nat → α} {n i : Nat} (h : ∀ k, i < k → k < n → b k = a k) :
    smallerChild v b n i = smallerChild v a n i := by
  unfold smallerChild
  split
  · rw [h (2 * i + 1) (by omega) (by omega), h (2 * i + 2) (by omega) (by omega)]
  · rfl

theorem SinksTo.congr {a b : Nat → α} {n i e : Nat} {x : β} (h : SinksTo v a n x i e)
    (hab : ∀ k, i < k → k < n → b k = a k) : SinksTo v b n x i e := by
  induction h with
  | here i => exact .here i
  | further child less _ ih =>
    obtain ⟨hcn, hc0, hci, -⟩ := smallerChild_some child
    have hic := parent_lt hc0
    refine .further ((smallerChild_congr hab).trans child) ?_ (ih ?_)
    · rw [hab _ (by omega) hcn]
      exact less
    · intro k hk hkn
      exact hab k (by omega) hkn

theorem sinksTo_congr_iff {a b : Nat → α} {n i e : Nat} {x : β}
    (hab : ∀ k, i < k → k < n → b k = a k) : SinksTo v b n x i e ↔ SinksTo v a n x i e :=
  ⟨fun h => h.congr fun k hk hkn => (hab k hk hkn).symm, fun h => h.congr hab⟩

/-- A cell without a smaller child in use stays where it is. -/
theorem sinksTo_of_none {a : Nat → α} {n i e : Nat} {x : β} (h : smallerChild v a n i = none) :
    SinksTo v a n x i e ↔ e = i := by
  constructor
  · intro hsinks
    cases hsinks with
    | here => rfl
    | further child => rw [h] at child; cases child
  · rintro rfl
    exact .here e

/-- A cell sinks past `i` exactly when the smaller child has a smaller value. -/
theorem sinksTo_of_some {a : Nat → α} {n i c e : Nat} {x : β}
    (h : smallerChild v a n i = some c) :
    SinksTo v a n x i e ↔ e = i ∨ v (a c) < x ∧ SinksTo v a n x c e := by
  constructor
  · intro hsinks
    cases hsinks with
    | here => exact .inl rfl
    | further child less rest =>
      rw [h] at child
      obtain rfl := Option.some.inj child
      exact .inr ⟨less, rest⟩
  · rintro (rfl | ⟨less, rest⟩)
    · exact .here e
    · exact .further h less rest

end Order

end Lib.BinaryHeap
