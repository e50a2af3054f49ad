import DocetOS.DataStructures.HashtableSpec

/-!
# Hashtables with one value for each key

With `HASHTABLE_REJECT_MULTIPLE_VALUES_PER_KEY` a table is a partial map. `Keyed
known t` says that `t` is one, with keys from `known` and room for all of them:
then `put` fails only on a key that is present. `KeySet known t P` is the case in
which every key is stored under itself, so that `t` is the set of all `k` with
`P k`.
-/

namespace DocetOS.Hashtable

@[simp] theorem put_maximumCapacity (t : Hashtable) (k v : Nat) (mode : DuplicateCheck) :
    (t.put k v mode).1.maximumCapacity = t.maximumCapacity := by
  unfold Hashtable.put
  split
  · rfl
  · dsimp only
    split
    · rfl
    · split <;> rfl

@[simp] theorem remove_maximumCapacity (t : Hashtable) (k : Nat) :
    (t.remove k).1.maximumCapacity = t.maximumCapacity := by
  unfold Hashtable.remove
  split <;> rfl

/-- One value for each key, every key known, and room for all that are. -/
structure Keyed (known : Finset Nat) (t : Hashtable) : Prop where
  wf : t.WF
  once : (t.content.map Prod.fst).Nodup
  mem_known : ∀ p ∈ t.content, p.1 ∈ known
  room : known.card ≤ t.maximumCapacity

namespace Keyed

variable {known : Finset Nat} {t : Hashtable} {k v w : Nat}

theorem value_unique (h : Keyed known t) (hv : (k, v) ∈ t.content) (hw : (k, w) ∈ t.content) :
    v = w :=
  congrArg Prod.snd (Multiset.inj_on_of_nodup_map h.once _ hv _ hw rfl)

theorem setFlag (h : Keyed known t) (flag : Nat) :
    Keyed known { t with validValueFlag := flag } :=
  { h with wf := h.wf.setFlag flag }

/-- The keys may be known among others, if there is room for these. -/
theorem setKnown (h : Keyed known t) {known' : Finset Nat} (hmem : ∀ p ∈ t.content, p.1 ∈ known')
    (hroom : known'.card ≤ t.maximumCapacity) : Keyed known' t :=
  ⟨h.wf, h.once, hmem, hroom⟩

/-- A known key that is absent fits in. -/
theorem remaining_pos (h : Keyed known t) (hk : k ∈ known) (hnew : ∀ w, (k, w) ∉ t.content) :
    0 < t.remainingCapacity := by
  have hsub : (t.content.map Prod.fst).toFinset ⊆ known.erase k := by
    intro x hx
    obtain ⟨p, hp, rfl⟩ := Multiset.mem_map.mp (Multiset.mem_toFinset.mp hx)
    refine Finset.mem_erase.mpr ⟨?_, h.mem_known p hp⟩
    rintro rfl
    exact hnew p.2 hp
  have hcard := Finset.card_le_card hsub
  rw [Multiset.toFinset_card_of_nodup h.once, Multiset.card_map, Finset.card_erase_of_mem hk]
    at hcard
  have hpos : 0 < known.card := Finset.card_pos.mpr ⟨k, hk⟩
  have htotal := h.wf.card_content
  have hroom := h.room
  omega

theorem put_of_mem (h : Keyed known t) (hw : (k, w) ∈ t.content) (v : Nat) :
    t.put k v .rejectMultipleValuesPerKey = (t, 0) :=
  put_of_duplicate h.wf (.inl ⟨rfl, w, hw⟩)

theorem put_of_not_mem (h : Keyed known t) (hk : k ∈ known) (hnew : ∀ w, (k, w) ∉ t.content)
    (v : Nat) :
    ∃ t', t.put k v .rejectMultipleValuesPerKey = (t', 1) ∧ Keyed known t' ∧
      t'.content = (k, v) ::ₘ t.content := by
  have hfresh : ¬ t.Duplicate k v .rejectMultipleValuesPerKey := by
    rintro (⟨-, w, hw⟩ | ⟨hmode, -⟩)
    · exact hnew w hw
    · cases hmode
  obtain ⟨t', hput, hwf, hcontent, -, hcapacity⟩ :=
    put_of_room h.wf (h.remaining_pos hk hnew) hfresh
  refine ⟨t', hput, { wf := hwf, once := ?_, mem_known := ?_, room := ?_ }, hcontent⟩
  · rw [hcontent, Multiset.map_cons, Multiset.nodup_cons]
    refine ⟨?_, h.once⟩
    intro hmem
    obtain ⟨⟨k', w⟩, hp, rfl⟩ := Multiset.mem_map.mp hmem
    exact hnew w hp
  · intro p hp
    rw [hcontent, Multiset.mem_cons] at hp
    rcases hp with rfl | hp
    · exact hk
    · exact h.mem_known p hp
  · rw [hcapacity]
    exact h.room

/-- `put` of a known key, whether it is present or not. -/
theorem put (h : Keyed known t) (hk : k ∈ known) (v : Nat) :
    Keyed known (t.put k v .rejectMultipleValuesPerKey).1 ∧
      ∀ p ∈ (t.put k v .rejectMultipleValuesPerKey).1.content, p = (k, v) ∨ p ∈ t.content := by
  by_cases hmem : ∃ w, (k, w) ∈ t.content
  · obtain ⟨w, hw⟩ := hmem
    rw [h.put_of_mem hw]
    exact ⟨h, fun p hp => .inr hp⟩
  · obtain ⟨t', hput, hkeyed, hcontent⟩ := h.put_of_not_mem hk (fun w hw => hmem ⟨w, hw⟩) v
    rw [hput]
    refine ⟨hkeyed, ?_⟩
    intro p hp
    rwa [hcontent, Multiset.mem_cons] at hp

/-- `remove` takes out the pair of its key. -/
theorem remove (h : Keyed known t) (k : Nat) :
    Keyed known (t.remove k).1 ∧
      ∀ p, p ∈ (t.remove k).1.content ↔ p ∈ t.content ∧ p.1 ≠ k := by
  by_cases hk : ∃ w, (k, w) ∈ t.content
  · obtain ⟨t', w, hremove, hwf, hcontent, -, -, hcapacity⟩ := remove_of_mem h.wf hk
    have honce := h.once
    rw [← hcontent, Multiset.map_cons, Multiset.nodup_cons] at honce
    rw [hremove]
    refine ⟨{ wf := hwf, once := honce.2, mem_known := ?_, room := ?_ }, ?_⟩
    · intro p hp
      exact h.mem_known p (hcontent ▸ Multiset.mem_cons_of_mem hp)
    · rw [hcapacity]
      exact h.room
    · intro p
      rw [← hcontent, Multiset.mem_cons]
      constructor
      · intro hp
        exact ⟨.inr hp, fun heq => honce.1 (Multiset.mem_map.mpr ⟨p, hp, heq⟩)⟩
      · rintro ⟨rfl | hp, hne⟩
        · exact absurd rfl hne
        · exact hp
  · have hnew : ∀ w, (k, w) ∉ t.content := fun w hw => hk ⟨w, hw⟩
    rw [remove_of_not_mem h.wf hnew]
    refine ⟨h.setFlag 0, fun p => ⟨fun hp => ⟨hp, ?_⟩, And.left⟩⟩
    rintro rfl
    exact hnew p.2 hp

theorem remove_value (h : Keyed known t) (hv : (k, v) ∈ t.content) : (t.remove k).2 = v := by
  obtain ⟨t', w, hremove, -, hcontent, -⟩ := remove_of_mem h.wf ⟨v, hv⟩
  rw [hremove]
  exact h.value_unique (hcontent ▸ Multiset.mem_cons_self _ _) hv

/-- The flag after a removal tells that the key was there. -/
theorem remove_flag (h : Keyed known t) (hv : (k, v) ∈ t.content) :
    (t.remove k).1.validValueFlag = 1 := by
  obtain ⟨t', w, hremove, -, -, hflag, -⟩ := remove_of_mem h.wf ⟨v, hv⟩
  rw [hremove]
  exact hflag

theorem get_value (h : Keyed known t) (hv : (k, v) ∈ t.content) :
    t.get k = ({ t with validValueFlag := 1 }, v) := by
  obtain ⟨w, hget, hw⟩ := get_of_mem h.wf ⟨v, hv⟩
  rw [hget, h.value_unique hw hv]

end Keyed

/-- A table that holds every `k` with `P k` under itself, and nothing else. -/
structure KeySet (known : Finset Nat) (t : Hashtable) (P : Nat → Prop) : Prop where
  keyed : Keyed known t
  mem : ∀ k v, (k, v) ∈ t.content ↔ v = k ∧ P k

namespace KeySet

variable {known : Finset Nat} {t : Hashtable} {P Q : Nat → Prop} {k : Nat}

theorem congr (h : KeySet known t P) (hPQ : ∀ k, P k ↔ Q k) : KeySet known t Q where
  keyed := h.keyed
  mem k v := by rw [h.mem, hPQ]

theorem setFlag (h : KeySet known t P) (flag : Nat) :
    KeySet known { t with validValueFlag := flag } P where
  keyed := h.keyed.setFlag flag
  mem := h.mem

/-- The keys may be known among others, if there is room for these. -/
theorem setKnown (h : KeySet known t P) {known' : Finset Nat} (hP : ∀ k, P k → k ∈ known')
    (hroom : known'.card ≤ t.maximumCapacity) : KeySet known' t P where
  keyed := h.keyed.setKnown (fun p hp => hP p.1 ((h.mem p.1 p.2).mp hp).2) hroom
  mem := h.mem

/-- The table holds `k` exactly as often as `P k` says: once or never. -/
theorem count (h : KeySet known t P) [Decidable (P k)] :
    (t.content.map Prod.fst).count k = if P k then 1 else 0 := by
  split
  · rename_i hk
    exact Multiset.count_eq_one_of_mem h.keyed.once
      (Multiset.mem_map.mpr ⟨(k, k), (h.mem k k).mpr ⟨rfl, hk⟩, rfl⟩)
  · rename_i hk
    refine Multiset.count_eq_zero.mpr ?_
    intro hmem
    obtain ⟨⟨k', v⟩, hp, rfl⟩ := Multiset.mem_map.mp hmem
    exact hk ((h.mem k' v).mp hp).2

theorem put_of_mem (h : KeySet known t P) (hk : P k) :
    t.put k k .rejectMultipleValuesPerKey = (t, 0) :=
  h.keyed.put_of_mem ((h.mem k k).mpr ⟨rfl, hk⟩) k

theorem put_of_not_mem (h : KeySet known t P) (hknown : k ∈ known) (hk : ¬ P k) :
    ∃ t', t.put k k .rejectMultipleValuesPerKey = (t', 1) ∧
      KeySet known t' fun x => x = k ∨ P x := by
  obtain ⟨t', hput, hkeyed, hcontent⟩ :=
    h.keyed.put_of_not_mem hknown (fun w hw => hk ((h.mem k w).mp hw).2) k
  refine ⟨t', hput, hkeyed, ?_⟩
  intro x v
  rw [hcontent, Multiset.mem_cons, Prod.mk.injEq, h.mem]
  constructor
  · rintro (⟨rfl, rfl⟩ | ⟨rfl, hx⟩)
    · exact ⟨rfl, .inl rfl⟩
    · exact ⟨rfl, .inr hx⟩
  · rintro ⟨rfl, rfl | hx⟩
    · exact .inl ⟨rfl, rfl⟩
    · exact .inr ⟨rfl, hx⟩

theorem remove (h : KeySet known t P) (k : Nat) :
    KeySet known (t.remove k).1 fun x => x ≠ k ∧ P x := by
  obtain ⟨hkeyed, hmem⟩ := h.keyed.remove k
  refine ⟨hkeyed, ?_⟩
  intro x v
  rw [hmem, h.mem]
  exact ⟨fun hx => ⟨hx.1.1, hx.2, hx.1.2⟩, fun hx => ⟨⟨hx.1, hx.2.2⟩, hx.2.1⟩⟩

theorem remove_value (h : KeySet known t P) (hk : P k) : (t.remove k).2 = k :=
  h.keyed.remove_value ((h.mem k k).mpr ⟨rfl, hk⟩)

end KeySet

/-- A fresh table with room for the known keys. -/
theorem newHashtable_keyed {known : Finset Nat} {capacity numberOfBuckets : Nat}
    (hroom : known.card ≤ capacity) (hc : 0 < capacity) (hb : 0 < numberOfBuckets)
    (memory : Nat → HashtableValue) (flag : Nat) :
    Keyed known (newHashtable capacity numberOfBuckets memory flag) where
  wf := newHashtable_wf hc hb memory flag
  once := by simp
  mem_known := by simp
  room := hroom

theorem newHashtable_keySet {known : Finset Nat} {capacity numberOfBuckets : Nat}
    (hroom : known.card ≤ capacity) (hc : 0 < capacity) (hb : 0 < numberOfBuckets)
    (memory : Nat → HashtableValue) (flag : Nat) {P : Nat → Prop} (hP : ∀ k, ¬ P k) :
    KeySet known (newHashtable capacity numberOfBuckets memory flag) P where
  keyed := newHashtable_keyed hroom hc hb memory flag
  mem k v := by simp [hP k]

end DocetOS.Hashtable
