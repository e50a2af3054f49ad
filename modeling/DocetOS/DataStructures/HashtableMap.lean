import DocetOS.DataStructures.HashtableMultimap

/-!
# Hashtables as partial maps

`Maps t m`: the multimap of `t` has the value `m k` for each key, and no second
one. A table that is only filled with `HASHTABLE_REJECT_MULTIPLE_VALUES_PER_KEY`
is such a table; `get`, `put` and `remove` are lookup and update of `m`, whatever
the keys are, as long as `put` finds a free struct.
-/

namespace DocetOS.Hashtable

/-- At most one value for each key: the one `m` gives. -/
structure Maps (t : Hashtable) (m : Nat → Option Nat) : Prop where
  wf : t.WF
  stack : ∀ k, t.toMultimap k = (m k).toList

namespace Maps

variable {t : Hashtable} {m m' : Nat → Option Nat} {k v : Nat}

theorem congr (h : Maps t m) (heq : ∀ k, m' k = m k) : Maps t m' where
  wf := h.wf
  stack k := by rw [h.stack, heq]

theorem setFlag (h : Maps t m) (flag : Nat) : Maps { t with validValueFlag := flag } m where
  wf := h.wf.setFlag flag
  stack := h.stack

theorem mem_content (h : Maps t m) : (k, v) ∈ t.content ↔ m k = some v := by
  rw [← mem_toMultimap h.wf, h.stack, Option.mem_toList]

/-- No key is stored twice. -/
theorem once (h : Maps t m) : (t.content.map Prod.fst).Nodup := by
  obtain ⟨chains, free, hrep⟩ := h.wf
  rw [Multiset.nodup_iff_count_le_one]
  intro k
  rw [← hrep.length_toMultimap, h.stack]
  cases m k <;> simp

/-- The keys in use and the free structs make up the capacity. -/
theorem card_add_remaining (h : Maps t m) {keys : Finset Nat}
    (hkeys : ∀ k, k ∈ keys ↔ m k ≠ none) :
    keys.card + t.remainingCapacity = t.maximumCapacity := by
  have hval : t.content.map Prod.fst = keys.val := by
    refine (Multiset.Nodup.ext h.once keys.nodup).mpr ?_
    intro k
    rw [Multiset.mem_map, Finset.mem_val, hkeys, Option.ne_none_iff_exists']
    constructor
    · rintro ⟨p, hp, rfl⟩
      exact ⟨p.2, h.mem_content.mp hp⟩
    · rintro ⟨v, hv⟩
      exact ⟨(k, v), h.mem_content.mpr hv, rfl⟩
  have hcard := h.wf.card_content
  rw [Finset.card, ← hval, Multiset.card_map]
  omega

theorem get (h : Maps t m) (k : Nat) : t.get k = t.found (m k) := by
  rw [get_eq h.wf, h.stack]
  cases m k <;> rfl

theorem found (h : Maps t m) (value : Option Nat) : Maps (t.found value).1 m := by
  cases value <;> exact h.setFlag _

/-- `remove` of a key in use. -/
theorem remove_some (h : Maps t m) (hk : m k = some v) :
    ∃ t', t.remove k = (t', v) ∧ Maps t' (Function.update m k none) ∧
      (k, v) ::ₘ t'.content = t.content ∧ t'.maximumCapacity = t.maximumCapacity ∧
      t'.validValueFlag = 1 := by
  obtain ⟨t', w, hremove, hwf, hcontent, hflag, -, hmax⟩ :=
    remove_of_mem h.wf ⟨v, h.mem_content.mpr hk⟩
  obtain ⟨-, -, hpop, -⟩ := remove_toMultimap h.wf k
  have hw : m k = some w := h.mem_content.mp (hcontent ▸ Multiset.mem_cons_self _ _)
  obtain rfl : w = v := by
    rw [hk] at hw
    exact (Option.some.inj hw).symm
  rw [hremove] at hpop
  refine ⟨t', hremove, ⟨hwf, ?_⟩, hcontent, hmax, hflag⟩
  intro k'
  rw [hpop, Lib.Multimap.pop_apply, Function.update_apply]
  split
  · rw [h.stack, hk]
    rfl
  · exact h.stack k'

/-- `remove` of a key that is not in use. -/
theorem remove_none (h : Maps t m) (hk : m k = none) :
    t.remove k = ({ t with validValueFlag := 0 }, NULL) :=
  remove_of_not_mem h.wf fun w hw => by
    rw [h.mem_content, hk] at hw
    cases hw

/-- `put` of a new key that finds a free struct, in a mode that does not refuse
the pair. -/
theorem put_of_new (h : Maps t m) (hk : m k = none) (hroom : 0 < t.remainingCapacity)
    {mode : DuplicateCheck} (hnew : ¬ t.Duplicate k v mode) :
    ∃ t', t.put k v mode = (t', 1) ∧ Maps t' (Function.update m k (some v)) ∧
      t'.content = (k, v) ::ₘ t.content ∧ t'.maximumCapacity = t.maximumCapacity := by
  obtain ⟨t', hput, hwf, hcontent, -, hmax⟩ := put_of_room h.wf hroom hnew
  obtain ⟨-, hpush⟩ := put_of_room_toMultimap h.wf hroom hnew
  rw [hput] at hpush
  refine ⟨t', hput, ⟨hwf, ?_⟩, hcontent, hmax⟩
  intro k'
  rw [hpush, Lib.Multimap.push_apply, Function.update_apply]
  split
  · rw [h.stack, hk]
    rfl
  · exact h.stack k'

theorem put (h : Maps t m) (hk : m k = none) (hroom : 0 < t.remainingCapacity) (v : Nat) :
    ∃ t', t.put k v .rejectMultipleValuesPerKey = (t', 1) ∧
      Maps t' (Function.update m k (some v)) ∧ t'.content = (k, v) ::ₘ t.content ∧
      t'.maximumCapacity = t.maximumCapacity := by
  refine h.put_of_new hk hroom ?_
  rw [duplicate_iff h.wf (by decide), h.stack, hk]
  simp

/-- Removing a key and putting it again replaces its value: the struct that
becomes free is enough. -/
theorem replace (h : Maps t m) (hk : m k = some v) (w : Nat) :
    ∃ t₁ t₂, t.remove k = (t₁, v) ∧ t₁.put k w .rejectMultipleValuesPerKey = (t₂, 1) ∧
      Maps t₂ (Function.update m k (some w)) ∧ t₂.maximumCapacity = t.maximumCapacity := by
  obtain ⟨t₁, hremove, h₁, hcontent, hmax₁, -⟩ := h.remove_some hk
  have hroom : 0 < t₁.remainingCapacity := by
    have hcard := h.wf.card_content
    have hcard₁ := h₁.wf.card_content
    rw [← hcontent, Multiset.card_cons] at hcard
    omega
  obtain ⟨t₂, hput, h₂, -, hmax₂⟩ := h₁.put (Function.update_self ..) hroom w
  rw [Function.update_idem] at h₂
  exact ⟨t₁, t₂, hremove, hput, h₂, hmax₂.trans hmax₁⟩

end Maps

/-- A fresh table maps nothing. -/
theorem newHashtable_maps {capacity numberOfBuckets : Nat} (hb : 0 < numberOfBuckets)
    (memory : Nat → HashtableValue) (flag : Nat) :
    Maps (newHashtable capacity numberOfBuckets memory flag) fun _ => none where
  wf := newHashtable_wf_of_buckets hb memory flag
  stack k := newHashtable_toMultimap memory flag k

end DocetOS.Hashtable
