import DocetOS.Lib.Simulation

/-!
# Reference counting

A pool lends a resource to a key as long as the key has users. The first
`acquire` of a key picks a resource that no other key has, further ones get the
same resource, and the `release` of the last user gives it back.

- `Step`: a call with its answer. An `acquire` may be refused.
- `Run.users_add`: what is lent is what was acquired and not yet released.
- `Step.proper`: a step keeps that keys with users have different resources.
-/

namespace Lib.RefCount

universe u v

/-- A resource and the number of its users. -/
structure Lease (ρ : Type v) where
  resource : ρ
  users : Nat
deriving DecidableEq

/-- The keys with users. -/
abbrev Leases (κ : Type u) (ρ : Type v) := κ → Option (Lease ρ)

/-- A call and its answer; `other` is an access to the resources themselves. -/
inductive Event (κ : Type u) (ρ : Type v)
  | acquire (key : κ) (granted : Option ρ)
  | release (key : κ) (released : Bool)
  | ask (key : κ) (users : Nat)
  | other

section

variable {κ : Type u} {ρ : Type v}

def Leases.users (m : Leases κ ρ) (k : κ) : Nat := (m k).elim 0 Lease.users

theorem Leases.users_of_none {m : Leases κ ρ} {k : κ} (h : m k = none) : m.users k = 0 := by
  rw [Leases.users, h, Option.elim_none]

theorem Leases.users_of_some {m : Leases κ ρ} {k : κ} {l : Lease ρ} (h : m k = some l) :
    m.users k = l.users := by
  rw [Leases.users, h, Option.elim_some]

/-- Every lease has a user, and no resource is lent to two keys. -/
structure Leases.Proper (m : Leases κ ρ) : Prop where
  used : ∀ k l, m k = some l → 0 < l.users
  distinct : ∀ k k' l l', m k = some l → m k' = some l' → l.resource = l'.resource → k = k'

variable [DecidableEq κ]

/-- The leases before a call, the call with its answer, and the leases after it. -/
inductive Step : Leases κ ρ → Event κ ρ → Leases κ ρ → Prop
  | refuse (m : Leases κ ρ) (k : κ) : Step m (.acquire k none) m
  | first {m : Leases κ ρ} {k : κ} {r : ρ} (new : m k = none)
      (free : ∀ k' l, m k' = some l → l.resource ≠ r) :
      Step m (.acquire k (some r)) (Function.update m k (some ⟨r, 1⟩))
  | again {m : Leases κ ρ} {k : κ} {r : ρ} {n : Nat} (held : m k = some ⟨r, n⟩) :
      Step m (.acquire k (some r)) (Function.update m k (some ⟨r, n + 1⟩))
  | absent {m : Leases κ ρ} {k : κ} (new : m k = none) : Step m (.release k false) m
  | release {m : Leases κ ρ} {k : κ} {r : ρ} {n : Nat} (held : m k = some ⟨r, n + 2⟩) :
      Step m (.release k true) (Function.update m k (some ⟨r, n + 1⟩))
  | last {m : Leases κ ρ} {k : κ} {r : ρ} (held : m k = some ⟨r, 1⟩) :
      Step m (.release k true) (Function.update m k none)
  | ask (m : Leases κ ρ) (k : κ) : Step m (.ask k (m.users k)) m
  | other (m : Leases κ ρ) : Step m .other m

/-- Whether an event is a granted `acquire` of `k`. -/
def acquires (k : κ) : Event κ ρ → Nat
  | .acquire k' (some _) => if k' = k then 1 else 0
  | _ => 0

/-- Whether an event is a successful `release` of `k`. -/
def releases (k : κ) : Event κ ρ → Nat
  | .release k' true => if k' = k then 1 else 0
  | _ => 0

variable {m m' : Leases κ ρ} {e : Event κ ρ}

@[simp] theorem users_update (m : Leases κ ρ) (k k' : κ) (l : Option (Lease ρ)) :
    Leases.users (Function.update m k l) k' =
      if k' = k then l.elim 0 Lease.users else m.users k' := by
  unfold Leases.users
  rw [Function.update_apply]
  split <;> rfl

/-- An event that is about the key `k'` alone changes the count of no other key. -/
theorem users_update_add {k' : κ} {l : Option (Lease ρ)}
    (hother : ∀ k, k ≠ k' → acquires k e = 0 ∧ releases k e = 0)
    (hkey : l.elim 0 Lease.users + releases k' e = m.users k' + acquires k' e) (k : κ) :
    Leases.users (Function.update m k' l) k + releases k e = m.users k + acquires k e := by
  rw [users_update]
  by_cases hk : k = k'
  · subst hk
    rw [if_pos rfl]
    exact hkey
  · obtain ⟨hacquires, hreleases⟩ := hother k hk
    rw [if_neg hk, hacquires, hreleases]

theorem Step.users_add (h : Step m e m') (k : κ) :
    m'.users k + releases k e = m.users k + acquires k e := by
  cases h with
  | refuse => rfl
  | absent => rfl
  | ask => rfl
  | other => rfl
  | first new free =>
    refine users_update_add ?_ ?_ k
    · intro k hk
      simp [acquires, releases, Ne.symm hk]
    · simp [acquires, releases, Leases.users_of_none new]
  | again held =>
    refine users_update_add ?_ ?_ k
    · intro k hk
      simp [acquires, releases, Ne.symm hk]
    · simp [acquires, releases, Leases.users_of_some held]
  | release held =>
    refine users_update_add ?_ ?_ k
    · intro k hk
      simp [acquires, releases, Ne.symm hk]
    · simp [acquires, releases, Leases.users_of_some held]
  | last held =>
    refine users_update_add ?_ ?_ k
    · intro k hk
      simp [acquires, releases, Ne.symm hk]
    · simp [acquires, releases, Leases.users_of_some held]

/-- **Counting**: users at the end and releases are users at the start and
acquisitions. -/
theorem Run.users_add {es : List (Event κ ρ)} (h : Run Step m es m') (k : κ) :
    m'.users k + (es.map (releases k)).sum = m.users k + (es.map (acquires k)).sum := by
  induction h with
  | nil => rfl
  | cons head tail ih =>
    have hstep := head.users_add k
    simp only [List.map_cons, List.sum_cons]
    omega

/-- Changing the number of users of a key that keeps its resource. -/
theorem Leases.Proper.update (h : m.Proper) {k : κ} {r : ρ} {n n' : Nat}
    (held : m k = some ⟨r, n⟩) (hn' : 0 < n') :
    Leases.Proper (Function.update m k (some ⟨r, n'⟩)) := by
  have hold : ∀ k' l, Function.update m k (some ⟨r, n'⟩) k' = some l →
      0 < l.users ∧ ∃ l', m k' = some l' ∧ l'.resource = l.resource := by
    intro k' l hl
    rw [Function.update_apply] at hl
    split at hl
    · rename_i hk
      cases hl
      exact ⟨hn', ⟨r, n⟩, hk ▸ held, rfl⟩
    · exact ⟨h.used k' l hl, l, hl, rfl⟩
  constructor
  · intro k' l hl
    exact (hold k' l hl).1
  · intro k₁ k₂ l₁ l₂ h₁ h₂ heq
    obtain ⟨-, l₁', h₁', heq₁⟩ := hold k₁ l₁ h₁
    obtain ⟨-, l₂', h₂', heq₂⟩ := hold k₂ l₂ h₂
    exact h.distinct k₁ k₂ l₁' l₂' h₁' h₂' (heq₁.trans (heq.trans heq₂.symm))

theorem Step.proper (h : Step m e m') (hm : m.Proper) : m'.Proper := by
  cases h with
  | refuse => exact hm
  | absent => exact hm
  | ask => exact hm
  | other => exact hm
  | again held => exact hm.update held (Nat.succ_pos _)
  | release held => exact hm.update held (Nat.succ_pos _)
  | @last k r held =>
    -- the lease is gone, and the others are as they were
    have hold : ∀ k' l, Function.update m k none k' = some l → m k' = some l := by
      intro k' l hl
      rw [Function.update_apply] at hl
      split at hl
      · cases hl
      · exact hl
    exact ⟨fun k' l hl => hm.used k' l (hold k' l hl), fun k₁ k₂ l₁ l₂ h₁ h₂ =>
      hm.distinct k₁ k₂ l₁ l₂ (hold k₁ l₁ h₁) (hold k₂ l₂ h₂)⟩
  | @first k r new free =>
    -- the resource is new, so it is not that of another lease
    have hold : ∀ k' l, Function.update m k (some ⟨r, 1⟩) k' = some l →
        k' = k ∧ l = ⟨r, 1⟩ ∨ k' ≠ k ∧ m k' = some l := by
      intro k' l hl
      rw [Function.update_apply] at hl
      split at hl
      · rename_i hk
        exact .inl ⟨hk, (Option.some.inj hl).symm⟩
      · rename_i hk
        exact .inr ⟨hk, hl⟩
    constructor
    · intro k' l hl
      rcases hold k' l hl with ⟨-, rfl⟩ | ⟨-, hl⟩
      · exact Nat.one_pos
      · exact hm.used k' l hl
    · intro k₁ k₂ l₁ l₂ h₁ h₂ heq
      rcases hold k₁ l₁ h₁ with ⟨rfl, rfl⟩ | ⟨-, hold₁⟩ <;>
        rcases hold k₂ l₂ h₂ with ⟨rfl, rfl⟩ | ⟨-, hold₂⟩
      · rfl
      · exact absurd heq.symm (free k₂ l₂ hold₂)
      · exact absurd heq (free k₁ l₁ hold₁)
      · exact hm.distinct k₁ k₂ l₁ l₂ hold₁ hold₂ heq

end

end Lib.RefCount
