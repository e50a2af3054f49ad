import Mathlib

/-!
# Counting the parties at places of a kind

`census f P` is the number of parties `t` whose place `f t` is of the kind `P`.
When one party moves, the number changes by where it comes from and where it
goes (`census_move`).
-/

namespace Lib

universe u v

variable {τ : Type u} {β : Type v} {f : τ → β} {P : β → Bool} {t : τ} {p : β}

/-- The parties at places of kind `P`. -/
def places (f : τ → β) (P : β → Bool) : Set τ := {t | P (f t) = true}

/-- How many they are. -/
noncomputable def census (f : τ → β) (P : β → Bool) : ℕ := (places f P).ncard

theorem places_eq_empty (h : ∀ t, P (f t) = false) : places f P = ∅ := by
  ext t
  simp [places, h t]

/-- Nobody at a place of the kind. -/
theorem census_eq_zero (h : ∀ t, P (f t) = false) : census f P = 0 := by
  rw [census, places_eq_empty h, Set.ncard_empty]

/-- A party of the kind makes the count positive. -/
theorem census_pos (h : (places f P).Finite) (hf : P (f t) = true) : 0 < census f P :=
  (Set.ncard_pos h).mpr ⟨t, hf⟩

/-- Two kinds that exclude each other add up. -/
theorem census_or {Q : β → Bool} (hP : (places f P).Finite) (hQ : (places f Q).Finite)
    (hPQ : ∀ p, P p = true → Q p = false) :
    census f (fun p => P p || Q p) = census f P + census f Q := by
  have hdisjoint : Disjoint (places f P) (places f Q) := by
    rw [Set.disjoint_left]
    intro u hu hu'
    exact absurd hu' (by simp [places, hPQ _ hu])
  have hunion : places f (fun p => P p || Q p) = places f P ∪ places f Q := by
    ext u
    simp [places]
  unfold census
  rw [hunion, Set.ncard_union_eq hdisjoint hP hQ]

variable [DecidableEq τ]

theorem places_update_enter (hp : P p = true) :
    places (Function.update f t p) P = insert t (places f P) := by
  ext u
  by_cases hu : u = t
  · subst hu
    simp [places, hp]
  · simp [places, hu]

theorem places_update_leave (hp : P p = false) :
    places (Function.update f t p) P = places f P \ {t} := by
  ext u
  by_cases hu : u = t
  · subst hu
    simp [places, hp]
  · simp [places, hu]

theorem places_finite_update (h : (places f P).Finite) (t : τ) (p : β) :
    (places (Function.update f t p) P).Finite := by
  cases hp : P p
  · rw [places_update_leave hp]
    exact h.sdiff
  · rw [places_update_enter hp]
    exact h.insert t

/-- **One party moves.** -/
theorem census_move (h : (places f P).Finite) (t : τ) (p : β) :
    census (Function.update f t p) P + (P (f t)).toNat = census f P + (P p).toNat := by
  unfold census
  cases hp : P p <;> cases hf : P (f t)
  · rw [places_update_leave hp, Set.sdiff_singleton_eq_self (by simp [places, hf])]
  · rw [places_update_leave hp]
    exact Set.ncard_sdiff_singleton_add_one (show t ∈ places f P from hf) h
  · rw [places_update_enter hp]
    exact Set.ncard_insert_of_notMem (by simp [places, hf]) h
  · rw [places_update_enter hp, Set.insert_eq_of_mem (show t ∈ places f P from hf)]

end Lib
