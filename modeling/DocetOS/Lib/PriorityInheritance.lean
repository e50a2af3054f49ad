import Mathlib

/-!
# Priority inheritance

Parties hold resources and wait for resources. Each party has an urgency, and a
smaller one is more urgent. There is no inversion when everybody who holds a
resource is at least as urgent as everybody who waits for it.

Inheritance gives a party `t` the least of its own urgency and those of the parties
that wait for its resources. That keeps inversions away when it is done each time
somebody starts to wait for a resource of `t`, or `t` gives one back
(`NoInversion.lend`), with one exception: `t` may itself wait for a resource of
somebody who is less urgent than the new waiter.

`IsLeast.insert_union` computes the least element of a set piece by piece, as a
loop over the parties that wait does.
-/

namespace Lib

universe u v w

variable {τ : Type u} {ρ : Type v} {α : Type w}

/-- Whoever holds a resource is at least as urgent as those who wait for it. -/
def NoInversion [LE α] (holds : τ → ρ → Prop) (waits : ρ → τ → Prop) (urgency : τ → α) : Prop :=
  ∀ t r w, holds t r → waits r w → urgency t ≤ urgency w

namespace NoInversion

variable [Preorder α] {holds holds' : τ → ρ → Prop} {waits waits' : ρ → τ → Prop}
  {urgency urgency' : τ → α} {t : τ}

/-- Nobody comes to wait for the holder of a resource. -/
theorem mono (h : NoInversion holds waits urgency)
    (hpairs : ∀ t r w, holds' t r → waits' r w → ∃ r', holds t r' ∧ waits r' w) :
    NoInversion holds' waits' urgency := by
  intro t r w ht hw
  obtain ⟨r', ht', hw'⟩ := hpairs t r w ht hw
  exact h t r' w ht' hw'

/-- Only the urgency of `t` changes: it may not pass that of those who wait for `t`,
nor come in front of those `t` waits for. -/
theorem update (h : NoInversion holds waits urgency)
    (hother : ∀ u, u ≠ t → urgency' u = urgency u)
    (hpairs : ∀ u r w, u ≠ t → holds' u r → waits' r w → holds u r ∧ waits r w)
    (hbelow : ∀ r w, holds' t r → waits' r w → w ≠ t → urgency' t ≤ urgency w)
    (habove : ∀ u r, u ≠ t → holds u r → waits r t → urgency u ≤ urgency' t) :
    NoInversion holds' waits' urgency' := by
  intro u r w hu hw
  by_cases hut : u = t
  · subst hut
    by_cases hwt : w = u
    · rw [hwt]
    · rw [hother w hwt]
      exact hbelow r w hu hw hwt
  · obtain ⟨hold, hwait⟩ := hpairs u r w hut hu hw
    rw [hother u hut]
    by_cases hwt : w = t
    · subst hwt
      exact habove u r hut hold hwait
    · rw [hother w hwt]
      exact h u r w hold hwait

/-- **Inheritance**: `t` gets the least of its own urgency and of those that wait for
it. Whom `t` waits for itself is at least as urgent as the new ones of these. -/
theorem lend (h : NoInversion holds waits urgency) {own : α} (hown : urgency t ≤ own)
    (hother : ∀ u, u ≠ t → urgency' u = urgency u)
    (hleast : IsLeast (insert own {p | ∃ r w, holds' t r ∧ waits' r w ∧ urgency w = p})
      (urgency' t))
    (hpairs : ∀ u r w, u ≠ t → holds' u r → waits' r w → holds u r ∧ waits r w)
    (hnew : ∀ r w, holds' t r → waits' r w → (holds t r ∧ waits r w) ∨
      ∀ u r', u ≠ t → holds u r' → waits r' t → urgency u ≤ urgency w) :
    NoInversion holds' waits' urgency' := by
  refine h.update hother hpairs ?_ ?_
  · intro r w ht hw _
    exact hleast.2 (.inr ⟨r, w, ht, hw, rfl⟩)
  · intro u r hut hu hr
    -- the new urgency is that of one of the parties
    have hut' : urgency u ≤ urgency t := h u r t hu hr
    rcases hleast.1 with heq | ⟨r', w, ht, hw, heq⟩
    · rw [heq]
      exact hut'.trans hown
    · rw [← heq]
      rcases hnew r' w ht hw with ⟨hold, hwait⟩ | hfirst
      · exact hut'.trans (h t r' w hold hwait)
      · exact hfirst u r hut hu hr

end NoInversion

/-- The least element of a set that grows. -/
theorem IsLeast.insert_union [Preorder α] {S T : Set α} {a b c : α}
    (hb : IsLeast (insert a S) b) (hc : IsLeast (insert b T) c) :
    IsLeast (insert a (S ∪ T)) c := by
  constructor
  · rcases hc.1 with rfl | hT
    · exact hb.1.imp id .inl
    · exact .inr (.inr hT)
  · rintro x (rfl | hS | hT)
    · exact (hc.2 (.inl rfl)).trans (hb.2 (.inl rfl))
    · exact (hc.2 (.inl rfl)).trans (hb.2 (.inr hS))
    · exact hc.2 (.inr hT)

end Lib
