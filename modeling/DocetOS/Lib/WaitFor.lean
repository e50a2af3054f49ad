import Mathlib

/-!
# Waiting in an order

In a deadlock everyone waits for somebody else who waits, too. It cannot come about
when those who wait have a rank, and whoever is waited for either does not wait or waits
at a higher rank: from everyone who waits, a path leads to somebody who does not.
-/

namespace Lib

variable {α ι : Type*} [Preorder ι] {waitsFor : α → α → Prop} {waits : α → Prop} {rank : α → ι}

/-- **No circular wait.** -/
theorem exists_transGen_not_waits (hfinite : {a | waits a}.Finite)
    (hnext : ∀ a, waits a → ∃ b, waitsFor a b ∧ (waits b → rank a < rank b)) {a : α}
    (ha : waits a) : ∃ b, Relation.TransGen waitsFor a b ∧ ¬ waits b := by
  by_contra hnone
  push Not at hnone
  -- among those that `a` leads to, the one of maximal rank leads on to a higher one
  obtain ⟨b, ⟨hb, hab⟩, hmax⟩ :=
    (hfinite.subset (t := {b | waits b ∧ Relation.ReflTransGen waitsFor a b})
      fun _ hb => hb.1).exists_maximalFor rank _ ⟨a, ha, .refl⟩
  obtain ⟨c, hbc, hrank⟩ := hnext b hb
  have hac : Relation.TransGen waitsFor a c := .tail' hab hbc
  have hc := hnone c hac
  exact (hrank hc).not_ge (hmax ⟨hc, hac.to_reflTransGen⟩ (hrank hc).le)

end Lib
