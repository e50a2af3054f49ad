import Mathlib

/-!
# Counting outcomes

A program that draws random numbers reaches a place with some chance when enough of the
sequences of outcomes lead there. Where it must draw from a given set in each of its
draws, and every such set has `w` of the `n` values, `w ^ L` of the `n ^ L` sequences of
`L` outcomes do.
-/

namespace Lib

/-- At least `m` sequences of `L` outcomes, each one of `n`, lead to `P`. -/
def Chance {n : ℕ} (L m : ℕ) (P : (Fin L → Fin n) → Prop) : Prop :=
  ∃ S : Finset (Fin L → Fin n), m ≤ S.card ∧ ∀ r ∈ S, P r

/-- The first draws are from the sets of `A`, in turn. -/
def Draws {n L : ℕ} (r : Fin L → Fin n) (A : List (Finset (Fin n))) : Prop :=
  ∀ (i : ℕ) (hi : i < L) (hA : i < A.length), r ⟨i, hi⟩ ∈ A[i]

theorem Chance.of_draws {n L w : ℕ} {P : (Fin L → Fin n) → Prop} {A : List (Finset (Fin n))}
    (hw : w ≤ n) (hA : ∀ a ∈ A, w ≤ a.card) (h : ∀ r : Fin L → Fin n, Draws r A → P r) :
    Chance L (w ^ L) P := by
  refine ⟨Fintype.piFinset fun i => A[i.val]?.getD Finset.univ, ?_, ?_⟩
  · rw [Fintype.card_piFinset]
    calc w ^ L = ∏ _i : Fin L, w := by rw [Finset.prod_const, Finset.card_univ, Fintype.card_fin]
      _ ≤ ∏ i : Fin L, (A[i.val]?.getD Finset.univ).card := by
        refine Finset.prod_le_prod (fun _ _ => Nat.zero_le w) ?_
        intro i _
        cases hi : A[i.val]? with
        | none => simpa using hw
        | some a => exact hA a (List.mem_of_getElem? hi)
  · intro r hr
    refine h r ?_
    intro i hi hlt
    have hmem := Fintype.mem_piFinset.mp hr ⟨i, hi⟩
    rwa [List.getElem?_eq_getElem hlt, Option.getD_some] at hmem

end Lib
