import Mathlib

/-!
# Event counts: waiting without losing a notification

A waiter reads a counter of notifications, looks at a condition, and parks only
if the counter still has the value it read. The counter is kept modulo some
`size`; the condition and the parking are separate steps, with notifications of
other parties between them.

`Safe` is the invariant of this pattern. `covered r t` says that `t` may stay
parked for `r`: what it waits for has not happened, or somebody is still going
to notify. A waiter is in its window for `r` when it has seen a covered
condition after reading the counter and has not parked yet. The rules are the
steps the pattern is made of:

- `Safe.mono`: a step that keeps every waiter covered;
- `Safe.observe`: a waiter sees that it is covered;
- `Safe.park`: a waiter in its window parks, as the counter has not moved;
- `Safe.notify`: a notification empties `r` and closes every window.
-/

namespace Lib

namespace EventCount

universe u v

variable {ρ : Type u} {τ : Type v}

/-- Two counter values that agree modulo `size` and are less than `size` apart
are equal. -/
theorem eq_of_mod_eq {size read count : ℕ} (hle : read ≤ count) (hlt : count - read < size)
    (h : read % size = count % size) : read = count := by
  have hmod : (count - read) % size = 0 := by
    rw [Nat.sub_mod_eq_zero_of_mod_eq h.symm]
  have hzero : count - read = 0 := by
    rwa [Nat.mod_eq_of_lt hlt] at hmod
  omega

/-- Everybody who is parked, or about to park on the present counter, is
covered. -/
structure Safe (covered parked window : ρ → τ → Prop) (read : τ → ℕ) (count : ℕ) : Prop where
  parked : ∀ r t, parked r t → covered r t
  window : ∀ r t, window r t → read t = count → covered r t

variable {covered covered' parked parked' window window' : ρ → τ → Prop} {read read' : τ → ℕ}
  {count : ℕ}

/-- A step that parks nobody, opens no window and keeps the waiters covered. -/
theorem Safe.mono (h : Safe covered parked window read count)
    (hparked : ∀ r t, parked' r t → parked r t)
    (hwindow : ∀ r t, window' r t → window r t ∧ read' t = read t)
    (hcovered : ∀ r t, (parked' r t ∨ window' r t) → covered r t → covered' r t) :
    Safe covered' parked' window' read' count where
  parked r t hp := hcovered r t (.inl hp) (h.parked r t (hparked r t hp))
  window r t hw heq :=
    hcovered r t (.inr hw) (h.window r t (hwindow r t hw).1 ((hwindow r t hw).2 ▸ heq))

/-- A waiter that sees that it is covered opens a window. -/
theorem Safe.observe (h : Safe covered parked window read count) (r₀ : ρ) (t₀ : τ)
    (hparked : ∀ r t, parked' r t → parked r t)
    (hwindow : ∀ r t, window' r t → window r t ∨ (r = r₀ ∧ t = t₀))
    (hcovered : covered r₀ t₀) :
    Safe covered parked' window' read count where
  parked r t hp := h.parked r t (hparked r t hp)
  window r t hw heq := by
    rcases hwindow r t hw with hw | ⟨rfl, rfl⟩
    · exact h.window r t hw heq
    · exact hcovered

/-- A waiter in its window parks when the counter still shows what it read. -/
theorem Safe.park (h : Safe covered parked window read count) {r₀ : ρ} {t₀ : τ} {size : ℕ}
    (hopen : window r₀ t₀) (hle : read t₀ ≤ count) (hlt : count - read t₀ < size)
    (hsame : read t₀ % size = count % size)
    (hparked : ∀ r t, parked' r t → parked r t ∨ (r = r₀ ∧ t = t₀))
    (hwindow : ∀ r t, window' r t → window r t) :
    Safe covered parked' window' read count where
  parked r t hp := by
    rcases hparked r t hp with hp | ⟨rfl, rfl⟩
    · exact h.parked r t hp
    · exact h.window r t hopen (eq_of_mod_eq hle hlt hsame)
  window r t hw heq := h.window r t (hwindow r t hw) heq

/-- A notification of `r₀` wakes everybody parked for it and moves the counter. -/
theorem Safe.notify (h : Safe covered parked window read count) (r₀ : ρ)
    (hparked : ∀ r t, parked' r t → parked r t ∧ r ≠ r₀)
    (hread : ∀ r t, window' r t → read t ≤ count)
    (hcovered : ∀ r t, r ≠ r₀ → covered r t → covered' r t) :
    Safe covered' parked' window' read (count + 1) where
  parked r t hp := hcovered r t (hparked r t hp).2 (h.parked r t (hparked r t hp).1)
  window r t hw heq := by
    have hle := hread r t hw
    omega

end EventCount

end Lib
