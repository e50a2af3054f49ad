import Mathlib

/-!
# Ring buffers

`ring memory size start len` are the `len` cells of a ring of `size` cells from
`start` on. The rules are the operations of a queue on a ring: writing a cell
that is not among them, taking in the next cell, and giving up the first.
-/

namespace Lib

universe u

variable {α : Type u}

/-- The `len` cells from `start` on, going round at `size`. -/
def ring (memory : ℕ → α) (size start len : ℕ) : List α :=
  (List.range len).map fun i => memory ((start + i) % size)

variable {memory : ℕ → α} {size start len : ℕ}

@[simp] theorem ring_length : (ring memory size start len).length = len := by
  simp [ring]

/-- The next cell joins at the end. -/
theorem ring_succ : ring memory size start (len + 1) =
    ring memory size start len ++ [memory ((start + len) % size)] := by
  simp [ring, List.range_succ]

/-- The first cell leaves at the front. -/
theorem ring_cons (h : start < size) : ring memory size start (len + 1) =
    memory start :: ring memory size ((start + 1) % size) len := by
  simp only [ring, List.range_succ_eq_map, List.map_cons, List.map_map]
  rw [Nat.add_zero, Nat.mod_eq_of_lt h]
  congr 1
  refine List.map_congr_left ?_
  intro i _
  simp only [Function.comp_apply, Nat.mod_add_mod]
  congr 2
  omega

theorem ring_getElem? {i : ℕ} (h : i < len) :
    (ring memory size start len)[i]? = some (memory ((start + i) % size)) := by
  simp [ring, List.getElem?_range h]

/-- Different offsets below `size` are different cells. -/
theorem ring_index_ne {i j : ℕ} (hi : i < size) (hj : j < size) (hne : i ≠ j) :
    (start + i) % size ≠ (start + j) % size := by
  intro heq
  have hmod : i ≡ j [MOD size] := Nat.ModEq.add_left_cancel' start heq
  exact hne (hmod.eq_of_lt_of_lt hi hj)

/-- Writing the next cell leaves the others. -/
theorem ring_update (h : len < size) (v : α) :
    ring (Function.update memory ((start + len) % size) v) size start len =
      ring memory size start len := by
  refine List.map_congr_left ?_
  intro i hi
  have hlt := List.mem_range.mp hi
  exact Function.update_of_ne (ring_index_ne (hlt.trans h) h hlt.ne) _ _

end Lib
