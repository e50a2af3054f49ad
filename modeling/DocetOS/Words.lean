import Mathlib

/-!
# Machine words

The STM32F4 is a 32-bit machine: a `uint32_t` and a pointer are both modelled by
a natural number below `2 ^ 32`, with `NULL` for the null pointer. Arithmetic
that can wrap does so explicitly (`wrap`, `decr`); an index or a count that is
bounded by the size of an array in memory is left as a plain natural number.
-/

namespace DocetOS

/-- The null pointer. -/
abbrev NULL : Nat := 0

abbrev UINT32_MAX : Nat := 4294967295

/-- Reduce to 32 bits. -/
def wrap (n : Nat) : Nat := n % 4294967296

/-- `n - 1` on a `uint32_t`. -/
def decr (n : Nat) : Nat := if n = 0 then UINT32_MAX else n - 1

/-- A word read as a pointer. -/
def toPtr (n : Nat) : Option Nat := if n = NULL then none else some n

@[simp] theorem toPtr_null : toPtr NULL = none := rfl

theorem toPtr_of_ne {n : Nat} (h : n ≠ NULL) : toPtr n = some n := if_neg h

theorem eq_of_toPtr {n m : Nat} (h : toPtr n = some m) : n = m := by
  unfold toPtr at h
  split at h
  · cases h
  · exact Option.some.inj h

theorem wrap_of_lt {n : Nat} (h : n < 4294967296) : wrap n = n := Nat.mod_eq_of_lt h

@[simp] theorem decr_succ (n : Nat) : decr (n + 1) = n := by simp [decr]

theorem decr_of_pos {n : Nat} (h : 0 < n) : decr n = n - 1 := by
  unfold decr; rw [if_neg (Nat.pos_iff_ne_zero.mp h)]

end DocetOS
