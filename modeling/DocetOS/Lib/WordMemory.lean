import Mathlib

/-!
# Words in a memory

A memory of words that are named by byte addresses: the words of a list lie four
bytes apart. `storeWords` is a store of several registers, and is undone by reading
them back one by one (`storeWords_get`); every other word stays (`storeWords_of_lt`,
`storeWords_of_le`). `assign` writes words anywhere.
`Agrees` relates a memory of which only some words are known to one that has them.
-/

namespace Lib

universe u

variable {α : Type u}

/-- `memory` with the words `ws` from `address` on. -/
def storeWords (memory : ℕ → α) (address : ℕ) : List α → ℕ → α
  | [] => memory
  | w :: ws => storeWords (Function.update memory address w) (address + 4) ws

variable {memory : ℕ → α} {address a : ℕ} {ws : List α}

theorem storeWords_of_lt (h : a < address) : storeWords memory address ws a = memory a := by
  induction ws generalizing memory address with
  | nil => rfl
  | cons w ws ih =>
    show storeWords (Function.update memory address w) (address + 4) ws a = memory a
    rw [ih (Nat.lt_add_right 4 h), Function.update_of_ne (Nat.ne_of_lt h)]

theorem storeWords_of_le (h : address + 4 * ws.length ≤ a) :
    storeWords memory address ws a = memory a := by
  induction ws generalizing memory address with
  | nil => rfl
  | cons w ws ih =>
    rw [List.length_cons] at h
    show storeWords (Function.update memory address w) (address + 4) ws a = memory a
    rw [ih (by omega), Function.update_of_ne (by omega)]

/-- A word that was stored is read back. -/
theorem storeWords_get {i : ℕ} (hi : i < ws.length) :
    storeWords memory address ws (address + 4 * i) = ws[i] := by
  induction ws generalizing memory address i with
  | nil => exact absurd hi (Nat.not_lt_zero i)
  | cons w ws ih =>
    show storeWords (Function.update memory address w) (address + 4) ws (address + 4 * i) = _
    cases i with
    | zero =>
      rw [storeWords_of_lt (by omega)]
      exact Function.update_self address w memory
    | succ i =>
      have hi' : i < ws.length := Nat.lt_of_succ_lt_succ hi
      rw [show address + 4 * (i + 1) = address + 4 + 4 * i by omega, ih hi']
      rfl

/-- `memory` after the writes of words to addresses, one after the other. -/
def assign (memory : ℕ → α) (writes : List (ℕ × α)) : ℕ → α :=
  writes.foldl (fun memory write => Function.update memory write.1 write.2) memory

theorem assign_of_notMem {writes : List (ℕ × α)} (h : ∀ write ∈ writes, write.1 ≠ a) :
    assign memory writes a = memory a := by
  induction writes generalizing memory with
  | nil => rfl
  | cons write writes ih =>
    show assign (Function.update memory write.1 write.2) writes a = memory a
    rw [ih fun w hw => h w (List.mem_cons_of_mem _ hw),
      Function.update_of_ne (h write List.mem_cons_self).symm]

/-- The words that are known are those of the memory. -/
def Agrees (known : ℕ → Option α) (memory : ℕ → α) : Prop :=
  ∀ a w, known a = some w → memory a = w

namespace Agrees

variable {known : ℕ → Option α} {memory' : ℕ → α}

/-- Words that are forgotten may change. -/
theorem forget (h : Agrees known memory) {P : ℕ → Prop} [DecidablePred P]
    (hm : ∀ a, ¬ P a → memory' a = memory a) :
    Agrees (fun a => if P a then none else known a) memory' := by
  intro a w (hw : (if P a then none else known a) = some w)
  by_cases ha : P a
  · rw [if_pos ha] at hw
    cases hw
  · rw [if_neg ha] at hw
    rw [hm a ha]
    exact h a w hw

theorem assign (h : Agrees known memory) (writes : List (ℕ × α)) :
    Agrees (Lib.assign known (writes.map fun write => (write.1, some write.2)))
      (Lib.assign memory writes) := by
  induction writes generalizing known memory with
  | nil => exact h
  | cons write writes ih =>
    have hwrite : Agrees (Function.update known write.1 (some write.2))
        (Function.update memory write.1 write.2) := by
      intro a w hw
      by_cases ha : a = write.1
      · subst ha
        rw [Function.update_self] at hw ⊢
        exact Option.some.inj hw
      · rw [Function.update_of_ne ha] at hw ⊢
        exact h a w hw
    exact ih hwrite

end Agrees

end Lib
