import Mathlib

/-!
# Null-terminated chains in memory

A linked structure is a function `next` from a cell to the cell its pointer
field names (`none` for the null pointer). `Path next p l q` says that following
`next` from the pointer `p` visits the cells `l` in order and arrives at `q`;
`Chain next p l` is the case `q = none`, a null-terminated list.

The rules are those a program needs that pushes, pops and unlinks cells:

- `Path.congr`: a path only depends on the cells it visits (frame);
- `Path.cons_iff`, `Path.append_iff`: where a path starts and where it splits;
- `Chain.unique`, `Chain.nodup`: a chain determines its list, and the list
  repeats nothing;
- `Path.unlink`: unlinking the cell after a cell;
- `walk`: the executable walk, equal to the list of the chain.
-/

namespace Lib

universe u

variable {α : Type u}

/-- Following `next` from `p` visits `l` in order and arrives at `q`. -/
inductive Path (next : α → Option α) : Option α → List α → Option α → Prop
  | nil (p : Option α) : Path next p [] p
  | cons {a : α} {l : List α} {q : Option α} (h : Path next (next a) l q) :
      Path next (some a) (a :: l) q

/-- A null-terminated list. -/
abbrev Chain (next : α → Option α) (p : Option α) (l : List α) : Prop :=
  Path next p l none

variable {next next' : α → Option α} {p q : Option α} {l : List α}

@[simp] theorem Path.nil_iff : Path next p [] q ↔ p = q := by
  constructor
  · rintro ⟨⟩; rfl
  · rintro rfl; exact .nil _

@[simp] theorem Path.cons_iff {a : α} :
    Path next p (a :: l) q ↔ p = some a ∧ Path next (next a) l q := by
  constructor
  · rintro ⟨h⟩; exact ⟨rfl, ‹_›⟩
  · rintro ⟨rfl, h⟩; exact .cons h

/-- The frame rule: a path only reads the pointers of the cells it visits. -/
theorem Path.congr (h : Path next p l q) (hn : ∀ a ∈ l, next' a = next a) :
    Path next' p l q := by
  induction h with
  | nil p => exact .nil p
  | @cons a l q _ ih =>
    refine .cons ?_
    rw [hn a List.mem_cons_self]
    exact ih fun b hb => hn b (List.mem_cons_of_mem _ hb)

theorem Path.append_iff {l₁ l₂ : List α} :
    Path next p (l₁ ++ l₂) q ↔ ∃ m, Path next p l₁ m ∧ Path next m l₂ q := by
  induction l₁ generalizing p with
  | nil => simp
  | cons a l₁ ih =>
    simp only [List.cons_append, Path.cons_iff, ih]
    constructor
    · rintro ⟨rfl, m, h₁, h₂⟩; exact ⟨m, ⟨rfl, h₁⟩, h₂⟩
    · rintro ⟨m, ⟨rfl, h₁⟩, h₂⟩; exact ⟨rfl, m, h₁, h₂⟩

/-- A path ends behind its last cell. -/
theorem Path.concat_iff {a : α} :
    Path next p (l ++ [a]) q ↔ Path next p l (some a) ∧ q = next a := by
  rw [Path.append_iff]
  constructor
  · rintro ⟨m, h₁, h₂⟩
    obtain ⟨rfl, h₃⟩ := Path.cons_iff.mp h₂
    exact ⟨h₁, (Path.nil_iff.mp h₃).symm⟩
  · rintro ⟨h, rfl⟩
    exact ⟨some a, h, .cons (.nil _)⟩

/-- A null pointer starts only the empty chain. -/
theorem Chain.nil_of_none (h : Chain next none l) : l = [] := by
  cases h; rfl

/-- A chain starts at its first cell. -/
theorem Chain.head_eq (h : Chain next p l) : p = l.head? := by
  cases h <;> rfl

/-- A chain determines its list of cells. -/
theorem Chain.unique {l' : List α} (h : Chain next p l) (h' : Chain next p l') :
    l = l' := by
  induction l generalizing p l' with
  | nil =>
    obtain rfl := Path.nil_iff.mp h
    exact h'.nil_of_none.symm
  | cons a l ih =>
    obtain ⟨rfl, ht⟩ := Path.cons_iff.mp h
    cases h' with
    | cons ht' => rw [ih ht ht']

/-- A chain is finite, so it visits no cell twice. -/
theorem Chain.nodup (h : Chain next p l) : l.Nodup := by
  induction l generalizing p with
  | nil => exact List.nodup_nil
  | cons a l ih =>
    obtain ⟨rfl, ht⟩ := Path.cons_iff.mp h
    refine List.nodup_cons.mpr ⟨?_, ih ht⟩
    intro ha
    -- a second visit to `a` would make the chain from `a` a proper suffix of itself
    obtain ⟨l₁, l₂, rfl⟩ := List.append_of_mem ha
    obtain ⟨m, -, h₂⟩ := Path.append_iff.mp ht
    obtain ⟨rfl, h₃⟩ := Path.cons_iff.mp h₂
    have hlen := congrArg List.length (Chain.unique ht h₃)
    simp at hlen
    omega

/-- Unlinking the cell `x` that follows the cell `b`: `b` takes over the
pointer of `x`, every other cell of the path keeps its own. -/
theorem Path.unlink {l₁ l₂ : List α} {b x : α}
    (h : Path next p (l₁ ++ b :: x :: l₂) q) (hb : next' b = next x)
    (hne : ∀ a ∈ l₁ ++ l₂, next' a = next a) :
    Path next' p (l₁ ++ b :: l₂) q := by
  obtain ⟨m, h₁, h₂⟩ := Path.append_iff.mp h
  simp only [Path.cons_iff] at h₂
  obtain ⟨rfl, -, h₂⟩ := h₂
  refine Path.append_iff.mpr ⟨some b, ?_, .cons ?_⟩
  · exact h₁.congr fun a ha => hne a (List.mem_append_left _ ha)
  · rw [hb]
    exact h₂.congr fun a ha => hne a (List.mem_append_right _ ha)

/-- The first `n` cells met when following `next` from a pointer. -/
def walk (next : α → Option α) : Nat → Option α → List α
  | 0, _ => []
  | _ + 1, none => []
  | n + 1, some a => a :: walk next n (next a)

/-- A walk with enough steps lists the chain. -/
theorem Chain.walk_eq (h : Chain next p l) {n : Nat} (hn : l.length ≤ n) :
    walk next n p = l := by
  induction l generalizing p n with
  | nil =>
    obtain rfl := Path.nil_iff.mp h
    cases n <;> rfl
  | cons a l ih =>
    obtain ⟨rfl, ht⟩ := Path.cons_iff.mp h
    cases n with
    | zero => simp at hn
    | succ n => simp only [walk, ih ht (by simpa using hn)]

end Lib
