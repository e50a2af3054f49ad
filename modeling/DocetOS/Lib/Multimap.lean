import DocetOS.Lib.Simulation

/-!
# Bounded multimaps

A multimap gives every key a stack of values, top first. `push` and `pop` touch
the stack of one key only, and `size` is the number of values in all stacks.

`Step` is one call with its answer on a multimap of at most `capacity` values.
What `put` may refuse depends on the `Policy` it is called with; under
`Policy.other` the specification leaves the choice to the implementation.
-/

namespace Lib

universe u v

/-- A stack of values for every key. -/
abbrev Multimap (κ : Type u) (ν : Type v) := κ → List ν

namespace Multimap

variable {κ : Type u} {ν : Type v} [DecidableEq κ]

/-- Put a value on the stack of `k`. -/
def push (m : Multimap κ ν) (k : κ) (v : ν) : Multimap κ ν := Function.update m k (v :: m k)

/-- Take the top off the stack of `k`. -/
def pop (m : Multimap κ ν) (k : κ) : Multimap κ ν := Function.update m k (m k).tail

theorem push_apply (m : Multimap κ ν) (k k' : κ) (v : ν) :
    m.push k v k' = if k' = k then v :: m k else m k' := Function.update_apply ..

theorem pop_apply (m : Multimap κ ν) (k k' : κ) :
    m.pop k k' = if k' = k then (m k).tail else m k' := Function.update_apply ..

theorem pop_of_nil {m : Multimap κ ν} {k : κ} (h : m k = []) : m.pop k = m := by
  unfold pop
  rw [h, List.tail_nil, ← h, Function.update_eq_self]

/-- The number of values stored. -/
noncomputable def size (m : Multimap κ ν) : Nat := ∑ᶠ k, (m k).length

/-- A multimap whose stacks list the pairs of a multiset has its size. -/
theorem size_eq_card {m : Multimap κ ν} {pairs : Multiset (κ × ν)}
    (h : ∀ k, (m k).length = (pairs.map Prod.fst).count k) : m.size = pairs.card := by
  have hsupport : Function.support (fun k => (m k).length) ⊆ (pairs.map Prod.fst).toFinset := by
    intro k hk
    rw [Function.mem_support, h k, Multiset.count_ne_zero] at hk
    exact Multiset.mem_toFinset.mpr hk
  calc m.size
      = ∑ k ∈ (pairs.map Prod.fst).toFinset, (m k).length :=
        finsum_eq_sum_of_support_subset _ hsupport
    _ = ∑ k ∈ (pairs.map Prod.fst).toFinset, (pairs.map Prod.fst).count k :=
        Finset.sum_congr rfl fun k _ => h k
    _ = pairs.card := by rw [Multiset.toFinset_sum_count_eq, Multiset.card_map]

/-- Which values a `put` takes as long as there is room. -/
inductive Policy
  | every
  | newKeys
  | other
deriving DecidableEq

/-- A call and its answer. -/
inductive Event (κ : Type u) (ν : Type v)
  | put (key : κ) (value : ν) (policy : Policy) (accepted : Bool)
  | get (key : κ) (returned : Option ν)
  | getNth (key : κ) (n : Nat) (returned : Option ν)
  | remove (key : κ) (returned : Option ν)

/-- What the multimap holds before a call, the call with its answer, and what it
holds afterwards. -/
inductive Step (capacity : Nat) : Multimap κ ν → Event κ ν → Multimap κ ν → Prop
  | put {m : Multimap κ ν} {k : κ} {v : ν} {policy : Policy} (room : m.size < capacity)
      (new : policy = .newKeys → m k = []) :
      Step capacity m (.put k v policy true) (m.push k v)
  | refuse {m : Multimap κ ν} {k : κ} {v : ν} {policy : Policy}
      (every : policy = .every → m.size = capacity)
      (newKeys : policy = .newKeys → m.size = capacity ∨ m k ≠ []) :
      Step capacity m (.put k v policy false) m
  | get (m : Multimap κ ν) (k : κ) : Step capacity m (.get k (m k).head?) m
  | getNth (m : Multimap κ ν) (k : κ) (n : Nat) : Step capacity m (.getNth k n (m k)[n]?) m
  | remove (m : Multimap κ ν) (k : κ) : Step capacity m (.remove k (m k).head?) (m.pop k)

end Multimap

end Lib
