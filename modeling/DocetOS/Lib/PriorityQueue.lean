import DocetOS.Lib.Simulation

/-!
# Bounded priority queues

The abstract queue holds a multiset of at most `capacity` items. `value` is what
it is ordered by, `content` the part of an item that a removal hands out. Among
several items of minimal value a removal may take any, so a call with its
answer (`Step`) is a relation.
-/

namespace Lib.PriorityQueue

universe u v w

/-- A call and its answer. -/
inductive Event (α : Type u) (γ : Type w)
  | add (item : α) (accepted : Bool)
  | removeMin (returned : Option γ)

/-- What the queue holds before a call, the call with its answer, and what it
holds afterwards. -/
inductive Step {α : Type u} {β : Type v} {γ : Type w} [LE β] (value : α → β) (content : α → γ)
    (capacity : Nat) : Multiset α → Event α γ → Multiset α → Prop
  | refuse {held : Multiset α} {item : α} (full : held.card = capacity) :
      Step value content capacity held (.add item false) held
  | add {held : Multiset α} {item : α} (room : held.card < capacity) :
      Step value content capacity held (.add item true) (item ::ₘ held)
  | empty : Step value content capacity 0 (.removeMin none) 0
  | removeMin {rest : Multiset α} {item : α} (least : ∀ y ∈ rest, value item ≤ value y) :
      Step value content capacity (item ::ₘ rest) (.removeMin (some (content item))) rest

end Lib.PriorityQueue
