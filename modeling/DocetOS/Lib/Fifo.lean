import DocetOS.Lib.Simulation

/-!
# Bounded FIFO queues

The abstract queue is the list of the items written and not yet read, the oldest
first, and holds at most `capacity` of them. It has no choices: `Step` relates
what is held before a call, the call with its answer, and what is held
afterwards.
-/

namespace Lib.Fifo

universe u

/-- A call and its answer. -/
inductive Event (α : Type u)
  | write (item : α) (accepted : Bool)
  | read (returned : Option α)

inductive Step {α : Type u} (capacity : Nat) : List α → Event α → List α → Prop
  | refuse {held : List α} {item : α} (full : held.length = capacity) :
      Step capacity held (.write item false) held
  | write {held : List α} {item : α} (room : held.length < capacity) :
      Step capacity held (.write item true) (held ++ [item])
  | empty : Step capacity [] (.read none) []
  | read {oldest : α} {rest : List α} :
      Step capacity (oldest :: rest) (.read (some oldest)) rest

end Lib.Fifo
