import Mathlib

/-!
# Runs of a specification and of an implementation

A specification is a relation `step` between what is held before an event, the
event, and what is held afterwards; its runs are `Run step`. An implementation
is a function `next` on its states, with `answer` for what the caller sees of a
call. `Run.of_simulation` is the rule that every run of the implementation is a
run of the specification.
-/

namespace Lib

universe u v

/-- The runs of `step`: what is held first, the events, what is held last. -/
inductive Run {α : Type u} {ε : Type v} (step : α → ε → α → Prop) : α → List ε → α → Prop
  | nil (a : α) : Run step a [] a
  | cons {a b c : α} {e : ε} {es : List ε} (head : step a e b) (tail : Run step b es c) :
      Run step a (e :: es) c

/-- The events of a run of an implementation. -/
def transcript {σ ι : Type*} {ε : Type v} (next : σ → ι → σ) (answer : σ → ι → ε) :
    σ → List ι → List ε
  | _, [] => []
  | s, i :: is => answer s i :: transcript next answer (next s i) is

/-- **Simulation**: where every call keeps `P` and is a step of the specification
on what the implementation holds, every run is a run of the specification. -/
theorem Run.of_simulation {α : Type u} {ε : Type v} {σ ι : Type*} {step : α → ε → α → Prop}
    {next : σ → ι → σ} {answer : σ → ι → ε} {P : σ → Prop} (held : σ → α)
    (hP : ∀ s i, P s → P (next s i))
    (hstep : ∀ s i, P s → step (held s) (answer s i) (held (next s i)))
    {s : σ} (hs : P s) (is : List ι) :
    Run step (held s) (transcript next answer s is) (held (is.foldl next s)) := by
  induction is generalizing s with
  | nil => exact .nil _
  | cons i is ih => exact .cons (hstep s i hs) (ih (hP s i hs))

end Lib
