import Mathlib

/-!
# Machines: partial steps labelled by events

A `Machine` has initial states and one partial step per event. The event
resolves every choice the environment has (which task runs, whether a store
fails), so a step is a function and a concrete run can be evaluated.

- `Machine.Reach` is the set of states of all runs; `Reach.invariant` is the
  one induction over runs that every safety theorem uses.
- `Machine.guard` keeps only the events a predicate allows: results about the
  restricted machine are results about the runs whose steps all meet the
  predicate.
- `Machine.withHistory` adds a variable that records something about the past
  and that no step depends on.
- `Machine.run` evaluates a list of events, for witnesses and counterexamples.
- `Machine.Throughout` says that something holds before every event of a run;
  `throughout_congr` compares two such properties state by state.
-/

namespace Lib

universe u v

/-- Initial states and a partial step per event. -/
structure Machine (σ : Type u) (ε : Type v) where
  init : σ → Prop
  step : σ → ε → Option σ

namespace Machine

variable {σ : Type u} {ε : Type v} {M : Machine σ ε}

/-- The states of all runs of `M`. -/
inductive Reach (M : Machine σ ε) : σ → Prop
  | init {s : σ} (h : M.init s) : Reach M s
  | step {s s' : σ} {e : ε} (h : Reach M s) (hs : M.step s e = some s') : Reach M s'

/-- **Invariant rule**: what holds initially and is kept by every step holds in
every reachable state. -/
theorem Reach.invariant {P : σ → Prop} (hi : ∀ s, M.init s → P s)
    (hs : ∀ s e s', P s → M.step s e = some s' → P s') {s : σ}
    (h : M.Reach s) : P s := by
  induction h with
  | init h => exact hi _ h
  | step _ hstep ih => exact hs _ _ _ ih hstep

/-- The machine whose steps are those of `M` that `ok` allows. -/
def guard (M : Machine σ ε) (ok : σ → ε → Prop) [∀ s e, Decidable (ok s e)] :
    Machine σ ε where
  init := M.init
  step s e := if ok s e then M.step s e else none

variable {ok : σ → ε → Prop} [∀ s e, Decidable (ok s e)]

theorem guard_step_iff {s s' : σ} {e : ε} :
    (M.guard ok).step s e = some s' ↔ ok s e ∧ M.step s e = some s' := by
  simp [guard]

/-- `M` with a variable that `record` changes with every event. -/
def withHistory {η : Type*} (M : Machine σ ε) (record : σ → ε → η → η) : Machine (σ × η) ε where
  init s := M.init s.1
  step s e := (M.step s.1 e).map fun s' => (s', record s.1 e s.2)

theorem withHistory_step_iff {η : Type*} {record : σ → ε → η → η} {s s' : σ × η} {e : ε} :
    (M.withHistory record).step s e = some s' ↔
      M.step s.1 e = some s'.1 ∧ s'.2 = record s.1 e s.2 := by
  simp only [withHistory, Option.map_eq_some_iff]
  constructor
  · rintro ⟨x, hx, rfl⟩
    exact ⟨hx, rfl⟩
  · rintro ⟨hx, hs⟩
    exact ⟨s'.1, hx, Prod.ext rfl hs.symm⟩

/-- The state after a list of events, when every one of them is possible. -/
def run (M : Machine σ ε) (s : σ) : List ε → Option σ
  | [] => some s
  | e :: es => (M.step s e).bind fun s' => run M s' es

theorem run_append (s : σ) (es₁ es₂ : List ε) :
    M.run s (es₁ ++ es₂) = (M.run s es₁).bind fun s' => M.run s' es₂ := by
  induction es₁ generalizing s with
  | nil => rfl
  | cons e es₁ ih =>
    simp only [List.cons_append, Machine.run, Option.bind_assoc]
    exact congrArg _ (funext fun s' => ih s')

/-- A run that evaluates to a state in which `P` holds. -/
theorem exists_run {P : σ → Prop} [DecidablePred P] {s : σ} {e : List ε}
    (h : (M.run s e).any (fun s' => decide (P s')) = true) :
    ∃ s', M.run s e = some s' ∧ P s' := by
  cases hr : M.run s e with
  | none =>
    rw [hr] at h
    cases h
  | some s' =>
    rw [hr] at h
    exact ⟨s', rfl, of_decide_eq_true h⟩

theorem Reach.run {s s' : σ} {es : List ε} (h : M.Reach s)
    (hr : M.run s es = some s') : M.Reach s' := by
  induction es generalizing s with
  | nil =>
    simp only [Machine.run, Option.some.injEq] at hr
    exact hr ▸ h
  | cons e es ih =>
    simp only [Machine.run, Option.bind_eq_some_iff] at hr
    obtain ⟨s₁, hs, hr⟩ := hr
    exact ih (h.step hs) hr

/-- `P` holds before every event of the run. -/
def Throughout (M : Machine σ ε) (P : σ → ε → Prop) : σ → List ε → Prop
  | _, [] => True
  | s, e :: es => ∀ s', M.step s e = some s' → P s e ∧ Throughout M P s' es

/-- Two properties that agree in every state an invariant allows agree on every
run. -/
theorem throughout_congr {P Q : σ → ε → Prop} {I : σ → Prop}
    (hstep : ∀ s e s', I s → M.step s e = some s' → I s')
    (hiff : ∀ s e s', I s → M.step s e = some s' → (P s e ↔ Q s e)) {s : σ} (h : I s)
    (es : List ε) : M.Throughout P s es ↔ M.Throughout Q s es := by
  induction es generalizing s with
  | nil => exact Iff.rfl
  | cons e es ih =>
    refine forall_congr' fun s' => imp_congr_right ?_
    intro hs
    exact and_congr (hiff s e s' h hs) (ih (hstep s e s' h hs))

end Machine

end Lib
