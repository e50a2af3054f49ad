import DocetOS.Lib.Machine

/-!
# One machine refines another

`M` and `N` take the same events, and `R` relates their states. Where every step of
`M` is matched by one of `N`, every run of `M` is matched by a run of `N`
(`Machine.run_refines`). `N` may ask for something before each event
(`Machine.Respects`): it is a condition on the runs of `N`, which the states of `M`
need not show. A condition may also look at a history (`Respects.of_history`).
-/

namespace Lib

namespace Machine

universe u v w

variable {σ : Type u} {τ : Type w} {ε : Type v} {M : Machine σ ε} {N : Machine τ ε}

/-- `ok` holds before every event of the run, up to the first that is not possible. -/
def Respects (M : Machine σ ε) (ok : σ → ε → Prop) : σ → List ε → Prop
  | _, [] => True
  | s, e :: es => ok s e ∧ ∀ s', M.step s e = some s' → Respects M ok s' es

theorem respects_true (s : σ) (es : List ε) : M.Respects (fun _ _ => True) s es := by
  induction es generalizing s with
  | nil => trivial
  | cons e es ih => exact ⟨trivial, fun s' _ => ih s'⟩

theorem Respects.left {ok : σ → ε → Prop} {s : σ} {es es' : List ε}
    (hok : M.Respects ok s (es ++ es')) : M.Respects ok s es := by
  induction es generalizing s with
  | nil => trivial
  | cons e es ih => exact ⟨hok.1, fun s' hs => ih (hok.2 s' hs)⟩

theorem Respects.right {ok : σ → ε → Prop} {s s' : σ} {es es' : List ε}
    (hok : M.Respects ok s (es ++ es')) (hrun : M.run s es = some s') : M.Respects ok s' es' := by
  induction es generalizing s with
  | nil =>
    simp only [Machine.run, Option.some.injEq] at hrun
    exact hrun ▸ hok
  | cons e es ih =>
    simp only [Machine.run, Option.bind_eq_some_iff] at hrun
    obtain ⟨s₁, hs₁, hrun⟩ := hrun
    exact ih (hok.2 s₁ hs₁) hrun

/-- **Refinement rule**: where `N` matches every step of `M` whose event is allowed in
both, it matches every run whose events are allowed. -/
theorem run_refines {R : σ → τ → Prop} {ok : σ → ε → Prop} {ok' : τ → ε → Prop}
    (hstep : ∀ s t e s', R s t → ok s e → ok' t e → M.step s e = some s' →
      ∃ t', N.step t e = some t' ∧ R s' t')
    {s s' : σ} {t : τ} {es : List ε} (h : R s t) (hok : M.Respects ok s es)
    (hok' : N.Respects ok' t es) (hrun : M.run s es = some s') :
    ∃ t', N.run t es = some t' ∧ R s' t' := by
  induction es generalizing s t with
  | nil =>
    simp only [Machine.run, Option.some.injEq] at hrun
    exact ⟨t, rfl, hrun ▸ h⟩
  | cons e es ih =>
    simp only [Machine.run, Option.bind_eq_some_iff] at hrun
    obtain ⟨s₁, hs₁, hrun⟩ := hrun
    obtain ⟨hallowed, hrest⟩ := hok
    obtain ⟨hallowed', hrest'⟩ := hok'
    obtain ⟨t₁, ht₁, hR₁⟩ := hstep s t e s₁ h hallowed hallowed' hs₁
    obtain ⟨t', ht', hR⟩ := ih hR₁ (hrest s₁ hs₁) (hrest' t₁ ht₁) hrun
    refine ⟨t', ?_, hR⟩
    simp only [Machine.run, ht₁, Option.bind_some, ht']

/-- What every allowed step keeps, a run whose events are allowed keeps. -/
theorem run_keeps {I : σ → Prop} {ok : σ → ε → Prop}
    (hstep : ∀ s e s', I s → ok s e → M.step s e = some s' → I s')
    {s s' : σ} {es : List ε} (h : I s) (hok : M.Respects ok s es)
    (hrun : M.run s es = some s') : I s' := by
  induction es generalizing s with
  | nil =>
    simp only [Machine.run, Option.some.injEq] at hrun
    exact hrun ▸ h
  | cons e es ih =>
    simp only [Machine.run, Option.bind_eq_some_iff] at hrun
    obtain ⟨s₁, hs₁, hrun⟩ := hrun
    obtain ⟨hallowed, hrest⟩ := hok
    exact ih (hstep s e s₁ h hallowed hs₁) (hrest s₁ hs₁) hrun

/-! ## Conditions that look at a history -/

section History

variable {η : Type*} {record : σ → ε → η → η} {I : σ × η → Prop} {ok : σ × η → ε → Prop}

/-- A history does not keep a run from going on. -/
theorem run_withHistory {s s' : σ} {es : List ε} (hrun : M.run s es = some s') (h : η) :
    ∃ h', (M.withHistory record).run (s, h) es = some (s', h') := by
  induction es generalizing s h with
  | nil =>
    simp only [Machine.run, Option.some.injEq] at hrun
    exact ⟨h, hrun ▸ rfl⟩
  | cons e es ih =>
    simp only [Machine.run, Option.bind_eq_some_iff] at hrun
    obtain ⟨s₁, hs₁, hrun⟩ := hrun
    obtain ⟨h', hrest⟩ := ih hrun (record s e h)
    refine ⟨h', ?_⟩
    simp only [Machine.run, Option.bind_eq_some_iff]
    exact ⟨_, withHistory_step_iff.mpr ⟨hs₁, rfl⟩, hrest⟩

/-- What is allowed by the history, together with what such runs keep, may be enough for
a condition on the states alone. -/
theorem Respects.of_history {ok' : σ → ε → Prop} (hok' : ∀ x e, I x → ok x e → ok' x.1 e)
    (hstep : ∀ x e x', I x → ok x e → (M.withHistory record).step x e = some x' → I x')
    {x : σ × η} {es : List ε} (h : I x) (hok : (M.withHistory record).Respects ok x es) :
    M.Respects ok' x.1 es := by
  induction es generalizing x with
  | nil => trivial
  | cons e es ih =>
    refine ⟨hok' x e h hok.1, ?_⟩
    intro s' hs
    have hs' : (M.withHistory record).step x e = some (s', record x.1 e x.2) :=
      withHistory_step_iff.mpr ⟨hs, rfl⟩
    exact ih (hstep x e _ h hok.1 hs') (hok.2 _ hs')

end History

/-- Evaluates a condition on a run. -/
def checks (M : Machine σ ε) (ok : σ → ε → Prop) [∀ s e, Decidable (ok s e)] :
    σ → List ε → Bool
  | _, [] => true
  | s, e :: es => decide (ok s e) && (M.step s e).all fun s' => checks M ok s' es

theorem Respects.of_checks {ok : σ → ε → Prop} [∀ s e, Decidable (ok s e)] {s : σ} {es : List ε}
    (h : M.checks ok s es = true) : M.Respects ok s es := by
  induction es generalizing s with
  | nil => trivial
  | cons e es ih =>
    simp only [checks, Bool.and_eq_true, decide_eq_true_eq] at h
    refine ⟨h.1, ?_⟩
    intro s' hs
    have hrest := h.2
    rw [hs] at hrest
    exact ih hrest

end Machine

end Lib
