import Mathlib

/-!
# Best fit

Units come in `n` classes, and a request for class `c` can be served by a unit of class `c`
or above. Whether a list of requests can be served in turn, whichever units are given away
(`Servable`), is a matter of counting (`servable_iff_fits`): for no class are there more
requests for it or above than units of it or above.

To give away a unit of the smallest class that has one, keeps the numbers right
(`Fits.of_best`): best fit serves whatever can be served at all.
-/

namespace Lib.BestFit

variable {n c j : ℕ} {free : ℕ → ℕ} {requests : List ℕ}

/-- The units of class `i` and above. -/
def above (n : ℕ) (free : ℕ → ℕ) (i : ℕ) : ℕ := ∑ j ∈ Finset.Ico i n, free j

/-- The requests for class `i` and above. -/
def wanted (requests : List ℕ) (i : ℕ) : ℕ := requests.countP (i ≤ ·)

/-- For no class is more wanted than there is. -/
def Fits (n : ℕ) (free : ℕ → ℕ) (requests : List ℕ) : Prop :=
  ∀ i, wanted requests i ≤ above n free i

/-- One unit of class `j` less. -/
def take (free : ℕ → ℕ) (j : ℕ) : ℕ → ℕ := Function.update free j (free j - 1)

/-- A unit of class `j` can serve a request for class `c`. -/
structure Serves (n : ℕ) (free : ℕ → ℕ) (c j : ℕ) : Prop where
  le : c ≤ j
  lt : j < n
  pos : 0 < free j

/-- There is a way to serve the requests, one after the other. -/
inductive Servable (n : ℕ) : (ℕ → ℕ) → List ℕ → Prop
  | nil {free : ℕ → ℕ} : Servable n free []
  | cons {free : ℕ → ℕ} {c j : ℕ} {requests : List ℕ} (serves : Serves n free c j)
      (rest : Servable n (take free j) requests) : Servable n free (c :: requests)

theorem wanted_cons (c : ℕ) (requests : List ℕ) (i : ℕ) :
    wanted (c :: requests) i = wanted requests i + if i ≤ c then 1 else 0 := by
  unfold wanted
  rw [List.countP_cons]
  simp only [decide_eq_true_eq]

theorem fits_congr {free' : ℕ → ℕ} (h : ∀ j < n, free j = free' j) :
    Fits n free requests ↔ Fits n free' requests := by
  refine forall_congr' ?_
  intro i
  have hsame : above n free i = above n free' i :=
    Finset.sum_congr rfl fun j hj => h j (Finset.mem_Ico.mp hj).2
  rw [hsame]

theorem above_take (h : Serves n free c j) (i : ℕ) :
    above n (take free j) i + (if i ≤ j then 1 else 0) = above n free i := by
  unfold above
  by_cases hi : i ≤ j
  · have hmem : j ∈ Finset.Ico i n := Finset.mem_Ico.mpr ⟨hi, h.lt⟩
    have hsame : ∑ k ∈ (Finset.Ico i n).erase j, take free j k =
        ∑ k ∈ (Finset.Ico i n).erase j, free k :=
      Finset.sum_congr rfl fun k hk => Function.update_of_ne (Finset.ne_of_mem_erase hk) _ _
    have hself : take free j j = free j - 1 := Function.update_self ..
    have hpos := h.pos
    rw [if_pos hi, ← Finset.add_sum_erase _ _ hmem, ← Finset.add_sum_erase _ _ hmem, hsame, hself]
    omega
  · rw [if_neg hi, Nat.add_zero]
    refine Finset.sum_congr rfl fun k hk => Function.update_of_ne ?_ _ _
    rintro rfl
    exact hi (Finset.mem_Ico.mp hk).1

/-- Requests that fit are few enough for every class, however they are served. -/
theorem Servable.fits (h : Servable n free requests) : Fits n free requests := by
  induction h with
  | nil => exact fun i => Nat.zero_le _
  | cons serves rest ih =>
    intro i
    have htake := above_take serves i
    have hrest := ih i
    have hle := serves.le
    rw [wanted_cons]
    split at htake <;> split <;> omega

/-- The smallest class that can serve the request. -/
theorem exists_best (h : ∃ j, Serves n free c j) :
    ∃ j, Serves n free c j ∧ ∀ k, c ≤ k → k < j → free k = 0 := by
  classical
  refine ⟨Nat.find h, Nat.find_spec h, ?_⟩
  intro k hck hk
  by_contra hne
  exact Nat.find_min h hk ⟨hck, hk.trans (Nat.find_spec h).lt, Nat.pos_of_ne_zero hne⟩

theorem Fits.exists_serves (h : Fits n free (c :: requests)) : ∃ j, Serves n free c j := by
  by_contra hnone
  have hzero : above n free c = 0 := by
    refine Finset.sum_eq_zero ?_
    intro j hj
    obtain ⟨hle, hlt⟩ := Finset.mem_Ico.mp hj
    by_contra hne
    exact hnone ⟨j, hle, hlt, Nat.pos_of_ne_zero hne⟩
  have hc := h c
  rw [wanted_cons, if_pos le_rfl, hzero] at hc
  omega

/-- **Best fit** keeps the other requests servable. -/
theorem Fits.of_best (h : Fits n free (c :: requests)) (hserves : Serves n free c j)
    (hbest : ∀ k, c ≤ k → k < j → free k = 0) : Fits n (take free j) requests := by
  intro i
  have htake := above_take hserves i
  have hwanted := h i
  rw [wanted_cons] at hwanted
  by_cases hic : i ≤ c
  · rw [if_pos hic] at hwanted
    split at htake <;> omega
  · rw [if_neg hic, Nat.add_zero] at hwanted
    by_cases hij : i ≤ j
    · -- between the request and the class there are no units
      have hbetween : above n free c = above n free i := by
        unfold above
        rw [← Finset.sum_Ico_consecutive free (le_of_not_ge hic) (hij.trans hserves.lt.le),
          Finset.sum_eq_zero, zero_add]
        intro k hk
        obtain ⟨hck, hki⟩ := Finset.mem_Ico.mp hk
        exact hbest k hck (hki.trans_le hij)
      have hc := h c
      rw [wanted_cons, if_pos le_rfl, hbetween] at hc
      have hmono : wanted requests i ≤ wanted requests c :=
        List.countP_mono_left fun k _ hk => by
          rw [decide_eq_true_eq] at hk ⊢
          omega
      rw [if_pos hij] at htake
      omega
    · rw [if_neg hij] at htake
      omega

/-- The requests can be served iff they fit. -/
theorem servable_iff_fits : Servable n free requests ↔ Fits n free requests := by
  refine ⟨Servable.fits, ?_⟩
  intro h
  induction requests generalizing free with
  | nil => exact .nil
  | cons c requests ih =>
    obtain ⟨j, hserves, hbest⟩ := exists_best h.exists_serves
    exact .cons hserves (ih (h.of_best hserves hbest))

/-- After best fit the other requests fit iff all of them did before. -/
theorem fits_cons_iff (hserves : Serves n free c j) (hbest : ∀ k, c ≤ k → k < j → free k = 0) :
    Fits n free (c :: requests) ↔ Fits n (take free j) requests :=
  ⟨fun h => h.of_best hserves hbest,
    fun h => servable_iff_fits.mp (.cons hserves (servable_iff_fits.mpr h))⟩

end Lib.BestFit
