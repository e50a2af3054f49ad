import DocetOS.DataStructures.SemaphoreRuns

/-!
# The tokens of a semaphore are conserved

Every call of `OS_semaphore_acquire_token` takes exactly one token with its
successful STREX and every call of `OS_semaphore_release_token` adds exactly one,
however the steps of the tasks interleave. `Transfers` counts these STREXs; with
them the number of tokens is an exact account (`semaphore_tokens_conserved`).
-/

namespace DocetOS

open Lib

/-- The calls whose STREX has stored. -/
structure Transfers where
  acquires : Nat
  releases : Nat
deriving DecidableEq, Repr

/-- Count a STREX that stores. -/
def recordStore (s : SemaphoreSystem) (e : SemaphoreEvent) (transfers : Transfers) : Transfers :=
  match s.stores e with
  | none => transfers
  | some .acquireToken => { transfers with acquires := transfers.acquires + 1 }
  | some .releaseToken => { transfers with releases := transfers.releases + 1 }

/-- The runs on one semaphore after `OS_semaphore_init`. -/
def tokenMachine (address initialTokens maxTokens : Nat) :
    Machine (SemaphoreSystem × Transfers) SemaphoreEvent :=
  { (semaphoreMachine address).withHistory recordStore with
    init := fun p => p.1.Fresh ∧ p.1.semaphore = semaphoreInit initialTokens maxTokens ∧
      p.2 = ⟨0, 0⟩ }

namespace SemaphoreSystem

variable {address initialTokens maxTokens : Nat} {p p' : SemaphoreSystem × Transfers}
  {e : SemaphoreEvent}

/-- The invariant: the tokens are those at the start and those released, less those
acquired. -/
structure Conserved (initialTokens maxTokens : Nat) (p : SemaphoreSystem × Transfers) : Prop where
  exclusive : p.1.Exclusive
  maxTokens_eq : p.1.semaphore.maxTokens = maxTokens
  tokens : p.1.semaphore.availableTokens + p.2.acquires = initialTokens + p.2.releases
  tokens_le : p.1.semaphore.availableTokens ≤ maxTokens

theorem Conserved.fresh (hinitial : initialTokens ≤ maxTokens)
    (h : (tokenMachine address initialTokens maxTokens).init p) :
    Conserved initialTokens maxTokens p := by
  obtain ⟨hfresh, hsemaphore, htransfers⟩ := h
  constructor
  · intro hmonitor
    rw [hfresh.monitor] at hmonitor
    cases hmonitor
  · rw [hsemaphore]
    rfl
  · rw [hsemaphore, htransfers]
    rfl
  · rw [hsemaphore]
    exact hinitial

/-- The step lemma: a token is taken from a semaphore that has one, and added to one
that has room, so neither counter wraps. -/
theorem Conserved.step (hmax : maxTokens ≤ UINT32_MAX) (h : Conserved initialTokens maxTokens p)
    (hs : (tokenMachine address initialTokens maxTokens).step p e = some p') :
    Conserved initialTokens maxTokens p' := by
  have hhistory : ((semaphoreMachine address).withHistory recordStore).step p e = some p' := hs
  obtain ⟨hstep, hrecord⟩ := Machine.withHistory_step_iff.mp hhistory
  have htokens := h.tokens
  have hle := h.tokens_le
  have hmaxTokens := h.maxTokens_eq
  unfold recordStore at hrecord
  rcases stores_cases h.exclusive hstep with ⟨hnone, hsame⟩ | ⟨function, hstores, hpass⟩
  · -- no STREX succeeds: neither the semaphore nor the history changes
    rw [hnone] at hrecord
    refine ⟨exclusive_step hstep, ?_, ?_, ?_⟩
    · rw [hsame]
      exact hmaxTokens
    · rw [hsame, hrecord]
      exact htokens
    · rw [hsame]
      exact hle
  · rw [hstores] at hrecord
    cases function with
    | acquireToken =>
      -- the load saw a token, and the store is exclusive
      obtain ⟨hpos, hsemaphore⟩ := Semaphore.acquireToken_iff.mp hpass
      refine ⟨exclusive_step hstep, ?_, ?_, ?_⟩
      · rw [hsemaphore]
        exact hmaxTokens
      · rw [hsemaphore, hrecord]
        show p.1.semaphore.availableTokens - 1 + (p.2.acquires + 1) = _ + p.2.releases
        omega
      · rw [hsemaphore]
        show p.1.semaphore.availableTokens - 1 ≤ _
        omega
    | releaseToken =>
      -- the load saw room, so the sum does not wrap around
      obtain ⟨hroom, hsemaphore⟩ := Semaphore.releaseToken_iff.mp hpass
      have hwrap : wrap (p.1.semaphore.availableTokens + 1) =
          p.1.semaphore.availableTokens + 1 := by
        refine Nat.mod_eq_of_lt ?_
        unfold UINT32_MAX at hmax
        omega
      rw [hwrap] at hsemaphore
      refine ⟨exclusive_step hstep, ?_, ?_, ?_⟩
      · rw [hsemaphore]
        exact hmaxTokens
      · rw [hsemaphore, hrecord]
        show p.1.semaphore.availableTokens + 1 + p.2.acquires = _ + (p.2.releases + 1)
        omega
      · rw [hsemaphore]
        show p.1.semaphore.availableTokens + 1 ≤ _
        omega

/-- **Token conservation**: in every reachable state the available tokens are the
initial ones and the successful releases less the successful acquires, and between 0
and `maxTokens`. -/
theorem semaphore_tokens_conserved (hinitial : initialTokens ≤ maxTokens)
    (hmax : maxTokens ≤ UINT32_MAX)
    (h : (tokenMachine address initialTokens maxTokens).Reach p) :
    (p.1.semaphore.availableTokens : Int) =
        (initialTokens : Int) + p.2.releases - p.2.acquires ∧
      0 ≤ (initialTokens : Int) + p.2.releases - p.2.acquires ∧
      p.1.semaphore.availableTokens ≤ p.1.semaphore.maxTokens ∧
      p.1.semaphore.maxTokens = maxTokens := by
  have hinv : Conserved initialTokens maxTokens p :=
    h.invariant (fun _ => Conserved.fresh hinitial) fun _ _ _ => Conserved.step hmax
  have htokens := hinv.tokens
  refine ⟨by omega, by omega, ?_, hinv.maxTokens_eq⟩
  rw [hinv.maxTokens_eq]
  exact hinv.tokens_le

/-- Task 7 has taken the first token and put it back, with a task switch between its
second LDREX and STREX; task 8 has taken the other one meanwhile. -/
def takenMeanwhile : List SemaphoreEvent :=
  .call .acquireToken :: List.replicate 4 (.step false 1) ++
    .call .releaseToken :: List.replicate 2 (.step false 1) ++
    .switchTo 8 :: .call .acquireToken :: List.replicate 4 (.step false 1) ++
    .switchTo 7 :: List.replicate 5 (.step false 1)

/-- One of two tokens is left. -/
theorem semaphore_tokens_conserved_takenMeanwhile :
    ∃ p, (tokenMachine 200 2 2).run
        ({ sampleSystem with semaphore := semaphoreInit 2 2 }, ⟨0, 0⟩) takenMeanwhile = some p ∧
      p.2 = ⟨2, 1⟩ ∧ (p.1.semaphore.availableTokens : Int) = (2 : Nat) + (1 : Nat) - (2 : Nat) := by
  obtain ⟨p, hrun, htransfers⟩ := Machine.exists_run (M := tokenMachine 200 2 2)
    (P := fun p => p.2 = ⟨2, 1⟩) (e := takenMeanwhile)
    (s := ({ sampleSystem with semaphore := semaphoreInit 2 2 }, ⟨0, 0⟩)) (by decide +kernel)
  have hfresh : ({ sampleSystem with semaphore := semaphoreInit 2 2 } : SemaphoreSystem).Fresh :=
    { sampleSystem_fresh with }
  have hreach : (tokenMachine 200 2 2).Reach p :=
    Machine.Reach.run (.init ⟨hfresh, rfl, rfl⟩) hrun
  have htokens := (semaphore_tokens_conserved (by decide) (by decide) hreach).1
  rw [htransfers] at htokens
  exact ⟨p, hrun, htransfers, htokens⟩

end SemaphoreSystem

end DocetOS
