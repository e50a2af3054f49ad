import DocetOS.Words

/-!
# The mutex (`mutex.c`)

`OS_mutex_t` and the effect of its functions when nothing comes between their
steps. A TCB is named by its address, and `NULL` in `tcbPointer` is a free lock.

`acquire` has no result when the caller would have to wait. What the kernel
does on the calls the functions make (`OS_notify_resource_aquired`, `OS_notify`,
`OS_wait`, `OS_yield`) is not part of the mutex.
-/

namespace DocetOS

/-- `OS_mutex_t`. -/
structure Mutex where
  counter : Nat
  svcDelegatesEnabled : Nat
  tcbPointer : Nat
  nextAcquiredResource : Nat
deriving DecidableEq, Repr

/-- `OS_init_mutex`. -/
def initMutex : Mutex where
  counter := 0
  svcDelegatesEnabled := 1
  tcbPointer := NULL
  nextAcquiredResource := NULL

namespace Mutex

/-- `OS_mutex_acquire` by the task `currentTCB`. -/
def acquire (mutex : Mutex) (currentTCB : Nat) : Option Mutex :=
  if mutex.tcbPointer = NULL ∨ mutex.tcbPointer = currentTCB then
    some { mutex with tcbPointer := currentTCB, counter := wrap (mutex.counter + 1) }
  else none

/-- `OS_mutex_release` and `OS_mutex_release_noYield` by the task `currentTCB`. -/
def release (mutex : Mutex) (currentTCB : Nat) : Mutex :=
  -- a failed `ASSERT(0)` returns with the mutex as it was
  if mutex.tcbPointer ≠ currentTCB then mutex
  else
    let mutex := { mutex with counter := decr mutex.counter }
    if mutex.counter = 0 then { mutex with tcbPointer := NULL } else mutex

/-- No task but `currentTCB` owns the mutex. -/
abbrev Available (mutex : Mutex) (currentTCB : Nat) : Prop :=
  mutex.tcbPointer = NULL ∨ mutex.tcbPointer = currentTCB

variable {mutex mutex' : Mutex} {currentTCB : Nat}

/-- A free mutex counts no acquisitions. -/
def FreeIsZero (mutex : Mutex) : Prop := mutex.tcbPointer = NULL → mutex.counter = 0

theorem acquire_owner (h : mutex.acquire currentTCB = some mutex') :
    mutex'.tcbPointer = currentTCB := by
  unfold acquire at h
  split at h
  · simp only [Option.some.injEq] at h
    rw [← h]
  · cases h

/-- Nothing but an owner keeps a task from a mutex. -/
theorem available_of_acquire (h : mutex.acquire currentTCB = some mutex') :
    mutex.Available currentTCB := by
  unfold acquire at h
  split at h
  · assumption
  · cases h

/-- A mutex that no other task owns can be acquired. -/
theorem acquire_of_available (h : mutex.tcbPointer = NULL ∨ mutex.tcbPointer = currentTCB) :
    ∃ mutex', mutex.acquire currentTCB = some mutex' ∧ mutex'.tcbPointer = currentTCB :=
  ⟨_, if_pos h, rfl⟩

/-- A mutex that no other task owns is free or its owner's after a release. -/
theorem release_available (h : mutex.tcbPointer = NULL ∨ mutex.tcbPointer = currentTCB) :
    (mutex.release currentTCB).tcbPointer = NULL ∨
      (mutex.release currentTCB).tcbPointer = currentTCB := by
  unfold release
  dsimp only
  split
  · exact h
  · split
    · exact .inl rfl
    · exact h

/-- Acquiring a free mutex and releasing it leaves it as it was. -/
theorem release_acquire (h : mutex.acquire currentTCB = some mutex')
    (hz : mutex.FreeIsZero) (hne : mutex.tcbPointer ≠ currentTCB) :
    mutex'.release currentTCB = mutex := by
  unfold acquire at h
  split at h
  · rename_i hfree
    have hnull : mutex.tcbPointer = NULL := hfree.resolve_right hne
    have hcount := hz hnull
    simp only [Option.some.injEq] at h
    subst h
    obtain ⟨counter, svc, tcb, nextRes⟩ := mutex
    simp only at hnull hcount
    subst hnull hcount
    simp [release, wrap, decr]
  · cases h

end Mutex

end DocetOS
