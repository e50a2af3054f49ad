import DocetOS.Words

/-!
# The semaphore (`semaphore.c`)

`OS_semaphore_t` and what one pass through the loops of its two functions does
to the tokens when nothing comes between its load and its store. A pass has no
result when the caller has to wait.
-/

namespace DocetOS

/-- `OS_semaphore_t`. -/
structure Semaphore where
  availableTokens : Nat
  maxTokens : Nat
deriving DecidableEq, Repr

/-- `OS_semaphore_init`. -/
def semaphoreInit (initialTokens maxTokens : Nat) : Semaphore where
  availableTokens := initialTokens
  maxTokens := maxTokens

/-- The functions of `semaphore.c`. -/
inductive SemaphoreCall where
  | acquireToken
  | releaseToken
deriving DecidableEq, Repr

namespace SemaphoreCall

/-- The test of the loop: the caller need not wait. -/
def ready (tokens maxTokens : Nat) : SemaphoreCall → Bool
  | .acquireToken => 0 < tokens
  | .releaseToken => tokens < maxTokens

/-- The value the loop stores. -/
def newTokens (tokens : Nat) : SemaphoreCall → Nat
  | .acquireToken => tokens - 1
  | .releaseToken => wrap (tokens + 1)

end SemaphoreCall

namespace Semaphore

/-- One pass through the loop of a function. -/
def pass (semaphore : Semaphore) (function : SemaphoreCall) : Option Semaphore :=
  if function.ready semaphore.availableTokens semaphore.maxTokens then
    some { semaphore with availableTokens := function.newTokens semaphore.availableTokens }
  else none

/-- `OS_semaphore_acquire_token`. -/
def acquireToken (semaphore : Semaphore) : Option Semaphore := semaphore.pass .acquireToken

/-- `OS_semaphore_release_token`. -/
def releaseToken (semaphore : Semaphore) : Option Semaphore := semaphore.pass .releaseToken

variable {semaphore semaphore' : Semaphore}

theorem acquireToken_iff : semaphore.acquireToken = some semaphore' ↔
    0 < semaphore.availableTokens ∧
      semaphore' = { semaphore with availableTokens := semaphore.availableTokens - 1 } := by
  simp [acquireToken, pass, SemaphoreCall.ready, SemaphoreCall.newTokens, eq_comm]

theorem releaseToken_iff : semaphore.releaseToken = some semaphore' ↔
    semaphore.availableTokens < semaphore.maxTokens ∧
      semaphore' = { semaphore with availableTokens := wrap (semaphore.availableTokens + 1) } := by
  simp [releaseToken, pass, SemaphoreCall.ready, SemaphoreCall.newTokens, eq_comm]

end Semaphore

end DocetOS
