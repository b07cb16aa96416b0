import Mathlib.Tactic.Common

/-!
# Identifiers and status codes

Coroutines and workers are named by numbers; the status codes are the enumeration every fallible
call of the library returns.
-/

namespace Suspenders

/-- A coroutine (`suspenders_cr_t *`), named by its `id`. -/
abbrev CrId := ℕ

/-- A scheduler worker (`suspenders_worker_t *`), named by its `index`. -/
abbrev WorkerId := ℕ

/-- A thread: the one of a worker, or one the runtime did not start. -/
inductive Thread
  | on (w : WorkerId)
  | ext (f : ℕ)
  deriving DecidableEq

/-- `s_worker` of a thread. -/
def Thread.worker : Thread → Option WorkerId
  | on w => some w
  | ext _ => none

/-- The status codes of the library. -/
inductive Code
  /-- `SUSPENDERS_OK` -/
  | ok
  /-- `SUSPENDERS_ERROR` -/
  | error
  /-- `SUSPENDERS_INVAL` -/
  | inval
  /-- `SUSPENDERS_NOMEM` -/
  | nomem
  /-- `SUSPENDERS_TIMEDOUT` -/
  | timedout
  /-- `SUSPENDERS_CANCELED` -/
  | canceled
  /-- `SUSPENDERS_CLOSED` -/
  | closed
  /-- `SUSPENDERS_EMPTY` -/
  | empty
  /-- `SUSPENDERS_FULL` -/
  | full
  /-- `SUSPENDERS_BUSY` -/
  | busy
  /-- `SUSPENDERS_NOTINIT` -/
  | notinit
  /-- `SUSPENDERS_NOTFOUND` -/
  | notfound
  /-- `SUSPENDERS_PERM` -/
  | perm
  deriving DecidableEq, Repr

/-- `suspenders_state_t`. -/
inductive CrState
  /-- Queued for execution. -/
  | ready
  /-- Executing on its worker. -/
  | running
  /-- Parked. -/
  | suspended
  /-- Finished. -/
  | done
  deriving DecidableEq, Repr

end Suspenders
