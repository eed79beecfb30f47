import Leasehold.Lock.Guard
import Leasehold.Procedure

/-!
# Protected operations

An operation on the configuration is done under the lock: the lock is acquired,
a person may have to agree while a heartbeat keeps the lock alive, and then the
lock is renewed once more, for it may have been lost by now. Only if it is still
held the operation is done. However that ends, the lock is given up.
-/

namespace Leasehold.Procedure

variable {α : Type}

/-- Gives the lock up and ends with a failure. -/
def withdraw (guard : Guard) (c : Claimant) (failure : Failure) :
    Procedure (Except Failure α × Claimant) := do
  let (_, c) ← ofLock (guard.drop c)
  return (.error failure, c)

/-- Whether a person agrees, if one has to be asked. -/
def agree (c : Claimant) (interval : Duration) :
    Option String → Procedure (Except Failure Unit × Claimant)
  | none => return (.ok (), c)
  | some question => do
    match ← confirm c interval question with
    | (.error failure, c) => return (.error failure, c)
    | (.ok false, c) => return (.error .aborted, c)
    | (.ok true, c) => return (.ok (), c)

/-- Renews the lock and finds out whether it is held. -/
def reconcile (c : Claimant) : Procedure (Except Failure Unit × Claimant) := do
  match ← ofLock c.renew with
  | (.error failure, c) => return (.error failure, c)
  | (.ok _, c) => return (c.ensureHeld, c)

/-- All that comes before a protected operation. -/
def enter (c : Claimant) (interval : Duration) (question : Option String) :
    Procedure (Except Failure Guard × Claimant) := do
  match ← ofLock (Guard.acquire c) with
  | (.error failure, c) => return (.error failure, c)
  | (.ok guard, c) =>
    match ← agree c interval question with
    | (.error failure, c) => withdraw guard c failure
    | (.ok (), c) =>
      match ← reconcile c with
      | (.error failure, c) => withdraw guard c failure
      | (.ok (), c) => return (.ok guard, c)

/-- All that comes after a protected operation. A release that fails does not
change how the operation ended. -/
def leave (guard : Guard) (c : Claimant) :
    Except Failure α → Procedure (Except Failure α × Claimant)
  | .error failure => withdraw guard c failure
  | .ok value => do
    match ← ofLock (guard.release c) with
    | (.ok _, _, c) => return (.ok value, c)
    | (.error failure, _, c) =>
      note (.releaseAfterCommitFailed c.key failure)
      return (.ok value, c)

/-- Does an operation under the lock. -/
def runProtected (c : Claimant) (interval : Duration) (question : Option String)
    (operation : Claimant → Procedure (Except Failure α × Claimant)) :
    Procedure (Except Failure α × Claimant) := do
  match ← enter c interval question with
  | (.error failure, c) => return (.error failure, c)
  | (.ok guard, c) =>
    let (outcome, c) ← operation c
    leave guard c outcome

end Leasehold.Procedure
