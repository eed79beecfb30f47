import Leasehold.Lock.Claimant

/-!
# Guards

A guard stands for a lock that was acquired and has to be given up. It can be
released, which tells whether that worked, or dropped, which releases it too and
only takes note of a failure. Whichever comes first counts.
-/

namespace Leasehold

/-- A lock to be given up, unless that has been done. -/
structure Guard where
  pending : Bool
  deriving DecidableEq, Repr

namespace Guard

/-- Acquires the lock for a guard. -/
def acquire (c : Claimant) : LockProgram (Except Failure Guard × Claimant) := do
  let (outcome, c) ← c.acquire
  return (outcome.map fun _ => ⟨true⟩, c)

/-- Gives the lock up and tells how that went. -/
def release (_ : Guard) (c : Claimant) : LockProgram (Except Failure Bool × Guard × Claimant) := do
  let (outcome, c) ← c.release
  return (outcome, ⟨false⟩, c)

/-- Gives the lock up if that is still to be done. -/
def drop (guard : Guard) (c : Claimant) : LockProgram (Guard × Claimant) := do
  if guard.pending then
    let (outcome, c) ← c.release
    match outcome with
    | .ok _ => return (⟨false⟩, c)
    | .error failure =>
      LockRecord.note (.releaseFailed c.key failure)
      return (⟨false⟩, c)
  else return (guard, c)

end Guard

end Leasehold
