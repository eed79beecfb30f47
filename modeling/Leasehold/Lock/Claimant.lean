import Leasehold.Lock.Record
import Leasehold.Text.Quoted

/-!
# Claimants

A claimant is a process that wants the lock or has it. Acquiring creates the
lock record and never waits; a record without expiry is given one and left to
lapse. Renewing extends the own record, recreates it if it lapsed, or finds that
someone else has it, which is final until the lock is acquired anew. Releasing
deletes the record if it is still the own one.

Each operation is a program of single store calls, at most four, and gives the
claimant with its new standing. A call that fails leaves the standing as it was.
-/

namespace Leasehold

/-- A process that may hold a lock, and what it knows of it. -/
structure Claimant where
  key : String
  pid : Pid
  ttl : Duration
  standing : Standing
  deriving DecidableEq, Repr

namespace Claimant

open LockRecord

/-- A claimant of the configuration lock that has not asked for it yet. -/
def ofPid (pid : Pid) (ttl : Duration) : Claimant :=
  ⟨LockRecord.key, pid, ttl, .free⟩

/-- A claimant as it stands in diagnostics. -/
def diagnostic (c : Claimant) : String :=
  "ConfigLockManager \x7b name: " ++ Text.quoted c.key ++ ", pid: " ++ toString c.pid.toNat ++
    ", ttl: " ++ c.ttl.text ++ ", state: " ++ c.standing.diagnostic ++ " \x7d"

/-- Tries once to take the lock. -/
def acquire (c : Claimant) : LockProgram (Except Failure Unit × Claimant) := do
  if c.standing = .heldBySelf then
    note (.alreadyHeld c.key c.pid)
    return (.ok (), c)
  else
    match ← createIfAbsent c.key c.pid c.ttl with
    | .error failure => return (.error failure, c)
    | .ok true =>
      note (.acquired c.key c.pid)
      return (.ok (), { c with standing := .heldBySelf })
    | .ok false =>
      match ← hasExpiry c.key with
      | .error failure => return (.error failure, c)
      | .ok true =>
        match ← readOwner c.key with
        | .error failure => return (.error failure, c)
        | .ok found =>
          let owner := found.join
          note (.unavailable c.key c.pid owner)
          return (.error (.lockUnavailable owner), { c with standing := .heldByOther owner })
      | .ok false =>
        match ← setExpiry c.key c.ttl with
        | .error failure => return (.error failure, c)
        | .ok true =>
          note (.timerReset c.key c.pid c.ttl)
          return (.error .staleLock, { c with standing := .stale })
        | .ok false =>
          note (.changedConcurrently c.key c.pid)
          return (.error (.lockUnavailable none), { c with standing := .heldByOther none })

/-- Records that someone else has the lock. -/
def lose (c : Claimant) (owner : Option Pid) : LockProgram (Except Failure Renewal × Claimant) := do
  note (.lost c.key c.pid owner)
  return (.ok (.lost owner), { c with standing := .heldByOther owner })

/-- Creates the record again, unless there is one by now. -/
def recreate (c : Claimant) : LockProgram (Except Failure Renewal × Claimant) := do
  match ← createIfAbsent c.key c.pid c.ttl with
  | .error failure => return (.error failure, c)
  | .ok true =>
    note (.reacquired c.key c.pid)
    return (.ok .reacquired, c)
  | .ok false =>
    match ← readOwner c.key with
    | .error failure => return (.error failure, c)
    | .ok found => c.lose found.join

/-- Keeps a lock that is held alive. -/
def renew (c : Claimant) : LockProgram (Except Failure Renewal × Claimant) := do
  match c.standing with
  | .heldByOther owner => return (.ok (.lost owner), c)
  | .free => return (.ok .notHeld, c)
  | .stale => return (.ok .notHeld, c)
  | .heldBySelf =>
    match ← readOwner c.key with
    | .error failure => return (.error failure, c)
    | .ok none => c.recreate
    | .ok (some owner) =>
      if owner = some c.pid then
        match ← refreshExpiry c.key c.pid c.ttl with
        | .error failure => return (.error failure, c)
        | .ok true =>
          note (.extended c.key c.pid)
          return (.ok .extended, c)
        | .ok false => c.recreate
      else c.lose owner

/-- That the lock is held as far as is known. -/
def ensureHeld (c : Claimant) : Except Failure Unit :=
  match c.standing with
  | .heldBySelf => .ok ()
  | .heldByOther owner => .error (.lockLost owner)
  | .free => .error (.lockLost none)
  | .stale => .error (.lockLost none)

/-- Gives the lock up; whether there was a record to delete. -/
def release (c : Claimant) : LockProgram (Except Failure Bool × Claimant) := do
  if c.standing = .heldBySelf then
    match ← LockRecord.delete c.key c.pid with
    | .error failure => return (.error failure, c)
    | .ok true =>
      note (.released c.key c.pid)
      return (.ok true, { c with standing := .free })
    | .ok false =>
      note (.alreadyGone c.key c.pid)
      return (.ok false, { c with standing := .free })
  else
    note (.releaseSkipped c.key c.pid c.standing)
    return (.ok false, c)

end Claimant

end Leasehold
