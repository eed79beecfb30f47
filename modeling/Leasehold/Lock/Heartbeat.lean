import Leasehold.Lock.Claimant

/-!
# Heartbeats

While a person takes time to answer, a heartbeat renews the lock at intervals. A
beat that finds the lock lost or not held is the last one; a beat on which the
store does not answer is not.
-/

namespace Leasehold

/-- A heartbeat: whether it goes on, and how often it has beaten. -/
structure Heartbeat where
  running : Bool
  beats : Nat
  deriving DecidableEq, Repr

namespace Heartbeat

/-- A heartbeat that is about to begin; it needs some time between beats. -/
def start? (interval : Duration) : Except Failure Heartbeat :=
  if interval = .zero then .error (.user .heartbeatIntervalZero) else .ok ⟨true, 0⟩

/-- One beat, if the heartbeat goes on. -/
def beat (heartbeat : Heartbeat) (c : Claimant) : LockProgram (Heartbeat × Claimant) := do
  if heartbeat.running then
    let (outcome, c) ← c.renew
    match outcome with
    | .ok (.lost _) => return (⟨false, heartbeat.beats + 1⟩, c)
    | .ok .notHeld => return (⟨false, heartbeat.beats + 1⟩, c)
    | .ok .extended => return (⟨true, heartbeat.beats + 1⟩, c)
    | .ok .reacquired => return (⟨true, heartbeat.beats + 1⟩, c)
    | .error failure =>
      LockRecord.note (.beatFailed failure)
      return (⟨true, heartbeat.beats + 1⟩, c)
  else return (heartbeat, c)

/-- So many beats in a row. -/
def beatTimes (heartbeat : Heartbeat) (c : Claimant) : Nat → LockProgram (Heartbeat × Claimant)
  | 0 => return (heartbeat, c)
  | n + 1 => do
    let (heartbeat, c) ← heartbeat.beat c
    heartbeat.beatTimes c n

end Heartbeat

end Leasehold
