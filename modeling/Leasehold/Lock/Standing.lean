import Leasehold.Failure

/-!
# Standing towards the lock

What a claimant last learned about the lock it wants or has, and what a renewal
can come to.
-/

namespace Leasehold

/-- What a claimant knows of the lock. -/
inductive Standing where
  | free
  | heldBySelf
  | heldByOther (owner : Option Pid)
  | stale
  deriving DecidableEq, Repr, Inhabited

namespace Standing

/-- A standing as it is shown. -/
def text : Standing → String
  | .free => "free"
  | .heldBySelf => "held by self"
  | .heldByOther (some pid) => "held by pid " ++ toString pid.toNat
  | .heldByOther none => "held by another process"
  | .stale => "stale"

end Standing

/-- What a renewal came to. -/
inductive Renewal where
  | extended
  | reacquired
  | lost (owner : Option Pid)
  | notHeld
  deriving DecidableEq, Repr

/-- An owner as it stands in diagnostics. -/
def ownerDiagnostic : Option Pid → String
  | some pid => "Some(" ++ toString pid.toNat ++ ")"
  | none => "None"

/-- A standing as it stands in diagnostics. -/
def Standing.diagnostic : Standing → String
  | .free => "Free"
  | .heldBySelf => "HeldBySelf"
  | .heldByOther owner => "HeldByOther \x7b owner: " ++ ownerDiagnostic owner ++ " \x7d"
  | .stale => "Stale"

end Leasehold
