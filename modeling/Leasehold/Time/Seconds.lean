import Leasehold.Number.Binary64
import Leasehold.Time.Duration

/-!
# Durations in seconds

A duration as a floating-point number of seconds, and that number to one decimal.
-/

namespace Leasehold.Duration

/-- A duration in seconds, the whole seconds and the rest each rounded first. -/
def inSeconds (d : Duration) : Binary64 :=
  let whole := Binary64.ofNat? d.seconds
  let rest := do
    let nanos ← Binary64.ofNat? d.subsecond
    nanos.div? (← Binary64.ofNat? nanosPerSecond)
  let sum := do (← whole).addMagnitudes? (← rest)
  sum.getD (.zero false)

/-- A duration in seconds to one decimal, followed by the unit. -/
def tenths (d : Duration) : String :=
  let n := d.inSeconds.decimalPlaces 1
  toString (n / 10) ++ "." ++ toString (n % 10) ++ "s"

end Leasehold.Duration
