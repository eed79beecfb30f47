import Leasehold.Text.Decimal

/-!
# Durations

A duration is a whole number of nanoseconds. Its text takes the largest unit of
which it has at least one, with the fraction that is needed and no more.
-/

namespace Leasehold

/-- A length of time, in nanoseconds. -/
structure Duration where
  nanos : Nat
  deriving DecidableEq, Repr, Inhabited

namespace Duration

/-- The number of nanoseconds in a second. -/
def nanosPerSecond : Nat :=
  1000000000

/-- No time at all. -/
def zero : Duration :=
  ⟨0⟩

/-- So many whole seconds. -/
def ofSeconds (seconds : Nat) : Duration :=
  ⟨seconds * nanosPerSecond⟩

/-- So many milliseconds. -/
def ofMillis (millis : Nat) : Duration :=
  ⟨millis * 1000000⟩

/-- So many seconds and nanoseconds. -/
def ofParts (seconds nanos : Nat) : Duration :=
  ⟨seconds * nanosPerSecond + nanos⟩

/-- The whole seconds of a duration. -/
def seconds (d : Duration) : Nat :=
  d.nanos / nanosPerSecond

/-- The nanoseconds beyond the whole seconds. -/
def subsecond (d : Duration) : Nat :=
  d.nanos % nanosPerSecond

theorem ofParts_seconds_subsecond (d : Duration) : ofParts d.seconds d.subsecond = d := by
  cases d
  simp only [ofParts, seconds, subsecond, mk.injEq]
  exact Nat.div_add_mod' _ _

/-- A number of units of `unit` nanoseconds, `places` decimals wide, without
zeros at the end of the fraction. -/
private def inUnit (nanos unit places : Nat) (name : String) : String :=
  let fraction := Text.padded places (nanos % unit)
  let kept := (fraction.reverse.dropWhile (· == '0')).reverse
  let point := if kept.isEmpty then [] else '.' :: kept
  String.ofList (Text.decimal (nanos / unit) ++ point) ++ name

/-- A duration in seconds, milliseconds, microseconds or nanoseconds, whichever
is the largest unit that it fills. -/
def text (d : Duration) : String :=
  if nanosPerSecond ≤ d.nanos then inUnit d.nanos nanosPerSecond 9 "s"
  else if 1000000 ≤ d.nanos then inUnit d.nanos 1000000 6 "ms"
  else if 1000 ≤ d.nanos then inUnit d.nanos 1000 3 "µs"
  else inUnit d.nanos 1 0 "ns"

end Duration

end Leasehold
