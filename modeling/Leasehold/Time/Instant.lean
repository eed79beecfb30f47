import Leasehold.Time.Duration

/-!
# Instants

An instant is a second counted from 1970-01-01T00:00:00Z and nanoseconds into
it. A leap second has no number of its own: it is the part of the second before
it from `1000000000` nanoseconds on, so instants are ordered by second and then
by nanosecond. The range runs from the beginning of the year -262143 to the end
of the year 262142, and adding to an instant stops at the end of it.
-/

namespace Leasehold

/-- The first second of the year -262143. -/
def firstSecond : Int :=
  -8334601228800

/-- The last second of the year 262142. -/
def lastSecond : Int :=
  8210266876799

/-- A second in the range and a place in it, which a leap second may extend. -/
structure Instant where
  second : Int
  nano : Nat
  firstSecond_le : firstSecond ≤ second := by decide
  le_lastSecond : second ≤ lastSecond := by decide
  nano_lt : nano < 2 * Duration.nanosPerSecond := by decide
  deriving Repr

namespace Instant

instance : DecidableEq Instant := fun a b =>
  if same : a.second = b.second ∧ a.nano = b.nano then
    isTrue (by cases a; cases b; simp_all)
  else isFalse fun equal => same (by subst equal; exact ⟨rfl, rfl⟩)

/-- The last instant that is not in a leap second. -/
def max : Instant where
  second := lastSecond
  nano := 999999999

/-- The first instant. -/
def min : Instant where
  second := firstSecond
  nano := 0

instance : Inhabited Instant :=
  ⟨{ second := 0, nano := 0 }⟩

/-- The place of an instant among all instants. -/
def position (t : Instant) : Int :=
  t.second * (2 * Duration.nanosPerSecond : Nat) + t.nano

instance : LE Instant :=
  ⟨fun a b => a.position ≤ b.position⟩

instance : LT Instant :=
  ⟨fun a b => a.position < b.position⟩

instance (a b : Instant) : Decidable (a ≤ b) :=
  inferInstanceAs (Decidable (a.position ≤ b.position))

instance (a b : Instant) : Decidable (a < b) :=
  inferInstanceAs (Decidable (a.position < b.position))

/-- The instant at a second and nanosecond, if it is in the range. -/
def ofParts? (second : Int) (nano : Nat) : Option Instant :=
  if inRange : (firstSecond ≤ second ∧ second ≤ lastSecond) ∧
      nano < 2 * Duration.nanosPerSecond then
    some ⟨second, nano, inRange.1.1, inRange.1.2, inRange.2⟩
  else none

/-- Nanoseconds from 1970-01-01T00:00:00Z, leap seconds not counted. -/
def sinceEpoch (t : Instant) : Int :=
  t.second * (Duration.nanosPerSecond : Nat) + t.nano

/-- The instant so many nanoseconds from 1970-01-01T00:00:00Z, or the end of the
range that is nearer. -/
def ofSinceEpoch (nanos : Int) : Instant :=
  let second := nanos / (Duration.nanosPerSecond : Nat)
  let nano := (nanos % (Duration.nanosPerSecond : Nat)).toNat
  if second < firstSecond then min
  else (ofParts? second nano).getD max

/-- The instant a duration later, or the last one. -/
def add (t : Instant) (d : Duration) : Instant :=
  ofSinceEpoch (t.sinceEpoch + d.nanos)

/-- The instant a duration earlier, or the first one. -/
def sub (t : Instant) (d : Duration) : Instant :=
  ofSinceEpoch (t.sinceEpoch - d.nanos)

/-- The seconds since midnight. -/
def secondOfDay (t : Instant) : Int :=
  t.second % 86400

/-- Whether an instant is in a leap second. -/
def isLeap (t : Instant) : Bool :=
  Duration.nanosPerSecond ≤ t.nano

/-- The time from `start` to `stop`, or none at all if `stop` is not later. The
leap second of `stop` counts unless its time of day is before that of `start`. -/
def elapsed (start stop : Instant) : Duration :=
  let leap := if stop.isLeap && stop.secondOfDay < start.secondOfDay then 1 else 0
  ⟨(stop.sinceEpoch - start.sinceEpoch - leap * (Duration.nanosPerSecond : Nat)).toNat⟩

end Instant

end Leasehold
