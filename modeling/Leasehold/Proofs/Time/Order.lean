import Leasehold.Time.Instant
import Mathlib.Order.Defs.LinearOrder

/-!
# The order of instants

Instants are ordered linearly by their position. An expiry set by adding a
lifetime lies ahead of the clock as long as the clock has not come to the last
instant, where every sum stops.
-/

namespace Leasehold.Instant

theorem lt_iff_position {a b : Instant} : a < b ↔ a.position < b.position :=
  Iff.rfl

/-- The position tells instants apart, since a second has less than twice its
nanoseconds. -/
theorem position_injective : Function.Injective position := by
  rintro ⟨second, nano, first, last, bound⟩ ⟨second', nano', first', last', bound'⟩ same
  simp only [position, Duration.nanosPerSecond] at same bound bound'
  have seconds : second = second' := by omega
  have nanos : nano = nano' := by omega
  subst seconds
  subst nanos
  rfl

instance : LinearOrder Instant where
  le_refl a := Int.le_refl a.position
  le_trans _ _ _ := Int.le_trans
  le_antisymm _ _ before after := position_injective (Int.le_antisymm before after)
  le_total a b := Int.le_total a.position b.position
  lt_iff_le_not_ge a b := Int.lt_iff_le_and_not_ge
  toDecidableLE := inferInstance
  toDecidableEq := inferInstance
  toDecidableLT := inferInstance

/-- There is no earlier instant than the first. -/
theorem min_le (t : Instant) : min ≤ t := by
  have first := t.firstSecond_le
  change min.position ≤ t.position
  simp only [position, min, firstSecond, Duration.nanosPerSecond] at first ⊢
  omega

/-- Counting on from an instant that is not the last one gives a later instant,
for the count stops at the end of the range and no sooner. -/
theorem lt_ofSinceEpoch {now : Instant} {nanos : Int} (later : now.sinceEpoch < nanos)
    (early : now < Instant.max) : now < ofSinceEpoch nanos := by
  have first := now.firstSecond_le
  have bound := now.nano_lt
  rw [lt_iff_position] at early ⊢
  simp only [sinceEpoch, position, Instant.max, lastSecond, firstSecond,
    Duration.nanosPerSecond] at later early first bound
  have notBefore : ¬nanos / (Duration.nanosPerSecond : Nat) < firstSecond := by
    simp only [firstSecond, Duration.nanosPerSecond]
    omega
  simp only [ofSinceEpoch, if_neg notBefore]
  by_cases inRange : nanos / (Duration.nanosPerSecond : Nat) ≤ lastSecond
  · have small : (nanos % (Duration.nanosPerSecond : Nat)).toNat < 2 * Duration.nanosPerSecond := by
      simp only [Duration.nanosPerSecond]
      omega
    rw [ofParts?, dif_pos ⟨⟨Int.not_lt.mp notBefore, inRange⟩, small⟩]
    simp only [Option.getD_some, position, Duration.nanosPerSecond]
    omega
  · rw [ofParts?, dif_neg fun fits => inRange fits.1.2]
    simp only [Option.getD_none, position, Instant.max, lastSecond, Duration.nanosPerSecond]
    omega

/-- Before the last instant a sum is later than the instant it starts from. -/
theorem lt_add {now : Instant} {ttl : Duration} (positive : 0 < ttl.nanos)
    (early : now < Instant.max) : now < now.add ttl :=
  lt_ofSinceEpoch (by omega) early

end Leasehold.Instant
