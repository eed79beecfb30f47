import Leasehold.Proofs.Time.Order
import Leasehold.Proofs.Time.Timestamp

/-!
# Sums of instants and durations

Outside leap seconds an instant is a number of nanoseconds from the epoch, and the order of
instants is that of these numbers. A sum is in no leap second and is counted exactly, up to
the last instant, where it stops; and what has elapsed between two instants is counted
exactly too.
-/

namespace Leasehold.Instant

variable {s t : Instant}

theorem isLeap_eq_false_iff : t.isLeap = false ↔ t.nano < Duration.nanosPerSecond := by
  simp [isLeap]

/-! ## The order of counts -/

/-- Outside leap seconds instants are ordered by their counts. -/
theorem le_iff_sinceEpoch (plain : s.isLeap = false) (plain' : t.isLeap = false) :
    s ≤ t ↔ s.sinceEpoch ≤ t.sinceEpoch := by
  rw [isLeap_eq_false_iff] at plain plain'
  change s.position ≤ t.position ↔ _
  simp only [position, sinceEpoch, Duration.nanosPerSecond] at plain plain' ⊢
  omega

theorem lt_iff_sinceEpoch (plain : s.isLeap = false) (plain' : t.isLeap = false) :
    s < t ↔ s.sinceEpoch < t.sinceEpoch := by
  rw [← not_le, le_iff_sinceEpoch plain' plain, Int.not_le]

/-- Outside leap seconds no instant is later than the last one. -/
theorem sinceEpoch_le_max (plain : t.isLeap = false) : t.sinceEpoch ≤ Instant.max.sinceEpoch := by
  have last := t.le_lastSecond
  rw [isLeap_eq_false_iff] at plain
  simp only [sinceEpoch, Instant.max, lastSecond, Duration.nanosPerSecond] at last plain ⊢
  omega

/-! ## Sums -/

/-- Counting from the first instant on is exact up to the last one. -/
theorem sinceEpoch_ofSinceEpoch {nanos : Int}
    (inRange : firstSecond ≤ nanos / (Duration.nanosPerSecond : Nat)) :
    (ofSinceEpoch nanos).sinceEpoch = Min.min nanos Instant.max.sinceEpoch := by
  simp only [ofSinceEpoch, if_neg (Int.not_lt.mpr inRange)]
  by_cases early : nanos / (Duration.nanosPerSecond : Nat) ≤ lastSecond
  · have small : (nanos % (Duration.nanosPerSecond : Nat)).toNat < 2 * Duration.nanosPerSecond := by
      simp only [Duration.nanosPerSecond]
      omega
    rw [ofParts?, dif_pos ⟨⟨inRange, early⟩, small⟩]
    simp only [Option.getD_some, sinceEpoch, Instant.max, lastSecond,
      Duration.nanosPerSecond] at early ⊢
    omega
  · rw [ofParts?, dif_neg fun fits => early fits.1.2]
    simp only [Option.getD_none, sinceEpoch, Instant.max, lastSecond,
      Duration.nanosPerSecond] at early ⊢
    omega

/-- A sum is counted exactly, up to the last instant. -/
theorem sinceEpoch_add (t : Instant) (d : Duration) :
    (t.add d).sinceEpoch = Min.min (t.sinceEpoch + d.nanos) Instant.max.sinceEpoch := by
  have first := t.firstSecond_le
  apply sinceEpoch_ofSinceEpoch
  simp only [sinceEpoch, Duration.nanosPerSecond]
  omega

theorem isLeap_add (t : Instant) (d : Duration) : (t.add d).isLeap = false :=
  isLeap_eq_false_iff.mpr (nano_ofSinceEpoch_lt _)

/-- A sum is not earlier than the instant it starts from. -/
theorem le_add (plain : t.isLeap = false) (d : Duration) : t ≤ t.add d := by
  have last := sinceEpoch_le_max plain
  rw [le_iff_sinceEpoch plain (isLeap_add t d), sinceEpoch_add]
  omega

/-- Sums grow with both of their parts. -/
theorem add_le_add {d e : Duration} (plain : s.isLeap = false) (plain' : t.isLeap = false)
    (starts : s ≤ t) (lasts : d.nanos ≤ e.nanos) : s.add d ≤ t.add e := by
  rw [le_iff_sinceEpoch plain plain'] at starts
  rw [le_iff_sinceEpoch (isLeap_add s d) (isLeap_add t e), sinceEpoch_add, sinceEpoch_add]
  omega

/-! ## Differences -/

/-- What has elapsed up to an instant outside leap seconds is counted exactly. -/
theorem nanos_elapsed (plain : t.isLeap = false) (s : Instant) :
    (s.elapsed t).nanos = (t.sinceEpoch - s.sinceEpoch).toNat := by
  simp [elapsed, plain]

end Leasehold.Instant
