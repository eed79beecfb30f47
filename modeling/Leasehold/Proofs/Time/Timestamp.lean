import Leasehold.Proofs.Text.Decimal
import Leasehold.Proofs.Time.Calendar
import Leasehold.Time.Timestamp

/-!
# Timestamps read back

A timestamp gives an instant exactly if a leap second, should the instant be in
one, comes at the end of a minute, for nowhere else can it be written. Every sum
of an instant and a duration and every instant that was read is such an instant,
so what the records of a store expire at is written without loss.
-/

namespace Leasehold

/-- That an instant can be written: a leap second ends a minute. -/
def Instant.IsProper (t : Instant) : Prop :=
  Duration.nanosPerSecond ≤ t.nano → t.second % 60 = 59

namespace Timestamp

open Text

/-! ## The parts of a timestamp -/

theorem trimStart_cons {c : Char} (shown : isBlank c = false) (rest : List Char) :
    trimStart (c :: rest) = c :: rest := by
  simp [trimStart, shown]

theorem isBlank_of_isDigit {c : Char} (digit : c.isDigit) : isBlank c = false := by
  have bounds : 48 ≤ c.toNat ∧ c.toNat ≤ 57 := by
    simpa [Char.isDigit, UInt32.le_iff_toNat_le] using digit
  simp only [isBlank, Bool.or_eq_false_iff, Bool.and_eq_false_iff, beq_eq_false_iff_ne,
    decide_eq_false_iff_not]
  omega

/-- A padded number begins with a digit. -/
theorem padded_eq_cons (width n : Nat) :
    ∃ c digits, padded width n = c :: digits ∧ c.isDigit := by
  cases shown : padded width n with
  | nil => exact absurd shown (padded_ne_nil width n)
  | cons c digits => exact ⟨c, digits, rfl, isDigit_of_mem_padded (shown ▸ List.mem_cons_self)⟩

theorem trimStart_padded (width n : Nat) (rest : List Char) :
    trimStart (padded width n ++ rest) = padded width n ++ rest := by
  rcases padded_eq_cons width n with ⟨c, digits, shown, digit⟩
  rw [shown, List.cons_append, trimStart_cons (isBlank_of_isDigit digit)]

@[simp]
theorem number_padded {n : Nat} (fits : n < 100) (rest : List Char) :
    number 2 (padded 2 n ++ rest) = some (n, rest) := by
  rw [number, trimStart_padded]
  exact takeDecimal?_padded (by decide) fits rest

theorem separator_cons {c : Char} (shown : isBlank c = false) (rest : List Char) :
    separator c (c :: rest) = some rest := by
  simp [separator, trimStart_cons shown]

/-- A year is read with its sign, if it has one. -/
theorem year_yearText (y : Int) (rest : List Char) :
    year (yearText y ++ '-' :: rest) = some (y, '-' :: rest) := by
  have taken (n : Nat) : takeDecimal? (padded 4 n ++ '-' :: rest).length
      (padded 4 n ++ '-' :: rest) = some (n, '-' :: rest) := by
    rw [takeDecimal?_append (padded_ne_nil 4 n) (fun _ => isDigit_of_mem_padded) (by simp)
      (.inr (by simp)), ofDigitChars_padded]
  by_cases short : 0 ≤ y ∧ y ≤ 9999
  · have fits : y.toNat < 10 ^ 4 := by omega
    have whole : (y.toNat : Int) = y := by omega
    have found := takeDecimal?_padded (by decide) fits ('-' :: rest)
    rcases padded_eq_cons 4 y.toNat with ⟨c, digits, shown, digit⟩
    rw [yearText, if_pos short, year, trimStart_padded]
    rw [shown, List.cons_append] at found ⊢
    split
    next same =>
      cases same
      contradiction
    next same =>
      cases same
      contradiction
    next => simp [found, whole]
  · by_cases negative : y < 0
    · have whole : -(y.natAbs : Int) = y := by omega
      rw [yearText, if_neg short, if_pos negative, List.cons_append, year,
        trimStart_cons (by decide)]
      simp only [taken, Option.map_some, whole]
    · have whole : (y.natAbs : Int) = y := by omega
      rw [yearText, if_neg short, if_neg negative, List.cons_append, year,
        trimStart_cons (by decide)]
      simp only [taken, Option.map_some, whole]

/-- The fraction of a second is read with the zeros that it was written without. -/
theorem fraction_fractionText {nano : Nat} (small : nano < Duration.nanosPerSecond)
    (rest : List Char) :
    fraction (fractionText nano ++ 'Z' :: rest) = some (nano, 'Z' :: rest) := by
  have digits {width n : Nat} (wide : 0 < width) (short : width ≤ 9) (fits : n < 10 ^ width) :
      fraction ('.' :: padded width n ++ 'Z' :: rest) =
        some (n * Nat.pow 10 (9 - width), 'Z' :: rest) := by
    have length := length_padded wide fits
    have ends : EndsDigits ('Z' :: rest) := by simp
    have dropped : ('Z' :: rest).dropWhile Char.isDigit = 'Z' :: rest := rfl
    rw [List.cons_append, fraction, takeDecimal?_append (padded_ne_nil width n)
      (fun _ => isDigit_of_mem_padded) (by omega) (.inr ends), ofDigitChars_padded]
    simp [length, dropped]
  simp only [Duration.nanosPerSecond] at small
  unfold fractionText
  split
  next zero =>
    subst zero
    rfl
  next =>
    split
    next millis =>
      rw [digits (by decide) (by decide) (by omega)]
      have whole : nano / 1000000 * Nat.pow 10 (9 - 3) = nano := by
        show nano / 1000000 * 1000000 = nano
        omega
      rw [whole]
    next =>
      split
      next micros =>
        rw [digits (by decide) (by decide) (by omega)]
        have whole : nano / 1000 * Nat.pow 10 (9 - 6) = nano := by
          show nano / 1000 * 1000 = nano
          omega
        rw [whole]
      next =>
        rw [digits (by decide) (by decide) (by omega)]
        simp

/-- A date in the calendar is read from its parts. -/
theorem date_write {d : Date} (valid : d.IsValid) (rest : List Char) :
    date (yearText d.year ++ '-' :: (padded 2 d.month ++ '-' :: (padded 2 d.day ++ rest))) =
      some (d, rest) := by
  rcases valid.lt_hundred with ⟨month, day⟩
  have dash (rest : List Char) : separator '-' ('-' :: rest) = some rest :=
    separator_cons (by decide) rest
  simp [date, year_yearText, dash, month, day, valid]

/-- A time of day is read from its parts, the second 60 as a leap second. -/
theorem timeOfDay_write (hour minute : Nat) {second : Nat} (nano : Nat) (hours : hour < 24)
    (minutes : minute < 60) (seconds : second ≤ 60) (nanos : nano < Duration.nanosPerSecond)
    (rest : List Char) :
    timeOfDay (padded 2 hour ++ ':' :: (padded 2 minute ++ ':' :: (padded 2 second ++
      (fractionText nano ++ 'Z' :: rest)))) =
      some ((hour * 3600 + minute * 60 + (second - second / 60),
        nano + second / 60 * Duration.nanosPerSecond), 'Z' :: rest) := by
  have colon (rest : List Char) : separator ':' (':' :: rest) = some rest :=
    separator_cons (by decide) rest
  simp [timeOfDay, colon, number_padded (show hour < 100 by omega),
    number_padded (show minute < 100 by omega), number_padded (show second < 100 by omega),
    fraction_fractionText nanos, hours, minutes, seconds]

/-! ## Writing and reading -/

@[simp]
theorem ofParts?_parts (t : Instant) : Instant.ofParts? t.second t.nano = some t := by
  simp [Instant.ofParts?, t.firstSecond_le, t.le_lastSecond, t.nano_lt]

/-- An instant that can be written is read back. -/
theorem read?_write {t : Instant} (proper : t.IsProper) : read? (write t) = some t := by
  have bound := t.nano_lt
  simp only [Instant.IsProper, Duration.nanosPerSecond] at proper bound
  -- The parts of the time of day: a leap second is written as the second 60.
  have inDay : (t.second % 86400).toNat < 86400 := by omega
  have sixty : (t.second % 86400).toNat % 60 + t.nano / 1000000000 ≤ 60 := by omega
  have time := timeOfDay_write ((t.second % 86400).toNat / 3600)
    ((t.second % 86400).toNat / 60 % 60) (t.nano % 1000000000)
    (by omega) (by omega) sixty (by simp only [Duration.nanosPerSecond]; omega) []
  have day := date_write (Date.isValid_ofDayNumber (t.second / 86400))
  -- They add up to the second and the nanoseconds that they were taken from.
  have second : t.second / 86400 * 86400 +
      ((t.second % 86400).toNat / 3600 * 3600 + (t.second % 86400).toNat / 60 % 60 * 60 +
        ((t.second % 86400).toNat % 60 + t.nano / 1000000000 -
          ((t.second % 86400).toNat % 60 + t.nano / 1000000000) / 60) : Nat) = t.second := by
    omega
  have nano : t.nano % 1000000000 +
      ((t.second % 86400).toNat % 60 + t.nano / 1000000000) / 60 * 1000000000 = t.nano := by
    omega
  have utc : offset ['Z'] = some (0, []) := rfl
  have ended : (trimStart []).isEmpty = true := rfl
  simp only [Duration.nanosPerSecond] at time
  simp only [write, read?, Duration.nanosPerSecond, List.append_assoc, List.cons_append, day, time,
    utc, ended, Option.bind_eq_bind, Option.bind_some, Date.dayNumber_ofDayNumber, second, nano,
    ofParts?_parts, Int.sub_zero, if_true]

/-! ## What was read can be written -/

theorem second_nano_of_ofParts? {second : Int} {nano : Nat} {t : Instant}
    (found : Instant.ofParts? second nano = some t) : t.second = second ∧ t.nano = nano := by
  unfold Instant.ofParts? at found
  split at found
  · cases found
    exact ⟨rfl, rfl⟩
  · contradiction

/-- A fraction is less than a second. -/
theorem fraction_lt {cs rest : List Char} {nano : Nat} (read : fraction cs = some (nano, rest)) :
    nano < Duration.nanosPerSecond := by
  unfold fraction at read
  split at read
  next cs =>
    simp only [Option.bind_eq_bind, Option.bind_eq_some_iff, Option.some.injEq, Prod.mk.injEq,
      Prod.exists] at read
    obtain ⟨n, left, taken, rfl, _⟩ := read
    rcases takeDecimal?_bound taken with ⟨value, short⟩
    generalize cs.length - left.length = digits at value short ⊢
    calc n * 10 ^ (9 - digits) < 10 ^ digits * 10 ^ (9 - digits) :=
          Nat.mul_lt_mul_of_pos_right value (Nat.pow_pos (by decide))
      _ = 10 ^ 9 := by rw [← Nat.pow_add, Nat.add_sub_cancel' short]
  next =>
    cases read
    decide

/-- A leap second that was read is the last second of a minute. -/
theorem timeOfDay_leap {cs rest : List Char} {second nano : Nat}
    (read : timeOfDay cs = some ((second, nano), rest)) :
    Duration.nanosPerSecond ≤ nano → second % 60 = 59 := by
  simp only [timeOfDay, Option.bind_eq_bind, Option.bind_eq_some_iff, Prod.exists] at read
  obtain ⟨hour, _, _, _, _, minute, _, _, _, _, second', _, _, fraction', _, found, shown⟩ := read
  have small := fraction_lt found
  split at shown
  next bounds =>
    cases shown
    simp only [Duration.nanosPerSecond] at small ⊢
    intro leap
    have sixty : second' = 60 := by omega
    subst sixty
    omega
  next => contradiction

/-- Local time is ahead or behind by whole minutes. -/
theorem hoursAndMinutes_minutes {cs rest : List Char} {n : Nat}
    (read : hoursAndMinutes cs = some (n, rest)) : n % 60 = 0 := by
  unfold hoursAndMinutes at read
  split at read
  next =>
    simp only [Option.bind_eq_bind, Option.bind_eq_some_iff] at read
    obtain ⟨_, _, _, _, read⟩ := read
    split at read
    next =>
      simp only [Option.bind_eq_some_iff] at read
      obtain ⟨_, _, _, _, read⟩ := read
      split at read
      next =>
        cases read
        omega
      next => contradiction
    next => contradiction
  next => contradiction

theorem offset_minutes {cs rest : List Char} {ahead : Int}
    (read : offset cs = some (ahead, rest)) : ahead % 60 = 0 := by
  unfold offset at read
  split at read
  case h_1 => cases read; rfl
  case h_2 => cases read; rfl
  case h_3 =>
    rcases Option.map_eq_some_iff.mp read with ⟨⟨n, _⟩, found, shown⟩
    have minutes := hoursAndMinutes_minutes found
    cases shown
    omega
  case h_4 =>
    rcases Option.map_eq_some_iff.mp read with ⟨⟨n, _⟩, found, shown⟩
    have minutes := hoursAndMinutes_minutes found
    cases shown
    omega
  case h_5 =>
    rcases Option.map_eq_some_iff.mp read with ⟨⟨n, _⟩, found, shown⟩
    have minutes := hoursAndMinutes_minutes found
    cases shown
    omega
  case h_6 =>
    split at read
    · cases read
      rfl
    · contradiction
  case h_7 => contradiction

/-- The offset does not move a leap second from the end of its minute. -/
theorem isProper_of_parts {cs ds rest left : List Char} {second nano : Nat} {ahead day : Int}
    {t : Instant} (time : timeOfDay cs = some ((second, nano), rest))
    (zone : offset ds = some (ahead, left))
    (found : ((Instant.ofParts? (day * 86400 + second) nano).bind fun shown =>
      Instant.ofParts? (shown.second - ahead) shown.nano) = some t) : t.IsProper := by
  have leap := timeOfDay_leap time
  have minutes := offset_minutes zone
  rcases Option.bind_eq_some_iff.mp found with ⟨shown, here, there⟩
  rcases second_nano_of_ofParts? here with ⟨shownSecond, shownNano⟩
  rcases second_nano_of_ofParts? there with ⟨tSecond, tNano⟩
  intro beyond
  rw [tNano, shownNano] at beyond
  have last := leap beyond
  rw [tSecond, shownSecond]
  omega

/-- What was read can be written. -/
theorem isProper_of_read? {cs : List Char} {t : Instant} (read : read? cs = some t) :
    t.IsProper := by
  simp only [read?, Option.bind_eq_bind, Option.bind_eq_some_iff, Prod.exists] at read
  obtain ⟨date, rest, _, read⟩ := read
  -- Whichever separator stands before the time of day, the rest is read alike.
  split at read
  case h_4 => contradiction
  all_goals
    simp only [Option.bind_some, Option.bind_eq_some_iff, Prod.exists] at read
    obtain ⟨second, nano, _, time, ahead, _, zone, read⟩ := read
    split at read
    next => exact isProper_of_parts time zone read
    next => contradiction

end Timestamp

namespace Instant

/-- An instant that was counted is in no leap second. -/
theorem nano_ofSinceEpoch_lt (nanos : Int) :
    (ofSinceEpoch nanos).nano < Duration.nanosPerSecond := by
  simp only [ofSinceEpoch, ofParts?]
  split
  · decide
  · split
    · simp only [Option.getD_some, Duration.nanosPerSecond]
      omega
    · decide

/-- A sum can be written. -/
theorem isProper_add (t : Instant) (d : Duration) : (t.add d).IsProper := fun leap =>
  absurd leap (Nat.not_le.mpr (nano_ofSinceEpoch_lt _))

end Instant

end Leasehold
