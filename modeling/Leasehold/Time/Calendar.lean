/-!
# Calendar dates

Days are counted from 1970-01-01 in the Gregorian calendar, extended to all
years. A year is taken to begin in March, so that the leap day is its last day
and the months before it follow one rule. The main statement is that the date
of a day number has that day number.
-/

namespace Leasehold

/-- A year, a month from 1 to 12 and a day of the month from 1. -/
structure Date where
  year : Int
  month : Nat
  day : Nat
  deriving DecidableEq, Repr

namespace Date

/-- Whether February of a year has 29 days. -/
def isLeapYear (year : Int) : Bool :=
  year % 4 == 0 && (year % 100 != 0 || year % 400 == 0)

/-- The number of days in a month. -/
def daysInMonth (year : Int) (month : Nat) : Nat :=
  if month = 2 then (if isLeapYear year then 29 else 28)
  else if month = 4 ∨ month = 6 ∨ month = 9 ∨ month = 11 then 30
  else 31

/-- Whether a date is in the calendar. -/
def IsValid (date : Date) : Prop :=
  1 ≤ date.month ∧ date.month ≤ 12 ∧ 1 ≤ date.day ∧ date.day ≤ daysInMonth date.year date.month

instance (date : Date) : Decidable date.IsValid :=
  inferInstanceAs (Decidable (_ ∧ _))

/-- The number of days from 0000-03-01 to 1970-01-01. -/
def epochOffset : Int :=
  719468

/-- The days from 0000-03-01 to the first of March of a year. -/
def daysBeforeYear (year : Int) : Int :=
  year * 365 + year / 4 - year / 100 + year / 400

/-- The days before a month in a year that begins with March, which is month 0. -/
def daysBeforeMonth (month : Nat) : Nat :=
  (153 * month + 2) / 5

/-- The number of days from 1970-01-01 to a date. -/
def dayNumber (date : Date) : Int :=
  let year := if date.month ≤ 2 then date.year - 1 else date.year
  let month := (date.month + 9) % 12
  daysBeforeYear year + (daysBeforeMonth month + (date.day - 1) : Nat) - epochOffset

/-- The year that begins with March, and the day in it, of a day counted from
0000-03-01: 400 years have 146097 days, and in them come up to three full
centuries, 24 full periods of four years and three full years before the day. -/
def yearAndDay (count : Int) : Int × Nat :=
  let inCycle := (count % 146097).toNat
  let century := min (inCycle / 36524) 3
  let inCentury := inCycle - century * 36524
  let quad := inCentury / 1461
  let inQuad := inCentury - quad * 1461
  let yearOfQuad := min (inQuad / 365) 3
  (count / 146097 * 400 + (century * 100 + quad * 4 + yearOfQuad : Nat),
    inQuad - yearOfQuad * 365)

/-- The date of a day in a year that begins with March. -/
def ofYearAndDay (year : Int) (day : Nat) : Date :=
  let month := (5 * day + 2) / 153
  { year := if month < 10 then year else year + 1
    month := if month < 10 then month + 3 else month - 9
    day := day - daysBeforeMonth month + 1 }

/-- The date so many days from 1970-01-01. -/
def ofDayNumber (days : Int) : Date :=
  let (year, day) := yearAndDay (days + epochOffset)
  ofYearAndDay year day

theorem daysBeforeYear_cycle (cycle : Int) {century quad year : Nat} (centuries : century ≤ 3)
    (quads : quad ≤ 24) (years : year ≤ 3) :
    daysBeforeYear (cycle * 400 + (century * 100 + quad * 4 + year : Nat)) =
      cycle * 146097 + century * 36524 + quad * 1461 + year * 365 := by
  have quarters : (cycle * 400 + (century * 100 + quad * 4 + year : Nat)) / 4 =
      cycle * 100 + century * 25 + quad := by omega
  have hundreds : (cycle * 400 + (century * 100 + quad * 4 + year : Nat)) / 100 =
      cycle * 4 + century := by omega
  have cycles : (cycle * 400 + (century * 100 + quad * 4 + year : Nat)) / 400 = cycle := by omega
  rw [daysBeforeYear, quarters, hundreds, cycles]
  omega

theorem daysBeforeYear_yearAndDay (count : Int) :
    daysBeforeYear (yearAndDay count).1 + (yearAndDay count).2 = count := by
  simp only [yearAndDay]
  rw [daysBeforeYear_cycle _ (by omega) (by omega) (by omega)]
  omega

theorem yearAndDay_snd_le (count : Int) : (yearAndDay count).2 ≤ 365 := by
  simp only [yearAndDay]
  omega

theorem dayNumber_ofYearAndDay (year : Int) {day : Nat} (inYear : day ≤ 365) :
    (ofYearAndDay year day).dayNumber = daysBeforeYear year + day - epochOffset := by
  have months : (5 * day + 2) / 153 ≤ 11 := by omega
  have begins : daysBeforeMonth ((5 * day + 2) / 153) ≤ day := by
    simp only [daysBeforeMonth]
    omega
  by_cases early : (5 * day + 2) / 153 < 10
  · have late : ¬(5 * day + 2) / 153 + 3 ≤ 2 := by omega
    have wrapped : ((5 * day + 2) / 153 + 3 + 9) % 12 = (5 * day + 2) / 153 := by omega
    simp only [dayNumber, ofYearAndDay, if_pos early, if_neg late, wrapped]
    omega
  · have first : (5 * day + 2) / 153 - 9 ≤ 2 := by omega
    have wrapped : ((5 * day + 2) / 153 - 9 + 9) % 12 = (5 * day + 2) / 153 := by omega
    have before : year + 1 - 1 = year := by omega
    simp only [dayNumber, ofYearAndDay, if_neg early, if_pos first, wrapped, before]
    omega

/-- The date of a day number has that day number. -/
theorem dayNumber_ofDayNumber (days : Int) : (ofDayNumber days).dayNumber = days := by
  rw [ofDayNumber, dayNumber_ofYearAndDay _ (yearAndDay_snd_le _)]
  have total := daysBeforeYear_yearAndDay (days + epochOffset)
  omega

end Date

end Leasehold
