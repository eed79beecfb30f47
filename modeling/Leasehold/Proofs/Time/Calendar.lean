import Leasehold.Time.Calendar

/-!
# The dates of day numbers are in the calendar

The twelve months from March on fill the first 365 days of a year, and the day
after them is 29 February. There is such a day only before the end of a leap
year: three full years of a four-year period come before it, and where the
period is the last one of a century, the century is the fourth one.
-/

namespace Leasehold.Date

theorem isLeapYear_iff (year : Int) :
    isLeapYear year ↔ year % 4 = 0 ∧ (year % 100 ≠ 0 ∨ year % 400 = 0) := by
  simp [isLeapYear]

/-- The last day of a year that begins with March is there in leap years only. -/
theorem isLeapYear_of_yearAndDay {count : Int} (last : (yearAndDay count).2 = 365) :
    isLeapYear ((yearAndDay count).1 + 1) := by
  rw [isLeapYear_iff]
  simp only [yearAndDay] at last ⊢
  omega

/-- The months and days that the days of a year are given; `1` is a common year. -/
theorem ofYearAndDay_inYear : ∀ day ≤ 365,
    1 ≤ (ofYearAndDay 0 day).month ∧ (ofYearAndDay 0 day).month ≤ 12 ∧
      1 ≤ (ofYearAndDay 0 day).day ∧
      ((ofYearAndDay 0 day).day ≤ daysInMonth 1 (ofYearAndDay 0 day).month ∨
        day = 365 ∧ (ofYearAndDay 0 day).month = 2 ∧ (ofYearAndDay 0 day).day = 29) := by
  decide +kernel

/-- No month is shorter than it is in a common year. -/
theorem daysInMonth_common_le (year : Int) (month : Nat) :
    daysInMonth 1 month ≤ daysInMonth year month := by
  have common : isLeapYear 1 = false := rfl
  by_cases february : month = 2
  · cases leap : isLeapYear year <;> simp [daysInMonth, february, common, leap]
  · simp [daysInMonth, february]

/-- The date of a day number is in the calendar. -/
theorem isValid_ofDayNumber (days : Int) : (ofDayNumber days).IsValid := by
  have short := yearAndDay_snd_le (days + epochOffset)
  have leap := @isLeapYear_of_yearAndDay (days + epochOffset)
  rw [ofDayNumber]
  generalize yearAndDay (days + epochOffset) = found at short leap ⊢
  obtain ⟨year, day⟩ := found
  rcases ofYearAndDay_inYear day short with ⟨month, months, first, within | ⟨rfl, _, _⟩⟩
  · exact ⟨month, months, first, Nat.le_trans within (daysInMonth_common_le _ _)⟩
  · have february : daysInMonth (year + 1) 2 = 29 := by simp [daysInMonth, leap rfl]
    exact ⟨month, months, first, Nat.le_of_eq february.symm⟩

/-- The parts of a date in the calendar are numbers of two digits. -/
theorem IsValid.lt_hundred {date : Date} (valid : date.IsValid) :
    date.month < 100 ∧ date.day < 100 := by
  have longest : daysInMonth date.year date.month ≤ 31 := by
    unfold daysInMonth
    repeat' split
    all_goals decide
  have bounds := valid
  simp only [IsValid] at bounds
  omega

end Leasehold.Date
