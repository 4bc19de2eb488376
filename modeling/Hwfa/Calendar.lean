import Mathlib.Data.Int.Basic

/-!
The Gregorian calendar, for every day before and after its introduction.

Years are counted from March on, so that a leap day is the last day of its year: then
the days before a month do not depend on the year.  Four hundred years are 146097 days.
-/

namespace Hwfa.Calendar

@[ext] structure Civil where
  year : Int
  month : Int
  day : Int
  deriving DecidableEq

/-- A year from March on, and a day of it, both from 0. -/
structure YearDay where
  year : Int
  day : Int

/-- The days of all years before one. -/
def daysBefore (year : Int) : Int := 365 * year + year / 4 - year / 100 + year / 400

/-- The year of a day that is counted from the first of March of the year 0. -/
def yearDay (days : Int) : YearDay :=
  let dayOfEra := days % 146097
  let century := min (dayOfEra / 36524) 3
  let dayOfCentury := dayOfEra - 36524 * century
  let dayOfCycle := dayOfCentury % 1461
  let common := min (dayOfCycle / 365) 3
  { year := 400 * (days / 146097) + 100 * century + 4 * (dayOfCentury / 1461) + common
    day := dayOfCycle - 365 * common }

/-- The date of a day, counted from the first of January 1970. -/
def civil (days : Int) : Civil :=
  let d := yearDay (days + 719468)
  let month := (5 * d.day + 2) / 153
  let day := d.day - (153 * month + 2) / 5 + 1
  if month < 10 then ⟨d.year, month + 3, day⟩ else ⟨d.year + 1, month - 9, day⟩

/-- The day of a date. -/
def dayNumber (c : Civil) : Int :=
  let year := if c.month ≤ 2 then c.year - 1 else c.year
  let month := if c.month ≤ 2 then c.month + 9 else c.month - 3
  daysBefore year + (153 * month + 2) / 5 + c.day - 719469

/-- The days before a year, counted by what it is made of. -/
theorem daysBefore_eq {era century leap common : Int} (c : 0 ≤ century ∧ century ≤ 3)
    (l : 0 ≤ leap ∧ leap ≤ 24) (r : 0 ≤ common ∧ common ≤ 3) :
    daysBefore (400 * era + 100 * century + 4 * leap + common) =
      146097 * era + 36524 * century + 1461 * leap + 365 * common := by
  have fourth : (400 * era + 100 * century + 4 * leap + common) / 4 =
      100 * era + 25 * century + leap := by omega
  have hundredth : (400 * era + 100 * century + 4 * leap + common) / 100 =
      4 * era + century := by omega
  have last : (400 * era + 100 * century + 4 * leap + common) / 400 = era := by omega
  rw [daysBefore, fourth, hundredth, last]
  omega

theorem yearDay_day (days : Int) : 0 ≤ (yearDay days).day ∧ (yearDay days).day ≤ 365 := by
  simp only [yearDay]
  omega

/-- Every day is a day of its year. -/
theorem daysBefore_yearDay (days : Int) :
    daysBefore (yearDay days).year + (yearDay days).day = days := by
  simp only [yearDay]
  rw [daysBefore_eq (by omega) (by omega) (by omega)]
  omega

theorem civil_month (days : Int) : 1 ≤ (civil days).month ∧ (civil days).month ≤ 12 := by
  have range := yearDay_day (days + 719468)
  simp only [civil]
  split <;> dsimp only <;> omega

theorem civil_day (days : Int) : 1 ≤ (civil days).day ∧ (civil days).day ≤ 31 := by
  have range := yearDay_day (days + 719468)
  simp only [civil]
  split <;> dsimp only <;> omega

/-- A date tells its day. -/
theorem dayNumber_civil (days : Int) : dayNumber (civil days) = days := by
  have range := yearDay_day (days + 719468)
  have whole := daysBefore_yearDay (days + 719468)
  simp only [civil]
  generalize yearDay (days + 719468) = d at range whole
  split
  · next early =>
    have march : ¬(5 * d.day + 2) / 153 + 3 ≤ 2 := by omega
    simp only [dayNumber, if_neg march]
    omega
  · next late =>
    have january : (5 * d.day + 2) / 153 - 9 ≤ 2 := by omega
    have same : d.year + 1 - 1 = d.year := by omega
    simp only [dayNumber, if_pos january, same]
    omega

example : civil (-1) = ⟨1969, 12, 31⟩ ∧ civil 11016 = ⟨2000, 2, 29⟩ ∧ civil 15849 = ⟨2013, 5, 24⟩ := by
  decide

end Hwfa.Calendar
