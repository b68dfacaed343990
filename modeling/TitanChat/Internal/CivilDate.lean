import Mathlib.Data.Int.Notation

/-!
# The civil date of a day

A day number is turned into a year, a month and a day of the proleptic Gregorian calendar. The
years are those of 400 years each that begin in March, so that the leap day is the last of its year:
the day is taken apart into an era, a year of the era and a day of the year, and this into a month
and a day of the month. What is needed of it is that no two days have the same date.

## Main definitions

* `CivilDate.yearOfEra`, `CivilDate.dayOfYear`, `CivilDate.ofDays`

## Main results

* `yearOfEra_range`, `dayOfYear_range`: there are 400 years, and none is longer than 366 days
* `ofDays_injective`: a date belongs to one day
-/

namespace CivilDate

/-- The year of a day of an era. -/
def yearOfEra (doe : ℤ) : ℤ := (doe - doe / 1460 + doe / 36524 - doe / 146096) / 365

/-- The day of its year, which begins in March. -/
def dayOfYear (doe : ℤ) : ℤ :=
  doe - (365 * yearOfEra doe + yearOfEra doe / 4 - yearOfEra doe / 100)

/-- The month of a day of a year, from March on. -/
def monthIndex (doe : ℤ) : ℤ := (5 * dayOfYear doe + 2) / 153

structure Date where
  year : ℤ
  month : ℤ
  day : ℤ
  deriving DecidableEq

/-- The date of a day, which is counted from 1 March of the year 0. -/
def ofDays (z : ℤ) : Date :=
  let doe := z % 146097
  let month := if monthIndex doe < 10 then monthIndex doe + 3 else monthIndex doe - 9
  { year := yearOfEra doe + z / 146097 * 400 + if month ≤ 2 then 1 else 0
    month := month
    day := dayOfYear doe - (153 * monthIndex doe + 2) / 5 + 1 }

section Range

variable {doe : ℤ}

theorem yearOfEra_range (h : 0 ≤ doe) (h' : doe < 146097) :
    0 ≤ yearOfEra doe ∧ yearOfEra doe ≤ 399 := by
  rw [yearOfEra]
  constructor <;> omega

/-- The century of a year is that of its days. -/
theorem yearOfEra_div_hundred (h : 0 ≤ doe) (h' : doe < 146096) :
    yearOfEra doe / 100 = doe / 36524 := by
  have hlow : 36500 * (doe / 36524) ≤ doe - doe / 1460 + doe / 36524 := by omega
  -- the days of four years before the end of the century
  have hhigh : doe - doe / 1460 + doe / 36524 < 36500 * (doe / 36524 + 1) := by
    by_cases hlast : 36500 * (doe / 36524 + 1) ≤ doe
    · omega
    · omega
  rw [yearOfEra]
  omega

theorem dayOfYear_range (h : 0 ≤ doe) (h' : doe < 146097) :
    0 ≤ dayOfYear doe ∧ dayOfYear doe ≤ 366 := by
  by_cases hlt : doe < 146096
  · have hcentury := yearOfEra_div_hundred h hlt
    have hfour : 4 * (yearOfEra doe / 4) ≤ yearOfEra doe ∧
        yearOfEra doe < 4 * (yearOfEra doe / 4) + 4 := by omega
    -- the length of a year, up to the leap days
    have hyear : 365 * yearOfEra doe ≤ doe - doe / 1460 + doe / 36524 ∧
        doe - doe / 1460 + doe / 36524 < 365 * yearOfEra doe + 365 := by
      rw [yearOfEra]
      omega
    have hleast : yearOfEra doe / 4 ≤ doe / 1460 := by omega
    have hmost : doe / 1460 ≤ yearOfEra doe / 4 + 1 := by omega
    rw [dayOfYear, hcentury]
    omega
  · obtain rfl : doe = 146096 := by omega
    decide

theorem monthIndex_range (h : 0 ≤ doe) (h' : doe < 146097) :
    0 ≤ monthIndex doe ∧ monthIndex doe ≤ 11 := by
  have hday := dayOfYear_range h h'
  rw [monthIndex]
  omega

end Range

/-- The month and the day have two digits, and the year is not negative. -/
theorem ofDays_range {z : ℤ} (h : 0 ≤ z) : 0 ≤ (ofDays z).year ∧
    (0 ≤ (ofDays z).month ∧ (ofDays z).month < 100) ∧
      0 ≤ (ofDays z).day ∧ (ofDays z).day < 100 := by
  have hera : 0 ≤ z % 146097 ∧ z % 146097 < 146097 := by omega
  have hyear := yearOfEra_range hera.1 hera.2
  have hday := dayOfYear_range hera.1 hera.2
  have hmonth := monthIndex_range hera.1 hera.2
  simp only [ofDays]
  refine ⟨?_, ?_, ?_⟩
  · split <;> omega
  · split <;> omega
  · rw [monthIndex]
    omega

/-- **No two days have the same date.** -/
theorem ofDays_injective {z w : ℤ} (h : ofDays z = ofDays w) : z = w := by
  have hz : 0 ≤ z % 146097 ∧ z % 146097 < 146097 := by omega
  have hw : 0 ≤ w % 146097 ∧ w % 146097 < 146097 := by omega
  have hyz := yearOfEra_range hz.1 hz.2
  have hyw := yearOfEra_range hw.1 hw.2
  have hmz := monthIndex_range hz.1 hz.2
  have hmw := monthIndex_range hw.1 hw.2
  simp only [ofDays, Date.mk.injEq] at h
  obtain ⟨hyear, hmonth, hday⟩ := h
  have hindex : monthIndex (z % 146097) = monthIndex (w % 146097) := by
    split at hmonth <;> split at hmonth <;> omega
  rw [hindex] at hyear hday
  have hera : z / 146097 = w / 146097 := by omega
  have hof : yearOfEra (z % 146097) = yearOfEra (w % 146097) := by omega
  have hdayz : dayOfYear (z % 146097) = dayOfYear (w % 146097) := by omega
  rw [dayOfYear, dayOfYear, hof] at hdayz
  omega

end CivilDate
