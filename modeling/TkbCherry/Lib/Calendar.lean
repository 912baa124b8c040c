import Mathlib

/-!
# The Gregorian calendar

Leap years, the lengths of years and months, and the number of days before a date, counted from
the first day of the year zero.
-/

namespace Calendar

set_option autoImplicit false

def leap (year : ℕ) : Bool :=
  decide (year % 4 = 0) && (decide (year % 100 ≠ 0) || decide (year % 400 = 0))

def yearLength (year : ℕ) : ℕ := if leap year then 366 else 365

def monthLength (year month : ℕ) : ℕ :=
  if month = 2 then if leap year then 29 else 28
  else if month = 4 ∨ month = 6 ∨ month = 9 ∨ month = 11 then 30 else 31

/-- A day of a month of a year. -/
structure IsDate (year month day : ℕ) : Prop where
  month_pos : 1 ≤ month
  month_le : month ≤ 12
  day_pos : 1 ≤ day
  day_le : day ≤ monthLength year month

/-- The years, the months and the days before a date. -/
def dayNumber (year month day : ℕ) : ℕ :=
  (∑ y ∈ Finset.range year, yearLength y) + (∑ m ∈ Finset.Ico 1 month, monthLength year m) + (day - 1)

/-- Days since the first of January 1970. -/
def daysSince1970 (year month day : ℕ) : ℤ := (dayNumber year month day : ℤ) - dayNumber 1970 1 1

theorem leap_iff {year : ℕ} :
    leap year = true ↔ year % 4 = 0 ∧ (year % 100 ≠ 0 ∨ year % 400 = 0) := by
  simp [leap]

/-- Every fourth year is longer by a day, but of the centuries only every fourth one. -/
theorem sum_yearLength (year : ℕ) : (∑ y ∈ Finset.range year, yearLength y) + (year + 99) / 100 =
    365 * year + (year + 3) / 4 + (year + 399) / 400 := by
  induction year with
  | zero => rfl
  | succ year ih =>
    rw [Finset.sum_range_succ, yearLength]
    by_cases h : leap year = true
    · rw [if_pos h]
      have hl := leap_iff.mp h
      omega
    · rw [if_neg h]
      have hl := mt leap_iff.mpr h
      omega

theorem monthLength_le (year month : ℕ) : monthLength year month ≤ 31 := by
  unfold monthLength
  split_ifs <;> omega

/-- The days of the year before a month, the year beginning in March. -/
theorem sum_monthLength (year : ℕ) {month : ℕ} (hpos : 1 ≤ month) (hle : month ≤ 12) :
    (∑ m ∈ Finset.Ico 1 month, monthLength year m) =
      if month ≤ 2 then 31 * (month - 1)
      else (if leap year then 60 else 59) + (153 * (month - 3) + 2) / 5 := by
  by_cases h : leap year = true
  · interval_cases month <;> simp [Finset.sum_Ico_succ_top, monthLength, h]
  · interval_cases month <;> simp [Finset.sum_Ico_succ_top, monthLength, h]

theorem dayNumber_1970 : dayNumber 1970 1 1 = 719528 := by
  have h := sum_yearLength 1970
  rw [dayNumber, Finset.Ico_self, Finset.sum_empty]
  omega

end Calendar
