import TkbCherry.Lib.Calendar
import TkbCherry.Registry.PlanExpiry

/-!
# Days of a plan expiry

The day arithmetic of `plan_expiry_millis` is that of the calendar.
-/

namespace TkbCherry.Registry

set_option autoImplicit false

open Calendar

theorem daysInMonth_eq {month : ℕ} (year : ℕ) (hpos : 1 ≤ month) (hle : month ≤ 12) :
    daysInMonth year month = some (monthLength year month : ℤ) := by
  have h4 : ((year : ℤ).tmod 4 = 0) = (year % 4 = 0) := by
    rw [Int.tmod_eq_emod_of_nonneg (Int.natCast_nonneg _)]
    exact propext (by omega)
  have h100 : ((year : ℤ).tmod 100 ≠ 0) = (year % 100 ≠ 0) := by
    rw [Int.tmod_eq_emod_of_nonneg (Int.natCast_nonneg _)]
    exact propext (by omega)
  have h400 : ((year : ℤ).tmod 400 = 0) = (year % 400 = 0) := by
    rw [Int.tmod_eq_emod_of_nonneg (Int.natCast_nonneg _)]
    exact propext (by omega)
  have hleap : (decide ((year : ℤ).tmod 4 = 0) &&
      (decide ((year : ℤ).tmod 100 ≠ 0) || decide ((year : ℤ).tmod 400 = 0))) = leap year := by
    simp only [leap, h4, h100, h400]
  simp only [daysInMonth, hleap]
  interval_cases month <;> simp [monthLength]

theorem daysInMonth_eq_none {month : ℕ} (year : ℕ) (h : ¬ (1 ≤ month ∧ month ≤ 12)) :
    daysInMonth year month = none := by
  have h0 : (month : ℤ) ∉ ([1, 3, 5, 7, 8, 10, 12] : List ℤ) := by
    simp only [List.mem_cons, List.not_mem_nil, or_false]
    omega
  have h1 : (month : ℤ) ∉ ([4, 6, 9, 11] : List ℤ) := by
    simp only [List.mem_cons, List.not_mem_nil, or_false]
    omega
  simp only [daysInMonth]
  rw [if_neg h0, if_neg h1, if_neg (by omega)]

/-- The quotient that the era is read off rounds down. -/
theorem era_eq (year : ℤ) : (if year ≥ 0 then year else year - 399).tdiv 400 = year / 400 := by
  split
  · rename_i h
    exact Int.tdiv_eq_ediv_of_nonneg h
  · rename_i h
    have hneg : (-(year - 399)).tdiv 400 = -(year - 399) / 400 :=
      Int.tdiv_eq_ediv_of_nonneg (by omega)
    rw [Int.neg_tdiv] at hneg
    omega

/-- The days before the March of a year, by eras of four hundred years. -/
def marchDays (year : ℤ) : ℤ := 365 * year + year / 4 - year / 100 + year / 400

theorem marchDays_eq (year : ℤ) : year / 400 * 146097 + ((year - year / 400 * 400) * 365 +
    (year - year / 400 * 400) / 4 - (year - year / 400 * 400) / 100) = marchDays year := by
  have h4 : year / 4 = year / 400 * 100 + (year - year / 400 * 400) / 4 := by omega
  have h100 : year / 100 = year / 400 * 4 + (year - year / 400 * 400) / 100 := by omega
  rw [marchDays, h4, h100]
  ring

theorem marchDays_before (year : ℕ) :
    marchDays (year - 1) + 366 = ((∑ y ∈ Finset.range year, yearLength y : ℕ) : ℤ) := by
  have hyears := sum_yearLength year
  rw [marchDays]
  omega

theorem marchDays_after (year : ℕ) : marchDays year + (if leap year then 0 else 1) =
    ((∑ y ∈ Finset.range year, yearLength y : ℕ) : ℤ) := by
  have hyears := sum_yearLength year
  rw [marchDays]
  split
  · rename_i h
    have hl := leap_iff.mp h
    omega
  · rename_i h
    have hl := mt leap_iff.mpr h
    omega

/-- The days of a year from March on, before a month. -/
theorem monthDays_eq (year : ℕ) {month : ℕ} (hpos : 1 ≤ month) (hle : month ≤ 12) :
    ((∑ m ∈ Finset.Ico 1 month, monthLength year m : ℕ) : ℤ) =
      if month ≤ 2 then (153 * (month + 9 : ℤ) + 2) / 5 - 306
      else (if leap year then 60 else 59) + (153 * (month - 3 : ℤ) + 2) / 5 := by
  have hmonths := sum_monthLength year hpos hle
  rw [hmonths]
  split
  · omega
  · split <;> omega

/-- The civil formula counts the days of the calendar. -/
theorem civilDaysSinceUnixEpoch_eq {year month day : ℕ} (hdate : IsDate year month day) :
    civilDaysSinceUnixEpoch year month day = daysSince1970 year month day := by
  obtain ⟨hpos, hle, hday, _⟩ := hdate
  have hmonths := monthDays_eq year hpos hle
  have hera : ∀ y : ℤ, 0 ≤ y - y / 400 * 400 := fun y => by omega
  have hdays : ((dayNumber year month day : ℕ) : ℤ) =
      ((∑ y ∈ Finset.range year, yearLength y : ℕ) : ℤ) +
        ((∑ m ∈ Finset.Ico 1 month, monthLength year m : ℕ) : ℤ) + (day - 1) := by
    rw [dayNumber]
    omega
  rw [daysSince1970, dayNumber_1970, hdays]
  simp only [civilDaysSinceUnixEpoch, era_eq]
  by_cases h2 : month ≤ 2
  · have h2' : (month : ℤ) ≤ 2 := by omega
    have h3 : ¬ (month : ℤ) > 2 := by omega
    have hmarch := marchDays_eq ((year : ℤ) - 1)
    have hyears := marchDays_before year
    rw [if_pos h2] at hmonths
    rw [if_pos h2', if_neg h3, Int.tdiv_eq_ediv_of_nonneg (hera _),
      Int.tdiv_eq_ediv_of_nonneg (hera _), Int.tdiv_eq_ediv_of_nonneg (by omega), hmonths, ← hyears,
      ← hmarch]
    ring
  · have h2' : ¬ (month : ℤ) ≤ 2 := by omega
    have h3 : (month : ℤ) > 2 := by omega
    have hmarch := marchDays_eq (year : ℤ)
    have hyears := marchDays_after year
    have hshift : (month : ℤ) + -3 = month - 3 := by ring
    rw [if_neg h2] at hmonths
    rw [if_neg h2', if_pos h3, sub_zero, hshift, Int.tdiv_eq_ediv_of_nonneg (hera _),
      Int.tdiv_eq_ediv_of_nonneg (hera _), Int.tdiv_eq_ediv_of_nonneg (by omega), hmonths, ← hyears,
      ← hmarch]
    split <;> ring

end TkbCherry.Registry
