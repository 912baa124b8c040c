import TkbCherry.Registry.ExpiryParse

/-!
# The instant of a plan expiry

A valid text stands for an instant, and the expiry is its whole milliseconds since the epoch. An
instant before the epoch counts as the epoch.
-/

namespace TkbCherry.Registry

set_option autoImplicit false

open Text Calendar

/-! ### Instants -/

/-- The digits after the point. -/
def fractionValue : List (Fin 10) → ℚ
  | [] => 0
  | d :: rest => (d.val + fractionValue rest) / 10

namespace StampFields
variable (stamp : StampFields)

/-- The time, midnight where there is none. -/
def clock : TimeOfDay := stamp.time.elim {} ClockFields.value

def fraction : List (Fin 10) := stamp.time.elim [] ClockFields.fraction

/-- Whole seconds from the epoch to the stamp's second. -/
def seconds : ℤ :=
  daysSince1970 stamp.year stamp.month stamp.day * 86400 +
    (stamp.clock.hour * 3600 + stamp.clock.minute * 60 + stamp.clock.second) -
      stamp.clock.offsetSeconds

/-- Milliseconds from the epoch to the instant. -/
def millis : ℚ := (stamp.seconds + fractionValue stamp.fraction) * 1000

end StampFields

theorem fractionValue_bounds (fraction : List (Fin 10)) :
    0 ≤ fractionValue fraction ∧ fractionValue fraction < 1 := by
  induction fraction with
  | nil => simp [fractionValue]
  | cons d rest ih =>
    have hd : (d.val : ℚ) ≤ 9 := by exact_mod_cast Nat.le_of_lt_succ d.isLt
    have hd0 : (0 : ℚ) ≤ d.val := Nat.cast_nonneg _
    rw [fractionValue]
    constructor
    · apply div_nonneg _ (by norm_num)
      linarith
    · rw [div_lt_one (by norm_num)]
      linarith

/-- The milliseconds that are read are the whole ones of the fraction. -/
theorem readMillis_bounds (fraction : List (Fin 10)) :
    (readMillis fraction : ℚ) ≤ fractionValue fraction * 1000 ∧
      fractionValue fraction * 1000 < readMillis fraction + 1 := by
  rcases fraction with _ | ⟨a, _ | ⟨b, _ | ⟨c, rest⟩⟩⟩
  · simp [fractionValue, readMillis]
  · simp only [fractionValue, readMillis]
    push_cast
    constructor <;> linarith
  · simp only [fractionValue, readMillis]
    push_cast
    constructor <;> linarith
  · have h := fractionValue_bounds rest
    simp only [fractionValue, readMillis]
    push_cast
    constructor <;> linarith

theorem readMillis_range (fraction : List (Fin 10)) :
    0 ≤ readMillis fraction ∧ readMillis fraction ≤ 999 := by
  rcases fraction with _ | ⟨a, _ | ⟨b, _ | ⟨c, rest⟩⟩⟩ <;> simp only [readMillis] <;> omega

theorem daysSince1970_range {year month day : ℕ} (hdate : IsDate year month day)
    (hyear : year < 10000) : -719528 ≤ daysSince1970 year month day ∧
      daysSince1970 year month day ≤ 3000000 := by
  have hyears := sum_yearLength year
  have hmonths := sum_monthLength year hdate.month_pos hdate.month_le
  have hday := hdate.day_le.trans (monthLength_le year month)
  have hle := hdate.month_le
  have hmonths' : (∑ m ∈ Finset.Ico 1 month, monthLength year m) ≤ 400 := by
    rw [hmonths]
    split
    · omega
    · split <;> omega
  rw [daysSince1970, dayNumber_1970, dayNumber]
  omega

namespace StampFields
variable {stamp : StampFields}

theorem clock_millis : stamp.clock.millis = readMillis stamp.fraction := by
  rw [clock, fraction]
  cases stamp.time <;> rfl

theorem clock_range (h : stamp.Valid) :
    (0 ≤ stamp.clock.hour ∧ stamp.clock.hour ≤ 23) ∧
    (0 ≤ stamp.clock.minute ∧ stamp.clock.minute ≤ 59) ∧
    (0 ≤ stamp.clock.second ∧ stamp.clock.second ≤ 59) ∧
    (-86400 < stamp.clock.offsetSeconds ∧ stamp.clock.offsetSeconds < 86400) := by
  cases htime : stamp.time with
  | none => simp [clock, htime]
  | some time =>
    obtain ⟨hhour, hminute, hsecond, hzone⟩ := h.time time htime
    simp only [clock, htime, Option.elim_some, ClockFields.value]
    refine ⟨by omega, by omega, ?_, ?_⟩
    · cases hs : time.second with
      | none => simp
      | some s =>
        have h59 := hsecond s hs
        simp only [Option.elim_some]
        omega
    · cases hz : time.zone with
      | none => simp
      | some z =>
        have hvalid := hzone z hz
        cases z with
        | utc upper => simp [Zone.seconds]
        | shift west hours minutes =>
          obtain ⟨hh, hm⟩ := hvalid
          simp only [Option.elim_some, Zone.seconds]
          split <;> omega

/-- The expiry in whole milliseconds, not before the epoch. -/
theorem floor_millis : ⌊stamp.millis⌋₊ = (max (stamp.seconds * 1000 + stamp.clock.millis) 0).toNat := by
  have hbounds := readMillis_bounds stamp.fraction
  have hfloor : ⌊stamp.millis⌋ = stamp.seconds * 1000 + stamp.clock.millis := by
    rw [Int.floor_eq_iff, clock_millis, millis]
    push_cast
    constructor <;> linarith
  rw [← Int.floor_toNat, hfloor]
  omega

/-! ### Parsing -/

def timeBytes (stamp : StampFields) : List UInt8 := stamp.time.elim [] ClockFields.bytes

theorem bytes_eq (stamp : StampFields) : stamp.bytes =
    (digits 4 stamp.year ++ dash :: (digits 2 stamp.month ++ dash :: digits 2 stamp.day)) ++
      stamp.timeBytes := by
  simp only [bytes, timeBytes, List.append_assoc, List.cons_append]

theorem timeOfDay_stamp (stamp : StampFields) {front : List UInt8} (hlen : front.length = 10) :
    ((∀ time, stamp.time = some time → time.Valid) →
      timeOfDay (front ++ stamp.timeBytes) = some stamp.clock) ∧
    (¬ (∀ time, stamp.time = some time → time.Valid) →
      timeOfDay (front ++ stamp.timeBytes) = none) := by
  rw [timeBytes, clock]
  cases stamp.time with
  | none =>
    refine ⟨fun _ => if_pos ?_, fun hno => absurd (fun time htime => by cases htime) hno⟩
    rw [List.length_append, hlen]
    rfl
  | some time =>
    obtain ⟨hvalid, hinvalid⟩ := timeOfDay_bytes hlen time
    have hiff : (∀ time', some time = some time' → time'.Valid) ↔ time.Valid := by simp
    rw [hiff]
    exact ⟨hvalid, hinvalid⟩

/-- Up to the day the text is read as it is written. -/
theorem planExpiryMillis_eq {raw : String} (h : Text.bytes (trim raw) = stamp.bytes) :
    planExpiryMillis raw = (do
      let days ← daysInMonth stamp.year.val stamp.month.val
      if (stamp.day.val : ℤ) < 1 ∨ (stamp.day.val : ℤ) > days then none
      else do
        let time ← timeOfDay stamp.bytes
        let seconds ← checkedI64
          (civilDaysSinceUnixEpoch stamp.year.val stamp.month.val stamp.day.val * 86400)
        let seconds ← checkedI64 (seconds + (time.hour * 3600 + time.minute * 60 + time.second))
        let seconds ← checkedI64 (seconds - time.offsetSeconds)
        let total ← checkedI64 (seconds * 1000)
        let total ← checkedI64 (total + time.millis)
        some (max total 0).toNat) := by
  have hyear : slice stamp.bytes 0 4 = digits 4 stamp.year :=
    slice_field [] (digits 4 stamp.year) _ rfl (length_digits 4 _)
  have hmonth : slice stamp.bytes 5 7 = digits 2 stamp.month := by
    rw [bytes, List.append_cons]
    exact slice_field _ (digits 2 stamp.month) _ (by simp) (by simp)
  have hday : slice stamp.bytes 8 10 = digits 2 stamp.day := by
    rw [bytes, List.append_cons, List.append_cons (digits 2 stamp.month), ← List.append_assoc]
    exact slice_field _ (digits 2 stamp.day) _ (by simp) (by simp)
  have hdash : stamp.bytes[4]? = some dash := getElem?_here (length_digits 4 _)
  have hdash' : stamp.bytes[7]? = some dash := by
    rw [bytes, List.append_cons, ← List.append_assoc]
    exact getElem?_here (by simp)
  have hlong : ¬ stamp.bytes.length < 10 := by
    rw [bytes_eq]
    simp only [List.length_append, List.length_cons, length_digits]
    omega
  have hguard : ¬ (stamp.bytes.length < 10 ∨ some dash ≠ some dash ∨ some dash ≠ some dash) := by
    simp [hlong]
  have hyear' : asciiDecimal (digits 4 stamp.year) = some (stamp.year.val : ℤ) :=
    asciiDecimal_digits (by decide) (by decide) stamp.year.isLt
  simp only [planExpiryMillis, h, hdash, hdash']
  rw [if_neg hguard, hyear, hmonth, hday, hyear', asciiDecimal_two, asciiDecimal_two]
  rfl

/-- A valid text is read as its instant. -/
theorem planExpiryMillis_of_valid {raw : String} (h : Text.bytes (trim raw) = stamp.bytes)
    (hvalid : stamp.Valid) : planExpiryMillis raw = some ⌊stamp.millis⌋₊ := by
  have hdate := hvalid.date
  have hclock : timeOfDay stamp.bytes = some stamp.clock := by
    rw [bytes_eq]
    exact (stamp.timeOfDay_stamp (by simp)).1 hvalid.time
  have hday : ¬ ((stamp.day.val : ℤ) < 1 ∨
      (stamp.day.val : ℤ) > (monthLength stamp.year stamp.month : ℤ)) := by
    have hpos := hdate.day_pos
    have hle := hdate.day_le
    omega
  obtain ⟨hlo, hhi⟩ := daysSince1970_range hdate stamp.year.isLt
  obtain ⟨⟨h0, h1⟩, ⟨m0, m1⟩, ⟨s0, s1⟩, o0, o1⟩ := clock_range hvalid
  have hmillis := readMillis_range stamp.fraction
  rw [← clock_millis] at hmillis
  have hseconds : daysSince1970 stamp.year stamp.month stamp.day * 86400 +
      (stamp.clock.hour * 3600 + stamp.clock.minute * 60 + stamp.clock.second) -
        stamp.clock.offsetSeconds = stamp.seconds := rfl
  rw [planExpiryMillis_eq h, daysInMonth_eq _ hdate.month_pos hdate.month_le,
    Option.bind_eq_bind, Option.bind_some, if_neg hday, hclock, Option.bind_eq_bind, Option.bind_some,
    civilDaysSinceUnixEpoch_eq hdate, checkedI64_of_le (by omega) (by omega),
    Option.bind_some, checkedI64_of_le (by omega) (by omega), Option.bind_some,
    checkedI64_of_le (by omega) (by omega), Option.bind_some, checkedI64_of_le (by omega) (by omega),
    Option.bind_some, checkedI64_of_le (by omega) (by omega), Option.bind_some, hseconds, floor_millis]

/-- A field out of its range is refused. -/
theorem planExpiryMillis_of_invalid {raw : String} (h : Text.bytes (trim raw) = stamp.bytes)
    (hinvalid : ¬ stamp.Valid) : planExpiryMillis raw = none := by
  rw [planExpiryMillis_eq h]
  by_cases hmonth : 1 ≤ stamp.month.val ∧ stamp.month.val ≤ 12
  · rw [daysInMonth_eq _ hmonth.1 hmonth.2, Option.bind_eq_bind, Option.bind_some]
    split
    · rfl
    · rename_i hday
      have hdate : IsDate stamp.year stamp.month stamp.day :=
        ⟨hmonth.1, hmonth.2, by omega, by omega⟩
      have hclock : timeOfDay stamp.bytes = none := by
        rw [bytes_eq]
        exact (stamp.timeOfDay_stamp (by simp)).2 fun htime => hinvalid ⟨hdate, htime⟩
      rw [hclock]
      rfl
  · rw [daysInMonth_eq_none _ hmonth]
    rfl

/-- Only the text of a timestamp is accepted. -/
theorem exists_of_planExpiryMillis {raw : String} {v : ℕ} (h : planExpiryMillis raw = some v) :
    ∃ stamp : StampFields, Text.bytes (trim raw) = stamp.bytes := by
  rw [planExpiryMillis] at h
  split at h
  · cases h
  · rename_i hguard
    simp only [not_or, not_lt, not_not] at hguard
    obtain ⟨hlong, hdash, hdash'⟩ := hguard
    obtain ⟨year, hyear, h⟩ := Option.bind_eq_some_iff.mp h
    obtain ⟨month, hmonth, h⟩ := Option.bind_eq_some_iff.mp h
    obtain ⟨day, hday, h⟩ := Option.bind_eq_some_iff.mp h
    obtain ⟨days, _, h⟩ := Option.bind_eq_some_iff.mp h
    split at h
    · cases h
    · obtain ⟨time, htime, _⟩ := Option.bind_eq_some_iff.mp h
      generalize Text.bytes (trim raw) = text at *
      obtain ⟨hsplit, hwidth⟩ := slice_append_drop (Nat.zero_le 4) (by omega : 4 ≤ text.length)
      obtain ⟨y, hy, hyear⟩ := exists_of_asciiDecimal hyear
      rw [hwidth] at hy hyear
      obtain ⟨mm, hmonth⟩ := exists_two (by omega) hmonth
      obtain ⟨dd, hday⟩ := exists_two (by omega) hday
      have htake : (text.take 10).length = 10 := by
        rw [List.length_take]
        omega
      rw [← List.take_append_drop 10 text] at htime
      obtain ⟨clock, hclock⟩ := exists_of_timeOfDay htake htime
      refine ⟨⟨⟨y, hy⟩, mm, dd, clock⟩, ?_⟩
      calc text = digits 4 y ++ text.drop 4 := by rw [← hyear, hsplit, List.drop_zero]
        _ = digits 4 y ++ dash :: (digits 2 mm ++ text.drop 7) := by
          rw [drop_of_getElem? hdash, hmonth]
        _ = digits 4 y ++ dash :: (digits 2 mm ++ dash :: (digits 2 dd ++ text.drop 10)) := by
          rw [drop_of_getElem? hdash', hday]
        _ = _ := by rw [hclock]; rfl

end StampFields

/-- A text is read exactly when it is that of a valid timestamp, and then as the whole milliseconds
from the epoch to its instant. -/
theorem planExpiryMillis_reads (raw : String) :
    (∀ stamp : StampFields, Text.bytes (trim raw) = stamp.bytes →
      (stamp.Valid → planExpiryMillis raw = some ⌊stamp.millis⌋₊) ∧
      (¬ stamp.Valid → planExpiryMillis raw = none)) ∧
    ((∀ stamp : StampFields, Text.bytes (trim raw) ≠ stamp.bytes) → planExpiryMillis raw = none) := by
  constructor
  · intro stamp h
    exact ⟨StampFields.planExpiryMillis_of_valid h, StampFields.planExpiryMillis_of_invalid h⟩
  · intro hno
    cases hread : planExpiryMillis raw with
    | none => rfl
    | some v =>
      obtain ⟨stamp, h⟩ := StampFields.exists_of_planExpiryMillis hread
      exact absurd h (hno stamp)

/-- `2026-08-03T19:34:56.789+07:00`. -/
def summerStamp : StampFields :=
  ⟨2026, 8, 3, some ⟨.upper, 19, 34, some 56, [7, 8, 9], some (.shift false 7 0)⟩⟩

theorem summerStamp_valid : summerStamp.Valid where
  date := ⟨by decide, by decide, by decide, by decide⟩
  time := by
    intro time htime
    cases htime
    refine ⟨by decide, by decide, fun s hs => ?_, fun z hz => ?_⟩
    · cases hs
      decide
    · cases hz
      decide

theorem summerStamp_reads :
    planExpiryMillis " 2026-08-03T19:34:56.789+07:00" = some ⌊summerStamp.millis⌋₊ ∧
    planExpiryMillis "2026-13-01" = none ∧ planExpiryMillis "not-a-date" = none := by
  refine ⟨?_, ?_, ?_⟩
  · exact ((planExpiryMillis_reads _).1 summerStamp (by decide)).1 summerStamp_valid
  · apply ((planExpiryMillis_reads _).1 ⟨2026, 13, 1, none⟩ (by decide)).2
    intro h
    have hmonth := h.date.month_le
    revert hmonth
    decide
  · apply (planExpiryMillis_reads _).2
    intro stamp h
    have hdash : stamp.bytes[4]? = some dash := getElem?_here (length_digits 4 _)
    rw [← h] at hdash
    revert hdash
    decide

/-- A minute before the epoch: `1970-01-01T00:00:00+00:01`. -/
def earlyStamp : StampFields := ⟨1970, 1, 1, some ⟨.upper, 0, 0, some 0, [], some (.shift false 0 1)⟩⟩

theorem earlyStamp_valid : earlyStamp.Valid where
  date := ⟨by decide, by decide, by decide, by decide⟩
  time := by
    intro time htime
    cases htime
    refine ⟨by decide, by decide, fun s hs => ?_, fun z hz => ?_⟩
    · cases hs
      decide
    · cases hz
      decide

/-- An instant before the epoch is read as the epoch, and a leap second is refused. -/
theorem instant_clamped :
    (Text.bytes (trim "1970-01-01T00:00:00+00:01") = earlyStamp.bytes ∧ earlyStamp.Valid ∧
      earlyStamp.millis = -60000 ∧ planExpiryMillis "1970-01-01T00:00:00+00:01" = some 0) ∧
    planExpiryMillis "2016-12-31T23:59:60Z" = none := by
  refine ⟨⟨by decide, earlyStamp_valid, ?_, by decide⟩, by decide⟩
  have hseconds : earlyStamp.seconds = -60 := by
    have hdays : daysSince1970 (1970 : Fin 10000).val (1 : Fin 100).val (1 : Fin 100).val = 0 :=
      sub_self _
    show daysSince1970 (1970 : Fin 10000).val (1 : Fin 100).val (1 : Fin 100).val * 86400 +
      (0 * 3600 + 0 * 60 + 0) - 60 = -60
    rw [hdays]
    norm_num
  have hfraction : fractionValue earlyStamp.fraction = 0 := rfl
  rw [StampFields.millis, hseconds, hfraction]
  norm_num

end TkbCherry.Registry
