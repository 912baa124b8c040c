import TkbCherry.Registry.ExpiryDays

/-!
# The text of a plan expiry

A date, and after it a time with optional seconds, fraction and zone, each field written with its
fixed number of digits. The parser reads such a text back and accepts no other.
-/

namespace TkbCherry.Registry

set_option autoImplicit false

open Text

/-! ### Digits -/

/-- The digits of a number, the leading zeros among them. -/
def digits : ℕ → ℕ → List UInt8
  | 0, _ => []
  | width + 1, n => digits width (n / 10) ++ [UInt8.ofNat (48 + n % 10)]

@[simp] theorem length_digits (width n : ℕ) : (digits width n).length = width := by
  induction width generalizing n with
  | zero => rfl
  | succ width ih => rw [digits, List.length_append, ih, List.length_singleton]

theorem toNat_digit {k : ℕ} (h : k < 10) : (UInt8.ofNat (48 + k)).toNat = 48 + k := by
  rw [UInt8.toNat_ofNat']
  omega

theorem isAsciiDigit_iff {b : UInt8} : isAsciiDigit b = true ↔ 48 ≤ b.toNat ∧ b.toNat ≤ 57 := by
  simp [isAsciiDigit, UInt8.le_iff_toNat_le]

theorem isAsciiDigit_digit {k : ℕ} (h : k < 10) : isAsciiDigit (UInt8.ofNat (48 + k)) = true := by
  rw [isAsciiDigit_iff, toNat_digit h]
  omega

theorem digitValue_digit {k : ℕ} (h : k < 10) : digitValue (UInt8.ofNat (48 + k)) = k := by
  rw [digitValue, toNat_digit h]
  omega

theorem exists_digit {b : UInt8} (h : isAsciiDigit b = true) : ∃ k < 10, b = UInt8.ofNat (48 + k) := by
  obtain ⟨hlo, hhi⟩ := isAsciiDigit_iff.mp h
  refine ⟨b.toNat - 48, by omega, ?_⟩
  apply UInt8.toNat_inj.mp
  rw [toNat_digit (by omega)]
  omega

theorem isAsciiDigit_of_mem_digits {width n : ℕ} {b : UInt8} (h : b ∈ digits width n) :
    isAsciiDigit b = true := by
  induction width generalizing n with
  | zero => cases h
  | succ width ih =>
    rw [digits, List.mem_append, List.mem_singleton] at h
    cases h with
    | inl h => exact ih h
    | inr h => rw [h]; exact isAsciiDigit_digit (Nat.mod_lt _ (by decide))

theorem exists_digits {width : ℕ} {bytes : List UInt8} (hlen : bytes.length = width)
    (hall : ∀ b ∈ bytes, isAsciiDigit b = true) : ∃ n < 10 ^ width, bytes = digits width n := by
  induction width generalizing bytes with
  | zero => exact ⟨0, by norm_num, List.length_eq_zero_iff.mp hlen⟩
  | succ width ih =>
    rcases List.eq_nil_or_concat bytes with rfl | ⟨front, last, rfl⟩
    · simp at hlen
    · rw [List.concat_eq_append] at hlen hall ⊢
      have hfront : front.length = width := by simpa using hlen
      obtain ⟨n, hn, hdigits⟩ := ih hfront fun b hb => hall b (List.mem_append_left _ hb)
      obtain ⟨k, hk, hlast⟩ := exists_digit (hall last (by simp))
      refine ⟨n * 10 + k, by rw [pow_succ]; omega, ?_⟩
      have hdiv : (n * 10 + k) / 10 = n := by omega
      have hmod : (n * 10 + k) % 10 = k := by omega
      rw [digits, hdiv, hmod, ← hdigits, hlast]

theorem two_pow_63 : (2 : ℤ) ^ 63 = 9223372036854775808 := by norm_num

theorem checkedI64_of_le {n : ℤ} (hlo : -1000000000000000 ≤ n) (hhi : n ≤ 1000000000000000) :
    checkedI64 n = some n := by
  have h : -(2 ^ 63) ≤ n ∧ n < 2 ^ 63 := by
    rw [two_pow_63]
    omega
  rw [checkedI64, if_pos h]

/-- The loop body of the decimal reader. -/
def readByte (value : ℤ) (byte : UInt8) : Option ℤ := do
  let value ← checkedI64 (value * 10)
  checkedI64 (value + digitValue byte)

theorem asciiDecimal_eq {bytes : List UInt8} (hne : bytes ≠ [])
    (hall : ∀ b ∈ bytes, isAsciiDigit b = true) : asciiDecimal bytes = bytes.foldlM readByte 0 := by
  have hempty : bytes.isEmpty = false := by
    cases bytes with
    | nil => exact absurd rfl hne
    | cons b bytes => rfl
  have hany : (bytes.any fun byte => !isAsciiDigit byte) = false := by
    rw [List.any_eq_false]
    intro b hb
    simp [hall b hb]
  rw [asciiDecimal, hempty, hany]
  rfl

theorem readByte_digit {n : ℕ} (hn : n < 1000000000) :
    readByte (n / 10 : ℕ) (UInt8.ofNat (48 + n % 10)) = some (n : ℤ) := by
  have hmul : checkedI64 ((n / 10 : ℕ) * 10 : ℤ) = some ((n / 10 : ℕ) * 10 : ℤ) :=
    checkedI64_of_le (by omega) (by omega)
  have heq : ((n / 10 : ℕ) * 10 + (n % 10 : ℕ) : ℤ) = n := by omega
  rw [readByte, hmul, Option.bind_eq_bind, Option.bind_some,
    digitValue_digit (Nat.mod_lt _ (by decide)), heq]
  exact checkedI64_of_le (by omega) (by omega)

theorem foldlM_readByte {width n : ℕ} (hwidth : width ≤ 9) (hn : n < 10 ^ width) :
    (digits width n).foldlM readByte 0 = some (n : ℤ) := by
  induction width generalizing n with
  | zero =>
    have h0 : n = 0 := Nat.lt_one_iff.mp hn
    rw [h0]
    rfl
  | succ width ih =>
    have hpow : 10 ^ (width + 1) ≤ 10 ^ 9 := Nat.pow_le_pow_right (by decide) hwidth
    have hlt : n < 1000000000 := by omega
    rw [pow_succ] at hn
    rw [digits, List.foldlM_append, ih (by omega) (by omega), Option.bind_eq_bind, Option.bind_some,
      List.foldlM_cons, readByte_digit hlt]
    rfl

/-- The decimal reader on the digits of a number. -/
theorem asciiDecimal_digits {width n : ℕ} (hpos : 0 < width) (hwidth : width ≤ 9)
    (hn : n < 10 ^ width) : asciiDecimal (digits width n) = some (n : ℤ) := by
  have hne : digits width n ≠ [] := by
    intro hnil
    have hlen := length_digits width n
    rw [hnil, List.length_nil] at hlen
    omega
  rw [asciiDecimal_eq hne fun b hb => isAsciiDigit_of_mem_digits hb, foldlM_readByte hwidth hn]

theorem exists_of_asciiDecimal {bytes : List UInt8} {v : ℤ} (h : asciiDecimal bytes = some v) :
    ∃ n < 10 ^ bytes.length, bytes = digits bytes.length n := by
  apply exists_digits rfl
  intro b hb
  by_contra hno
  have hany : (bytes.any fun byte => !isAsciiDigit byte) = true :=
    List.any_eq_true.mpr ⟨b, hb, by simpa using hno⟩
  rw [asciiDecimal, hany, Bool.or_true, if_pos rfl] at h
  cases h

/-! ### Fields -/

inductive Separator where
  | upper
  | lower
  | blank
deriving DecidableEq, Repr

inductive Zone where
  | utc (upper : Bool)
  | shift (west : Bool) (hours minutes : Fin 100)
deriving DecidableEq, Repr

/-- The digits of the fraction are none where it is left out. -/
structure ClockFields where
  separator : Separator
  hour : Fin 100
  minute : Fin 100
  second : Option (Fin 100)
  fraction : List (Fin 10)
  zone : Option Zone
deriving DecidableEq, Repr

structure StampFields where
  year : Fin 10000
  month : Fin 100
  day : Fin 100
  time : Option ClockFields
deriving DecidableEq, Repr

namespace Separator

def byte : Separator → UInt8
  | upper => 84
  | lower => 116
  | blank => 32

end Separator

namespace Zone

def bytes : Zone → List UInt8
  | utc upper => [if upper then 90 else 122]
  | shift west hours minutes =>
    (if west then 45 else 43) :: (digits 2 hours ++ colon :: digits 2 minutes)

def Valid : Zone → Prop
  | utc _ => True
  | shift _ hours minutes => hours.val ≤ 23 ∧ minutes.val ≤ 59

instance : DecidablePred Valid
  | utc _ => inferInstanceAs (Decidable True)
  | shift _ hours minutes => inferInstanceAs (Decidable (hours.val ≤ 23 ∧ minutes.val ≤ 59))

/-- The seconds by which the clock is ahead. -/
def seconds : Zone → ℤ
  | utc _ => 0
  | shift west hours minutes => (if west then -1 else 1) * (hours.val * 3600 + minutes.val * 60)

end Zone

namespace ClockFields
variable (time : ClockFields)

def secondBytes (second : Option (Fin 100)) : List UInt8 :=
  second.elim [] fun s => colon :: digits 2 s

def digit (d : Fin 10) : UInt8 := UInt8.ofNat (48 + d.val)

def fractionBytes (fraction : List (Fin 10)) : List UInt8 :=
  if fraction.isEmpty then [] else dot :: fraction.map digit

def zoneBytes (zone : Option Zone) : List UInt8 := zone.elim [] Zone.bytes

def bytes : List UInt8 :=
  time.separator.byte :: (digits 2 time.hour ++ colon :: (digits 2 time.minute ++
    (secondBytes time.second ++ (fractionBytes time.fraction ++ zoneBytes time.zone))))

/-- The hours of a day, the minutes and seconds of an hour; a leap second is none of them. -/
structure Valid : Prop where
  hour : time.hour.val ≤ 23
  minute : time.minute.val ≤ 59
  second : ∀ s, time.second = some s → s.val ≤ 59
  zone : ∀ z, time.zone = some z → z.Valid

end ClockFields

namespace StampFields
variable (fields : StampFields)

def bytes : List UInt8 :=
  digits 4 fields.year ++ dash :: (digits 2 fields.month ++ dash :: (digits 2 fields.day ++
    fields.time.elim [] ClockFields.bytes))

structure Valid : Prop where
  date : Calendar.IsDate fields.year fields.month fields.day
  time : ∀ time, fields.time = some time → time.Valid

end StampFields

end TkbCherry.Registry
