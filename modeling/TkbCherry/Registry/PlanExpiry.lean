import TkbCherry.Lib.Text

/-!
# Plan expiry

`plan_expiry_millis`: ISO timestamps as the browser writes them, read byte by byte. All
arithmetic is on `i64`; the checked operations are the only ones that can leave its range.
-/

namespace TkbCherry.Registry

set_option autoImplicit false

open Text

/-- The result of a checked operation on `i64`. -/
def checkedI64 (n : Int) : Option Int := if -(2 ^ 63) ≤ n ∧ n < 2 ^ 63 then some n else none

/-- `byte.saturating_sub(b'0')` as a number. -/
def digitValue (byte : UInt8) : Int := ((byte.toNat - 48 : Nat) : Int)

def asciiDecimal (bytes : List UInt8) : Option Int :=
  if bytes.isEmpty || bytes.any fun byte => !isAsciiDigit byte then none
  else bytes.foldlM (fun value byte => do
    let value ← checkedI64 (value * 10)
    checkedI64 (value + digitValue byte)) 0

def daysInMonth (year month : Int) : Option Int :=
  let leap := decide (year.tmod 4 = 0) &&
    (decide (year.tmod 100 ≠ 0) || decide (year.tmod 400 = 0))
  if month ∈ [1, 3, 5, 7, 8, 10, 12] then some 31
  else if month ∈ [4, 6, 9, 11] then some 30
  else if month = 2 then some (if leap then 29 else 28)
  else none

def civilDaysSinceUnixEpoch (year month day : Int) : Int :=
  let adjustedYear := year - (if month ≤ 2 then 1 else 0)
  let era := (if adjustedYear ≥ 0 then adjustedYear else adjustedYear - 399).tdiv 400
  let yearOfEra := adjustedYear - era * 400
  let shiftedMonth := month + (if month > 2 then -3 else 9)
  let dayOfYear := (153 * shiftedMonth + 2).tdiv 5 + day - 1
  let dayOfEra := yearOfEra * 365 + yearOfEra.tdiv 4 - yearOfEra.tdiv 100 + dayOfYear
  era * 146097 + dayOfEra - 719468

/-- `bytes[start..stop]`, for a slice that is known to lie in the text. -/
def slice (bytes : List UInt8) (start stop : Nat) : List UInt8 := (bytes.take stop).drop start

def dash : UInt8 := 45
def colon : UInt8 := 58
def dot : UInt8 := 46

structure TimeOfDay where
  hour : Int := 0
  minute : Int := 0
  second : Int := 0
  millis : Int := 0
  offsetSeconds : Int := 0

/-- `:SS` at the cursor, if it is there. -/
def secondsAt (bytes : List UInt8) (cursor : Nat) : Option (Int × Nat) :=
  if bytes[cursor]? = some colon then
    if bytes.length < cursor + 3 then none
    else (asciiDecimal (slice bytes (cursor + 1) (cursor + 3))).map fun second =>
      (second, cursor + 3)
  else some (0, cursor)

/-- `.fff…` at the cursor, if it is there; digits after the third are skipped. -/
def millisAt (bytes : List UInt8) (cursor : Nat) : Option (Int × Nat) :=
  if bytes[cursor]? = some dot then
    let fraction := (bytes.drop (cursor + 1)).takeWhile isAsciiDigit
    if fraction.isEmpty then none
    else
      let read := (fraction.take 3).foldl (fun (acc : Int × Int) byte =>
        (acc.1 + digitValue byte * acc.2, acc.2.tdiv 10)) (0, 100)
      some (read.1, cursor + 1 + fraction.length)
  else some (0, cursor)

/-- `Z`, `±HH:MM`, or the end of the text. -/
def offsetAt (bytes : List UInt8) (cursor : Nat) : Option Int :=
  match bytes[cursor]? with
  | none => some 0
  | some byte =>
    if (byte = 90 ∨ byte = 122) ∧ cursor + 1 = bytes.length then some 0
    else if (byte = 43 ∨ byte = 45) ∧ cursor + 6 = bytes.length then
      if bytes[cursor + 3]? ≠ some colon then none
      else do
        let offsetHour ← asciiDecimal (slice bytes (cursor + 1) (cursor + 3))
        let offsetMinute ← asciiDecimal (slice bytes (cursor + 4) (cursor + 6))
        if offsetHour > 23 ∨ offsetMinute > 59 then none
        else some ((if byte = 43 then 1 else -1) * (offsetHour * 3600 + offsetMinute * 60))
    else none

def timeOfDay (bytes : List UInt8) : Option TimeOfDay :=
  if bytes.length ≤ 10 then some {}
  else if (bytes[10]? ≠ some 84 ∧ bytes[10]? ≠ some 116 ∧ bytes[10]? ≠ some 32) ∨
      bytes.length < 16 then none
  else if bytes[13]? ≠ some colon then none
  else do
    let hour ← asciiDecimal (slice bytes 11 13)
    let minute ← asciiDecimal (slice bytes 14 16)
    let (second, cursor) ← secondsAt bytes 16
    let (millis, cursor) ← millisAt bytes cursor
    if hour > 23 ∨ minute > 59 ∨ second > 59 then none
    else do
      let offsetSeconds ← offsetAt bytes cursor
      some ⟨hour, minute, second, millis, offsetSeconds⟩

def planExpiryMillis (raw : String) : Option Nat :=
  let bytes := Text.bytes (trim raw)
  if bytes.length < 10 ∨ bytes[4]? ≠ some dash ∨ bytes[7]? ≠ some dash then none
  else do
    let year ← asciiDecimal (slice bytes 0 4)
    let month ← asciiDecimal (slice bytes 5 7)
    let day ← asciiDecimal (slice bytes 8 10)
    let days ← daysInMonth year month
    if day < 1 ∨ day > days then none
    else do
      let time ← timeOfDay bytes
      let seconds ← checkedI64 (civilDaysSinceUnixEpoch year month day * 86400)
      let seconds ← checkedI64 (seconds + (time.hour * 3600 + time.minute * 60 + time.second))
      let seconds ← checkedI64 (seconds - time.offsetSeconds)
      let total ← checkedI64 (seconds * 1000)
      let total ← checkedI64 (total + time.millis)
      some (max total 0).toNat

example : planExpiryMillis "1970-01-02T00:00:00.250+00:01" = some 86340250 := by decide

end TkbCherry.Registry
