import TkbCherry.Registry.ExpiryFields

/-!
# Reading the text of a plan expiry

Each reader at its cursor, on the bytes of a field and on any bytes.
-/

namespace TkbCherry.Registry

set_option autoImplicit false

open Text ClockFields

/-! ### At a cursor -/

section Cursor
variable {front rest : List UInt8}

theorem getElem?_cursor {cursor k : ℕ} (hlen : front.length = cursor) :
    (front ++ rest)[cursor + k]? = rest[k]? := by
  rw [List.getElem?_append_right (by omega)]
  congr 1
  omega

theorem getElem?_here {cursor : ℕ} (hlen : front.length = cursor) :
    (front ++ rest)[cursor]? = rest[0]? := by
  rw [List.getElem?_append_right (by omega), hlen, Nat.sub_self]

theorem slice_cursor {cursor i j : ℕ} (hlen : front.length = cursor) :
    slice (front ++ rest) (cursor + i) (cursor + j) = slice rest i j := by
  subst hlen
  rw [slice, slice, List.take_length_add_append, List.drop_length_add_append]

theorem slice_field (front field rest : List UInt8) {i j : ℕ} (hi : front.length = i)
    (hj : field.length + i = j) : slice (front ++ (field ++ rest)) i j = field := by
  rw [slice, ← List.append_assoc, ← hj, ← hi, Nat.add_comm, ← List.length_append, List.take_left,
    List.drop_left]

/-- The bytes from a cursor on, split after a slice. -/
theorem slice_append_drop {bytes : List UInt8} {i j : ℕ} (hij : i ≤ j) (hj : j ≤ bytes.length) :
    slice bytes i j ++ bytes.drop j = bytes.drop i ∧ (slice bytes i j).length = j - i := by
  constructor
  · rw [slice, ← List.drop_append_of_le_length (by rw [List.length_take]; omega), List.take_append_drop]
  · rw [slice, List.length_drop, List.length_take]
    omega

/-- A byte that is read is the first one of the rest. -/
theorem drop_of_getElem? {bytes : List UInt8} {i : ℕ} {b : UInt8} (h : bytes[i]? = some b) :
    bytes.drop i = b :: bytes.drop (i + 1) := by
  obtain ⟨hlt, hget⟩ := List.getElem?_eq_some_iff.mp h
  rw [List.drop_eq_getElem_cons hlt, hget]

end Cursor

/-! ### Two digits -/

theorem asciiDecimal_two (n : Fin 100) : asciiDecimal (digits 2 n) = some (n : ℤ) :=
  asciiDecimal_digits (by decide) (by decide) n.isLt

theorem exists_two {bytes : List UInt8} {i : ℕ} {v : ℤ} (hlen : i + 2 ≤ bytes.length)
    (h : asciiDecimal (slice bytes i (i + 2)) = some v) :
    ∃ n : Fin 100, bytes.drop i = digits 2 n ++ bytes.drop (i + 2) := by
  obtain ⟨hsplit, hwidth⟩ := slice_append_drop (Nat.le_add_right i 2) hlen
  obtain ⟨n, hn, hdigits⟩ := exists_of_asciiDecimal h
  rw [hwidth, Nat.add_sub_cancel_left] at hn hdigits
  exact ⟨⟨n, hn⟩, by rw [← hsplit, hdigits]⟩

/-! ### Seconds -/

section Seconds
variable {front : List UInt8} {cursor : ℕ} (hlen : front.length = cursor)
include hlen

theorem secondsAt_bytes (second : Option (Fin 100)) {rest : List UInt8}
    (hrest : second = none → rest[0]? ≠ some colon) :
    secondsAt (front ++ (secondBytes second ++ rest)) cursor =
      some ((second.elim 0 fun s => (s.val : ℤ)), cursor + (secondBytes second).length) := by
  cases second with
  | none =>
    rw [secondsAt, getElem?_here hlen, if_neg]
    · rfl
    · exact hrest rfl
  | some s =>
    have hcolon : (front ++ (secondBytes (some s) ++ rest))[cursor]? = some colon :=
      getElem?_here hlen
    have hlong : ¬ (front ++ (secondBytes (some s) ++ rest)).length < cursor + 3 := by
      simp only [secondBytes, Option.elim_some, List.length_append, List.length_cons, length_digits]
      omega
    have hslice : slice (front ++ (secondBytes (some s) ++ rest)) (cursor + 1) (cursor + 3) =
        digits 2 s := by
      rw [slice_cursor hlen]
      exact slice_field [colon] (digits 2 s) rest rfl (by rw [length_digits])
    rw [secondsAt, if_pos hcolon, if_neg hlong, hslice, asciiDecimal_two, Option.map_some]
    simp [secondBytes]

theorem exists_of_secondsAt {rest : List UInt8} {v : ℤ} {next : ℕ}
    (h : secondsAt (front ++ rest) cursor = some (v, next)) :
    ∃ second rest', rest = secondBytes second ++ rest' ∧
      next = cursor + (secondBytes second).length := by
  rw [secondsAt] at h
  split at h
  · rename_i hcolon
    split at h
    · cases h
    · rename_i hlong
      obtain ⟨s, hs, heq⟩ := Option.map_eq_some_iff.mp h
      obtain ⟨_, rfl⟩ := Prod.mk.inj heq
      obtain ⟨n, hn⟩ := exists_two (by omega) hs
      have hdrop := drop_of_getElem? hcolon
      have hall : (front ++ rest).drop cursor = rest := by rw [← hlen, List.drop_left]
      refine ⟨some n, (front ++ rest).drop (cursor + 3), ?_, by simp [secondBytes]⟩
      calc rest = colon :: (front ++ rest).drop (cursor + 1) := hall.symm.trans hdrop
        _ = colon :: (digits 2 n ++ (front ++ rest).drop (cursor + 1 + 2)) := by rw [hn]
        _ = secondBytes (some n) ++ (front ++ rest).drop (cursor + 3) := rfl
  · cases h
    exact ⟨none, rest, rfl, rfl⟩

end Seconds

/-! ### Fractions -/

/-- The milliseconds of the first three digits. -/
def readMillis : List (Fin 10) → ℤ
  | [] => 0
  | [a] => a.val * 100
  | [a, b] => a.val * 100 + b.val * 10
  | a :: b :: c :: _ => a.val * 100 + b.val * 10 + c.val

theorem fractionBytes_of_ne {fraction : List (Fin 10)} (h : fraction ≠ []) :
    fractionBytes fraction = dot :: fraction.map digit := by
  cases fraction with
  | nil => exact absurd rfl h
  | cons d rest => rfl

theorem exists_map_digit {bytes : List UInt8} (h : ∀ b ∈ bytes, isAsciiDigit b = true) :
    ∃ fraction : List (Fin 10), bytes = fraction.map digit := by
  induction bytes with
  | nil => exact ⟨[], rfl⟩
  | cons b bytes ih =>
    obtain ⟨k, hk, hb⟩ := exists_digit (h b List.mem_cons_self)
    obtain ⟨fraction, hrest⟩ := ih fun c hc => h c (List.mem_cons_of_mem _ hc)
    exact ⟨⟨k, hk⟩ :: fraction, by rw [hrest, hb]; rfl⟩

theorem takeWhile_map_digit (fraction : List (Fin 10)) {rest : List UInt8}
    (hrest : ∀ b, rest[0]? = some b → isAsciiDigit b = false) :
    (fraction.map digit ++ rest).takeWhile isAsciiDigit = fraction.map digit := by
  have hnil : rest.takeWhile isAsciiDigit = [] := by
    cases rest with
    | nil => rfl
    | cons b rest => exact List.takeWhile_cons_of_neg (by simp [hrest b rfl])
  rw [List.takeWhile_append_of_pos, hnil, List.append_nil]
  intro b hb
  obtain ⟨d, _, rfl⟩ := List.mem_map.mp hb
  exact isAsciiDigit_digit d.isLt

/-- The loop over the first three digits. -/
theorem readMillis_eq (fraction : List (Fin 10)) :
    (((fraction.map digit).take 3).foldl (fun (acc : ℤ × ℤ) byte =>
      (acc.1 + digitValue byte * acc.2, acc.2.tdiv 10)) (0, 100)).1 = readMillis fraction := by
  have hd : ∀ d : Fin 10, digitValue (digit d) = (d.val : ℤ) := fun d => digitValue_digit d.isLt
  have h10 : (100 : ℤ).tdiv 10 = 10 := by decide
  rcases fraction with _ | ⟨a, _ | ⟨b, _ | ⟨c, rest⟩⟩⟩ <;>
    simp [readMillis, hd, h10]

section Millis
variable {front : List UInt8} {cursor : ℕ} (hlen : front.length = cursor)
include hlen

theorem millisAt_bytes (fraction : List (Fin 10)) {rest : List UInt8}
    (hdot : fraction = [] → rest[0]? ≠ some dot)
    (hdigit : ∀ b, rest[0]? = some b → isAsciiDigit b = false) :
    millisAt (front ++ (fractionBytes fraction ++ rest)) cursor =
      some (readMillis fraction, cursor + (fractionBytes fraction).length) := by
  by_cases hnil : fraction = []
  · subst hnil
    rw [millisAt, getElem?_here hlen, if_neg]
    · rfl
    · exact hdot rfl
  · have hbytes := fractionBytes_of_ne hnil
    have hhere : (front ++ (fractionBytes fraction ++ rest))[cursor]? = some dot := by
      rw [getElem?_here hlen, hbytes]
      rfl
    have hdrop : (front ++ (fractionBytes fraction ++ rest)).drop (cursor + 1) =
        fraction.map digit ++ rest := by
      rw [← hlen, List.drop_length_add_append, hbytes]
      rfl
    have hne : (fraction.map digit).isEmpty = false := by
      cases fraction with
      | nil => exact absurd rfl hnil
      | cons d rest => rfl
    rw [millisAt, if_pos hhere]
    simp only [hdrop, takeWhile_map_digit fraction hdigit, hne, Bool.false_eq_true, if_false,
      readMillis_eq]
    rw [hbytes, List.length_cons, Nat.add_assoc, Nat.add_comm 1]

theorem exists_of_millisAt {rest : List UInt8} {v : ℤ} {next : ℕ}
    (h : millisAt (front ++ rest) cursor = some (v, next)) :
    ∃ fraction rest', rest = fractionBytes fraction ++ rest' ∧
      next = cursor + (fractionBytes fraction).length := by
  rw [millisAt] at h
  split at h
  · rename_i hhere
    have hdrop := drop_of_getElem? hhere
    have hall : (front ++ rest).drop cursor = rest := by rw [← hlen, List.drop_left]
    simp only at h
    split at h
    · cases h
    · rename_i hne
      obtain ⟨fraction, hfraction⟩ := exists_map_digit (fun b hb =>
        List.mem_takeWhile_imp (l := (front ++ rest).drop (cursor + 1)) hb)
      have hcons : fraction ≠ [] := by
        rintro rfl
        rw [hfraction] at hne
        exact hne rfl
      refine ⟨fraction, ((front ++ rest).drop (cursor + 1)).dropWhile isAsciiDigit, ?_, ?_⟩
      · rw [fractionBytes_of_ne hcons, ← hfraction, List.cons_append, List.takeWhile_append_dropWhile,
          ← hdrop, hall]
      · have hnext := congrArg Prod.snd (Option.some.inj h)
        rw [fractionBytes_of_ne hcons, ← hfraction, List.length_cons]
        simp only at hnext
        omega
  · cases h
    exact ⟨[], rest, rfl, rfl⟩

end Millis

/-! ### Zones -/

section Zones
variable {front : List UInt8} {cursor : ℕ} (hlen : front.length = cursor)
include hlen

theorem offsetAt_utc (upper : Bool) :
    offsetAt (front ++ (Zone.utc upper).bytes) cursor = some 0 := by
  have hhere : (front ++ (Zone.utc upper).bytes)[cursor]? = some (if upper then 90 else 122) :=
    getElem?_here hlen
  have hend : cursor + 1 = (front ++ (Zone.utc upper).bytes).length := by
    rw [List.length_append, hlen]
    rfl
  rw [offsetAt, hhere]
  exact if_pos ⟨by cases upper <;> simp, hend⟩

theorem offsetAt_shift (west : Bool) (hours minutes : Fin 100) :
    offsetAt (front ++ (Zone.shift west hours minutes).bytes) cursor =
      if hours.val ≤ 23 ∧ minutes.val ≤ 59 then some (Zone.shift west hours minutes).seconds
      else none := by
  have hhere : (front ++ (Zone.shift west hours minutes).bytes)[cursor]? =
      some (if west then 45 else 43) := getElem?_here hlen
  have hend : cursor + 6 = (front ++ (Zone.shift west hours minutes).bytes).length := by
    simp [Zone.bytes, hlen]
  have hcolon : (front ++ (Zone.shift west hours minutes).bytes)[cursor + 3]? = some colon :=
    getElem?_cursor hlen
  have hhours : slice (front ++ (Zone.shift west hours minutes).bytes) (cursor + 1) (cursor + 3) =
      digits 2 hours := by
    rw [slice_cursor hlen]
    exact slice_field [_] (digits 2 hours) (colon :: digits 2 minutes) rfl (by rw [length_digits])
  have hminutes : slice (front ++ (Zone.shift west hours minutes).bytes) (cursor + 4) (cursor + 6) =
      digits 2 minutes := by
    rw [slice_cursor hlen]
    exact slice_field [_, _, _, colon] (digits 2 minutes) [] rfl (by rw [length_digits])
  have hsign : ¬ (((if west then 45 else 43 : UInt8) = 90 ∨ (if west then 45 else 43 : UInt8) = 122) ∧
      cursor + 1 = (front ++ (Zone.shift west hours minutes).bytes).length) := by
    intro h
    omega
  have hsign' : (if west then 45 else 43 : UInt8) = 43 ∨ (if west then 45 else 43 : UInt8) = 45 := by
    cases west <;> simp
  rw [offsetAt, hhere]
  simp only
  rw [if_neg hsign, if_pos ⟨hsign', hend⟩, if_neg (by rw [hcolon]; simp), hhours, hminutes,
    asciiDecimal_two, asciiDecimal_two]
  simp only [Option.bind_eq_bind, Option.bind_some]
  by_cases hvalid : hours.val ≤ 23 ∧ minutes.val ≤ 59
  · rw [if_pos hvalid, if_neg (by omega), Zone.seconds]
    cases west <;> rfl
  · rw [if_neg hvalid, if_pos (by omega)]

theorem exists_of_offsetAt {rest : List UInt8} {v : ℤ}
    (h : offsetAt (front ++ rest) cursor = some v) : ∃ zone, rest = zoneBytes zone := by
  have hall : (front ++ rest).drop cursor = rest := by rw [← hlen, List.drop_left]
  have hsize : (front ++ rest).length = cursor + rest.length := by rw [List.length_append, hlen]
  rw [offsetAt, getElem?_here hlen] at h
  cases hfirst : rest[0]? with
  | none => exact ⟨none, List.length_eq_zero_iff.mp (Nat.le_zero.mp (List.getElem?_eq_none_iff.mp hfirst))⟩
  | some b =>
    rw [hfirst] at h
    simp only at h
    have hdrop := drop_of_getElem? ((getElem?_here hlen).trans hfirst)
    rw [hall] at hdrop
    split at h
    · rename_i hutc
      have hnil : (front ++ rest).drop (cursor + 1) = [] := List.drop_eq_nil_of_le (by omega)
      rw [hnil] at hdrop
      cases hutc.1 with
      | inl hb => exact ⟨some (.utc true), by rw [hdrop, hb]; rfl⟩
      | inr hb => exact ⟨some (.utc false), by rw [hdrop, hb]; rfl⟩
    · split at h
      · rename_i hshift
        split at h
        · cases h
        · rename_i hcolon
          obtain ⟨hsign, hend⟩ := hshift
          obtain ⟨hours, hhours, h⟩ := Option.bind_eq_some_iff.mp h
          obtain ⟨minutes, hminutes, h⟩ := Option.bind_eq_some_iff.mp h
          obtain ⟨hh, hhours⟩ := exists_two (by omega) hhours
          obtain ⟨mm, hminutes⟩ := exists_two (by omega) hminutes
          have hmid := drop_of_getElem? (not_not.mp hcolon)
          have hnil : (front ++ rest).drop (cursor + 4 + 2) = [] := List.drop_eq_nil_of_le (by omega)
          have hbytes : rest = b :: (digits 2 hh ++ colon :: digits 2 mm) := by
            calc rest = b :: (front ++ rest).drop (cursor + 1) := hdrop
              _ = b :: (digits 2 hh ++ (front ++ rest).drop (cursor + 1 + 2)) := by rw [hhours]
              _ = b :: (digits 2 hh ++ colon :: (front ++ rest).drop (cursor + 4)) := by rw [hmid]
              _ = b :: (digits 2 hh ++ colon :: digits 2 mm) := by
                rw [hminutes, hnil, List.append_nil]
          cases hsign with
          | inl hb => exact ⟨some (.shift false hh mm), by rw [hbytes, hb]; rfl⟩
          | inr hb => exact ⟨some (.shift true hh mm), by rw [hbytes, hb]; rfl⟩
      · cases h

theorem offsetAt_zone (zone : Option Zone) :
    ((∀ z, zone = some z → z.Valid) →
      offsetAt (front ++ zoneBytes zone) cursor = some (zone.elim 0 Zone.seconds)) ∧
    (¬ (∀ z, zone = some z → z.Valid) → offsetAt (front ++ zoneBytes zone) cursor = none) := by
  cases zone with
  | none =>
    have hnone : (front ++ zoneBytes none)[cursor]? = none := by
      rw [getElem?_here hlen]
      rfl
    refine ⟨fun _ => ?_, fun hno => absurd (fun z hz => by cases hz) hno⟩
    rw [offsetAt, hnone]
    rfl
  | some z =>
    have hvalid : (∀ z', some z = some z' → z'.Valid) ↔ z.Valid := by simp
    rw [hvalid]
    cases z with
    | utc upper => exact ⟨fun _ => offsetAt_utc hlen upper, fun hno => absurd trivial hno⟩
    | shift west hours minutes =>
      have h := offsetAt_shift hlen west hours minutes
      exact ⟨fun hv => h.trans (if_pos hv), fun hv => h.trans (if_neg hv)⟩

end Zones

theorem zoneBytes_head {zone : Option Zone} {b : UInt8} (h : (zoneBytes zone)[0]? = some b) :
    isAsciiDigit b = false ∧ b ≠ colon ∧ b ≠ dot := by
  cases zone with
  | none => cases h
  | some z =>
    cases z with
    | utc upper =>
      obtain rfl := Option.some.inj h
      cases upper <;> decide
    | shift west hours minutes =>
      obtain rfl := Option.some.inj h
      cases west <;> decide

/-! ### Times -/

namespace ClockFields
variable (clock : ClockFields)

/-- The fields as numbers; one that is left out is zero. -/
def value : TimeOfDay :=
  ⟨clock.hour.val, clock.minute.val, clock.second.elim 0 fun s => s.val, readMillis clock.fraction,
    clock.zone.elim 0 Zone.seconds⟩

/-- Up to the minute. -/
def head : List UInt8 :=
  clock.separator.byte :: (digits 2 clock.hour ++ colon :: digits 2 clock.minute)

def tail : List UInt8 :=
  secondBytes clock.second ++ (fractionBytes clock.fraction ++ zoneBytes clock.zone)

theorem bytes_eq : clock.bytes = clock.head ++ clock.tail := by
  simp only [bytes, head, tail, List.cons_append, List.append_assoc]

@[simp] theorem length_head : clock.head.length = 6 := by simp [head]

end ClockFields

theorem exists_separator {o : Option UInt8}
    (h : ¬ (o ≠ some 84 ∧ o ≠ some 116 ∧ o ≠ some 32)) :
    ∃ separator : Separator, o = some separator.byte := by
  by_cases hupper : o = some 84
  · exact ⟨.upper, hupper⟩
  · by_cases hlower : o = some 116
    · exact ⟨.lower, hlower⟩
    · exact ⟨.blank, not_not.mp fun hblank => h ⟨hupper, hlower, hblank⟩⟩

/-- What the readers behind the minutes accept. -/
theorem exists_of_readers {before after : List UInt8} {cursor next next' : ℕ} {second millis v : ℤ}
    (hcursor : before.length = cursor) (hsecond : secondsAt (before ++ after) cursor = some (second, next))
    (hmillis : millisAt (before ++ after) next = some (millis, next'))
    (hoffset : offsetAt (before ++ after) next' = some v) :
    ∃ s fraction zone, after = secondBytes s ++ (fractionBytes fraction ++ zoneBytes zone) := by
  obtain ⟨s, rest, rfl, rfl⟩ := exists_of_secondsAt hcursor hsecond
  rw [← List.append_assoc] at hmillis hoffset
  have hlen' : (before ++ secondBytes s).length = cursor + (secondBytes s).length := by
    rw [List.length_append, hcursor]
  obtain ⟨fraction, rest', rfl, rfl⟩ := exists_of_millisAt hlen' hmillis
  rw [← List.append_assoc] at hoffset
  obtain ⟨zone, rfl⟩ := exists_of_offsetAt (by rw [List.length_append, hlen']) hoffset
  exact ⟨s, fraction, zone, rfl⟩

section Times
variable {front : List UInt8} (hlen : front.length = 10)
include hlen

/-- Up to the seconds the time is read as it is written. -/
theorem timeOfDay_eq (clock : ClockFields) : timeOfDay (front ++ clock.bytes) = (do
    let (second, cursor) ← secondsAt (front ++ clock.bytes) 16
    let (millis, cursor) ← millisAt (front ++ clock.bytes) cursor
    if (clock.hour.val : ℤ) > 23 ∨ (clock.minute.val : ℤ) > 59 ∨ second > 59 then none
    else do
      let offsetSeconds ← offsetAt (front ++ clock.bytes) cursor
      some ⟨clock.hour.val, clock.minute.val, second, millis, offsetSeconds⟩) := by
  have hlong : ¬ (front ++ clock.bytes).length ≤ 10 := by
    rw [clock.bytes_eq, List.length_append, List.length_append, clock.length_head]
    omega
  have hlong' : ¬ (front ++ clock.bytes).length < 16 := by
    rw [clock.bytes_eq, List.length_append, List.length_append, clock.length_head]
    omega
  have hsep : (front ++ clock.bytes)[10]? = some clock.separator.byte := getElem?_here hlen
  have hcolon : (front ++ clock.bytes)[13]? = some colon := getElem?_cursor (k := 3) hlen
  have hhour : slice (front ++ clock.bytes) 11 13 = digits 2 clock.hour := by
    rw [slice_cursor (i := 1) (j := 3) hlen]
    exact slice_field [_] (digits 2 clock.hour) _ rfl (by rw [length_digits])
  have hminute : slice (front ++ clock.bytes) 14 16 = digits 2 clock.minute := by
    rw [slice_cursor (i := 4) (j := 6) hlen]
    exact slice_field [_, _, _, colon] (digits 2 clock.minute) _ rfl (by rw [length_digits])
  have hseps : ¬ ((some clock.separator.byte ≠ some 84 ∧ some clock.separator.byte ≠ some 116 ∧
      some clock.separator.byte ≠ some 32) ∨ (front ++ clock.bytes).length < 16) := by
    rintro (h | h)
    · cases hs : clock.separator <;> simp [hs, Separator.byte] at h
    · exact hlong' h
  rw [timeOfDay, if_neg hlong, hsep, if_neg hseps, if_neg (by rw [hcolon]; simp), hhour, hminute,
    asciiDecimal_two, asciiDecimal_two]
  rfl

/-- What the readers behind the minutes find. -/
theorem readers_eq (clock : ClockFields) :
    secondsAt (front ++ clock.bytes) 16 =
      some (clock.value.second, 16 + (secondBytes clock.second).length) ∧
    millisAt (front ++ clock.bytes) (16 + (secondBytes clock.second).length) =
      some (clock.value.millis, 16 + (secondBytes clock.second).length +
        (fractionBytes clock.fraction).length) := by
  have hhead : (front ++ clock.head).length = 16 := by
    rw [List.length_append, clock.length_head, hlen]
  have hbytes : front ++ clock.bytes = (front ++ clock.head) ++ (secondBytes clock.second ++
      (fractionBytes clock.fraction ++ zoneBytes clock.zone)) := by
    rw [clock.bytes_eq, ClockFields.tail, List.append_assoc]
  constructor
  · rw [hbytes]
    apply secondsAt_bytes hhead
    intro _ hcolon
    by_cases hnil : clock.fraction = []
    · rw [hnil] at hcolon
      exact (zoneBytes_head hcolon).2.1 rfl
    · rw [fractionBytes_of_ne hnil] at hcolon
      cases hcolon
  · rw [hbytes, ← List.append_assoc (front ++ clock.head)]
    apply millisAt_bytes (by rw [List.length_append, hhead])
    · intro _ hdot
      exact (zoneBytes_head hdot).2.2 rfl
    · intro b hb
      exact (zoneBytes_head hb).1

theorem offsetAt_clock (clock : ClockFields) :
    ((∀ z, clock.zone = some z → z.Valid) → offsetAt (front ++ clock.bytes)
      (16 + (secondBytes clock.second).length + (fractionBytes clock.fraction).length) =
        some clock.value.offsetSeconds) ∧
    (¬ (∀ z, clock.zone = some z → z.Valid) → offsetAt (front ++ clock.bytes)
      (16 + (secondBytes clock.second).length + (fractionBytes clock.fraction).length) = none) := by
  have hbytes : front ++ clock.bytes = (front ++ clock.head ++ secondBytes clock.second ++
      fractionBytes clock.fraction) ++ zoneBytes clock.zone := by
    simp only [clock.bytes_eq, ClockFields.tail, List.append_assoc]
  rw [hbytes]
  apply offsetAt_zone
  simp only [List.length_append, clock.length_head, hlen]

/-- A time is read exactly when its fields are in their ranges. -/
theorem timeOfDay_bytes (clock : ClockFields) :
    (clock.Valid → timeOfDay (front ++ clock.bytes) = some clock.value) ∧
    (¬ clock.Valid → timeOfDay (front ++ clock.bytes) = none) := by
  obtain ⟨hsecond, hmillis⟩ := readers_eq hlen clock
  obtain ⟨hzone, hnozone⟩ := offsetAt_clock hlen clock
  have hvalue : ∀ s, clock.second = some s → clock.value.second = s.val := by
    intro s hs
    simp [ClockFields.value, hs]
  rw [timeOfDay_eq hlen clock, hsecond]
  simp only [Option.bind_eq_bind, Option.bind_some, hmillis]
  by_cases hrange : (clock.hour.val : ℤ) > 23 ∨ (clock.minute.val : ℤ) > 59 ∨ clock.value.second > 59
  · rw [if_pos hrange]
    refine ⟨fun hvalid => ?_, fun _ => rfl⟩
    have hhour := hvalid.hour
    have hminute := hvalid.minute
    have hsec : clock.value.second ≤ 59 := by
      cases hs : clock.second with
      | none => simp [ClockFields.value, hs]
      | some s =>
        have h59 := hvalid.second s hs
        rw [hvalue s hs]
        omega
    omega
  · rw [if_neg hrange]
    by_cases hz : ∀ z, clock.zone = some z → z.Valid
    · rw [hzone hz]
      refine ⟨fun _ => rfl, fun hno => absurd ?_ hno⟩
      refine ⟨by omega, by omega, fun s hs => ?_, hz⟩
      have h59 := hvalue s hs
      omega
    · rw [hnozone hz]
      exact ⟨fun hvalid => absurd hvalid.zone hz, fun _ => rfl⟩

/-- Only the text of a time is read as one. -/
theorem exists_of_timeOfDay {rest : List UInt8} {t : TimeOfDay}
    (h : timeOfDay (front ++ rest) = some t) :
    ∃ clock : Option ClockFields, rest = clock.elim [] ClockFields.bytes := by
  have hall : (front ++ rest).drop 10 = rest := by rw [← hlen, List.drop_left]
  rw [timeOfDay] at h
  split at h
  · rename_i hshort
    refine ⟨none, List.length_eq_zero_iff.mp ?_⟩
    rw [List.length_append] at hshort
    omega
  · split at h
    · cases h
    · rename_i hseps
      rw [not_or, not_lt] at hseps
      obtain ⟨separator, hseparator⟩ := exists_separator hseps.1
      split at h
      · cases h
      · rename_i hcolon
        obtain ⟨hour, hhour, h⟩ := Option.bind_eq_some_iff.mp h
        obtain ⟨minute, hminute, h⟩ := Option.bind_eq_some_iff.mp h
        obtain ⟨⟨second, next⟩, hsecond, h⟩ := Option.bind_eq_some_iff.mp h
        obtain ⟨⟨millis, next'⟩, hmillis, h⟩ := Option.bind_eq_some_iff.mp h
        obtain ⟨hh, hhour⟩ := exists_two (by omega) hhour
        obtain ⟨mm, hminute⟩ := exists_two (by omega) hminute
        dsimp only at h
        split at h
        · cases h
        · obtain ⟨offset, hoffset, _⟩ := Option.bind_eq_some_iff.mp h
          have hsplit := List.take_append_drop 16 (front ++ rest)
          rw [← hsplit] at hsecond hmillis hoffset
          have htake : ((front ++ rest).take 16).length = 16 := by
            rw [List.length_take]
            omega
          obtain ⟨s, fraction, zone, htail⟩ := exists_of_readers htake hsecond hmillis hoffset
          refine ⟨some ⟨separator, hh, mm, s, fraction, zone⟩, ?_⟩
          calc rest = separator.byte :: (front ++ rest).drop 11 :=
                hall.symm.trans (drop_of_getElem? hseparator)
            _ = separator.byte :: (digits 2 hh ++ (front ++ rest).drop 13) := by rw [hhour]
            _ = separator.byte :: (digits 2 hh ++ colon :: (front ++ rest).drop 14) := by
              rw [drop_of_getElem? (not_not.mp hcolon)]
            _ = separator.byte :: (digits 2 hh ++ colon :: (digits 2 mm ++
                (front ++ rest).drop 16)) := by rw [hminute]
            _ = _ := by rw [htail]; rfl

end Times

end TkbCherry.Registry
