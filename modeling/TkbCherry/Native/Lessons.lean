import TkbCherry.Lib.Grouping
import TkbCherry.Lib.Text
import TkbCherry.Lib.Words

/-!
# Lessons of the native solver

The lessons that `native_solver.rs` moves about, the keys under which it books a class, a teacher or
a room, and `schedule_hard_ok`. Every lesson object is built by `lesson_json` and changed by
`set_lesson_slot`, so its session label is one of the two static ones.
-/

namespace TkbCherry.Native
open Text Grouping

set_option autoImplicit false

/-- The Unicode tables of the language. A lowercase text is made of characters that are their own
lowercase, and white space is not alphanumeric. -/
structure Unicode where
  /-- `str::to_lowercase` -/
  lower : List Char → List Char
  /-- `char::is_alphanumeric` -/
  alphanumeric : Char → Bool
  lower_lower : ∀ text part : List Char, (∀ c ∈ part, c ∈ lower text) → lower part = part
  alphanumeric_space : ∀ c, isWhiteSpace c = true → alphanumeric c = false

/-- The tables on ASCII texts. -/
def asciiTables : Unicode where
  lower text := text.map Char.toLower
  alphanumeric := isAsciiAlphanumeric
  lower_lower text part h := by
    rw [List.map_congr_left (g := id), List.map_id]
    intro c hc
    obtain ⟨d, _, rfl⟩ := List.mem_map.mp (h c hc)
    exact Char.toLower_toLower_eq_toLower d
  alphanumeric_space c h := by
    cases halnum : isAsciiAlphanumeric c with
    | false => rfl
    | true =>
      have hspace := isWhiteSpace_of_alphanumeric halnum
      rw [h] at hspace
      cases hspace

inductive SessionKey where
  | sang
  | chieu
deriving DecidableEq, Repr

inductive SessionLabel where
  | AM
  | PM
deriving DecidableEq, Repr

def SessionKey.text : SessionKey → String
  | .sang => "sang"
  | .chieu => "chieu"

def sessionKeyFromLabel : SessionLabel → SessionKey
  | .AM => .sang
  | .PM => .chieu

def sessionLabelFromKey : SessionKey → SessionLabel
  | .sang => .AM
  | .chieu => .PM

@[simp] theorem sessionKeyFromLabel_fromKey (key : SessionKey) :
    sessionKeyFromLabel (sessionLabelFromKey key) = key := by
  cases key <;> rfl

-- An instance under a name, so that every module finds the same one.
instance neZeroPeriodIndex : NeZero 5 := ⟨by decide⟩

/-- `PERIODS_PER_SESSION` periods a session; `day_key` and `session` are functions of the others. -/
structure Slot where
  day : Int
  sessionKey : SessionKey
  periodIndex : Fin 5
deriving DecidableEq, Repr

structure Lesson where
  classId : String
  subject : String
  teacher : String
  room : String
  day : Int
  session : SessionLabel
  period : Int
  fixed : Bool
deriving DecidableEq, Repr

/-- `DAYS`. -/
def DAYS : List (String × Int) :=
  [("thu2", 2), ("thu3", 3), ("thu4", 4), ("thu5", 5), ("thu6", 6), ("thu7", 7)]

def dayKeyFromNumber (day : Int) : String :=
  (DAYS.findSome? fun e => if e.2 = day then some e.1 else none).getD ("thu" ++ toString day)

def lessonClassId (lesson : Lesson) : String := trim lesson.classId
def lessonSubject (lesson : Lesson) : String := trim lesson.subject
def lessonRoom (lesson : Lesson) : String := trim lesson.room

def lessonSlot (lesson : Lesson) : Option Slot :=
  if h : 0 ≤ lesson.period - 1 ∧ lesson.period - 1 < 5 then
    some ⟨lesson.day, sessionKeyFromLabel lesson.session, ⟨(lesson.period - 1).toNat, by omega⟩⟩
  else none

def setLessonSlot (lesson : Lesson) (slot : Slot) : Lesson :=
  { lesson with
    day := slot.day
    session := sessionLabelFromKey slot.sessionKey
    period := slot.periodIndex.val + 1 }

@[simp] theorem lessonSlot_setLessonSlot (lesson : Lesson) (slot : Slot) :
    lessonSlot (setLessonSlot lesson slot) = some slot := by
  obtain ⟨day, key, period, hperiod⟩ := slot
  have hrange : 0 ≤ (period : Int) + 1 - 1 ∧ (period : Int) + 1 - 1 < 5 := by omega
  simp only [lessonSlot, setLessonSlot, dif_pos hrange, sessionKeyFromLabel_fromKey, Option.some.injEq,
    Slot.mk.injEq, Fin.mk.injEq, true_and]
  omega

@[simp] theorem lessonClassId_setLessonSlot (lesson : Lesson) (slot : Slot) :
    lessonClassId (setLessonSlot lesson slot) = lessonClassId lesson := rfl
@[simp] theorem lessonSubject_setLessonSlot (lesson : Lesson) (slot : Slot) :
    lessonSubject (setLessonSlot lesson slot) = lessonSubject lesson := rfl
@[simp] theorem lessonRoom_setLessonSlot (lesson : Lesson) (slot : Slot) :
    lessonRoom (setLessonSlot lesson slot) = lessonRoom lesson := rfl
@[simp] theorem fixed_setLessonSlot (lesson : Lesson) (slot : Slot) :
    (setLessonSlot lesson slot).fixed = lesson.fixed := rfl

/-! ### Keys -/

variable (u : Unicode)

def norm (value : String) : String :=
  String.ofList ((u.lower (trim value).toList).filter u.alphanumeric)

def lessonTeacherKey (lesson : Lesson) : String := norm u (trim lesson.teacher)
def lessonRoomKey (lesson : Lesson) : String := norm u (lessonRoom lesson)

@[simp] theorem lessonTeacherKey_setLessonSlot (lesson : Lesson) (slot : Slot) :
    lessonTeacherKey u (setLessonSlot lesson slot) = lessonTeacherKey u lesson := rfl
@[simp] theorem lessonRoomKey_setLessonSlot (lesson : Lesson) (slot : Slot) :
    lessonRoomKey u (setLessonSlot lesson slot) = lessonRoomKey u lesson := rfl

/-- The end of a key. -/
def slotText (slot : Slot) : String :=
  dayKeyFromNumber slot.day ++ "|" ++ slot.sessionKey.text ++ "|" ++ toString slot.periodIndex.val

def slotKey (classId : String) (slot : Slot) : String := classId ++ "|" ++ slotText slot

def resourceSlotKey (resource : String) (slot : Slot) : String := norm u resource ++ "|" ++ slotText slot

/-- A normal form is its own normal form. -/
@[simp] theorem norm_norm (value : String) : norm u (norm u value) = norm u value := by
  have hmem : ∀ c ∈ (u.lower (trim value).toList).filter u.alphanumeric,
      c ∈ u.lower (trim value).toList ∧ u.alphanumeric c = true := fun c hc => List.mem_filter.mp hc
  have htrim : trim (norm u value) = norm u value := by
    apply trim_eq_self
    intro c hc
    rw [norm, String.toList_ofList] at hc
    cases hspace : isWhiteSpace c with
    | false => rfl
    | true =>
      have hnot := u.alphanumeric_space c hspace
      rw [(hmem c hc).2] at hnot
      cases hnot
  have hlower := u.lower_lower (trim value).toList _ fun c hc => (hmem c hc).1
  rw [norm, htrim, norm, String.toList_ofList, hlower, List.filter_filter]
  simp only [Bool.and_self]

theorem norm_empty : norm u "" = "" := by
  have hlower := u.lower_lower [] [] fun c hc => absurd hc List.not_mem_nil
  have htrim : (trim "").toList = [] := by decide
  rw [norm, htrim, hlower]
  rfl

/-! ### One key, one slot -/

theorem dayKeyFromNumber_eq (day : Int) : dayKeyFromNumber day = "thu" ++ toString day := by
  have hfind : (DAYS.findSome? fun e => if e.2 = day then some e.1 else none) = none ∨
      (DAYS.findSome? fun e => if e.2 = day then some e.1 else none) = some ("thu" ++ toString day) := by
    by_cases hin : day ∈ DAYS.map Prod.snd
    · right
      simp only [DAYS, List.map_cons, List.map_nil, List.mem_cons, List.not_mem_nil, or_false] at hin
      rcases hin with rfl | rfl | rfl | rfl | rfl | rfl <;> decide
    · left
      rw [List.findSome?_eq_none_iff]
      intro e he
      rw [if_neg]
      intro heq
      exact hin (heq ▸ List.mem_map_of_mem he)
  rw [dayKeyFromNumber]
  cases hfind with
  | inl hnone => rw [hnone, Option.getD_none]
  | inr hsome => rw [hsome, Option.getD_some]

theorem bar_notMem_nat (n : Nat) : '|' ∉ (toString n).toList := by
  intro h
  have hdigit : ∀ c ∈ (Nat.repr n).toList, c.isDigit = true := by
    intro c hc
    rw [Nat.repr_eq_ofList_toDigits, String.toList_ofList] at hc
    exact Nat.isDigit_of_mem_toDigits (by decide) (by decide) hc
  have hbar := hdigit '|' h
  exact absurd hbar (by decide)

theorem bar_notMem_int (n : Int) : '|' ∉ (toString n).toList := by
  cases n with
  | ofNat n => exact bar_notMem_nat n
  | negSucc n =>
    intro h
    have hrepr : (toString (Int.negSucc n)).toList = '-' :: (toString (n + 1)).toList := by
      change ("-" ++ Nat.repr (n + 1)).toList = _
      rw [String.toList_append]
      rfl
    rw [hrepr, List.mem_cons] at h
    cases h with
    | inl heq => exact absurd heq (by decide)
    | inr hin => exact bar_notMem_nat (n + 1) hin

theorem bar_notMem_dayKey (day : Int) : '|' ∉ (dayKeyFromNumber day).toList := by
  rw [dayKeyFromNumber_eq, String.toList_append, List.mem_append, not_or]
  exact ⟨by decide, bar_notMem_int day⟩

theorem dayKeyFromNumber_injective {day day' : Int}
    (h : dayKeyFromNumber day = dayKeyFromNumber day') : day = day' := by
  rw [dayKeyFromNumber_eq, dayKeyFromNumber_eq] at h
  have hlist := congrArg String.toList h
  rw [String.toList_append, String.toList_append] at hlist
  exact Int.repr_injective (String.toList_injective (List.append_cancel_left hlist))

/-- A key splits into the booked name and the slot. -/
theorem key_injective {name name' : String} {slot slot' : Slot}
    (h : name ++ "|" ++ slotText slot = name' ++ "|" ++ slotText slot') :
    name = name' ∧ slot = slot' := by
  have hsession : ∀ key : SessionKey, '|' ∉ key.text.toList := by
    intro key
    cases key <;> decide
  have hlist := congrArg String.toList h
  simp only [slotText, String.toList_append, String.reduceToList] at hlist
  -- the three ends of a key hold no bar
  have hbar : ∀ (n d s : List Char) (p : List Char),
      n ++ ['|'] ++ (d ++ ['|'] ++ s ++ ['|'] ++ p) = ((n ++ '|' :: d) ++ '|' :: s) ++ '|' :: p := by
    intro n d s p
    simp
  rw [hbar, hbar] at hlist
  obtain ⟨hrest, hperiod⟩ := Words.append_sep_inj (bar_notMem_nat _) (bar_notMem_nat _) hlist
  obtain ⟨hrest, hkey⟩ := Words.append_sep_inj (hsession _) (hsession _) hrest
  obtain ⟨hname, hday⟩ := Words.append_sep_inj (bar_notMem_dayKey _) (bar_notMem_dayKey _) hrest
  refine ⟨String.toList_injective hname, ?_⟩
  have hday := dayKeyFromNumber_injective (String.toList_injective hday)
  have hperiod := Nat.repr_injective (String.toList_injective hperiod)
  have hkey : slot.sessionKey = slot'.sessionKey := by
    have htext := String.toList_injective hkey
    cases hs : slot.sessionKey <;> cases hs' : slot'.sessionKey <;> rw [hs, hs'] at htext
    · exact absurd htext (by decide)
    · exact absurd htext (by decide)
  cases slot
  cases slot'
  simp only [Slot.mk.injEq]
  exact ⟨hday, hkey, Fin.ext hperiod⟩

theorem slotKey_eq_iff {classId classId' : String} {slot slot' : Slot} :
    slotKey classId slot = slotKey classId' slot' ↔ classId = classId' ∧ slot = slot' := by
  constructor
  · exact fun h => key_injective h
  · intro h
    rw [h.1, h.2]

theorem resourceSlotKey_eq_iff {resource resource' : String} {slot slot' : Slot} :
    resourceSlotKey u resource slot = resourceSlotKey u resource' slot' ↔
      norm u resource = norm u resource' ∧ slot = slot' := by
  constructor
  · exact fun h => key_injective h
  · intro h
    rw [resourceSlotKey, resourceSlotKey, h.1, h.2]

end TkbCherry.Native
