import TkbCherry.Native.Lessons
import TkbCherry.Lib.AssocList

/-!
# The hard check of a schedule

`schedule_hard_ok` as the code runs it, and what it decides: every lesson has a slot its class is not
off at, no class, teacher or room has two lessons at one slot, and the lessons of a class and subject
keep the limits of each session and each day.
-/

namespace TkbCherry.Native
open Text Grouping AssocList

set_option autoImplicit false

/-- A limit of lessons a day is kept only if it is positive. -/
structure SubjectLimit where
  perSession : Int
  perDay : List (Int × Int)
  nodup : (perDay.map Prod.fst).Nodup
  positive : ∀ e ∈ perDay, 0 < e.2

/-- `subject_limits.get(&(class_id, subject_key))`. -/
abbrev SubjectLimitMap := String → String → Option SubjectLimit

def consecutivePeriods (periods : List Int) : Bool :=
  if periods.length < 2 then true
  else
    let sorted := (periods.mergeSort fun a b => decide (a ≤ b)).destutter (· ≠ ·)
    if sorted.length ≠ periods.length then false
    else (sorted.zip sorted.tail).all fun pair => decide (pair.2 = pair.1 + 1)

/-- The three sets of taken keys. -/
structure Taken where
  classSlots : List String := []
  teacherSlots : List String := []
  roomSlots : List String := []

/-- The sets with the keys of one more lesson. -/
def Taken.book (u : Unicode) (taken : Taken) (lesson : Lesson) (slot : Slot) : Taken where
  classSlots := slotKey (lessonClassId lesson) slot :: taken.classSlots
  teacherSlots :=
    if lessonTeacherKey u lesson = "" then taken.teacherSlots
    else resourceSlotKey u (lessonTeacherKey u lesson) slot :: taken.teacherSlots
  roomSlots :=
    if lessonRoomKey u lesson = "" then taken.roomSlots
    else resourceSlotKey u (lessonRoomKey u lesson) slot :: taken.roomSlots

section Check
variable (u : Unicode) (offSlots : List String) (subjectLimits : SubjectLimitMap)

/-- The loop body of `schedule_hard_ok`; `none` is `return false`. -/
def takeSlots (taken : Taken) (lesson : Lesson) : Option Taken :=
  (lessonSlot lesson).bind fun slot =>
    let classId := lessonClassId lesson
    let teacher := lessonTeacherKey u lesson
    let room := lessonRoomKey u lesson
    if classId = "" ∨ lessonSubject lesson = "" then none
    else if slotKey classId slot ∈ offSlots then none
    else if slotKey classId slot ∈ taken.classSlots then none
    else if teacher ≠ "" ∧ resourceSlotKey u teacher slot ∈ taken.teacherSlots then none
    else if room ≠ "" ∧ resourceSlotKey u room slot ∈ taken.roomSlots then none
    else some (taken.book u lesson slot)

/-- The key of a lesson in `subject_session_positions`, with its period. -/
def sessionPosition (lesson : Lesson) : Option ((String × String × Int × SessionKey) × Int) :=
  (lessonSlot lesson).map fun slot =>
    ((lessonClassId lesson, norm u (lessonSubject lesson), slot.day, slot.sessionKey),
      (slot.periodIndex.val : Int))

/-- The key of a lesson in `subject_day_counts`. -/
def dayPosition (lesson : Lesson) : Option ((String × String × Int) × Unit) :=
  (lessonSlot lesson).map fun slot =>
    ((lessonClassId lesson, norm u (lessonSubject lesson), slot.day), ())

/-- The limit of a session, at least one. -/
def sessionLimit (classId subjectKey : String) : Int :=
  max (((subjectLimits classId subjectKey).map fun rule => rule.perSession).getD 1) 1

def sessionOk (classId subjectKey : String) (periods : List Int) : Bool :=
  !decide ((periods.length : Int) > sessionLimit subjectLimits classId subjectKey) &&
    !(decide (periods.length > 1) && !consecutivePeriods periods)

def dayOk (classId subjectKey : String) (day : Int) (count : Nat) : Bool :=
  !(((subjectLimits classId subjectKey).bind fun rule => rule.perDay.lookup day).any
    fun limit => decide ((count : Int) > limit))

/-- `schedule_hard_ok`. -/
def scheduleHardOk (lessons : List Lesson) : Bool :=
  (lessons.foldlM (takeSlots u offSlots) {}).isSome &&
    (grouped (lessons.filterMap (sessionPosition u))).all (fun e =>
      sessionOk subjectLimits e.1.1 e.1.2.1 e.2) &&
    (grouped (lessons.filterMap (dayPosition u))).all fun e =>
      dayOk subjectLimits e.1.1 e.1.2.1 e.1.2.2 e.2.length

end Check

/-! ### What it decides -/

variable (u : Unicode) (offSlots : List String) (subjectLimits : SubjectLimitMap)

/-- The lesson has a slot that its class is not off at. -/
def Fits (lesson : Lesson) : Prop :=
  ∃ slot, lessonSlot lesson = some slot ∧ lessonClassId lesson ≠ "" ∧ lessonSubject lesson ≠ "" ∧
    slotKey (lessonClassId lesson) slot ∉ offSlots

/-- Two lessons share a slot, and a class, a teacher or a room. -/
def Clash (a b : Lesson) : Prop :=
  ∃ slot, lessonSlot a = some slot ∧ lessonSlot b = some slot ∧
    (lessonClassId a = lessonClassId b ∨
      (lessonTeacherKey u a ≠ "" ∧ lessonTeacherKey u a = lessonTeacherKey u b) ∨
      (lessonRoomKey u a ≠ "" ∧ lessonRoomKey u a = lessonRoomKey u b))

theorem Clash.symm {a b : Lesson} (h : Clash u a b) : Clash u b a := by
  obtain ⟨slot, ha, hb, hshare⟩ := h
  refine ⟨slot, hb, ha, ?_⟩
  rcases hshare with hclass | ⟨hne, heq⟩ | ⟨hne, heq⟩
  · exact Or.inl hclass.symm
  · exact Or.inr (Or.inl ⟨heq ▸ hne, heq.symm⟩)
  · exact Or.inr (Or.inr ⟨heq ▸ hne, heq.symm⟩)

/-- The periods of a class and subject in a session, in the order of the lessons. -/
def periodsOf (lessons : List Lesson) (key : String × String × Int × SessionKey) : List Int :=
  valuesAt key (lessons.filterMap (sessionPosition u))

/-- The number of lessons of a class and subject on a day. -/
def countOn (lessons : List Lesson) (key : String × String × Int) : Nat :=
  (valuesAt key (lessons.filterMap (dayPosition u))).length

structure HardOk (lessons : List Lesson) : Prop where
  fits : ∀ lesson ∈ lessons, Fits offSlots lesson
  apart : lessons.Pairwise fun a b => ¬ Clash u a b
  sessions : ∀ key, sessionOk subjectLimits key.1 key.2.1 (periodsOf u lessons key) = true
  days : ∀ key, dayOk subjectLimits key.1 key.2.1 key.2.2 (countOn u lessons key) = true

/-- None of the keys of the lesson is taken. -/
def Untaken (taken : Taken) (lesson : Lesson) : Prop :=
  ∀ slot, lessonSlot lesson = some slot →
    slotKey (lessonClassId lesson) slot ∉ taken.classSlots ∧
    (lessonTeacherKey u lesson ≠ "" →
      resourceSlotKey u (lessonTeacherKey u lesson) slot ∉ taken.teacherSlots) ∧
    (lessonRoomKey u lesson ≠ "" → resourceSlotKey u (lessonRoomKey u lesson) slot ∉ taken.roomSlots)

theorem untaken_empty (lesson : Lesson) : Untaken u {} lesson :=
  fun _ _ => ⟨List.not_mem_nil, fun _ => List.not_mem_nil, fun _ => List.not_mem_nil⟩

theorem takeSlots_eq_some_iff {taken taken' : Taken} {lesson : Lesson} :
    takeSlots u offSlots taken lesson = some taken' ↔ Fits offSlots lesson ∧ Untaken u taken lesson ∧
      ∃ slot, lessonSlot lesson = some slot ∧ taken' = taken.book u lesson slot := by
  unfold takeSlots Fits Untaken
  cases hslot : lessonSlot lesson with
  | none => simp
  | some slot =>
    simp only [Option.bind_some, Option.some.injEq, exists_eq_left', forall_eq']
    constructor
    · intro h
      split at h
      · cases h
      · rename_i hnames
        split at h
        · cases h
        · rename_i hoff
          split at h
          · cases h
          · rename_i hclass
            split at h
            · cases h
            · rename_i hteacher
              split at h
              · cases h
              · rename_i hroom
                cases h
                rw [not_or] at hnames
                exact ⟨⟨hnames.1, hnames.2, hoff⟩,
                  ⟨hclass, fun hne hin => hteacher ⟨hne, hin⟩, fun hne hin => hroom ⟨hne, hin⟩⟩, rfl⟩
    · intro h
      obtain ⟨⟨hclassId, hsubject, hoff⟩, ⟨hclass, hteacher, hroom⟩, heq⟩ := h
      rw [if_neg (not_or.mpr ⟨hclassId, hsubject⟩), if_neg hoff, if_neg hclass,
        if_neg fun hin => hteacher hin.1 hin.2, if_neg fun hin => hroom hin.1 hin.2, heq]

/-- A booking takes the keys of the lessons that clash with the booked one. -/
theorem untaken_book_iff {taken : Taken} {lesson other : Lesson} {slot : Slot}
    (h : lessonSlot lesson = some slot) :
    Untaken u (taken.book u lesson slot) other ↔ Untaken u taken other ∧ ¬ Clash u lesson other := by
  have hkey : ∀ r : Lesson, norm u (lessonTeacherKey u r) = lessonTeacherKey u r ∧
      norm u (lessonRoomKey u r) = lessonRoomKey u r :=
    fun r => ⟨norm_norm u _, norm_norm u _⟩
  constructor
  · intro hun
    constructor
    · intro slot' hslot'
      obtain ⟨hclass, hteacher, hroom⟩ := hun slot' hslot'
      refine ⟨fun hin => hclass (List.mem_cons_of_mem _ hin), fun hne hin => hteacher hne ?_,
        fun hne hin => hroom hne ?_⟩
      · simp only [Taken.book]
        split
        · exact hin
        · exact List.mem_cons_of_mem _ hin
      · simp only [Taken.book]
        split
        · exact hin
        · exact List.mem_cons_of_mem _ hin
    · intro hclash
      obtain ⟨slot', hl, ho, hshare⟩ := hclash
      rw [h] at hl
      cases hl
      obtain ⟨hclass, hteacher, hroom⟩ := hun slot ho
      rcases hshare with heq | ⟨hne, heq⟩ | ⟨hne, heq⟩
      · apply hclass
        rw [← heq]
        exact List.mem_cons_self
      · apply hteacher (heq ▸ hne)
        simp only [Taken.book, if_neg hne]
        rw [← heq]
        exact List.mem_cons_self
      · apply hroom (heq ▸ hne)
        simp only [Taken.book, if_neg hne]
        rw [← heq]
        exact List.mem_cons_self
  · intro hboth slot' hslot'
    obtain ⟨hun, hnot⟩ := hboth
    obtain ⟨hclass, hteacher, hroom⟩ := hun slot' hslot'
    refine ⟨fun hin => ?_, fun hne hin => ?_, fun hne hin => ?_⟩
    · cases List.mem_cons.mp hin with
      | inl heq =>
        obtain ⟨hname, rfl⟩ := slotKey_eq_iff.mp heq
        exact hnot ⟨_, h, hslot', Or.inl hname.symm⟩
      | inr hin => exact hclass hin
    · simp only [Taken.book] at hin
      by_cases hempty : lessonTeacherKey u lesson = ""
      · rw [if_pos hempty] at hin
        exact hteacher hne hin
      · rw [if_neg hempty] at hin
        cases List.mem_cons.mp hin with
        | inl heq =>
          obtain ⟨hname, rfl⟩ := (resourceSlotKey_eq_iff u).mp heq
          rw [(hkey _).1, (hkey _).1] at hname
          exact hnot ⟨_, h, hslot', Or.inr (Or.inl ⟨hempty, hname.symm⟩)⟩
        | inr hin => exact hteacher hne hin
    · simp only [Taken.book] at hin
      by_cases hempty : lessonRoomKey u lesson = ""
      · rw [if_pos hempty] at hin
        exact hroom hne hin
      · rw [if_neg hempty] at hin
        cases List.mem_cons.mp hin with
        | inl heq =>
          obtain ⟨hname, rfl⟩ := (resourceSlotKey_eq_iff u).mp heq
          rw [(hkey _).2, (hkey _).2] at hname
          exact hnot ⟨_, h, hslot', Or.inr (Or.inr ⟨hempty, hname.symm⟩)⟩
        | inr hin => exact hroom hne hin

theorem foldlM_takeSlots (lessons : List Lesson) (taken : Taken) :
    (lessons.foldlM (takeSlots u offSlots) taken).isSome = true ↔
      (∀ lesson ∈ lessons, Fits offSlots lesson ∧ Untaken u taken lesson) ∧
        lessons.Pairwise fun a b => ¬ Clash u a b := by
  induction lessons generalizing taken with
  | nil => simp
  | cons lesson rest ih =>
    rw [List.foldlM_cons, List.pairwise_cons, List.forall_mem_cons]
    cases htake : takeSlots u offSlots taken lesson with
    | none =>
      constructor
      · intro h
        cases h
      · intro h
        obtain ⟨⟨⟨hfits, huntaken⟩, _⟩, _⟩ := h
        obtain ⟨slot, hslot, _⟩ := id hfits
        have hsome := (takeSlots_eq_some_iff u offSlots).mpr ⟨hfits, huntaken, slot, hslot, rfl⟩
        rw [htake] at hsome
        cases hsome
    | some taken' =>
      obtain ⟨hfits, huntaken, slot, hslot, rfl⟩ := (takeSlots_eq_some_iff u offSlots).mp htake
      have hbook := fun other => @untaken_book_iff u taken lesson other slot hslot
      refine (ih (taken.book u lesson slot)).trans ?_
      simp only [hbook]
      constructor
      · intro h
        refine ⟨⟨⟨hfits, huntaken⟩, fun other hother => ?_⟩, fun other hother => ?_, h.2⟩
        · exact ⟨(h.1 other hother).1, (h.1 other hother).2.1⟩
        · exact (h.1 other hother).2.2
      · intro h
        refine ⟨fun other hother => ?_, h.2.2⟩
        exact ⟨(h.1.2 other hother).1, (h.1.2 other hother).2, h.2.1 other hother⟩

theorem sessionOk_nil (classId subjectKey : String) :
    sessionOk subjectLimits classId subjectKey [] = true := by
  have hlimit : ¬ ((0 : Nat) : Int) > sessionLimit subjectLimits classId subjectKey := by
    have hone : 1 ≤ sessionLimit subjectLimits classId subjectKey := le_max_right _ _
    omega
  simp only [sessionOk, List.length_nil, decide_eq_false hlimit]
  rfl

theorem dayOk_zero (classId subjectKey : String) (day : Int) :
    dayOk subjectLimits classId subjectKey day 0 = true := by
  rw [dayOk, Bool.not_eq_true', Option.any_eq_false]
  intro limit hlimit
  obtain ⟨rule, _, hday⟩ := Option.bind_eq_some_iff.mp hlimit
  have hpos := rule.positive (day, limit) (mem_of_lookup hday)
  have hle : ¬ ((0 : Nat) : Int) > limit := by
    have hpos : 0 < limit := hpos
    omega
  rw [decide_eq_false hle]

/-- The hard check decides the hard constraints. -/
theorem scheduleHardOk_iff (lessons : List Lesson) :
    scheduleHardOk u offSlots subjectLimits lessons = true ↔ HardOk u offSlots subjectLimits lessons := by
  rw [scheduleHardOk, Bool.and_eq_true, Bool.and_eq_true, foldlM_takeSlots,
    grouped_all_iff fun key => sessionOk_nil subjectLimits key.1 key.2.1,
    grouped_all_iff fun key => dayOk_zero subjectLimits key.1 key.2.1 key.2.2]
  constructor
  · intro h
    obtain ⟨⟨⟨hall, hpair⟩, hsessions⟩, hdays⟩ := h
    exact ⟨fun lesson hin => (hall lesson hin).1, hpair, hsessions, hdays⟩
  · intro h
    exact ⟨⟨⟨fun lesson hin => ⟨h.fits lesson hin, untaken_empty u lesson⟩, h.apart⟩, h.sessions⟩,
      h.days⟩

end TkbCherry.Native
