import TkbCherry.Native.HardOk
import TkbCherry.Lib.Indexed

/-!
# Moving one lesson

`can_move_lesson_to_slot` looks at the moved lesson only, and agrees with the hard check of the
schedule after the move.
-/

namespace TkbCherry.Native
open Text Grouping AssocList

set_option autoImplicit false

/-- `set_lesson_slot(&mut lessons[index], slot)`. -/
def moveLesson (lessons : List Lesson) (index : Nat) (slot : Slot) : List Lesson :=
  lessons.modify index fun lesson => setLessonSlot lesson slot

section Check
variable (u : Unicode) (offSlots : List String) (subjectLimits : SubjectLimitMap)

/-- The loop over the lessons in `class_subject_limits_ok_after_move`. -/
def positionsAfterMove (lessons : List Lesson) (movingIndex : Nat) (targetSlot : Slot)
    (classId subjectKey : String) (day : Int) : List (SessionKey × Int) :=
  lessons.zipIdx.filterMap fun e =>
    if lessonClassId e.1 ≠ classId ∨ norm u (lessonSubject e.1) ≠ subjectKey then none
    else (if e.2 = movingIndex then some targetSlot else lessonSlot e.1).bind fun slot =>
      if slot.day = day then some (slot.sessionKey, (slot.periodIndex.val : Int)) else none

def classSubjectLimitsOkAfterMove (lessons : List Lesson) (movingIndex : Nat) (targetSlot : Slot)
    (classId subject : String) (day : Int) : Bool :=
  let subjectKey := norm u subject
  let positionsBySession :=
    grouped (positionsAfterMove u lessons movingIndex targetSlot classId subjectKey day)
  let dayCount := (positionsBySession.map fun e => e.2.length).sum
  dayOk subjectLimits classId subjectKey day dayCount &&
    positionsBySession.all fun e => sessionOk subjectLimits classId subjectKey e.2

/-- The loop body over the other lessons in `can_move_lesson_to_slot`. -/
def leavesFree (lesson : Lesson) (targetSlot : Slot) (other : Lesson) : Bool :=
  (lessonSlot other).all fun otherSlot =>
    !(decide (otherSlot = targetSlot) &&
      (decide (lessonClassId other = lessonClassId lesson) ||
        (decide (lessonTeacherKey u lesson ≠ "") &&
          decide (lessonTeacherKey u other = lessonTeacherKey u lesson)) ||
        (decide (lessonRoomKey u lesson ≠ "") &&
          decide (lessonRoomKey u other = lessonRoomKey u lesson))))

def canMoveLessonToSlot (lessons : List Lesson) (lessonIndex : Nat) (targetSlot : Slot) : Bool :=
  (lessons[lessonIndex]?).any fun lesson =>
    let classId := lessonClassId lesson
    let subject := lessonSubject lesson
    if lesson.fixed then false
    else if classId = "" ∨ subject = "" then false
    else (lessonSlot lesson).any fun sourceSlot =>
      if sourceSlot = targetSlot then false
      else if slotKey classId targetSlot ∈ offSlots then false
      else
        (lessons.zipIdx.all fun e =>
          decide (e.2 = lessonIndex) || leavesFree u lesson targetSlot e.1) &&
        ([sourceSlot.day, targetSlot.day].dedup.all fun day =>
          classSubjectLimitsOkAfterMove u subjectLimits lessons lessonIndex targetSlot classId subject
            day)

end Check

variable (u : Unicode) (offSlots : List String) (subjectLimits : SubjectLimitMap)

/-! ### Periods after the move -/

/-- The session and period of a lesson of the class and subject on the day. -/
def positionOn (classId subjectKey : String) (day : Int) (lesson : Lesson) : Option (SessionKey × Int) :=
  if lessonClassId lesson ≠ classId ∨ norm u (lessonSubject lesson) ≠ subjectKey then none
  else (lessonSlot lesson).bind fun slot =>
    if slot.day = day then some (slot.sessionKey, (slot.periodIndex.val : Int)) else none

/-- The loop reads the moved schedule. -/
theorem positionsAfterMove_eq (lessons : List Lesson) (index : Nat) (target : Slot)
    (classId subjectKey : String) (day : Int) :
    positionsAfterMove u lessons index target classId subjectKey day =
      (moveLesson lessons index target).filterMap (positionOn u classId subjectKey day) := by
  rw [positionsAfterMove, moveLesson, Indexed.filterMap_modify]
  apply List.filterMap_congr
  intro e _
  by_cases hi : e.2 = index
  · simp only [positionOn, if_pos hi, lessonSlot_setLessonSlot, lessonClassId_setLessonSlot,
      lessonSubject_setLessonSlot]
  · simp only [positionOn, if_neg hi]

theorem valuesAt_positionOn (lessons : List Lesson) (classId subjectKey : String) (day : Int)
    (session : SessionKey) :
    valuesAt session (lessons.filterMap (positionOn u classId subjectKey day)) =
      periodsOf u lessons (classId, subjectKey, day, session) := by
  rw [valuesAt_filterMap, periodsOf, valuesAt_filterMap]
  apply List.filterMap_congr
  intro lesson _
  unfold positionOn sessionPosition
  cases lessonSlot lesson with
  | none => simp
  | some slot =>
    simp only [Option.bind_some, Option.map_some, Prod.mk.injEq]
    by_cases hclass : lessonClassId lesson = classId
    · by_cases hsubject : norm u (lessonSubject lesson) = subjectKey
      · by_cases hday : slot.day = day <;> simp [hclass, hsubject, hday]
      · simp [hsubject]
    · simp [hclass]

theorem length_positionOn (lessons : List Lesson) (classId subjectKey : String) (day : Int) :
    (lessons.filterMap (positionOn u classId subjectKey day)).length =
      countOn u lessons (classId, subjectKey, day) := by
  rw [countOn, valuesAt_filterMap, List.length_filterMap_eq_countP, List.length_filterMap_eq_countP]
  apply List.countP_congr
  intro lesson _
  unfold positionOn dayPosition
  cases lessonSlot lesson with
  | none => simp
  | some slot =>
    simp only [Option.bind_some, Option.map_some, Prod.mk.injEq]
    by_cases hclass : lessonClassId lesson = classId
    · by_cases hsubject : norm u (lessonSubject lesson) = subjectKey
      · by_cases hday : slot.day = day <;> simp [hclass, hsubject, hday]
      · simp [hsubject]
    · simp [hclass]

theorem classSubjectLimitsOkAfterMove_iff (lessons : List Lesson) (index : Nat) (target : Slot)
    (classId subject : String) (day : Int) :
    classSubjectLimitsOkAfterMove u subjectLimits lessons index target classId subject day = true ↔
      dayOk subjectLimits classId (norm u subject) day
          (countOn u (moveLesson lessons index target) (classId, norm u subject, day)) = true ∧
        ∀ session, sessionOk subjectLimits classId (norm u subject)
          (periodsOf u (moveLesson lessons index target) (classId, norm u subject, day, session)) =
            true := by
  rw [classSubjectLimitsOkAfterMove, Bool.and_eq_true, sum_length_grouped,
    grouped_all_iff fun _ => sessionOk_nil subjectLimits classId (norm u subject),
    positionsAfterMove_eq, length_positionOn]
  simp only [valuesAt_positionOn]

/-! ### The other lessons -/

theorem leavesFree_iff (lesson : Lesson) (target : Slot) (other : Lesson) :
    leavesFree u lesson target other = true ↔ ¬ Clash u (setLessonSlot lesson target) other := by
  unfold leavesFree Clash
  simp only [lessonSlot_setLessonSlot, lessonClassId_setLessonSlot, lessonTeacherKey_setLessonSlot,
    lessonRoomKey_setLessonSlot, Option.some.injEq]
  cases lessonSlot other with
  | none => simp
  | some slot =>
    simp only [Option.all_some, Bool.not_eq_true', Bool.and_eq_false_iff, Bool.or_eq_false_iff,
      decide_eq_false_iff_not, Option.some.injEq]
    constructor
    · intro h hclash
      obtain ⟨_, rfl, rfl, hshare⟩ := hclash
      rcases h with hne | ⟨⟨hclass, hteacher⟩, hroom⟩
      · exact hne rfl
      rcases hshare with heq | ⟨hne, heq⟩ | ⟨hne, heq⟩
      · exact hclass heq.symm
      · rcases hteacher with h | h
        · exact h hne
        · exact h heq.symm
      · rcases hroom with h | h
        · exact h hne
        · exact h heq.symm
    · intro h
      by_cases hslot : slot = target
      · subst hslot
        right
        refine ⟨⟨fun heq => h ⟨slot, rfl, rfl, Or.inl heq.symm⟩, ?_⟩, ?_⟩
        · by_cases hne : lessonTeacherKey u lesson = ""
          · exact Or.inl fun hn => hn hne
          · exact Or.inr fun heq => h ⟨slot, rfl, rfl, Or.inr (Or.inl ⟨hne, heq.symm⟩)⟩
        · by_cases hne : lessonRoomKey u lesson = ""
          · exact Or.inl fun hn => hn hne
          · exact Or.inr fun heq => h ⟨slot, rfl, rfl, Or.inr (Or.inr ⟨hne, heq.symm⟩)⟩
      · exact Or.inl hslot

theorem leavesFree_all_iff {lessons : List Lesson} {index : Nat} {lesson : Lesson} {target : Slot} :
    (lessons.zipIdx.all fun e => decide (e.2 = index) || leavesFree u lesson target e.1) = true ↔
      ∀ (j : Nat) (other : Lesson), j ≠ index → lessons[j]? = some other →
        ¬ Clash u (setLessonSlot lesson target) other := by
  rw [List.all_eq_true]
  simp only [Bool.or_eq_true, decide_eq_true_eq, leavesFree_iff]
  constructor
  · intro h j other hne hother
    exact (h (other, j) (List.mk_mem_zipIdx_iff_getElem?.mpr hother)).resolve_left hne
  · intro h e he
    by_cases hi : e.2 = index
    · exact Or.inl hi
    · exact Or.inr (h e.2 e.1 hi (List.mk_mem_zipIdx_iff_getElem?.mp he))

/-! ### The move -/

theorem periodsOf_moveLesson {lessons : List Lesson} {index : Nat} {lesson : Lesson} {source target : Slot}
    (hlesson : lessons[index]? = some lesson) (hsource : lessonSlot lesson = some source)
    {key : String × String × Int × SessionKey}
    (hkey : key.1 = lessonClassId lesson → key.2.1 = norm u (lessonSubject lesson) →
      key.2.2.1 ≠ source.day ∧ key.2.2.1 ≠ target.day) :
    periodsOf u (moveLesson lessons index target) key = periodsOf u lessons key := by
  rw [periodsOf, periodsOf, valuesAt_filterMap, valuesAt_filterMap, moveLesson]
  apply Indexed.filterMap_modify_eq
  intro l hl
  rw [hlesson] at hl
  cases hl
  obtain ⟨classId, subjectKey, day, session⟩ := key
  have hold : ∀ slot : Slot, (slot = source ∨ slot = target) →
      (lessonClassId lesson, norm u (lessonSubject lesson), slot.day, slot.sessionKey) ≠
        (classId, subjectKey, day, session) := by
    intro slot hslot heq
    simp only [Prod.mk.injEq] at heq
    obtain ⟨hs, ht⟩ := hkey heq.1.symm heq.2.1.symm
    cases hslot with
    | inl h => exact hs (h ▸ heq.2.2.1.symm)
    | inr h => exact ht (h ▸ heq.2.2.1.symm)
  simp only [sessionPosition, lessonSlot_setLessonSlot, lessonClassId_setLessonSlot,
    lessonSubject_setLessonSlot, hsource, Option.map_some, Option.bind_some]
  rw [if_neg (hold source (Or.inl rfl)), if_neg (hold target (Or.inr rfl))]

theorem countOn_moveLesson {lessons : List Lesson} {index : Nat} {lesson : Lesson} {source target : Slot}
    (hlesson : lessons[index]? = some lesson) (hsource : lessonSlot lesson = some source)
    {key : String × String × Int}
    (hkey : key.1 = lessonClassId lesson → key.2.1 = norm u (lessonSubject lesson) →
      key.2.2 ≠ source.day ∧ key.2.2 ≠ target.day) :
    countOn u (moveLesson lessons index target) key = countOn u lessons key := by
  rw [countOn, countOn, valuesAt_filterMap, valuesAt_filterMap, moveLesson]
  apply congrArg List.length
  apply Indexed.filterMap_modify_eq
  intro l hl
  rw [hlesson] at hl
  cases hl
  obtain ⟨classId, subjectKey, day⟩ := key
  have hold : ∀ slot : Slot, (slot = source ∨ slot = target) →
      (lessonClassId lesson, norm u (lessonSubject lesson), slot.day) ≠ (classId, subjectKey, day) := by
    intro slot hslot heq
    simp only [Prod.mk.injEq] at heq
    obtain ⟨hs, ht⟩ := hkey heq.1.symm heq.2.1.symm
    cases hslot with
    | inl h => exact hs (h ▸ heq.2.2.symm)
    | inr h => exact ht (h ▸ heq.2.2.symm)
  simp only [dayPosition, lessonSlot_setLessonSlot, lessonClassId_setLessonSlot,
    lessonSubject_setLessonSlot, hsource, Option.map_some, Option.bind_some]
  rw [if_neg (hold source (Or.inl rfl)), if_neg (hold target (Or.inr rfl))]

/-- What the move of a lesson leaves to check. -/
theorem hardOk_moveLesson_iff {lessons : List Lesson} {index : Nat} {lesson : Lesson}
    {source target : Slot} (h : HardOk u offSlots subjectLimits lessons)
    (hlesson : lessons[index]? = some lesson) (hsource : lessonSlot lesson = some source) :
    HardOk u offSlots subjectLimits (moveLesson lessons index target) ↔
      slotKey (lessonClassId lesson) target ∉ offSlots ∧
      (∀ (j : Nat) (other : Lesson), j ≠ index → lessons[j]? = some other →
        ¬ Clash u (setLessonSlot lesson target) other) ∧
      ∀ day, day = source.day ∨ day = target.day →
        classSubjectLimitsOkAfterMove u subjectLimits lessons index target (lessonClassId lesson)
          (lessonSubject lesson) day = true := by
  have hsymm : ∀ {a b : Lesson}, ¬ Clash u a b → ¬ Clash u b a := fun hn hc => hn (hc.symm u)
  obtain ⟨_, _, hclass, hsubject, _⟩ := h.fits lesson (List.mem_of_getElem? hlesson)
  have hfits : Fits offSlots (setLessonSlot lesson target) ↔
      slotKey (lessonClassId lesson) target ∉ offSlots := by
    simp only [Fits, lessonSlot_setLessonSlot, lessonClassId_setLessonSlot,
      lessonSubject_setLessonSlot, Option.some.injEq, exists_eq_left']
    exact ⟨fun hf => hf.2.2, fun hf => ⟨hclass, hsubject, hf⟩⟩
  simp only [classSubjectLimitsOkAfterMove_iff]
  constructor
  · intro hm
    refine ⟨hfits.mp ((Indexed.forall_mem_modify hlesson h.fits).mp hm.fits),
      (Indexed.pairwise_modify_iff hsymm hlesson h.apart).mp hm.apart, fun day _ => ⟨?_, ?_⟩⟩
    · exact hm.days (lessonClassId lesson, norm u (lessonSubject lesson), day)
    · exact fun session => hm.sessions (lessonClassId lesson, norm u (lessonSubject lesson), day, session)
  · intro hm
    obtain ⟨hoff, hapart, hlimits⟩ := hm
    refine ⟨(Indexed.forall_mem_modify hlesson h.fits).mpr (hfits.mpr hoff),
      (Indexed.pairwise_modify_iff hsymm hlesson h.apart).mpr hapart, fun key => ?_, fun key => ?_⟩
    · by_cases hkey : key.1 = lessonClassId lesson ∧ key.2.1 = norm u (lessonSubject lesson) ∧
        (key.2.2.1 = source.day ∨ key.2.2.1 = target.day)
      · obtain ⟨classId, subjectKey, day, session⟩ := key
        obtain ⟨rfl, rfl, hday⟩ := hkey
        exact (hlimits day hday).2 session
      · rw [periodsOf_moveLesson u hlesson hsource]
        · exact h.sessions key
        · intro hc hs
          exact ⟨fun hd => hkey ⟨hc, hs, Or.inl hd⟩, fun hd => hkey ⟨hc, hs, Or.inr hd⟩⟩
    · by_cases hkey : key.1 = lessonClassId lesson ∧ key.2.1 = norm u (lessonSubject lesson) ∧
        (key.2.2 = source.day ∨ key.2.2 = target.day)
      · obtain ⟨classId, subjectKey, day⟩ := key
        obtain ⟨rfl, rfl, hday⟩ := hkey
        exact (hlimits day hday).1
      · rw [countOn_moveLesson u hlesson hsource]
        · exact h.days key
        · intro hc hs
          exact ⟨fun hd => hkey ⟨hc, hs, Or.inl hd⟩, fun hd => hkey ⟨hc, hs, Or.inr hd⟩⟩

/-- The check of a move is the hard check of the schedule after it. -/
theorem canMoveLessonToSlot_eq {lessons : List Lesson} {index : Nat} {lesson : Lesson}
    (h : scheduleHardOk u offSlots subjectLimits lessons = true)
    (hlesson : lessons[index]? = some lesson) (hfixed : lesson.fixed = false) (target : Slot)
    (htarget : lessonSlot lesson ≠ some target) :
    canMoveLessonToSlot u offSlots subjectLimits lessons index target =
      scheduleHardOk u offSlots subjectLimits (moveLesson lessons index target) := by
  have hok := (scheduleHardOk_iff u offSlots subjectLimits lessons).mp h
  obtain ⟨source, hsource, hclass, hsubject, _⟩ := hok.fits lesson (List.mem_of_getElem? hlesson)
  have hne : source ≠ target := by
    intro heq
    rw [hsource, heq] at htarget
    exact htarget rfl
  have hall : ∀ p : Int → Bool, [source.day, target.day].dedup.all p = true ↔
      ∀ day, day = source.day ∨ day = target.day → p day = true := by
    intro p
    simp only [List.all_eq_true, List.mem_dedup, List.mem_cons, List.not_mem_nil, or_false]
  rw [Bool.eq_iff_iff, scheduleHardOk_iff,
    hardOk_moveLesson_iff u offSlots subjectLimits hok hlesson hsource, canMoveLessonToSlot, hlesson,
    Option.any_some]
  simp only [hfixed, Bool.false_eq_true, if_false, if_neg (not_or.mpr ⟨hclass, hsubject⟩), hsource,
    Option.any_some, if_neg hne]
  by_cases hoff : slotKey (lessonClassId lesson) target ∈ offSlots
  · rw [if_pos hoff]
    constructor
    · intro hf
      cases hf
    · intro hm
      exact absurd hoff hm.1
  · rw [if_neg hoff, Bool.and_eq_true, leavesFree_all_iff, hall]
    exact ⟨fun hm => ⟨hoff, hm⟩, fun hm => hm.2⟩

def twoLessons : List Lesson := [
  { classId := "6A", subject := "Toan", teacher := "GV1", room := "", day := 2, session := .AM, period := 1,
    fixed := false },
  { classId := "6A", subject := "Van", teacher := "GV2", room := "", day := 2, session := .AM, period := 2,
    fixed := false }]

theorem twoLessons_move :
    canMoveLessonToSlot asciiTables [] (fun _ _ => none) twoLessons 0 ⟨3, .sang, 0⟩ = true ∧
    canMoveLessonToSlot asciiTables [] (fun _ _ => none) twoLessons 0 ⟨3, .sang, 0⟩ =
      scheduleHardOk asciiTables [] (fun _ _ => none) (moveLesson twoLessons 0 ⟨3, .sang, 0⟩) :=
  ⟨by decide +kernel, canMoveLessonToSlot_eq asciiTables [] (fun _ _ => none) (by decide +kernel) rfl rfl
    ⟨3, .sang, 0⟩ (by decide)⟩

end TkbCherry.Native
