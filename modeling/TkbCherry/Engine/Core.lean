import TkbCherry.Lib.Json
import Mathlib.Data.Fintype.Prod
import Mathlib.Logic.Function.Basic

/-!
# The compiled scheduling problem

Days, sessions, periods and slots of the week, the compiled rule bundles, and `Problem`
itself. A session is a half day, `s = 2 * day + part`, and a slot is `5 * s + p`.
An index list of the source is a function on `Fin`, and `-1` is `none`.
-/

namespace TkbCherry.Engine

set_option autoImplicit false

abbrev Day := Fin 6
abbrev Session := Fin 12
abbrev Period := Fin 5
abbrev Slot := Fin 60

-- Instances under a name, so that every module finds the same ones.
instance neZeroDays : NeZero 6 := ⟨by decide⟩
instance neZeroSessions : NeZero 12 := ⟨by decide⟩
instance neZeroSlots : NeZero 60 := ⟨by decide⟩
instance neZeroPeriods : NeZero 5 := ⟨by decide⟩
instance neZeroParts : NeZero 2 := ⟨by decide⟩
instance neZeroSingle : NeZero 1 := ⟨by decide⟩
instance lawfulBEqPeriod : LawfulBEq Period := inferInstance
instance lawfulBEqSlot : LawfulBEq Slot := inferInstance

/-- `base + p` with `base = s * PERIODS`. -/
def slotAt (s : Session) (p : Period) : Slot := ⟨s.val * 5 + p.val, by omega⟩

/-- `slot // PERIODS`. -/
def sessionOfSlot (slot : Slot) : Session := ⟨slot.val / 5, by omega⟩

/-- `slot - base`. -/
def periodOfSlot (slot : Slot) : Period := ⟨slot.val % 5, by omega⟩

/-- `s // 2`. -/
def dayOf (s : Session) : Day := ⟨s.val / 2, by omega⟩

/-- `s % 2`: `0` is the morning. -/
def partOf (s : Session) : Fin 2 := ⟨s.val % 2, by omega⟩

def morning (d : Day) : Session := ⟨d.val * 2, by omega⟩
def afternoon (d : Day) : Session := ⟨d.val * 2 + 1, by omega⟩

def allDays : List Day := List.finRange 6
def allSessions : List Session := List.finRange 12
def allPeriods : List Period := List.finRange 5
def allSlots : List Slot := List.finRange 60

@[simp] theorem sessionOfSlot_slotAt (s : Session) (p : Period) :
    sessionOfSlot (slotAt s p) = s := by
  apply Fin.ext
  simp only [sessionOfSlot, slotAt]
  omega

@[simp] theorem periodOfSlot_slotAt (s : Session) (p : Period) :
    periodOfSlot (slotAt s p) = p := by
  apply Fin.ext
  simp only [periodOfSlot, slotAt]
  omega

@[simp] theorem slotAt_session_period (slot : Slot) :
    slotAt (sessionOfSlot slot) (periodOfSlot slot) = slot := by
  apply Fin.ext
  simp only [sessionOfSlot, periodOfSlot, slotAt]
  omega

theorem slotAt_eq_iff (s : Session) (p : Period) (slot : Slot) :
    slotAt s p = slot ↔ s = sessionOfSlot slot ∧ p = periodOfSlot slot := by
  constructor
  · rintro rfl
    simp
  · rintro ⟨rfl, rfl⟩
    simp

theorem dayOf_eq_iff (s : Session) (d : Day) :
    dayOf s = d ↔ s = morning d ∨ s = afternoon d := by
  simp only [dayOf, morning, afternoon, Fin.ext_iff]
  omega

@[simp] theorem dayOf_morning (d : Day) : dayOf (morning d) = d :=
  (dayOf_eq_iff _ d).mpr (Or.inl rfl)

@[simp] theorem dayOf_afternoon (d : Day) : dayOf (afternoon d) = d :=
  (dayOf_eq_iff _ d).mpr (Or.inr rfl)

theorem morning_ne_afternoon (d e : Day) : morning d ≠ afternoon e := by
  simp only [morning, afternoon, ne_eq, Fin.mk.injEq]
  omega

theorem mem_allDays (d : Day) : d ∈ allDays := List.mem_finRange d
theorem mem_allSessions (s : Session) : s ∈ allSessions := List.mem_finRange s
theorem mem_allPeriods (p : Period) : p ∈ allPeriods := List.mem_finRange p
theorem mem_allSlots (slot : Slot) : slot ∈ allSlots := List.mem_finRange slot

/-- Merged subject and subject-group rules of one class and subject. A cap of `0` is no cap. -/
structure SubjectRule where
  partBanned : Fin 2 → Bool := fun _ => false
  oneSessionPerDay : Bool := false
  weeklyPartCap : Fin 2 → Int := fun _ => 0
  dayCap : Day → Int := fun _ => 0
  sessionPartCap : Fin 2 → Int := fun _ => 0
  maxSessionsWeek : Int := 0
  spacingDays : Int := 0
  avoid23 : Fin 2 → Bool := fun _ => false
  avoid34 : Fin 2 → Bool := fun _ => false
  linkedAvoided : Session → Bool := fun _ => false
  /-- `(length, minimum, maximum)` -/
  lessonBlocks : List (Int × Int × Int) := []
  maxSubjectsPart : Fin 2 → Int := fun _ => 0

inductive SessionMode where
  | free
  | morning
  | afternoon
  | either
deriving DecidableEq, Repr

structure TeacherRule where
  maxDays : Int := 0
  maxSessions : Int := 0
  maxMorning : Int := 0
  maxAfternoon : Int := 0
  sessionMode : Day → SessionMode := fun _ => .free
  dayPeriodCap : Day → Int := fun _ => 0
  /-- `(morning cap, afternoon cap)` -/
  sessionPeriodCap : Day → Int × Int := fun _ => (0, 0)
  noM5A1 : Day → Bool := fun _ => false
  /-- `(subject names, or none for all, per session, per day)` -/
  classPeriodCaps : List (Option (List String) × Int × Int) := []
  locOne : Session → Bool := fun _ => false
  locGap : Session → Bool := fun _ => false
  locMove : Session → Bool := fun _ => false
  /-- periods right after which there is a break -/
  locBreaks : Session → List Period := fun _ => []

/-- The loop of `location_rule_debt` over the consecutive entries: place changes, and the
changes between adjacent periods that no break separates. -/
def locationSteps (adjacent : Bool) (breaks : List Period) :
    Period × Nat → List (Period × Nat) → Int × Int
  | _, [] => (0, 0)
  | (prevP, prevLoc), (p, loc) :: rest =>
    let (changes, debt) := locationSteps adjacent breaks (p, loc) rest
    if loc ≠ prevLoc then
      (changes + 1,
        if adjacent && decide ((p.val : Int) - prevP.val ≤ 1) && decide (prevP ∉ breaks)
        then debt + 1 else debt)
    else (changes, debt)

/-- `location_rule_debt`: how far one teacher session breaks the place rules. -/
def locationRuleDebt (entries : List (Period × Nat)) (one gap move : Bool)
    (breaks : List Period) : Int :=
  match entries with
  | [] => 0
  | [_] => 0
  | first :: rest =>
    let distinct : Int := ((entries.map Prod.snd).eraseDups.length : Int)
    let adjacent := gap || !breaks.isEmpty
    let (changes, debt) :=
      if adjacent || move then locationSteps adjacent breaks first rest else (0, 0)
    (if one then distinct - 1 else 0) + debt +
      (if move && decide (changes > 1) then changes - 1 else 0)

/-- The compiled problem. Data that no check reads (grades, availability masks, exported
labels, place names) is left out. -/
structure Problem where
  numClasses : Nat
  numTeachers : Nat
  numSubjects : Nat
  numAssignments : Nat
  className : Fin numClasses → String
  teacherName : Fin numTeachers → String
  subjectName : Fin numSubjects → String
  aClass : Fin numAssignments → Fin numClasses
  aSubject : Fin numAssignments → Fin numSubjects
  /-- the first teacher of the assignment -/
  aTeacher : Fin numAssignments → Option (Fin numTeachers)
  /-- every teacher of the assignment, several for a co-taught one -/
  aTeachers : Fin numAssignments → List (Fin numTeachers)
  aRoom : Fin numAssignments → String
  aPeriods : Fin numAssignments → Nat
  aCap : Fin numAssignments → Int
  aAllowed : Fin numAssignments → Slot → Bool
  aRule : Fin numAssignments → Option SubjectRule
  aLoc : Fin numAssignments → Option Nat
  teacherRules : Fin numTeachers → Option TeacherRule
  teacherMust : Fin numTeachers → List Slot
  teacherLocRules : Fin numTeachers → Bool
  noSameSession : Fin numClasses → List (List (Fin numSubjects))
  noSameDay : Fin numClasses → List (List (Fin numSubjects))
  fixedCells : List (Fin numClasses × Slot × Fin numAssignments)
  fixedMask : Fin numClasses → Slot → Bool
  timeLimitRules : List Json
  subjectGroups : Fin numSubjects → List String
  groupRuleKeys : Fin numClasses → String → Option SubjectRule
  /-- kind, group id, and the names in the group -/
  rawGroups : String → String → List String

namespace Problem
variable (P : Problem)

abbrev Cls := Fin P.numClasses
abbrev Tch := Fin P.numTeachers
abbrev Sub := Fin P.numSubjects
abbrev Asg := Fin P.numAssignments

instance lawfulBEqTch : LawfulBEq P.Tch := inferInstance

/-- One row of sixty cells a class. -/
abbrev Grid := P.Cls → Slot → Option P.Asg

def allClasses : List P.Cls := List.finRange P.numClasses
def allTeachers : List P.Tch := List.finRange P.numTeachers
def allAssignments : List P.Asg := List.finRange P.numAssignments

/-- The teachers of a cell; none for an empty one. -/
def members (o : Option P.Asg) : List P.Tch := o.elim [] P.aTeachers

@[simp] theorem members_none : P.members none = [] := rfl
@[simp] theorem members_some (ai : P.Asg) : P.members (some ai) = P.aTeachers ai := rfl

end Problem

end TkbCherry.Engine
