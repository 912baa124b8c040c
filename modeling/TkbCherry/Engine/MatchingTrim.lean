import TkbCherry.Engine.State
import TkbCherry.Lib.Matching

/-!
# Trimming load no teacher can hold

`_teacher_matching_trim`: the periods of a teacher that are not fixed are matched with the slots
still free for them, and periods without a slot leave the problem before it is solved.
-/

namespace TkbCherry.Engine

set_option autoImplicit false

/-- An entry of the list of unassigned periods. -/
structure TrimEntry where
  classId : String
  className : String
  grade : String
  subject : String
  teacher : String
  room : String
  periods : Nat
  reason : String := "not_enough_available_slots"
  message : String := "Khong du o day cua giao vien sau khi ap dung tiet nghi/rang buoc."

/-- What the trim changes in a problem, and what it reports. -/
structure Trim (P : Problem) where
  periods : P.Asg → Nat
  rule : P.Asg → Option SubjectRule
  out : List TrimEntry

/-- The minimum of a block that the reduced periods allow. -/
def cutBlock (cap : Int) (periods : Nat) (block : Int × Int × Int) : Int × Int × Int :=
  let achievable := if cap < block.1 then 0 else max 0 ((periods : Int).fdiv block.1)
  (block.1, min block.2.1 achievable, block.2.2)

def SubjectRule.cutBlocks (rule : SubjectRule) (cap : Int) (periods : Nat) : SubjectRule :=
  { rule with lessonBlocks := rule.lessonBlocks.map (cutBlock cap periods) }

namespace Problem
variable (P : Problem)

/-- `fixed_count`. -/
def fixedCount (ai : P.Asg) : Nat := P.fixedCells.countP fun e => decide (e.2.2 = ai)

/-- `fixed_teacher_slots`. -/
def teacherFixedAt (t : P.Tch) (slot : Slot) : Bool :=
  P.fixedCells.any fun e => decide (e.2.1 = slot) && decide (t ∈ P.aTeachers e.2.2)

/-- `fixed_class_slots`. -/
def classFixedAt (c : P.Cls) (slot : Slot) : Bool :=
  P.fixedCells.any fun e => decide (e.2.1 = slot) && decide (e.1 = c)

/-- The periods of an assignment that are not fixed. -/
def residual (ai : P.Asg) : Nat := P.aPeriods ai - P.fixedCount ai

/-- `units`: the assignment of every period of a teacher that is not fixed. -/
def units (t : P.Tch) : List P.Asg :=
  (P.allAssignments.filter fun ai => decide (P.aTeacher ai = some t)).flatMap fun ai =>
    List.replicate (P.residual ai) ai

/-- The slots still free for a period. -/
def freeSlots (t : P.Tch) (ai : P.Asg) : List Slot :=
  allSlots.filter fun x =>
    P.aAllowed ai x && !P.teacherFixedAt t x && !P.classFixedAt (P.aClass ai) x

/-- `adj`. -/
def unitSlots (t : P.Tch) (u : Nat) : List Slot := (P.units t)[u]?.elim [] (P.freeSlots t)

/-- The loop over `try_kuhn`; sixty slots bound the depth of a search. -/
def unmatched (t : P.Tch) : List Nat :=
  (Matching.matchAll (P.unitSlots t) 60 (List.range (P.units t).length) fun _ => none).2

/-- The assignments of the unmatched units. -/
def unmatchedUnits (t : P.Tch) : List P.Asg := (P.unmatched t).filterMap fun u => (P.units t)[u]?

/-- The loop body for one trimmed assignment. -/
def trimAssignment (classId : String → Option String) (grade : P.Cls → String) (t : P.Tch)
    (tr : Trim P) (ai : P.Asg) : Trim P :=
  let drop := (P.unmatchedUnits t).count ai
  let newPeriods := max (P.fixedCount ai) (tr.periods ai - drop)
  let actuallyDropped := tr.periods ai - newPeriods
  if actuallyDropped = 0 then tr
  else
    { periods := Function.update tr.periods ai newPeriods
      rule := Function.update tr.rule ai ((tr.rule ai).map fun r => r.cutBlocks (P.aCap ai) newPeriods)
      out := tr.out ++
        [{ classId := (classId (P.className (P.aClass ai))).getD (P.className (P.aClass ai))
           className := P.className (P.aClass ai)
           grade := grade (P.aClass ai)
           subject := P.subjectName (P.aSubject ai)
           teacher := P.teacherName t
           room := P.aRoom ai
           periods := actuallyDropped }] }

/-- The loop body for one teacher. -/
def trimTeacher (classId : String → Option String) (grade : P.Cls → String) (tr : Trim P)
    (t : P.Tch) : Trim P :=
  (P.unmatchedUnits t).eraseDups.foldl (P.trimAssignment classId grade t) tr

/-- The keys of `by_teacher`, in the order of their first period. -/
def trimTeachers : List P.Tch :=
  ((P.allAssignments.filter fun ai => decide (0 < P.residual ai)).filterMap P.aTeacher).eraseDups

/-- `_teacher_matching_trim`. -/
def matchingTrim (classId : String → Option String) (grade : P.Cls → String) : Trim P :=
  P.trimTeachers.foldl (P.trimTeacher classId grade) ⟨P.aPeriods, P.aRule, []⟩

/-- The problem that is solved. -/
abbrev trimmed (classId : String → Option String) (grade : P.Cls → String) : Problem :=
  { P with
    aPeriods := (P.matchingTrim classId grade).periods
    aRule := (P.matchingTrim classId grade).rule }

end Problem

/-! ### One assignment -/

namespace Problem
variable {P : Problem}

section Loop
variable (classId : String → Option String) (grade : P.Cls → String)

/-- An assignment the loops have not reached. -/
def Fresh (tr : Trim P) (ai : P.Asg) : Prop := tr.periods ai = P.aPeriods ai ∧ tr.rule ai = P.aRule ai

/-- The periods the trim takes from a teacher. -/
def removed (P : Problem) (classId : String → Option String) (grade : P.Cls → String)
    (t : P.Tch) : Nat :=
  ((P.allAssignments.filter fun ai => decide (P.aTeacher ai = some t)).map fun ai =>
    P.aPeriods ai - (P.trimmed classId grade).aPeriods ai).sum

/-- Every unit takes a slot of its own. -/
def Matchable {α : Type} (slotsOf : α → List Slot) (units : List α) : Prop :=
  ∃ slots : List Slot, List.Forall₂ (fun u s => s ∈ slotsOf u) units slots ∧ slots.Nodup

theorem Matchable.perm {α : Type} {slotsOf : α → List Slot} {units units' : List α}
    (h : Matchable slotsOf units) (hperm : units'.Perm units) : Matchable slotsOf units' := by
  obtain ⟨slots, hslots, hnodup⟩ := h
  obtain ⟨slots', hslots', hperm'⟩ := List.perm_comp_forall₂ hperm hslots
  exact ⟨slots', hslots', hperm'.nodup_iff.mpr hnodup⟩

end Loop

end Problem

end TkbCherry.Engine
