import TkbCherry.Engine.Core

/-!
# Class-side checks

Each check reads the cells of its own scope only and returns the reason of the first
failure. A dictionary of the source is a list in insertion order.
-/

namespace TkbCherry.Engine

set_option autoImplicit false

/-- The first reason whose condition holds, as a chain of early returns. -/
def firstReason (conditions : List (Bool × String)) : Option String :=
  conditions.findSome? fun e => if e.1 then some e.2 else none

theorem firstReason_eq_none_iff (conditions : List (Bool × String)) :
    firstReason conditions = none ↔ ∀ e ∈ conditions, e.1 = false := by
  simp [firstReason, List.findSome?_eq_none_iff]

namespace Problem
variable (P : Problem)

/-- `subj_periods`: the subjects of a session with their periods. -/
def subjPeriods (cells : Period → Option P.Asg) : List (P.Sub × List Period) :=
  ((allPeriods.filterMap cells).map P.aSubject).eraseDups.map fun si =>
    (si, allPeriods.filter fun p => decide ((cells p).map P.aSubject = some si))

/-- `subj_assign[si]`: the assignment of the last cell of the subject. -/
def subjAssign (cells : Period → Option P.Asg) (si : P.Sub) : Option P.Asg :=
  ((allPeriods.filterMap cells).filter fun ai => decide (P.aSubject ai = si)).getLast?

/-- `periods[-1] - periods[0] + 1`. -/
def periodSpan (ps : List Period) : Int :=
  match ps.head?, ps.getLast? with
  | some lo, some hi => (hi.val : Int) - lo.val + 1
  | _, _ => 0

/-- The rule part of one subject's loop body in `check_class_session`. -/
def subjectRuleReason (rule : SubjectRule) (s : Session) (fixed : Period → Bool)
    (ps : List Period) : Option String :=
  let n : Int := ps.length
  let part := partOf s
  let cap := rule.sessionPartCap part
  firstReason [
    (decide (cap > 0) && decide (n > cap), "rule_session_part_cap"),
    (rule.linkedAvoided s && decide (n > 1), "linked_days"),
    (rule.avoid23 part && decide (1 ∈ ps) && decide (2 ∈ ps) && !(fixed 1 && fixed 2),
      "avoid23"),
    (rule.avoid34 part && decide (2 ∈ ps) && decide (3 ∈ ps) && !(fixed 2 && fixed 3),
      "avoid34")]

/-- One subject's loop body in `check_class_session`. -/
def subjectSessionReason (s : Session) (fixed : Period → Bool) (ai : P.Asg)
    (ps : List Period) : Option String :=
  let n : Int := ps.length
  if ps.all fixed then none
  else
    (firstReason [
      (decide (n > P.aCap ai), "subject_session_cap"),
      (decide (n > 1) && decide (periodSpan ps ≠ n), "contiguity")]).or
    ((P.aRule ai).bind fun rule => subjectRuleReason rule s fixed ps)

/-- `by_group` of `check_class_session`: the ruled groups with their subjects present. -/
def subjectsByGroup (c : P.Cls) (subjects : List P.Sub) : List (String × List P.Sub) :=
  let ruled si := (P.subjectGroups si).filter fun gid => (P.groupRuleKeys c gid).isSome
  (subjects.flatMap ruled).eraseDups.map fun gid =>
    (gid, subjects.flatMap fun si => (ruled si).filterMap fun g => if g = gid then some si else none)

def groupReason (c : P.Cls) (part : Fin 2) (subj : List (P.Sub × List Period))
    (gid : String) (members : List P.Sub) : Option String :=
  (P.groupRuleKeys c gid).bind fun grule =>
    let total : Int := ((members.map fun si => ((subj.lookup si).getD []).length).sum : Nat)
    firstReason [
      (decide (grule.maxSubjectsPart part > 0) &&
        decide ((members.length : Int) > grule.maxSubjectsPart part), "group_max_subjects"),
      (decide (grule.sessionPartCap part > 0) && decide (total > grule.sessionPartCap part),
        "group_session_cap")]

/-- `check_class_session` on the five cells of the session. -/
def sessionReason (c : P.Cls) (s : Session) (cells : Period → Option P.Asg) : Option String :=
  let subj := P.subjPeriods cells
  if subj.isEmpty then none
  else
    let fixed p := P.fixedMask c (slotAt s p)
    let subjects := subj.map Prod.fst
    ((subj.findSome? fun e =>
        (P.subjAssign cells e.1).bind fun ai => P.subjectSessionReason s fixed ai e.2).or
      ((P.noSameSession c).findSome? fun group =>
        if 1 < (subjects.filter fun si => decide (si ∈ group)).length
        then some "no_same_session" else none)).or
    ((P.subjectsByGroup c subjects).findSome? fun e =>
      P.groupReason c (partOf s) subj e.1 e.2)

def checkClassSession (grid : P.Grid) (c : P.Cls) (s : Session) : Option String :=
  P.sessionReason c s fun p => grid c (slotAt s p)

/-- The sessions in which class `c` has the subject, with its periods there. -/
def classSubjectSessions (grid : P.Grid) (c : P.Cls) (si : P.Sub) :
    List (Session × List Period) :=
  allSessions.filterMap fun s =>
    let ps := allPeriods.filter fun p => decide ((grid c (slotAt s p)).map P.aSubject = some si)
    if ps.isEmpty then none else some (s, ps)

def lessonCount (sessions : List (Session × List Period)) (keep : Session → Bool) : Int :=
  (((sessions.filter fun e => keep e.1).map fun e => e.2.length).sum : Nat)

/-- The weekly checks of one subject rule on the sessions of the subject. -/
def weekReason (rule : SubjectRule) (sessions : List (Session × List Period))
    (deferMin : Bool) : Option String :=
  let days := sessions.map fun e => dayOf e.1
  let daysSorted := allDays.filter fun d => decide (d ∈ days)
  if sessions.isEmpty then none
  else
    firstReason (
      [(rule.oneSessionPerDay && decide (days.length ≠ days.eraseDups.length),
        "subject_one_session_per_day")] ++
      (List.finRange 2).map (fun part =>
        (decide (rule.weeklyPartCap part > 0) &&
          decide (lessonCount sessions (fun s => decide (partOf s = part)) >
            rule.weeklyPartCap part), "weekly_part_cap")) ++
      allDays.map (fun d =>
        (decide (rule.dayCap d > 0) &&
          decide (lessonCount sessions (fun s => decide (dayOf s = d)) > rule.dayCap d),
          "subject_day_cap")) ++
      [(decide (rule.maxSessionsWeek > 0) && decide ((sessions.length : Int) > rule.maxSessionsWeek),
        "subject_max_sessions")] ++
      (daysSorted.zip daysSorted.tail).map (fun e =>
        (decide (rule.spacingDays > 0) &&
          decide ((e.2.val : Int) - e.1.val ≤ rule.spacingDays), "spacing_days")) ++
      rule.lessonBlocks.flatMap (fun (length, minimum, maximum) =>
        let blocks : Int :=
          ((sessions.filter fun e => decide ((e.2.length : Int) ≥ length)).length : Nat)
        [(decide (minimum > 0) && decide (blocks < minimum) && !deferMin,
            s!"lesson_blocks_min_{length}"),
          (decide (maximum > 0) && decide (blocks > maximum), s!"lesson_blocks_max_{length}")]))

/-- The first assignment of a class and subject, which stands in for a missing hint. -/
def firstAssignment (c : P.Cls) (si : P.Sub) : Option P.Asg :=
  P.allAssignments.find? fun cand => decide (P.aClass cand = c ∧ P.aSubject cand = si)

def checkClassSubjectWeek (grid : P.Grid) (c : P.Cls) (si : P.Sub) (aiHint : Option P.Asg)
    (deferMin : Bool) : Option String :=
  ((aiHint.or (P.firstAssignment c si)).bind P.aRule).bind fun rule =>
    weekReason rule (P.classSubjectSessions grid c si) deferMin

def checkClassDay (grid : P.Grid) (c : P.Cls) (d : Day) : Option String :=
  let subjects := ([morning d, afternoon d].flatMap fun s =>
    allPeriods.filterMap fun p => (grid c (slotAt s p)).map P.aSubject).eraseDups
  (P.noSameDay c).findSome? fun group =>
    if 1 < (subjects.filter fun si => decide (si ∈ group)).length
    then some "no_same_day" else none

/-! ### What a check reads -/

theorem checkClassSession_congr {g h : P.Grid} {c : P.Cls} {s : Session}
    (heq : ∀ slot, sessionOfSlot slot = s → g c slot = h c slot) :
    P.checkClassSession g c s = P.checkClassSession h c s := by
  have hcells : (fun p => g c (slotAt s p)) = fun p => h c (slotAt s p) := by
    funext p
    exact heq _ (sessionOfSlot_slotAt s p)
  simp only [checkClassSession, hcells]

theorem classSubjectSessions_congr {g h : P.Grid} {c : P.Cls} {si : P.Sub}
    (heq : ∀ slot, (g c slot).map P.aSubject = some si ↔ (h c slot).map P.aSubject = some si) :
    P.classSubjectSessions g c si = P.classSubjectSessions h c si := by
  simp only [classSubjectSessions, heq]

theorem checkClassDay_congr {g h : P.Grid} {c : P.Cls} {d : Day}
    (heq : ∀ slot, dayOf (sessionOfSlot slot) = d → g c slot = h c slot) :
    P.checkClassDay g c d = P.checkClassDay h c d := by
  have hcells : ∀ s ∈ [morning d, afternoon d], ∀ p,
      g c (slotAt s p) = h c (slotAt s p) := by
    intro s hs p
    apply heq
    simp only [List.mem_cons, List.not_mem_nil, or_false] at hs
    rcases hs with rfl | rfl <;> simp
  have hm : ∀ p, g c (slotAt (morning d) p) = h c (slotAt (morning d) p) :=
    fun p => hcells _ (by simp) p
  have ha : ∀ p, g c (slotAt (afternoon d) p) = h c (slotAt (afternoon d) p) :=
    fun p => hcells _ (by simp) p
  simp only [checkClassDay, List.flatMap_cons, List.flatMap_nil, List.append_nil, hm, ha]

end Problem

end TkbCherry.Engine
