import TkbCherry.Engine.TimeLimits
import TkbCherry.Lib.Array2

/-!
# The schedule state

`Cells` is what a cell write touches: the grid, the slot table of the teachers and the
placement counters. `State` adds the locks and the cached statistics of the teacher
sessions. A journal holds its newest write first, the order in which it is rolled back.
-/

namespace TkbCherry.Engine

set_option autoImplicit false

open Array2

structure Cells (P : Problem) where
  grid : P.Grid
  teacherSlot : P.Tch → Slot → Option P.Asg
  placed : Int
  aPlaced : P.Asg → Int

/-- `ts_count`, `ts_first`, `ts_last` of one teacher session; `-1` when it is empty. -/
structure Window where
  count : Int
  first : Int
  last : Int
deriving DecidableEq, Repr

structure State (P : Problem) extends Cells P where
  locked : P.Cls → Slot → Bool
  ts : P.Tch → Session → Window
  tDaySessions : P.Tch → Day → Int
  nSingleton : Int
  nGap2 : Int
  nSessions : Int
  nGap1 : Int
  nDays : Int
  checkFailReason : String
  deferMin : Bool

/-- `(class, slot, assignment or -1)`. -/
abbrev Change (P : Problem) := P.Cls × Slot × Option P.Asg

/-- `(c, slot, old, new)` of a journal. -/
structure Entry (P : Problem) where
  cls : P.Cls
  slot : Slot
  old : Option P.Asg
  new : Option P.Asg

namespace Cells
variable {P : Problem}

def empty (P : Problem) : Cells P where
  grid := fun _ _ => none
  teacherSlot := fun _ _ => none
  placed := 0
  aPlaced := fun _ => 0

/-- Take the lesson of an assignment out of the slot table and the counters. -/
def release (k : Cells P) (slot : Slot) : Option P.Asg → Cells P
  | none => k
  | some ai =>
    { k with
      teacherSlot := setAll k.teacherSlot (P.aTeachers ai) slot none
      aPlaced := Function.update k.aPlaced ai (k.aPlaced ai - 1)
      placed := k.placed - 1 }

/-- Enter the lesson of an assignment into the slot table and the counters. -/
def occupy (k : Cells P) (slot : Slot) : Option P.Asg → Cells P
  | none => k
  | some ai =>
    { k with
      teacherSlot := setAll k.teacherSlot (P.aTeachers ai) slot (some ai)
      aPlaced := Function.update k.aPlaced ai (k.aPlaced ai + 1)
      placed := k.placed + 1 }

/-- Some teacher of the assignment already teaches at the slot. -/
def busy (k : Cells P) (slot : Slot) : Option P.Asg → Bool
  | none => false
  | some ai => (P.aTeachers ai).any fun t => (k.teacherSlot t slot).isSome

/-- `_write_cell`: on a teacher conflict the old lesson is entered again. -/
def writeCell (k : Cells P) (c : P.Cls) (slot : Slot) (ai : Option P.Asg)
    (journal : List (Entry P)) : Cells P × List (Entry P) × Bool :=
  let old := k.grid c slot
  if old = ai then (k, journal, true)
  else
    let freed := k.release slot old
    if freed.busy slot ai then (freed.occupy slot old, journal, false)
    else
      ({ freed.occupy slot ai with grid := set2 k.grid c slot ai },
        ⟨c, slot, old, ai⟩ :: journal, true)

/-- One step of `_rollback`. -/
def undoEntry (k : Cells P) (e : Entry P) : Cells P :=
  { (k.release e.slot e.new).occupy e.slot e.old with
    grid := set2 k.grid e.cls e.slot e.old }

def rollback (k : Cells P) (journal : List (Entry P)) : Cells P :=
  journal.foldl undoEntry k

/-- The change loop of `apply`: each refusal rolls the journal back. -/
def applyChanges (locked : P.Cls → Slot → Bool) :
    List (Change P) → Cells P → List (Entry P) → Cells P × Except String (List (Entry P))
  | [], k, journal => (k, .ok journal)
  | (c, slot, ai) :: rest, k, journal =>
    if locked c slot = true ∧ k.grid c slot ≠ ai then (k.rollback journal, .error "locked")
    else if ai.any (fun a => decide (P.aClass a ≠ c) || !P.aAllowed a slot) then
      (k.rollback journal, .error "not_allowed")
    else
      match k.writeCell c slot ai journal with
      | (k', journal', true) => applyChanges locked rest k' journal'
      | (k', journal', false) => (k'.rollback journal', .error "teacher_conflict")

end Cells

/-! ### Statistics of a teacher session -/

/-- The scan of `_refresh_ts` over the five periods. -/
def sessionWindow (occupied : Period → Bool) : Window :=
  allPeriods.foldl (fun w p =>
    if occupied p then
      ⟨w.count + 1, if w.first < 0 then p.val else w.first, p.val⟩
    else w) ⟨0, -1, -1⟩

namespace Window

def gap (w : Window) : Int := w.last - w.first + 1 - w.count

/-- The four terms of `_session_contrib`. -/
def singleton (w : Window) : Int := if w.count = 0 then 0 else if w.count = 1 then 1 else 0
def gap2 (w : Window) : Int := if w.count = 0 then 0 else if w.gap ≥ 2 then 1 else 0
def session (w : Window) : Int := if w.count = 0 then 0 else 1
def gap1 (w : Window) : Int := if w.count = 0 then 0 else if w.gap = 1 then 1 else 0

/-- `1 if count > 0 else 0`. -/
def used (w : Window) : Int := if w.count > 0 then 1 else 0

end Window

/-! ### Teacher checks -/

/-- A teacher session breaks the place rules that are on for it. -/
def locBroken (rule : TeacherRule) (s : Session) (entries : List (Period × Nat)) : Bool :=
  (rule.locOne s || rule.locGap s || rule.locMove s || !(rule.locBreaks s).isEmpty) &&
    decide (entries.length ≥ 2) &&
    decide (locationRuleDebt entries (rule.locOne s) (rule.locGap s) (rule.locMove s)
      (rule.locBreaks s) > 0)

/-- The day checks of `_check_teacher` that read the numbers of lessons per session. -/
def countDayReason (rule : TeacherRule) (counts : Session → Int) (d : Day) : Option String :=
  let am := counts (morning d)
  let pm := counts (afternoon d)
  let cap := rule.dayPeriodCap d
  let capAm := (rule.sessionPeriodCap d).1
  let capPm := (rule.sessionPeriodCap d).2
  firstReason [
    (decide (rule.sessionMode d = .morning) && decide (pm > 0), "teacher_one_session"),
    (decide (rule.sessionMode d = .afternoon) && decide (am > 0), "teacher_one_session"),
    (decide (rule.sessionMode d = .either) && decide (am > 0) && decide (pm > 0),
      "teacher_one_session"),
    (decide (cap > 0) && decide (am + pm > cap), "teacher_day_cap"),
    (decide (capAm > 0) && decide (am > capAm), "teacher_session_cap"),
    (decide (capPm > 0) && decide (pm > capPm), "teacher_session_cap")]

/-- The weekly totals of `_check_teacher`. -/
def totalsReason (rule : TeacherRule) (counts : Session → Int) : Option String :=
  if rule.maxDays > 0 ∨ rule.maxSessions > 0 ∨ rule.maxMorning > 0 ∨ rule.maxAfternoon > 0 then
    let usedAm : Int := ((allDays.filter fun d => decide (counts (morning d) > 0)).length : Nat)
    let usedPm : Int := ((allDays.filter fun d => decide (counts (afternoon d) > 0)).length : Nat)
    let usedDays : Int := ((allDays.filter fun d =>
      decide (counts (morning d) > 0 ∨ counts (afternoon d) > 0)).length : Nat)
    firstReason [
      (decide (rule.maxDays > 0) && decide (usedDays > rule.maxDays), "teacher_max_days"),
      (decide (rule.maxSessions > 0) && decide (usedAm + usedPm > rule.maxSessions),
        "teacher_max_sessions"),
      (decide (rule.maxMorning > 0) && decide (usedAm > rule.maxMorning), "teacher_max_morning"),
      (decide (rule.maxAfternoon > 0) && decide (usedPm > rule.maxAfternoon),
        "teacher_max_afternoon")]
  else none

namespace Problem
variable (P : Problem)

/-- The place entries of one teacher session. -/
def locEntries (row : Slot → Option P.Asg) (s : Session) : List (Period × Nat) :=
  allPeriods.filterMap fun p =>
    (row (slotAt s p)).bind fun ai => (P.aLoc ai).map fun loc => (p, loc)

/-- The day checks of `_check_teacher` that read the slot table. -/
def slotDayReason (t : P.Tch) (rule : TeacherRule) (row : Slot → Option P.Asg) (d : Day) :
    Option String :=
  (firstReason [(rule.noM5A1 d && (row (slotAt (morning d) 4)).isSome &&
      (row (slotAt (afternoon d) 0)).isSome, "no_m5_a1")]).or
    (if P.teacherLocRules t then
      firstReason ([morning d, afternoon d].map fun s =>
        (locBroken rule s (P.locEntries row s), "teacher_location"))
    else none)

/-- The classes of the teacher's lessons in a session that fall under a class cap. -/
def cappedClasses (subjectSet : Option (List String)) (row : Slot → Option P.Asg)
    (s : Session) : List P.Cls :=
  (allPeriods.filterMap fun p => row (slotAt s p)).filterMap fun ai =>
    if subjectSet.all (fun names => decide (P.subjectName (P.aSubject ai) ∈ names))
    then some (P.aClass ai) else none

def overClassCap (cap : Int) (classes : List P.Cls) : Bool :=
  decide (cap > 0) && classes.any fun c => decide ((classes.count c : Int) > cap)

def classCapReason (subjectSet : Option (List String)) (perSession perDay : Int)
    (row : Slot → Option P.Asg) (d : Day) : Option String :=
  let am := P.cappedClasses subjectSet row (morning d)
  let pm := P.cappedClasses subjectSet row (afternoon d)
  firstReason [
    (P.overClassCap perSession am, "teacher_class_session_cap"),
    (P.overClassCap perSession pm, "teacher_class_session_cap"),
    (P.overClassCap perDay (am ++ pm), "teacher_class_day_cap")]

/-- `_check_teacher` on the slot row and the cached session counts of the teacher. -/
def checkTeacher (deferMin : Bool) (t : P.Tch) (row : Slot → Option P.Asg)
    (counts : Session → Int) (days : List Day) : Option String :=
  (firstReason ((P.teacherMust t).map fun slot =>
      (!deferMin && (row slot).isNone, "must_teach"))).or
    ((P.teacherRules t).bind fun rule =>
      ((days.findSome? fun d => (countDayReason rule counts d).or (P.slotDayReason t rule row d)).or
        (totalsReason rule counts)).or
      (rule.classPeriodCaps.findSome? fun (subjectSet, perSession, perDay) =>
        days.findSome? (P.classCapReason subjectSet perSession perDay row)))

end Problem

namespace State
variable {P : Problem}

def init (P : Problem) (deferMin : Bool) : State P where
  toCells := Cells.empty P
  locked := fun _ _ => false
  ts := fun _ _ => ⟨0, -1, -1⟩
  tDaySessions := fun _ _ => 0
  nSingleton := 0
  nGap2 := 0
  nSessions := 0
  nGap1 := 0
  nDays := 0
  checkFailReason := ""
  deferMin := deferMin

/-- `(n_singleton, n_gap2, n_sessions, n_gap1, n_days)`, compared lexicographically. -/
def objective (s : State P) : List Int :=
  [s.nSingleton, s.nGap2, s.nSessions, s.nGap1, s.nDays]

/-- `location_rule_debt_sessions`. -/
def locationRuleDebtSessions (s : State P) : Int :=
  ((P.allTeachers.flatMap fun t =>
    if P.teacherLocRules t then
      match P.teacherRules t with
      | none => []
      | some rule => allSessions.filter fun ses =>
          locBroken rule ses (P.locEntries (s.teacherSlot t) ses)
    else []).length : Nat)

/-- `_refresh_ts`. -/
def refreshTs (s : State P) (t : P.Tch) (ses : Session) : State P :=
  let old := s.ts t ses
  let new := sessionWindow fun p => (s.teacherSlot t (slotAt ses p)).isSome
  let d := dayOf ses
  let had := s.tDaySessions t d
  let now := had + (new.used - old.used)
  { s with
    ts := set2 s.ts t ses new
    nSingleton := s.nSingleton + (new.singleton - old.singleton)
    nGap2 := s.nGap2 + (new.gap2 - old.gap2)
    nSessions := s.nSessions + (new.session - old.session)
    nGap1 := s.nGap1 + (new.gap1 - old.gap1)
    tDaySessions := set2 s.tDaySessions t d now
    nDays := if had = 0 ∧ now > 0 then s.nDays + 1
      else if had > 0 ∧ now = 0 then s.nDays - 1 else s.nDays }

/-- The teachers of a journal entry's two assignments. -/
def entryTeachers (e : Entry P) : List P.Tch :=
  P.members e.old ++ P.members e.new

/-- `touched_ts`. -/
def touchedTs (journal : List (Entry P)) : List (P.Tch × Session) :=
  journal.flatMap fun e => (entryTeachers e).map fun t => (t, sessionOfSlot e.slot)

def refreshAll (s : State P) (touched : List (P.Tch × Session)) : State P :=
  touched.foldl (fun s e => s.refreshTs e.1 e.2) s

def checkTeacherAt (s : State P) (t : P.Tch) (days : List Day) : Option String :=
  P.checkTeacher s.deferMin t (s.teacherSlot t) (fun ses => (s.ts t ses).count) days

/-- `teacher_days`: the touched teachers with their touched days. -/
def teacherDays (journal : List (Entry P)) : List (P.Tch × List Day) :=
  (journal.flatMap entryTeachers).eraseDups.map fun t =>
    (t, (journal.filter fun e => decide (t ∈ entryTeachers e)).map fun e =>
      dayOf (sessionOfSlot e.slot))

/-- `_check_scopes`: the reason of the first touched scope that fails. -/
def checkScopes (s : State P) (journal : List (Entry P)) : Option String :=
  ((journal.findSome? fun e => P.checkClassSession s.grid e.cls (sessionOfSlot e.slot)).or
    (journal.findSome? fun e => [e.old, e.new].findSome? fun ai =>
      ai.bind fun a => P.checkClassSubjectWeek s.grid e.cls (P.aSubject a) (some a) s.deferMin)).or
  (((journal.findSome? fun e => P.checkClassDay s.grid e.cls (dayOf (sessionOfSlot e.slot))).or
    ((teacherDays journal).findSome? fun e => s.checkTeacherAt e.1 e.2)).or
  (P.checkTimeLimits s.grid (journal.map Entry.slot)))

/-- `apply`: the journal of an accepted change list, or `none` after a refusal. -/
def apply (s : State P) (changes : List (Change P)) (check : Bool) :
    State P × Option (List (Entry P)) :=
  match s.toCells.applyChanges s.locked changes [] with
  | (k, .error reason) => ({ s with toCells := k, checkFailReason := reason }, none)
  | (k, .ok []) => ({ s with toCells := k }, some [])
  | (k, .ok journal) =>
    let written := { s with toCells := k }
    match if check then written.checkScopes journal else none with
    | some reason =>
      ({ written with toCells := k.rollback journal, checkFailReason := reason }, none)
    | none => (written.refreshAll (touchedTs journal), some journal)

/-- `undo`. -/
def undo (s : State P) (journal : List (Entry P)) : State P :=
  { s with toCells := s.toCells.rollback journal }.refreshAll (touchedTs journal)

def lockCell (s : State P) (c : P.Cls) (slot : Slot) : State P :=
  { s with locked := set2 s.locked c slot true }

def snapshot (s : State P) : P.Grid := s.grid

/-- The loading loop of `restore`; it stops at the first refused cell. -/
def restoreCells (snap : P.Grid) : List (P.Cls × Slot) → State P → State P × Bool
  | [], s => (s, true)
  | (c, slot) :: rest, s =>
    match snap c slot with
    | none => restoreCells snap rest s
    | some ai =>
      match s.apply [(c, slot, some ai)] false with
      | (s', some _) => restoreCells snap rest s'
      | (s', none) => (s', false)

/-- A grid loaded into an empty state, as `restore` does and `_grid_hard_ok`. -/
def load (P : Problem) (deferMin : Bool) (grid : P.Grid) : State P × Bool :=
  restoreCells grid (P.allClasses.product allSlots) (init P deferMin)

def lockFixed (s : State P) : State P :=
  P.fixedCells.foldl (fun s e => s.lockCell e.1 e.2.1) s

/-- `restore`; `false` when it raised `HardCheckError`. -/
def restore (s : State P) (snap : P.Grid) : State P × Bool :=
  match load P s.deferMin snap with
  | (s', true) => (s'.lockFixed, true)
  | (s', false) => (s', false)

/-- The reason of the first scope that fails `full_recheck`. -/
def fullRecheckReason (s : State P) : Option String :=
  ((P.allClasses.findSome? fun c =>
    ((allSessions.findSome? (P.checkClassSession s.grid c)).or
      (((allSlots.filterMap (s.grid c)).map P.aSubject).eraseDups.findSome? fun si =>
        P.checkClassSubjectWeek s.grid c si none s.deferMin)).or
    (allDays.findSome? (P.checkClassDay s.grid c))).or
  (P.allTeachers.findSome? fun t => s.checkTeacherAt t allDays)).or
  (P.checkTimeLimits s.grid allSlots)

def fullRecheck (s : State P) : Bool := s.fullRecheckReason.isNone

end State

end TkbCherry.Engine
