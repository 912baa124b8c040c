import TkbCherry.Engine.State
import TkbCherry.Lib.Text
import TkbCherry.Lib.Words

/-!
# The places of lessons

What `compile_problem` makes of school data, rooms and teacher rules for the place checks, the
lessons exported from a grid, and the place checks of the validator.
-/

namespace TkbCherry.Engine

set_option autoImplicit false

/-! ### Text -/

/-- `str.isspace`. -/
def isSpace (c : Char) : Bool := Text.isWhiteSpace c || decide (28 ≤ c.toNat ∧ c.toNat ≤ 31)

/-- The characters of `_TEACHER_MEMBER_SPLIT`. -/
def isMemberSep (c : Char) : Bool :=
  [',', ';', '+', '\r', '\n'].contains c

/-- `str.strip`. -/
def strip (s : String) : String := String.ofList (Words.trimmed isSpace s.toList)

/-- `" ".join(s.split())`. -/
def collapse (s : String) : String :=
  String.ofList (Words.joined ' ' (Words.pieces isSpace s.toList))

def Ascii (s : String) : Prop := ∀ c ∈ s.toList, c.toNat < 128

/-- The Unicode tables and the number parser of the language. White space at the ends of a text
stays white space under the normal form and combines with nothing. -/
structure Python where
  /-- `unicodedata.normalize("NFC", s)` -/
  nfc : String → String
  casefold : String → String
  /-- `float(text) == 1` -/
  floatIsOne : String → Bool
  nfc_ascii : ∀ s, Ascii s → nfc s = s
  casefold_ascii : ∀ s, Ascii s → casefold s = Text.toAsciiLowercase s
  nfc_blanks : ∀ a m b : List Char, (∀ c ∈ a, isSpace c = true) → (∀ c ∈ b, isSpace c = true) →
    ∃ a' b' : List Char, (nfc (String.ofList (a ++ (m ++ b)))).toList =
        a' ++ ((nfc (String.ofList m)).toList ++ b') ∧
      (∀ c ∈ a', isSpace c = true) ∧ ∀ c ∈ b', isSpace c = true

variable (py : Python)

/-- `_norm_location`. -/
def normLocation (s : String) : String := py.casefold (collapse (py.nfc s))

/-- The members of a list whose key is new. -/
def distinctBy (key : String → String) : List String → List String → List String
  | _, [] => []
  | seen, x :: rest =>
    if key x ∈ seen then distinctBy key seen rest else x :: distinctBy key (key x :: seen) rest

/-- `teacher_members`. -/
def teacherMembers (label : String) : List String :=
  distinctBy py.casefold [] ((((Words.pieces isMemberSep label.toList).map fun part =>
    collapse (String.ofList part))).filter fun item => decide (item ≠ ""))

/-! ### Rule flags -/

/-- The truth test of the engine. The text of a container starts with a bracket. -/
def engineTruthy : Json → Bool
  | .bool b => b
  | .int n => decide (n = 1)
  | .float text => py.floatIsOne text
  | .str s => ["1", "true", "on", "yes"].contains (py.casefold (strip s))
  | _ => false

/-- The truth test of the validator; a container has no hash and raises. -/
def validatorTruthy : Json → Option Bool
  | .null => some false
  | .bool b => some b
  | .int n => some (decide (n = 1))
  | .float text => some (py.floatIsOne text)
  | .str s => some (["1", "true", "True", "on", "yes", "YES"].contains s)
  | .arr _ => none
  | .obj _ => none

inductive Part where
  | AM
  | PM
deriving DecidableEq, Repr

def partOfName : Part → Fin 2
  | .AM => 0
  | .PM => 1

/-- `"AM" if part == 0 else "PM"`. -/
def partName (part : Fin 2) : Part := if part = 0 then .AM else .PM

/-- `_session_key`. -/
def sessionKey (part : Part) : String := if part = .AM then "sang" else "chieu"

/-- `_day_key`. -/
def dayKey (day : Nat) : String := "thu" ++ toString day

/-- `_DAY_KEYS`. -/
def dayKeys : Day → String :=
  ![("thu2" : String), "thu3", "thu4", "thu5", "thu6", "thu7"]

/-- `_PART_KEYS`. -/
def partKeys : Fin 2 → String := ![("sang" : String), "chieu"]

def orFalse : Json → Json
  | .null => .bool false
  | v => v

/-- `_get_path(rule, f"{name}.{part}.{day}", False)`. -/
def flagAt (rule : Json) (name part day : String) : Json :=
  (((rule.get? name).bind fun byPart => (byPart.get? part).bind fun byDay => byDay.get? day).map
    orFalse).getD (.bool false)

/-- The place rules of one teacher session. -/
structure PlaceFlags where
  one : Bool
  gap : Bool
  move : Bool
  break23 : Bool
  break34 : Bool
deriving DecidableEq, Repr

namespace PlaceFlags

/-- Some rule asks for a free period between two places. -/
def adjacent (f : PlaceFlags) : Bool := f.gap || f.break23 || f.break34

def any (f : PlaceFlags) : Bool := f.one || f.gap || f.move || f.break23 || f.break34

end PlaceFlags

/-- `_loc_flags` of the five rules. -/
def engineFlags (rule : Json) (s : Session) : PlaceFlags :=
  let read := fun name => engineTruthy py (flagAt rule name (partKeys (partOf s)) (dayKeys (dayOf s)))
  { one := read "oneLocationPerSession"
    gap := read "gapBetweenLocations"
    move := read "maxOneMovePerSession"
    break23 := read "moveAtBreak23"
    break34 := read "moveAtBreak34" }

/-- The flags in the order in which the validator tests them. -/
def validatorFlags (rule : Json) (day : Nat) (part : Part) : Option PlaceFlags :=
  let read := fun name => validatorTruthy py (flagAt rule name (sessionKey part) (dayKey day))
  (read "moveAtBreak23").bind fun break23 =>
  (read "moveAtBreak34").bind fun break34 =>
  (read "oneLocationPerSession").bind fun one =>
  (read "maxOneMovePerSession").bind fun move =>
  (read "gapBetweenLocations").map fun gap => ⟨one, gap, move, break23, break34⟩

/-! ### School data -/

structure ClassInfo where
  name : String
  location : String

structure Assignment where
  className : String
  subject : String
  teacher : String
  periodsPerWeek : Nat
  room : String

structure SchoolData where
  classes : List ClassInfo
  assignments : List Assignment
  /-- `class_idx[a.class_name]` does not raise. -/
  known : ∀ a ∈ assignments, a.className ∈ classes.map ClassInfo.name

structure Lesson where
  className : String
  day : Nat
  session : Part
  period : Nat
  subject : String
  teacher : String
  room : String
deriving DecidableEq, Repr

/-- The rule tables of the app: the teacher rules, and whether another table has an entry. -/
structure Constraints where
  teacher : List (String × Json)
  nodup : (teacher.map Prod.fst).Nodup
  otherActive : Bool

def Constraints.active (k : Constraints) : Bool := !k.teacher.isEmpty || k.otherActive

/-- The last index of a name, as in `{name: i for i, name in enumerate(names)}`. -/
def indexOf (names : List String) (name : String) : Option (Fin names.length) :=
  (List.finRange names.length).reverse.find? fun i => decide (names.get i = name)

theorem indexOf_isSome {names : List String} {name : String} (h : name ∈ names) :
    (indexOf names name).isSome = true := by
  obtain ⟨i, hi⟩ := List.get_of_mem h
  rw [indexOf, List.find?_isSome]
  exact ⟨i, List.mem_reverse.mpr (List.mem_finRange i), decide_eq_true hi⟩

def sortedSet (names : List String) : List String :=
  names.dedup.mergeSort fun a b => decide (a ≤ b)

/-- Append what is not yet there. -/
def appendNew (names : List String) (name : String) : List String :=
  if name ∈ names then names else names ++ [name]

namespace SchoolData
variable (d : SchoolData)

def classNames : List String := d.classes.map ClassInfo.name

/-- The members of the assignments in order, then those only a fixed lesson has. -/
def teacherNames (fixed : List Lesson) : List String :=
  (fixed.flatMap fun l => teacherMembers py l.teacher).foldl appendNew
    (sortedSet (d.assignments.flatMap fun a => teacherMembers py a.teacher))

def subjectNames (fixed : List Lesson) : List String :=
  ((fixed.map Lesson.subject).filter fun s => decide (s ≠ "")).foldl appendNew
    (sortedSet (d.assignments.map Assignment.subject))

theorem mem_foldl_appendNew {x : String} (l names : List String) :
    x ∈ l.foldl appendNew names ↔ x ∈ names ∨ x ∈ l := by
  induction l generalizing names with
  | nil => simp
  | cons y l ih =>
    rw [List.foldl_cons, ih, List.mem_cons]
    by_cases hy : y ∈ names
    · rw [appendNew, if_pos hy]
      constructor
      · exact fun h => h.imp id Or.inr
      · rintro (h | rfl | h)
        · exact Or.inl h
        · exact Or.inl hy
        · exact Or.inr h
    · rw [appendNew, if_neg hy, List.mem_append, List.mem_singleton, or_assoc]

theorem subject_mem {a : Assignment} (h : a ∈ d.assignments) (fixed : List Lesson) :
    a.subject ∈ d.subjectNames fixed := by
  rw [subjectNames, mem_foldl_appendNew]
  refine Or.inl (List.mem_mergeSort.mpr (List.mem_dedup.mpr ?_))
  exact List.mem_map_of_mem h

def classIndex (a : Assignment) (h : a ∈ d.assignments) : Fin d.classNames.length :=
  (indexOf d.classNames a.className).get (indexOf_isSome (d.known a h))

def subjectIndex (fixed : List Lesson) (a : Assignment) (h : a ∈ d.assignments) :
    Fin (d.subjectNames fixed).length :=
  (indexOf (d.subjectNames fixed) a.subject).get (indexOf_isSome (d.subject_mem h fixed))

/-- `_member_ids`. -/
def memberIds (fixed : List Lesson) (label : String) : List (Fin (d.teacherNames py fixed).length) :=
  (teacherMembers py label).filterMap (indexOf (d.teacherNames py fixed))

/-- The location of a class under its name, the last class of that name winning. -/
def classLocation (name : String) : String :=
  (d.classes.reverse.find? fun c => decide (c.name = name)).elim "" ClassInfo.location

/-- The normalised place of an assignment: its room, else the place of its class. -/
def placeText (a : Assignment) : String :=
  normLocation py (if strip a.room ≠ "" then strip a.room else strip (d.classLocation a.className))

/-- `loc_names`. -/
def placeNames : List String :=
  ((d.assignments.map (d.placeText py)).filter fun text => decide (text ≠ "")).foldl appendNew []

/-- One entry of `a_loc`. -/
def placeOf (a : Assignment) : Option Nat :=
  if d.placeText py a = "" then none else some ((d.placeNames py).idxOf (d.placeText py a))

end SchoolData

/-! ### The compiled problem -/

namespace TeacherRule

def hasLocationRules (r : TeacherRule) : Bool :=
  allSessions.any r.locOne || allSessions.any r.locGap || allSessions.any r.locMove ||
    allSessions.any fun s => !(r.locBreaks s).isEmpty

def isDefault (r : TeacherRule) : Bool :=
  decide (r.maxDays = 0 ∧ r.maxSessions = 0 ∧ r.maxMorning = 0 ∧ r.maxAfternoon = 0) &&
    (allDays.all fun d => decide (r.sessionMode d = .free ∧ r.dayPeriodCap d = 0 ∧
      r.sessionPeriodCap d = (0, 0) ∧ r.noM5A1 d = false)) &&
    r.classPeriodCaps.isEmpty && !r.hasLocationRules

/-- The place flags of a compiled rule, under the fields compiled from its other entries. -/
def withPlaces (r : TeacherRule) (flags : Session → PlaceFlags) : TeacherRule :=
  { r with
    locOne := fun s => (flags s).one
    locGap := fun s => (flags s).gap
    locMove := fun s => (flags s).move
    locBreaks := fun s =>
      (if (flags s).break23 then [1] else []) ++ (if (flags s).break34 then [2] else []) }

end TeacherRule

/-- What `compile_problem` derives from the rules and no place check reads. -/
structure OtherRules (nClass nTeacher nSubject nAsg : Nat) where
  aCap : Fin nAsg → Int
  aAllowed : Fin nAsg → Slot → Bool
  aRule : Fin nAsg → Option SubjectRule
  /-- the entries of a teacher's rule that are not about places -/
  teacherRule : Fin nTeacher → Json → TeacherRule
  /-- the modes after the days of contradicting fixed cells are freed -/
  freedModes : Fin nTeacher → (Day → SessionMode) → Day → SessionMode
  teacherMust : Fin nTeacher → List Slot
  noSameSession : Fin nClass → List (List (Fin nSubject))
  noSameDay : Fin nClass → List (List (Fin nSubject))
  fixedCells : List (Fin nClass × Slot × Fin nAsg)
  fixedMask : Fin nClass → Slot → Bool
  timeLimitRules : List Json
  subjectGroups : Fin nSubject → List String
  groupRuleKeys : Fin nClass → String → Option SubjectRule
  rawGroups : String → String → List String

/-- `isinstance(raw, Mapping) and raw`. -/
def isMapping : Json → Bool
  | .obj _ => true
  | _ => false

def nonemptyMapping : Json → Bool
  | .obj fields => !fields.isEmpty
  | _ => false

/-- What `compile_problem` reads. No slot is shared between the classes of a teacher. -/
structure Input where
  data : SchoolData
  constraints : Option Constraints
  fixed : List Lesson
  other : OtherRules data.classNames.length (data.teacherNames py fixed).length
    (data.subjectNames fixed).length data.assignments.length

namespace Input
variable {py} (x : Input py)

abbrev numTeachers : Nat := (x.data.teacherNames py x.fixed).length

def asg (ai : Fin x.data.assignments.length) : Assignment := x.data.assignments.get ai

theorem asg_mem (ai : Fin x.data.assignments.length) : x.asg ai ∈ x.data.assignments :=
  List.get_mem _ _

/-- `constraints.teacher.get(t)`. -/
def rawRule (name : String) : Option Json := x.constraints.bind fun k => k.teacher.lookup name

/-- One entry of `teacher_rules`. -/
def teacherRule (t : Fin x.numTeachers) : Option TeacherRule :=
  ((x.rawRule ((x.data.teacherNames py x.fixed).get t)).filter nonemptyMapping).bind fun raw =>
    let compiled := (x.other.teacherRule t raw).withPlaces (engineFlags py raw)
    if compiled.isDefault then none
    else some { compiled with sessionMode := x.other.freedModes t compiled.sessionMode }

def teachersOf (ai : Fin x.data.assignments.length) : List (Fin x.numTeachers) :=
  x.data.memberIds py x.fixed (x.asg ai).teacher

/-- `teacher_locs`. -/
def placesOf (t : Fin x.numTeachers) : List Nat :=
  (List.finRange x.data.assignments.length).filterMap fun ai =>
    if t ∈ x.teachersOf ai then x.data.placeOf py (x.asg ai) else none

/-- `compile_problem`. -/
def problem : Problem where
  numClasses := x.data.classNames.length
  numTeachers := x.numTeachers
  numSubjects := (x.data.subjectNames x.fixed).length
  numAssignments := x.data.assignments.length
  className := x.data.classNames.get
  teacherName := (x.data.teacherNames py x.fixed).get
  subjectName := (x.data.subjectNames x.fixed).get
  aClass := fun ai => x.data.classIndex (x.asg ai) (x.asg_mem ai)
  aSubject := fun ai => x.data.subjectIndex x.fixed (x.asg ai) (x.asg_mem ai)
  aTeacher := fun ai => (x.teachersOf ai).head?
  aTeachers := x.teachersOf
  aRoom := fun ai => (x.asg ai).room
  aPeriods := fun ai => (x.asg ai).periodsPerWeek
  aCap := x.other.aCap
  aAllowed := x.other.aAllowed
  aRule := x.other.aRule
  aLoc := fun ai => x.data.placeOf py (x.asg ai)
  teacherRules := x.teacherRule
  teacherMust := x.other.teacherMust
  teacherLocRules := fun t => (x.teacherRule t).any TeacherRule.hasLocationRules &&
    decide (2 ≤ (x.placesOf t).eraseDups.length)
  noSameSession := x.other.noSameSession
  noSameDay := x.other.noSameDay
  fixedCells := x.other.fixedCells
  fixedMask := x.other.fixedMask
  timeLimitRules := x.other.timeLimitRules
  subjectGroups := x.other.subjectGroups
  groupRuleKeys := x.other.groupRuleKeys
  rawGroups := x.other.rawGroups

/-- `teacher_label`: the label of a co-taught lesson, else the code of its teacher. -/
def teacherLabel (ai : Fin x.data.assignments.length) : String :=
  if 1 < (x.teachersOf ai).length then (x.asg ai).teacher
  else (x.teachersOf ai).head?.elim "" (x.data.teacherNames py x.fixed).get

def lessonAt (c : x.problem.Cls) (slot : Slot) (ai : x.problem.Asg) : Lesson where
  className := x.problem.className c
  day := (dayOf (sessionOfSlot slot)).val + 2
  session := partName (partOf (sessionOfSlot slot))
  period := (periodOfSlot slot).val + 1
  subject := x.problem.subjectName (x.problem.aSubject ai)
  teacher := x.teacherLabel ai
  room := x.problem.aRoom ai

/-- The lessons of the payload, row by row. -/
def lessons (grid : x.problem.Grid) : List Lesson :=
  (x.problem.allClasses.product allSlots).filterMap fun cell =>
    (grid cell.1 cell.2).map (x.lessonAt cell.1 cell.2)

end Input

/-! ### The validator -/

/-- `_effective_location`. -/
def effectiveLocation (classLocation : String → String) (l : Lesson) : String :=
  if strip l.room ≠ "" then normLocation py (strip l.room) else classLocation l.className

/-- The places one after another, each change of place once. -/
def compactLocs : List String → List String
  | [] => []
  | [a] => [a]
  | a :: b :: rest => if b ≠ a then a :: compactLocs (b :: rest) else compactLocs (b :: rest)

/-- Some change of place between adjacent periods that no break separates. -/
def adjacentChange (breaks : List Nat) : List (Nat × String) → Bool
  | [] => false
  | [_] => false
  | (p, a) :: (q, b) :: rest =>
    (decide (a ≠ b) && decide ((q : Int) - (p : Int) ≤ 1) && decide (p ∉ breaks)) ||
      adjacentChange breaks ((q, b) :: rest)

/-- `break_periods`, counted from one. -/
def PlaceFlags.breakPeriods (f : PlaceFlags) : List Nat :=
  (if f.break23 then [2] else []) ++ (if f.break34 then [3] else [])

/-- The place rules of one teacher session on its lessons with a place. -/
def placesBroken (f : PlaceFlags) (withLoc : List (Nat × String)) : Bool :=
  let locs := withLoc.map Prod.snd
  decide (2 ≤ withLoc.length) &&
    ((f.one && decide (1 < locs.eraseDups.length)) ||
      (f.move && decide (2 < (compactLocs locs).length)) ||
      (f.adjacent && adjacentChange f.breakPeriods withLoc))

/-- The lessons of a session in the order of their periods, with their places. -/
def withPlaces (classLocation : String → String) (items : List Lesson) : List (Nat × String) :=
  (items.mergeSort fun a b => decide (a.period ≤ b.period)).filterMap fun l =>
    if effectiveLocation py classLocation l ≠ "" then
      some (l.period, effectiveLocation py classLocation l) else none

/-- `(teacher, day, part)`. -/
abbrev SessionOf := String × Nat × Part

/-- The keys of `by_teacher_session`. -/
def sessionKeys (lessons : List Lesson) : List SessionOf :=
  (lessons.flatMap fun l => (teacherMembers py l.teacher).map fun m => (m, l.day, l.session)).dedup

/-- `by_teacher_session[key]`. -/
def sessionItems (lessons : List Lesson) (key : SessionOf) : List Lesson :=
  lessons.filter fun l =>
    decide (key.1 ∈ teacherMembers py l.teacher ∧ l.day = key.2.1 ∧ l.session = key.2.2)

/-- The elements a test accepts; nothing when it raises on one. -/
def keepM {α : Type} (f : α → Option Bool) : List α → Option (List α)
  | [] => some []
  | a :: rest => (f a).bind fun b => (keepM f rest).map fun kept => if b then a :: kept else kept

/-- `location_debt_sessions` of `validate_app_constraints`. -/
def locationDebtSessions (d : SchoolData) (k : Constraints) (lessons : List Lesson) :
    Option (List SessionOf) :=
  if k.active then
    let classLocation := fun name => normLocation py (d.classLocation name)
    let visits := (k.teacher.filter fun e => isMapping e.2).flatMap fun e =>
      ((sessionKeys py lessons).filter fun key => decide (key.1 = e.1)).map fun key => (e.2, key)
    (keepM (fun v : Json × SessionOf =>
      (validatorFlags py v.1 v.2.2.1 v.2.2.2).map fun f =>
        placesBroken f (withPlaces py classLocation (sessionItems py lessons v.2))) visits).map
      fun kept => kept.map Prod.snd
  else some []

/-- `teacher_location_rule_debt`: the number of sessions; nothing when the validator raises. -/
def teacherLocationRuleDebt (d : SchoolData) (constraints : Option Constraints)
    (lessons : List Lesson) : Option Nat :=
  constraints.elim (some 0) fun k =>
    (locationDebtSessions py d k lessons).map fun sessions => sessions.dedup.length

end TkbCherry.Engine
