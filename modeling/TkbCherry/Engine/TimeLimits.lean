import TkbCherry.Engine.Checks

/-!
# Time-limit rules

The rules stay raw documents, read with `_to_int` and dotted paths. A rule counts the
distinct classes, teachers, rooms or subjects among the lessons it matches, in one slot
and in one session.
-/

namespace TkbCherry.Engine

set_option autoImplicit false

/-- The digits of `int(text)`: an underscore may stand between two digits. -/
def digitsValue : Nat → Bool → List Char → Option Nat
  | acc, afterDigit, [] => if afterDigit then some acc else none
  | acc, afterDigit, ch :: rest =>
    if ch.isDigit then digitsValue (acc * 10 + (ch.toNat - 48)) true rest
    else if ch = '_' ∧ afterDigit then digitsValue acc false rest
    else none

def stripBlanks (text : List Char) : List Char :=
  ((text.dropWhile Char.isWhitespace).reverse.dropWhile Char.isWhitespace).reverse

/-- `int(text.strip())` on ASCII digits. -/
def parseInt (text : String) : Option Int :=
  match stripBlanks text.toList with
  | '-' :: rest => (digitsValue 0 false rest).map fun n => -(n : Int)
  | '+' :: rest => (digitsValue 0 false rest).map fun n => (n : Int)
  | rest => (digitsValue 0 false rest).map fun n => (n : Int)

/-- `_to_int(value, 0)`: the text of a truth value, a fraction, `None` or a container
is no integer literal. -/
def toInt : Option Json → Int
  | some (.int n) => n
  | some (.str s) => (parseInt s).getD 0
  | _ => 0

/-- `str(value or "")` of a rule's target; a container is never the text of a name. -/
def textOf : Option Json → String
  | some (.str s) => s
  | some (.int n) => if n = 0 then "" else toString n
  | some (.bool true) => "True"
  | some (.float text) => if text = "0.0" ∨ text = "-0.0" then "" else text
  | _ => ""

/-- `rule.get(key, {})` where a mapping is expected. -/
def mappingOr (rule : Json) (key : String) : Json :=
  match rule.get? key with
  | some (.obj fields) => .obj fields
  | _ => .obj []

/-- `_get_path_local` with the path split; a final `None` counts as missing. -/
def getPathLocal (doc : Json) (path : List String) : Option Json :=
  match path.foldl (fun cur part => cur.bind fun v => v.get? part) (some doc) with
  | some .null => none
  | found => found

def dayKeysLocal (d : Day) : String := ["thu2", "thu3", "thu4", "thu5", "thu6", "thu7"].getD d.val ""
def partKeysLocal (part : Fin 2) : String := ["sang", "chieu"].getD part.val ""

/-- `_limit_for_slot`. -/
def limitForSlot (rule : Json) (fieldName : String) (d : Day) (part : Fin 2) : Int :=
  let bySession := mappingOr rule "perSlotBySession"
  let path := [partKeysLocal part, dayKeysLocal d]
  let value := ((bySession.get? fieldName).bind fun m => getPathLocal m path).or
    (getPathLocal bySession path)
  if toInt value > 0 then toInt value
  else toInt ((mappingOr rule "perSlot").get? fieldName)

/-- `(class, teacher, room, subject)` names of a matched lesson. -/
abbrev Matched := String × String × String × String

def matchedFields : List (String × (Matched → String)) :=
  [("classes", fun m => m.1), ("teachers", fun m => m.2.1), ("rooms", fun m => m.2.2.1),
    ("subjects", fun m => m.2.2.2)]

/-- The number of distinct non-empty names among the matched lessons. -/
def distinctNames (matched : List Matched) (key : Matched → String) : Int :=
  (((matched.map key).filter fun name => decide (name ≠ "")).eraseDups.length : Nat)

namespace Problem
variable (P : Problem)

/-- `_in_group`. -/
def inGroup (targetType targetId cname tname sname room : String) : Bool :=
  match targetType with
  | "subjectGroup" => decide (sname ∈ P.rawGroups "subject" targetId)
  | "teacherGroup" => decide (tname ∈ P.rawGroups "teacher" targetId)
  | "classGroup" => decide (cname ∈ P.rawGroups "class" targetId)
  | "roomGroup" => decide (room ∈ P.rawGroups "room" targetId)
  | _ => false

/-- The loop body of `_matched_lessons_at` for one cell. -/
def matchedLesson (rule : Json) (c : P.Cls) (ai : P.Asg) : Option Matched :=
  let targetType := textOf (rule.get? "targetType")
  let targetId := textOf (rule.get? "targetId")
  let cname := P.className c
  let tnames := (P.aTeachers ai).map P.teacherName
  let tname := tnames.headD ""
  let sname := P.subjectName (P.aSubject ai)
  let room := P.aRoom ai
  let ok := match targetType with
    | "class" => decide (cname = targetId)
    | "teacher" => decide (targetId ∈ tnames)
    | "subject" => decide (sname = targetId)
    | "room" => decide (room ≠ "") && decide (room = targetId)
    | _ => P.inGroup targetType targetId cname tname sname room
  if ok then some (cname, tname, room, sname) else none

def matchedLessonsAt (grid : P.Grid) (rule : Json) (slots : List Slot) : List Matched :=
  slots.flatMap fun slot => P.allClasses.filterMap fun c =>
    (grid c slot).bind (P.matchedLesson rule c)

def timeLimitSlotReason (grid : P.Grid) (rule : Json) (slot : Slot) : Option String :=
  let matched := P.matchedLessonsAt grid rule [slot]
  let s := sessionOfSlot slot
  if matched.isEmpty then none
  else firstReason (matchedFields.map fun (fieldName, key) =>
    let limit := limitForSlot rule fieldName (dayOf s) (partOf s)
    (decide (limit > 0) && decide (distinctNames matched key > limit), "time_limit_slot"))

def timeLimitSessionReason (grid : P.Grid) (rule : Json) (s : Session) : Option String :=
  let matched := P.matchedLessonsAt grid rule (allPeriods.map (slotAt s))
  if matched.isEmpty then none
  else firstReason (matchedFields.map fun (fieldName, key) =>
    let limit := toInt ((mappingOr rule "perSession").get? fieldName)
    (decide (limit > 0) && decide (distinctNames matched key > limit), "time_limit_session"))

/-- `_check_time_limits` on a set of slots and their sessions. -/
def checkTimeLimits (grid : P.Grid) (slots : List Slot) : Option String :=
  let touched := allSlots.filter fun slot => decide (slot ∈ slots)
  let sessions := allSessions.filter fun s => slots.any fun slot => decide (sessionOfSlot slot = s)
  P.timeLimitRules.findSome? fun rule =>
    (touched.findSome? (P.timeLimitSlotReason grid rule)).or
      (sessions.findSome? (P.timeLimitSessionReason grid rule))

theorem checkTimeLimits_eq_none_iff (grid : P.Grid) (slots : List Slot) :
    P.checkTimeLimits grid slots = none ↔
      ∀ rule ∈ P.timeLimitRules, ∀ slot ∈ slots,
        P.timeLimitSlotReason grid rule slot = none ∧
        P.timeLimitSessionReason grid rule (sessionOfSlot slot) = none := by
  simp only [checkTimeLimits, List.findSome?_eq_none_iff, Option.or_eq_none_iff, List.mem_filter,
    decide_eq_true_eq, List.any_eq_true]
  constructor
  · intro h rule hr slot hs
    exact ⟨(h rule hr).1 slot ⟨mem_allSlots slot, hs⟩,
      (h rule hr).2 _ ⟨mem_allSessions _, slot, hs, rfl⟩⟩
  · intro h rule hr
    refine ⟨fun slot hs => (h rule hr slot hs.2).1, ?_⟩
    rintro s ⟨_, slot, hs, rfl⟩
    exact (h rule hr slot hs).2

theorem matchedLessonsAt_congr {g h : P.Grid} (slots : List Slot)
    (heq : ∀ slot ∈ slots, ∀ c, g c slot = h c slot) (rule : Json) :
    P.matchedLessonsAt g rule slots = P.matchedLessonsAt h rule slots := by
  unfold matchedLessonsAt
  induction slots with
  | nil => rfl
  | cons slot rest ih =>
    have hrest := ih fun s hs => heq s (List.mem_cons_of_mem slot hs)
    simp only [List.flatMap_cons, hrest, heq slot List.mem_cons_self]

theorem timeLimitSlotReason_congr {g h : P.Grid} {slot : Slot}
    (heq : ∀ c, g c slot = h c slot) (rule : Json) :
    P.timeLimitSlotReason g rule slot = P.timeLimitSlotReason h rule slot := by
  have hm := P.matchedLessonsAt_congr (g := g) (h := h) [slot]
    (fun s hs c => by rw [List.mem_singleton.mp hs]; exact heq c) rule
  simp only [timeLimitSlotReason, hm]

theorem timeLimitSessionReason_congr {g h : P.Grid} {s : Session}
    (heq : ∀ slot, sessionOfSlot slot = s → ∀ c, g c slot = h c slot) (rule : Json) :
    P.timeLimitSessionReason g rule s = P.timeLimitSessionReason h rule s := by
  have hm := P.matchedLessonsAt_congr (g := g) (h := h) (allPeriods.map (slotAt s))
    (fun slot hs c => by
      obtain ⟨p, _, rfl⟩ := List.mem_map.mp hs
      exact heq _ (sessionOfSlot_slotAt s p) c) rule
  simp only [timeLimitSessionReason, hm]

end Problem

end TkbCherry.Engine
