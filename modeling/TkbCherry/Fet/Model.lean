import TkbCherry.Lib.Booking
import Mathlib

/-! The construction core of the browser's FET engine (`tkb-fet-engine.js`): the
three grids, the conflict test, the penalty, the recursive swap with its journal,
and the ejection chain. Class ids, teacher keys, room keys and subject names are
only compared, so they are the elements of one type `κ`. -/

namespace TkbCherry.Fet
open Booking
set_option autoImplicit false

def PERIODS_PER_SESSION : Nat := 5
def SLOTS_PER_DAY : Nat := 10
def TOTAL_SLOTS : Nat := 60
def MAX_RECURSION_LEVEL : Nat := 16

inductive Buoi where
  | sang
  | chieu
  deriving DecidableEq, Repr

/-- What a grid cell holds: −1, −2, −3 or an activity's id in the source. -/
inductive Cell where
  | free
  | off
  | fixed
  | act (id : Nat)
  deriving DecidableEq, Repr

/-- The keys of `classGrid`, `teacherGrid` and `roomGrid`, as those of one map. -/
inductive Row (κ : Type) where
  | lop (classId : κ)
  | gv (teacher : κ)
  | phong (room : κ)
  deriving DecidableEq, Repr

/-- A movable activity. Its id is its index in `activities`. `gv` is
`parseTeacherList(act.gv)`, `room` the trimmed lower-case room if there is one,
`ca` the session its class keeps to. -/
structure Act (κ : Type) where
  classId : κ
  mon : κ
  canonKey : κ
  gv : List κ
  room : Option κ
  ca : Option Buoi
  duration : Nat
  isFixed : Bool
  deriving DecidableEq, Repr

/-- An entry of `fixedSlots`; only its subject is read here. -/
structure Fixed (κ : Type) where
  mon : Option κ
  deriving DecidableEq, Repr

/-- What a run reads and never writes: the school's data, the settings made
before a call, and what the random generator and the clock will answer. -/
structure Desk (κ : Type) where
  activities : List (Act κ)
  offSlots : κ → Nat → Bool
  fixedSlots : κ → Nat → Option (Fixed κ)
  teacherOffSlots : κ → Nat → Bool
  roomOffSlots : κ → Nat → Bool
  subjectOffSlots : κ → Nat → Bool
  normalizeMonName : κ → κ
  getCanonMonKey : κ → κ
  /-- `getSubjectSessionLimit(act.lop, act.mon)`, rounded down: it only bounds a count. -/
  getSubjectSessionLimit : Act κ → Nat
  /-- The n-th number drawn; `nextInt` takes it modulo its bound. -/
  draw : Nat → Nat
  /-- Whether the n-th reading of the clock is past the deadline. -/
  late : Nat → Bool

/-- What the caller of a search sets. -/
structure Settings (κ : Type) where
  strictFetGaps : Bool
  minTwoGuardActive : Bool
  teacherWeeklyLoad : Option (κ → Nat)
  solveDeadlineAt : Bool
  limitCalls : Nat

/-- `actPlacement` and the grids. A teacher's or a room's row is made when it is first written. -/
structure Grids (κ : Type) where
  actPlacement : Nat → Option Nat
  rows : Row κ → Option (Nat → Cell)

section Slots

def dayIdx (slot : Nat) : Nat := slot / SLOTS_PER_DAY

def sessionIdx (slot : Nat) : Nat := slot % SLOTS_PER_DAY / PERIODS_PER_SESSION

def periodIdx (slot : Nat) : Nat := slot % SLOTS_PER_DAY % PERIODS_PER_SESSION

def buoi (slot : Nat) : Buoi := if sessionIdx slot = 1 then .chieu else .sang

def sessionStart (slot : Nat) : Nat :=
  dayIdx slot * SLOTS_PER_DAY + sessionIdx slot * PERIODS_PER_SESSION

end Slots

variable {κ : Type} [DecidableEq κ]

/-- The rows an activity is written into at each of its periods, in the order of the writes. -/
def Act.rows (act : Act κ) : List (Row κ) :=
  .lop act.classId :: (act.gv.map .gv ++ (act.room.map .phong).toList)

def Act.cells (act : Act κ) (slot : Nat) : List (Row κ × Nat) :=
  (List.range act.duration).flatMap fun d => act.rows.map fun r => (r, slot + d)

namespace Grids

/-- A cell; a row that was never made reads as free. -/
def read (g : Grids κ) (r : Row κ) (s : Nat) : Cell :=
  match g.rows r with
  | some row => row s
  | none => .free

def write (g : Grids κ) (r : Row κ) (s : Nat) (c : Cell) : Grids κ :=
  { g with rows := fun r' =>
      if r' = r then some fun s' => if s' = s then c else g.read r s' else g.rows r' }

end Grids

variable (d : Desk κ)

/-- What `unplaceActivity` leaves in a cell it clears. -/
def cleared : Row κ → Nat → Cell
  | .lop c, s =>
    if d.offSlots c s then .off else if (d.fixedSlots c s).isSome then .fixed else .free
  | .gv t, s => if d.teacherOffSlots t s then .off else .free
  | .phong _, _ => .free

def clear (actId : Nat) (g : Grids κ) (x : Row κ × Nat) : Grids κ :=
  if g.read x.1 x.2 = .act actId then g.write x.1 x.2 (cleared d x.1 x.2) else g

def unplaceActivity (g : Grids κ) (actId : Nat) : Grids κ :=
  match d.activities[actId]?, g.actPlacement actId with
  | some act, some oldSlot =>
    let g := (act.cells oldSlot).foldl (clear d actId) g
    { g with actPlacement := take g.actPlacement actId }
  | _, _ => g

/-- The writes of a placement, after the activity has left another slot. -/
def occupy (act : Act κ) (actId slot : Nat) (g : Grids κ) : Grids κ :=
  (act.cells slot).foldl (fun g x => g.write x.1 x.2 (.act actId))
    { g with actPlacement := put g.actPlacement actId slot }

def placeActivityDirect (g : Grids κ) (actId slot : Nat) : Grids κ :=
  match d.activities[actId]? with
  | none => g
  | some act =>
    if g.actPlacement actId ≠ none ∧ g.actPlacement actId ≠ some slot then
      occupy act actId slot (unplaceActivity d g actId)
    else occupy act actId slot g

section Conflicts

/-- `conflictsSet.add`, for a cell that holds another activity. -/
def addConflict (actId : Nat) (confs : List Nat) : Cell → List Nat
  | .act b => if b = actId ∨ b ∈ confs then confs else confs ++ [b]
  | _ => confs

def blockedCell : Cell → Bool
  | .off => true
  | .fixed => true
  | _ => false

/-- One cell of the activity at the slot tried: blocked, or its occupant is noted. -/
def scanCell (g : Grids κ) (actId : Nat) (act : Act κ) (confs : List Nat) :
    Row κ × Nat → Option (List Nat)
  | (.lop c, s) =>
    if d.offSlots c s then none
    else if (d.fixedSlots c s).isSome then none
    else if d.subjectOffSlots act.canonKey s || d.subjectOffSlots (d.normalizeMonName act.mon) s
    then none
    else some (addConflict actId confs (g.read (.lop c) s))
  | (.gv t, s) =>
    if d.teacherOffSlots t s then none
    else if blockedCell (g.read (.gv t) s) then none
    else some (addConflict actId confs (g.read (.gv t) s))
  | (.phong k, s) =>
    if d.roomOffSlots k s then none
    else if blockedCell (g.read (.phong k) s) then none
    else some (addConflict actId confs (g.read (.phong k) s))

/-- The cell is taught once the activity is placed and its conflicts are gone. -/
def taughtCell (actId : Nat) (confs : List Nat) : Cell → Bool
  | .act b => b != actId && !confs.contains b
  | .fixed => true
  | _ => false

/-- The periods of the slot's session in which the teacher would teach. -/
def curP (g : Grids κ) (actId : Nat) (act : Act κ) (slot : Nat) (confs : List Nat) (t : κ) :
    List Nat :=
  (List.range PERIODS_PER_SESSION).filter fun pi =>
    let s := sessionStart slot + pi
    if slot ≤ s ∧ s < slot + act.duration then true
    else taughtCell actId confs (g.read (.gv t) s)

/-- No two neighbours of an ascending list are more than one period apart. -/
def smallGaps : List Nat → Bool
  | p :: q :: rest => decide (q ≤ p + 2) && smallGaps (q :: rest)
  | _ => true

/-- Last − first + 1, of an ascending list. -/
def span (ps : List Nat) : Nat := ps.getLastD 0 - ps.headD 0 + 1

def gapsAllowed (ps : List Nat) : Bool :=
  decide (ps.length < 2) || (smallGaps ps && decide (span ps - ps.length ≤ 1))

/-- The strict gap rule, for the teachers that have a row. -/
def teacherGapsOk (g : Grids κ) (actId : Nat) (act : Act κ) (slot : Nat) (confs : List Nat) :
    Bool :=
  act.gv.all fun t => (g.rows (.gv t)).isNone || gapsAllowed (curP g actId act slot confs t)

/-- Whether the cell, once the conflicts are gone, is a lesson of the subject. -/
def subjectCell (g : Grids κ) (act : Act κ) (confs : List Nat) (s : Nat) : Bool :=
  match g.read (.lop act.classId) s with
  | .act b =>
    !confs.contains b && (d.activities[b]?).any fun e =>
      decide (d.getCanonMonKey e.mon = d.getCanonMonKey act.mon)
  | _ =>
    (d.fixedSlots act.classId s).any fun fix =>
      fix.mon.any fun m => decide (d.getCanonMonKey m = d.getCanonMonKey act.mon)

def subjectPeriods (g : Grids κ) (act : Act κ) (slot : Nat) (confs : List Nat) : List Nat :=
  (List.range PERIODS_PER_SESSION).filter fun pi =>
    let s := sessionStart slot + pi
    if slot ≤ s ∧ s < slot + act.duration then true else subjectCell d g act confs s

/-- At most one period, or periods without a hole. -/
def contiguous (ps : List Nat) : Bool := decide (ps.length < 2) || span ps == ps.length

def keepsCa (act : Act κ) (slot : Nat) : Bool :=
  match act.ca with
  | none => true
  | some ca => ca == buoi slot

/-- `none` is `possible: false`; else the conflicts in the order they were met. -/
def getConflictsForSlot (set : Settings κ) (g : Grids κ) (actId : Nat) (act : Act κ)
    (slot : Nat) : Option (List Nat) :=
  if PERIODS_PER_SESSION < periodIdx slot + act.duration then none
  else if !keepsCa act slot then none
  else
    match (act.cells slot).foldlM (scanCell d g actId act) [] with
    | none => none
    | some confs =>
      if set.strictFetGaps && !teacherGapsOk g actId act slot confs then none
      else if d.getSubjectSessionLimit act < (subjectPeriods d g act slot confs).length then none
      else if !contiguous (subjectPeriods d g act slot confs) then none
      else some confs

end Conflicts

end TkbCherry.Fet
