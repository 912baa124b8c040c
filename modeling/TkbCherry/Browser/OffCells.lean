import TkbCherry.Browser.Storage
import TkbCherry.Lib.Growing
import TkbCherry.Lib.Array2

/-!
# Cells set to OFF

`setOffByKeys` of the timetable page edits the timetable, the OFF locks and the store of displaced
lessons key by key, and asks before it takes a fixed lesson. A refusal returns at once, so what the
earlier keys changed stays changed.
-/

namespace TkbCherry.Browser

set_option autoImplicit false

open Array2

/-! ### The page -/

/-- The value of a timetable cell; `missing` is `undefined` or `null`. -/
inductive Cell where
  | missing
  | text (s : String)
  | record (mon : String) (fixed : Bool)
deriving DecidableEq, Repr

namespace Cell

def off : Cell := .text "OFF"

/-- `cellMon`. -/
def mon : Cell → String
  | missing => ""
  | text s => if s = "OFF" then "" else s
  | record mon _ => mon

/-- `isFixed`. -/
def isFixed : Cell → Bool
  | record _ fixed => fixed
  | _ => false

/-- A cell that is neither empty nor `"OFF"`. -/
def occupied (c : Cell) : Bool := decide (c ≠ missing) && decide (c ≠ text "") && decide (c ≠ off)

end Cell

/-- An array of cells; an index outside it reads `undefined`. -/
structure Row where
  length : Nat
  cell : Int → Cell

namespace Row

def set (r : Row) (i : Int) (v : Cell) : Row where
  length := if 0 ≤ i then max r.length (i.toNat + 1) else r.length
  cell := Function.update r.cell i v

end Row

/-- `(thu, buoi, ti)`, what `userOffLockKey` joins. -/
abbrev SlotKey := String × String × Int

/-- `tkb[classId]`: the rows by day and session. -/
abbrev ClassGrid := String → String → Option Row

structure Displaced where
  value : Cell
  mon : String
  fixed : Bool
  teacher : String
  room : String
  savedAt : Int
deriving DecidableEq, Repr

/-- The three stores of the page. `userOff` holds the entries of `tkbUserOff` that
`normalizeUserOffList` keeps, `fixedClass` and `fixedTeacher` those of `fixedOff`. -/
structure Data where
  tkb : String → Option ClassGrid
  userOff : String → SlotKey → Bool
  fixedClass : String → SlotKey → Bool
  fixedTeacher : String → SlotKey → Bool
  restore : String → SlotKey → Option Displaced

/-- The configuration, the classes of the timetable and what the page looks up in other data. -/
structure Lookup where
  days : List String
  sang : Int
  chieu : Int
  classIds : List String
  currentLop : String
  currentGV : String
  /-- `getTeacherForClassMon` -/
  teacherOf : String → String → String
  /-- `getRoomForClassMon` -/
  roomOf : String → String → String
  /-- `teacherListFromValue` -/
  members : String → List String
  /-- `teacherValueHas` -/
  has : String → String → Bool
  /-- `Date.now()` -/
  now : Int

/-- What `parseCellKey` returns; `ti` is `none` when it is no finite number. -/
structure CellKey where
  scope : String
  classId : String
  thu : String
  buoi : String
  ti : Option Int
deriving DecidableEq, Repr

/-- `parseCellKey`; `number` is `Number`. -/
def parseCellKey (number : String → Option Int) (key : String) : CellKey :=
  match (key.toList.splitOnP (· == '|')).map String.ofList with
  | scope :: classId :: thu :: buoi :: ti :: _ => ⟨scope, classId, thu, buoi, number ti⟩
  | [thu] => ⟨"", "", thu, "", none⟩
  | [thu, buoi] => ⟨"", "", thu, buoi, none⟩
  | thu :: buoi :: ti :: _ => ⟨"", "", thu, buoi, number ti⟩
  | [] => ⟨"", "", "", "", none⟩

/-- `String.prototype.trim`. -/
def jsTrim (s : String) : String :=
  String.ofList ((s.toList.dropWhile isJsSpace).reverse.dropWhile isJsSpace).reverse

namespace Lookup
variable (env : Lookup)

/-- The day, session and period checks in front of a lock. -/
def validSlot (key : SlotKey) : Bool :=
  decide (key.1 ∈ env.days) && (decide (key.2.1 = "sang") || decide (key.2.1 = "chieu")) &&
    decide (0 ≤ key.2.2) && decide (key.2.2 < if key.2.1 = "sang" then env.sang else env.chieu)

/-- The checks of `clearTeacherLessonsAtSlot`. -/
def realSession (key : SlotKey) : Bool :=
  decide (key.1 ∈ env.days) && (decide (key.2.1 = "sang") || decide (key.2.1 = "chieu"))

end Lookup

namespace Data
variable (env : Lookup) (s : Data)

def row (id : String) (key : SlotKey) : Option Row :=
  (s.tkb id).bind fun grid => grid key.1 key.2.1

def cellAt (id : String) (key : SlotKey) : Cell :=
  (s.row id key).elim .missing fun r => r.cell key.2.2

/-- `tkb[thu][buoi][ti] = v`. -/
def setCell (id : String) (key : SlotKey) (v : Cell) : Data :=
  { s with tkb := Function.update s.tkb id ((s.tkb id).map fun grid =>
      fun thu buoi => if thu = key.1 ∧ buoi = key.2.1
        then (grid thu buoi).map fun r => r.set key.2.2 v else grid thu buoi) }

/-! ### Locks -/

/-- `addUserOffLock`; a key outside the table is dropped by the next normalization. -/
def addUserOffLock (id : String) (key : SlotKey) : Data :=
  if env.validSlot key then
    { s with
      userOff := set2 s.userOff id key true
      fixedClass := set2 s.fixedClass id key true }
  else s

/-- `removeUserOffLock`. -/
def removeUserOffLock (id : String) (key : SlotKey) : Data :=
  if env.validSlot key then
    { s with
      userOff := set2 s.userOff id key false
      fixedClass := set2 s.fixedClass id key false }
  else s

/-- `syncTeacherFixedOffConstraint`. -/
def syncTeacherFixedOff (gv : String) (key : SlotKey) (isOff : Bool) : Data :=
  if env.validSlot key then { s with fixedTeacher := set2 s.fixedTeacher gv key isOff } else s

/-! ### Lessons -/

/-- The lesson of the cell is one of the teacher. -/
def taughtBy (gv : String) (id : String) (c : Cell) : Bool :=
  c.occupied && decide (c.mon ≠ "") && env.has (env.teacherOf id c.mon) gv

/-- `clearTeacherLessonsAtSlot`. -/
def clearTeacherLessons (gv : String) (key : SlotKey) : Data :=
  if env.realSession key then
    { s with tkb := fun id =>
        if id ∈ env.classIds then
          (s.tkb id).map fun grid => fun thu buoi =>
            if thu = key.1 ∧ buoi = key.2.1 then
              (grid thu buoi).map fun r =>
                if 0 ≤ key.2.2 ∧ key.2.2 < r.length ∧ taughtBy env gv id (r.cell key.2.2) = true
                then r.set key.2.2 (.text "") else r
            else grid thu buoi
        else s.tkb id }
  else s

/-- `clearOffDisplacedLesson`. -/
def clearDisplaced (id : String) (key : SlotKey) : Data :=
  { s with restore := set2 s.restore id key none }

/-- `rememberOffDisplacedLesson`. -/
def rememberDisplaced (id : String) (key : SlotKey) (v : Cell) : Data :=
  if v.mon = "" then s.clearDisplaced id key
  else
    { s with restore := set2 s.restore id key (some
        { value := v
          mon := v.mon
          fixed := v.isFixed
          teacher := env.teacherOf id v.mon
          room := env.roomOf id v.mon
          savedAt := env.now }) }

/-- `offRestoreTeacherConflict`. -/
def restoreTeacherConflict (entry : Displaced) (id : String) (key : SlotKey) : Bool :=
  let wanted := env.members (if entry.teacher ≠ "" then entry.teacher else env.teacherOf id entry.mon)
  env.classIds.any fun other => decide (other ≠ id) && (s.cellAt other key).occupied &&
    decide ((s.cellAt other key).mon ≠ "") &&
    wanted.any fun code => env.has (env.teacherOf other (s.cellAt other key).mon) code

/-- `offRestoreRoomConflict`. -/
def restoreRoomConflict (entry : Displaced) (id : String) (key : SlotKey) : Bool :=
  let room := jsTrim entry.room
  decide (room ≠ "") && env.classIds.any fun other =>
    decide (other ≠ id) && (s.cellAt other key).occupied && decide ((s.cellAt other key).mon ≠ "") &&
    decide (jsTrim (env.roomOf other (s.cellAt other key).mon) = room)

/-- `restoreOffDisplacedLesson` on an `"OFF"` cell; `none` when nothing is restored. -/
def restoreDisplaced (id : String) (key : SlotKey) : Option Data :=
  (s.restore id key).bind fun entry =>
    if s.restoreTeacherConflict env entry id key || s.restoreRoomConflict env entry id key then none
    else
      let value := if entry.value.mon ≠ "" then entry.value
        else if entry.fixed then .record entry.mon true else .text entry.mon
      some ((s.setCell id key value).clearDisplaced id key)

/-! ### The keys -/

/-- What a key names, after the checks in front of the edits. -/
inductive Target where
  | skip
  | teacher (gv : String) (key : SlotKey)
  | lop (id : String) (key : SlotKey)

def target (k : CellKey) : Target :=
  match k.ti with
  | none => .skip
  | some ti =>
    if k.scope = "teacher" then
      let gv := jsTrim (if k.classId ≠ "" then k.classId else env.currentGV)
      if gv = "" ∨ k.thu = "" ∨ k.buoi = "" then .skip else .teacher gv (k.thu, k.buoi, ti)
    else
      let id := if k.classId ≠ "" then k.classId else env.currentLop
      if id = "" ∨ k.thu = "" ∨ k.buoi = "" then .skip
      else if (s.row id (k.thu, k.buoi, ti)).isNone then .skip
      else .lop id (k.thu, k.buoi, ti)

/-- The key asks before it is set to OFF. -/
def asks (k : CellKey) : Bool :=
  match s.target env k with
  | .lop id key => (s.cellAt id key).isFixed
  | _ => false

/-- The edits of one key that is set to OFF. -/
def setOff (k : CellKey) : Data :=
  match s.target env k with
  | .skip => s
  | .teacher gv key => (s.syncTeacherFixedOff env gv key true).clearTeacherLessons env gv key
  | .lop id key =>
    let locked := s.addUserOffLock env id key
    let cur := s.cellAt id key
    if cur = .off then locked
    else (if cur.mon ≠ "" then locked.rememberDisplaced env id key cur
      else locked.clearDisplaced id key).setCell id key .off

/-- The edits of one key whose OFF is taken back. -/
def clearOff (k : CellKey) : Data :=
  match s.target env k with
  | .skip => s
  | .teacher gv key => s.syncTeacherFixedOff env gv key false
  | .lop id key =>
    let unlocked := s.removeUserOffLock env id key
    if s.cellAt id key = .off then
      (unlocked.restoreDisplaced env id key).getD (unlocked.setCell id key (.text ""))
    else unlocked

/-- The loop over the parsed keys: the stores and the index of the key at which the user refused.
The answers are those to the confirmations, in order. -/
def setOffKeys (isOff skipConfirm : Bool) :
    List CellKey → (Nat → Bool) → Data → Data × Option Nat
  | [], _, s => (s, none)
  | k :: rest, answers, s =>
    if isOff then
      if s.asks env k && !skipConfirm then
        if answers 0 then
          let after := setOffKeys isOff skipConfirm rest (fun n => answers (n + 1)) (s.setOff env k)
          (after.1, after.2.map (· + 1))
        else (s, some 0)
      else
        let after := setOffKeys isOff skipConfirm rest answers (s.setOff env k)
        (after.1, after.2.map (· + 1))
    else
      let after := setOffKeys isOff skipConfirm rest answers (s.clearOff env k)
      (after.1, after.2.map (· + 1))

/-- `setOffByKeys`. -/
def setOffByKeys (number : String → Option Int) (isOff skipConfirm : Bool) (keys : List String)
    (answers : Nat → Bool) : Data × Option Nat :=
  setOffKeys env isOff skipConfirm (keys.map (parseCellKey number)) answers s

/-- A refused confirmation leaves the three stores as they were before the call. -/
def RefusesAtomically (number : String → Option Int) (isOff skipConfirm : Bool)
    (keys : List String) (answers : Nat → Bool) : Prop :=
  ∀ n, (s.setOffByKeys env number isOff skipConfirm keys answers).2 = some n →
    (s.setOffByKeys env number isOff skipConfirm keys answers).1 = s

/-! ### Idle keys -/

/-- Setting the key to OFF has nothing to do: the key is skipped, or the class cell is OFF and
locked, or the teacher is locked and has no lesson there. -/
def Idle (k : CellKey) : Prop :=
  match s.target env k with
  | .skip => True
  | .teacher gv key =>
    (env.validSlot key = true → s.fixedTeacher gv key = true) ∧
      (env.realSession key = true → ∀ id ∈ env.classIds, ∀ r, s.row id key = some r →
        0 ≤ key.2.2 → key.2.2 < r.length → taughtBy env gv id (r.cell key.2.2) = false)
  | .lop id key =>
    s.cellAt id key = .off ∧
      (env.validSlot key = true → s.userOff id key = true ∧ s.fixedClass id key = true)

end Data

/-- Empty cells come after lessons and before OFF cells. -/
def Cell.rank (c : Cell) : Nat := if c = .off then 2 else if c.mon = "" then 1 else 0

namespace Data
variable {env : Lookup} {s t : Data}

/-- The locks only grow and no cell goes back towards a lesson. -/
structure Le (s t : Data) : Prop where
  userOff : ∀ id key, s.userOff id key = true → t.userOff id key = true
  fixedClass : ∀ id key, s.fixedClass id key = true → t.fixedClass id key = true
  fixedTeacher : ∀ gv key, s.fixedTeacher gv key = true → t.fixedTeacher gv key = true
  cells : ∀ id key, (s.cellAt id key).rank ≤ (t.cellAt id key).rank

theorem Le.refl (s : Data) : Le s s :=
  ⟨fun _ _ h => h, fun _ _ h => h, fun _ _ h => h, fun _ _ => Nat.le_refl _⟩

theorem Le.trans {u : Data} (h : Le s t) (h' : Le t u) : Le s u where
  userOff := fun id key hs => h'.userOff id key (h.userOff id key hs)
  fixedClass := fun id key hs => h'.fixedClass id key (h.fixedClass id key hs)
  fixedTeacher := fun gv key hs => h'.fixedTeacher gv key (h.fixedTeacher gv key hs)
  cells := fun id key => Nat.le_trans (h.cells id key) (h'.cells id key)

theorem cellAt_congr (h : t.tkb = s.tkb) (id : String) (key : SlotKey) :
    t.cellAt id key = s.cellAt id key := by
  simp only [cellAt, row, h]

theorem set2_true_of {A B : Type} [DecidableEq A] [DecidableEq B] {f : A → B → Bool} {a : A} {b : B}
    (a' : A) (b' : B) (h : f a' b' = true) : set2 f a b true a' b' = true := by
  rw [set2_apply]
  split
  · rfl
  · exact h

theorem set2_eq_self {A B V : Type} [DecidableEq A] [DecidableEq B] {f : A → B → V} {a : A} {b : B}
    {v : V} (h : f a b = v) : set2 f a b v = f := by
  rw [← h, set2_get]

/-! ### One write -/

theorem cellAt_setCell (s : Data) (id : String) (key : SlotKey) (v : Cell) (id' : String)
    (key' : SlotKey) : (s.setCell id key v).cellAt id' key' =
      if id' = id ∧ key' = key ∧ (s.row id key).isSome = true then v else s.cellAt id' key' := by
  obtain ⟨thu, buoi, ti⟩ := key
  obtain ⟨thu', buoi', ti'⟩ := key'
  simp only [cellAt, row, setCell, Prod.mk.injEq]
  by_cases hid : id' = id
  · subst hid
    rw [Function.update_self]
    cases hg : s.tkb id' with
    | none => simp
    | some grid =>
      simp only [Option.map_some, Option.bind_some]
      by_cases hrow : thu' = thu ∧ buoi' = buoi
      · obtain ⟨rfl, rfl⟩ := hrow
        cases hr : grid thu' buoi' with
        | none => simp
        | some r =>
          by_cases hti : ti' = ti
          · subst hti
            simp [Row.set]
          · simp [Row.set, hti]
      · have hno : ¬ (thu' = thu ∧ buoi' = buoi ∧ ti' = ti) := fun h => hrow ⟨h.1, h.2.1⟩
        simp [hrow]
        intro h1 h2
        exact absurd ⟨h1, h2⟩ hrow
  · rw [Function.update_of_ne hid]
    simp [hid]

/-- A cleared cell held a lesson of the teacher. -/
theorem cellAt_clearTeacher (s : Data) (gv : String) (key : SlotKey) (id : String) (key' : SlotKey) :
    (s.clearTeacherLessons env gv key).cellAt id key' = s.cellAt id key' ∨
      taughtBy env gv id (s.cellAt id key') = true ∧
        (s.clearTeacherLessons env gv key).cellAt id key' = .text "" := by
  obtain ⟨thu, buoi, ti⟩ := key
  obtain ⟨thu', buoi', ti'⟩ := key'
  unfold clearTeacherLessons
  split
  · simp only [cellAt, row]
    by_cases hid : id ∈ env.classIds
    · rw [if_pos hid]
      cases hg : s.tkb id with
      | none => exact Or.inl rfl
      | some grid =>
        simp only [Option.map_some, Option.bind_some]
        by_cases hrow : thu' = thu ∧ buoi' = buoi
        · obtain ⟨rfl, rfl⟩ := hrow
          rw [if_pos ⟨rfl, rfl⟩]
          cases hr : grid thu' buoi' with
          | none => exact Or.inl rfl
          | some r =>
            simp only [Option.map_some, Option.elim_some]
            split
            · rename_i hc
              by_cases hti : ti' = ti
              · subst hti
                exact Or.inr ⟨hc.2.2, by simp [Row.set]⟩
              · exact Or.inl (by simp [Row.set, hti])
            · exact Or.inl rfl
        · rw [if_neg hrow]
          exact Or.inl rfl
    · rw [if_neg hid]
      exact Or.inl rfl
  · exact Or.inl rfl

theorem cellAt_clearTeacher_of_taught {gv : String} {key : SlotKey} {id : String} {r : Row}
    (hsession : env.realSession key = true) (hid : id ∈ env.classIds) (hrow : s.row id key = some r)
    (h0 : 0 ≤ key.2.2) (hlt : key.2.2 < r.length) (ht : taughtBy env gv id (r.cell key.2.2) = true) :
    (s.clearTeacherLessons env gv key).cellAt id key = .text "" := by
  obtain ⟨grid, hg, hr⟩ := Option.bind_eq_some_iff.mp hrow
  unfold clearTeacherLessons
  rw [if_pos hsession]
  simp only [cellAt, row]
  rw [if_pos hid, hg]
  simp only [Option.map_some, Option.bind_some, and_self, if_true, hr, Option.elim_some]
  rw [if_pos ⟨h0, hlt, ht⟩]
  simp [Row.set]

/-- Without a lesson of the teacher nothing is cleared. -/
theorem clearTeacher_eq {gv : String} {key : SlotKey}
    (h : env.realSession key = true → ∀ id ∈ env.classIds, ∀ r, s.row id key = some r →
      0 ≤ key.2.2 → key.2.2 < r.length → taughtBy env gv id (r.cell key.2.2) = false) :
    s.clearTeacherLessons env gv key = s := by
  unfold clearTeacherLessons
  split
  · rename_i hsession
    have htkb : (fun id => if id ∈ env.classIds then
          (s.tkb id).map fun grid => fun thu buoi =>
            if thu = key.1 ∧ buoi = key.2.1 then
              (grid thu buoi).map fun r =>
                if 0 ≤ key.2.2 ∧ key.2.2 < r.length ∧ taughtBy env gv id (r.cell key.2.2) = true
                then r.set key.2.2 (.text "") else r
            else grid thu buoi
        else s.tkb id) = s.tkb := by
      funext id
      by_cases hid : id ∈ env.classIds
      · rw [if_pos hid]
        cases hg : s.tkb id with
        | none => rfl
        | some grid =>
          rw [Option.map_some]
          congr 1
          funext thu buoi
          by_cases hrow : thu = key.1 ∧ buoi = key.2.1
          · rw [if_pos hrow]
            cases hr : grid thu buoi with
            | none => rfl
            | some r =>
              rw [Option.map_some]
              congr 1
              apply if_neg
              intro hc
              have hrowAt : s.row id key = some r := by
                rw [row, hg, Option.bind_some, ← hrow.1, ← hrow.2, hr]
              rw [h hsession id hid r hrowAt hc.1 hc.2.1] at hc
              cases hc.2.2
          · rw [if_neg hrow]
      · rw [if_neg hid]
    rw [htkb]
  · rfl

/-! ### One key -/

theorem rank_taught {gv id : String} {c : Cell} (h : taughtBy env gv id c = true) : c.rank = 0 := by
  simp only [taughtBy, Cell.occupied, Bool.and_eq_true, decide_eq_true_eq] at h
  rw [Cell.rank, if_neg h.1.1.2, if_neg h.1.2]

theorem rank_off : Cell.off.rank = 2 := if_pos rfl

theorem rank_le (c : Cell) : c.rank ≤ 2 := by
  unfold Cell.rank
  split
  · omega
  · split <;> omega

theorem eq_off_of_rank {c : Cell} (h : 2 ≤ c.rank) : c = .off := by
  by_contra hn
  rw [Cell.rank, if_neg hn] at h
  split at h <;> omega

/-- The lock of a class, and nothing else. -/
theorem le_addUserOffLock (s : Data) (id : String) (key : SlotKey) :
    Le s (s.addUserOffLock env id key) := by
  unfold addUserOffLock
  split
  · constructor
    · intro id' key' h
      exact set2_true_of id' key' h
    · intro id' key' h
      exact set2_true_of id' key' h
    · intro gv key' h
      exact h
    · intro id' key'
      exact Nat.le_refl _
  · exact Le.refl s

theorem addUserOffLock_tkb (s : Data) (id : String) (key : SlotKey) :
    (s.addUserOffLock env id key).tkb = s.tkb := by
  unfold addUserOffLock
  split <;> rfl

/-- A cell set to OFF has the highest rank. -/
theorem le_setCell_off (s : Data) (id : String) (key : SlotKey) : Le s (s.setCell id key .off) where
  userOff := fun _ _ h => h
  fixedClass := fun _ _ h => h
  fixedTeacher := fun _ _ h => h
  cells := by
    intro id' key'
    rw [cellAt_setCell]
    split
    · rw [rank_off]
      exact rank_le _
    · exact Nat.le_refl _

/-- The store of displaced lessons does not count. -/
theorem le_restore (s : Data) (restore : String → SlotKey → Option Displaced) :
    Le s { s with restore := restore } :=
  ⟨fun _ _ h => h, fun _ _ h => h, fun _ _ h => h, fun _ _ => Nat.le_refl _⟩

theorem le_rememberDisplaced (s : Data) (id : String) (key : SlotKey) (v : Cell) :
    Le s (s.rememberDisplaced env id key v) := by
  unfold rememberDisplaced
  split
  · exact le_restore s _
  · exact le_restore s _

theorem le_syncTeacher (s : Data) (gv : String) (key : SlotKey) :
    Le s (s.syncTeacherFixedOff env gv key true) := by
  unfold syncTeacherFixedOff
  split
  · refine ⟨fun _ _ h => h, fun _ _ h => h, ?_, fun _ _ => Nat.le_refl _⟩
    intro gv' key' h
    exact set2_true_of gv' key' h
  · exact Le.refl s

theorem le_clearTeacher (s : Data) (gv : String) (key : SlotKey) :
    Le s (s.clearTeacherLessons env gv key) := by
  have hlocks : (s.clearTeacherLessons env gv key).userOff = s.userOff ∧
      (s.clearTeacherLessons env gv key).fixedClass = s.fixedClass ∧
      (s.clearTeacherLessons env gv key).fixedTeacher = s.fixedTeacher := by
    unfold clearTeacherLessons
    split <;> exact ⟨rfl, rfl, rfl⟩
  constructor
  · intro id key' h
    rw [hlocks.1]
    exact h
  · intro id key' h
    rw [hlocks.2.1]
    exact h
  · intro gv' key' h
    rw [hlocks.2.2]
    exact h
  · intro id key'
    rcases cellAt_clearTeacher s gv key id key' with hsame | ⟨ht, _⟩
    · rw [hsame]
    · rw [rank_taught ht]
      exact Nat.zero_le _

/-- Setting a key to OFF only grows the stores. -/
theorem le_setOff (env : Lookup) (s : Data) (k : CellKey) : Le s (s.setOff env k) := by
  unfold setOff
  cases s.target env k with
  | skip => exact Le.refl s
  | teacher gv key =>
    exact (le_syncTeacher s gv key).trans (le_clearTeacher _ gv key)
  | lop id key =>
    have hlock := @le_addUserOffLock env s id key
    dsimp only
    split
    · exact hlock
    · split
      · exact (hlock.trans (le_rememberDisplaced _ id key _)).trans (le_setCell_off _ id key)
      · exact (hlock.trans (le_restore _ _)).trans (le_setCell_off _ id key)

/-- The row of a class key exists. -/
theorem row_of_target {k : CellKey} {id : String} {key : SlotKey}
    (h : s.target env k = .lop id key) : (s.row id key).isSome = true := by
  unfold target at h
  cases hti : k.ti with
  | none =>
    rw [hti] at h
    cases h
  | some ti =>
    rw [hti] at h
    dsimp only at h
    by_cases hscope : k.scope = "teacher"
    · rw [if_pos hscope] at h
      generalize jsTrim (if k.classId ≠ "" then k.classId else env.currentGV) = gv at h
      split at h <;> cases h
    · rw [if_neg hscope] at h
      generalize (if k.classId ≠ "" then k.classId else env.currentLop) = lop at h
      split at h
      · cases h
      · split at h
        · cases h
        · rename_i hsome
          cases h
          simpa [Option.isSome_iff_ne_none] using hsome

/-- A key that leaves the stores no larger had nothing to do. -/
theorem idle_of_le {k : CellKey} (h : Le (s.setOff env k) s) : s.Idle env k := by
  unfold setOff at h
  unfold Idle
  cases ht : s.target env k with
  | skip => trivial
  | teacher gv key =>
    rw [ht] at h
    dsimp only at h ⊢
    constructor
    · intro hvalid
      apply h.fixedTeacher gv key
      unfold clearTeacherLessons syncTeacherFixedOff
      rw [if_pos hvalid]
      split <;> exact set2_self _ _ _ _
    · intro hsession id hid r hrow h0 hlt
      by_contra htaught
      have htaught : taughtBy env gv id (r.cell key.2.2) = true := eq_true_of_ne_false htaught
      have hsync : (s.syncTeacherFixedOff env gv key true).row id key = some r := by
        unfold syncTeacherFixedOff
        split <;> exact hrow
      have hcell : s.cellAt id key = r.cell key.2.2 := by
        rw [cellAt, hrow]
        rfl
      have hrank := h.cells id key
      rw [cellAt_clearTeacher_of_taught hsession hid hsync h0 hlt htaught, hcell,
        rank_taught htaught] at hrank
      revert hrank
      decide
  | lop id key =>
    rw [ht] at h
    dsimp only at h ⊢
    have hlock : ∀ t : Data, Le (s.addUserOffLock env id key) t → Le t s →
        env.validSlot key = true → s.userOff id key = true ∧ s.fixedClass id key = true := by
      intro t hgrow hback hvalid
      have hle := hgrow.trans hback
      unfold addUserOffLock at hle
      rw [if_pos hvalid] at hle
      exact ⟨hle.userOff id key (set2_self _ _ _ _), hle.fixedClass id key (set2_self _ _ _ _)⟩
    by_cases hoff : s.cellAt id key = .off
    · rw [if_pos hoff] at h
      exact ⟨hoff, hlock _ (Le.refl _) h⟩
    · rw [if_neg hoff] at h
      exfalso
      apply hoff
      apply eq_off_of_rank
      have hrow := row_of_target ht
      have hrank := h.cells id key
      have hbase : ∀ t : Data, t.tkb = s.tkb → (t.setCell id key .off).cellAt id key = .off := by
        intro t htkb
        rw [cellAt_setCell, if_pos]
        refine ⟨rfl, rfl, ?_⟩
        simpa only [row, htkb] using hrow
      have hafter : ((if (s.cellAt id key).mon ≠ "" then
          (s.addUserOffLock env id key).rememberDisplaced env id key (s.cellAt id key)
        else (s.addUserOffLock env id key).clearDisplaced id key).setCell id key .off).cellAt id key =
          .off := by
        apply hbase
        split
        · unfold rememberDisplaced
          split <;> exact addUserOffLock_tkb s id key
        · exact addUserOffLock_tkb s id key
      rw [hafter, rank_off] at hrank
      exact hrank

theorem setOff_eq_of_idle {k : CellKey} (h : s.Idle env k) : s.setOff env k = s := by
  unfold Idle at h
  unfold setOff
  cases ht : s.target env k with
  | skip => rfl
  | teacher gv key =>
    rw [ht] at h
    obtain ⟨hlock, hclear⟩ := h
    dsimp only
    have hsync : s.syncTeacherFixedOff env gv key true = s := by
      unfold syncTeacherFixedOff
      split
      · rename_i hvalid
        rw [set2_eq_self (hlock hvalid)]
      · rfl
    rw [hsync]
    exact clearTeacher_eq hclear
  | lop id key =>
    rw [ht] at h
    obtain ⟨hoff, hlock⟩ := h
    dsimp only
    rw [if_pos hoff]
    unfold addUserOffLock
    split
    · rename_i hvalid
      obtain ⟨huser, hclass⟩ := hlock hvalid
      rw [set2_eq_self huser, set2_eq_self hclass]
    · rfl

theorem grows_setOff (env : Lookup) : Growing.Grows (fun s k => setOff env s k) Le (Idle env) where
  refl := Le.refl
  trans := Le.trans
  le_edit := le_setOff env
  idle_of_le := idle_of_le
  edit_eq := setOff_eq_of_idle

/-! ### The list of keys -/

/-- Taking OFF back asks for nothing. -/
theorem setOffKeys_clear (env : Lookup) (skipConfirm : Bool) (keys : List CellKey)
    (answers : Nat → Bool) (s : Data) : (s.setOffKeys env false skipConfirm keys answers).2 = none := by
  induction keys generalizing s with
  | nil => rfl
  | cons k rest ih =>
    rw [setOffKeys, if_neg Bool.false_ne_true]
    simp only [ih, Option.map_none]

/-- At a refusal the stores are those after the keys before it. -/
theorem setOffKeys_refused {isOff skipConfirm : Bool} {keys : List CellKey} {answers : Nat → Bool}
    {n : Nat} (h : (s.setOffKeys env isOff skipConfirm keys answers).2 = some n) :
    (s.setOffKeys env isOff skipConfirm keys answers).1 =
      (keys.take n).foldl (fun s k => setOff env s k) s := by
  induction keys generalizing s answers n with
  | nil => cases h
  | cons k rest ih =>
    have htail : ∀ (answers : Nat → Bool) (m : Option Nat),
        m = (setOffKeys env isOff skipConfirm rest answers (s.setOff env k)).2 →
        m.map (· + 1) = some n →
        (setOffKeys env isOff skipConfirm rest answers (s.setOff env k)).1 =
          ((k :: rest).take n).foldl (fun s k => setOff env s k) s := by
      intro answers m hm hn
      obtain ⟨j, hj, rfl⟩ := Option.map_eq_some_iff.mp hn
      rw [List.take_succ_cons, List.foldl_cons]
      exact ih (hm.symm.trans hj)
    cases isOff with
    | false =>
      rw [setOffKeys_clear] at h
      cases h
    | true =>
      rw [setOffKeys, if_pos rfl] at h ⊢
      by_cases hask : (s.asks env k && !skipConfirm) = true
      · rw [if_pos hask] at h ⊢
        by_cases hans : answers 0 = true
        · rw [if_pos hans] at h ⊢
          exact htail _ _ rfl h
        · rw [if_neg hans] at h ⊢
          cases h
          rfl
      · rw [if_neg hask] at h ⊢
        exact htail _ _ rfl h

/-- The user refuses only where every key before had nothing to do. -/
def QuietBefore (env : Lookup) (s : Data) (number : String → Option Int) (isOff skipConfirm : Bool)
    (keys : List String) (answers : Nat → Bool) : Prop :=
  ∀ n, (s.setOffByKeys env number isOff skipConfirm keys answers).2 = some n →
    ∀ key ∈ keys.take n, s.Idle env (parseCellKey number key)

/-- A refusal is atomic exactly when no key before it had an edit to make. -/
theorem refusesAtomically_iff (env : Lookup) (s : Data) (number : String → Option Int)
    (isOff skipConfirm : Bool) (keys : List String) (answers : Nat → Bool) :
    s.RefusesAtomically env number isOff skipConfirm keys answers ↔
      QuietBefore env s number isOff skipConfirm keys answers := by
  have hiff : ∀ n, (s.setOffByKeys env number isOff skipConfirm keys answers).2 = some n →
      ((s.setOffByKeys env number isOff skipConfirm keys answers).1 = s ↔
        ∀ key ∈ keys.take n, s.Idle env (parseCellKey number key)) := by
    intro n hn
    unfold setOffByKeys at hn ⊢
    rw [setOffKeys_refused hn, (grows_setOff env).foldl_eq_iff, ← List.map_take]
    exact List.forall_mem_map
  constructor
  · intro h n hn
    exact (hiff n hn).mp (h n hn)
  · intro h n hn
    exact (hiff n hn).mpr (h n hn)

end Data

/-! ### A lesson and a fixed lesson -/

/-- Monday morning of one class: a lesson and a fixed lesson. -/
def twoLessons : Data where
  tkb := fun id => if id = "6A" then some fun thu buoi =>
    if thu = "thu2" ∧ buoi = "sang" then
      some ⟨5, fun i => if i = 0 then .text "Toan" else if i = 1 then .record "Van" true else .text ""⟩
    else none
    else none
  userOff := fun _ _ => false
  fixedClass := fun _ _ => false
  fixedTeacher := fun _ _ => false
  restore := fun _ _ => none

def pageOfOneClass : Lookup where
  days := ["thu2", "thu3", "thu4", "thu5", "thu6", "thu7"]
  sang := 5
  chieu := 5
  classIds := ["6A"]
  currentLop := "6A"
  currentGV := ""
  teacherOf := fun _ _ => ""
  roomOf := fun _ _ => ""
  members := fun _ => []
  has := fun _ _ => false
  now := 0

/-- `Number` on one digit. -/
def digit (s : String) : Option Int :=
  match s.toList with
  | [c] => if c.isDigit then some ((c.toNat : Int) - 48) else none
  | _ => none

/-- The refusal at the fixed lesson leaves the first lesson turned into OFF. -/
theorem twoLessons_not_atomic : ¬ twoLessons.RefusesAtomically pageOfOneClass digit true false
    ["single|6A|thu2|sang|0", "single|6A|thu2|sang|1"] fun _ => false := by
  intro h
  have hrefused : (twoLessons.setOffByKeys pageOfOneClass digit true false
      ["single|6A|thu2|sang|0", "single|6A|thu2|sang|1"] fun _ => false).2 = some 1 := by
    decide +kernel
  have hlocked := congrArg (fun s : Data => s.userOff "6A" ("thu2", "sang", 0)) (h 1 hrefused)
  revert hlocked
  decide +kernel

end TkbCherry.Browser
