import TkbCherry.Engine.Stats

/-!
# The conflict-tolerant schedule

`SoftSchedule` keeps counters of the teachers at every slot, a bit mask for every teacher
session with totals read off tables of the thirty-two masks, and the places of the lessons
of the teachers with place rules. Rule penalties and their work lists are left out.
-/

namespace TkbCherry.Engine

set_option autoImplicit false

open Array2

/-! ### Masks -/

/-- One bit for every period of a session. -/
abbrev Mask := BitVec 5

namespace Mask

/-- `_MC_BIT[p]`. -/
def bit (p : Period) : Mask := BitVec.twoPow 5 p.val

def has (m : Mask) (p : Period) : Bool := m.getLsbD p.val

/-- `_MC_CNT[m]`, `_MC_FIRST[m]` and `_MC_LAST[m]`. -/
def window (m : Mask) : Window := sessionWindow m.has

/-- `_MC_SINGLE[m]`, `_MC_GAP2[m]`, `_MC_GAP1[m]` and `_MC_OCC[m]`. -/
def single (m : Mask) : Int := m.window.singleton
def gap2 (m : Mask) : Int := m.window.gap2
def gap1 (m : Mask) : Int := m.window.gap1
def occ (m : Mask) : Int := m.window.session

/-- The mask of the occupied periods, as `_refresh_ts` builds it. -/
def ofPeriods (occupied : Period → Bool) : Mask :=
  allPeriods.foldl (fun m p => if occupied p then m ||| bit p else m) 0

theorem has_or_bit (m : Mask) (p q : Period) : (m ||| bit p).has q = (m.has q || decide (q = p)) := by
  have hq : q.val < 5 := q.isLt
  simp only [has, bit, BitVec.getLsbD_or, BitVec.getLsbD_twoPow, Fin.ext_iff]
  simp [eq_comm]

theorem has_andNot_bit (m : Mask) (p q : Period) :
    (m &&& ~~~bit p).has q = (m.has q && !decide (q = p)) := by
  have hq : q.val < 5 := q.isLt
  simp only [has, bit, BitVec.getLsbD_and, BitVec.getLsbD_not, BitVec.getLsbD_twoPow, Fin.ext_iff]
  simp [eq_comm, hq]

theorem has_ofPeriods (occupied : Period → Bool) (q : Period) :
    (ofPeriods occupied).has q = occupied q := by
  have h : ∀ (ps : List Period) (m : Mask),
      (ps.foldl (fun m p => if occupied p then m ||| bit p else m) m).has q =
        (m.has q || (decide (q ∈ ps) && occupied q)) := by
    intro ps
    induction ps with
    | nil => simp
    | cons p rest ih =>
      intro m
      rw [List.foldl_cons, ih]
      by_cases hq : q = p
      · subst hq
        cases ho : occupied q <;> simp [has_or_bit]
      · cases occupied p <;> simp [has_or_bit, hq]
  rw [ofPeriods, h]
  simp [has, mem_allPeriods]

/-- `m == 0`. -/
def isZero (m : Mask) : Bool := m == 0

theorem used_window (m : Mask) : m.window.used = if m.isZero then 0 else 1 := by
  revert m
  decide

end Mask

/-! ### State -/

structure SoftSchedule (P : Problem) where
  grid : P.Grid
  tcnt : P.Tch → Slot → Int
  overlap : Int
  conflicts : Finset (P.Tch × Slot)
  /-- `ts_cnt`, `ts_first`, `ts_last` -/
  ts : P.Tch → Session → Window
  tsMask : P.Tch → Session → Mask
  qSingleton : Int
  qGap2 : Int
  qGap1 : Int
  qSessions : Int
  qDays : Int
  tDaySessions : P.Tch → Day → Int
  trackQuality : Bool
  /-- kept for the teachers with `teacher_loc_rules` only -/
  tloc : P.Tch → Slot → List Nat

namespace SoftSchedule
variable {P : Problem}

def init (P : Problem) : SoftSchedule P where
  grid := fun _ _ => none
  tcnt := fun _ _ => 0
  overlap := 0
  conflicts := ∅
  ts := fun _ _ => ⟨0, -1, -1⟩
  tsMask := fun _ _ => 0
  qSingleton := 0
  qGap2 := 0
  qGap1 := 0
  qSessions := 0
  qDays := 0
  tDaySessions := fun _ _ => 0
  trackQuality := false
  tloc := fun _ _ => []

/-- The table lookups of `_set_mask`. -/
def writeMask (k : SoftSchedule P) (t : P.Tch) (s : Session) (m : Mask) : SoftSchedule P :=
  let old := k.tsMask t s
  { k with
    tsMask := set2 k.tsMask t s m
    qSingleton := k.qSingleton + (m.single - old.single)
    qGap2 := k.qGap2 + (m.gap2 - old.gap2)
    qGap1 := k.qGap1 + (m.gap1 - old.gap1)
    qSessions := k.qSessions + (m.occ - old.occ)
    ts := set2 k.ts t s m.window }

/-- The day counter of `_set_mask` when a session opens or closes. -/
def countDay (k : SoftSchedule P) (t : P.Tch) (d : Day) (change : Int) : SoftSchedule P :=
  let had := k.tDaySessions t d
  let now := had + change
  { k with
    tDaySessions := set2 k.tDaySessions t d now
    qDays := if had = 0 ∧ now > 0 then k.qDays + 1
      else if had > 0 ∧ now = 0 then k.qDays - 1 else k.qDays }

/-- `_set_mask`. -/
def setMask (k : SoftSchedule P) (t : P.Tch) (s : Session) (m : Mask) : SoftSchedule P :=
  let old := k.tsMask t s
  if old = m then k
  else if old.isZero = m.isZero then k.writeMask t s m
  else (k.writeMask t s m).countDay t (dayOf s) (if m.isZero then -1 else 1)

/-- `overlap`, `tcnt` and `conflicts` when a teacher loses a lesson at a slot. -/
def dropCount (k : SoftSchedule P) (t : P.Tch) (slot : Slot) : SoftSchedule P :=
  let cnt := k.tcnt t slot
  { k with
    overlap := if cnt > 1 then k.overlap - 1 else k.overlap
    tcnt := set2 k.tcnt t slot (cnt - 1)
    conflicts := if cnt - 1 ≤ 1 then k.conflicts.erase (t, slot) else k.conflicts }

/-- `overlap`, `tcnt` and `conflicts` when a teacher gets a lesson at a slot. -/
def addCount (k : SoftSchedule P) (t : P.Tch) (slot : Slot) : SoftSchedule P :=
  let cnt := k.tcnt t slot
  { k with
    overlap := if cnt ≥ 1 then k.overlap + 1 else k.overlap
    conflicts := if cnt ≥ 1 then insert (t, slot) k.conflicts else k.conflicts
    tcnt := set2 k.tcnt t slot (cnt + 1) }

/-- `tl[slot].remove(loc)`; an absent place is ignored. -/
def dropPlace (k : SoftSchedule P) (t : P.Tch) (slot : Slot) (loc : Option Nat) :
    SoftSchedule P :=
  match P.teacherLocRules t, loc with
  | true, some loc => { k with tloc := set2 k.tloc t slot ((k.tloc t slot).erase loc) }
  | _, _ => k

/-- `tl[slot].append(loc)`. -/
def addPlace (k : SoftSchedule P) (t : P.Tch) (slot : Slot) (loc : Option Nat) :
    SoftSchedule P :=
  match P.teacherLocRules t, loc with
  | true, some loc => { k with tloc := set2 k.tloc t slot (k.tloc t slot ++ [loc]) }
  | _, _ => k

/-- The loop body of `set_cell` for a teacher of the old lesson. -/
def dropTeacher (slot : Slot) (old : P.Asg) (k : SoftSchedule P) (t : P.Tch) : SoftSchedule P :=
  let s := sessionOfSlot slot
  let cnt := k.tcnt t slot
  let k := k.dropCount t slot
  let k := if k.trackQuality = true ∧ cnt = 1
    then k.setMask t s (k.tsMask t s &&& ~~~Mask.bit (periodOfSlot slot)) else k
  k.dropPlace t slot (P.aLoc old)

/-- The loop body of `set_cell` for a teacher of the new lesson. -/
def addTeacher (slot : Slot) (ai : P.Asg) (k : SoftSchedule P) (t : P.Tch) : SoftSchedule P :=
  let s := sessionOfSlot slot
  let cnt := k.tcnt t slot
  let k := k.addCount t slot
  let k := if k.trackQuality = true ∧ cnt = 0
    then k.setMask t s (k.tsMask t s ||| Mask.bit (periodOfSlot slot)) else k
  k.addPlace t slot (P.aLoc ai)

def dropLesson (slot : Slot) (k : SoftSchedule P) : Option P.Asg → SoftSchedule P
  | none => k
  | some old => (P.aTeachers old).foldl (dropTeacher slot old) k

def addLesson (slot : Slot) (k : SoftSchedule P) : Option P.Asg → SoftSchedule P
  | none => k
  | some ai => (P.aTeachers ai).foldl (addTeacher slot ai) k

/-- `set_cell`. -/
def setCell (k : SoftSchedule P) (c : P.Cls) (slot : Slot) (ai : Option P.Asg) :
    SoftSchedule P :=
  let old := k.grid c slot
  if old = ai then k
  else { (k.dropLesson slot old).addLesson slot ai with grid := set2 k.grid c slot ai }

theorem setCell_grid (k : SoftSchedule P) (c : P.Cls) (slot : Slot) (ai : Option P.Asg) :
    (k.setCell c slot ai).grid = set2 k.grid c slot ai := by
  unfold setCell
  dsimp only
  split
  · rename_i h
    rw [← h, set2_get]
  · rfl

/-- `_refresh_ts`. -/
def refreshTs (k : SoftSchedule P) (t : P.Tch) (s : Session) : SoftSchedule P :=
  k.setMask t s (Mask.ofPeriods fun p => decide (k.tcnt t (slotAt s p) > 0))

/-- `enable_quality_tracking`. -/
def enableQualityTracking (k : SoftSchedule P) : SoftSchedule P :=
  (P.allTeachers.product allSessions).foldl (fun k e => k.refreshTs e.1 e.2)
    { k with
      ts := fun _ _ => ⟨0, -1, -1⟩
      tsMask := fun _ _ => 0
      tDaySessions := fun _ _ => 0
      qSingleton := 0
      qGap2 := 0
      qGap1 := 0
      qSessions := 0
      qDays := 0
      trackQuality := true }

def quality (k : SoftSchedule P) : List Int :=
  [k.qSingleton, k.qGap2, k.qSessions, k.qGap1, k.qDays]

/-- `location_session_debt`; two lessons at one slot are represented by the first place. -/
def locationSessionDebt (k : SoftSchedule P) (t : P.Tch) (s : Session) : Int :=
  match P.teacherRules t with
  | none => 0
  | some rule =>
    if P.teacherLocRules t = false ∨
      (rule.locOne s || rule.locGap s || rule.locMove s || !(rule.locBreaks s).isEmpty) = false
    then 0
    else
      let entries := allPeriods.filterMap fun p =>
        (k.tloc t (slotAt s p)).head?.map fun loc => (p, loc)
      if entries.length < 2 then 0
      else locationRuleDebt entries (rule.locOne s) (rule.locGap s) (rule.locMove s)
        (rule.locBreaks s)

/-- `location_debt_session_count`. -/
def locationDebtSessionCount (k : SoftSchedule P) : Int :=
  ((P.allTeachers.flatMap fun t =>
    if P.teacherLocRules t then allSessions.filter fun s => decide (k.locationSessionDebt t s > 0)
    else []).length : Nat)

inductive Edit (P : Problem) where
  | setCell (c : P.Cls) (slot : Slot) (ai : Option P.Asg)
  | enableQualityTracking

def step (k : SoftSchedule P) : Edit P → SoftSchedule P
  | .setCell c slot ai => k.setCell c slot ai
  | .enableQualityTracking => k.enableQualityTracking

end SoftSchedule

end TkbCherry.Engine
