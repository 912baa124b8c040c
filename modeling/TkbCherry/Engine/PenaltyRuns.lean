import TkbCherry.Engine.HardValid
import TkbCherry.Engine.RulePenalty

/-!
# The kept penalty

`penalty` adds the overlaps and the penalties at their last refresh. A write marks the teachers with
place rules, and `penalty` refreshes these first; the other teachers wait for `refresh_rule_pen`.
-/

namespace TkbCherry.Engine

set_option autoImplicit false

open Array2

namespace Problem
variable (P : Problem)

/-- `_has_rule_teachers` -/
def hasRules (t : P.Tch) : Bool := (P.teacherRules t).isSome || !(P.teacherMust t).isEmpty

/-- The teachers of the lesson that leaves a cell and of the one that enters it. -/
def touched (old new : Option P.Asg) : Finset P.Tch := (P.members old ++ P.members new).toFinset

/-- No teacher has two lessons at a slot. -/
def ConflictFree (grid : P.Grid) : Prop := ∀ t slot, P.teacherLoad grid t slot ≤ 1

end Problem

/-- `_count_mixed_sessions` -/
def SoftSchedule.countMixedSessions {P : Problem} (k : SoftSchedule P) (t : P.Tch) : Int :=
  if P.teacherLocRules t then
    ((allSessions.filter fun s =>
      let places := allPeriods.filterMap fun p => (k.tloc t (slotAt s p)).head?
      places.any fun place => decide (some place ≠ places.head?)).length : Nat)
  else 0

/-- `SoftSchedule` with its penalties: `rule_pen`, `rule_pen_total`, `_loc_dirty`, `loc_mixed` and
`loc_mixed_total`. -/
structure RuledSchedule (P : Problem) extends SoftSchedule P where
  rulePen : P.Tch → Int
  rulePenTotal : Int
  locDirty : Finset P.Tch
  locMixed : P.Tch → Int
  locMixedTotal : Int

namespace RuledSchedule
variable {P : Problem}

def init (P : Problem) : RuledSchedule P where
  toSoftSchedule := SoftSchedule.init P
  rulePen := fun _ => 0
  rulePenTotal := 0
  locDirty := ∅
  locMixed := fun _ => 0
  locMixedTotal := 0

/-- `set_cell` -/
def setCell (k : RuledSchedule P) (c : P.Cls) (slot : Slot) (ai : Option P.Asg) : RuledSchedule P :=
  { k with
    toSoftSchedule := k.toSoftSchedule.setCell c slot ai
    locDirty := if k.grid c slot = ai then k.locDirty
      else k.locDirty ∪ (P.touched (k.grid c slot) ai).filter fun t => P.teacherLocRules t = true }

def refreshLocMixed (k : RuledSchedule P) (t : P.Tch) : RuledSchedule P :=
  let new := k.countMixedSessions t
  { k with
    locMixedTotal := k.locMixedTotal + (new - k.locMixed t)
    locMixed := Function.update k.locMixed t new }

/-- `rule_pen[t]` and `rule_pen_total` after a new look at a teacher. -/
def writePen (k : RuledSchedule P) (t : P.Tch) : RuledSchedule P :=
  let new := k.teacherRulePenalty t
  { k with
    rulePenTotal := k.rulePenTotal + (new - k.rulePen t)
    rulePen := Function.update k.rulePen t new }

def refreshRulePen (k : RuledSchedule P) (t : P.Tch) : RuledSchedule P :=
  let k := k.writePen t
  let k := if P.teacherLocRules t then k.refreshLocMixed t else k
  { k with locDirty := k.locDirty.erase t }

/-- `sync_location_pen`; the order of the set makes no difference. -/
def syncLocationPen (k : RuledSchedule P) : RuledSchedule P :=
  (P.allTeachers.filter fun t => decide (t ∈ k.locDirty)).foldl
    (fun k t => (k.writePen t).refreshLocMixed t) { k with locDirty := ∅ }

def penalty (k : RuledSchedule P) : RuledSchedule P × Int :=
  let k := if k.locDirty = ∅ then k else k.syncLocationPen
  (k, k.overlap + k.rulePenTotal)

def enableQualityTracking (k : RuledSchedule P) : RuledSchedule P :=
  { k with toSoftSchedule := k.toSoftSchedule.enableQualityTracking }

inductive Edit (P : Problem) where
  | setCell (c : P.Cls) (slot : Slot) (ai : Option P.Asg)
  | refreshRulePen (t : P.Tch)
  | syncLocationPen
  | enableQualityTracking

def step (k : RuledSchedule P) : Edit P → RuledSchedule P
  | .setCell c slot ai => k.setCell c slot ai
  | .refreshRulePen t => k.refreshRulePen t
  | .syncLocationPen => k.syncLocationPen
  | .enableQualityTracking => k.enableQualityTracking

def run (k : RuledSchedule P) (edits : List (Edit P)) : RuledSchedule P := edits.foldl step k

/-- A new schedule with the lessons of the grid, as `clone_from_grid` makes it. -/
def cloneFromGrid (grid : P.Grid) : RuledSchedule P :=
  (init P).run (((P.allClasses.product allSlots).filterMap fun e =>
      (grid e.1 e.2).map fun ai => Edit.setCell e.1 e.2 (some ai)) ++
    (P.allTeachers.filter P.hasRules).map Edit.refreshRulePen)

/-- The teachers whose penalty may be out of date after a step: those with rules but no place rules
that a write touched, until they are refreshed. -/
def unrefreshed (k : RuledSchedule P) (stale : Finset P.Tch) : Edit P → Finset P.Tch
  | .setCell c slot ai =>
    if k.grid c slot = ai then stale
    else (stale \ (P.touched (k.grid c slot) ai).filter fun t => P.teacherLocRules t = true) ∪
      (P.touched (k.grid c slot) ai).filter fun t =>
        P.teacherLocRules t = false ∧ P.hasRules t = true
  | .refreshRulePen t => stale.erase t
  | .syncLocationPen => stale
  | .enableQualityTracking => stale

/-- The teachers out of date after a run. At first these are the teachers with slots to teach. -/
def unrefreshedAfter (k : RuledSchedule P) (stale : Finset P.Tch) : List (Edit P) → Finset P.Tch
  | [] => stale
  | edit :: rest => unrefreshedAfter (k.step edit) (unrefreshed k stale edit) rest

def unrefreshedAtFirst (P : Problem) : Finset P.Tch :=
  Finset.univ.filter fun t => P.teacherMust t ≠ []

end RuledSchedule

/-! ### What a write leaves alone -/

namespace SoftSchedule
variable {P : Problem} {k k' : SoftSchedule P} {t : P.Tch}

/-- A penalty reads the slots and the places of its teacher. -/
theorem teacherRulePenalty_congr (htcnt : k.tcnt t = k'.tcnt t)
    (hloc : P.teacherLocRules t = true → k.tloc t = k'.tloc t) :
    k.teacherRulePenalty t = k'.teacherRulePenalty t := by
  have hcount : k.sessionCount t = k'.sessionCount t := by
    funext s
    simp only [sessionCount, htcnt]
  have hdebt : k.locationDebt t = k'.locationDebt t := by
    rw [locationDebt, locationDebt]
    split
    · rename_i hl
      refine Finset.sum_congr rfl fun s _ => ?_
      simp only [locationSessionDebt, hloc hl]
    · rfl
  have hmust : k.mustPenalty t = k'.mustPenalty t := by simp only [mustPenalty, htcnt]
  cases hr : P.teacherRules t with
  | none => simp only [teacherRulePenalty, hr, hmust]
  | some rule =>
    have hdays : ∀ d, k.dayPenalty rule t d = k'.dayPenalty rule t d := by
      intro d
      simp only [dayPenalty, hcount, htcnt]
    have htotals : k.totalsPenalty rule t = k'.totalsPenalty rule t := by
      simp only [totalsPenalty, usedDays, usedMornings, usedAfternoons, hcount]
    simp only [teacherRulePenalty, hr, hmust, hdays, htotals, hdebt]

theorem set2_row {V : Type} {B : Type} [DecidableEq B] (cells : P.Tch → B → V) {u : P.Tch} (b : B)
    (v : V) (h : t ≠ u) : set2 cells u b v t = cells t := by
  funext b'
  exact set2_of_ne fun he => h he.1

/-- The masks do not read the places. -/
theorem dropTeacher_tloc (slot : Slot) (old : P.Asg) (u : P.Tch) :
    (k.dropTeacher slot old u).tloc = (k.dropPlace u slot (P.aLoc old)).tloc := by
  have hplace : ∀ j : SoftSchedule P, j.tloc = k.tloc →
      (j.dropPlace u slot (P.aLoc old)).tloc = (k.dropPlace u slot (P.aLoc old)).tloc := by
    intro j hj
    unfold dropPlace
    split
    · simp only [hj]
    · exact hj
  unfold dropTeacher
  dsimp only
  apply hplace
  split
  · rw [(setMask_frame _ _ _ _).2.2.2.2.2]
    rfl
  · rfl

theorem addTeacher_tloc (slot : Slot) (ai : P.Asg) (u : P.Tch) :
    (k.addTeacher slot ai u).tloc = (k.addPlace u slot (P.aLoc ai)).tloc := by
  have hplace : ∀ j : SoftSchedule P, j.tloc = k.tloc →
      (j.addPlace u slot (P.aLoc ai)).tloc = (k.addPlace u slot (P.aLoc ai)).tloc := by
    intro j hj
    unfold addPlace
    split
    · simp only [hj]
    · exact hj
  unfold addTeacher
  dsimp only
  apply hplace
  split
  · rw [(setMask_frame _ _ _ _).2.2.2.2.2]
    rfl
  · rfl

theorem dropPlace_tloc (slot : Slot) (loc : Option Nat) {u : P.Tch} (h : t ≠ u) :
    (k.dropPlace u slot loc).tloc t = k.tloc t := by
  unfold dropPlace
  split
  · exact set2_row _ _ _ h
  · rfl

theorem addPlace_tloc (slot : Slot) (loc : Option Nat) {u : P.Tch} (h : t ≠ u) :
    (k.addPlace u slot loc).tloc t = k.tloc t := by
  unfold addPlace
  split
  · exact set2_row _ _ _ h
  · rfl

theorem dropLesson_tloc (slot : Slot) {o : Option P.Asg} (h : t ∉ P.members o) :
    (k.dropLesson slot o).tloc t = k.tloc t := by
  cases o with
  | none => rfl
  | some old =>
    rw [Problem.members_some] at h
    show ((P.aTeachers old).foldl (dropTeacher slot old) k).tloc t = k.tloc t
    generalize P.aTeachers old = teachers at h
    induction teachers generalizing k with
    | nil => rfl
    | cons u rest ih =>
      rw [List.mem_cons, not_or] at h
      rw [List.foldl_cons, ih h.2, dropTeacher_tloc, dropPlace_tloc slot _ h.1]

theorem addLesson_tloc (slot : Slot) {o : Option P.Asg} (h : t ∉ P.members o) :
    (k.addLesson slot o).tloc t = k.tloc t := by
  cases o with
  | none => rfl
  | some ai =>
    rw [Problem.members_some] at h
    show ((P.aTeachers ai).foldl (addTeacher slot ai) k).tloc t = k.tloc t
    generalize P.aTeachers ai = teachers at h
    induction teachers generalizing k with
    | nil => rfl
    | cons u rest ih =>
      rw [List.mem_cons, not_or] at h
      rw [List.foldl_cons, ih h.2, addTeacher_tloc, addPlace_tloc slot _ h.1]

theorem setCell_tloc (c : P.Cls) (slot : Slot) (ai : Option P.Asg)
    (h : t ∉ P.touched (k.grid c slot) ai) : (k.setCell c slot ai).tloc t = k.tloc t := by
  rw [Problem.touched, List.mem_toFinset, List.mem_append, not_or] at h
  unfold setCell
  dsimp only
  split
  · rfl
  · show ((k.dropLesson slot (k.grid c slot)).addLesson slot ai).tloc t = k.tloc t
    rw [addLesson_tloc slot h.2, dropLesson_tloc slot h.1]

/-- A write leaves the penalty of every other teacher as it is. -/
theorem setCell_penalty (c : P.Cls) (slot : Slot) (ai : Option P.Asg)
    (h : t ∉ P.touched (k.grid c slot) ai) :
    (k.setCell c slot ai).teacherRulePenalty t = k.teacherRulePenalty t := by
  refine teacherRulePenalty_congr ?_ fun _ => setCell_tloc c slot ai h
  rw [Problem.touched, List.mem_toFinset, List.mem_append, not_or] at h
  unfold setCell
  dsimp only
  split
  · rfl
  · funext s
    show ((k.dropLesson slot (k.grid c slot)).addLesson slot ai).tcnt t s = k.tcnt t s
    rw [addLesson_tcnt, dropLesson_tcnt, List.count_eq_zero_of_not_mem h.1,
      List.count_eq_zero_of_not_mem h.2]
    simp

theorem enableQualityTracking_frame : k.enableQualityTracking.grid = k.grid ∧
    k.enableQualityTracking.tcnt = k.tcnt ∧ k.enableQualityTracking.overlap = k.overlap ∧
    k.enableQualityTracking.tloc = k.tloc := by
  have hzero : ({ k with
      ts := fun _ _ => ⟨0, -1, -1⟩, tsMask := fun _ _ => 0, tDaySessions := fun _ _ => 0,
      qSingleton := 0, qGap2 := 0, qGap1 := 0, qSessions := 0, qDays := 0,
      trackQuality := true } : SoftSchedule P).Stats :=
    (Inv.init P).kept.stats.of_eq rfl rfl rfl rfl
  obtain ⟨_, hgrid, htcnt, hover, _, _, htloc, _⟩ :=
    refreshAll_spec (P.allTeachers.product allSessions) _ hzero
  exact ⟨hgrid, htcnt, hover, htloc⟩

/-- A grid without conflicts has none to note. -/
theorem Inv.conflicts_eq_empty (h : k.Inv) (hfree : P.ConflictFree k.grid) : k.conflicts = ∅ := by
  rw [Finset.eq_empty_iff_forall_notMem]
  rintro ⟨t, slot⟩ hmem
  rw [h.recount.conflicts] at hmem
  have hle := hfree t slot
  omega

/-- Without rules there is nothing to pay. -/
theorem teacherRulePenalty_of_no_rules (h : P.hasRules t = false) : k.teacherRulePenalty t = 0 := by
  rw [Problem.hasRules, Bool.or_eq_false_iff] at h
  have hr : P.teacherRules t = none := by simpa using h.1
  have hm : P.teacherMust t = [] := by simpa using h.2
  simp [teacherRulePenalty, hr, mustPenalty, hm]

end SoftSchedule

/-! ### Runs -/

namespace RuledSchedule
variable {P : Problem} {k : RuledSchedule P} {stale : Finset P.Tch}

/-- The total is the sum of the penalties, and those of the teachers that are neither marked nor out
of date are the penalties of the grid. -/
structure Fresh (k : RuledSchedule P) (stale : Finset P.Tch) : Prop where
  inv : k.toSoftSchedule.Inv
  total : k.rulePenTotal = ∑ t, k.rulePen t
  pen : ∀ t, t ∉ stale → t ∉ k.locDirty → k.rulePen t = k.teacherRulePenalty t
  dirty : ∀ t ∈ k.locDirty, P.teacherLocRules t = true
  ruled : ∀ t ∈ stale, P.hasRules t = true

theorem sum_update (pens : P.Tch → Int) (t : P.Tch) (new : Int) :
    ∑ u, Function.update pens t new u = ∑ u, pens u + (new - pens t) := by
  rw [Finset.sum_update_of_mem (Finset.mem_univ t), ← Finset.sum_sdiff (Finset.subset_univ {t}),
    Finset.sum_singleton]
  omega

@[simp] theorem writePen_soft (t : P.Tch) : (k.writePen t).toSoftSchedule = k.toSoftSchedule := rfl

@[simp] theorem refreshLocMixed_soft (t : P.Tch) :
    (k.refreshLocMixed t).toSoftSchedule = k.toSoftSchedule := rfl

theorem Fresh.writePen (h : Fresh k stale) (t : P.Tch) : Fresh (k.writePen t) (stale.erase t) where
  inv := h.inv
  total := by
    show k.rulePenTotal + (k.teacherRulePenalty t - k.rulePen t) = _
    rw [h.total]
    exact (sum_update k.rulePen t _).symm
  pen := by
    intro u hu hdirty
    show Function.update k.rulePen t (k.teacherRulePenalty t) u = k.teacherRulePenalty u
    by_cases hut : u = t
    · subst hut
      exact Function.update_self _ _ _
    · rw [Function.update_of_ne hut]
      exact h.pen u (fun hmem => hu (Finset.mem_erase.mpr ⟨hut, hmem⟩)) hdirty
  dirty := h.dirty
  ruled := fun u hu => h.ruled u (Finset.mem_of_mem_erase hu)

theorem Fresh.of_eq {k' : RuledSchedule P} (h : Fresh k stale)
    (hsoft : k'.toSoftSchedule = k.toSoftSchedule) (htotal : k'.rulePenTotal = k.rulePenTotal)
    (hpen : k'.rulePen = k.rulePen) (hdirty : k'.locDirty = k.locDirty) : Fresh k' stale := by
  constructor
  · rw [hsoft]
    exact h.inv
  · rw [htotal, hpen]
    exact h.total
  · rw [hsoft, hpen, hdirty]
    exact h.pen
  · rw [hdirty]
    exact h.dirty
  · exact h.ruled

/-- The penalty of a teacher that was just written is that of the grid. -/
theorem Fresh.erase_dirty {t : P.Tch} (h : Fresh k stale)
    (ht : k.rulePen t = k.teacherRulePenalty t) :
    Fresh { k with locDirty := k.locDirty.erase t } stale where
  inv := h.inv
  total := h.total
  pen := by
    intro u hu hdirty
    by_cases hut : u = t
    · subst hut
      exact ht
    · exact h.pen u hu fun hmem => hdirty (Finset.mem_erase.mpr ⟨hut, hmem⟩)
  dirty := fun u hu => h.dirty u (Finset.mem_of_mem_erase hu)
  ruled := h.ruled

theorem Fresh.refreshRulePen (h : Fresh k stale) (t : P.Tch) :
    Fresh (k.refreshRulePen t) (stale.erase t) := by
  have hwritten := h.writePen t
  have hself : (k.writePen t).rulePen t = (k.writePen t).teacherRulePenalty t :=
    Function.update_self _ _ _
  unfold RuledSchedule.refreshRulePen
  dsimp only
  split
  · have hmixed : Fresh ((k.writePen t).refreshLocMixed t) (stale.erase t) :=
      hwritten.of_eq rfl rfl rfl rfl
    exact hmixed.erase_dirty hself
  · exact hwritten.erase_dirty hself

/-- The schedule after `f` holds the same lessons, and the penalty of the teacher is rewritten. -/
def Rewrites (f : RuledSchedule P → P.Tch → RuledSchedule P) : Prop :=
  ∀ k t, (f k t).toSoftSchedule = k.toSoftSchedule ∧ (f k t).rulePen = (k.writePen t).rulePen ∧
    (f k t).rulePenTotal = (k.writePen t).rulePenTotal

/-- Teachers are refreshed one after the other. -/
theorem foldl_rewrites {f : RuledSchedule P → P.Tch → RuledSchedule P} (hf : Rewrites f)
    (teachers : List P.Tch) (k : RuledSchedule P) :
    (teachers.foldl f k).toSoftSchedule = k.toSoftSchedule ∧
      (k.rulePenTotal = ∑ t, k.rulePen t →
        (teachers.foldl f k).rulePenTotal = ∑ t, (teachers.foldl f k).rulePen t) ∧
      ∀ t, (teachers.foldl f k).rulePen t =
        if t ∈ teachers then k.teacherRulePenalty t else k.rulePen t := by
  induction teachers generalizing k with
  | nil => exact ⟨rfl, id, fun t => (if_neg List.not_mem_nil).symm⟩
  | cons u rest ih =>
    obtain ⟨hsoft, htotal, hpen⟩ := ih (f k u)
    obtain ⟨hf1, hf2, hf3⟩ := hf k u
    rw [hf1] at hsoft hpen
    refine ⟨hsoft, fun h => htotal ?_, fun t => (hpen t).trans ?_⟩
    · rw [hf2, hf3]
      show k.rulePenTotal + (k.teacherRulePenalty u - k.rulePen u) = _
      rw [h]
      exact (sum_update k.rulePen u _).symm
    · rw [hf2]
      show (if t ∈ rest then k.teacherRulePenalty t
        else Function.update k.rulePen u (k.teacherRulePenalty u) t) = _
      by_cases hin : t ∈ rest
      · rw [if_pos hin, if_pos (List.mem_cons_of_mem _ hin)]
      · rw [if_neg hin]
        by_cases hu : t = u
        · subst hu
          rw [Function.update_self, if_pos List.mem_cons_self]
        · rw [Function.update_of_ne hu, if_neg fun hmem => (List.mem_cons.mp hmem).elim hu hin]

theorem refreshRulePen_rewrites : Rewrites (P := P) RuledSchedule.refreshRulePen := by
  intro k t
  unfold RuledSchedule.refreshRulePen
  dsimp only
  split <;> exact ⟨rfl, rfl, rfl⟩

theorem syncLocationPen_locDirty (k : RuledSchedule P) : k.syncLocationPen.locDirty = ∅ := by
  have hfold : ∀ (teachers : List P.Tch) (k : RuledSchedule P),
      (teachers.foldl (fun k t => (k.writePen t).refreshLocMixed t) k).locDirty = k.locDirty := by
    intro teachers
    induction teachers with
    | nil => exact fun k => rfl
    | cons t rest ih => exact fun k => ih ((k.writePen t).refreshLocMixed t)
  exact hfold _ { k with locDirty := ∅ }

theorem Fresh.syncLocationPen (h : Fresh k stale) :
    Fresh k.syncLocationPen stale ∧ k.syncLocationPen.toSoftSchedule = k.toSoftSchedule := by
  have hdirty := syncLocationPen_locDirty k
  obtain ⟨hsoft, htotal, hpen⟩ := foldl_rewrites (P := P)
    (f := fun k t => (k.writePen t).refreshLocMixed t) (fun _ _ => ⟨rfl, rfl, rfl⟩)
    (P.allTeachers.filter fun t => decide (t ∈ k.locDirty)) { k with locDirty := ∅ }
  change k.syncLocationPen.toSoftSchedule = k.toSoftSchedule at hsoft
  change k.rulePenTotal = ∑ t, k.rulePen t →
    k.syncLocationPen.rulePenTotal = ∑ t, k.syncLocationPen.rulePen t at htotal
  change ∀ t, k.syncLocationPen.rulePen t =
    if t ∈ P.allTeachers.filter (fun t => decide (t ∈ k.locDirty)) then k.teacherRulePenalty t
    else k.rulePen t at hpen
  refine ⟨⟨?_, htotal h.total, ?_, ?_, h.ruled⟩, hsoft⟩
  · rw [hsoft]
    exact h.inv
  · intro t ht _
    rw [hpen, hsoft]
    split
    · rfl
    · rename_i hnot
      refine h.pen t ht fun hmem => hnot ?_
      exact List.mem_filter.mpr ⟨List.mem_finRange t, decide_eq_true hmem⟩
  · rw [hdirty]
    exact fun t ht => absurd ht (Finset.notMem_empty t)

theorem Fresh.setCell (h : Fresh k stale) (c : P.Cls) (slot : Slot) (ai : Option P.Asg) :
    Fresh (k.setCell c slot ai) (unrefreshed k stale (.setCell c slot ai)) := by
  by_cases heq : k.grid c slot = ai
  · have hsame : k.setCell c slot ai = k := by
      have hsoft : k.toSoftSchedule.setCell c slot ai = k.toSoftSchedule := if_pos heq
      rw [RuledSchedule.setCell, hsoft, if_pos heq]
    rw [hsame, unrefreshed, if_pos heq]
    exact h
  · have hdirty : (k.setCell c slot ai).locDirty = k.locDirty ∪
        (P.touched (k.grid c slot) ai).filter fun t => P.teacherLocRules t = true := if_neg heq
    rw [unrefreshed, if_neg heq]
    refine ⟨SoftSchedule.setCell_inv h.inv c slot ai, h.total, ?_, ?_, ?_⟩
    · intro t hstale hmark
      rw [hdirty, Finset.mem_union, not_or, Finset.mem_filter] at hmark
      rw [Finset.mem_union, not_or, Finset.mem_sdiff, Finset.mem_filter, Finset.mem_filter] at hstale
      show k.rulePen t = (k.toSoftSchedule.setCell c slot ai).teacherRulePenalty t
      by_cases htouched : t ∈ P.touched (k.grid c slot) ai
      · have hloc : P.teacherLocRules t = false :=
          Bool.eq_false_iff.mpr fun hl => hmark.2 ⟨htouched, hl⟩
        have hrules : P.hasRules t = false :=
          Bool.eq_false_iff.mpr fun hr => hstale.2 ⟨htouched, hloc, hr⟩
        have hold : t ∉ stale := by
          intro hmem
          rw [h.ruled t hmem] at hrules
          cases hrules
        rw [h.pen t hold hmark.1, SoftSchedule.teacherRulePenalty_of_no_rules hrules,
          SoftSchedule.teacherRulePenalty_of_no_rules hrules]
      · rw [SoftSchedule.setCell_penalty c slot ai htouched]
        exact h.pen t (fun hmem => hstale.1 ⟨hmem, fun hf => htouched hf.1⟩) hmark.1
    · intro t ht
      rw [hdirty, Finset.mem_union, Finset.mem_filter] at ht
      cases ht with
      | inl ht => exact h.dirty t ht
      | inr ht => exact ht.2
    · intro t ht
      rw [Finset.mem_union, Finset.mem_sdiff, Finset.mem_filter, Finset.mem_filter] at ht
      cases ht with
      | inl ht => exact h.ruled t ht.1
      | inr ht => exact ht.2.2

theorem Fresh.enableQualityTracking (h : Fresh k stale) : Fresh k.enableQualityTracking stale := by
  obtain ⟨_, htcnt, _, htloc⟩ := @SoftSchedule.enableQualityTracking_frame P k.toSoftSchedule
  refine ⟨SoftSchedule.enableQualityTracking_inv h.inv, h.total, ?_, h.dirty, h.ruled⟩
  intro t ht hdirty
  show k.rulePen t = k.toSoftSchedule.enableQualityTracking.teacherRulePenalty t
  rw [h.pen t ht hdirty]
  exact SoftSchedule.teacherRulePenalty_congr (by rw [htcnt]) fun _ => by rw [htloc]

/-- One step. -/
theorem Fresh.step (h : Fresh k stale) (edit : Edit P) :
    Fresh (k.step edit) (unrefreshed k stale edit) := by
  cases edit with
  | setCell c slot ai => exact h.setCell c slot ai
  | refreshRulePen t => exact h.refreshRulePen t
  | syncLocationPen => exact h.syncLocationPen.1
  | enableQualityTracking => exact h.enableQualityTracking

theorem Fresh.run (h : Fresh k stale) (edits : List (Edit P)) :
    Fresh (k.run edits) (unrefreshedAfter k stale edits) := by
  induction edits generalizing k stale with
  | nil => exact h
  | cons edit rest ih => exact ih (h.step edit)

/-- Without lessons a teacher owes the slots to teach and nothing else. -/
theorem init_penalty {t : P.Tch} (h : P.teacherMust t = []) :
    (SoftSchedule.init P).teacherRulePenalty t = 0 := by
  have hcount : ∀ s, (SoftSchedule.init P).sessionCount t s = 0 := by
    intro s
    simp [SoftSchedule.sessionCount, SoftSchedule.init]
  rw [SoftSchedule.teacherRulePenalty_eq_zero_iff.2, h]
  refine ⟨fun _ hm => absurd hm List.not_mem_nil, fun rule _ => ⟨fun d => ⟨?_, ?_⟩, ?_, ?_⟩⟩
  · simp [countDayReason, hcount, firstReason]
    omega
  · rintro ⟨_, hlesson, _⟩
    exact absurd hlesson (lt_irrefl 0)
  · rw [totalsReason]
    split
    · simp [hcount, firstReason]
      omega
    · rfl
  · intro _ s
    have hnone : (allPeriods.filterMap fun p =>
        ((SoftSchedule.init P).tloc t (slotAt s p)).head?.map fun loc => (p, loc)) = [] := by
      simp [SoftSchedule.init]
    unfold SoftSchedule.locationSessionDebt
    simp only [hnone]
    split
    · rfl
    · simp

theorem Fresh.init (P : Problem) : Fresh (RuledSchedule.init P) (unrefreshedAtFirst P) where
  inv := SoftSchedule.Inv.init P
  total := Finset.sum_const_zero.symm
  pen := by
    intro t ht _
    have hmust : P.teacherMust t = [] := by simpa [unrefreshedAtFirst] using ht
    exact (init_penalty hmust).symm
  dirty := fun t ht => absurd ht (Finset.notMem_empty t)
  ruled := by
    intro t ht
    have hmust : P.teacherMust t ≠ [] := (Finset.mem_filter.mp ht).2
    simp [Problem.hasRules, hmust]

/-- Once everyone is up to date, `penalty` is what the grid gives. -/
theorem Fresh.penalty_eq (h : Fresh k ∅) :
    k.penalty.2 = k.overlap + ∑ t, k.teacherRulePenalty t := by
  have hclean : ∀ k' : RuledSchedule P, Fresh k' ∅ → k'.locDirty = ∅ →
      k'.rulePenTotal = ∑ t, k'.teacherRulePenalty t := by
    intro k' hk hdirty
    rw [hk.total]
    refine Finset.sum_congr rfl fun t _ => hk.pen t (Finset.notMem_empty t) ?_
    rw [hdirty]
    exact Finset.notMem_empty t
  unfold penalty
  dsimp only
  split
  · rename_i hdirty
    rw [hclean k h hdirty]
  · obtain ⟨hsync, hsoft⟩ := h.syncLocationPen
    rw [hclean _ hsync (syncLocationPen_locDirty k), hsoft]

/-! ### The schedule built again -/

theorem run_append (k : RuledSchedule P) (edits more : List (Edit P)) :
    k.run (edits ++ more) = (k.run edits).run more := List.foldl_append

theorem unrefreshedAfter_append (k : RuledSchedule P) (stale : Finset P.Tch)
    (edits more : List (Edit P)) : unrefreshedAfter k stale (edits ++ more) =
      unrefreshedAfter (k.run edits) (unrefreshedAfter k stale edits) more := by
  induction edits generalizing k stale with
  | nil => rfl
  | cons edit rest ih => exact ih (k.step edit) (unrefreshed k stale edit)

theorem run_refresh (teachers : List P.Tch) (k : RuledSchedule P) :
    (k.run (teachers.map Edit.refreshRulePen)).toSoftSchedule = k.toSoftSchedule := by
  rw [run, List.foldl_map]
  exact (foldl_rewrites refreshRulePen_rewrites teachers k).1

theorem unrefreshedAfter_refresh (teachers : List P.Tch) (k : RuledSchedule P)
    (stale : Finset P.Tch) (t : P.Tch) :
    t ∈ unrefreshedAfter k stale (teachers.map Edit.refreshRulePen) ↔ t ∈ stale ∧ t ∉ teachers := by
  induction teachers generalizing k stale with
  | nil => simp [unrefreshedAfter]
  | cons u rest ih =>
    refine (ih (k.refreshRulePen u) (stale.erase u)).trans ?_
    rw [Finset.mem_erase, List.mem_cons, not_or]
    tauto

/-- Writing the lessons of a grid leaves the other cells alone. -/
theorem run_writes_grid (grid : P.Grid) (cells : List (P.Cls × Slot)) (k : RuledSchedule P)
    (c : P.Cls) (slot : Slot) :
    (k.run (cells.filterMap fun e =>
      (grid e.1 e.2).map fun ai => Edit.setCell e.1 e.2 (some ai))).grid c slot =
        if (c, slot) ∈ cells ∧ grid c slot ≠ none then grid c slot else k.grid c slot := by
  induction cells generalizing k with
  | nil => simp [run]
  | cons e rest ih =>
    obtain ⟨c', slot'⟩ := e
    cases hcell : grid c' slot' with
    | none =>
      rw [List.filterMap_cons_none (by rw [hcell]; rfl), ih]
      refine if_congr ?_ rfl rfl
      rw [List.mem_cons, Prod.mk.injEq]
      constructor
      · rintro ⟨hin, hne⟩
        exact ⟨Or.inr hin, hne⟩
      · rintro ⟨⟨rfl, rfl⟩ | hin, hne⟩
        · exact absurd hcell hne
        · exact ⟨hin, hne⟩
    | some ai =>
      rw [List.filterMap_cons_some (by rw [hcell]; rfl)]
      refine (ih (k.setCell c' slot' (some ai))).trans ?_
      have hgrid : (k.setCell c' slot' (some ai)).grid = set2 k.grid c' slot' (some ai) :=
        SoftSchedule.setCell_grid k.toSoftSchedule c' slot' (some ai)
      rw [hgrid, set2_apply]
      by_cases hat : c = c' ∧ slot = slot'
      · obtain ⟨rfl, rfl⟩ := hat
        simp [hcell]
      · simp only [List.mem_cons, Prod.mk.injEq, hat, false_or, if_false]

theorem cloneFromGrid_grid (grid : P.Grid) : (cloneFromGrid grid).grid = grid := by
  funext c slot
  rw [cloneFromGrid, run_append, run_refresh, run_writes_grid]
  split
  · rfl
  · rename_i hnot
    by_contra hne
    refine hnot ⟨?_, fun hnone => hne (by rw [hnone]; rfl)⟩
    exact List.pair_mem_product.mpr ⟨List.mem_finRange c, List.mem_finRange slot⟩

/-- Everyone is up to date in a schedule built again. -/
theorem cloneFromGrid_fresh (grid : P.Grid) : Fresh (cloneFromGrid grid) ∅ := by
  have h := (Fresh.init P).run (((P.allClasses.product allSlots).filterMap fun e =>
      (grid e.1 e.2).map fun ai => Edit.setCell e.1 e.2 (some ai)) ++
    (P.allTeachers.filter P.hasRules).map Edit.refreshRulePen)
  have hempty : unrefreshedAfter (RuledSchedule.init P) (unrefreshedAtFirst P)
      (((P.allClasses.product allSlots).filterMap fun e =>
          (grid e.1 e.2).map fun ai => Edit.setCell e.1 e.2 (some ai)) ++
        (P.allTeachers.filter P.hasRules).map Edit.refreshRulePen) = ∅ := by
    rw [unrefreshedAfter_append, Finset.eq_empty_iff_forall_notMem]
    intro t ht
    have hruled := ((Fresh.init P).run ((P.allClasses.product allSlots).filterMap fun e =>
      (grid e.1 e.2).map fun ai => Edit.setCell e.1 e.2 (some ai))).ruled t
    rw [unrefreshedAfter_refresh] at ht
    exact ht.2 (List.mem_filter.mpr ⟨List.mem_finRange t, hruled ht.1⟩)
  rw [hempty] at h
  exact h

/-- On a grid without conflicts the penalty of every teacher is the grid's. -/
theorem penalty_eq_of_grid {k' : SoftSchedule P} {j : SoftSchedule P} (hk : k'.Inv) (hj : j.Inv)
    (hgrid : k'.grid = j.grid) (hfree : P.ConflictFree j.grid) :
    k'.overlap = j.overlap ∧ ∀ t, k'.teacherRulePenalty t = j.teacherRulePenalty t := by
  refine ⟨?_, fun t => SoftSchedule.teacherRulePenalty_congr ?_ fun hl => ?_⟩
  · rw [hk.recount.overlap, hj.recount.overlap, hgrid]
  · funext slot
    rw [hk.tcnt, hj.tcnt, hgrid]
  · funext slot
    have hfree' : P.ConflictFree k'.grid := by
      rw [hgrid]
      exact hfree
    rw [hk.recount.tloc_eq (hk.conflicts_eq_empty hfree') hl,
      hj.recount.tloc_eq (hj.conflicts_eq_empty hfree) hl, hgrid]

/-- On every grid without conflicts that a run of writes and refreshes reaches, without caps on the
periods of a class: a teacher's penalty is zero exactly when `_check_teacher` accepts the teacher in
a `State` that holds the grid and defers nothing; and `penalty` is that of the schedule built again,
once the teachers without place rules have been refreshed after their last write. -/
theorem rules_agree (P : Problem) (edits : List (Edit P))
    (hfree : P.ConflictFree ((init P).run edits).grid) :
    ((∀ t rule, P.teacherRules t = some rule → rule.classPeriodCaps = []) →
      ∀ (deferMin : Bool) (run : List (Engine.Edit P)),
        (run.foldl Desk.step (Desk.init P deferMin)).state.grid = ((init P).run edits).grid →
        (run.foldl Desk.step (Desk.init P deferMin)).state.deferMin = false →
        ∀ t, ((init P).run edits).teacherRulePenalty t = 0 ↔
          (run.foldl Desk.step (Desk.init P deferMin)).state.checkTeacherAt t allDays = none) ∧
    (unrefreshedAfter (init P) (unrefreshedAtFirst P) edits = ∅ →
      ((init P).run edits).penalty.2 = (cloneFromGrid ((init P).run edits).grid).penalty.2) := by
  have h := (Fresh.init P).run edits
  generalize unrefreshedAfter (init P) (unrefreshedAtFirst P) edits = stale at h ⊢
  generalize (init P).run edits = k at h hfree ⊢
  constructor
  · intro hcaps deferMin run hgrid hdefer t
    have hinv := Desk.inv_run (Transition.Run.ofFn_foldl Desk.step _ run)
      (Desk.inv_init P deferMin)
    exact h.inv.recount.teacherRulePenalty_eq_zero_iff (h.inv.conflicts_eq_empty hfree) (hcaps t)
      hinv.consistent.recount hgrid hdefer
  · rintro rfl
    have hclone := cloneFromGrid_fresh k.grid
    obtain ⟨hover, hpen⟩ := penalty_eq_of_grid h.inv hclone.inv (cloneFromGrid_grid k.grid).symm
      (by rw [cloneFromGrid_grid]; exact hfree)
    rw [h.penalty_eq, hclone.penalty_eq, hover, Finset.sum_congr rfl fun t _ => hpen t]

/-- One class with one lesson, whose teacher has to teach at the first period. -/
def dutyTeacher : Problem :=
  { morningTeacher with
    teacherRules := fun _ => none
    teacherMust := fun _ => [slotAt 0 0] }

/-- The lesson at a period of the first morning. -/
def dutyTeacher.lessonAt (p : Period) : Edit dutyTeacher :=
  .setCell (0 : Fin 1) (slotAt 0 p) (some (0 : Fin 1))

/-- The lesson stands at the first period, and its teacher is refreshed. -/
theorem dutyTeacher_agrees :
    (((init dutyTeacher).run [dutyTeacher.lessonAt 0, .refreshRulePen (0 : Fin 1)]).teacherRulePenalty
        (0 : Fin 1) = 0 ↔
      ([Engine.Edit.apply [((0 : Fin 1), slotAt 0 0, some (0 : Fin 1))] true].foldl Desk.step
        (Desk.init dutyTeacher false)).state.checkTeacherAt (0 : Fin 1) allDays = none) ∧
    ((init dutyTeacher).run [dutyTeacher.lessonAt 0, .refreshRulePen (0 : Fin 1)]).penalty.2 =
      (cloneFromGrid ((init dutyTeacher).run
        [dutyTeacher.lessonAt 0, .refreshRulePen (0 : Fin 1)]).grid).penalty.2 := by
  have h := rules_agree dutyTeacher [dutyTeacher.lessonAt 0, .refreshRulePen (0 : Fin 1)]
    (by unfold Problem.ConflictFree; decide +kernel)
  refine ⟨h.1 ?_ false [.apply [((0 : Fin 1), slotAt 0 0, some (0 : Fin 1))] true] ?_ ?_ (0 : Fin 1),
    h.2 ?_⟩
  · intro t rule hr
    cases hr
  · funext c slot
    revert c slot
    decide +kernel
  · decide +kernel
  · decide +kernel

/-- The lesson stands at another period. A teacher who was never refreshed costs nothing, and a
`State` that defers the slots to teach accepts the teacher. -/
theorem dutyTeacher_stale :
    dutyTeacher.ConflictFree ((init dutyTeacher).run [dutyTeacher.lessonAt 1]).grid ∧
    ((init dutyTeacher).run [dutyTeacher.lessonAt 1]).penalty.2 = 0 ∧
    (cloneFromGrid ((init dutyTeacher).run [dutyTeacher.lessonAt 1]).grid).penalty.2 = 1 ∧
    ((init dutyTeacher).run [dutyTeacher.lessonAt 1]).teacherRulePenalty (0 : Fin 1) = 1 ∧
    (∀ c slot, ([Engine.Edit.apply [((0 : Fin 1), slotAt 0 1, some (0 : Fin 1))] true].foldl Desk.step
        (Desk.init dutyTeacher true)).state.grid c slot =
      ((init dutyTeacher).run [dutyTeacher.lessonAt 1]).grid c slot) ∧
    ([Engine.Edit.apply [((0 : Fin 1), slotAt 0 1, some (0 : Fin 1))] true].foldl Desk.step
      (Desk.init dutyTeacher true)).state.checkTeacherAt (0 : Fin 1) allDays = none := by
  refine ⟨?_, ?_, ?_, ?_, ?_, ?_⟩
  · unfold Problem.ConflictFree
    decide +kernel
  · decide +kernel
  · decide +kernel
  · decide +kernel
  · decide +kernel
  · decide +kernel

end RuledSchedule

end TkbCherry.Engine
