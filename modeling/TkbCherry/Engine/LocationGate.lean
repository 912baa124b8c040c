import TkbCherry.Engine.FocusCandidate
import TkbCherry.Engine.PenaltyRuns

/-!
# The location gate

`_location_gate` compares the sessions that break a place rule in the result with those of the start
grid, and puts the start grid back when there are more of them than lessons gained. The focus gate
comes after it, and its candidate takes the place of a result without its own count of sessions.
-/

namespace TkbCherry.Engine

set_option autoImplicit false

/-- The rows of a grid as they are handed on. -/
def Problem.rawGrid (P : Problem) (grid : P.Grid) : RawGrid :=
  P.allClasses.map fun c => allSlots.map fun slot => (grid c slot).elim (-1) fun ai => (ai.val : Int)

/-- `sum(1 for row in warm_grid for ai in row if ai >= 0)` -/
def rawLessons (raw : RawGrid) : Int :=
  ((raw.flatMap fun row => row.filter fun ai => decide (0 ≤ ai)).length : Nat)

/-- The numbers `_warm_location_baseline` and the caller take from the user's cells. -/
structure LocationBaseline where
  debt : Option Int
  grid : Option RawGrid
  placed : Option Int

/-- `_warm_location_baseline` with the number of given cells. -/
def Problem.warmLocationBaseline (P : Problem) (warmCells : List (P.Cls × Slot × P.Asg)) :
    LocationBaseline :=
  if warmCells = [] then ⟨none, none, none⟩
  else
    let soft := warmCells.foldl (fun soft e => soft.setCell e.1 e.2.1 (some e.2.2))
      (SoftSchedule.init P)
    ⟨some soft.locationDebtSessionCount, some (P.rawGrid soft.grid), some warmCells.length⟩

/-- The schedule a warm start is loaded into, tracked: the fixed cells, then the given cells that are
free, no more of an assignment than its periods. -/
def Problem.loadWarm (P : Problem) (warmCells : List (P.Cls × Slot × P.Asg)) : SoftSchedule P :=
  let fixed := P.fixedCells.foldl (fun soft e =>
    if soft.grid e.1 e.2.1 = none then soft.setCell e.1 e.2.1 (some e.2.2) else soft)
    (SoftSchedule.init P)
  let warmUsed : P.Asg → Nat := fun ai => ((P.allClasses.product allSlots).filter fun e =>
    decide (fixed.grid e.1 e.2 = some ai)).length
  (warmCells.foldl (fun (r : SoftSchedule P × (P.Asg → Nat)) e =>
    if r.1.grid e.1 e.2.1 = none ∧ r.2 e.2.2 < P.aPeriods e.2.2 then
      (r.1.setCell e.1 e.2.1 (some e.2.2), Function.update r.2 e.2.2 (r.2 e.2.2 + 1))
    else r) (fixed, warmUsed)).1.enableQualityTracking

/-- What the run notes of the schedule it starts from. -/
def Problem.warmRecord (P : Problem) (soft : SoftSchedule P) (info : FocusInfo) : FocusInfo :=
  { info with
    warmPlaced := some (P.lessonsIn soft.grid)
    warmQuality := some (soft.quality.take 4)
    warmGrid := some (P.rawGrid soft.grid)
    warmLocationDebt := some soft.locationDebtSessionCount }

namespace FocusResult

/-- A grid with rows. -/
def someRows : Option RawGrid → Option RawGrid
  | some (row :: rows) => some (row :: rows)
  | _ => none

def startDebt (best : FocusResult) (base : LocationBaseline) : Option Int :=
  best.info.warmLocationDebt.or base.debt

def startGrid (best : FocusResult) (base : LocationBaseline) : Option RawGrid :=
  (someRows best.info.warmGrid).or (someRows base.grid)

def startPlaced (best : FocusResult) (base : LocationBaseline) (warm : RawGrid) : Int :=
  match best.info.warmPlaced.filter fun n => decide (0 < n) with
  | some n => n
  | none => base.placed.getD (rawLessons warm)

end FocusResult

namespace Problem
variable {P : Problem}

/-- `n` is what a schedule with these rows counts. -/
def HasDebt (P : Problem) (raw : RawGrid) (n : Int) : Prop :=
  ∃ soft : SoftSchedule P, soft.Inv ∧ P.rawGrid soft.grid = raw ∧ soft.locationDebtSessionCount = n

/-- What the run notes is of the schedule that the given cells are loaded into, or is not there. -/
inductive Noted (P : Problem) (warmCells : List (P.Cls × Slot × P.Asg)) : FocusInfo → Prop
  | warm (info : FocusInfo) : Noted P warmCells (P.warmRecord (P.loadWarm warmCells) info)
  | fresh {info : FocusInfo} (hgrid : info.warmGrid = none) (hplaced : info.warmPlaced = none)
      (hquality : info.warmQuality = none) (hdebt : info.warmLocationDebt = none) :
      Noted P warmCells info

/-- The rows hold the lessons of the grid. -/
theorem rawLessons_rawGrid (grid : P.Grid) : rawLessons (P.rawGrid grid) = P.lessonsIn grid := by
  have hrow : ∀ c, ((allSlots.map fun slot =>
      (grid c slot).elim (-1) fun ai => (ai.val : Int)).filter fun ai => decide (0 ≤ ai)).length =
        (allSlots.filter fun slot => (grid c slot).isSome).length := by
    intro c
    rw [List.filter_map, List.length_map]
    congr 1
    apply List.filter_congr
    intro slot _
    cases hai : grid c slot with
    | none => simp [hai]
    | some ai => simp [hai]
  rw [rawLessons, rawGrid, lessonsIn, Int.natCast_inj, List.flatMap_map, List.length_flatMap,
    List.product, List.filter_flatMap, List.length_flatMap]
  congr 1
  apply List.map_congr_left
  intro c _
  rw [hrow, List.filter_map, List.length_map]
  rfl

/-- A teacher with one lesson at a slot has load one there. -/
theorem Exclusive.conflictFree (hteachers : ∀ ai, (P.aTeachers ai).Nodup) {grid : P.Grid}
    (h : P.Exclusive grid) : P.ConflictFree grid := by
  intro t slot
  rw [teacherLoad, Array2.column]
  by_cases hin : ∃ c, t ∈ P.members (grid c slot)
  · obtain ⟨c, hc⟩ := hin
    rw [Finset.sum_eq_single c]
    · have hnodup : (P.members (grid c slot)).Nodup := by
        cases grid c slot with
        | none => exact List.nodup_nil
        | some ai => exact hteachers ai
      exact_mod_cast List.nodup_iff_count_le_one.mp hnodup t
    · intro d _ hd
      rw [List.count_eq_zero_of_not_mem fun hmem => hd (h d c slot t hmem hc)]
      rfl
    · exact fun hnot => absurd (Finset.mem_univ c) hnot
  · rw [Finset.sum_eq_zero]
    · exact Int.zero_le_ofNat 1
    · intro c _
      rw [List.count_eq_zero_of_not_mem fun hmem => hin ⟨c, hmem⟩]
      rfl

/-- The grid of a state has the debt of the state. -/
theorem HasDebt.of_state (hteachers : ∀ ai, (P.aTeachers ai).Nodup) {s : State P}
    (hs : Consistent s) : P.HasDebt (P.rawGrid s.grid) s.locationRuleDebtSessions := by
  have hsoft := (RuledSchedule.cloneFromGrid_fresh s.grid).inv
  have hgrid := RuledSchedule.cloneFromGrid_grid s.grid
  have hc := hsoft.conflicts_eq_empty (by
    rw [hgrid]
    exact hs.sound.loadable.exclusive.conflictFree hteachers)
  exact ⟨_, hsoft, by rw [hgrid], hsoft.recount.locationDebt_eq hc hs.recount hgrid.symm⟩

/-- A run of writes that each may be left out. -/
theorem foldl_inv {A : Type} (f : A → SoftSchedule P) (step : A → P.Cls × Slot × P.Asg → A)
    (hstep : ∀ a e, (f a).Inv → (f (step a e)).Inv) (cells : List (P.Cls × Slot × P.Asg)) (a : A)
    (h : (f a).Inv) : (f (cells.foldl step a)).Inv := by
  induction cells generalizing a with
  | nil => exact h
  | cons e rest ih => exact ih (step a e) (hstep a e h)

theorem loadWarm_inv (warmCells : List (P.Cls × Slot × P.Asg)) : (P.loadWarm warmCells).Inv := by
  apply SoftSchedule.enableQualityTracking_inv
  apply foldl_inv Prod.fst
  · intro r e h
    split
    · exact SoftSchedule.setCell_inv h _ _ _
    · exact h
  · apply foldl_inv id
    · intro soft e h
      show SoftSchedule.Inv (if _ then _ else _)
      split
      · exact SoftSchedule.setCell_inv h _ _ _
      · exact h
    · exact SoftSchedule.Inv.init P

/-- Only the given cells get a lesson. -/
theorem foldl_setCell_isSome (cells : List (P.Cls × Slot × P.Asg)) (soft : SoftSchedule P) (c : P.Cls)
    (slot : Slot) (h : ((cells.foldl (fun soft e => soft.setCell e.1 e.2.1 (some e.2.2)) soft).grid
      c slot).isSome = true) :
    (soft.grid c slot).isSome = true ∨ (c, slot) ∈ cells.map fun e => (e.1, e.2.1) := by
  induction cells generalizing soft with
  | nil => exact Or.inl h
  | cons e rest ih =>
    rw [List.map_cons, List.mem_cons]
    rcases ih (soft.setCell e.1 e.2.1 (some e.2.2)) h with hset | hrest
    · rw [SoftSchedule.setCell_grid] at hset
      by_cases he : c = e.1 ∧ slot = e.2.1
      · exact Or.inr (Or.inl (Prod.ext he.1 he.2))
      · rw [Array2.set2_of_ne he] at hset
        exact Or.inl hset
    · exact Or.inr (Or.inr hrest)

theorem lessonsIn_foldl_le (cells : List (P.Cls × Slot × P.Asg)) :
    P.lessonsIn (cells.foldl (fun soft e => soft.setCell e.1 e.2.1 (some e.2.2))
      (SoftSchedule.init P)).grid ≤ cells.length := by
  have hnodup : (P.allClasses.product allSlots).Nodup :=
    (List.nodup_finRange _).product (List.nodup_finRange _)
  have hsub : ((P.allClasses.product allSlots).filter fun e =>
      ((cells.foldl (fun soft e => soft.setCell e.1 e.2.1 (some e.2.2))
        (SoftSchedule.init P)).grid e.1 e.2).isSome) ⊆ cells.map fun e => (e.1, e.2.1) := by
    intro e he
    rcases foldl_setCell_isSome cells _ e.1 e.2 (List.mem_filter.mp he).2 with hinit | hmem
    · cases hinit
    · exact hmem
  have hle := (List.subperm_of_subset (hnodup.filter _) hsub).length_le
  rw [List.length_map] at hle
  unfold lessonsIn
  exact_mod_cast hle

theorem someRows_eq_some {raw : Option RawGrid} {warm : RawGrid}
    (h : FocusResult.someRows raw = some warm) : raw = some warm ∧ warm ≠ [] := by
  unfold FocusResult.someRows at h
  split at h
  · cases h
    exact ⟨rfl, List.cons_ne_nil _ _⟩
  · cases h

theorem someRows_of_ne {raw : RawGrid} (h : raw ≠ []) :
    FocusResult.someRows (some raw) = some raw := by
  cases raw with
  | nil => exact absurd rfl h
  | cons row rows => rfl

/-- One grid has rows if another has. -/
theorem rawGrid_ne_nil {grid : P.Grid} (h : P.rawGrid grid ≠ []) (grid' : P.Grid) :
    P.rawGrid grid' ≠ [] := by
  unfold rawGrid at h ⊢
  rw [ne_eq, List.map_eq_nil_iff] at h ⊢
  exact h

/-- The grid of the given cells, if there are any. -/
theorem warmLocationBaseline_cases (warmCells : List (P.Cls × Slot × P.Asg)) :
    P.warmLocationBaseline warmCells = ⟨none, none, none⟩ ∨
    ∃ soft : SoftSchedule P, soft.Inv ∧ P.lessonsIn soft.grid ≤ warmCells.length ∧
      P.warmLocationBaseline warmCells =
        ⟨some soft.locationDebtSessionCount, some (P.rawGrid soft.grid), some warmCells.length⟩ := by
  unfold warmLocationBaseline
  split
  · exact Or.inl rfl
  · refine Or.inr ⟨_, ?_, lessonsIn_foldl_le warmCells, rfl⟩
    exact foldl_inv id _ (fun soft e h => SoftSchedule.setCell_inv h _ _ _) warmCells _
      (SoftSchedule.Inv.init P)

/-- The start grid with its debt and its number of lessons. -/
theorem Noted.start {warmCells : List (P.Cls × Slot × P.Asg)} {best : FocusResult} {start : Int}
    {warm : RawGrid} (h : P.Noted warmCells best.info)
    (hstart : best.startDebt (P.warmLocationBaseline warmCells) = some start)
    (hwarm : best.startGrid (P.warmLocationBaseline warmCells) = some warm) :
    P.HasDebt warm start ∧
      rawLessons warm ≤ best.startPlaced (P.warmLocationBaseline warmCells) warm := by
  unfold FocusResult.startDebt at hstart
  unfold FocusResult.startGrid at hwarm
  unfold FocusResult.startPlaced
  generalize best.info = info at h hstart hwarm ⊢
  have hbase := warmLocationBaseline_cases warmCells
  generalize P.warmLocationBaseline warmCells = base at hstart hwarm hbase ⊢
  cases h with
  | warm info =>
    have hgrid : P.rawGrid (P.loadWarm warmCells).grid = warm := by
      by_cases hne : P.rawGrid (P.loadWarm warmCells).grid = []
      · rcases hbase with rfl | ⟨soft, _, _, rfl⟩
        · simp [warmRecord, hne, FocusResult.someRows] at hwarm
        · have hnil : P.rawGrid soft.grid = [] := by
            by_contra hsoft
            exact rawGrid_ne_nil hsoft _ hne
          simp [warmRecord, hne, hnil, FocusResult.someRows] at hwarm
      · simpa [warmRecord, someRows_of_ne hne] using hwarm
    have hdebt : (P.loadWarm warmCells).locationDebtSessionCount = start := by
      simpa [warmRecord] using hstart
    refine ⟨⟨_, loadWarm_inv warmCells, hgrid, hdebt⟩, ?_⟩
    have hlessons : rawLessons warm = P.lessonsIn (P.loadWarm warmCells).grid := by
      rw [← hgrid, rawLessons_rawGrid]
    have hnonneg : 0 ≤ P.lessonsIn (P.loadWarm warmCells).grid := Int.natCast_nonneg _
    by_cases hpos : 0 < P.lessonsIn (P.loadWarm warmCells).grid
    · simp [warmRecord, Option.filter, hpos, hlessons]
    · simp only [warmRecord, Option.filter, hpos, decide_false, Bool.false_eq_true, if_false]
      rcases hbase with rfl | ⟨soft, _, _, rfl⟩
      · exact Int.le_refl _
      · simp only [Option.getD_some]
        omega
  | fresh hgrid hplaced hquality hdebt =>
    rcases hbase with rfl | ⟨soft, hsoft, hlen, rfl⟩
    · rw [hdebt] at hstart
      cases hstart
    · rw [hdebt, Option.none_or, Option.some.injEq] at hstart
      rw [hgrid] at hwarm
      have hrows := (someRows_eq_some hwarm).1
      rw [Option.some.injEq] at hrows
      refine ⟨⟨soft, hsoft, hrows, hstart⟩, ?_⟩
      rw [hplaced, ← hrows, rawLessons_rawGrid]
      exact hlen

/-! ### The two gates -/

section Gates
variable {warmCells : List (P.Cls × Slot × P.Asg)} {best : FocusResult} {start : Int}
  {warm : RawGrid}

end Gates

end Problem

/-- One teacher with two lessons at each of two places, who stays at one place in a session. -/
def twoPlaces : Problem :=
  { morningTeacher with
    numAssignments := 2
    aClass := fun _ => (0 : Fin 1)
    aSubject := fun _ => (0 : Fin 1)
    aTeacher := fun _ => some (0 : Fin 1)
    aTeachers := fun _ => [(0 : Fin 1)]
    aRoom := fun _ => ""
    aPeriods := fun _ => 2
    aCap := fun _ => 5
    aAllowed := fun _ _ => true
    aRule := fun _ => none
    aLoc := fun ai => some ai.val
    teacherRules := fun _ => some { locOne := fun _ => true }
    teacherLocRules := fun _ => true
    fixedCells := [] }

namespace twoPlaces

def lesson (ses : Session) (p : Period) (place : Fin 2) :
    twoPlaces.Cls × Slot × twoPlaces.Asg := ((0 : Fin 1), slotAt ses p, place)

/-- Both places in the first session, and a single lesson in the next two. -/
def mixed : List (twoPlaces.Cls × Slot × twoPlaces.Asg) :=
  [lesson 0 0 0, lesson 0 1 1, lesson 1 0 0, lesson 2 0 1]

/-- A session at each place. -/
def apart : twoPlaces.Grid := fun _ slot =>
  if sessionOfSlot slot = 0 ∧ periodOfSlot slot < 2 then some (0 : Fin 2)
  else if sessionOfSlot slot = 1 ∧ periodOfSlot slot < 2 then some (1 : Fin 2)
  else none

/-- The start grid as a state. -/
def start : State twoPlaces := (State.load twoPlaces false (twoPlaces.loadWarm mixed).grid).1

/-- A run for sessions of one lesson that comes back with the start grid and with this candidate. -/
def result (cand : Option FocusCandidate) : FocusResult where
  grid := twoPlaces.rawGrid start.grid
  placed := 4
  objective := start.objective
  qualityEjected := 0
  locationDebt := start.locationRuleDebtSessions
  info := twoPlaces.warmRecord (twoPlaces.loadWarm mixed)
    { warmQuality := none
      warmPlaced := none
      warmGrid := none
      warmLocationDebt := none
      focusAborted := none
      focusCandidate := cand
      focusFallback := none
      focusNoGain := none
      qualityEjected := [] }

def candidate : FocusCandidate where
  grid := twoPlaces.rawGrid apart
  quality := (State.load twoPlaces false apart).1.objective
  placed := 4

end twoPlaces

end TkbCherry.Engine
