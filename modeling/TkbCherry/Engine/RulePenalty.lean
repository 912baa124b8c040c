import TkbCherry.Engine.Hard
import TkbCherry.Engine.Scores

/-!
# Teacher rules of the two schedules

`teacher_rule_penalty` measures on the counters what `_check_teacher` refuses on the slot table. The
caps on the periods of a class are left to `State`.
-/

namespace TkbCherry.Engine

set_option autoImplicit false

open Array2

/-- The excess over a cap that is on. -/
def excess (cap n : Int) : Int := if cap > 0 ∧ n > cap then n - cap else 0

theorem excess_nonneg (cap n : Int) : 0 ≤ excess cap n := by
  unfold excess
  split <;> omega

theorem excess_eq_zero_iff (cap n : Int) :
    excess cap n = 0 ↔ (decide (cap > 0) && decide (n > cap)) = false := by
  rw [Bool.and_eq_false_iff, decide_eq_false_iff_not, decide_eq_false_iff_not]
  unfold excess
  split <;> omega

/-- Periods on the wrong side of the day. -/
def modePenalty (mode : SessionMode) (am pm : Int) : Int :=
  match mode with
  | .free => 0
  | .morning => if pm > 0 then pm else 0
  | .afternoon => if am > 0 then am else 0
  | .either => if am > 0 ∧ pm > 0 then min am pm else 0

namespace SoftSchedule
variable {P : Problem} (k : SoftSchedule P)

/-- `session_counts[s]` -/
def sessionCount (t : P.Tch) (s : Session) : Int :=
  ((allPeriods.filter fun p => decide (k.tcnt t (slotAt s p) > 0)).length : Nat)

def mustPenalty (t : P.Tch) : Int :=
  (((P.teacherMust t).filter fun slot => decide (k.tcnt t slot ≤ 0)).length : Nat)

/-- The terms of one day. -/
def dayPenalty (rule : TeacherRule) (t : P.Tch) (d : Day) : Int :=
  let am := k.sessionCount t (morning d)
  let pm := k.sessionCount t (afternoon d)
  modePenalty (rule.sessionMode d) am pm + excess (rule.dayPeriodCap d) (am + pm) +
    (excess (rule.sessionPeriodCap d).1 am + excess (rule.sessionPeriodCap d).2 pm) +
    if rule.noM5A1 d = true ∧ k.tcnt t (slotAt (morning d) 4) > 0 ∧
      k.tcnt t (slotAt (afternoon d) 0) > 0 then 1 else 0

def usedMornings (t : P.Tch) : Int :=
  ((allDays.filter fun d => decide (k.sessionCount t (morning d) > 0)).length : Nat)

def usedAfternoons (t : P.Tch) : Int :=
  ((allDays.filter fun d => decide (k.sessionCount t (afternoon d) > 0)).length : Nat)

def usedDays (t : P.Tch) : Int :=
  ((allDays.filter fun d =>
    decide (k.sessionCount t (morning d) > 0 ∨ k.sessionCount t (afternoon d) > 0)).length : Nat)

/-- The weekly terms. -/
def totalsPenalty (rule : TeacherRule) (t : P.Tch) : Int :=
  excess rule.maxDays (k.usedDays t) + excess rule.maxSessions (k.usedMornings t + k.usedAfternoons t) +
    (excess rule.maxMorning (k.usedMornings t) + excess rule.maxAfternoon (k.usedAfternoons t))

/-- `location_debt` -/
def locationDebt (t : P.Tch) : Int :=
  if P.teacherLocRules t then ∑ s, k.locationSessionDebt t s else 0

/-- `teacher_rule_penalty` -/
def teacherRulePenalty (t : P.Tch) : Int :=
  match P.teacherRules t with
  | none => k.mustPenalty t
  | some rule =>
    k.mustPenalty t + ∑ d, k.dayPenalty rule t d + k.totalsPenalty rule t + k.locationDebt t

end SoftSchedule

/-! ### Place debts -/

theorem locationSteps_nonneg (adjacent : Bool) (breaks : List Period) (first : Period × Nat)
    (rest : List (Period × Nat)) :
    0 ≤ (locationSteps adjacent breaks first rest).1 ∧
      0 ≤ (locationSteps adjacent breaks first rest).2 := by
  induction rest generalizing first with
  | nil => exact ⟨le_refl _, le_refl _⟩
  | cons next rest ih =>
    have hnext := ih next
    rw [locationSteps]
    generalize locationSteps adjacent breaks next rest = steps at hnext ⊢
    obtain ⟨changes, debt⟩ := steps
    dsimp only at hnext ⊢
    split_ifs
    · exact ⟨by omega, by omega⟩
    · exact ⟨by omega, hnext.2⟩
    · exact hnext

theorem locationRuleDebt_nonneg (entries : List (Period × Nat)) (one gap move : Bool)
    (breaks : List Period) : 0 ≤ locationRuleDebt entries one gap move breaks := by
  rcases entries with _ | ⟨first, _ | ⟨next, rest⟩⟩
  · exact le_refl _
  · exact le_refl _
  · have hdistinct : 1 ≤ ((((first :: next :: rest).map Prod.snd).eraseDups).length : Int) := by
      rw [List.map_cons, List.eraseDups_cons]
      simp only [List.length_cons]
      omega
    have hsteps := locationSteps_nonneg (gap || !breaks.isEmpty) breaks first (next :: rest)
    simp only [locationRuleDebt]
    generalize ((((first :: next :: rest).map Prod.snd).eraseDups).length : Int) = distinct at *
    generalize locationSteps (gap || !breaks.isEmpty) breaks first (next :: rest) = steps at *
    obtain ⟨changes, debt⟩ := steps
    dsimp only at hsteps
    by_cases hon : (gap || !breaks.isEmpty || move) = true
    · rw [if_pos hon]
      dsimp only
      split_ifs with hone hmoves hmoves
      · rw [Bool.and_eq_true, decide_eq_true_eq] at hmoves
        omega
      · omega
      · rw [Bool.and_eq_true, decide_eq_true_eq] at hmoves
        omega
      · omega
    · rw [if_neg hon]
      dsimp only
      split_ifs with hone hmoves hmoves
      · simp at hmoves
      · omega
      · simp at hmoves
      · omega

/-! ### Zero penalties -/

theorem sessionWindow_count (occupied : Period → Bool) :
    (sessionWindow occupied).count = ((allPeriods.filter occupied).length : Nat) := by
  have h : ∀ (ps : List Period) (w : Window), (ps.foldl (fun w p =>
      if occupied p then (⟨w.count + 1, if w.first < 0 then p.val else w.first, p.val⟩ : Window)
      else w) w).count = w.count + ((ps.filter occupied).length : Nat) := by
    intro ps
    induction ps with
    | nil => simp
    | cons p rest ih =>
      intro w
      rw [List.foldl_cons, ih]
      cases hp : occupied p with
      | true =>
        rw [List.filter_cons_of_pos hp, List.length_cons]
        simp only [if_true]
        omega
      | false =>
        rw [List.filter_cons_of_neg (by simp [hp])]
        simp
  rw [sessionWindow, h]
  simp

/-- Nothing is on the wrong side of the day. -/
theorem modePenalty_eq_zero_iff (mode : SessionMode) {am pm : Int} (ham : 0 ≤ am) (hpm : 0 ≤ pm) :
    0 ≤ modePenalty mode am pm ∧ (modePenalty mode am pm = 0 ↔
      (decide (mode = .morning) && decide (pm > 0)) = false ∧
      (decide (mode = .afternoon) && decide (am > 0)) = false ∧
      (decide (mode = .either) && decide (am > 0) && decide (pm > 0)) = false) := by
  cases mode with
  | free => simp [modePenalty]
  | morning =>
    simp only [modePenalty]
    split <;> simp <;> omega
  | afternoon =>
    simp only [modePenalty]
    split <;> simp <;> omega
  | either =>
    simp only [modePenalty]
    split <;> simp <;> omega

namespace SoftSchedule
variable {P : Problem} {k : SoftSchedule P} {t : P.Tch} {rule : TeacherRule}

theorem sessionCount_nonneg (s : Session) : 0 ≤ k.sessionCount t s := Int.natCast_nonneg _

theorem mustPenalty_eq_zero_iff :
    0 ≤ k.mustPenalty t ∧ (k.mustPenalty t = 0 ↔ ∀ slot ∈ P.teacherMust t, k.tcnt t slot > 0) := by
  refine ⟨Int.natCast_nonneg _, ?_⟩
  rw [mustPenalty, Int.natCast_eq_zero, List.length_eq_zero_iff, List.filter_eq_nil_iff]
  simp

theorem dayPenalty_eq_zero_iff (d : Day) : 0 ≤ k.dayPenalty rule t d ∧
    (k.dayPenalty rule t d = 0 ↔ countDayReason rule (k.sessionCount t) d = none ∧
      ¬ (rule.noM5A1 d = true ∧ k.tcnt t (slotAt (morning d) 4) > 0 ∧
        k.tcnt t (slotAt (afternoon d) 0) > 0)) := by
  obtain ⟨hmode, hmode0⟩ := modePenalty_eq_zero_iff (rule.sessionMode d)
    (sessionCount_nonneg (k := k) (t := t) (morning d))
    (sessionCount_nonneg (k := k) (t := t) (afternoon d))
  have hday := excess_nonneg (rule.dayPeriodCap d)
    (k.sessionCount t (morning d) + k.sessionCount t (afternoon d))
  have ham := excess_nonneg (rule.sessionPeriodCap d).1 (k.sessionCount t (morning d))
  have hpm := excess_nonneg (rule.sessionPeriodCap d).2 (k.sessionCount t (afternoon d))
  rw [countDayReason, firstReason_eq_none_iff]
  simp only [List.forall_mem_cons, List.not_mem_nil, false_implies, implies_true, and_true,
    ← excess_eq_zero_iff, dayPenalty]
  split
  · rename_i hedge
    exact ⟨by omega, fun h => by omega, fun h => absurd hedge h.2⟩
  · rename_i hedge
    refine ⟨by omega, fun h => ⟨?_, hedge⟩, fun h => ?_⟩
    · obtain ⟨h1, h2, h3⟩ := hmode0.mp (by omega)
      exact ⟨h1, h2, h3, by omega, by omega, by omega⟩
    · obtain ⟨⟨h1, h2, h3, hcap, hcapAm, hcapPm⟩, _⟩ := h
      have hzero := hmode0.mpr ⟨h1, h2, h3⟩
      omega

theorem totalsPenalty_eq_zero_iff : 0 ≤ k.totalsPenalty rule t ∧
    (k.totalsPenalty rule t = 0 ↔ totalsReason rule (k.sessionCount t) = none) := by
  have hdays := excess_nonneg rule.maxDays (k.usedDays t)
  have hsessions := excess_nonneg rule.maxSessions (k.usedMornings t + k.usedAfternoons t)
  have ham := excess_nonneg rule.maxMorning (k.usedMornings t)
  have hpm := excess_nonneg rule.maxAfternoon (k.usedAfternoons t)
  refine ⟨by rw [totalsPenalty]; omega, ?_⟩
  have hsum : k.totalsPenalty rule t = 0 ↔ excess rule.maxDays (k.usedDays t) = 0 ∧
      excess rule.maxSessions (k.usedMornings t + k.usedAfternoons t) = 0 ∧
      excess rule.maxMorning (k.usedMornings t) = 0 ∧
      excess rule.maxAfternoon (k.usedAfternoons t) = 0 := by
    rw [totalsPenalty]
    omega
  rw [hsum, totalsReason]
  split
  · rw [firstReason_eq_none_iff]
    simp only [List.forall_mem_cons, List.not_mem_nil, false_implies, implies_true, and_true,
      ← excess_eq_zero_iff]
    rfl
  · rename_i hoff
    have hzero : ∀ cap n : Int, ¬ cap > 0 → excess cap n = 0 := by
      intro cap n hcap
      rw [excess, if_neg fun h => hcap h.1]
    simp only [not_or] at hoff
    simp [hzero _ _ hoff.1, hzero _ _ hoff.2.1, hzero _ _ hoff.2.2.1, hzero _ _ hoff.2.2.2]

theorem locationSessionDebt_nonneg (s : Session) : 0 ≤ k.locationSessionDebt t s := by
  unfold locationSessionDebt
  split
  · exact le_refl _
  · split
    · exact le_refl _
    · dsimp only
      split
      · exact le_refl _
      · exact locationRuleDebt_nonneg _ _ _ _ _

theorem locationDebt_eq_zero_iff : 0 ≤ k.locationDebt t ∧ (k.locationDebt t = 0 ↔
    (P.teacherLocRules t = true → ∀ s, k.locationSessionDebt t s = 0)) := by
  rw [locationDebt]
  split
  · rename_i hl
    refine ⟨Finset.sum_nonneg fun s _ => locationSessionDebt_nonneg s, ?_⟩
    rw [Finset.sum_eq_zero_iff_of_nonneg fun s _ => locationSessionDebt_nonneg s]
    simp [hl]
  · rename_i hl
    simp [hl]

/-- A penalty is zero when every one of its terms is. -/
theorem teacherRulePenalty_eq_zero_iff : 0 ≤ k.teacherRulePenalty t ∧
    (k.teacherRulePenalty t = 0 ↔ (∀ slot ∈ P.teacherMust t, k.tcnt t slot > 0) ∧
      ∀ rule, P.teacherRules t = some rule →
        (∀ d, countDayReason rule (k.sessionCount t) d = none ∧
          ¬ (rule.noM5A1 d = true ∧ k.tcnt t (slotAt (morning d) 4) > 0 ∧
            k.tcnt t (slotAt (afternoon d) 0) > 0)) ∧
        totalsReason rule (k.sessionCount t) = none ∧
        (P.teacherLocRules t = true → ∀ s, k.locationSessionDebt t s = 0)) := by
  obtain ⟨hmust, hmust0⟩ := mustPenalty_eq_zero_iff (k := k) (t := t)
  rw [teacherRulePenalty]
  cases hr : P.teacherRules t with
  | none => simp [hmust, hmust0]
  | some rule =>
    have hdays : 0 ≤ ∑ d, k.dayPenalty rule t d :=
      Finset.sum_nonneg fun d _ => (dayPenalty_eq_zero_iff d).1
    have hdays0 : ∑ d, k.dayPenalty rule t d = 0 ↔ ∀ d, k.dayPenalty rule t d = 0 := by
      rw [Finset.sum_eq_zero_iff_of_nonneg fun d _ => (dayPenalty_eq_zero_iff d).1]
      simp
    obtain ⟨htotals, htotals0⟩ := @totalsPenalty_eq_zero_iff P k t rule
    obtain ⟨hloc, hloc0⟩ := locationDebt_eq_zero_iff (k := k) (t := t)
    have hsum : k.mustPenalty t + ∑ d, k.dayPenalty rule t d + k.totalsPenalty rule t +
        k.locationDebt t = 0 ↔ k.mustPenalty t = 0 ∧ ∑ d, k.dayPenalty rule t d = 0 ∧
          k.totalsPenalty rule t = 0 ∧ k.locationDebt t = 0 := by omega
    dsimp only
    refine ⟨by omega, ?_⟩
    rw [hsum, hmust0, hdays0, htotals0, hloc0]
    simp only [(dayPenalty_eq_zero_iff _).2, Option.some.injEq, forall_eq']

/-! ### On a grid without conflicts -/

theorem Recount.sessionCount_eq (h : k.Recount) : k.sessionCount t = P.lessonCounts k.grid t := by
  funext s
  rw [sessionCount, Problem.lessonCounts, Problem.windowOf, sessionWindow_count]
  congr 2
  refine List.filter_congr fun p _ => ?_
  rw [h.tcnt, Bool.eq_iff_iff, decide_eq_true_iff, Problem.teacherLoad_pos_iff,
    Problem.lessonOf_isSome_iff]

theorem Recount.tcnt_pos_iff (h : k.Recount) (slot : Slot) :
    k.tcnt t slot > 0 ↔ P.lessonOf k.grid t slot ≠ none := by
  rw [h.tcnt, Problem.teacherLoad_pos_iff, ← Problem.lessonOf_isSome_iff, Option.isSome_iff_ne_none]

theorem Recount.slotDayReason_eq_none_iff (h : k.Recount) (hc : k.conflicts = ∅)
    (hr : P.teacherRules t = some rule) (d : Day) :
    P.slotDayReason t rule (P.lessonOf k.grid t) d = none ↔
      ¬ (rule.noM5A1 d = true ∧ k.tcnt t (slotAt (morning d) 4) > 0 ∧
        k.tcnt t (slotAt (afternoon d) 0) > 0) ∧
      (P.teacherLocRules t = true → k.locationSessionDebt t (morning d) = 0 ∧
        k.locationSessionDebt t (afternoon d) = 0) := by
  rw [Problem.slotDayReason, Option.or_eq_none_iff, firstReason_eq_none_iff]
  apply and_congr
  · simp only [List.forall_mem_cons, List.not_mem_nil, false_implies, implies_true, and_true,
      h.tcnt_pos_iff, ← Option.isSome_iff_ne_none]
    simp [Bool.and_assoc]
  · split
    · rename_i hl
      have hdebt : ∀ s, locBroken rule s (P.locEntries (P.lessonOf k.grid t) s) = false ↔
          k.locationSessionDebt t s = 0 := by
        intro s
        have hpos := h.locationSessionDebt_pos_iff hc hl hr s
        have hnonneg := locationSessionDebt_nonneg (k := k) (t := t) s
        rw [← hpos, decide_eq_false_iff_not]
        omega
      rw [firstReason_eq_none_iff]
      simp only [List.map_cons, List.map_nil, List.forall_mem_cons, List.not_mem_nil, false_implies,
        implies_true, and_true, hdebt, hl, true_implies]
    · rename_i hl
      simp [hl]

/-- On a grid without conflicts the penalty is zero exactly when `_check_teacher` accepts. -/
theorem Recount.teacherRulePenalty_eq_zero_iff (h : k.Recount) (hc : k.conflicts = ∅)
    (hcaps : ∀ rule, P.teacherRules t = some rule → rule.classPeriodCaps = []) {s : State P}
    (hs : Engine.Recount s) (hgrid : s.grid = k.grid) (hdefer : s.deferMin = false) :
    k.teacherRulePenalty t = 0 ↔ s.checkTeacherAt t allDays = none := by
  have hrow : s.teacherSlot t = P.lessonOf k.grid t := by
    rw [← hgrid]
    exact funext (hs.teacherSlot t)
  have hcounts : (fun ses => (s.ts t ses).count) = k.sessionCount t := by
    rw [h.sessionCount_eq, ← hgrid]
    funext ses
    rw [hs.ts, Problem.lessonCounts]
  rw [(SoftSchedule.teacherRulePenalty_eq_zero_iff).2, State.checkTeacherAt, hrow, hcounts, hdefer,
    Problem.checkTeacher_eq_none_iff]
  apply and_congr
  · apply forall₂_congr
    intro slot _
    rw [h.tcnt_pos_iff]
    simp
  · apply forall₂_congr
    intro rule hr
    have hdays : (∀ d ∈ allDays, countDayReason rule (k.sessionCount t) d = none ∧
        P.slotDayReason t rule (P.lessonOf k.grid t) d = none) ↔
        (∀ d, countDayReason rule (k.sessionCount t) d = none ∧
          ¬ (rule.noM5A1 d = true ∧ k.tcnt t (slotAt (morning d) 4) > 0 ∧
            k.tcnt t (slotAt (afternoon d) 0) > 0)) ∧
        (P.teacherLocRules t = true → ∀ ses, k.locationSessionDebt t ses = 0) := by
      simp only [h.slotDayReason_eq_none_iff hc hr]
      constructor
      · intro hall
        refine ⟨fun d => ⟨(hall d (mem_allDays d)).1, (hall d (mem_allDays d)).2.1⟩, fun hl ses => ?_⟩
        obtain ⟨hm, ha⟩ := (hall (dayOf ses) (mem_allDays _)).2.2 hl
        cases (dayOf_eq_iff ses (dayOf ses)).mp rfl with
        | inl hses => rw [hses]; exact hm
        | inr hses => rw [hses]; exact ha
      · intro hall d _
        exact ⟨(hall.1 d).1, (hall.1 d).2, fun hl => ⟨hall.2 hl _, hall.2 hl _⟩⟩
    rw [hdays, hcaps rule hr]
    simp only [List.not_mem_nil, false_implies, implies_true, and_true]
    tauto

end SoftSchedule

end TkbCherry.Engine
