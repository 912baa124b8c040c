import TkbCherry.Engine.SoftCounters

/-!
# The scores of the two schedules

Every counter of `SoftSchedule` is what its grid gives, and on a grid without conflicts its
scores are those of a `State` with the same grid.
-/

namespace TkbCherry.Engine

set_option autoImplicit false

open Array2

namespace Problem
variable {P : Problem} {grid : P.Grid} {t : P.Tch} {slot : Slot}

theorem teacherLoad_pos_iff :
    P.teacherLoad grid t slot > 0 ↔ ∃ c, t ∈ P.members (grid c slot) := by
  constructor
  · intro h
    by_contra hno
    have hzero : P.teacherLoad grid t slot = 0 := by
      rw [teacherLoad, column]
      refine Finset.sum_eq_zero fun c _ => ?_
      rw [List.count_eq_zero_of_not_mem fun hm => hno ⟨c, hm⟩]
      rfl
    omega
  · rintro ⟨c, hc⟩
    have hterm := le_column (f := fun o => ((P.members o).count t : Int))
      (fun _ => Int.natCast_nonneg _) grid c slot
    have hpos := List.count_pos_iff.mpr hc
    rw [teacherLoad]
    omega

theorem lessonOf_isSome_iff :
    (P.lessonOf grid t slot).isSome = true ↔ ∃ c, t ∈ P.members (grid c slot) := by
  rw [lessonOf, List.findSome?_isSome_iff]
  constructor
  · rintro ⟨c, _, hc⟩
    obtain ⟨ai, hai⟩ := Option.isSome_iff_exists.mp hc
    obtain ⟨hg, ht⟩ := Option.filter_eq_some_iff.mp hai
    exact ⟨c, by rw [hg]; exact of_decide_eq_true ht⟩
  · rintro ⟨c, hc⟩
    refine ⟨c, List.mem_finRange c, ?_⟩
    cases hg : grid c slot with
    | none => simp [hg] at hc
    | some ai =>
      rw [hg] at hc
      simpa using hc

/-- Masks and windows see the same lessons. -/
theorem window_maskOf (t : P.Tch) (s : Session) :
    (P.maskOf grid t s).window = P.windowOf grid t s := by
  have hocc : (P.maskOf grid t s).has = fun p => (P.lessonOf grid t (slotAt s p)).isSome := by
    funext p
    rw [maskOf, Mask.has_ofPeriods, Bool.eq_iff_iff, decide_eq_true_iff, teacherLoad_pos_iff,
      lessonOf_isSome_iff]
  rw [Mask.window, hocc, windowOf]

/-- A teacher with one lesson at a slot has it in one class. -/
theorem count_of_load_le_one (h : P.teacherLoad grid t slot ≤ 1) {c : P.Cls}
    (hc : t ∈ P.members (grid c slot)) :
    (P.members (grid c slot)).count t = 1 ∧ ∀ d, d ≠ c → (P.members (grid d slot)).count t = 0 := by
  have hpos := List.count_pos_iff.mpr hc
  have hterm := le_column (f := fun o => ((P.members o).count t : Int))
    (fun _ => Int.natCast_nonneg _) grid c slot
  rw [teacherLoad] at h
  refine ⟨by omega, fun d hd => ?_⟩
  have htwo : ((P.members (grid c slot)).count t : Int) + ((P.members (grid d slot)).count t : Int)
      ≤ column (fun o => ((P.members o).count t : Int)) grid slot := by
    have hsub := Finset.sum_le_sum_of_subset_of_nonneg
      (f := fun c => ((P.members (grid c slot)).count t : Int)) (Finset.subset_univ {c, d})
      fun _ _ _ => Int.natCast_nonneg _
    rwa [Finset.sum_pair hd.symm] at hsub
  omega

/-- Without a conflict the places listed at a slot are the place of the one lesson. -/
theorem placeLoad_of_load_le_one (h : P.teacherLoad grid t slot ≤ 1) (loc : Nat) :
    P.placeLoad grid t slot loc =
      if (P.lessonOf grid t slot).bind P.aLoc = some loc then 1 else 0 := by
  by_cases hin : ∃ c, t ∈ P.members (grid c slot)
  · obtain ⟨ai, hai⟩ := Option.isSome_iff_exists.mp (lessonOf_isSome_iff.mpr hin)
    obtain ⟨c, _, hc⟩ := List.exists_of_findSome?_eq_some hai
    obtain ⟨hg, ht⟩ := Option.filter_eq_some_iff.mp hc
    obtain ⟨hone, hrest⟩ := count_of_load_le_one h (c := c)
      (by rw [hg]; exact of_decide_eq_true ht)
    rw [placeLoad, column, Finset.sum_eq_single c, hai, hg]
    · rw [hg, members_some] at hone
      simp [hone]
    · intro d _ hd
      simp [hrest d hd]
    · intro hnot
      exact absurd (Finset.mem_univ c) hnot
  · have hnone : P.lessonOf grid t slot = none := by
      rw [← Option.not_isSome_iff_eq_none]
      exact fun hs => hin (lessonOf_isSome_iff.mp hs)
    rw [hnone, placeLoad, column]
    simp only [Option.bind_none, reduceCtorEq, if_false]
    refine Finset.sum_eq_zero fun c _ => ?_
    rw [List.count_eq_zero_of_not_mem fun hm => hin ⟨c, hm⟩]
    simp

end Problem

theorem Mask.ext_has {m m' : Mask} (h : ∀ p, m.has p = m'.has p) : m = m' :=
  BitVec.eq_of_getLsbD_eq fun i hi => h ⟨i, hi⟩

/-- A list that holds what an optional value does. -/
theorem eq_toList_of_count {l : List Nat} {o : Option Nat}
    (h : ∀ x, l.count x = if o = some x then 1 else 0) : l = o.toList := by
  have hperm : l.Perm o.toList := by
    rw [List.perm_iff_count]
    intro x
    rw [h]
    cases o with
    | none => simp
    | some y => simp [List.count_singleton]
  cases o with
  | none => exact List.perm_nil.mp hperm
  | some y => exact List.perm_singleton.mp hperm

namespace SoftSchedule
variable {P : Problem} {k : SoftSchedule P}

/-- Every counter of the schedule is what its grid gives; the statistics once tracked. -/
structure Recount (k : SoftSchedule P) : Prop where
  tcnt : ∀ t slot, k.tcnt t slot = P.teacherLoad k.grid t slot
  overlap : k.overlap = tally (fun n => max 0 (n - 1)) (P.teacherLoad k.grid)
  conflicts : ∀ t slot, (t, slot) ∈ k.conflicts ↔ 2 ≤ P.teacherLoad k.grid t slot
  places : ∀ t, P.teacherLocRules t = true →
    ∀ slot loc, ((k.tloc t slot).count loc : Int) = P.placeLoad k.grid t slot loc
  tsMask : k.trackQuality = true → ∀ t s, k.tsMask t s = P.maskOf k.grid t s
  ts : k.trackQuality = true → ∀ t s, k.ts t s = P.windowOf k.grid t s
  tDaySessions : k.trackQuality = true → ∀ t d, k.tDaySessions t d = P.daySessionsOf k.grid t d
  quality : k.trackQuality = true → k.quality =
    [tally Window.singleton (P.windowOf k.grid), tally Window.gap2 (P.windowOf k.grid),
      tally Window.session (P.windowOf k.grid), tally Window.gap1 (P.windowOf k.grid),
      tally dayUsed (P.daySessionsOf k.grid)]

theorem Inv.recount (h : k.Inv) : k.Recount := by
  have htcnt : k.tcnt = P.teacherLoad k.grid := funext fun t => funext (h.tcnt t)
  have hmask : k.trackQuality = true → ∀ t s, k.tsMask t s = P.maskOf k.grid t s := by
    intro hq t s
    refine Mask.ext_has fun p => ?_
    rw [h.kept.masks hq, Problem.maskOf, Mask.has_ofPeriods, htcnt]
  have hwin : k.trackQuality = true → ∀ t s, (k.tsMask t s).window = P.windowOf k.grid t s :=
    fun hq t s => by rw [hmask hq, Problem.window_maskOf]
  have hday : k.trackQuality = true → ∀ t d, k.tDaySessions t d = P.daySessionsOf k.grid t d :=
    fun hq t d => by rw [h.kept.stats.tDaySessions, hwin hq, hwin hq, Problem.daySessionsOf]
  refine ⟨h.tcnt, htcnt ▸ h.kept.overlap, htcnt ▸ h.kept.conflicts, h.places, hmask,
    fun hq t s => (h.kept.stats.ts t s).trans (hwin hq t s), hday, fun hq => ?_⟩
  have hst := h.kept.stats
  have hdays : tally dayUsed k.tDaySessions = tally dayUsed (P.daySessionsOf k.grid) :=
    tally_congr fun t d => by rw [hday hq]
  rw [SoftSchedule.quality, hst.qSingleton, hst.qGap2, hst.qSessions, hst.qGap1, hst.qDays, hdays]
  simp only [tally, Mask.single, Mask.gap2, Mask.occ, Mask.gap1, hwin hq]

/-- Where a teacher has one lesson the place is that of the lesson. -/
theorem Recount.tloc_eq_of_load (h : k.Recount) {t : P.Tch} (hl : P.teacherLocRules t = true)
    {slot : Slot} (hload : P.teacherLoad k.grid t slot ≤ 1) :
    k.tloc t slot = ((P.lessonOf k.grid t slot).bind P.aLoc).toList := by
  refine eq_toList_of_count fun loc => ?_
  have hp := h.places t hl slot loc
  rw [Problem.placeLoad_of_load_le_one hload] at hp
  split at hp
  · rename_i hb
    rw [if_pos hb]
    omega
  · rename_i hb
    rw [if_neg hb]
    omega

/-- Without conflicts the place of a teacher at a slot is that of the lesson there. -/
theorem Recount.tloc_eq (h : k.Recount) (hc : k.conflicts = ∅) {t : P.Tch}
    (hl : P.teacherLocRules t = true) (slot : Slot) :
    k.tloc t slot = ((P.lessonOf k.grid t slot).bind P.aLoc).toList := by
  apply h.tloc_eq_of_load hl
  have hn : ¬ 2 ≤ P.teacherLoad k.grid t slot := by
    rw [← h.conflicts, hc]
    exact Finset.notMem_empty _
  omega

theorem Recount.locationSessionDebt_pos_iff (h : k.Recount) (hc : k.conflicts = ∅) {t : P.Tch}
    (hl : P.teacherLocRules t = true) {rule : TeacherRule} (hr : P.teacherRules t = some rule)
    (s : Session) : decide (k.locationSessionDebt t s > 0) =
      locBroken rule s (P.locEntries (P.lessonOf k.grid t) s) := by
  have hentries : (allPeriods.filterMap fun p =>
      (k.tloc t (slotAt s p)).head?.map fun loc => (p, loc)) =
        P.locEntries (P.lessonOf k.grid t) s := by
    unfold Problem.locEntries
    refine List.filterMap_congr fun p _ => ?_
    rw [h.tloc_eq hc hl]
    cases hai : P.lessonOf k.grid t (slotAt s p) with
    | none => rfl
    | some ai => cases hloc : P.aLoc ai <;> simp [hloc]
  simp only [locationSessionDebt, hr, hl, Bool.true_eq_false, false_or, hentries, locBroken]
  split
  · rename_i hoff
    simp [hoff]
  · rename_i hon
    rw [Bool.not_eq_false] at hon
    split
    · rename_i hlen
      have hlen' : ¬ 2 ≤ (P.locEntries (P.lessonOf k.grid t) s).length := by omega
      simp [hlen']
    · rename_i hlen
      have hlen' : 2 ≤ (P.locEntries (P.lessonOf k.grid t) s).length := by omega
      simp [hon, hlen']

/-- The quality of a tracked schedule is the objective of a state with its grid. -/
theorem Recount.quality_eq (h : k.Recount) (hq : k.trackQuality = true) {s : State P}
    (hs : Engine.Recount s) (hgrid : s.grid = k.grid) : k.quality = s.objective := by
  rw [h.quality hq, State.objective, hs.nSingleton, hs.nGap2, hs.nSessions, hs.nGap1, hs.nDays, hgrid]

/-- Without conflicts the sessions that break a place rule are those of a state with the grid. -/
theorem Recount.locationDebt_eq (h : k.Recount) (hc : k.conflicts = ∅) {s : State P}
    (hs : Engine.Recount s) (hgrid : s.grid = k.grid) :
    k.locationDebtSessionCount = s.locationRuleDebtSessions := by
  unfold locationDebtSessionCount State.locationRuleDebtSessions
  congr 2
  refine List.flatMap_congr fun t _ => ?_
  by_cases hl : P.teacherLocRules t = true
  · rw [if_pos hl, if_pos hl]
    have hrow : s.teacherSlot t = P.lessonOf k.grid t := by
      rw [← hgrid]
      exact funext (hs.teacherSlot t)
    cases hr : P.teacherRules t with
    | none => simp [locationSessionDebt, hr]
    | some rule =>
      rw [hrow]
      exact List.filter_congr fun ses _ => h.locationSessionDebt_pos_iff hc hl hr ses
  · rw [if_neg hl, if_neg hl]

/-- The two schedules give one grid the same scores. -/
theorem Recount.scores_eq (h : k.Recount) (hq : k.trackQuality = true) (hc : k.conflicts = ∅)
    {s : State P} (hs : Engine.Recount s) (hgrid : s.grid = k.grid) :
    k.quality = s.objective ∧ k.locationDebtSessionCount = s.locationRuleDebtSessions :=
  ⟨h.quality_eq hq hs hgrid, h.locationDebt_eq hc hs hgrid⟩

/-- After every run of writes the counters are those of the grid. On a grid without
conflicts the scores are those of every `State` that holds it, and a grid whose lessons
stand in their classes at allowed slots loads into such a state. -/
theorem scores_agree (P : Problem) (edits : List (Edit P)) :
    (edits.foldl step (SoftSchedule.init P)).Recount ∧
    ((edits.foldl step (SoftSchedule.init P)).trackQuality = true →
      (edits.foldl step (SoftSchedule.init P)).conflicts = ∅ →
      (∀ (deferMin : Bool) (run : List (Engine.Edit P)),
        (run.foldl Desk.step (Desk.init P deferMin)).state.grid =
          (edits.foldl step (SoftSchedule.init P)).grid →
        (edits.foldl step (SoftSchedule.init P)).quality =
            (run.foldl Desk.step (Desk.init P deferMin)).state.objective ∧
          (edits.foldl step (SoftSchedule.init P)).locationDebtSessionCount =
            (run.foldl Desk.step (Desk.init P deferMin)).state.locationRuleDebtSessions) ∧
      ∀ deferMin : Bool,
        (∀ c slot ai, (edits.foldl step (SoftSchedule.init P)).grid c slot = some ai →
          P.aClass ai = c ∧ P.aAllowed ai slot = true) →
        ∃ s, State.load P deferMin (edits.foldl step (SoftSchedule.init P)).grid = (s, true) ∧
          s.grid = (edits.foldl step (SoftSchedule.init P)).grid ∧
          (edits.foldl step (SoftSchedule.init P)).quality = s.objective ∧
          (edits.foldl step (SoftSchedule.init P)).locationDebtSessionCount =
            s.locationRuleDebtSessions) := by
  have h := (inv_run P edits).recount
  generalize edits.foldl step (SoftSchedule.init P) = k at h
  refine ⟨h, fun hq hc => ⟨fun deferMin run hgrid => ?_, fun deferMin hcells => ?_⟩⟩
  · have hinv := Desk.inv_run (Transition.Run.ofFn_foldl Desk.step _ run)
      (Desk.inv_init P deferMin)
    exact h.scores_eq hq hc hinv.consistent.recount hgrid
  · have hexcl : P.Exclusive k.grid := by
      intro c d slot t hct hdt
      by_contra hne
      have hload : P.teacherLoad k.grid t slot ≤ 1 := by
        have hn : ¬ 2 ≤ P.teacherLoad k.grid t slot := by
          rw [← h.conflicts, hc]
          exact Finset.notMem_empty _
        omega
      have hzero := (Problem.count_of_load_le_one hload hct).2 d fun he => hne he.symm
      have hpos := List.count_pos_iff.mpr hdt
      omega
    obtain ⟨s, hload, hgrid⟩ := State.load_eq P deferMin ⟨hcells, hexcl⟩
    have hs := State.load_consistent P deferMin k.grid
    rw [hload] at hs
    exact ⟨s, hload, hgrid, h.scores_eq hq hc hs.recount hgrid⟩

end SoftSchedule

end TkbCherry.Engine
