import TkbCherry.Engine.SoftSchedule

/-!
# Counters of the conflict-tolerant schedule

What the loop bodies of `set_cell` do to the counters, the masks and the places of one
teacher, and from it that after every run of writes they are those of the grid.
-/

namespace TkbCherry.Engine

set_option autoImplicit false

open Array2

namespace Problem
variable (P : Problem)

/-- The number of lessons a teacher has at a slot. -/
def teacherLoad (grid : P.Grid) (t : P.Tch) (slot : Slot) : Int :=
  column (fun o => ((P.members o).count t : Int)) grid slot

/-- The number of lessons a teacher has at a slot in a place. -/
def placeLoad (grid : P.Grid) (t : P.Tch) (slot : Slot) (loc : Nat) : Int :=
  column (fun o => if o.bind P.aLoc = some loc then ((P.members o).count t : Int) else 0) grid slot

/-- The slots of a session at which a teacher has a lesson. -/
def maskOf (grid : P.Grid) (t : P.Tch) (s : Session) : Mask :=
  Mask.ofPeriods fun p => decide (P.teacherLoad grid t (slotAt s p) > 0)

end Problem

namespace SoftSchedule
variable {P : Problem} {k : SoftSchedule P}

/-- The statistics are those of the masks. -/
structure Stats (k : SoftSchedule P) : Prop where
  ts : ∀ t s, k.ts t s = (k.tsMask t s).window
  tDaySessions : ∀ t d, k.tDaySessions t d =
    (k.tsMask t (morning d)).window.used + (k.tsMask t (afternoon d)).window.used
  qSingleton : k.qSingleton = tally Mask.single k.tsMask
  qGap2 : k.qGap2 = tally Mask.gap2 k.tsMask
  qSessions : k.qSessions = tally Mask.occ k.tsMask
  qGap1 : k.qGap1 = tally Mask.gap1 k.tsMask
  qDays : k.qDays = tally dayUsed k.tDaySessions

/-- The counters and masks are those of `tcnt`. -/
structure Kept (k : SoftSchedule P) : Prop where
  overlap : k.overlap = tally (fun n => max 0 (n - 1)) k.tcnt
  conflicts : ∀ t slot, (t, slot) ∈ k.conflicts ↔ 2 ≤ k.tcnt t slot
  masks : k.trackQuality = true →
    ∀ t s p, (k.tsMask t s).has p = decide (k.tcnt t (slotAt s p) > 0)
  stats : k.Stats

/-! ### Masks and statistics -/

section SetMask
variable (k) (t : P.Tch) (s : Session) (m : Mask)

theorem setMask_cases : (k.tsMask t s = m ∧ k.setMask t s m = k) ∨
    k.setMask t s m = k.writeMask t s m ∨
    ∃ change, k.setMask t s m = (k.writeMask t s m).countDay t (dayOf s) change := by
  by_cases hm : k.tsMask t s = m
  · exact Or.inl ⟨hm, if_pos hm⟩
  · by_cases hz : (k.tsMask t s).isZero = m.isZero
    · exact Or.inr (Or.inl ((if_neg hm).trans (if_pos hz)))
    · exact Or.inr (Or.inr ⟨_, (if_neg hm).trans (if_neg hz)⟩)

theorem setMask_frame : (k.setMask t s m).grid = k.grid ∧ (k.setMask t s m).tcnt = k.tcnt ∧
    (k.setMask t s m).overlap = k.overlap ∧ (k.setMask t s m).conflicts = k.conflicts ∧
    (k.setMask t s m).trackQuality = k.trackQuality ∧ (k.setMask t s m).tloc = k.tloc := by
  rcases setMask_cases k t s m with ⟨_, h⟩ | h | ⟨change, h⟩ <;> rw [h] <;>
    exact ⟨rfl, rfl, rfl, rfl, rfl, rfl⟩

@[simp] theorem setMask_tsMask : (k.setMask t s m).tsMask = set2 k.tsMask t s m := by
  rcases setMask_cases k t s m with ⟨hm, h⟩ | h | ⟨change, h⟩ <;> rw [h]
  · rw [← hm, set2_get]
  · rfl
  · rfl

variable {k}

theorem Stats.daySessions_nonneg (h : k.Stats) (t : P.Tch) (d : Day) : 0 ≤ k.tDaySessions t d := by
  have hm := Window.used_nonneg (k.tsMask t (morning d)).window
  have ha := Window.used_nonneg (k.tsMask t (afternoon d)).window
  rw [h.tDaySessions]
  omega

/-- A written mask, and the day counter moved by the change of the session's use. -/
theorem setMask_eq (h : k.Stats) : k.setMask t s m =
    (k.writeMask t s m).countDay t (dayOf s)
      (m.window.used - (k.tsMask t s).window.used) := by
  have hstay : ∀ k' : SoftSchedule P, k'.countDay t (dayOf s) 0 = k' := by
    intro k'
    have hdays : (if k'.tDaySessions t (dayOf s) = 0 ∧ k'.tDaySessions t (dayOf s) > 0
        then k'.qDays + 1 else if k'.tDaySessions t (dayOf s) > 0 ∧ k'.tDaySessions t (dayOf s) = 0
        then k'.qDays - 1 else k'.qDays) = k'.qDays := by
      split_ifs <;> omega
    simp only [countDay, add_zero, set2_get, hdays]
  unfold setMask
  by_cases hm : k.tsMask t s = m
  · subst hm
    rw [if_pos rfl, sub_self, hstay]
    simp only [writeMask, sub_self, add_zero, set2_get]
    have hts : set2 k.ts t s (k.tsMask t s).window = k.ts := by
      rw [← h.ts t s, set2_get]
    rw [hts]
  · rw [if_neg hm, Mask.used_window, Mask.used_window]
    cases k.tsMask t s |>.isZero <;> cases m.isZero <;> simp [hstay]

theorem setMask_stats (h : k.Stats) : (k.setMask t s m).Stats := by
  have hday : ∀ t' d, (k.setMask t s m).tDaySessions t' d =
      (set2 k.tsMask t s m t' (morning d)).window.used +
        (set2 k.tsMask t s m t' (afternoon d)).window.used := by
    intro t' d
    rw [halfDays_set2 (fun m : Mask => m.window.used), setMask_eq t s m h]
    simp only [countDay, writeMask, set2_apply, ← h.tDaySessions]
    split
    · rename_i he
      rw [he.1, he.2]
    · omega
  have hnow : 0 ≤ (k.setMask t s m).tDaySessions t (dayOf s) := by
    have hm := Window.used_nonneg (set2 k.tsMask t s m t (morning (dayOf s))).window
    have ha := Window.used_nonneg (set2 k.tsMask t s m t (afternoon (dayOf s))).window
    rw [hday]
    omega
  rw [setMask_eq t s m h] at hday hnow ⊢
  simp only [countDay, writeMask, set2_self] at hnow
  constructor
  · intro t' s'
    simp only [countDay, writeMask, set2_apply]
    split
    · rfl
    · exact h.ts t' s'
  · exact hday
  · simp only [countDay, writeMask, tally_set2, ← h.qSingleton]
    omega
  · simp only [countDay, writeMask, tally_set2, ← h.qGap2]
    omega
  · simp only [countDay, writeMask, tally_set2, ← h.qSessions]
    omega
  · simp only [countDay, writeMask, tally_set2, ← h.qGap1]
    omega
  · simp only [countDay, writeMask, tally_set2, ← h.qDays]
    exact dayUsed_step (h.daySessions_nonneg t (dayOf s)) hnow k.qDays

end SetMask

theorem Stats.of_eq {k' : SoftSchedule P} (h : k.Stats) (hts : k'.ts = k.ts)
    (hm : k'.tsMask = k.tsMask) (hd : k'.tDaySessions = k.tDaySessions)
    (hq : k'.quality = k.quality) : k'.Stats := by
  simp only [quality, List.cons.injEq, and_true] at hq
  obtain ⟨h1, h2, h3, h4, h5⟩ := hq
  constructor
  · rw [hts, hm]
    exact h.ts
  · rw [hd, hm]
    exact h.tDaySessions
  · rw [hm, h1, h.qSingleton]
  · rw [hm, h2, h.qGap2]
  · rw [hm, h3, h.qSessions]
  · rw [hm, h4, h.qGap1]
  · rw [hd, h5, h.qDays]

/-! ### One teacher of a lesson -/

theorem set2_has {masks : P.Tch → Session → Mask} {t : P.Tch} {slot : Slot} {m : Mask} {b : Bool}
    (hm : ∀ q, m.has q =
      if q = periodOfSlot slot then b else (masks t (sessionOfSlot slot)).has q)
    (t' : P.Tch) (s : Session) (p : Period) :
    (set2 masks t (sessionOfSlot slot) m t' s).has p =
      if t' = t ∧ slotAt s p = slot then b else (masks t' s).has p := by
  simp only [set2_apply, slotAt_eq_iff]
  by_cases ht : t' = t ∧ s = sessionOfSlot slot
  · rw [if_pos ht, hm, ht.1, ht.2]
    simp
  · rw [if_neg ht, if_neg fun h => ht ⟨h.1, h.2.1⟩]

section Teacher
variable (t : P.Tch) (slot : Slot)

@[simp] theorem dropPlace_tcnt (loc : Option Nat) : (k.dropPlace t slot loc).tcnt = k.tcnt := by
  unfold dropPlace
  split <;> rfl

@[simp] theorem addPlace_tcnt (loc : Option Nat) : (k.addPlace t slot loc).tcnt = k.tcnt := by
  unfold addPlace
  split <;> rfl

theorem Kept.dropPlace (h : k.Kept) (loc : Option Nat) : (k.dropPlace t slot loc).Kept := by
  unfold SoftSchedule.dropPlace
  split
  · exact ⟨h.overlap, h.conflicts, h.masks, h.stats.of_eq rfl rfl rfl rfl⟩
  · exact h

theorem Kept.addPlace (h : k.Kept) (loc : Option Nat) : (k.addPlace t slot loc).Kept := by
  unfold SoftSchedule.addPlace
  split
  · exact ⟨h.overlap, h.conflicts, h.masks, h.stats.of_eq rfl rfl rfl rfl⟩
  · exact h

/-- A new load of one cell, with the counters and the mask it calls for. -/
theorem Kept.of_write {k' : SoftSchedule P} (h : k.Kept) {n : Int}
    (htcnt : k'.tcnt = set2 k.tcnt t slot n)
    (hover : k'.overlap = k.overlap - max 0 (k.tcnt t slot - 1) + max 0 (n - 1))
    (hconf : ∀ t' s', (t', s') ∈ k'.conflicts ↔
      if t' = t ∧ s' = slot then 2 ≤ n else (t', s') ∈ k.conflicts)
    (htrack : k'.trackQuality = k.trackQuality)
    (hmask : k.trackQuality = true → ∀ t' s p, (k'.tsMask t' s).has p =
      if t' = t ∧ slotAt s p = slot then decide (n > 0) else (k.tsMask t' s).has p)
    (hstats : k'.Stats) : k'.Kept := by
  refine ⟨?_, fun t' s' => ?_, fun hq t' s p => ?_, hstats⟩
  · rw [hover, htcnt, tally_set2, h.overlap]
  · rw [hconf, htcnt, set2_apply, h.conflicts]
    split <;> rfl
  · rw [hmask (htrack ▸ hq), htcnt, set2_apply, h.masks (htrack ▸ hq)]
    split <;> rfl

theorem dropTeacher_tcnt (old : P.Asg) :
    (k.dropTeacher slot old t).tcnt = set2 k.tcnt t slot (k.tcnt t slot - 1) := by
  unfold dropTeacher
  rw [dropPlace_tcnt]
  split
  · exact (setMask_frame _ _ _ _).2.1
  · rfl

theorem addTeacher_tcnt (ai : P.Asg) :
    (k.addTeacher slot ai t).tcnt = set2 k.tcnt t slot (k.tcnt t slot + 1) := by
  unfold addTeacher
  rw [addPlace_tcnt]
  split
  · exact (setMask_frame _ _ _ _).2.1
  · rfl

theorem dropTeacher_kept (h : k.Kept) (old : P.Asg) : (k.dropTeacher slot old t).Kept := by
  have hstats : (k.dropCount t slot).Stats := h.stats.of_eq rfl rfl rfl rfl
  have hover : (k.dropCount t slot).overlap =
      k.overlap - max 0 (k.tcnt t slot - 1) + max 0 (k.tcnt t slot - 1 - 1) := by
    simp only [dropCount]
    split <;> omega
  have hconf : ∀ t' s', (t', s') ∈ (k.dropCount t slot).conflicts ↔
      if t' = t ∧ s' = slot then 2 ≤ k.tcnt t slot - 1 else (t', s') ∈ k.conflicts := by
    intro t' s'
    simp only [dropCount]
    split
    · rw [Finset.mem_erase, ne_eq, Prod.mk.injEq]
      split
      · rename_i hle heq
        simp only [heq, not_true_eq_false, and_self, false_and, false_iff, not_le]
        omega
      · rename_i hne
        simp [hne]
    · split
      · rename_i hgt heq
        rw [heq.1, heq.2, h.conflicts]
        omega
      · rfl
  unfold dropTeacher
  apply Kept.dropPlace
  split
  · rename_i hc
    obtain ⟨_, htc, ho, hcf, htr, _⟩ := setMask_frame (k.dropCount t slot) t (sessionOfSlot slot)
      ((k.dropCount t slot).tsMask t (sessionOfSlot slot) &&& ~~~Mask.bit (periodOfSlot slot))
    refine h.of_write t slot htc (ho.trans hover) (hcf ▸ hconf) htr (fun _ t' s p => ?_)
      (setMask_stats _ _ _ hstats)
    rw [setMask_tsMask, set2_has (b := false)]
    · rw [hc.2]
      rfl
    · intro q
      rw [Mask.has_andNot_bit]
      split <;> simp_all
  · rename_i hc
    refine h.of_write t slot rfl hover hconf rfl (fun hq t' s p => ?_) hstats
    split
    · rename_i he
      have hne : k.tcnt t slot ≠ 1 := fun h1 => hc ⟨hq, h1⟩
      show (k.tsMask t' s).has p = _
      rw [h.masks hq, he.2, he.1, decide_eq_decide]
      omega
    · rfl

theorem addTeacher_kept (h : k.Kept) (ai : P.Asg) : (k.addTeacher slot ai t).Kept := by
  have hstats : (k.addCount t slot).Stats := h.stats.of_eq rfl rfl rfl rfl
  have hover : (k.addCount t slot).overlap =
      k.overlap - max 0 (k.tcnt t slot - 1) + max 0 (k.tcnt t slot + 1 - 1) := by
    simp only [addCount]
    split <;> omega
  have hconf : ∀ t' s', (t', s') ∈ (k.addCount t slot).conflicts ↔
      if t' = t ∧ s' = slot then 2 ≤ k.tcnt t slot + 1 else (t', s') ∈ k.conflicts := by
    intro t' s'
    simp only [addCount]
    split
    · rw [Finset.mem_insert, Prod.mk.injEq]
      split
      · rename_i hge heq
        simp only [heq, and_self, true_or, true_iff]
        omega
      · rename_i hne
        simp [hne]
    · split
      · rename_i hlt heq
        rw [heq.1, heq.2, h.conflicts]
        omega
      · rfl
  unfold addTeacher
  apply Kept.addPlace
  split
  · rename_i hc
    obtain ⟨_, htc, ho, hcf, htr, _⟩ := setMask_frame (k.addCount t slot) t (sessionOfSlot slot)
      ((k.addCount t slot).tsMask t (sessionOfSlot slot) ||| Mask.bit (periodOfSlot slot))
    refine h.of_write t slot htc (ho.trans hover) (hcf ▸ hconf) htr (fun _ t' s p => ?_)
      (setMask_stats _ _ _ hstats)
    rw [setMask_tsMask, set2_has (b := true)]
    · rw [hc.2]
      rfl
    · intro q
      rw [Mask.has_or_bit]
      split <;> simp_all
  · rename_i hc
    refine h.of_write t slot rfl hover hconf rfl (fun hq t' s p => ?_) hstats
    split
    · rename_i he
      have hne : k.tcnt t slot ≠ 0 := fun h0 => hc ⟨hq, h0⟩
      show (k.tsMask t' s).has p = _
      rw [h.masks hq, he.2, he.1, decide_eq_decide]
      omega
    · rfl

/-- How often a place of `t` is listed at a slot. -/
theorem dropTeacher_places {t' : P.Tch} (hl : P.teacherLocRules t' = true) (old : P.Asg)
    (s : Slot) (loc : Nat) : ((k.dropTeacher slot old t).tloc t' s).count loc =
      (k.tloc t' s).count loc -
        if s = slot ∧ P.aLoc old = some loc then [t].count t' else 0 := by
  have hmid : ∀ k' : SoftSchedule P, k'.tloc = k.tloc →
      ((k'.dropPlace t slot (P.aLoc old)).tloc t' s).count loc = (k.tloc t' s).count loc -
        if s = slot ∧ P.aLoc old = some loc then [t].count t' else 0 := by
    intro k' hk'
    unfold dropPlace
    split
    · rename_i loc' _ ho
      simp only [hk', set2_apply, ho, Option.some.injEq, List.count_singleton, beq_iff_eq]
      by_cases hts : t' = t ∧ s = slot
      · rw [if_pos hts, hts.1, hts.2, List.count_erase]
        simp
      · rw [if_neg hts]
        by_cases hs : s = slot
        · have ht : ¬ t = t' := fun h => hts ⟨h.symm, hs⟩
          simp [ht]
        · simp [hs]
    · rename_i hno
      rw [hk']
      split
      · rename_i hs
        have ht : ¬ t = t' := by
          rintro rfl
          exact hno loc hl hs.2
        simp [ht]
      · rfl
  unfold dropTeacher
  apply hmid
  split
  · exact (setMask_frame _ _ _ _).2.2.2.2.2
  · rfl

theorem addTeacher_places {t' : P.Tch} (hl : P.teacherLocRules t' = true) (ai : P.Asg)
    (s : Slot) (loc : Nat) : ((k.addTeacher slot ai t).tloc t' s).count loc =
      (k.tloc t' s).count loc +
        if s = slot ∧ P.aLoc ai = some loc then [t].count t' else 0 := by
  have hmid : ∀ k' : SoftSchedule P, k'.tloc = k.tloc →
      ((k'.addPlace t slot (P.aLoc ai)).tloc t' s).count loc = (k.tloc t' s).count loc +
        if s = slot ∧ P.aLoc ai = some loc then [t].count t' else 0 := by
    intro k' hk'
    unfold addPlace
    split
    · rename_i loc' _ ho
      simp only [hk', set2_apply, ho, Option.some.injEq, List.count_singleton, beq_iff_eq]
      by_cases hts : t' = t ∧ s = slot
      · rw [if_pos hts, hts.1, hts.2, List.count_append]
        by_cases hloc : loc' = loc <;> simp [hloc]
      · rw [if_neg hts]
        by_cases hs : s = slot
        · have ht : ¬ t = t' := fun h => hts ⟨h.symm, hs⟩
          simp [ht]
        · simp [hs]
    · rename_i hno
      rw [hk']
      split
      · rename_i hs
        have ht : ¬ t = t' := by
          rintro rfl
          exact hno loc hl hs.2
        simp [ht]
      · rfl
  unfold addTeacher
  apply hmid
  split
  · exact (setMask_frame _ _ _ _).2.2.2.2.2
  · rfl

end Teacher

/-! ### The teachers of a lesson, one after the other -/

section Lesson
variable (slot : Slot)

theorem dropLesson_kept (h : k.Kept) (o : Option P.Asg) : (k.dropLesson slot o).Kept := by
  cases o with
  | none => exact h
  | some old =>
    show ((P.aTeachers old).foldl (dropTeacher slot old) k).Kept
    induction P.aTeachers old generalizing k with
    | nil => exact h
    | cons t rest ih => exact ih (dropTeacher_kept t slot h old)

theorem addLesson_kept (h : k.Kept) (o : Option P.Asg) : (k.addLesson slot o).Kept := by
  cases o with
  | none => exact h
  | some ai =>
    show ((P.aTeachers ai).foldl (addTeacher slot ai) k).Kept
    induction P.aTeachers ai generalizing k with
    | nil => exact h
    | cons t rest ih => exact ih (addTeacher_kept t slot h ai)

theorem dropLesson_tcnt (o : Option P.Asg) (t : P.Tch) (s : Slot) :
    (k.dropLesson slot o).tcnt t s =
      k.tcnt t s - if s = slot then ((P.members o).count t : Int) else 0 := by
  cases o with
  | none => simp [dropLesson]
  | some old =>
    show ((P.aTeachers old).foldl (dropTeacher slot old) k).tcnt t s = _ -
      if s = slot then (((P.aTeachers old).count t : Nat) : Int) else 0
    induction P.aTeachers old generalizing k with
    | nil => simp
    | cons u rest ih =>
      rw [List.foldl_cons, ih, dropTeacher_tcnt, set2_apply, List.count_cons]
      by_cases hs : s = slot
      · subst hs
        by_cases hu : u = t
        · subst hu
          simp
          omega
        · have hu' : ¬ t = u := fun h => hu h.symm
          simp [hu, hu']
      · simp [hs]

theorem addLesson_tcnt (o : Option P.Asg) (t : P.Tch) (s : Slot) :
    (k.addLesson slot o).tcnt t s =
      k.tcnt t s + if s = slot then ((P.members o).count t : Int) else 0 := by
  cases o with
  | none => simp [addLesson]
  | some ai =>
    show ((P.aTeachers ai).foldl (addTeacher slot ai) k).tcnt t s = _ +
      if s = slot then (((P.aTeachers ai).count t : Nat) : Int) else 0
    induction P.aTeachers ai generalizing k with
    | nil => simp
    | cons u rest ih =>
      rw [List.foldl_cons, ih, addTeacher_tcnt, set2_apply, List.count_cons]
      by_cases hs : s = slot
      · subst hs
        by_cases hu : u = t
        · subst hu
          simp
          omega
        · have hu' : ¬ t = u := fun h => hu h.symm
          simp [hu, hu']
      · simp [hs]

theorem dropLesson_places {t : P.Tch} (hl : P.teacherLocRules t = true) (o : Option P.Asg)
    (s : Slot) (loc : Nat) : ((k.dropLesson slot o).tloc t s).count loc =
      (k.tloc t s).count loc -
        if s = slot ∧ o.bind P.aLoc = some loc then (P.members o).count t else 0 := by
  cases o with
  | none => simp [dropLesson]
  | some old =>
    show (((P.aTeachers old).foldl (dropTeacher slot old) k).tloc t s).count loc = _ -
      if s = slot ∧ P.aLoc old = some loc then (P.aTeachers old).count t else 0
    induction P.aTeachers old generalizing k with
    | nil => simp
    | cons u rest ih =>
      have hcount : (u :: rest).count t = [u].count t + rest.count t := by
        rw [← List.singleton_append, List.count_append]
      rw [List.foldl_cons, ih, dropTeacher_places u slot hl, hcount]
      split <;> omega

theorem addLesson_places {t : P.Tch} (hl : P.teacherLocRules t = true) (o : Option P.Asg)
    (s : Slot) (loc : Nat) : ((k.addLesson slot o).tloc t s).count loc =
      (k.tloc t s).count loc +
        if s = slot ∧ o.bind P.aLoc = some loc then (P.members o).count t else 0 := by
  cases o with
  | none => simp [addLesson]
  | some ai =>
    show (((P.aTeachers ai).foldl (addTeacher slot ai) k).tloc t s).count loc = _ +
      if s = slot ∧ P.aLoc ai = some loc then (P.aTeachers ai).count t else 0
    induction P.aTeachers ai generalizing k with
    | nil => simp
    | cons u rest ih =>
      have hcount : (u :: rest).count t = [u].count t + rest.count t := by
        rw [← List.singleton_append, List.count_append]
      rw [List.foldl_cons, ih, addTeacher_places u slot hl, hcount]
      split <;> omega

end Lesson

/-! ### Writes and tracking -/

/-- Counters of `tcnt`, and `tcnt` and the places of the grid. -/
structure Inv (k : SoftSchedule P) : Prop where
  kept : k.Kept
  tcnt : ∀ t slot, k.tcnt t slot = P.teacherLoad k.grid t slot
  places : ∀ t, P.teacherLocRules t = true →
    ∀ slot loc, ((k.tloc t slot).count loc : Int) = P.placeLoad k.grid t slot loc

theorem Inv.init (P : Problem) : (SoftSchedule.init P).Inv := by
  have hw : sessionWindow (fun _ => false) = ⟨0, -1, -1⟩ := by decide
  have hz : Mask.window 0 = ⟨0, -1, -1⟩ := by decide
  have hs : (Mask.single 0 = 0 ∧ Mask.gap2 0 = 0) ∧ Mask.gap1 0 = 0 ∧ Mask.occ 0 = 0 := by decide
  refine ⟨⟨?_, ?_, ?_, ?_⟩, ?_, ?_⟩
  · simp [SoftSchedule.init, tally]
  · simp [SoftSchedule.init]
  · intro h
    simp [SoftSchedule.init] at h
  · constructor
    · exact fun _ _ => hz.symm
    · intro t d
      simp only [SoftSchedule.init, hz]
      rfl
    all_goals simp only [SoftSchedule.init, tally, hs, Finset.sum_const_zero, dayUsed]
    simp
  · intro t slot
    simp [SoftSchedule.init, Problem.teacherLoad, column]
  · intro t _ slot loc
    simp [SoftSchedule.init, Problem.placeLoad, column]

theorem setCell_inv (h : k.Inv) (c : P.Cls) (slot : Slot) (ai : Option P.Asg) :
    (k.setCell c slot ai).Inv := by
  unfold setCell
  by_cases heq : k.grid c slot = ai
  · simp only [heq, if_true]
    exact h
  simp only [heq, if_false]
  have hkept := addLesson_kept slot (dropLesson_kept slot h.kept (k.grid c slot)) ai
  refine ⟨⟨hkept.overlap, hkept.conflicts, hkept.masks, hkept.stats.of_eq rfl rfl rfl rfl⟩, ?_, ?_⟩
  · intro t s
    show ((k.dropLesson slot (k.grid c slot)).addLesson slot ai).tcnt t s = _
    rw [addLesson_tcnt, dropLesson_tcnt, h.tcnt, Problem.teacherLoad, Problem.teacherLoad,
      column_set2]
    split <;> omega
  · intro t hl s loc
    show ((((k.dropLesson slot (k.grid c slot)).addLesson slot ai).tloc t s).count loc : Int) = _
    have hold := h.places t hl s loc
    have hterm := le_column (f := fun o : Option P.Asg =>
      if o.bind P.aLoc = some loc then ((P.members o).count t : Int) else 0)
      (fun o => by split <;> omega) k.grid c s
    rw [Problem.placeLoad] at hold
    rw [addLesson_places slot hl, dropLesson_places slot hl, Problem.placeLoad, column_set2, ← hold]
    rw [← hold] at hterm
    by_cases hs : s = slot
    · subst hs
      simp only [true_and, if_true] at hterm ⊢
      split_ifs at hterm ⊢ <;> omega
    · simp only [hs, false_and, if_false]
      omega

/-- Refreshing sessions sets their masks from `tcnt` and touches nothing but statistics. -/
theorem refreshAll_spec (es : List (P.Tch × Session)) (k : SoftSchedule P) (h : k.Stats) :
    let k' := es.foldl (fun k e => k.refreshTs e.1 e.2) k
    k'.Stats ∧ k'.grid = k.grid ∧ k'.tcnt = k.tcnt ∧ k'.overlap = k.overlap ∧
      k'.conflicts = k.conflicts ∧ k'.trackQuality = k.trackQuality ∧ k'.tloc = k.tloc ∧
      ∀ t s, k'.tsMask t s = if (t, s) ∈ es
        then Mask.ofPeriods fun p => decide (k.tcnt t (slotAt s p) > 0) else k.tsMask t s := by
  induction es generalizing k with
  | nil => simp [h]
  | cons e rest ih =>
    obtain ⟨u, r⟩ := e
    obtain ⟨f1, f2, f3, f4, f5, f6⟩ :=
      setMask_frame k u r (Mask.ofPeriods fun p => decide (k.tcnt u (slotAt r p) > 0))
    obtain ⟨h1, h2, h3, h4, h5, h6, h7, h8⟩ := ih (k.refreshTs u r) (setMask_stats u r _ h)
    refine ⟨h1, h2.trans f1, h3.trans f2, h4.trans f3, h5.trans f4, h6.trans f5, h7.trans f6,
      fun t s => (h8 t s).trans ?_⟩
    have htcnt : (k.refreshTs u r).tcnt = k.tcnt := f2
    simp only [htcnt]
    rw [refreshTs, setMask_tsMask, set2_apply]
    by_cases hin : (t, s) ∈ rest
    · simp [hin]
    · by_cases he : t = u ∧ s = r
      · rw [he.1, he.2]
        simp
      · simp [hin, he]

theorem enableQualityTracking_inv (h : k.Inv) : k.enableQualityTracking.Inv := by
  have hzero : ({ k with
      ts := fun _ _ => ⟨0, -1, -1⟩, tsMask := fun _ _ => 0, tDaySessions := fun _ _ => 0,
      qSingleton := 0, qGap2 := 0, qGap1 := 0, qSessions := 0, qDays := 0,
      trackQuality := true } : SoftSchedule P).Stats :=
    (Inv.init P).kept.stats.of_eq rfl rfl rfl rfl
  obtain ⟨h1, h2, h3, h4, h5, h6, h7, h8⟩ :=
    refreshAll_spec (P.allTeachers.product allSessions) _ hzero
  change k.enableQualityTracking.Stats at h1
  change k.enableQualityTracking.grid = k.grid at h2
  change k.enableQualityTracking.tcnt = k.tcnt at h3
  change k.enableQualityTracking.overlap = k.overlap at h4
  change k.enableQualityTracking.conflicts = k.conflicts at h5
  change k.enableQualityTracking.tloc = k.tloc at h7
  refine ⟨⟨?_, ?_, fun _ t s p => ?_, h1⟩, ?_, ?_⟩
  · rw [h4, h3]
    exact h.kept.overlap
  · rw [h5, h3]
    exact h.kept.conflicts
  · have hin : (t, s) ∈ P.allTeachers.product allSessions :=
      List.mem_product.mpr ⟨List.mem_finRange t, mem_allSessions s⟩
    have hm := h8 t s
    rw [if_pos hin] at hm
    change k.enableQualityTracking.tsMask t s = _ at hm
    rw [hm, Mask.has_ofPeriods, h3]
  · rw [h2, h3]
    exact h.tcnt
  · rw [h2, h7]
    exact h.places

theorem inv_step (h : k.Inv) (edit : Edit P) : (k.step edit).Inv := by
  cases edit with
  | setCell c slot ai => exact setCell_inv h c slot ai
  | enableQualityTracking => exact enableQualityTracking_inv h

theorem inv_run (P : Problem) (edits : List (Edit P)) :
    (edits.foldl step (SoftSchedule.init P)).Inv :=
  (Transition.Run.ofFn_foldl step _ edits).invariant
    (fun {k a k'} hk hst => by
      subst hst
      exact inv_step hk a) (Inv.init P)

end SoftSchedule

end TkbCherry.Engine
