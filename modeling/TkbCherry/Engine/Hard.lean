import TkbCherry.Engine.Stats
import TkbCherry.Engine.TimeLimits

/-!
# Hard validity under accepted changes

`full_recheck` as a property of the grid, and what `_check_scopes` leaves open when it
accepts a change list: it runs before `_refresh_ts`, so the rules on numbers of lessons
were checked on the counts before the change, and the weekly rules on the rule of the
touched assignment instead of the first one of its class and subject.
-/

namespace TkbCherry.Engine

set_option autoImplicit false

open Array2

namespace Problem
variable (P : Problem)

/-- The numbers of lessons per session of a teacher, counted on the grid. -/
def lessonCounts (grid : P.Grid) (t : P.Tch) (ses : Session) : Int := (P.windowOf grid t ses).count

/-- Every scope of `full_recheck` passes on the grid. -/
structure Hard (deferMin : Bool) (grid : P.Grid) : Prop where
  session : ∀ c ses, P.checkClassSession grid c ses = none
  week : ∀ c si, P.checkClassSubjectWeek grid c si none deferMin = none
  day : ∀ c d, P.checkClassDay grid c d = none
  teacher : ∀ t, P.checkTeacher deferMin t (P.lessonOf grid t) (P.lessonCounts grid t) allDays =
    none
  limits : ∀ rule ∈ P.timeLimitRules, ∀ slot, P.timeLimitSlotReason grid rule slot = none ∧
    P.timeLimitSessionReason grid rule (sessionOfSlot slot) = none

/-- The rules of a teacher on numbers of lessons, days and sessions. -/
def CountRulesHold (counts : Session → Int) (t : P.Tch) : Prop :=
  ∀ rule, P.teacherRules t = some rule →
    (∀ d, countDayReason rule counts d = none) ∧ totalsReason rule counts = none

theorem checkTeacher_eq_none_iff (deferMin : Bool) (t : P.Tch) (row : Slot → Option P.Asg)
    (counts : Session → Int) (days : List Day) :
    P.checkTeacher deferMin t row counts days = none ↔
      (∀ slot ∈ P.teacherMust t, deferMin = false → row slot ≠ none) ∧
      ∀ rule, P.teacherRules t = some rule →
        (∀ d ∈ days, countDayReason rule counts d = none ∧ P.slotDayReason t rule row d = none) ∧
        totalsReason rule counts = none ∧
        ∀ e ∈ rule.classPeriodCaps, ∀ d ∈ days, P.classCapReason e.1 e.2.1 e.2.2 row d = none := by
  have hmust : firstReason ((P.teacherMust t).map fun slot =>
      (!deferMin && (row slot).isNone, "must_teach")) = none ↔
        ∀ slot ∈ P.teacherMust t, deferMin = false → row slot ≠ none := by
    rw [firstReason_eq_none_iff]
    constructor
    · intro h slot hs hd hr
      have h1 := h _ (List.mem_map.mpr ⟨slot, hs, rfl⟩)
      simp [hd, hr] at h1
    · rintro h e he
      obtain ⟨slot, hs, rfl⟩ := List.mem_map.mp he
      cases deferMin with
      | true => rfl
      | false => simpa [Option.isSome_iff_ne_none] using h slot hs rfl
  rw [checkTeacher, Option.or_eq_none_iff, hmust]
  cases P.teacherRules t with
  | none => simp
  | some rule =>
    simp only [Option.bind_some, Option.or_eq_none_iff, List.findSome?_eq_none_iff,
      Option.some.injEq, forall_eq', and_assoc]

/-! ### What the teacher checks read -/

section Rows
variable {P} {row row' : Slot → Option P.Asg} {d : Day}

theorem slotDayReason_congr (heq : ∀ slot, dayOf (sessionOfSlot slot) = d → row slot = row' slot)
    (t : P.Tch) (rule : TeacherRule) :
    P.slotDayReason t rule row d = P.slotDayReason t rule row' d := by
  have hm : ∀ p, row (slotAt (morning d) p) = row' (slotAt (morning d) p) :=
    fun p => heq _ (by simp)
  have ha : ∀ p, row (slotAt (afternoon d) p) = row' (slotAt (afternoon d) p) :=
    fun p => heq _ (by simp)
  simp only [slotDayReason, locEntries, List.map_cons, List.map_nil, hm, ha]

theorem classCapReason_congr (heq : ∀ slot, dayOf (sessionOfSlot slot) = d → row slot = row' slot)
    (subjectSet : Option (List String)) (perSession perDay : Int) :
    P.classCapReason subjectSet perSession perDay row d =
      P.classCapReason subjectSet perSession perDay row' d := by
  have hm : ∀ p, row (slotAt (morning d) p) = row' (slotAt (morning d) p) :=
    fun p => heq _ (by simp)
  have ha : ∀ p, row (slotAt (afternoon d) p) = row' (slotAt (afternoon d) p) :=
    fun p => heq _ (by simp)
  simp only [classCapReason, cappedClasses, hm, ha]

end Rows

theorem weekReason_nil (rule : SubjectRule) (deferMin : Bool) :
    weekReason rule [] deferMin = none := rfl

theorem checkClassSubjectWeek_absent {grid : P.Grid} {c : P.Cls} {si : P.Sub}
    (h : ∀ slot, (grid c slot).map P.aSubject ≠ some si) (hint : Option P.Asg) (deferMin : Bool) :
    P.checkClassSubjectWeek grid c si hint deferMin = none := by
  have hnil : P.classSubjectSessions grid c si = [] := by
    simp only [classSubjectSessions, List.filterMap_eq_nil_iff]
    intro s _
    have hf : (allPeriods.filter fun p =>
        decide ((grid c (slotAt s p)).map P.aSubject = some si)) = [] := by
      rw [List.filter_eq_nil_iff]
      intro p _
      simp only [decide_eq_true_eq]
      exact h _
    exact if_pos (by rw [hf]; rfl)
  rw [checkClassSubjectWeek, hnil]
  cases ((hint.or (P.firstAssignment c si)).bind P.aRule) with
  | none => rfl
  | some rule => rfl

/-- The weekly check depends on the hint through its rule only. -/
theorem checkClassSubjectWeek_hint {c : P.Cls} {si : P.Sub} {hint hint' : Option P.Asg}
    (h : (hint.or (P.firstAssignment c si)).bind P.aRule =
      (hint'.or (P.firstAssignment c si)).bind P.aRule) (grid : P.Grid) (deferMin : Bool) :
    P.checkClassSubjectWeek grid c si hint deferMin =
      P.checkClassSubjectWeek grid c si hint' deferMin := by
  simp only [checkClassSubjectWeek, h]

theorem checkClassSubjectWeek_congr {g h : P.Grid} {c : P.Cls} {si : P.Sub}
    (heq : ∀ slot, (g c slot).map P.aSubject = some si ↔ (h c slot).map P.aSubject = some si)
    (hint : Option P.Asg) (deferMin : Bool) :
    P.checkClassSubjectWeek g c si hint deferMin = P.checkClassSubjectWeek h c si hint deferMin := by
  simp only [checkClassSubjectWeek, P.classSubjectSessions_congr heq]

end Problem

namespace State
variable {P : Problem} {s : State P}

/-- `full_recheck` on consistent caches is a property of the grid. -/
theorem fullRecheck_iff (h : Consistent s) :
    s.fullRecheck = true ↔ P.Hard s.deferMin s.grid := by
  have hrow : ∀ t, s.checkTeacherAt t allDays =
      P.checkTeacher s.deferMin t (P.lessonOf s.grid t) (P.lessonCounts s.grid t) allDays := by
    intro t
    have hts : s.teacherSlot t = P.lessonOf s.grid t := funext (h.recount.teacherSlot t)
    have hcount : (fun ses => (s.ts t ses).count) = P.lessonCounts s.grid t := by
      funext ses
      rw [h.recount.ts t ses]
      rfl
    rw [checkTeacherAt, hts, hcount]
  have hweek : ∀ c, (((allSlots.filterMap (s.grid c)).map P.aSubject).eraseDups.findSome? fun si =>
      P.checkClassSubjectWeek s.grid c si none s.deferMin) = none ↔
        ∀ si, P.checkClassSubjectWeek s.grid c si none s.deferMin = none := by
    intro c
    rw [List.findSome?_eq_none_iff]
    refine ⟨fun hw si => ?_, fun hw si _ => hw si⟩
    by_cases hin : ∃ slot, (s.grid c slot).map P.aSubject = some si
    · obtain ⟨slot, hs⟩ := hin
      apply hw
      obtain ⟨ai, hai, rfl⟩ := Option.map_eq_some_iff.mp hs
      rw [List.mem_eraseDups, List.mem_map]
      exact ⟨ai, List.mem_filterMap.mpr ⟨slot, mem_allSlots slot, hai⟩, rfl⟩
    · exact P.checkClassSubjectWeek_absent (fun slot hs => hin ⟨slot, hs⟩) none s.deferMin
  rw [fullRecheck, Option.isNone_iff_eq_none]
  simp only [fullRecheckReason, Option.or_eq_none_iff, Problem.checkTimeLimits_eq_none_iff, hrow]
  simp only [List.findSome?_eq_none_iff, Option.or_eq_none_iff, hweek]
  constructor
  · rintro ⟨⟨hcls, htch⟩, hlim⟩
    exact
      { session := fun c ses => (hcls c (List.mem_finRange c)).1.1 ses (mem_allSessions ses)
        week := fun c => (hcls c (List.mem_finRange c)).1.2
        day := fun c d => (hcls c (List.mem_finRange c)).2 d (mem_allDays d)
        teacher := fun t => htch t (List.mem_finRange t)
        limits := fun rule hr slot => hlim rule hr slot (mem_allSlots slot) }
  · intro hh
    exact ⟨⟨fun c _ => ⟨⟨fun ses _ => hh.session c ses, hh.week c⟩, fun d _ => hh.day c d⟩,
      fun t _ => hh.teacher t⟩, fun rule hr slot _ => hh.limits rule hr slot⟩

end State

/-! ### Change lists -/

/-- The lessons before and after the change at the changed cells, with their class. -/
def State.touchedLessons {P : Problem} (s : State P) (changes : List (Change P)) :
    List (P.Cls × P.Asg) :=
  changes.flatMap fun e =>
    ((s.grid e.1 e.2.1).toList ++ e.2.2.toList).map fun ai => (e.1, ai)

namespace Cells
variable {P : Problem}

/-- The lessons a journal names are those of the changed cells. -/
theorem applyChanges_lessons {locked : P.Cls → Slot → Bool} (changes : List (Change P))
    {k k' : Cells P} {journal journal' : List (Entry P)} {L : P.Cls → Slot → P.Asg → Prop}
    (hk : k.Sound) (h : k.applyChanges locked changes journal = (k', .ok journal'))
    (hgrid : ∀ e ∈ changes, ∀ ai, k.grid e.1 e.2.1 = some ai → L e.1 e.2.1 ai)
    (hnew : ∀ e ∈ changes, ∀ ai, e.2.2 = some ai → L e.1 e.2.1 ai)
    (hj : ∀ e ∈ journal, ∀ ai, (e.old = some ai ∨ e.new = some ai) → L e.cls e.slot ai) :
    ∀ e ∈ journal', ∀ ai, (e.old = some ai ∨ e.new = some ai) → L e.cls e.slot ai := by
  induction changes generalizing k journal with
  | nil =>
    simp only [applyChanges, Prod.mk.injEq, Except.ok.injEq] at h
    rw [← h.2]
    exact hj
  | cons change rest ih =>
    obtain ⟨c, slot, new⟩ := change
    rw [applyChanges] at h
    split at h
    · simp at h
    split at h
    · simp at h
    rename_i hna
    have hcell : ∀ ai, new = some ai → P.aClass ai = c ∧ P.aAllowed ai slot = true := by
      rintro ai rfl
      simpa using hna
    have hrest : ∀ e ∈ rest, ∀ ai, e.2.2 = some ai → L e.1 e.2.1 ai :=
      fun e he => hnew e (List.mem_cons_of_mem _ he)
    rcases writeCell_cases hk c slot new journal hcell with ⟨_, hw⟩ | ⟨_, hf, hw⟩ | hw
    · simp only [hw] at h
      exact ih hk h (fun e he => hgrid e (List.mem_cons_of_mem _ he)) hrest hj
    · simp only [hw] at h
      refine ih (hk.put hf) h (fun e he ai hai => ?_) hrest (fun e he => ?_)
      · rw [put_grid, set2_apply] at hai
        split at hai
        · rename_i hcs
          rw [hcs.1, hcs.2]
          exact hnew _ List.mem_cons_self ai hai
        · exact hgrid e (List.mem_cons_of_mem _ he) ai hai
      · rcases List.mem_cons.mp he with rfl | he
        · rintro ai (hold | hn)
          · exact hgrid _ List.mem_cons_self ai hold
          · exact hnew _ List.mem_cons_self ai hn
        · exact hj e he
    · simp [hw] at h

namespace Trail
variable {k₀ k : Cells P} {journal : List (Entry P)}

/-- A cell that ends with another lesson than it began with is named with both of them. -/
theorem named_of_ne (h : Trail k₀ journal k) {c : P.Cls} {slot : Slot}
    (hne : k.grid c slot ≠ k₀.grid c slot) :
    (∃ e ∈ journal, e.cls = c ∧ e.slot = slot ∧ e.new = k.grid c slot) ∧
    ∃ e ∈ journal, e.cls = c ∧ e.slot = slot ∧ e.old = k₀.grid c slot := by
  induction h with
  | nil => exact absurd rfl hne
  | @snoc journal k e _ _ hold _ _ ih =>
    by_cases hc : c = e.cls ∧ slot = e.slot
    · obtain ⟨rfl, rfl⟩ := hc
      refine ⟨⟨e, List.mem_cons_self, rfl, rfl, by rw [put_grid, set2_self]⟩, ?_⟩
      by_cases hsame : k.grid e.cls e.slot = k₀.grid e.cls e.slot
      · exact ⟨e, List.mem_cons_self, rfl, rfl, hold.trans hsame⟩
      · obtain ⟨e', he', h'⟩ := (ih hsame).2
        exact ⟨e', List.mem_cons_of_mem _ he', h'⟩
    · rw [put_grid, set2_of_ne hc] at hne ⊢
      obtain ⟨⟨e₁, he₁, h₁⟩, e₂, he₂, h₂⟩ := ih hne
      exact ⟨⟨e₁, List.mem_cons_of_mem _ he₁, h₁⟩, e₂, List.mem_cons_of_mem _ he₂, h₂⟩

end Trail

end Cells

/-! ### Scopes -/

/-- The days on which a journal names the teacher. -/
def State.touchedDays {P : Problem} (journal : List (Entry P)) (t : P.Tch) : List Day :=
  (journal.filter fun e => decide (t ∈ State.entryTeachers e)).map fun e =>
    dayOf (sessionOfSlot e.slot)

/-- The scopes of a journal pass on the written state. -/
structure ScopesPass {P : Problem} (w : State P) (journal : List (Entry P)) : Prop where
  session : ∀ e ∈ journal, P.checkClassSession w.grid e.cls (sessionOfSlot e.slot) = none
  week : ∀ e ∈ journal, ∀ ai, (e.old = some ai ∨ e.new = some ai) →
    P.checkClassSubjectWeek w.grid e.cls (P.aSubject ai) (some ai) w.deferMin = none
  day : ∀ e ∈ journal, P.checkClassDay w.grid e.cls (dayOf (sessionOfSlot e.slot)) = none
  teacher : ∀ e ∈ journal, ∀ t ∈ State.entryTeachers e,
    w.checkTeacherAt t (State.touchedDays journal t) = none
  limits : ∀ rule ∈ P.timeLimitRules, ∀ e ∈ journal,
    P.timeLimitSlotReason w.grid rule e.slot = none ∧
    P.timeLimitSessionReason w.grid rule (sessionOfSlot e.slot) = none

theorem State.scopesPass_of_none {P : Problem} {w : State P} {journal : List (Entry P)}
    (h : w.checkScopes journal = none) : ScopesPass w journal := by
  simp only [checkScopes, Option.or_eq_none_iff, List.findSome?_eq_none_iff,
    Problem.checkTimeLimits_eq_none_iff] at h
  obtain ⟨⟨hses, hweek⟩, ⟨hday, htch⟩, hlim⟩ := h
  refine ⟨hses, fun e he ai hai => ?_, hday, fun e he t ht => ?_, fun rule hr e he => ?_⟩
  · rcases hai with hai | hai
    · simpa [hai] using hweek e he e.old (by simp)
    · simpa [hai] using hweek e he e.new (by simp)
  · refine htch (t, touchedDays journal t) (List.mem_map.mpr ⟨t, ?_, rfl⟩)
    rw [List.mem_eraseDups, List.mem_flatMap]
    exact ⟨e, he, ht⟩
  · exact hlim rule hr e.slot (List.mem_map.mpr ⟨e, he, rfl⟩)

section Coverage
variable {P : Problem} {w : State P} {k₀ : Cells P} {journal : List (Entry P)}

/-- Untouched scopes pass as before the change, touched ones as checked. -/
theorem session_covered (htrail : Cells.Trail k₀ journal w.toCells)
    (hpass : ScopesPass w journal) (hard : P.Hard w.deferMin k₀.grid) (c : P.Cls) (ses : Session) :
    P.checkClassSession w.grid c ses = none := by
  by_cases hin : ∃ e ∈ journal, e.cls = c ∧ sessionOfSlot e.slot = ses
  · obtain ⟨e, he, rfl, rfl⟩ := hin
    exact hpass.session e he
  · rw [← hard.session c ses]
    refine P.checkClassSession_congr fun slot hslot => htrail.grid_eq ?_
    rintro e he ⟨rfl, rfl⟩
    exact hin ⟨e, he, rfl, hslot⟩

theorem day_covered (htrail : Cells.Trail k₀ journal w.toCells) (hpass : ScopesPass w journal)
    (hard : P.Hard w.deferMin k₀.grid) (c : P.Cls) (d : Day) :
    P.checkClassDay w.grid c d = none := by
  by_cases hin : ∃ e ∈ journal, e.cls = c ∧ dayOf (sessionOfSlot e.slot) = d
  · obtain ⟨e, he, rfl, rfl⟩ := hin
    exact hpass.day e he
  · rw [← hard.day c d]
    refine P.checkClassDay_congr fun slot hslot => htrail.grid_eq ?_
    rintro e he ⟨rfl, rfl⟩
    exact hin ⟨e, he, rfl, hslot⟩

theorem limits_covered (htrail : Cells.Trail k₀ journal w.toCells) (hpass : ScopesPass w journal)
    (hard : P.Hard w.deferMin k₀.grid) {rule : Json} (hr : rule ∈ P.timeLimitRules) (slot : Slot) :
    P.timeLimitSlotReason w.grid rule slot = none ∧
      P.timeLimitSessionReason w.grid rule (sessionOfSlot slot) = none := by
  constructor
  · by_cases hin : ∃ e ∈ journal, e.slot = slot
    · obtain ⟨e, he, rfl⟩ := hin
      exact (hpass.limits rule hr e he).1
    · rw [← (hard.limits rule hr slot).1]
      refine P.timeLimitSlotReason_congr (fun c => htrail.grid_eq ?_) rule
      rintro e he ⟨-, rfl⟩
      exact hin ⟨e, he, rfl⟩
  · by_cases hin : ∃ e ∈ journal, sessionOfSlot e.slot = sessionOfSlot slot
    · obtain ⟨e, he, hs⟩ := hin
      rw [← hs]
      exact (hpass.limits rule hr e he).2
    · rw [← (hard.limits rule hr slot).2]
      refine P.timeLimitSessionReason_congr (fun slot' hslot c => htrail.grid_eq ?_) rule
      rintro e he ⟨-, rfl⟩
      exact hin ⟨e, he, hslot⟩

/-- A touched subject passes under the rule of its first assignment when that rule is the
checked one or `hfirst` holds; an untouched one as before. -/
theorem week_covered (htrail : Cells.Trail k₀ journal w.toCells) (hpass : ScopesPass w journal)
    (hard : P.Hard w.deferMin k₀.grid)
    (hfirst : ∀ e ∈ journal, ∀ ai, (e.old = some ai ∨ e.new = some ai) →
      (P.firstAssignment e.cls (P.aSubject ai)).bind P.aRule ≠ P.aRule ai →
      P.checkClassSubjectWeek w.grid e.cls (P.aSubject ai) none w.deferMin = none)
    (c : P.Cls) (si : P.Sub) :
    P.checkClassSubjectWeek w.grid c si none w.deferMin = none := by
  by_cases hin : ∃ e ∈ journal, e.cls = c ∧ ∃ ai, (e.old = some ai ∨ e.new = some ai) ∧
      P.aSubject ai = si
  · obtain ⟨e, he, rfl, ai, hai, rfl⟩ := hin
    by_cases hrule : (P.firstAssignment e.cls (P.aSubject ai)).bind P.aRule = P.aRule ai
    · rw [← hpass.week e he ai hai]
      exact P.checkClassSubjectWeek_hint (by simpa using hrule) w.grid w.deferMin
    · exact hfirst e he ai hai hrule
  · rw [← hard.week c si]
    refine P.checkClassSubjectWeek_congr (fun slot => ?_) none w.deferMin
    by_cases hne : w.grid c slot = k₀.grid c slot
    · rw [hne]
    -- the cell changed, so the journal names both lessons and neither is of this subject
    obtain ⟨⟨e, he, hec, -, hnew⟩, e', he', hec', -, hold⟩ := htrail.named_of_ne hne
    constructor
    · intro h
      obtain ⟨ai, hai, hsi⟩ := Option.map_eq_some_iff.mp h
      exact absurd ⟨e, he, hec, ai, Or.inr (hnew.trans hai), hsi⟩ hin
    · intro h
      obtain ⟨ai, hai, hsi⟩ := Option.map_eq_some_iff.mp h
      exact absurd ⟨e', he', hec', ai, Or.inl (hold.trans hai), hsi⟩ hin

theorem teacher_covered (htrail : Cells.Trail k₀ journal w.toCells) (hpass : ScopesPass w journal)
    (hk₀ : k₀.Sound) (hk : w.toCells.Sound) (hard : P.Hard w.deferMin k₀.grid)
    (hcount : ∀ e ∈ journal, ∀ t ∈ State.entryTeachers e,
      P.CountRulesHold (P.lessonCounts w.grid t) t) (t : P.Tch) :
    P.checkTeacher w.deferMin t (P.lessonOf w.grid t) (P.lessonCounts w.grid t) allDays = none := by
  have hrow : w.teacherSlot t = P.lessonOf w.grid t := funext (hk.teacherSlot_eq_lessonOf t)
  have hrow₀ : k₀.teacherSlot t = P.lessonOf k₀.grid t := funext (hk₀.teacherSlot_eq_lessonOf t)
  have hold := hard.teacher t
  rw [← hrow₀] at hold
  by_cases hin : ∃ e ∈ journal, t ∈ State.entryTeachers e
  · obtain ⟨e, he, ht⟩ := hin
    have hnew := hpass.teacher e he t ht
    rw [State.checkTeacherAt, Problem.checkTeacher_eq_none_iff] at hnew
    rw [Problem.checkTeacher_eq_none_iff] at hold ⊢
    rw [← hrow]
    refine ⟨hnew.1, fun rule hrule => ?_⟩
    obtain ⟨hdays, -, hcaps⟩ := hnew.2 rule hrule
    obtain ⟨hdays₀, -, hcaps₀⟩ := hold.2 rule hrule
    obtain ⟨hc, htot⟩ := hcount e he t ht rule hrule
    -- on a day the journal does not name, the row of the teacher is the old one
    have hrest : ∀ d, d ∉ State.touchedDays journal t → ∀ slot,
        dayOf (sessionOfSlot slot) = d → w.teacherSlot t slot = k₀.teacherSlot t slot := by
      rintro d hd slot rfl
      refine htrail.teacherSlot_eq ?_
      rintro e' he' ⟨ht', rfl⟩
      exact hd (List.mem_map.mpr ⟨e', List.mem_filter.mpr ⟨he', decide_eq_true ht'⟩, rfl⟩)
    refine ⟨fun d hd => ⟨hc d, ?_⟩, htot, fun cap hcap d hd => ?_⟩
    · by_cases hday : d ∈ State.touchedDays journal t
      · exact (hdays d hday).2
      · rw [Problem.slotDayReason_congr (hrest d hday)]
        exact (hdays₀ d hd).2
    · by_cases hday : d ∈ State.touchedDays journal t
      · exact hcaps cap hcap d hday
      · rw [Problem.classCapReason_congr (hrest d hday)]
        exact hcaps₀ cap hcap d hd
  · have hsame : w.teacherSlot t = k₀.teacherSlot t :=
      funext fun slot => htrail.teacherSlot_eq fun e he hh => hin ⟨e, he, hh.1⟩
    have hwin : P.lessonCounts w.grid t = P.lessonCounts k₀.grid t := by
      funext ses
      simp only [Problem.lessonCounts, Problem.windowOf, ← hrow, ← hrow₀, hsame]
    rw [← hrow, hsame, hwin]
    exact hold

end Coverage

/-! ### One accepted change list -/

/-- What an accepted change list must meet beyond `_check_scopes`: the rules of the touched
teachers on numbers of lessons, counted after the change, and the weekly rule of the first
assignment of a touched class and subject where it is not the rule of the touched one. -/
structure Fits {P : Problem} (s : State P) (changes : List (Change P)) : Prop where
  counts : ∀ e ∈ s.touchedLessons changes, ∀ t ∈ P.aTeachers e.2,
    P.CountRulesHold (P.lessonCounts (P.overlay s.grid changes) t) t
  weeks : ∀ e ∈ s.touchedLessons changes,
    (P.firstAssignment e.1 (P.aSubject e.2)).bind P.aRule ≠ P.aRule e.2 →
    P.checkClassSubjectWeek (P.overlay s.grid changes) e.1 (P.aSubject e.2) none s.deferMin = none

namespace State
variable {P : Problem} {s s' : State P} {changes : List (Change P)} {journal : List (Entry P)}

/-- The journal of an accepted change list, with everything its acceptance says. -/
theorem accepted (h : Consistent s) (happ : s.apply changes true = (s', some journal)) :
    s'.grid = P.overlay s.grid changes ∧ s'.deferMin = s.deferMin ∧ Consistent s' ∧
    (∀ e ∈ journal, ∀ ai, (e.old = some ai ∨ e.new = some ai) →
      (e.cls, ai) ∈ s.touchedLessons changes) ∧
    Cells.Trail s.toCells journal s'.toCells ∧
    ∃ w : State P, w.toCells = s'.toCells ∧ w.deferMin = s.deferMin ∧ ScopesPass w journal := by
  rcases apply_cases h changes true with ⟨reason, heq⟩ | ⟨s₁, j₁, heq, _, hdefer, htrail, hs'⟩
  · simp [happ] at heq
  rw [happ] at heq
  simp only [Prod.mk.injEq, Option.some.injEq] at heq
  obtain ⟨rfl, rfl⟩ := heq
  rcases Cells.applyChanges_trail s.locked changes (@Cells.Trail.nil P s.toCells) h.sound with
    ⟨k, j, hchg, _, _⟩ | ⟨reason, hchg⟩
  swap
  · simp [apply, hchg] at happ
  have hlessons := Cells.applyChanges_lessons changes
    (L := fun c _ ai => (c, ai) ∈ s.touchedLessons changes) h.sound hchg
    (fun e he ai hai => List.mem_flatMap.mpr ⟨e, he, List.mem_map.mpr
      ⟨ai, List.mem_append.mpr (Or.inl (Option.mem_toList.mpr hai)), rfl⟩⟩)
    (fun e he ai hai => List.mem_flatMap.mpr ⟨e, he, List.mem_map.mpr
      ⟨ai, List.mem_append.mpr (Or.inr (Option.mem_toList.mpr hai)), rfl⟩⟩)
    (fun e he => absurd he List.not_mem_nil)
  have hgrid := apply_grid h happ
  by_cases hne : j = []
  · subst hne
    have hs : s'.toCells = k ∧ journal = [] := by
      simp only [apply, hchg, Prod.mk.injEq, Option.some.injEq] at happ
      exact ⟨by rw [← happ.1], happ.2.symm⟩
    obtain ⟨hcells, rfl⟩ := hs
    refine ⟨hgrid, hdefer, hs', by simp, htrail, s', rfl, hdefer, ?_⟩
    constructor <;> simp
  · cases hchk : ({ s with toCells := k } : State P).checkScopes j with
    | some reason =>
      have href := @apply_of_reason P s changes true _ _ _ hchg hne (by simpa using hchk)
      simp [href] at happ
    | none =>
      have hok := @apply_of_checked P s changes true _ _ hchg hne (by simpa using hchk)
      rw [hok] at happ
      simp only [Prod.mk.injEq, Option.some.injEq] at happ
      obtain ⟨hs, rfl⟩ := happ
      have hcells : k = s'.toCells := by
        rw [← hs, refreshAll_toCells]
      refine ⟨hgrid, hdefer, hs', hlessons, htrail,
        { s with toCells := k }, hcells, rfl, scopesPass_of_none hchk⟩

/-- An accepted change list keeps a valid grid valid exactly when it fits. -/
theorem hard_apply_iff (h : Consistent s) (hard : P.Hard s.deferMin s.grid)
    (happ : s.apply changes true = (s', some journal)) :
    P.Hard s'.deferMin s'.grid ↔ Fits s changes := by
  obtain ⟨hgrid, hdefer, hs', hlessons, htrail, w, hcells, hwd, hpass⟩ := accepted h happ
  rw [hdefer]
  constructor
  · intro hnew
    constructor
    · intro e he t ht rule hrule
      have hch := (P.checkTeacher_eq_none_iff _ _ _ _ _).mp (hnew.teacher t)
      obtain ⟨hdays, htot, -⟩ := hch.2 rule hrule
      rw [← hgrid]
      exact ⟨fun d => (hdays d (mem_allDays d)).1, htot⟩
    · intro e _ _
      rw [← hgrid]
      exact hnew.week e.1 (P.aSubject e.2)
  · intro hfit
    rw [← hcells] at htrail hgrid ⊢
    have hk : w.toCells.Sound := hcells ▸ hs'.sound
    rw [← hwd] at hard ⊢
    refine
      { session := session_covered htrail hpass hard
        week := week_covered htrail hpass hard fun e he ai hai hrule => ?_
        day := day_covered htrail hpass hard
        teacher := teacher_covered htrail hpass h.sound hk hard fun e he t ht => ?_
        limits := fun rule hr slot => limits_covered htrail hpass hard hr slot }
    · rw [hgrid, hwd]
      exact hfit.weeks _ (hlessons e he ai hai) hrule
    · have hlesson : ∃ ai, (e.old = some ai ∨ e.new = some ai) ∧ t ∈ P.aTeachers ai := by
        rcases List.mem_append.mp ht with ht | ht
        · cases ho : e.old with
          | none => simp [ho] at ht
          | some ai => exact ⟨ai, Or.inl rfl, by simpa [ho] using ht⟩
        · cases hn : e.new with
          | none => simp [hn] at ht
          | some ai => exact ⟨ai, Or.inr rfl, by simpa [hn] using ht⟩
      obtain ⟨ai, hai, hta⟩ := hlesson
      rw [hgrid]
      exact hfit.counts _ (hlessons e he ai hai) t hta

end State

end TkbCherry.Engine
