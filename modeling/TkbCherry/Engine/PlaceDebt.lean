import TkbCherry.Engine.PlaceJudge
import TkbCherry.Engine.PlaceNames

/-!
# Place debt on both sides

A session of a teacher holds the same places in the slot table of the engine and in the exported
lessons, so the two counts agree exactly when the two truth tests read the place flags alike.
-/

namespace TkbCherry.Engine

set_option autoImplicit false

variable {py : Python}

namespace Input
variable (x : Input py)

/-- The cells of a teacher in a session. -/
def sessionCells (s : State x.problem) (t : x.problem.Tch) (ses : Session) :
    List (x.problem.Cls × Slot) :=
  allPeriods.filterMap fun p => (s.teacherSlot t (slotAt ses p)).map fun ai =>
    (x.problem.aClass ai, slotAt ses p)

/-- A teacher session as the validator names it. -/
def sessionName (t : x.problem.Tch) (ses : Session) : SessionOf :=
  (x.problem.teacherName t, (dayOf ses).val + 2, partName (partOf ses))

theorem sessionOfSlot_eq_iff (slot : Slot) (ses : Session) :
    sessionOfSlot slot = ses ↔ (dayOf (sessionOfSlot slot)).val + 2 = (dayOf ses).val + 2 ∧
      partName (partOf (sessionOfSlot slot)) = partName (partOf ses) := by
  constructor
  · rintro rfl
    exact ⟨rfl, rfl⟩
  · rintro ⟨hday, hpart⟩
    have hparts : ∀ a b : Fin 2, partName a = partName b → a = b := by decide
    have hp := Fin.ext_iff.mp (hparts _ _ hpart)
    apply Fin.ext
    simp only [dayOf, partOf] at hday hp
    omega

def cellLesson (grid : x.problem.Grid) (cell : x.problem.Cls × Slot) : Option Lesson :=
  (grid cell.1 cell.2).map (x.lessonAt cell.1 cell.2)

/-- The cells whose lessons the validator files under a session. -/
def filed (grid : x.problem.Grid) (t : x.problem.Tch) (ses : Session)
    (cell : x.problem.Cls × Slot) : Bool :=
  (grid cell.1 cell.2).any fun ai => decide (t ∈ x.problem.aTeachers ai) &&
    decide (sessionOfSlot cell.2 = ses)

theorem sessionItems_eq (grid : x.problem.Grid) (t : x.problem.Tch) (ses : Session) :
    sessionItems py (x.lessons grid) (x.sessionName t ses) =
      ((x.problem.allClasses.product allSlots).filter (x.filed grid t ses)).filterMap
        (x.cellLesson grid) := by
  unfold sessionItems lessons
  rw [List.filter_filterMap, List.filterMap_filter]
  apply List.filterMap_congr
  rintro ⟨c, slot⟩ _
  cases hcell : grid c slot with
  | none => simp [filed, hcell]
  | some ai =>
    have hkey : ((x.sessionName t ses).1 ∈ teacherMembers py (x.lessonAt c slot ai).teacher ∧
          (x.lessonAt c slot ai).day = (x.sessionName t ses).2.1 ∧
          (x.lessonAt c slot ai).session = (x.sessionName t ses).2.2) ↔
        t ∈ x.problem.aTeachers ai ∧ sessionOfSlot slot = ses := by
      rw [x.mem_teachersOf ai t, sessionOfSlot_eq_iff slot ses, ← x.teacherMembers_label ai]
      rfl
    simp only [filed, cellLesson, hcell, Option.map_some, Option.any_some]
    rw [Option.filter_some, decide_eq_decide.mpr hkey, Bool.decide_and]

/-- The lessons filed under a session are those the slot table holds. -/
theorem filed_perm {s : State x.problem} (hs : s.toCells.Sound) (t : x.problem.Tch) (ses : Session) :
    ((x.problem.allClasses.product allSlots).filter (x.filed s.grid t ses)).Perm
      (x.sessionCells s t ses) := by
  have hcells : (x.problem.allClasses.product allSlots).Nodup :=
    List.Nodup.product (List.nodup_finRange _) (List.nodup_finRange _)
  have hinj : (x.sessionCells s t ses).Nodup := by
    refine List.Nodup.filterMap ?_ (List.nodup_finRange _)
    intro p q cell hp hq
    obtain ⟨ai, _, rfl⟩ := Option.map_eq_some_iff.mp hp
    obtain ⟨bi, _, heq⟩ := Option.map_eq_some_iff.mp hq
    have hslot : slotAt ses q = slotAt ses p := congrArg Prod.snd heq
    have hperiod := congrArg periodOfSlot hslot
    rw [periodOfSlot_slotAt, periodOfSlot_slotAt] at hperiod
    exact hperiod.symm
  rw [List.perm_ext_iff_of_nodup (hcells.filter _) hinj]
  rintro ⟨c, slot⟩
  rw [List.mem_filter, sessionCells, List.mem_filterMap]
  constructor
  · rintro ⟨_, hfiled⟩
    obtain ⟨ai, hai, htest⟩ := (Option.any_eq_true _ _).mp hfiled
    rw [Bool.and_eq_true, decide_eq_true_eq, decide_eq_true_eq] at htest
    have hclass : x.problem.aClass ai = c := (hs.cells c slot ai hai).1
    have hslot : slotAt ses (periodOfSlot slot) = slot := by
      rw [← htest.2, slotAt_session_period]
    refine ⟨periodOfSlot slot, mem_allPeriods _, Option.map_eq_some_iff.mpr ⟨ai, ?_, ?_⟩⟩
    · rw [hslot]
      exact (hs.owner t slot ai).mpr ⟨by rwa [hclass], htest.1⟩
    · rw [hslot, hclass]
  · rintro ⟨p, _, hp⟩
    obtain ⟨ai, hai, heq⟩ := Option.map_eq_some_iff.mp hp
    obtain ⟨hgrid, ht⟩ := (hs.owner t _ ai).mp hai
    cases heq
    refine ⟨List.mem_product.mpr ⟨List.mem_finRange _, mem_allSlots _⟩, ?_⟩
    simp [filed, hgrid, ht]

/-- The lesson of a teacher at one period of a session. -/
def heldAt (s : State x.problem) (t : x.problem.Tch) (ses : Session) (p : Period) : Option Lesson :=
  (s.teacherSlot t (slotAt ses p)).map fun ai =>
    x.lessonAt (x.problem.aClass ai) (slotAt ses p) ai

theorem heldAt_period {s : State x.problem} {t : x.problem.Tch} {ses : Session} {p : Period}
    {l : Lesson} (h : x.heldAt s t ses p = some l) : l.period = p.val + 1 := by
  obtain ⟨ai, _, rfl⟩ := Option.map_eq_some_iff.mp h
  simp only [lessonAt, periodOfSlot_slotAt]

theorem sessionCells_lessons {s : State x.problem} (hs : s.toCells.Sound) (t : x.problem.Tch)
    (ses : Session) : (x.sessionCells s t ses).filterMap (x.cellLesson s.grid) =
      allPeriods.filterMap (x.heldAt s t ses) := by
  rw [sessionCells, List.filterMap_filterMap]
  apply List.filterMap_congr
  intro p _
  cases hrow : s.teacherSlot t (slotAt ses p) with
  | none => simp [heldAt, hrow]
  | some ai =>
    obtain ⟨hgrid, _⟩ := (hs.owner t _ ai).mp hrow
    simp [heldAt, hrow, cellLesson, hgrid]

/-- The exported lessons of a session in the order of their periods. -/
theorem sorted_items {s : State x.problem} (hs : s.toCells.Sound) (t : x.problem.Tch)
    (ses : Session) :
    (sessionItems py (x.lessons s.grid) (x.sessionName t ses)).mergeSort
        (fun a b => decide (a.period ≤ b.period)) = allPeriods.filterMap (x.heldAt s t ses) := by
  have hperm : (sessionItems py (x.lessons s.grid) (x.sessionName t ses)).Perm
      (allPeriods.filterMap (x.heldAt s t ses)) := by
    rw [x.sessionItems_eq, ← x.sessionCells_lessons hs]
    exact (x.filed_perm hs t ses).filterMap _
  have hsorted := @List.pairwise_mergeSort Lesson (fun a b => decide (a.period ≤ b.period))
    (fun a b c hab hbc => by simp only [decide_eq_true_eq] at hab hbc ⊢; omega)
    (fun a b => by simp only [Bool.or_eq_true, decide_eq_true_eq]; omega)
    (sessionItems py (x.lessons s.grid) (x.sessionName t ses))
  refine List.Perm.eq_of_pairwise ?_ hsorted ?_ ((List.mergeSort_perm _ _).trans hperm)
  · -- two lessons of the session at one period are one lesson
    intro a b ha hb hab hba
    have ha := hperm.mem_iff.mp (List.mem_mergeSort.mp ha)
    obtain ⟨p, _, hp⟩ := List.mem_filterMap.mp ha
    obtain ⟨q, _, hq⟩ := List.mem_filterMap.mp hb
    have hpq : p = q := by
      apply Fin.ext
      have hpa := x.heldAt_period hp
      have hqb := x.heldAt_period hq
      simp only [decide_eq_true_eq] at hab hba
      omega
    rw [hpq, hq] at hp
    exact (Option.some.inj hp).symm
  · refine List.Pairwise.filterMap _ ?_ (List.pairwise_lt_finRange 5)
    intro p q hpq a ha b hb
    have hpa := x.heldAt_period ha
    have hqb := x.heldAt_period hb
    have hlt : p.val < q.val := hpq
    simp only [decide_eq_true_eq]
    omega

/-- The place of an index in the texts of the validator. -/
abbrev placeName (i : Nat) : String := @SchoolData.placeName py x.data i

/-- The places of a session as the validator reads them. -/
def validatorPlaces (s : State x.problem) (t : x.problem.Tch) (ses : Session) :
    List (Nat × String) :=
  withPlaces py (fun name => normLocation py (x.data.classLocation name))
    (sessionItems py (x.lessons s.grid) (x.sessionName t ses))

/-- A period with its place text, if there is one. -/
def placeEntry (p : Period) (ai : x.problem.Asg) : Option (Nat × String) :=
  if x.data.placeText py (x.asg ai) ≠ "" then some (p.val + 1, x.data.placeText py (x.asg ai))
  else none

theorem validatorPlaces_eq {s : State x.problem} (hs : s.toCells.Sound) (t : x.problem.Tch)
    (ses : Session) : x.validatorPlaces s t ses = allPeriods.filterMap fun p =>
      (s.teacherSlot t (slotAt ses p)).bind (x.placeEntry p) := by
  rw [validatorPlaces, withPlaces, x.sorted_items hs, List.filterMap_filterMap]
  apply List.filterMap_congr
  intro p _
  cases hrow : s.teacherSlot t (slotAt ses p) with
  | none => simp [heldAt, hrow]
  | some ai =>
    have hplace := x.effectiveLocation_lessonAt (rfl : x.problem.aClass ai = _) (slotAt ses p)
    simp only [heldAt, hrow, Option.map_some, Option.bind_some]
    rw [hplace, placeEntry]
    simp only [lessonAt, periodOfSlot_slotAt]

/-- Both sides hold the same places of a session. -/
theorem withPlaces_eq {s : State x.problem} (hs : s.toCells.Sound) (t : x.problem.Tch)
    (ses : Session) : x.validatorPlaces s t ses =
      (x.problem.locEntries (s.teacherSlot t) ses).map (named x.placeName) := by
  rw [x.validatorPlaces_eq hs, Problem.locEntries, List.map_filterMap]
  apply List.filterMap_congr
  intro p _
  cases hrow : s.teacherSlot t (slotAt ses p) with
  | none => rfl
  | some ai =>
    rw [Option.bind_some, Option.bind_some, placeEntry]
    cases hloc : x.problem.aLoc ai with
    | none =>
      have htext : x.data.placeText py (x.asg ai) = "" := by
        by_contra hne
        have hsome : x.problem.aLoc ai = some _ := if_neg hne
        rw [hloc] at hsome
        cases hsome
      rw [if_neg (not_not.mpr htext)]
      rfl
    | some i =>
      obtain ⟨hne, hname⟩ := x.data.placeOf_eq_some_iff (x.asg_mem ai) hloc
      rw [if_pos hne, ← hname]
      rfl

theorem locEntries_apart (s : State x.problem) (t : x.problem.Tch) (ses : Session) :
    Apart x.placeName (x.problem.locEntries (s.teacherSlot t) ses) := by
  have hof : ∀ e ∈ x.problem.locEntries (s.teacherSlot t) ses,
      ∃ a ∈ x.data.assignments, x.data.placeOf py a = some e.2 := by
    intro e he
    obtain ⟨p, _, hp⟩ := List.mem_filterMap.mp he
    obtain ⟨ai, _, hai⟩ := Option.bind_eq_some_iff.mp hp
    obtain ⟨i, hi, rfl⟩ := Option.map_eq_some_iff.mp hai
    exact ⟨x.asg ai, x.asg_mem ai, hi⟩
  intro a ha b hb h
  obtain ⟨m, hm, hma⟩ := hof a ha
  obtain ⟨n, hn, hnb⟩ := hof b hb
  exact x.data.placeOf_eq_of_name hm hn hma hnb h

/-- The engine counts the session. -/
def judged (s : State x.problem) (e : x.problem.Tch × Session) : Bool :=
  x.problem.teacherLocRules e.1 && (x.problem.teacherRules e.1).any fun rule =>
    locBroken rule e.2 (x.problem.locEntries (s.teacherSlot e.1) e.2)

theorem locationRuleDebtSessions_eq (s : State x.problem) : s.locationRuleDebtSessions =
    (((x.problem.allTeachers.product allSessions).filter (x.judged s)).length : Nat) := by
  have hproduct : ∀ ts : List x.problem.Tch, ((ts.product allSessions).filter (x.judged s)).length =
      (ts.map fun t => (allSessions.filter fun ses => x.judged s (t, ses)).length).sum := by
    intro ts
    induction ts with
    | nil => rfl
    | cons t ts ih =>
      have hcons : (t :: ts).product allSessions =
          allSessions.map (Prod.mk t) ++ ts.product allSessions := List.flatMap_cons
      rw [hcons, List.filter_append, List.length_append, ih, List.map_cons, List.sum_cons,
        List.filter_map, List.length_map]
      rfl
  rw [hproduct, State.locationRuleDebtSessions, List.length_flatMap]
  congr 3
  funext t
  cases hloc : x.problem.teacherLocRules t with
  | false => simp [judged, hloc]
  | true =>
    cases hrule : x.problem.teacherRules t with
    | none => simp [judged, hloc, hrule]
    | some rule => simp [judged, hloc, hrule]

theorem any_flag_of_empty {raw : Json} (hm : isMapping raw = true) {ses : Session}
    (h : (engineFlags py raw ses).any = true) : nonemptyMapping raw = true := by
  cases raw with
  | obj fields =>
    cases fields with
    | nil =>
      have hoff : ∀ name part day, engineTruthy py (flagAt (.obj []) name part day) = false :=
        fun _ _ _ => rfl
      simp [engineFlags, PlaceFlags.any, hoff] at h
    | cons e rest => rfl
  | _ => cases hm

theorem hasLocationRules_of_any (r : TeacherRule) (flags : Session → PlaceFlags) {ses : Session}
    (h : (flags ses).any = true) : (r.withPlaces flags).hasLocationRules = true := by
  have hses := mem_allSessions ses
  simp only [PlaceFlags.any, Bool.or_eq_true] at h
  simp only [TeacherRule.hasLocationRules, TeacherRule.withPlaces, Bool.or_eq_true, List.any_eq_true]
  rcases h with (((h | h) | h) | h) | h
  · exact Or.inl (Or.inl (Or.inl ⟨ses, hses, h⟩))
  · exact Or.inl (Or.inl (Or.inr ⟨ses, hses, h⟩))
  · exact Or.inl (Or.inr ⟨ses, hses, h⟩)
  · exact Or.inr ⟨ses, hses, by simp [h]⟩
  · exact Or.inr ⟨ses, hses, by simp [h]⟩

theorem teacherRules_eq (t : x.problem.Tch) : x.problem.teacherRules t =
    ((x.rawRule ((x.data.teacherNames py x.fixed).get t)).filter nonemptyMapping).bind fun raw =>
      if ((x.other.teacherRule t raw).withPlaces (engineFlags py raw)).isDefault then none
      else some { (x.other.teacherRule t raw).withPlaces (engineFlags py raw) with
        sessionMode := x.other.freedModes t
          ((x.other.teacherRule t raw).withPlaces (engineFlags py raw)).sessionMode } := rfl

/-- The engine counts a session when its rules, read by the engine, are broken by the places the
validator reads. -/
theorem judged_iff {s : State x.problem} (hs : s.toCells.Sound) (t : x.problem.Tch)
    (ses : Session) : x.judged s (t, ses) = true ↔
      ∃ raw, x.rawRule (x.problem.teacherName t) = some raw ∧ isMapping raw = true ∧
        placesBroken (engineFlags py raw ses) (x.validatorPlaces s t ses) = true := by
  have hplaces := x.withPlaces_eq hs t ses
  have hbroken : ∀ (r : TeacherRule) raw modes,
      locBroken { r.withPlaces (engineFlags py raw) with sessionMode := modes } ses
        (x.problem.locEntries (s.teacherSlot t) ses) =
      placesBroken (engineFlags py raw ses) (x.validatorPlaces s t ses) := by
    intro r raw modes
    rw [hplaces, ← locBroken_eq r (engineFlags py raw) ses (x.locEntries_apart s t ses)]
    rfl
  constructor
  · intro h
    rw [judged, Bool.and_eq_true] at h
    obtain ⟨rule, hrule, hb⟩ := (Option.any_eq_true _ _).mp h.2
    obtain ⟨raw, hraw, hcomp⟩ := Option.bind_eq_some_iff.mp hrule
    obtain ⟨hraw, hne⟩ := Option.filter_eq_some_iff.mp hraw
    refine ⟨raw, hraw, ?_, ?_⟩
    · cases raw with
      | obj fields => rfl
      | _ => cases hne
    · by_cases hdef : ((x.other.teacherRule t raw).withPlaces (engineFlags py raw)).isDefault = true
      · simp [hdef] at hcomp
      · simp only [hdef, Bool.false_eq_true, if_false, Option.some.injEq] at hcomp
        rw [← hbroken (x.other.teacherRule t raw) raw, hcomp]
        exact hb
  · rintro ⟨raw, hraw, hm, hb⟩
    obtain ⟨hany, a, ha, b, hb', hne⟩ := any_of_placesBroken hb
    have hhas := hasLocationRules_of_any (x.other.teacherRule t raw) (engineFlags py raw) hany
    have hdef : ((x.other.teacherRule t raw).withPlaces (engineFlags py raw)).isDefault = false := by
      simp [TeacherRule.isDefault, hhas]
    have hrule : x.problem.teacherRules t = some
        { (x.other.teacherRule t raw).withPlaces (engineFlags py raw) with
          sessionMode := x.other.freedModes t
            ((x.other.teacherRule t raw).withPlaces (engineFlags py raw)).sessionMode } := by
      have hfilter : (x.rawRule ((x.data.teacherNames py x.fixed).get t)).filter nonemptyMapping =
          some raw := Option.filter_eq_some_iff.mpr ⟨hraw, any_flag_of_empty hm hany⟩
      rw [x.teacherRules_eq, hfilter, Option.bind_some, hdef]
      rfl
    have htwo : 2 ≤ (x.placesOf t).eraseDups.length := by
      rw [hplaces] at ha hb'
      obtain ⟨e, he, rfl⟩ := List.mem_map.mp ha
      obtain ⟨e', he', rfl⟩ := List.mem_map.mp hb'
      have hin : ∀ e ∈ x.problem.locEntries (s.teacherSlot t) ses, e.2 ∈ x.placesOf t := by
        intro e he
        obtain ⟨p, _, hp⟩ := List.mem_filterMap.mp he
        obtain ⟨ai, hrow, hai⟩ := Option.bind_eq_some_iff.mp hp
        obtain ⟨i, hi, rfl⟩ := Option.map_eq_some_iff.mp hai
        have ht : t ∈ x.teachersOf ai := ((hs.owner t _ ai).mp hrow).2
        refine List.mem_filterMap.mpr ⟨ai, List.mem_finRange ai, ?_⟩
        exact (if_pos ht).trans hi
      refine two_le_eraseDups (hin e he) (hin e' he') fun heq => hne ?_
      exact congrArg x.placeName heq
    have hrules : x.problem.teacherLocRules t = ((x.problem.teacherRules t).any
      TeacherRule.hasLocationRules && decide (2 ≤ (x.placesOf t).eraseDups.length)) := rfl
    rw [judged, hrules, hrule, Option.any_some, Option.any_some, hbroken, hb, decide_eq_true htwo,
      Bool.and_true, Bool.and_true]
    exact hhas

/-! ### The sessions of the validator -/

theorem sessionName_injective {t t' : x.problem.Tch} {ses ses' : Session}
    (h : x.sessionName t ses = x.sessionName t' ses') : t = t' ∧ ses = ses' := by
  have hname : x.problem.teacherName t = x.problem.teacherName t' := congrArg Prod.fst h
  have hrest := congrArg Prod.snd h
  have hday := congrArg Prod.fst hrest
  have hpart := congrArg Prod.snd hrest
  refine ⟨List.nodup_iff_injective_get.mp (x.data.nodup_teacherNames x.fixed) hname, ?_⟩
  have hses := (sessionOfSlot_eq_iff (slotAt ses 0) ses').mpr
  rw [sessionOfSlot_slotAt] at hses
  exact hses ⟨hday, hpart⟩

/-- A session of the validator is one of a teacher of the problem. -/
theorem exists_session {grid : x.problem.Grid} {key : SessionOf}
    (h : key ∈ sessionKeys py (x.lessons grid)) :
    (∃ t ses, key = x.sessionName t ses) ∧ teacherMembers py key.1 = [key.1] := by
  obtain ⟨l, hl, hkey⟩ := List.mem_flatMap.mp (List.mem_dedup.mp h)
  obtain ⟨m, hm, rfl⟩ := List.mem_map.mp hkey
  obtain ⟨cell, _, hcell⟩ := List.mem_filterMap.mp hl
  obtain ⟨ai, _, rfl⟩ := Option.map_eq_some_iff.mp hcell
  refine ⟨?_, teacherMembers_member hm⟩
  have hm : m ∈ teacherMembers py (x.teacherLabel ai) := hm
  rw [x.teacherMembers_label ai] at hm
  obtain ⟨t, _, rfl⟩ := x.exists_teacher hm
  exact ⟨t, sessionOfSlot cell.2, rfl⟩

theorem mem_sessionKeys {s : State x.problem} {t : x.problem.Tch} {ses : Session}
    (h : x.validatorPlaces s t ses ≠ []) :
    x.sessionName t ses ∈ sessionKeys py (x.lessons s.grid) := by
  have hitems : sessionItems py (x.lessons s.grid) (x.sessionName t ses) ≠ [] := by
    intro hnil
    apply h
    rw [validatorPlaces, hnil]
    simp [withPlaces]
  obtain ⟨l, hl⟩ := List.exists_mem_of_ne_nil _ hitems
  obtain ⟨hl, hkey⟩ := List.mem_filter.mp hl
  have hkey := of_decide_eq_true hkey
  refine List.mem_dedup.mpr (List.mem_flatMap.mpr ⟨l, hl, List.mem_map.mpr ⟨_, hkey.1, ?_⟩⟩)
  rw [hkey.2.1, hkey.2.2]

end Input

theorem keepM_eq_some {α : Type} {f : α → Option Bool} {l : List α}
    (h : ∀ a ∈ l, (f a).isSome = true) :
    keepM f l = some (l.filter fun a => decide (f a = some true)) := by
  induction l with
  | nil => rfl
  | cons a l ih =>
    obtain ⟨b, hb⟩ := Option.isSome_iff_exists.mp (h a List.mem_cons_self)
    rw [keepM, hb, Option.bind_some, ih fun c hc => h c (List.mem_cons_of_mem _ hc), Option.map_some,
      List.filter_cons, hb]
    cases b <;> rfl

theorem isSome_of_keepM {α : Type} {f : α → Option Bool} {l : List α}
    (h : (keepM f l).isSome = true) : ∀ a ∈ l, (f a).isSome = true := by
  induction l with
  | nil => simp
  | cons a l ih =>
    cases hb : f a with
    | none => simp [keepM, hb] at h
    | some b =>
      rw [keepM, hb, Option.bind_some, Option.isSome_map] at h
      intro c hc
      rcases List.mem_cons.mp hc with rfl | hc
      · rw [hb]
        rfl
      · exact ih h c hc

/-- The visits of the validator: each teacher's rule with each session of the teacher. -/
def visits (py : Python) (k : Constraints) (lessons : List Lesson) : List (Json × SessionOf) :=
  (k.teacher.filter fun e => isMapping e.2).flatMap fun e =>
    ((sessionKeys py lessons).filter fun key => decide (key.1 = e.1)).map fun key => (e.2, key)

theorem mem_visits {k : Constraints} {lessons : List Lesson} {raw : Json} {key : SessionOf} :
    (raw, key) ∈ visits py k lessons ↔
      (key.1, raw) ∈ k.teacher ∧ isMapping raw = true ∧ key ∈ sessionKeys py lessons := by
  rw [visits, List.mem_flatMap]
  constructor
  · rintro ⟨e, he, hv⟩
    obtain ⟨he, hm⟩ := List.mem_filter.mp he
    obtain ⟨key', hkey, heq⟩ := List.mem_map.mp hv
    obtain ⟨hin, hname⟩ := List.mem_filter.mp hkey
    cases heq
    rw [of_decide_eq_true hname]
    exact ⟨he, hm, hin⟩
  · rintro ⟨he, hm, hkey⟩
    refine ⟨(key.1, raw), List.mem_filter.mpr ⟨he, hm⟩, List.mem_map.mpr ⟨key, ?_, rfl⟩⟩
    exact List.mem_filter.mpr ⟨hkey, decide_eq_true rfl⟩

end TkbCherry.Engine
