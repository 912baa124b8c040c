import TkbCherry.Engine.PlaceAgreement
import TkbCherry.Lib.Grouping
import TkbCherry.Lib.Indexed

/-!
# Fixed lessons that clash

`_release_invalid_fixed_lessons` collects the fixed lessons under the classes, teachers and rooms
they take at a slot and releases all but the first of every group. A lesson is thus released for
any earlier lesson of one of its groups, also for one that is released itself.
-/

namespace TkbCherry.Adapter

set_option autoImplicit false

open Engine Grouping Indexed

/-- What a lesson takes at its slot. -/
inductive Resource where
  | klass (name : String)
  | teacher (name : String)
  | room (name : String)
deriving DecidableEq, Repr

namespace Resource

def kind : Resource → String
  | klass _ => "class"
  | teacher _ => "teacher"
  | room _ => "room"

def name : Resource → String
  | klass name => name
  | teacher name => name
  | room name => name

end Resource

/-- `(day, session, period)`. -/
abbrev SlotKey := Nat × Part × Nat

def slotOf (l : Lesson) : SlotKey := (l.day, l.session, l.period)

def partText : Part → String
  | .AM => "AM"
  | .PM => "PM"

variable (py : Python)

/-- The class, the members of the teacher label and the room. -/
def resources (releaseTeachers : Bool) (l : Lesson) : List Resource :=
  Resource.klass l.className ::
    ((if l.teacher ≠ "" ∧ releaseTeachers = true then
        (teacherMembers py l.teacher).map Resource.teacher else []) ++
      if l.room ≠ "" then [Resource.room l.room] else [])

def groupKeys (releaseTeachers : Bool) (l : Lesson) : List (Resource × SlotKey) :=
  (resources py releaseTeachers l).map fun r => (r, slotOf l)

/-- `resource_groups`. -/
def resourceGroups (releaseTeachers : Bool) (lessons : List Lesson) :
    List ((Resource × SlotKey) × List Nat) :=
  grouped (lessons.zipIdx.flatMap fun e =>
    (groupKeys py releaseTeachers e.1).map fun key => (key, e.2))

/-- The union of `indexes[1:]` over the groups. -/
def duplicateIndexes (releaseTeachers : Bool) (lessons : List Lesson) : List Nat :=
  (resourceGroups py releaseTeachers lessons).flatMap fun e => e.2.drop 1

/-- The lessons that keep their lock. -/
def firstLocks (releaseTeachers : Bool) (lessons : List Lesson) : List Lesson :=
  keepAt (fun i => decide (i ∉ duplicateIndexes py releaseTeachers lessons)) lessons

/-! ### Warnings -/

/-- The order of `sorted(resource_groups.items())`; the keys are distinct. -/
def sortKey (key : Resource × SlotKey) :
    Lex (String × Lex (String × Lex (Nat × Lex (String × Nat)))) :=
  toLex (key.1.kind, toLex (key.1.name, toLex (key.2.1, toLex (partText key.2.2.1, key.2.2.2))))

def duplicateWarnings (releaseTeachers : Bool) (lessons : List Lesson) : List String :=
  (((resourceGroups py releaseTeachers lessons).filter fun e =>
      decide (e.2.length > 1)).mergeSort fun a b => decide (sortKey a.1 ≤ sortKey b.1)).map fun e =>
    "Da mo khoa " ++ toString (e.2.length - 1) ++ " tiet co dinh trung " ++ e.1.1.kind ++ " " ++
      e.1.1.name ++ " Thu " ++ toString e.1.2.1 ++ " " ++ partText e.1.2.2.1 ++ " tiet " ++
      toString e.1.2.2.2 ++ " de xep lai."

/-! ### The rule check -/

/-- The validator and what the release loop reads of a violation. -/
structure RuleCheck where
  Violation : Type
  /-- `validate_app_constraints(data, lessons, rules)["violations"]` -/
  violations : List Lesson → List Violation
  kind : Violation → String
  /-- `_aggregate_teacher_release_indexes` of the kept and the protected lessons; `none` when the
  violation is not an aggregate one -/
  aggregate : List Lesson → List Lesson → Violation → Option (List Nat)
  /-- `_lesson_matches_violation` -/
  matchesLesson : Lesson → Violation → Bool

namespace RuleCheck
variable (check : RuleCheck)

/-- The violations that a release may answer. -/
def actionable (vs : List check.Violation) : List check.Violation :=
  vs.filter fun v => decide (check.kind v ≠ "teacher.mustTeach")

def removeIndexes (kept protectedLessons : List Lesson) (vs : List check.Violation) : List Nat :=
  (check.actionable vs).flatMap fun v =>
    match check.aggregate kept protectedLessons v with
    | some indexes => indexes
    | none => indicesOf (fun l => check.matchesLesson l v) kept

/-- The attempts of the release loop: the kept lessons, the number released and the warnings. -/
def releaseLoop (protectedLessons : List Lesson) :
    Nat → List Lesson → Nat → List Lesson × Nat × List String
  | 0, kept, released => (kept, released, [])
  | attempts + 1, kept, released =>
    let vs := check.violations (protectedLessons ++ kept)
    let remove := check.removeIndexes kept protectedLessons vs
    if (check.actionable vs).isEmpty then (kept, released, [])
    else if remove.isEmpty then
      (kept, released, ["Khong tu mo khoa hang loat khi khong xac dinh duoc nhom linh hoat toi thieu; "
        ++ "chuyen sang bo giai day du."])
    else
      releaseLoop protectedLessons attempts (keepAt (fun i => decide (i ∉ remove)) kept)
        (released + remove.dedup.length)

end RuleCheck

/-- `_release_invalid_fixed_lessons`: the kept lessons and the warnings. -/
def releaseInvalidFixedLessons (check : RuleCheck) (constraints : Option Constraints)
    (lessons protectedLessons : List Lesson) (releaseViolations releaseTeachers : Bool) :
    List Lesson × List String :=
  if lessons.isEmpty then (lessons, [])
  else
    let duplicates := (duplicateIndexes py releaseTeachers lessons).dedup
    let kept := firstLocks py releaseTeachers lessons
    let warnings := duplicateWarnings py releaseTeachers lessons ++
      if duplicates.isEmpty then [] else
        ["Da mo khoa " ++ toString duplicates.length ++
          " tiet co dinh trung tai nguyen de tranh vo nghiem."]
    if !(constraints.any Constraints.active) || kept.isEmpty then (kept, warnings)
    else if releaseViolations then
      let (kept', released, more) := check.releaseLoop protectedLessons 8 kept duplicates.length
      (kept', warnings ++ more ++
        if released = 0 then [] else
          ["Da mo khoa " ++ toString released ++
            " tiet da xep dang vi pham rang buoc de xep lai."])
    else
      let found := check.violations kept
      (kept, warnings ++
        if found.isEmpty then [] else
          ["Co " ++ toString found.length ++ " vi pham lien quan den tiet co dinh; "
            ++ "giu nguyen tiet co dinh va de bo giai bao cao neu rang buoc vo nghiem."])

/-! ### Released lessons -/

/-- The two lessons take a class, a teacher or a room at one slot. -/
def Rivals (releaseTeachers : Bool) (a b : Lesson) : Prop :=
  slotOf a = slotOf b ∧ ∃ r ∈ resources py releaseTeachers a, r ∈ resources py releaseTeachers b

/-- An earlier lesson of the list is a rival of the lesson at the index. -/
def HasEarlierRival (releaseTeachers : Bool) (lessons : List Lesson) (i : Nat) : Prop :=
  ∃ (j : Nat) (a b : Lesson), j < i ∧ lessons[j]? = some a ∧ lessons[i]? = some b ∧
    Rivals py releaseTeachers a b

variable {py}

theorem rivals_iff_groupKeys {releaseTeachers : Bool} {a b : Lesson} :
    Rivals py releaseTeachers a b ↔
      ∃ key ∈ groupKeys py releaseTeachers a, key ∈ groupKeys py releaseTeachers b := by
  simp only [Rivals, groupKeys, List.mem_map]
  constructor
  · intro h
    obtain ⟨hslot, r, ha, hb⟩ := h
    exact ⟨(r, slotOf a), ⟨r, ha, rfl⟩, r, hb, by rw [hslot]⟩
  · intro h
    obtain ⟨key, ⟨r, ha, rfl⟩, r', hb, heq⟩ := h
    obtain ⟨rfl, hslot⟩ := Prod.mk.inj heq
    exact ⟨hslot.symm, r', ha, hb⟩

theorem Rivals.symm {releaseTeachers : Bool} {a b : Lesson} (h : Rivals py releaseTeachers a b) :
    Rivals py releaseTeachers b a := by
  obtain ⟨hslot, r, ha, hb⟩ := h
  exact ⟨hslot.symm, r, hb, ha⟩

theorem Rivals.refl (releaseTeachers : Bool) (a : Lesson) : Rivals py releaseTeachers a a :=
  ⟨rfl, _, List.mem_cons_self, List.mem_cons_self⟩

theorem nodup_distinctBy (key : String → String) (seen l : List String) :
    (distinctBy key seen l).Nodup ∧ ∀ x ∈ distinctBy key seen l, key x ∉ seen := by
  induction l generalizing seen with
  | nil => exact ⟨List.nodup_nil, fun x hx => absurd hx List.not_mem_nil⟩
  | cons y l ih =>
    rw [distinctBy]
    by_cases hy : key y ∈ seen
    · rw [if_pos hy]
      exact ih seen
    · obtain ⟨hnodup, hnew⟩ := ih (key y :: seen)
      rw [if_neg hy]
      constructor
      · apply List.nodup_cons.mpr
        refine ⟨fun hmem => ?_, hnodup⟩
        exact hnew y hmem List.mem_cons_self
      · intro x hx
        cases List.mem_cons.mp hx with
        | inl hx => exact hx ▸ hy
        | inr hx => exact fun hs => hnew x hx (List.mem_cons_of_mem _ hs)

theorem nodup_groupKeys (releaseTeachers : Bool) (l : Lesson) :
    (groupKeys py releaseTeachers l).Nodup := by
  have hteachers : ((if l.teacher ≠ "" ∧ releaseTeachers = true then
      (teacherMembers py l.teacher).map Resource.teacher else []) : List Resource).Nodup := by
    split
    · apply List.Nodup.map
      · intro a b hab
        exact Resource.teacher.inj hab
      · exact (nodup_distinctBy _ _ _).1
    · exact List.nodup_nil
  have hrooms : ((if l.room ≠ "" then [Resource.room l.room] else []) : List Resource).Nodup := by
    split
    · exact List.nodup_singleton _
    · exact List.nodup_nil
  apply List.Nodup.map
  · intro a b hab
    exact (Prod.mk.inj hab).1
  · apply List.nodup_cons.mpr
    constructor
    · intro hmem
      cases List.mem_append.mp hmem with
      | inl h => split at h <;> simp at h
      | inr h => split at h <;> simp at h
    · apply List.Nodup.append hteachers hrooms
      intro r ht hr
      split at ht
      · split at hr
        · obtain ⟨m, _, rfl⟩ := List.mem_map.mp ht
          cases List.mem_singleton.mp hr
        · cases hr
      · cases ht

/-- A lesson is in a duplicate group behind the first exactly when it has an earlier rival. -/
theorem mem_duplicateIndexes_iff {releaseTeachers : Bool} {lessons : List Lesson} {i : Nat} :
    i ∈ duplicateIndexes py releaseTeachers lessons ↔
      HasEarlierRival py releaseTeachers lessons i := by
  have hvalues : ∀ key, valuesAt key (lessons.zipIdx.flatMap fun e =>
      (groupKeys py releaseTeachers e.1).map fun key => (key, e.2)) =
        indicesOf (fun l => decide (key ∈ groupKeys py releaseTeachers l)) lessons := by
    intro key
    rw [valuesAt_flatMap key (fun e : Lesson × Nat => groupKeys py releaseTeachers e.1) Prod.snd]
    · exact congrArg (List.map Prod.snd) (List.filter_congr fun e _ => decide_eq_decide.mpr Iff.rfl)
    · intro e _
      exact nodup_groupKeys releaseTeachers e.1
  simp only [duplicateIndexes, List.mem_flatMap]
  constructor
  · intro h
    obtain ⟨⟨key, indexes⟩, hmem, hi⟩ := h
    obtain ⟨_, rfl⟩ := mem_grouped.mp hmem
    rw [hvalues] at hi
    dsimp only at hi
    obtain ⟨hi, j, hj, hlt⟩ := (mem_drop_one_iff (pairwise_indicesOf _ lessons)).mp hi
    obtain ⟨b, hb, hbkey⟩ := mem_indicesOf.mp hi
    obtain ⟨a, ha, hakey⟩ := mem_indicesOf.mp hj
    refine ⟨j, a, b, hlt, ha, hb, rivals_iff_groupKeys.mpr ⟨key, ?_, ?_⟩⟩
    · exact of_decide_eq_true hakey
    · exact of_decide_eq_true hbkey
  · intro h
    obtain ⟨j, a, b, hlt, ha, hb, hr⟩ := h
    obtain ⟨key, hakey, hbkey⟩ := rivals_iff_groupKeys.mp hr
    have hi : i ∈ indicesOf (fun l => decide (key ∈ groupKeys py releaseTeachers l)) lessons :=
      mem_indicesOf.mpr ⟨b, hb, decide_eq_true hbkey⟩
    have hj : j ∈ indicesOf (fun l => decide (key ∈ groupKeys py releaseTeachers l)) lessons :=
      mem_indicesOf.mpr ⟨a, ha, decide_eq_true hakey⟩
    refine ⟨(key, indicesOf (fun l => decide (key ∈ groupKeys py releaseTeachers l)) lessons), ?_, ?_⟩
    · apply mem_grouped.mpr
      refine ⟨?_, (hvalues key).symm⟩
      by_contra hout
      have hnil := valuesAt_eq_nil_iff.mpr hout
      rw [hvalues key] at hnil
      rw [hnil] at hi
      cases hi
    · exact (mem_drop_one_iff (pairwise_indicesOf _ lessons)).mpr ⟨hi, j, hj, hlt⟩

theorem mem_firstLocks_iff {releaseTeachers : Bool} {lessons : List Lesson} {l : Lesson} :
    l ∈ firstLocks py releaseTeachers lessons ↔
      ∃ i, lessons[i]? = some l ∧ ¬ HasEarlierRival py releaseTeachers lessons i := by
  rw [firstLocks, mem_keepAt]
  simp only [decide_eq_true_eq, mem_duplicateIndexes_iff]

/-- Without an actionable violation the rule check releases nothing. -/
theorem releaseInvalid_fst (check : RuleCheck) (constraints : Option Constraints)
    (lessons protectedLessons : List Lesson) (releaseViolations releaseTeachers : Bool)
    (hclean : releaseViolations = true → check.actionable
      (check.violations (protectedLessons ++ firstLocks py releaseTeachers lessons)) = []) :
    (releaseInvalidFixedLessons py check constraints lessons protectedLessons releaseViolations
      releaseTeachers).1 = firstLocks py releaseTeachers lessons := by
  unfold releaseInvalidFixedLessons
  by_cases hempty : lessons.isEmpty = true
  · rw [if_pos hempty]
    rw [List.isEmpty_iff] at hempty
    subst hempty
    rfl
  · rw [if_neg hempty]
    by_cases hearly : (!(constraints.any Constraints.active) ||
        (firstLocks py releaseTeachers lessons).isEmpty) = true
    · simp only [hearly, if_true]
    · cases releaseViolations with
      | false => simp only [hearly, if_false, Bool.false_eq_true]
      | true =>
        have hstop : check.releaseLoop protectedLessons 8 (firstLocks py releaseTeachers lessons)
            (duplicateIndexes py releaseTeachers lessons).dedup.length =
              (firstLocks py releaseTeachers lessons,
                (duplicateIndexes py releaseTeachers lessons).dedup.length, []) := by
          simp only [RuleCheck.releaseLoop, hclean rfl, List.isEmpty_nil, if_true]
        simp only [hearly, if_true, hstop]
        rfl

variable (py)

/-- The kept list is a sublist without rivals, and a released lesson has a kept rival. A released
copy of a kept lesson is its rival. -/
structure CleanRelease (releaseTeachers : Bool) (lessons kept : List Lesson) : Prop where
  sublist : List.Sublist kept lessons
  apart : kept.Pairwise fun a b => ¬ Rivals py releaseTeachers a b
  minimal : ∀ l ∈ lessons, l ∉ kept → ∃ k ∈ kept, Rivals py releaseTeachers k l

/-- Every lesson with an earlier rival has one that has no earlier rival itself. -/
def FirstRivalStays (releaseTeachers : Bool) (lessons : List Lesson) : Prop :=
  ∀ i, HasEarlierRival py releaseTeachers lessons i →
    ∃ (j : Nat) (a b : Lesson), j < i ∧ lessons[j]? = some a ∧ lessons[i]? = some b ∧
      Rivals py releaseTeachers a b ∧ ¬ HasEarlierRival py releaseTeachers lessons j

variable {py}

theorem firstLocks_apart (releaseTeachers : Bool) (lessons : List Lesson) :
    (firstLocks py releaseTeachers lessons).Pairwise fun a b => ¬ Rivals py releaseTeachers a b := by
  apply pairwise_keepAt
  intro i j a b hlt ha hb _ hj hr
  have hj := of_decide_eq_true hj
  apply hj
  exact mem_duplicateIndexes_iff.mpr ⟨i, a, b, hlt, ha, hb, hr⟩

/-- A lesson whose earlier rivals have gone is the only one that goes without a kept rival. -/
theorem cleanRelease_firstLocks_iff (releaseTeachers : Bool) (lessons : List Lesson) :
    CleanRelease py releaseTeachers lessons (firstLocks py releaseTeachers lessons) ↔
      FirstRivalStays py releaseTeachers lessons := by
  constructor
  · intro h i hi
    have hb : ∃ b, lessons[i]? = some b := by
      obtain ⟨_, _, b, _, _, hb, _⟩ := hi
      exact ⟨b, hb⟩
    obtain ⟨b, hb⟩ := hb
    have hkept : ∃ k ∈ firstLocks py releaseTeachers lessons, Rivals py releaseTeachers k b := by
      by_cases hin : b ∈ firstLocks py releaseTeachers lessons
      · exact ⟨b, hin, Rivals.refl releaseTeachers b⟩
      · exact h.minimal b (List.mem_of_getElem? hb) hin
    obtain ⟨k, hk, hr⟩ := hkept
    obtain ⟨j, hj, hfirst⟩ := mem_firstLocks_iff.mp hk
    refine ⟨j, k, b, ?_, hj, hb, hr, hfirst⟩
    by_contra hge
    rcases Nat.eq_or_lt_of_le (Nat.le_of_not_lt hge) with heq | hlt
    · subst heq
      exact hfirst hi
    · exact hfirst ⟨i, b, k, hlt, hb, hj, hr.symm⟩
  · intro h
    refine ⟨keepAt_sublist _ lessons, firstLocks_apart releaseTeachers lessons, ?_⟩
    intro l hl hout
    obtain ⟨i, hi⟩ := List.mem_iff_getElem?.mp hl
    have hrival : HasEarlierRival py releaseTeachers lessons i := by
      by_contra hn
      exact hout (mem_firstLocks_iff.mpr ⟨i, hi, hn⟩)
    obtain ⟨j, a, b, _, ha, hb, hr, hfirst⟩ := h i hrival
    rw [hi] at hb
    cases hb
    exact ⟨a, mem_firstLocks_iff.mpr ⟨j, ha, hfirst⟩, hr⟩

/-- Where the rule check finds nothing to release, the release is clean and minimal exactly when
the first rival of every released lesson stays. -/
theorem releaseInvalid_clean_iff (check : RuleCheck) (constraints : Option Constraints)
    (lessons protectedLessons : List Lesson) (releaseViolations : Bool)
    (hclean : releaseViolations = true → check.actionable
      (check.violations (protectedLessons ++ firstLocks py true lessons)) = []) :
    CleanRelease py true lessons (releaseInvalidFixedLessons py check constraints lessons
      protectedLessons releaseViolations true).1 ↔ FirstRivalStays py true lessons := by
  rw [releaseInvalid_fst check constraints lessons protectedLessons releaseViolations true hclean]
  exact cleanRelease_firstLocks_iff true lessons

/-! ### A chain of clashes -/

instance decidableRivals (releaseTeachers : Bool) (a b : Lesson) :
    Decidable (Rivals py releaseTeachers a b) :=
  inferInstanceAs (Decidable (_ ∧ ∃ r ∈ _, r ∈ _))

/-- A validator that reports nothing. -/
def noRules : RuleCheck where
  Violation := Unit
  violations := fun _ => []
  kind := fun _ => ""
  aggregate := fun _ _ _ => none
  matchesLesson := fun _ _ => false

/-- The first two lessons share a teacher, the last two a room. -/
def chain : List Lesson :=
  [⟨"6A", 2, .AM, 1, "Toan", "GV1", ""⟩, ⟨"6B", 2, .AM, 1, "Toan", "GV1", "P1"⟩,
    ⟨"6C", 2, .AM, 1, "Van", "GV2", "P1"⟩]

theorem chain_clean_iff :
    noRules.actionable (noRules.violations ([] ++ firstLocks asciiTables true chain)) = [] ∧
    (CleanRelease asciiTables true chain
        (releaseInvalidFixedLessons asciiTables noRules none chain [] true true).1 ↔
      FirstRivalStays asciiTables true chain) :=
  ⟨rfl, releaseInvalid_clean_iff noRules none chain [] true fun _ => rfl⟩

/-- The last lesson goes for the second one, which goes for the first one. -/
theorem chain_not_clean : ¬ CleanRelease asciiTables true chain
    (releaseInvalidFixedLessons asciiTables noRules none chain [] true true).1 := by
  have hkept : (releaseInvalidFixedLessons asciiTables noRules none chain [] true true).1 =
      [⟨"6A", 2, .AM, 1, "Toan", "GV1", ""⟩] := by
    rw [releaseInvalid_fst noRules none chain [] true true fun _ => rfl]
    decide +kernel
  intro h
  rw [hkept] at h
  obtain ⟨k, hk, hr⟩ := h.minimal ⟨"6C", 2, .AM, 1, "Van", "GV2", "P1"⟩ (by decide) (by decide)
  rw [List.mem_singleton] at hk
  subst hk
  revert hr
  decide +kernel

end TkbCherry.Adapter
