import TkbCherry.Adapter.FixedLessons

/-!
# Metrics of a timetable

The part of `compute_metrics` that counts teacher sessions and teacher slots. A co-taught lesson
counts for every member of its label. The other hard checks and the rule violations are functions of
the lessons.
-/

namespace TkbCherry.Adapter

set_option autoImplicit false

open Engine

/-- Sessions, sessions of one period, sessions with a gap of one, sessions with a longer gap, and the
sum of the gaps. -/
abbrev Quality := Fin 5 → Int

namespace Quality

/-- No component is larger. -/
def noWorse (q old : Quality) : Bool := (List.finRange 5).all fun i => decide (q i ≤ old i)

/-- `_quality_is_monotone_improvement`. -/
def improves (q old : Quality) : Bool :=
  noWorse q old && (List.finRange 5).any fun i => decide (q i < old i)

theorem noWorse_iff {q old : Quality} : noWorse q old = true ↔ ∀ i, q i ≤ old i := by
  simp [noWorse]

theorem improves_iff {q old : Quality} :
    improves q old = true ↔ (∀ i, q i ≤ old i) ∧ ∃ i, q i < old i := by
  rw [improves, Bool.and_eq_true, noWorse_iff]
  simp

theorem improves_trans {q q' q'' : Quality} (h : improves q q' = true) (h' : improves q' q'' = true) :
    improves q q'' = true := by
  obtain ⟨hle, i, hlt⟩ := improves_iff.mp h
  obtain ⟨hle', _⟩ := improves_iff.mp h'
  apply improves_iff.mpr
  refine ⟨fun j => le_trans (hle j) (hle' j), i, ?_⟩
  exact lt_of_lt_of_le hlt (hle' i)

end Quality

/-- What `compute_metrics` computes beside the teachers: the periods of the assignments, the other
hard checks, and the number of rule violations. -/
structure Judge where
  expected : Nat
  otherHard : List Lesson → Bool
  violations : List Lesson → Nat

variable (py : Python)

/-- The cells of `by_teacher_slot`, one for every member of a lesson. -/
def memberSlots (lessons : List Lesson) : List (String × SlotKey) :=
  lessons.flatMap fun l => (teacherMembers py l.teacher).map fun m => (m, slotOf l)

/-- `teacher_slot_conflicts`. -/
def teacherSlotConflicts (lessons : List Lesson) : Nat :=
  ((memberSlots py lessons).dedup.filter fun cell => decide (1 < (memberSlots py lessons).count cell)).length

/-- `gap` of a session. -/
def sessionGap (items : List Lesson) : Int :=
  ((items.map Lesson.period).max?.getD 0 : Nat) - ((items.map Lesson.period).min?.getD 0 : Nat) + 1 -
    items.length

structure Metrics where
  scheduled : Nat
  expected : Nat
  hardOk : Bool
  violations : Nat
  teacherSessions : Nat
  onePeriod : Nat
  gaps : List Int

/-- `compute_metrics` without shared teacher slots. -/
def computeMetrics (judge : Judge) (lessons : List Lesson) : Metrics where
  scheduled := lessons.length
  expected := judge.expected
  hardOk := decide (lessons.length = judge.expected) && decide (teacherSlotConflicts py lessons = 0) &&
    judge.otherHard lessons && decide (judge.violations lessons = 0)
  violations := judge.violations lessons
  teacherSessions := (sessionKeys py lessons).length
  onePeriod := ((sessionKeys py lessons).filter fun key =>
    decide ((sessionItems py lessons key).length = 1)).length
  gaps := (sessionKeys py lessons).map fun key => sessionGap (sessionItems py lessons key)

/-- `_canonical_quality`; the distribution of the gaps sums up over the sessions. -/
def canonicalQuality (m : Metrics) : Quality :=
  ![m.teacherSessions, m.onePeriod, (m.gaps.countP fun gap => decide (gap = 1) : Nat),
    (m.gaps.countP fun gap => decide (2 ≤ gap) : Nat), (m.gaps.map (max 0)).sum]

variable {py}

/-- A valid timetable gives no teacher two lessons at one slot. -/
theorem memberSlots_nodup {judge : Judge} {lessons : List Lesson}
    (h : (computeMetrics py judge lessons).hardOk = true) : (memberSlots py lessons).Nodup := by
  simp only [computeMetrics, Bool.and_eq_true, decide_eq_true_eq] at h
  have hnone := List.length_eq_zero_iff.mp h.1.1.2
  rw [List.nodup_iff_count_le_one]
  intro cell
  by_cases hmem : cell ∈ memberSlots py lessons
  · have hout := List.filter_eq_nil_iff.mp hnone cell (List.mem_dedup.mpr hmem)
    simpa using hout
  · rw [List.count_eq_zero_of_not_mem hmem]
    exact Nat.zero_le _

end TkbCherry.Adapter
