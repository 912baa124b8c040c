import TkbCherry.Fet.Ejection

/-! Lessons of one subject in a session. The conflict test keeps them together for
the activity it places, but not for the activities it takes away: a lesson taken
from the middle leaves the outer ones apart. -/

namespace TkbCherry.Fet
open Booking
set_option autoImplicit false
set_option linter.unusedSectionVars false

variable {κ : Type} [DecidableEq κ] {d : Desk κ}

section Statements

/-- A placed or fixed lesson of the subject stands in the class's slot. -/
def Taught (d : Desk κ) (p : Nat → Option Nat) (c m : κ) (s : Nat) : Prop :=
  (∃ a act, d.activities[a]? = some act ∧ d.getCanonMonKey act.mon = m ∧
    d.Covers p a (.lop c, s)) ∨
  ∃ fix mon, d.fixedSlots c s = some fix ∧ fix.mon = some mon ∧ d.getCanonMonKey mon = m

/-- In the session numbered `k` the subject's lessons stand in consecutive periods. -/
def TogetherIn (d : Desk κ) (p : Nat → Option Nat) (c m : κ) (k : Nat) : Prop :=
  ∀ i j l, i < j → j < l → l < PERIODS_PER_SESSION →
    Taught d p c m (k * PERIODS_PER_SESSION + i) → Taught d p c m (k * PERIODS_PER_SESSION + l) →
    Taught d p c m (k * PERIODS_PER_SESSION + j)

open Classical in
/-- How many lessons of the subject stand in the session. -/
noncomputable def lessonCount (d : Desk κ) (p : Nat → Option Nat) (c m : κ) (k : Nat) : Nat :=
  ((List.range PERIODS_PER_SESSION).filter fun i =>
    decide (Taught d p c m (k * PERIODS_PER_SESSION + i))).length

/-- Same-subject lessons are consecutive and within the limit of each of their activities. -/
structure Good (d : Desk κ) (p : Nat → Option Nat) : Prop where
  together : ∀ c m k, TogetherIn d p c m k
  within : ∀ act ∈ d.activities, ∀ k,
    lessonCount d p act.classId (d.getCanonMonKey act.mon) k ≤ d.getSubjectSessionLimit act

/-- What remains when an activity is about to be placed: its conflicts and its own
old place are gone. -/
def remaining (p : Nat → Option Nat) (a : Nat) (confs : List Nat) : Nat → Option Nat :=
  take (takeAll p confs) a

/-- The placement breaks up no subject. Where lessons are taken away, those that
remain are still consecutive; an activity that moves within its session stays
beside its own; and no other spelling of the subject has a limit that is passed. -/
structure Unbroken (d : Desk κ) (p : Nat → Option Nat) (a : Nat) (act : Act κ) (slot : Nat)
    (confs : List Nat) : Prop where
  elsewhere : ∀ c m k, ¬ (c = act.classId ∧ m = d.getCanonMonKey act.mon ∧
    k = slot / PERIODS_PER_SESSION) → TogetherIn d (remaining p a confs) c m k
  inside : ∀ s, d.Covers p a (.lop act.classId, s) →
    s / PERIODS_PER_SESSION = slot / PERIODS_PER_SESSION →
    TogetherIn d (put (takeAll p confs) a slot) act.classId (d.getCanonMonKey act.mon)
      (slot / PERIODS_PER_SESSION)
  spellings : ∀ other ∈ d.activities, other.classId = act.classId →
    d.getCanonMonKey other.mon = d.getCanonMonKey act.mon →
    d.getSubjectSessionLimit act ≤ d.getSubjectSessionLimit other ∨
      lessonCount d (remaining p a confs) act.classId (d.getCanonMonKey act.mon)
        (slot / PERIODS_PER_SESSION) + act.duration ≤ d.getSubjectSessionLimit other

/-- Every placement of a chain is unbroken at the state it is made in. -/
def Steady (d : Desk κ) (set : Settings κ) (base : Row κ → Nat → Cell) :
    (Nat → Option Nat) → Chain → Prop
  | _, [] => True
  | p, (a, slot) :: kept => ∀ confs, Fits d set base p a slot confs →
      (∀ act, d.activities[a]? = some act → Unbroken d p a act slot confs) ∧
      Steady d set base (put (takeAll p confs) a slot) kept

end Statements

section Periods

theorem sessionStart_eq (slot : Nat) :
    sessionStart slot = slot / PERIODS_PER_SESSION * PERIODS_PER_SESSION := by
  simp only [sessionStart, dayIdx, sessionIdx, PERIODS_PER_SESSION, SLOTS_PER_DAY]
  omega

theorem periodIdx_eq (slot : Nat) : periodIdx slot = slot % PERIODS_PER_SESSION := by
  simp only [periodIdx, PERIODS_PER_SESSION, SLOTS_PER_DAY]
  omega

/-- The periods of an activity that does not leave its session are of that session. -/
theorem same_session {slot s dur : Nat} (hin : periodIdx slot + dur ≤ PERIODS_PER_SESSION)
    (hlo : slot ≤ s) (hhi : s < slot + dur) :
    s / PERIODS_PER_SESSION = slot / PERIODS_PER_SESSION := by
  rw [periodIdx_eq] at hin
  simp only [PERIODS_PER_SESSION] at hin ⊢
  omega

/-- An ascending list without a hole, of the periods where something holds. -/
theorem contiguous_convex (f : Nat → Bool)
    (h : contiguous ((List.range PERIODS_PER_SESSION).filter f) = true) {i j l : Nat}
    (hij : i < j) (hjl : j < l) (hl : l < PERIODS_PER_SESSION) (hi : f i = true)
    (hfl : f l = true) : f j = true := by
  have key : ∀ b0 b1 b2 b3 b4 : Bool,
      contiguous ((List.range PERIODS_PER_SESSION).filter
        fun n => [b0, b1, b2, b3, b4].getD n false) = true →
      ∀ i j l : Fin 5, i < j → j < l → [b0, b1, b2, b3, b4].getD i false = true →
        [b0, b1, b2, b3, b4].getD l false = true → [b0, b1, b2, b3, b4].getD j false = true := by
    decide +kernel
  have hf : ∀ n < 5, [f 0, f 1, f 2, f 3, f 4].getD n false = f n := by
    intro n hn
    have hcases : n = 0 ∨ n = 1 ∨ n = 2 ∨ n = 3 ∨ n = 4 := by omega
    rcases hcases with rfl | rfl | rfl | rfl | rfl
    all_goals rfl
  have hl5 : l < 5 := hl
  have hfilter : (List.range PERIODS_PER_SESSION).filter f =
      (List.range PERIODS_PER_SESSION).filter
        fun n => [f 0, f 1, f 2, f 3, f 4].getD n false := by
    apply List.filter_congr
    intro n hn
    exact (hf n (List.mem_range.mp hn)).symm
  rw [hfilter] at h
  have hres := key _ _ _ _ _ h ⟨i, by omega⟩ ⟨j, by omega⟩ ⟨l, hl5⟩ hij hjl
  rw [hf i (by omega), hf l hl5, hf j (by omega)] at hres
  exact hres hi hfl

theorem filter_length_or {f g h : Nat → Bool} (l : List Nat)
    (hor : ∀ n ∈ l, f n = true → g n = true ∨ h n = true) :
    (l.filter f).length ≤ (l.filter g).length + (l.filter h).length := by
  induction l with
  | nil => simp
  | cons n l ih =>
    have hl := ih fun m hm => hor m (List.mem_cons_of_mem _ hm)
    have hn := hor n List.mem_cons_self
    cases hf : f n
    · cases hg : g n <;> cases hh : h n <;> simp [hf, hg, hh] <;> omega
    · cases hn hf with
      | inl hg => cases hh : h n <;> simp [hf, hg, hh] <;> omega
      | inr hh => cases hg : g n <;> simp [hf, hg, hh] <;> omega

/-- A window of `dur` periods holds at most so many. -/
theorem filter_window_length (n lo dur : Nat) :
    ((List.range n).filter fun i => decide (lo ≤ i ∧ i < lo + dur)).length ≤ dur := by
  have hsub : ((List.range n).filter fun i => decide (lo ≤ i ∧ i < lo + dur)) ⊆
      List.range' lo dur := by
    intro i hi
    have hw := of_decide_eq_true (List.mem_filter.mp hi).2
    exact List.mem_range'_1.mpr hw
  have hle := (List.Nodup.filter _ List.nodup_range).length_le_of_subset hsub
  rwa [List.length_range'] at hle

theorem filter_length_mono {f g : Nat → Bool} (l : List Nat)
    (h : ∀ n ∈ l, f n = true → g n = true) : (l.filter f).length ≤ (l.filter g).length := by
  rw [← List.countP_eq_length_filter, ← List.countP_eq_length_filter]
  exact List.countP_mono_left h

end Periods

section Cells
variable {p : Nat → Option Nat}

theorem mem_cells {act : Act κ} {slot : Nat} {r : Row κ} {s : Nat} :
    (r, s) ∈ act.cells slot ↔ r ∈ act.rows ∧ slot ≤ s ∧ s < slot + act.duration := by
  simp only [Act.cells, List.mem_flatMap, List.mem_range, List.mem_map, Prod.mk.injEq]
  constructor
  · rintro ⟨k, hk, r', hr', rfl, rfl⟩
    exact ⟨hr', by omega, by omega⟩
  · rintro ⟨hr, hlo, hhi⟩
    exact ⟨s - slot, by omega, r, hr, rfl, by omega⟩

theorem lop_mem_rows {act : Act κ} {c : κ} : .lop c ∈ act.rows ↔ c = act.classId := by
  simp [Act.rows]

/-- The cells of a class that the activity covers at a slot: its own class, its periods. -/
theorem cellOf_lop {a slot : Nat} {act : Act κ} (ha : d.activities[a]? = some act) {c : κ}
    {s : Nat} : d.CellOf a slot (.lop c, s) ↔
      c = act.classId ∧ slot ≤ s ∧ s < slot + act.duration := by
  constructor
  · rintro ⟨e, he, hx⟩
    rw [ha] at he
    cases he
    obtain ⟨hr, hs⟩ := mem_cells.mp hx
    exact ⟨lop_mem_rows.mp hr, hs⟩
  · rintro ⟨hc, hs⟩
    exact ⟨act, ha, mem_cells.mpr ⟨lop_mem_rows.mpr hc, hs⟩⟩

theorem Taught.mono {q : Nat → Option Nat} {c m : κ} {s : Nat}
    (hsub : ∀ b, d.Covers p b (.lop c, s) → d.Covers q b (.lop c, s))
    (h : Taught d p c m s) : Taught d q c m s := by
  cases h with
  | inl h =>
    obtain ⟨b, act, hb, hm, hc⟩ := h
    exact Or.inl ⟨b, act, hb, hm, hsub b hc⟩
  | inr h => exact Or.inr h

open Classical in
theorem lessonCount_mono {q : Nat → Option Nat} {c m : κ} {k : Nat}
    (h : ∀ i < PERIODS_PER_SESSION, Taught d p c m (k * PERIODS_PER_SESSION + i) →
      Taught d q c m (k * PERIODS_PER_SESSION + i)) :
    lessonCount d p c m k ≤ lessonCount d q c m k := by
  apply filter_length_mono
  intro i hi hp
  exact decide_eq_true (h i (List.mem_range.mp hi) (of_decide_eq_true hp))

theorem TogetherIn.congr {q : Nat → Option Nat} {c m : κ} {k : Nat}
    (h : ∀ i < PERIODS_PER_SESSION, Taught d p c m (k * PERIODS_PER_SESSION + i) ↔
      Taught d q c m (k * PERIODS_PER_SESSION + i)) (hp : TogetherIn d p c m k) :
    TogetherIn d q c m k := by
  intro i j l hij hjl hl hi hl'
  rw [← h j (by omega)]
  exact hp i j l hij hjl hl ((h i (by omega)).mpr hi) ((h l hl).mpr hl')

end Cells

section Step
variable {set : Settings κ} {base : Row κ → Nat → Cell} {p : Nat → Option Nat} {a slot : Nat}
  {act : Act κ} {confs : List Nat}

theorem put_remaining : put (remaining p a confs) a slot = put (takeAll p confs) a slot :=
  put_take _ _ _

theorem remaining_sub {b : Nat} {x : Row κ × Nat} (h : d.Covers (remaining p a confs) b x) :
    d.Covers p b x :=
  (covers_takeAll.mp (covers_take.mp h).2).2

theorem remaining_put {b : Nat} {x : Row κ × Nat} (h : d.Covers (remaining p a confs) b x) :
    d.Covers (put (takeAll p confs) a slot) b x := by
  obtain ⟨hba, hb⟩ := covers_take.mp h
  exact (covers_put_other hba).mpr hb

/-- A lesson after the placement was there before, or is one of the activity's. -/
theorem taught_put (ha : d.activities[a]? = some act) {c m : κ} {s : Nat}
    (h : Taught d (put (takeAll p confs) a slot) c m s) :
    Taught d (remaining p a confs) c m s ∨
      (c = act.classId ∧ m = d.getCanonMonKey act.mon ∧ slot ≤ s ∧ s < slot + act.duration) := by
  cases h with
  | inr h => exact Or.inl (Or.inr h)
  | inl h =>
    obtain ⟨b, e, hb, hm, hc⟩ := h
    by_cases hba : b = a
    · subst hba
      rw [ha] at hb
      cases hb
      obtain ⟨hcl, hs⟩ := (cellOf_lop ha).mp (covers_put_self.mp hc)
      exact Or.inr ⟨hcl, hm.symm, hs⟩
    · exact Or.inl (Or.inl ⟨b, e, hb, hm, covers_take.mpr ⟨hba, (covers_put_other hba).mp hc⟩⟩)

/-- Outside the activity's session, class and subject nothing is added. -/
theorem taught_elsewhere (ha : d.activities[a]? = some act)
    (hin : periodIdx slot + act.duration ≤ PERIODS_PER_SESSION) {c m : κ} {k : Nat}
    (hne : ¬ (c = act.classId ∧ m = d.getCanonMonKey act.mon ∧ k = slot / PERIODS_PER_SESSION))
    {i : Nat} (hi : i < PERIODS_PER_SESSION) :
    Taught d (remaining p a confs) c m (k * PERIODS_PER_SESSION + i) ↔
      Taught d (put (takeAll p confs) a slot) c m (k * PERIODS_PER_SESSION + i) := by
  constructor
  · exact Taught.mono fun _ hb => remaining_put hb
  · intro h
    cases taught_put ha h with
    | inl h => exact h
    | inr h =>
      obtain ⟨hc, hm, hlo, hhi⟩ := h
      have hk := same_session hin hlo hhi
      apply absurd _ hne
      refine ⟨hc, hm, ?_⟩
      rw [← hk]
      simp only [PERIODS_PER_SESSION] at hi ⊢
      omega

theorem mem_subjectPeriods {g : Grids κ} {i : Nat} :
    i ∈ subjectPeriods d g act slot confs ↔ i < PERIODS_PER_SESSION ∧
      ((slot ≤ sessionStart slot + i ∧ sessionStart slot + i < slot + act.duration) ∨
        subjectCell d g act confs (sessionStart slot + i) = true) := by
  by_cases hw : slot ≤ sessionStart slot + i ∧ sessionStart slot + i < slot + act.duration
  · simp [subjectPeriods, hw]
  · simp [subjectPeriods, hw]

/-- A lesson of the subject that remains is seen in the class's cell. -/
theorem subjectCell_of_taught (hg : Ground d base) {g : Grids κ} (hb : Booked d base g)
    {s : Nat}
    (h : Taught d (remaining g.actPlacement a confs) act.classId (d.getCanonMonKey act.mon) s) :
    subjectCell d g act confs s = true := by
  cases h with
  | inl h =>
    obtain ⟨b, e, he, hm, hc⟩ := h
    have hnot := (covers_takeAll.mp (covers_take.mp hc).2).1
    have hread := hb.held b _ (remaining_sub hc)
    simp [subjectCell, hread, he, hm, hnot]
  | inr h =>
    obtain ⟨fix, mon, hfix, hmon, hm⟩ := h
    cases hread : g.read (.lop act.classId) s with
    | act b =>
      -- nobody is placed on a fixed cell
      have hc : d.Covers g.actPlacement b (.lop act.classId, s) :=
        (hb.read_act hg (x := (.lop act.classId, s))).mp hread
      have hblocked := (hb.legal.allowed hc).2
      simp [Desk.blocked, hfix] at hblocked
    | free => simp [subjectCell, hread, hfix, hmon, hm]
    | off => simp [subjectCell, hread, hfix, hmon, hm]
    | fixed => simp [subjectCell, hread, hfix, hmon, hm]

/-- What is seen in the class's cell is a lesson that remains, or the activity's own old one. -/
theorem taught_of_subjectCell (hg : Ground d base) {g : Grids κ} (hb : Booked d base g) {s : Nat}
    (hown : ¬ d.Covers g.actPlacement a (.lop act.classId, s))
    (h : subjectCell d g act confs s = true) :
    Taught d (remaining g.actPlacement a confs) act.classId (d.getCanonMonKey act.mon) s := by
  cases hread : g.read (.lop act.classId) s with
  | act b =>
    have hc : d.Covers g.actPlacement b (.lop act.classId, s) :=
      (hb.read_act hg (x := (.lop act.classId, s))).mp hread
    simp only [subjectCell, hread, Bool.and_eq_true, Bool.not_eq_true', Option.any_eq_true,
      decide_eq_true_eq] at h
    obtain ⟨hnot, e, he, hm⟩ := h
    have hba : b ≠ a := fun hba => hown (hba ▸ hc)
    have hbc : b ∉ confs := by
      intro hmem
      rw [List.contains_iff_mem.mpr hmem] at hnot
      cases hnot
    exact Or.inl ⟨b, e, he, hm, covers_take.mpr ⟨hba, covers_takeAll.mpr ⟨hbc, hc⟩⟩⟩
  | free =>
    simp only [subjectCell, hread, Option.any_eq_true, decide_eq_true_eq] at h
    obtain ⟨fix, hfix, mon, hmon, hm⟩ := h
    exact Or.inr ⟨fix, mon, hfix, hmon, hm⟩
  | off =>
    simp only [subjectCell, hread, Option.any_eq_true, decide_eq_true_eq] at h
    obtain ⟨fix, hfix, mon, hmon, hm⟩ := h
    exact Or.inr ⟨fix, mon, hfix, hmon, hm⟩
  | fixed =>
    simp only [subjectCell, hread, Option.any_eq_true, decide_eq_true_eq] at h
    obtain ⟨fix, hfix, mon, hmon, hm⟩ := h
    exact Or.inr ⟨fix, mon, hfix, hmon, hm⟩

/-- The lessons after the placement are among the periods the test counted. -/
theorem mem_of_taught_put (hg : Ground d base) {g : Grids κ} (hb : Booked d base g)
    (ha : d.activities[a]? = some act) {i : Nat} (hi : i < PERIODS_PER_SESSION)
    (h : Taught d (put (takeAll g.actPlacement confs) a slot) act.classId
      (d.getCanonMonKey act.mon) (slot / PERIODS_PER_SESSION * PERIODS_PER_SESSION + i)) :
    i ∈ subjectPeriods d g act slot confs := by
  rw [mem_subjectPeriods, sessionStart_eq]
  refine ⟨hi, ?_⟩
  cases taught_put ha h with
  | inl h => exact Or.inr (subjectCell_of_taught hg hb h)
  | inr h => exact Or.inl h.2.2

/-- The test counted no other period, unless the activity stood in that session. -/
theorem taught_put_of_mem (hg : Ground d base) {g : Grids κ} (hb : Booked d base g)
    (ha : d.activities[a]? = some act)
    (hout : ∀ i < PERIODS_PER_SESSION, ¬ d.Covers g.actPlacement a
      (.lop act.classId, slot / PERIODS_PER_SESSION * PERIODS_PER_SESSION + i))
    {i : Nat} (h : i ∈ subjectPeriods d g act slot confs) :
    Taught d (put (takeAll g.actPlacement confs) a slot) act.classId
      (d.getCanonMonKey act.mon) (slot / PERIODS_PER_SESSION * PERIODS_PER_SESSION + i) := by
  rw [mem_subjectPeriods, sessionStart_eq] at h
  obtain ⟨hi, h⟩ := h
  cases h with
  | inl hw =>
    exact Or.inl ⟨a, act, ha, rfl, covers_put_self.mpr ((cellOf_lop ha).mpr ⟨rfl, hw⟩)⟩
  | inr hc =>
    exact (taught_of_subjectCell hg hb (hout i hi) hc).mono fun _ hb => remaining_put hb

open Classical in
/-- The placement adds at most the activity's own periods. -/
theorem lessonCount_put (ha : d.activities[a]? = some act) (m : κ) :
    lessonCount d (put (takeAll p confs) a slot) act.classId m (slot / PERIODS_PER_SESSION) ≤
      lessonCount d (remaining p a confs) act.classId m (slot / PERIODS_PER_SESSION) +
        act.duration := by
  refine le_trans (filter_length_or (List.range PERIODS_PER_SESSION) ?_)
    (Nat.add_le_add_left (filter_window_length PERIODS_PER_SESSION (periodIdx slot) act.duration) _)
  intro i _ hi
  cases taught_put ha (of_decide_eq_true hi) with
  | inl h => exact Or.inl (decide_eq_true h)
  | inr h =>
    obtain ⟨_, _, hlo, hhi⟩ := h
    right
    apply decide_eq_true
    rw [periodIdx_eq]
    simp only [PERIODS_PER_SESSION] at hlo hhi ⊢
    omega

open Classical in
/-- One placement: if it breaks up no subject, the rule still holds after it. -/
theorem Good.step (hg : Ground d base) (hgood : Good d p) (hfit : Fits d set base p a slot confs)
    (hun : ∀ act, d.activities[a]? = some act → Unbroken d p a act slot confs) :
    Good d (put (takeAll p confs) a slot) := by
  obtain ⟨g, act, hb, rfl, ha, hc⟩ := hfit
  have hchk := conflicts_some hc
  have hstep := hun act ha
  have hmem : act ∈ d.activities := List.mem_of_getElem? ha
  constructor
  · intro c m k
    by_cases htarget : c = act.classId ∧ m = d.getCanonMonKey act.mon ∧
        k = slot / PERIODS_PER_SESSION
    · obtain ⟨rfl, rfl, rfl⟩ := htarget
      by_cases hout : ∀ i < PERIODS_PER_SESSION, ¬ d.Covers g.actPlacement a
          (.lop act.classId, slot / PERIODS_PER_SESSION * PERIODS_PER_SESSION + i)
      · -- the periods the test counted are exactly the lessons after the placement
        intro i j l hij hjl hl hi hl'
        apply taught_put_of_mem hg hb ha hout
        have hconv := contiguous_convex _ hchk.together hij hjl hl
        have hi' := (List.mem_filter.mp (mem_of_taught_put hg hb ha (by omega) hi)).2
        have hl'' := (List.mem_filter.mp (mem_of_taught_put hg hb ha hl hl')).2
        exact List.mem_filter.mpr ⟨List.mem_range.mpr (by omega), hconv hi' hl''⟩
      · -- the activity stood in the session itself
        simp only [not_forall, not_not] at hout
        obtain ⟨i, hi, hcov⟩ := hout
        apply hstep.inside _ hcov
        simp only [PERIODS_PER_SESSION] at hi ⊢
        omega
    · exact (hstep.elsewhere c m k htarget).congr fun i hi =>
        taught_elsewhere ha hchk.inSession htarget hi
  · intro other hother k
    by_cases htarget : other.classId = act.classId ∧
        d.getCanonMonKey other.mon = d.getCanonMonKey act.mon ∧ k = slot / PERIODS_PER_SESSION
    · obtain ⟨hcl, hm, rfl⟩ := htarget
      rw [hcl, hm]
      cases hstep.spellings other hother hcl hm with
      | inl hle =>
        refine le_trans ?_ (le_trans hchk.limit hle)
        apply filter_length_mono
        intro i hi ht
        have hmem := mem_of_taught_put hg hb ha (List.mem_range.mp hi) (of_decide_eq_true ht)
        exact (List.mem_filter.mp hmem).2
      | inr hle => exact le_trans (lessonCount_put ha _) hle
    · refine le_trans (lessonCount_mono ?_) (hgood.within other hother k)
      intro i hi ht
      have hback := (taught_elsewhere ha hchk.inSession htarget hi).mpr ht
      exact hback.mono fun _ hb => remaining_sub hb

end Step

section Runs
variable {base : Row κ → Nat → Cell}

/-- The states construction reaches from the fixed cells alone by top-level
searches whose kept placements meet `ok`; between two of them the caller may
change anything but the grids. -/
inductive Constructed (d : Desk κ) (base : Row κ → Nat → Cell)
    (ok : Settings κ → (Nat → Option Nat) → Chain → Prop) : State κ → Prop where
  | start {st : State κ} : Booked d base st.grids → st.plan = (fun _ => none) →
      st.swappedInBranch = [] → Constructed d base ok st
  | between {st st' : State κ} : Constructed d base ok st → st'.grids = st.grids →
      st'.swappedInBranch = [] → Constructed d base ok st'
  | swap {st : State κ} (set : Settings κ) (a : Nat) (restrictSlots : Option (List Nat)) :
      Constructed d base ok st →
      (∀ kept, (randomSwap d set st a 0 restrictSlots).2 = some kept → ok set st.plan kept) →
      Constructed d base ok (randomSwap d set st a 0 restrictSlots).1
  | eject {st : State κ} (set : Settings κ) (a : Nat) : Constructed d base ok st →
      a < d.activities.length →
      (∀ kept, (tryEjectionChain d set st a).2 = some kept → ok set st.plan kept) →
      Constructed d base ok (tryEjectionChain d set st a).1

theorem Constructed.booked (hg : Ground d base)
    {ok : Settings κ → (Nat → Option Nat) → Chain → Prop} {st : State κ}
    (h : Constructed d base ok st) : Booked d base st.grids := by
  induction h with
  | start hb _ _ => exact hb
  | between _ hgr _ ih => exact hgr.symm ▸ ih
  | @swap st set a restrictSlots _ _ ih => exact (randomSwap_settled set hg st ih a restrictSlots).1.booked
  | @eject st set a _ ha _ ih => exact (tryEjectionChain_settled set hg st ih ha).1.booked

theorem Good.performs (hg : Ground d base) {set : Settings κ} {p q : Nat → Option Nat}
    {kept : Chain} (hp : Performs d set base p kept q) (hgood : Good d p)
    (hs : Steady d set base p kept) : Good d q := by
  induction hp with
  | nil => exact hgood
  | @cons p q a slot confs kept hfit _ ih =>
    obtain ⟨hun, hrest⟩ := hs confs hfit
    exact ih (hgood.step hg hfit hun) hrest

/-- A search whose kept placements are steady keeps the rule. -/
theorem Good.settled (hg : Ground d base) {set : Settings κ} {g g' : Grids κ} {a : Nat}
    {res : Option Chain} (h : Settled d set base g a (g', res)) (hgood : Good d g.actPlacement)
    (hs : ∀ kept, res = some kept → Steady d set base g.actPlacement kept) :
    Good d g'.actPlacement := by
  cases res with
  | none => exact (h.undone rfl : g'.actPlacement = g.actPlacement) ▸ hgood
  | some kept => exact hgood.performs hg (h.kept kept rfl).1 (hs kept rfl)

/-- A placement that displaces nobody and moves nobody breaks up no subject that
has one limit in its class. -/
theorem Unbroken.alone {p : Nat → Option Nat} (hgood : Good d p) {a slot : Nat} {act : Act κ}
    (hn : p a = none)
    (hlimit : ∀ other ∈ d.activities, other.classId = act.classId →
      d.getCanonMonKey other.mon = d.getCanonMonKey act.mon →
      d.getSubjectSessionLimit act ≤ d.getSubjectSessionLimit other) :
    Unbroken d p a act slot [] where
  elsewhere := by
    intro c m k _
    have hrem : remaining p a [] = p := take_none hn
    rw [hrem]
    exact hgood.together c m k
  inside := by
    rintro s ⟨old, hold, _⟩
    simp [hn] at hold
  spellings := fun other ho hc hm => Or.inl (hlimit other ho hc hm)

end Runs

section Split

end Split

end TkbCherry.Fet
