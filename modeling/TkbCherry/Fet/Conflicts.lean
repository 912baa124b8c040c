import TkbCherry.Fet.Booked
import TkbCherry.Fet.Search

/-! What a positive answer of `getConflictsForSlot` says: the conflicts are exactly
the other activities in the way, and once they are gone the slot can be taken. -/

namespace TkbCherry.Fet
open Booking
set_option autoImplicit false
set_option linter.unusedSectionVars false

variable {κ : Type} [DecidableEq κ] {d : Desk κ}

section Scan

theorem mem_addConflict {a b : Nat} {confs : List Nat} {c : Cell} :
    b ∈ addConflict a confs c ↔ b ∈ confs ∨ (c = .act b ∧ b ≠ a) := by
  cases c with
  | act e =>
    by_cases h : e = a ∨ e ∈ confs
    · simp only [addConflict, if_pos h, Cell.act.injEq]
      constructor
      · exact Or.inl
      · intro hb
        cases hb with
        | inl hb => exact hb
        | inr hb =>
          obtain ⟨rfl, hne⟩ := hb
          exact h.resolve_left hne
    · simp only [addConflict, if_neg h, List.mem_append, List.mem_singleton, Cell.act.injEq]
      constructor
      · intro hb
        cases hb with
        | inl hb => exact Or.inl hb
        | inr hb =>
          subst hb
          exact Or.inr ⟨rfl, fun hba => h (Or.inl hba)⟩
      · intro hb
        cases hb with
        | inl hb => exact Or.inl hb
        | inr hb => exact Or.inr hb.1.symm
  | free => simp [addConflict]
  | off => simp [addConflict]
  | fixed => simp [addConflict]

/-- A scanned cell is not blocked, and its occupant is noted. -/
theorem scanCell_some {g : Grids κ} {a : Nat} {act : Act κ} {confs confs' : List Nat}
    {x : Row κ × Nat} (h : scanCell d g a act confs x = some confs') :
    d.blocked x.1 x.2 = false ∧
      (blockedCell (g.read x.1 x.2) = true → ∃ c, x.1 = .lop c) ∧
      confs' = addConflict a confs (g.read x.1 x.2) := by
  obtain ⟨r, s⟩ := x
  cases r with
  | lop c =>
    by_cases ho : d.offSlots c s
    · simp [scanCell, ho] at h
    by_cases hf : (d.fixedSlots c s).isSome
    · simp [scanCell, ho, hf] at h
    by_cases hs : d.subjectOffSlots act.canonKey s || d.subjectOffSlots (d.normalizeMonName act.mon) s
    · simp [scanCell, ho, hf, hs] at h
    simp only [scanCell, ho, hf, hs, Bool.false_eq_true, if_false, Option.some.injEq] at h
    exact ⟨by simp [Desk.blocked, ho, hf], fun _ => ⟨c, rfl⟩, h.symm⟩
  | gv t =>
    by_cases ho : d.teacherOffSlots t s
    · simp [scanCell, ho] at h
    by_cases hb : blockedCell (g.read (.gv t) s)
    · simp [scanCell, ho, hb] at h
    simp only [scanCell, ho, hb, Bool.false_eq_true, if_false, Option.some.injEq] at h
    exact ⟨by simp [Desk.blocked, ho], fun hb' => absurd hb' hb, h.symm⟩
  | phong k =>
    by_cases ho : d.roomOffSlots k s
    · simp [scanCell, ho] at h
    by_cases hb : blockedCell (g.read (.phong k) s)
    · simp [scanCell, ho, hb] at h
    simp only [scanCell, ho, hb, Bool.false_eq_true, if_false, Option.some.injEq] at h
    exact ⟨by simp [Desk.blocked, ho], fun hb' => absurd hb' hb, h.symm⟩

/-- What the scan of a list of cells has found. -/
structure Scanned (d : Desk κ) (g : Grids κ) (a : Nat) (l : List (Row κ × Nat))
    (confs confs' : List Nat) : Prop where
  unblocked : ∀ x ∈ l, d.blocked x.1 x.2 = false
  clean : ∀ x ∈ l, blockedCell (g.read x.1 x.2) = true → ∃ c, x.1 = .lop c
  mem : ∀ b, b ∈ confs' ↔ b ∈ confs ∨ (b ≠ a ∧ ∃ x ∈ l, g.read x.1 x.2 = .act b)

theorem scan_some {g : Grids κ} {a : Nat} {act : Act κ} (l : List (Row κ × Nat))
    {confs confs' : List Nat} (h : l.foldlM (scanCell d g a act) confs = some confs') :
    Scanned d g a l confs confs' := by
  induction l generalizing confs with
  | nil =>
    have hc : confs = confs' := by simpa using h
    subst hc
    exact ⟨by simp, by simp, by simp⟩
  | cons x l ih =>
    rw [List.foldlM_cons] at h
    obtain ⟨mid, hx, hl⟩ := Option.bind_eq_some_iff.mp h
    obtain ⟨hun, hcl, hmid⟩ := scanCell_some hx
    have hrest := ih hl
    refine ⟨?_, ?_, ?_⟩
    · intro y hy
      cases List.mem_cons.mp hy with
      | inl hy => exact hy ▸ hun
      | inr hy => exact hrest.unblocked y hy
    · intro y hy
      cases List.mem_cons.mp hy with
      | inl hy => exact hy ▸ hcl
      | inr hy => exact hrest.clean y hy
    · intro b
      rw [hrest.mem, hmid, mem_addConflict]
      constructor
      · intro hb
        rcases hb with (hb | ⟨hread, hne⟩) | ⟨hne, y, hy, hread⟩
        · exact Or.inl hb
        · exact Or.inr ⟨hne, x, List.mem_cons_self, hread⟩
        · exact Or.inr ⟨hne, y, List.mem_cons_of_mem _ hy, hread⟩
      · intro hb
        rcases hb with hb | ⟨hne, y, hy, hread⟩
        · exact Or.inl (Or.inl hb)
        · cases List.mem_cons.mp hy with
          | inl hy => exact Or.inl (Or.inr ⟨hy ▸ hread, hne⟩)
          | inr hy => exact Or.inr ⟨hne, y, hy, hread⟩

end Scan

/-- Everything the conflict test has checked when it answers. -/
structure Checked (d : Desk κ) (set : Settings κ) (g : Grids κ) (a : Nat) (act : Act κ)
    (slot : Nat) (confs : List Nat) : Prop where
  inSession : periodIdx slot + act.duration ≤ PERIODS_PER_SESSION
  scanned : Scanned d g a (act.cells slot) [] confs
  limit : (subjectPeriods d g act slot confs).length ≤ d.getSubjectSessionLimit act
  together : contiguous (subjectPeriods d g act slot confs) = true

theorem conflicts_some {set : Settings κ} {g : Grids κ} {a : Nat} {act : Act κ} {slot : Nat}
    {confs : List Nat} (h : getConflictsForSlot d set g a act slot = some confs) :
    Checked d set g a act slot confs := by
  by_cases hp : PERIODS_PER_SESSION < periodIdx slot + act.duration
  · simp [getConflictsForSlot, hp] at h
  by_cases hca : keepsCa act slot
  · cases hscan : (act.cells slot).foldlM (scanCell d g a act) [] with
    | none => simp [getConflictsForSlot, hp, hca, hscan] at h
    | some found =>
      by_cases hgap : set.strictFetGaps && !teacherGapsOk g a act slot found
      · simp [getConflictsForSlot, hp, hca, hscan, hgap] at h
      by_cases hlim : d.getSubjectSessionLimit act < (subjectPeriods d g act slot found).length
      · simp [getConflictsForSlot, hp, hca, hscan, hgap, hlim] at h
      by_cases htog : contiguous (subjectPeriods d g act slot found)
      · have hfound : found = confs := by
          simpa [getConflictsForSlot, hp, hca, hscan, hgap, hlim, htog] using h
        subst hfound
        exact ⟨Nat.le_of_not_lt hp, scan_some _ hscan, Nat.le_of_not_lt hlim, htog⟩
      · simp [getConflictsForSlot, hp, hca, hscan, hgap, hlim, htog] at h
  · simp [getConflictsForSlot, hp, hca] at h

/-- The conflict test answered so, at some booked state with this placement. -/
def Fits (d : Desk κ) (set : Settings κ) (base : Row κ → Nat → Cell) (p : Nat → Option Nat)
    (a slot : Nat) (confs : List Nat) : Prop :=
  ∃ g act, Booked d base g ∧ g.actPlacement = p ∧ d.activities[a]? = some act ∧
    getConflictsForSlot d set g a act slot = some confs

/-- The placements of a search, one after another: each takes its conflicts out. -/
inductive Performs (d : Desk κ) (set : Settings κ) (base : Row κ → Nat → Cell) :
    (Nat → Option Nat) → Chain → (Nat → Option Nat) → Prop where
  | nil (p : Nat → Option Nat) : Performs d set base p [] p
  | cons {p q : Nat → Option Nat} {a slot : Nat} {confs : List Nat} {kept : Chain} :
      Fits d set base p a slot confs →
      Performs d set base (put (takeAll p confs) a slot) kept q →
      Performs d set base p ((a, slot) :: kept) q

theorem Performs.append {set : Settings κ} {base : Row κ → Nat → Cell} {p q r : Nat → Option Nat}
    {kept kept' : Chain} (h : Performs d set base p kept q)
    (h' : Performs d set base q kept' r) : Performs d set base p (kept ++ kept') r := by
  induction h with
  | nil => exact h'
  | cons hf _ ih => exact .cons hf (ih h')

section Consequences
variable {set : Settings κ} {base : Row κ → Nat → Cell} {p : Nat → Option Nat} {a slot : Nat}
  {confs : List Nat}

theorem Fits.exists_act (h : Fits d set base p a slot confs) :
    ∃ act, d.activities[a]? = some act := by
  obtain ⟨_, act, _, _, ha, _⟩ := h
  exact ⟨act, ha⟩

/-- The conflicts are the other activities that cover a cell of the slot tried. -/
theorem Fits.mem_iff (hg : Ground d base) (h : Fits d set base p a slot confs) {c : Nat} :
    c ∈ confs ↔ c ≠ a ∧ ∃ x, d.CellOf a slot x ∧ d.Covers p c x := by
  obtain ⟨g, act, hb, rfl, ha, hc⟩ := h
  rw [(conflicts_some hc).scanned.mem]
  constructor
  · intro hm
    rcases hm with hm | ⟨hne, x, hx, hread⟩
    · cases hm
    · exact ⟨hne, x, ⟨act, ha, hx⟩, (hb.read_act hg).mp hread⟩
  · rintro ⟨hne, x, ⟨e, he, hx⟩, hcov⟩
    rw [ha] at he
    cases he
    exact Or.inr ⟨hne, x, hx, hb.held c x hcov⟩

theorem Fits.notMem (hg : Ground d base) (h : Fits d set base p a slot confs) : a ∉ confs :=
  fun ha => ((h.mem_iff hg).mp ha).1 rfl

theorem Fits.placed (hg : Ground d base) (h : Fits d set base p a slot confs) {c : Nat}
    (hc : c ∈ confs) : p c ≠ none := by
  obtain ⟨_, x, _, s, hs, _⟩ := (h.mem_iff hg).mp hc
  simp [hs]

/-- With the conflicts gone the slot is legal for the activity. -/
theorem Fits.legal (hg : Ground d base) (h : Fits d set base p a slot confs) :
    d.Legal base (put (takeAll p confs) a slot) := by
  have hmem := fun c => h.mem_iff hg (c := c)
  obtain ⟨g, act, hb, rfl, ha, hc⟩ := h
  have hs := (conflicts_some hc).scanned
  apply (hb.legal.takeAll confs).put
  · rintro x ⟨e, he, hx⟩
    rw [ha] at he
    cases he
    refine ⟨?_, hs.unblocked x hx⟩
    by_cases hcov : ∃ b, d.Covers g.actPlacement b x
    · obtain ⟨b, hcov⟩ := hcov
      exact (hb.legal.allowed hcov).1
    · -- nobody is there: the cell shows the empty grid, and was scanned as not blocked
      have hread := hb.bare x (not_exists.mp hcov)
      have hun := hs.unblocked x hx
      have hcl := hs.clean x hx
      rw [hread] at hcl
      obtain ⟨r, s⟩ := x
      cases r with
      | lop c =>
        obtain ⟨ho, hf⟩ : d.offSlots c s = false ∧ d.fixedSlots c s = none := by
          simpa [Desk.blocked] using hun
        simp [hg.lop c s, cleared, ho, hf]
      | gv t =>
        cases hcell : base (.gv t) s with
        | free => rfl
        | off => simp [hcell, blockedCell] at hcl
        | fixed => simp [hcell, blockedCell] at hcl
        | act b => exact absurd hcell (hg.empty _ _ b)
      | phong k =>
        cases hcell : base (.phong k) s with
        | free => rfl
        | off => simp [hcell, blockedCell] at hcl
        | fixed => simp [hcell, blockedCell] at hcl
        | act b => exact absurd hcell (hg.empty _ _ b)
  · intro x b hx hcov
    obtain ⟨hnot, hcov⟩ := covers_takeAll.mp hcov
    by_contra hne
    exact hnot ((hmem b).mpr ⟨hne, x, hx, hcov⟩)

/-- Whoever stood before stands after, but for the conflicts. -/
theorem Fits.keeps (confs : List Nat) {b : Nat} (hb : p b ≠ none) (hc : b ∉ confs) :
    put (takeAll p confs) a slot b ≠ none := by
  by_cases hba : b = a
  · simp [hba]
  · rw [put_other hba, takeAll_notMem hc]
    exact hb

end Consequences

end TkbCherry.Fet
