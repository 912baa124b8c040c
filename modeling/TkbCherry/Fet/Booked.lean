import TkbCherry.Fet.Model

/-! States in which the grids hold exactly the placed activities. Such grids are
determined, cell by cell, by the placement and by what the empty grids show. -/

namespace TkbCherry.Fet
open Booking
set_option autoImplicit false
set_option linter.unusedSectionVars false

variable {κ : Type} [DecidableEq κ]

/-- Off or fixed by the key sets of the row's kind. -/
def Desk.blocked (d : Desk κ) : Row κ → Nat → Bool
  | .lop c, s => d.offSlots c s || (d.fixedSlots c s).isSome
  | .gv t, s => d.teacherOffSlots t s
  | .phong k, s => d.roomOffSlots k s

/-- What the grids show before anything is placed: no activity, and in a class's
row exactly the off and the fixed cells. -/
structure Ground (d : Desk κ) (base : Row κ → Nat → Cell) : Prop where
  lop : ∀ c s, base (.lop c) s = cleared d (.lop c) s
  empty : ∀ r s a, base r s ≠ .act a

/-- The activity covers the cell when it stands at the slot. -/
def Desk.CellOf (d : Desk κ) (a slot : Nat) (x : Row κ × Nat) : Prop :=
  ∃ act, d.activities[a]? = some act ∧ x ∈ act.cells slot

/-- A cell that may be used: free in the empty grids and not off. -/
def Desk.Usable (d : Desk κ) (base : Row κ → Nat → Cell) (x : Row κ × Nat) : Prop :=
  base x.1 x.2 = .free ∧ d.blocked x.1 x.2 = false

abbrev Desk.Covers (d : Desk κ) (p : Nat → Option Nat) (a : Nat) (x : Row κ × Nat) : Prop :=
  Booking.Covers d.CellOf p a x

/-- No double booking, and nothing on an off or a fixed cell. -/
abbrev Desk.Legal (d : Desk κ) (base : Row κ → Nat → Cell) (p : Nat → Option Nat) : Prop :=
  Booking.Legal d.CellOf (d.Usable base) p

/-- The grids hold exactly the placed activities. -/
structure Booked (d : Desk κ) (base : Row κ → Nat → Cell) (g : Grids κ) : Prop where
  legal : d.Legal base g.actPlacement
  known : ∀ a, g.actPlacement a ≠ none → a < d.activities.length
  held : ∀ a x, d.Covers g.actPlacement a x → g.read x.1 x.2 = .act a
  bare : ∀ x, (∀ a, ¬ d.Covers g.actPlacement a x) → g.read x.1 x.2 = base x.1 x.2
  made : ∀ act ∈ d.activities, (g.rows (.lop act.classId)).isSome

/-- Every cell reads the same in both. -/
def SameCells (g g' : Grids κ) : Prop := ∀ r s, g'.read r s = g.read r s

/-- Rows are made, never removed. -/
def Grows (g g' : Grids κ) : Prop := ∀ r, (g.rows r).isSome → (g'.rows r).isSome

section Writes

theorem read_write (g : Grids κ) (r r' : Row κ) (s s' : Nat) (c : Cell) :
    (g.write r s c).read r' s' = if r' = r ∧ s' = s then c else g.read r' s' := by
  by_cases hr : r' = r
  · subst hr
    by_cases hs : s' = s
    · simp [Grids.write, Grids.read, hs]
    · simp [Grids.write, Grids.read, hs]
  · simp [Grids.write, Grids.read, hr]

theorem read_foldl_write (a : Nat) (l : List (Row κ × Nat)) (g : Grids κ) (x : Row κ × Nat) :
    (l.foldl (fun g x => g.write x.1 x.2 (.act a)) g).read x.1 x.2 =
      if x ∈ l then .act a else g.read x.1 x.2 := by
  induction l generalizing g with
  | nil => simp
  | cons y l ih =>
    rw [List.foldl_cons, ih, read_write]
    by_cases hl : x ∈ l
    · simp [hl]
    · by_cases hy : x = y
      · simp [hy]
      · have hne : ¬ (x.1 = y.1 ∧ x.2 = y.2) := fun h => hy (Prod.ext h.1 h.2)
        simp [hl, hy, hne]

theorem cleared_ne_act (d : Desk κ) (r : Row κ) (s a : Nat) : cleared d r s ≠ .act a := by
  cases r with
  | lop c =>
    by_cases ho : d.offSlots c s
    · simp [cleared, ho]
    · by_cases hf : (d.fixedSlots c s).isSome
      · simp [cleared, ho, hf]
      · simp [cleared, ho, hf]
  | gv t =>
    by_cases ho : d.teacherOffSlots t s
    · simp [cleared, ho]
    · simp [cleared, ho]
  | phong k => simp [cleared]

theorem read_clear (d : Desk κ) (a : Nat) (g : Grids κ) (y x : Row κ × Nat) :
    (clear d a g y).read x.1 x.2 =
      if x = y ∧ g.read x.1 x.2 = .act a then cleared d x.1 x.2 else g.read x.1 x.2 := by
  by_cases hg : g.read y.1 y.2 = .act a
  · by_cases hx : x = y
    · subst hx
      simp [clear, hg, read_write]
    · have hne : ¬ (x.1 = y.1 ∧ x.2 = y.2) := fun h => hx (Prod.ext h.1 h.2)
      simp [clear, hg, read_write, hx, hne]
  · by_cases hx : x = y
    · subst hx
      simp [clear, hg]
    · simp [clear, hg, hx]

theorem read_foldl_clear (d : Desk κ) (a : Nat) (l : List (Row κ × Nat)) (g : Grids κ)
    (x : Row κ × Nat) :
    (l.foldl (clear d a) g).read x.1 x.2 =
      if x ∈ l ∧ g.read x.1 x.2 = .act a then cleared d x.1 x.2 else g.read x.1 x.2 := by
  induction l generalizing g with
  | nil => simp
  | cons y l ih =>
    rw [List.foldl_cons, ih, read_clear]
    by_cases ha : g.read x.1 x.2 = .act a
    · by_cases hy : x = y
      · subst hy
        simp [ha, cleared_ne_act]
      · simp [ha, hy]
    · simp [ha]

theorem placement_foldl_write (a : Nat) (l : List (Row κ × Nat)) (g : Grids κ) :
    (l.foldl (fun g x => g.write x.1 x.2 (.act a)) g).actPlacement = g.actPlacement := by
  induction l generalizing g with
  | nil => rfl
  | cons y l ih => rw [List.foldl_cons, ih]; rfl

theorem placement_clear (d : Desk κ) (a : Nat) (g : Grids κ) (x : Row κ × Nat) :
    (clear d a g x).actPlacement = g.actPlacement := by
  by_cases h : g.read x.1 x.2 = .act a
  · simp [clear, h, Grids.write]
  · simp [clear, h]

theorem placement_foldl_clear (d : Desk κ) (a : Nat) (l : List (Row κ × Nat)) (g : Grids κ) :
    (l.foldl (clear d a) g).actPlacement = g.actPlacement := by
  induction l generalizing g with
  | nil => rfl
  | cons y l ih => rw [List.foldl_cons, ih, placement_clear]

end Writes

section Rows

theorem Grows.refl (g : Grids κ) : Grows g g := fun _ h => h

theorem Grows.trans {g g' g'' : Grids κ} (h : Grows g g') (h' : Grows g' g'') : Grows g g'' :=
  fun r hr => h' r (h r hr)

theorem grows_write (g : Grids κ) (r : Row κ) (s : Nat) (c : Cell) : Grows g (g.write r s c) := by
  intro r' hr'
  by_cases h : r' = r
  · simp [Grids.write, h]
  · simpa [Grids.write, h] using hr'

theorem grows_foldl {β : Type} (f : Grids κ → β → Grids κ) (hf : ∀ g x, Grows g (f g x))
    (l : List β) (g : Grids κ) : Grows g (l.foldl f g) := by
  induction l generalizing g with
  | nil => exact Grows.refl g
  | cons y l ih => exact (hf g y).trans (ih (f g y))

theorem grows_clear (d : Desk κ) (a : Nat) (g : Grids κ) (x : Row κ × Nat) :
    Grows g (clear d a g x) := by
  by_cases h : g.read x.1 x.2 = .act a
  · simpa [clear, h] using grows_write g x.1 x.2 _
  · simpa [clear, h] using Grows.refl g

theorem unplace_eq {d : Desk κ} {g : Grids κ} {a slot : Nat} {act : Act κ}
    (ha : d.activities[a]? = some act) (hs : g.actPlacement a = some slot) :
    unplaceActivity d g a =
      { (act.cells slot).foldl (clear d a) g with actPlacement := take g.actPlacement a } := by
  simp [unplaceActivity, ha, hs, placement_foldl_clear]

theorem grows_unplace (d : Desk κ) (g : Grids κ) (a : Nat) : Grows g (unplaceActivity d g a) := by
  cases ha : d.activities[a]? with
  | none => simpa [unplaceActivity, ha] using Grows.refl g
  | some act =>
    cases hs : g.actPlacement a with
    | none => simpa [unplaceActivity, ha, hs] using Grows.refl g
    | some slot =>
      have h := grows_foldl _ (grows_clear d a) (act.cells slot) g
      rw [unplace_eq ha hs]
      exact fun r hr => h r hr

theorem grows_occupy (act : Act κ) (a slot : Nat) (g : Grids κ) :
    Grows g (occupy act a slot g) := by
  have h := grows_foldl (fun g (x : Row κ × Nat) => g.write x.1 x.2 (.act a))
    (fun g x => grows_write g x.1 x.2 (.act a)) (act.cells slot)
    { g with actPlacement := put g.actPlacement a slot }
  exact fun r hr => h r hr

theorem grows_place (d : Desk κ) (g : Grids κ) (a slot : Nat) :
    Grows g (placeActivityDirect d g a slot) := by
  cases ha : d.activities[a]? with
  | none => simpa [placeActivityDirect, ha] using Grows.refl g
  | some act =>
    by_cases h : g.actPlacement a ≠ none ∧ g.actPlacement a ≠ some slot
    · simpa [placeActivityDirect, ha, h] using
        (grows_unplace d g a).trans (grows_occupy act a slot _)
    · simpa [placeActivityDirect, ha, h] using grows_occupy act a slot g

/-- A row that was there is the same row if it reads the same. -/
theorem row_eq {g g' : Grids κ} (hsame : SameCells g g') (hgrow : Grows g g') {r : Row κ}
    {row : Nat → Cell} (hr : g.rows r = some row) : g'.rows r = some row := by
  have hsome : (g'.rows r).isSome := hgrow r (by simp [hr])
  obtain ⟨row', hr'⟩ := Option.isSome_iff_exists.mp hsome
  rw [hr']
  congr 1
  funext s
  simpa [Grids.read, hr, hr'] using hsame r s

/-- A row that was not there is missing still, or all free. -/
theorem row_free {g g' : Grids κ} (hsame : SameCells g g') {r : Row κ} {row : Nat → Cell}
    (hr : g.rows r = none) (hr' : g'.rows r = some row) (s : Nat) : row s = .free := by
  simpa [Grids.read, hr, hr'] using hsame r s

end Rows

namespace Booked

variable {d : Desk κ} {base : Row κ → Nat → Cell} {g g' : Grids κ}

theorem exists_act (h : Booked d base g) {a slot : Nat} (hp : g.actPlacement a = some slot) :
    ∃ act, d.activities[a]? = some act :=
  ⟨_, List.getElem?_eq_getElem (h.known a (by simp [hp]))⟩

theorem read_act (hg : Ground d base) (h : Booked d base g) {a : Nat} {x : Row κ × Nat} :
    g.read x.1 x.2 = .act a ↔ d.Covers g.actPlacement a x := by
  constructor
  · intro hr
    by_cases hc : ∃ b, d.Covers g.actPlacement b x
    · obtain ⟨b, hb⟩ := hc
      have hab := h.held b x hb
      rw [hr] at hab
      cases hab
      exact hb
    · have hbase := h.bare x (not_exists.mp hc)
      rw [hr] at hbase
      exact absurd hbase.symm (hg.empty _ _ a)
  · exact h.held a x

/-- Two booked states with one placement show the same cells. -/
theorem same_cells (h : Booked d base g) (h' : Booked d base g')
    (hp : g'.actPlacement = g.actPlacement) : SameCells g g' := by
  intro r s
  by_cases hc : ∃ b, d.Covers g.actPlacement b (r, s)
  · obtain ⟨b, hb⟩ := hc
    exact (h'.held b (r, s) (hp ▸ hb)).trans (h.held b (r, s) hb).symm
  · have hc' : ∀ b, ¬ d.Covers g.actPlacement b (r, s) := not_exists.mp hc
    exact (h'.bare (r, s) (hp ▸ hc')).trans (h.bare (r, s) hc').symm

theorem unplace (hg : Ground d base) (h : Booked d base g) (a : Nat) :
    Booked d base (unplaceActivity d g a) ∧
      (unplaceActivity d g a).actPlacement = take g.actPlacement a := by
  cases hs : g.actPlacement a with
  | none =>
    have heq : unplaceActivity d g a = g := by
      cases ha : d.activities[a]? with
      | none => simp [unplaceActivity, ha]
      | some act => simp [unplaceActivity, ha, hs]
    rw [heq, take_none hs]
    exact ⟨h, rfl⟩
  | some slot =>
    obtain ⟨act, ha⟩ := h.exists_act hs
    have hp : (unplaceActivity d g a).actPlacement = take g.actPlacement a := by
      rw [unplace_eq ha hs]
    have hread (x : Row κ × Nat) : (unplaceActivity d g a).read x.1 x.2 =
        if x ∈ act.cells slot ∧ g.read x.1 x.2 = .act a then cleared d x.1 x.2
        else g.read x.1 x.2 := by
      rw [← read_foldl_clear, unplace_eq ha hs]
      rfl
    have hcov (x : Row κ × Nat) : d.Covers g.actPlacement a x ↔ x ∈ act.cells slot := by
      simp [Booking.Covers, Desk.CellOf, hs, ha]
    refine ⟨⟨hp ▸ h.legal.take a, ?_, ?_, ?_, ?_⟩, hp⟩
    · intro b hb
      apply h.known b
      intro hb'
      apply hb
      rw [hp]
      by_cases hba : b = a
      · simp [hba]
      · rw [take_other hba, hb']
    · intro b x hb
      rw [hp] at hb
      obtain ⟨hba, hb⟩ := covers_take.mp hb
      have hr := h.held b x hb
      rw [hread, hr]
      simp [hba]
    · intro x hx
      rw [hp] at hx
      rw [hread]
      by_cases hxa : x ∈ act.cells slot
      · -- the cell was the activity's own: it is usable, so clearing it leaves it free
        have hc := (hcov x).mpr hxa
        have hopen := h.legal.allowed hc
        rw [h.held a x hc, if_pos ⟨hxa, rfl⟩, hopen.1]
        obtain ⟨r, s⟩ := x
        cases r with
        | lop c => exact (hg.lop c s).symm.trans hopen.1
        | gv t =>
          have ho : d.teacherOffSlots t s = false := hopen.2
          simp [cleared, ho]
        | phong k => rfl
      · rw [if_neg (fun hh => hxa hh.1)]
        apply h.bare x
        intro b hb
        apply hx b
        refine covers_take.mpr ⟨?_, hb⟩
        rintro rfl
        exact hxa ((hcov x).mp hb)
    · intro e he
      exact grows_unplace d g a _ (h.made e he)

private theorem occupied (h : Booked d base g) {a slot : Nat} {act : Act κ}
    (ha : d.activities[a]? = some act) (hp : g.actPlacement a = none ∨ g.actPlacement a = some slot)
    (hl : d.Legal base (put g.actPlacement a slot)) :
    Booked d base (occupy act a slot g) := by
  have hplace : (occupy act a slot g).actPlacement = put g.actPlacement a slot :=
    placement_foldl_write _ _ _
  have hread (x : Row κ × Nat) : (occupy act a slot g).read x.1 x.2 =
      if x ∈ act.cells slot then .act a else g.read x.1 x.2 := by
    rw [occupy, read_foldl_write]
    rfl
  have hcov (x : Row κ × Nat) : d.Covers (put g.actPlacement a slot) a x ↔ x ∈ act.cells slot := by
    simp [Booking.Covers, Desk.CellOf, ha]
  have hother {b : Nat} {x : Row κ × Nat} (hx : x ∉ act.cells slot)
      (hb : d.Covers g.actPlacement b x) : b ≠ a := by
    rintro rfl
    obtain ⟨s, hs, e, he, hxe⟩ := hb
    cases hp with
    | inl hp => simp [hp] at hs
    | inr hp =>
      rw [hp] at hs
      cases hs
      rw [ha] at he
      cases he
      exact hx hxe
  refine ⟨hplace ▸ hl, ?_, ?_, ?_, ?_⟩
  · intro b hb
    by_cases hba : b = a
    · subst hba
      exact (List.getElem?_eq_some_iff.mp ha).1
    · rw [hplace, put_other hba] at hb
      exact h.known b hb
  · intro b x hb
    rw [hplace] at hb
    rw [hread]
    by_cases hx : x ∈ act.cells slot
    · rw [if_pos hx, hl.apart hb ((hcov x).mpr hx)]
    · rw [if_neg hx]
      by_cases hba : b = a
      · subst hba
        exact absurd ((hcov x).mp hb) hx
      · exact h.held b x ((covers_put_other hba).mp hb)
  · intro x hx
    rw [hplace] at hx
    have hxa : x ∉ act.cells slot := fun hxa => hx a ((hcov x).mpr hxa)
    rw [hread, if_neg hxa]
    apply h.bare x
    intro b hb
    exact hx b ((covers_put_other (hother hxa hb)).mpr hb)
  · intro e he
    exact grows_occupy act a slot g _ (h.made e he)

/-- Placing keeps a state booked whenever the plan it leads to is legal. -/
theorem place (hg : Ground d base) (h : Booked d base g) {a slot : Nat} {act : Act κ}
    (ha : d.activities[a]? = some act) (hl : d.Legal base (put g.actPlacement a slot)) :
    Booked d base (placeActivityDirect d g a slot) ∧
      (placeActivityDirect d g a slot).actPlacement = put g.actPlacement a slot := by
  by_cases hp : g.actPlacement a ≠ none ∧ g.actPlacement a ≠ some slot
  · obtain ⟨hu, hup⟩ := h.unplace hg a
    have heq : placeActivityDirect d g a slot = occupy act a slot (unplaceActivity d g a) := by
      simp [placeActivityDirect, ha, hp]
    have hput : put (unplaceActivity d g a).actPlacement a slot = put g.actPlacement a slot := by
      rw [hup, put_take]
    rw [heq]
    refine ⟨hu.occupied ha (Or.inl (by rw [hup, take_self])) (hput ▸ hl), ?_⟩
    rw [← hput]
    exact placement_foldl_write _ _ _
  · have heq : placeActivityDirect d g a slot = occupy act a slot g := by
      simp [placeActivityDirect, ha, hp]
    have hp' : g.actPlacement a = none ∨ g.actPlacement a = some slot := by
      by_cases hn : g.actPlacement a = none
      · exact Or.inl hn
      · exact Or.inr (not_not.mp fun hs => hp ⟨hn, hs⟩)
    rw [heq]
    exact ⟨h.occupied ha hp' hl, placement_foldl_write _ _ _⟩

end Booked

end TkbCherry.Fet
