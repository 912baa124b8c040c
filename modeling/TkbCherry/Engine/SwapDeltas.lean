import TkbCherry.Engine.Swaps
import TkbCherry.Engine.TilingSearch

/-!
# Measured moves are exact

A move is measured by making it and taking it back. Two schedules with one grid and the same places
stay so under the same writes, and a schedule that took a move back has the grid and the places it
had, as long as no teacher with place rules has two lessons at a slot.
-/

namespace TkbCherry.Engine

set_option autoImplicit false

open Array2 Filling

namespace SoftSchedule
variable {P : Problem} {k j : SoftSchedule P}

/-- The overlaps and the penalties of the grid. -/
def fullPenalty (k : SoftSchedule P) : Int := k.overlap + ∑ t, k.teacherRulePenalty t

def SamePlaces (k j : SoftSchedule P) : Prop :=
  ∀ t, P.teacherLocRules t = true → k.tloc t = j.tloc t

/-- One grid, the same places, and counters that are those of the grid. -/
structure Alike (k j : SoftSchedule P) : Prop where
  left : k.Inv
  right : j.Inv
  grid : k.grid = j.grid
  places : SamePlaces k j

theorem SamePlaces.dropPlace (h : SamePlaces k j) (u : P.Tch) (slot : Slot) (loc : Option Nat) :
    SamePlaces (k.dropPlace u slot loc) (j.dropPlace u slot loc) := by
  intro t ht
  by_cases htu : t = u
  · subst htu
    unfold SoftSchedule.dropPlace
    cases loc with
    | none => simpa [ht] using h t ht
    | some loc =>
      simp only [ht]
      funext x
      simp only [set2_apply, true_and, h t ht]
  · rw [dropPlace_tloc slot loc htu, dropPlace_tloc slot loc htu, h t ht]

theorem SamePlaces.addPlace (h : SamePlaces k j) (u : P.Tch) (slot : Slot) (loc : Option Nat) :
    SamePlaces (k.addPlace u slot loc) (j.addPlace u slot loc) := by
  intro t ht
  by_cases htu : t = u
  · subst htu
    unfold SoftSchedule.addPlace
    cases loc with
    | none => simpa [ht] using h t ht
    | some loc =>
      simp only [ht]
      funext x
      simp only [set2_apply, true_and, h t ht]
  · rw [addPlace_tloc slot loc htu, addPlace_tloc slot loc htu, h t ht]

theorem SamePlaces.dropLesson (h : SamePlaces k j) (slot : Slot) (o : Option P.Asg) :
    SamePlaces (k.dropLesson slot o) (j.dropLesson slot o) := by
  cases o with
  | none => exact h
  | some old =>
    show SamePlaces ((P.aTeachers old).foldl (dropTeacher slot old) k)
      ((P.aTeachers old).foldl (dropTeacher slot old) j)
    generalize P.aTeachers old = teachers
    induction teachers generalizing k j with
    | nil => exact h
    | cons u rest ih =>
      apply ih
      intro t ht
      rw [dropTeacher_tloc, dropTeacher_tloc]
      exact h.dropPlace u slot (P.aLoc old) t ht

theorem SamePlaces.addLesson (h : SamePlaces k j) (slot : Slot) (o : Option P.Asg) :
    SamePlaces (k.addLesson slot o) (j.addLesson slot o) := by
  cases o with
  | none => exact h
  | some ai =>
    show SamePlaces ((P.aTeachers ai).foldl (addTeacher slot ai) k)
      ((P.aTeachers ai).foldl (addTeacher slot ai) j)
    generalize P.aTeachers ai = teachers
    induction teachers generalizing k j with
    | nil => exact h
    | cons u rest ih =>
      apply ih
      intro t ht
      rw [addTeacher_tloc, addTeacher_tloc]
      exact h.addPlace u slot (P.aLoc ai) t ht

theorem Alike.setCell (h : Alike k j) (c : P.Cls) (slot : Slot) (ai : Option P.Asg) :
    Alike (k.setCell c slot ai) (j.setCell c slot ai) where
  left := setCell_inv h.left c slot ai
  right := setCell_inv h.right c slot ai
  grid := by rw [setCell_grid, setCell_grid, h.grid]
  places := by
    intro t ht
    unfold SoftSchedule.setCell
    rw [h.grid]
    dsimp only
    split
    · exact h.places t ht
    · exact (h.places.dropLesson slot (j.grid c slot)).addLesson slot ai t ht

/-- The penalties are then the same. -/
theorem Alike.penalties (h : Alike k j) :
    k.overlap = j.overlap ∧ ∀ t, k.teacherRulePenalty t = j.teacherRulePenalty t := by
  refine ⟨?_, fun t => teacherRulePenalty_congr ?_ (h.places t)⟩
  · rw [h.left.recount.overlap, h.right.recount.overlap, h.grid]
  · funext slot
    rw [h.left.tcnt, h.right.tcnt, h.grid]

theorem Alike.trans {i : SoftSchedule P} (h : Alike k j) (h' : Alike j i) : Alike k i where
  left := h.left
  right := h'.right
  grid := h.grid.trans h'.grid
  places := fun t ht => (h.places t ht).trans (h'.places t ht)

theorem Alike.fullPenalty_eq (h : Alike k j) : k.fullPenalty = j.fullPenalty := by
  obtain ⟨hover, hpen⟩ := h.penalties
  rw [fullPenalty, fullPenalty, hover, Finset.sum_congr rfl fun t _ => hpen t]

/-! ### The overlap -/

theorem sum_map_eq {A : Type} [Fintype A] [DecidableEq A] {l : List A} (h : l.Nodup) (g : A → Int) :
    (l.map g).sum = ∑ a, if a ∈ l then g a else 0 := by
  rw [← List.sum_toFinset g h]
  simp only [← List.mem_toFinset]
  rw [Finset.sum_ite_mem, Finset.univ_inter]

/-- At one slot. -/
theorem exchangeDelta_eq {leaving entering : List P.Tch} {slot : Slot} (hl : leaving.Nodup)
    (he : entering.Nodup) (hthere : ∀ t ∈ leaving, 1 ≤ k.tcnt t slot) (hk : ∀ t, 0 ≤ k.tcnt t slot) :
    k.exchangeDelta leaving entering slot = ∑ t, (max 0 (k.tcnt t slot - (leaving.count t : Int) +
      (entering.count t : Int) - 1) - max 0 (k.tcnt t slot - 1)) := by
  rw [exchangeDelta, sum_map_eq hl, sum_map_eq he, ← Finset.sum_add_distrib]
  refine Finset.sum_congr rfl fun t _ => ?_
  have hnonneg := hk t
  rw [hl.count, he.count]
  by_cases htl : t ∈ leaving
  · have hone := hthere t htl
    by_cases hte : t ∈ entering
    · simp only [htl, hte, if_true]
      split <;> split <;> omega
    · simp only [htl, hte, if_true, if_false]
      split <;> omega
  · by_cases hte : t ∈ entering
    · simp only [htl, hte, if_true, if_false]
      split <;> omega
    · simp only [htl, hte, if_false]
      omega

theorem teacherLoad_row (grid : P.Grid) (c : P.Cls) (row : Slot → Option P.Asg) (t : P.Tch)
    (slot : Slot) : P.teacherLoad (Function.update grid c row) t slot =
      P.teacherLoad grid t slot - ((P.members (grid c slot)).count t : Int) +
        ((P.members (row slot)).count t : Int) := by
  have hcol : P.teacherLoad (Function.update grid c row) t slot =
      P.teacherLoad (set2 grid c slot (row slot)) t slot := by
    rw [Problem.teacherLoad, Problem.teacherLoad, column, column]
    refine Finset.sum_congr rfl fun c' _ => ?_
    by_cases hc : c' = c
    · subst hc
      rw [Function.update_self, set2_self]
    · rw [Function.update_of_ne hc, set2_of_ne fun he => hc he.1]
  rw [hcol, Problem.teacherLoad, column_set2, if_pos rfl, Problem.teacherLoad]
  omega

/-- A run and a window that change places. -/
structure Exchange (row : Slot → Option P.Asg) (ai : P.Asg) (run : List Slot) (other : Option P.Asg)
    (window : List Slot) : Prop where
  run_nodup : run.Nodup
  window_nodup : window.Nodup
  run_cells : ∀ x ∈ run, row x = some ai
  window_cells : ∀ x ∈ window, row x = other
  disjoint : ∀ x ∈ run, x ∉ window

/-- `_swap_delta` is the change of the overlap. -/
theorem swapDelta_eq (hteachers : ∀ ai, (P.aTeachers ai).Nodup) (hk : k.Inv) (hj : j.Inv) {c : P.Cls}
    {ai : P.Asg} {run window : List Slot} {other : Option P.Asg}
    (h : Exchange (k.grid c) ai run other window)
    (hgrid : j.grid = Function.update k.grid c fun x =>
      if x ∈ run then other else if x ∈ window then some ai else k.grid c x) :
    k.swapDelta ai run other window = j.overlap - k.overlap := by
  have hmembers : ∀ o : Option P.Asg, (P.members o).Nodup := by
    intro o
    cases o with
    | none => exact List.nodup_nil
    | some a => exact hteachers a
  have hnonneg : ∀ t x, 0 ≤ k.tcnt t x := by
    intro t x
    rw [hk.tcnt, Problem.teacherLoad, column]
    exact Finset.sum_nonneg fun _ _ => Int.natCast_nonneg _
  have hthere : ∀ x t, t ∈ P.members (k.grid c x) → 1 ≤ k.tcnt t x := by
    intro x t ht
    have hle := le_column (f := fun o : Option P.Asg => ((P.members o).count t : Int))
      (fun o => Int.natCast_nonneg _) k.grid c x
    have hcount : 0 < (P.members (k.grid c x)).count t := List.count_pos_iff.mpr ht
    rw [hk.tcnt, Problem.teacherLoad]
    omega
  have hload : ∀ t x, j.tcnt t x = k.tcnt t x - ((P.members (k.grid c x)).count t : Int) +
      ((P.members (if x ∈ run then other else if x ∈ window then some ai else k.grid c x)).count t : Int) := by
    intro t x
    rw [hj.tcnt, hgrid, teacherLoad_row, hk.tcnt]
  have hrun : ∀ x ∈ run, k.exchangeDelta (P.aTeachers ai) (P.members other) x =
      ∑ t, (max 0 (j.tcnt t x - 1) - max 0 (k.tcnt t x - 1)) := by
    intro x hx
    have hcell := h.run_cells x hx
    rw [exchangeDelta_eq (hteachers ai) (hmembers other)
      (fun t ht => hthere x t (by rw [hcell]; exact ht)) fun t => hnonneg t x]
    refine Finset.sum_congr rfl fun t _ => ?_
    rw [hload, if_pos hx, hcell, Problem.members_some]
  have hwindow : ∀ x ∈ window, k.exchangeDelta (P.members other) (P.aTeachers ai) x =
      ∑ t, (max 0 (j.tcnt t x - 1) - max 0 (k.tcnt t x - 1)) := by
    intro x hx
    have hcell := h.window_cells x hx
    rw [exchangeDelta_eq (hmembers other) (hteachers ai)
      (fun t ht => hthere x t (by rw [hcell]; exact ht)) fun t => hnonneg t x]
    refine Finset.sum_congr rfl fun t _ => ?_
    rw [hload, if_neg fun hr => h.disjoint x hr hx, if_pos hx, hcell, Problem.members_some]
  have hrest : ∀ x, x ∉ run → x ∉ window →
      ∑ t, (max 0 (j.tcnt t x - 1) - max 0 (k.tcnt t x - 1)) = 0 := by
    intro x hr hw
    refine Finset.sum_eq_zero fun t _ => ?_
    rw [hload, if_neg hr, if_neg hw]
    omega
  have hover : j.overlap - k.overlap =
      ∑ x, ∑ t, (max 0 (j.tcnt t x - 1) - max 0 (k.tcnt t x - 1)) := by
    rw [hj.kept.overlap, hk.kept.overlap, tally, tally, ← Finset.sum_sub_distrib, Finset.sum_comm]
    exact Finset.sum_congr rfl fun t _ => (Finset.sum_sub_distrib _ _).symm
  rw [swapDelta, sum_map_eq h.run_nodup, sum_map_eq h.window_nodup, ← Finset.sum_add_distrib, hover]
  refine Finset.sum_congr rfl fun x _ => ?_
  by_cases hr : x ∈ run
  · rw [if_pos hr, if_neg (h.disjoint x hr), hrun x hr, add_zero]
  · by_cases hw : x ∈ window
    · rw [if_neg hr, if_pos hw, hwindow x hw, zero_add]
    · rw [if_neg hr, if_neg hw, hrest x hr hw, add_zero]

end SoftSchedule

namespace RuledSchedule
variable {P : Problem} {k j : RuledSchedule P}

/-- Every kept penalty is that of the grid. -/
structure Current (k : RuledSchedule P) : Prop where
  inv : k.toSoftSchedule.Inv
  total : k.rulePenTotal = ∑ t, k.rulePen t
  pen : ∀ t, k.rulePen t = k.teacherRulePenalty t

theorem Current.fullPenalty_eq (h : Current k) :
    k.fullPenalty = k.overlap + k.rulePenTotal := by
  rw [SoftSchedule.fullPenalty, h.total, Finset.sum_congr rfl fun t _ => h.pen t]

/-! ### Writing the cells of a class -/

/-- What the writes of a list leave, and the list that takes them back. -/
structure Written (c : P.Cls) (cells : List (RowChange P)) (k : RuledSchedule P)
    (r : RuledSchedule P × List (RowChange P) × Finset P.Tch) : Prop where
  inv : r.1.toSoftSchedule.Inv
  grid : r.1.grid = Function.update k.grid c (Placing.place Prod.fst Prod.snd (k.grid c) cells)
  rulePen : r.1.rulePen = k.rulePen
  total : r.1.rulePenTotal = k.rulePenTotal
  inverse : r.2.1 = cells.map fun e => (e.1, k.grid c e.1)
  touched : ∀ t ∈ r.2.2, ∃ e ∈ cells, t ∈ P.members (k.grid c e.1) ∨ t ∈ P.members e.2
  pen : ∀ t, t ∉ r.2.2 → r.1.teacherRulePenalty t = k.teacherRulePenalty t
  places : ∀ t, t ∉ r.2.2 → r.1.tloc t = k.tloc t

theorem writeCells_written (c : P.Cls) {cells : List (RowChange P)}
    (hnodup : (cells.map Prod.fst).Nodup) (hk : k.toSoftSchedule.Inv) :
    Written c cells k (writeCells c cells k) := by
  induction cells generalizing k with
  | nil =>
    refine ⟨hk, ?_, rfl, rfl, rfl, ?_, fun _ _ => rfl, fun _ _ => rfl⟩
    · exact (Function.update_eq_self c k.grid).symm
    · exact fun t ht => absurd ht (Finset.notMem_empty t)
  | cons e rest ih =>
    obtain ⟨hkey, hrest⟩ := List.nodup_cons.mp hnodup
    have h := ih hrest (k := k.setCell c e.1 e.2) (SoftSchedule.setCell_inv hk c e.1 e.2)
    have hgrid : (k.setCell c e.1 e.2).grid = set2 k.grid c e.1 e.2 :=
      SoftSchedule.setCell_grid k.toSoftSchedule c e.1 e.2
    have hrow : (k.setCell c e.1 e.2).grid c = Function.update (k.grid c) e.1 e.2 := by
      rw [hgrid]
      funext x
      rw [set2_apply, Function.update_apply]
      simp
    have hold : ∀ d ∈ rest, (k.setCell c e.1 e.2).grid c d.1 = k.grid c d.1 := by
      intro d hd
      rw [hrow, Function.update_of_ne]
      exact fun he => hkey (he ▸ List.mem_map_of_mem hd)
    refine ⟨h.inv, ?_, h.rulePen, h.total, ?_, ?_, ?_, ?_⟩
    · refine h.grid.trans ?_
      rw [hrow]
      funext c' x
      by_cases hc : c' = c
      · subst hc
        rw [Function.update_self, Function.update_self]
        rfl
      · rw [Function.update_of_ne hc, Function.update_of_ne hc, hgrid, set2_of_ne fun he => hc he.1]
    · show (e.1, k.grid c e.1) :: _ = _
      rw [h.inverse, List.map_cons]
      congr 1
      exact List.map_congr_left fun d hd => by rw [hold d hd]
    · intro t ht
      cases Finset.mem_union.mp ht with
      | inl ht =>
        rw [Problem.touched, List.mem_toFinset, List.mem_append] at ht
        exact ⟨e, List.mem_cons_self, ht⟩
      | inr ht =>
        obtain ⟨d, hd, hmem⟩ := h.touched t ht
        rw [hold d hd] at hmem
        exact ⟨d, List.mem_cons_of_mem e hd, hmem⟩
    · intro t ht
      have hnot : t ∉ P.touched (k.grid c e.1) e.2 ∧ t ∉ (writeCells c rest (k.setCell c e.1 e.2)).2.2 :=
        not_or.mp fun hor => ht (Finset.mem_union.mpr hor)
      exact (h.pen t hnot.2).trans (SoftSchedule.setCell_penalty c e.1 e.2 hnot.1)
    · intro t ht
      have hnot : t ∉ P.touched (k.grid c e.1) e.2 ∧ t ∉ (writeCells c rest (k.setCell c e.1 e.2)).2.2 :=
        not_or.mp fun hor => ht (Finset.mem_union.mpr hor)
      exact (h.places t hnot.2).trans (SoftSchedule.setCell_tloc c e.1 e.2 hnot.1)

theorem writeCells_alike (c : P.Cls) (cells : List (RowChange P))
    (h : SoftSchedule.Alike k.toSoftSchedule j.toSoftSchedule) :
    SoftSchedule.Alike (writeCells c cells k).1.toSoftSchedule
      (writeCells c cells j).1.toSoftSchedule := by
  induction cells generalizing k j with
  | nil => exact h
  | cons e rest ih => exact ih (h.setCell c e.1 e.2)

/-! ### A list of changes -/

theorem applyChanges_soft (k : RuledSchedule P) (c : P.Cls) (changes : List (RowChange P)) :
    (k.applyChanges c changes).1.toSoftSchedule =
      (writeCells c (Placing.lastWrites changes) k).1.toSoftSchedule :=
  (foldl_rewrites refreshRulePen_rewrites _ _).1

/-- After a list of changes the penalties are again those of the grid. -/
theorem Current.applyChanges (h : Current k) (c : P.Cls) (changes : List (RowChange P)) :
    Current (k.applyChanges c changes).1 := by
  have hnodup := (Placing.place_lastWrites changes (k.grid c)).2
  have hw := writeCells_written c hnodup h.inv
  obtain ⟨hsoft, htotal, hpen⟩ := foldl_rewrites (refreshRulePen_rewrites (P := P))
    (P.allTeachers.filter fun t =>
      decide (t ∈ (writeCells c (Placing.lastWrites changes) k).2.2) && P.hasRules t)
    (writeCells c (Placing.lastWrites changes) k).1
  constructor
  · rw [applyChanges_soft]
    exact hw.inv
  · refine htotal ?_
    rw [hw.total, hw.rulePen, h.total]
  · intro t
    refine (hpen t).trans ?_
    rw [applyChanges_soft]
    split
    · rfl
    · rename_i hnot
      rw [hw.rulePen, h.pen]
      by_cases ht : t ∈ (writeCells c (Placing.lastWrites changes) k).2.2
      · have hrules : P.hasRules t = false := by
          by_contra hr
          rw [Bool.not_eq_false] at hr
          exact hnot (List.mem_filter.mpr ⟨List.mem_finRange t, by simp [ht, hr]⟩)
        rw [SoftSchedule.teacherRulePenalty_of_no_rules hrules,
          SoftSchedule.teacherRulePenalty_of_no_rules hrules]
      · exact (hw.pen t ht).symm

theorem applyChanges_alike (c : P.Cls) (changes : List (RowChange P))
    (h : SoftSchedule.Alike k.toSoftSchedule j.toSoftSchedule) :
    SoftSchedule.Alike (k.applyChanges c changes).1.toSoftSchedule
      (j.applyChanges c changes).1.toSoftSchedule := by
  rw [applyChanges_soft, applyChanges_soft]
  exact writeCells_alike c _ h

theorem applyChanges_grid (h : k.toSoftSchedule.Inv) (c : P.Cls) (changes : List (RowChange P)) :
    (k.applyChanges c changes).1.grid =
      Function.update k.grid c (Placing.place Prod.fst Prod.snd (k.grid c) changes) := by
  obtain ⟨hplace, hnodup⟩ := Placing.place_lastWrites changes (k.grid c)
  rw [applyChanges_soft, (writeCells_written c hnodup h).grid, hplace]

/-! ### Taking a move back -/

/-- The teachers with place rules who teach in the class have one lesson at a time. -/
def PlacesClear (P : Problem) (grid : P.Grid) (c : P.Cls) : Prop :=
  ∀ t, P.teacherLocRules t = true → (∃ slot, t ∈ P.members (grid c slot)) →
    ∀ slot, P.teacherLoad grid t slot ≤ 1

/-- The changes write lessons of the class. -/
def FromRow (row : Slot → Option P.Asg) (changes : List (RowChange P)) : Prop :=
  ∀ e ∈ changes, ∀ ai, e.2 = some ai → ∃ slot, row slot = some ai

/-- The schedule after a move is taken back is like the one before. -/
theorem applyChanges_back (hk : Current k) (c : P.Cls) {changes : List (RowChange P)}
    (hrow : FromRow (k.grid c) changes) (hclear : PlacesClear P k.grid c) :
    SoftSchedule.Alike k.toSoftSchedule
      ((k.applyChanges c changes).1.applyChanges c (k.applyChanges c changes).2).1.toSoftSchedule := by
  have hnodup := (Placing.place_lastWrites changes (k.grid c)).2
  have hplace := (Placing.place_lastWrites changes (k.grid c)).1
  have hw := writeCells_written c hnodup hk.inv
  have hinverse : (k.applyChanges c changes).2 =
      (Placing.lastWrites changes).map fun e => (e.1, k.grid c e.1) := hw.inverse
  have happlied := hk.applyChanges c changes
  have hgrid := applyChanges_grid hk.inv c changes
  have hsoft := applyChanges_soft k c changes
  generalize (k.applyChanges c changes).2 = inverse at hinverse ⊢
  generalize (k.applyChanges c changes).1 = applied at happlied hgrid hsoft ⊢
  have hback := writeCells_written c (Placing.place_lastWrites inverse (applied.grid c)).2 happlied.inv
  have hrestored : (applied.applyChanges c inverse).1.grid = k.grid := by
    rw [applyChanges_grid happlied.inv, hgrid, Function.update_idem, Function.update_self,
      ← hplace, hinverse]
    have hcells : Placing.place Prod.fst Prod.snd
        (Placing.place Prod.fst Prod.snd (k.grid c) (Placing.lastWrites changes))
        ((Placing.lastWrites changes).map fun e => (e.1, k.grid c e.1)) = k.grid c := by
      have hkeys : (((Placing.lastWrites changes).map fun e => (e.1, k.grid c e.1)).map Prod.fst).Nodup := by
        rw [List.map_map]
        exact hnodup
      funext x
      by_cases hx : x ∈ (Placing.lastWrites changes).map Prod.fst
      · obtain ⟨e, he, rfl⟩ := List.mem_map.mp hx
        exact Placing.place_of_mem hkeys (List.mem_map_of_mem (f := fun e => (e.1, k.grid c e.1)) he)
      · rw [Placing.place_of_notMem, Placing.place_of_notMem]
        · exact fun e he hxe => hx (hxe ▸ List.mem_map_of_mem he)
        · intro e he hxe
          obtain ⟨d, hd, rfl⟩ := List.mem_map.mp he
          exact hx (List.mem_map.mpr ⟨d, hd, hxe⟩)
    rw [hcells, Function.update_eq_self]
  have hteaches : ∀ x t, t ∈ P.members (applied.grid c x) → ∃ slot, t ∈ P.members (k.grid c slot) := by
    intro x t ht
    rw [hgrid, Function.update_self] at ht
    rcases Placing.place_cases changes (k.grid c) x with h | ⟨e, he, h⟩
    · exact ⟨x, h ▸ ht⟩
    · rw [h] at ht
      cases hv : e.2 with
      | none => simp [hv] at ht
      | some ai =>
        obtain ⟨slot, hslot⟩ := hrow e he ai hv
        exact ⟨slot, by rw [hslot, ← hv]; exact ht⟩
  have hinv := (happlied.applyChanges c inverse).inv
  refine ⟨hk.inv, hinv, hrestored.symm, ?_⟩
  intro t ht
  by_cases hteach : ∃ slot, t ∈ P.members (k.grid c slot)
  · have hload := hclear t ht hteach
    funext slot
    rw [hk.inv.recount.tloc_eq_of_load ht (hload slot),
      hinv.recount.tloc_eq_of_load ht (by rw [hrestored]; exact hload slot), hrestored]
  · have hout : t ∉ (writeCells c (Placing.lastWrites changes) k).2.2 := by
      intro hmem
      obtain ⟨e, he, hor⟩ := hw.touched t hmem
      cases hor with
      | inl h => exact hteach ⟨e.1, h⟩
      | inr h =>
        cases hv : e.2 with
        | none => simp [hv] at h
        | some ai =>
          obtain ⟨slot, hslot⟩ := hrow e (Placing.mem_lastWrites he) ai hv
          exact hteach ⟨slot, by rw [hslot, ← hv]; exact h⟩
    have hout' : t ∉ (writeCells c (Placing.lastWrites inverse) applied).2.2 := by
      intro hmem
      obtain ⟨e, he, hor⟩ := hback.touched t hmem
      cases hor with
      | inl h => exact hteach (hteaches e.1 t h)
      | inr h =>
        have hin := Placing.mem_lastWrites he
        rw [hinverse] at hin
        obtain ⟨d, _, rfl⟩ := List.mem_map.mp hin
        exact hteach ⟨d.1, h⟩
    rw [applyChanges_soft, hback.places t hout', hsoft, hw.places t hout]

/-! ### The listed moves -/

theorem place_map_const (slots : List Slot) (v : Option P.Asg) (row : Slot → Option P.Asg) :
    Placing.place Prod.fst Prod.snd row (slots.map fun x => (x, v)) = fill row slots v := by
  induction slots generalizing row with
  | nil => exact funext fun x => (fill_of_notMem List.not_mem_nil).symm
  | cons y rest ih =>
    refine (ih (Function.update row y v)).trans ?_
    funext x
    by_cases hx : x ∈ rest
    · rw [fill_of_mem hx, fill_of_mem (List.mem_cons_of_mem y hx)]
    · rw [fill_of_notMem hx]
      by_cases hy : x = y
      · subst hy
        rw [Function.update_self, fill_of_mem List.mem_cons_self]
      · rw [Function.update_of_ne hy, fill_of_notMem fun hm => (List.mem_cons.mp hm).elim hy hx]

/-- What a swap leaves in the row. -/
theorem place_swapChanges {row : Slot → Option P.Asg} {ai : P.Asg} {run window : List Slot}
    {other : Option P.Asg} (h : ∀ x ∈ run, x ∉ window) :
    Placing.place Prod.fst Prod.snd row (swapChanges ai run other window) =
      fun x => if x ∈ run then other else if x ∈ window then some ai else row x := by
  rw [swapChanges, Placing.place_append, Placing.place_append, place_map_const, place_map_const]
  funext x
  cases other with
  | none =>
    show fill (fill row run none) window (some ai) x = _
    by_cases hr : x ∈ run
    · rw [fill_of_notMem (h x hr), fill_of_mem hr, if_pos hr]
    · rw [if_neg hr]
      by_cases hw : x ∈ window
      · rw [fill_of_mem hw, if_pos hw]
      · rw [fill_of_notMem hw, fill_of_notMem hr, if_neg hw]
  | some o =>
    rw [Option.isSome_some, if_pos rfl, place_map_const]
    by_cases hr : x ∈ run
    · rw [fill_of_mem hr, if_pos hr]
    · rw [fill_of_notMem hr, if_neg hr]
      by_cases hw : x ∈ window
      · rw [fill_of_mem hw, if_pos hw]
      · rw [fill_of_notMem hw, fill_of_notMem hr, if_neg hw]

theorem swapChanges_swap (hteachers : ∀ ai, (P.aTeachers ai).Nodup) (hk : Current k) {c : P.Cls}
    {ai : P.Asg} {run window : List Slot} {other : Option P.Asg}
    (h : SoftSchedule.Exchange (k.grid c) ai run other window) :
    k.swapDelta ai run other window =
      (k.applyChanges c (swapChanges ai run other window)).1.overlap - k.overlap := by
  apply SoftSchedule.swapDelta_eq hteachers hk.inv (hk.applyChanges c _).inv h
  rw [applyChanges_grid hk.inv, place_swapChanges h.disjoint]

theorem swapChanges_fromRow {row : Slot → Option P.Asg} {ai : P.Asg} {run window : List Slot}
    {other : Option P.Asg} (hai : ∃ slot, row slot = some ai)
    (hother : ∀ o, other = some o → ∃ slot, row slot = some o) :
    FromRow row (swapChanges ai run other window) := by
  intro e he a hv
  rw [swapChanges, List.mem_append, List.mem_append, List.mem_map, List.mem_map] at he
  rcases he with (⟨x, _, rfl⟩ | ⟨x, _, rfl⟩) | he
  · cases hv
  · cases hv
    exact hai
  · split at he
    · obtain ⟨x, _, rfl⟩ := List.mem_map.mp he
      exact hother a hv
    · cases he

/-- Where no teacher of the two lessons has rules, the penalties stay. -/
theorem swapChanges_total (hk : Current k) {c : P.Cls} {ai : P.Asg} {run window : List Slot}
    {other : Option P.Asg} (h : SoftSchedule.Exchange (k.grid c) ai run other window)
    (hai : ∀ t ∈ P.aTeachers ai, P.hasRules t = false)
    (hother : ∀ t ∈ P.members other, P.hasRules t = false) :
    (k.applyChanges c (swapChanges ai run other window)).1.fullPenalty -
        (k.applyChanges c (swapChanges ai run other window)).1.overlap =
      k.fullPenalty - k.overlap := by
  have hnodup := (Placing.place_lastWrites (swapChanges ai run other window) (k.grid c)).2
  have hw := writeCells_written c hnodup hk.inv
  have hpen : ∀ t, (k.applyChanges c (swapChanges ai run other window)).1.teacherRulePenalty t =
      k.teacherRulePenalty t := by
    intro t
    rw [applyChanges_soft]
    by_cases ht : t ∈ (writeCells c (Placing.lastWrites (swapChanges ai run other window)) k).2.2
    · have hrules : P.hasRules t = false := by
        obtain ⟨e, he, hor⟩ := hw.touched t ht
        have hin := Placing.mem_lastWrites he
        rw [swapChanges, List.mem_append, List.mem_append, List.mem_map, List.mem_map] at hin
        rcases hin with (⟨x, hx, rfl⟩ | ⟨x, hx, rfl⟩) | hin
        · rw [h.run_cells x hx] at hor
          exact hor.elim (hai t) fun hm => absurd hm List.not_mem_nil
        · rw [h.window_cells x hx] at hor
          exact hor.elim (hother t) (hai t)
        · split at hin
          · obtain ⟨x, hx, rfl⟩ := List.mem_map.mp hin
            rw [h.run_cells x hx] at hor
            exact hor.elim (hai t) (hother t)
          · cases hin
      rw [SoftSchedule.teacherRulePenalty_of_no_rules hrules,
        SoftSchedule.teacherRulePenalty_of_no_rules hrules]
    · exact hw.pen t ht
  rw [SoftSchedule.fullPenalty, SoftSchedule.fullPenalty, Finset.sum_congr rfl fun t _ => hpen t,
    add_sub_cancel_left, add_sub_cancel_left]

/-- The periods between the ends of a run have the subject. -/
theorem runLow_same {same : Nat → Bool} {p q : Nat} (hlow : SoftSchedule.runLow same p ≤ q)
    (hq : q < p) : same q = true := by
  induction p with
  | zero => omega
  | succ p ih =>
    rw [SoftSchedule.runLow] at hlow
    split at hlow
    · rename_i hsame
      by_cases heq : q = p
      · rw [heq]
        exact hsame
      · exact ih hlow (by omega)
    · omega

theorem runHigh_same {same : Nat → Bool} {p n q : Nat} (hq : p < q)
    (hhigh : q ≤ p + SoftSchedule.runHigh same p n) : same q = true := by
  induction n generalizing p with
  | zero =>
    rw [SoftSchedule.runHigh] at hhigh
    omega
  | succ n ih =>
    rw [SoftSchedule.runHigh] at hhigh
    split at hhigh
    · rename_i hsame
      by_cases heq : q = p + 1
      · rw [heq]
        exact hsame
      · exact ih (p := p + 1) (by omega) (by omega)
    · omega

/-- A run has lessons only. -/
theorem runSlots_isSome {row : Slot → Option P.Asg} {slot x : Slot}
    (h : x ∈ Problem.runSlots row slot) : ∃ a, row x = some a := by
  rw [Problem.runSlots] at h
  cases hai : row slot with
  | none =>
    rw [hai] at h
    cases h
  | some ai =>
    rw [hai] at h
    obtain ⟨hs, hlow, hhigh⟩ := SoftSchedule.mem_window.mp h
    have hx : x = slotAt (sessionOfSlot slot) (periodOfSlot x) := by
      rw [← hs, slotAt_session_period]
    have hsubject : (row x).map P.aSubject = some (P.aSubject ai) := by
      by_cases heq : periodOfSlot x = periodOfSlot slot
      · rw [hx, heq, slotAt_session_period, hai, Option.map_some]
      · have hne : (periodOfSlot x).val ≠ (periodOfSlot slot).val := fun h => heq (Fin.ext h)
        have hlt : (periodOfSlot x).val < 5 := (periodOfSlot x).isLt
        have hsame : (if h : (periodOfSlot x).val < 5 then decide ((row (slotAt (sessionOfSlot slot)
            ⟨(periodOfSlot x).val, h⟩)).map P.aSubject = some (P.aSubject ai)) else false) = true := by
          rcases Nat.lt_or_gt_of_ne hne with hbefore | hafter
          · exact runLow_same hlow hbefore
          · have hlast : (periodOfSlot x).val ≤ (periodOfSlot slot).val + SoftSchedule.runHigh
                (fun q => if h : q < 5 then decide ((row (slotAt (sessionOfSlot slot) ⟨q, h⟩)).map
                  P.aSubject = some (P.aSubject ai)) else false)
                (periodOfSlot slot).val (4 - (periodOfSlot slot).val) := by
              unfold SoftSchedule.runWindow at hlow hhigh
              dsimp only at hlow hhigh
              omega
            exact runHigh_same hafter hlast
        rw [dif_pos hlt, decide_eq_true_eq] at hsame
        rw [hx]
        exact hsame
    cases hrow : row x with
    | none => simp [hrow] at hsubject
    | some a => exact ⟨a, rfl⟩

/-- The window of a partner holds its lessons and lies apart from the run. -/
theorem swapPartner_exchange {grid : P.Grid} {locked : P.Cls → Slot → Bool} {c : P.Cls} {ai : P.Asg}
    {run : List Slot} {s : Session} {e : Session × Nat} {other : Option P.Asg}
    (hnodup : run.Nodup) (hrun : ∀ x ∈ run, grid c x = some ai)
    (h : swapPartner grid locked c ai run s e = some other) :
    SoftSchedule.Exchange (grid c) ai run other (SoftSchedule.window e.1 e.2 run.length) ∧
      ∀ o, other = some o → ∃ slot, grid c slot = some o := by
  unfold swapPartner at h
  dsimp only at h
  split at h
  · cases h
  have hlist : ∀ x ∈ SoftSchedule.window e.1 e.2 run.length, ∀ a, grid c x = some a →
      a ∈ ((SoftSchedule.window e.1 e.2 run.length).filterMap (grid c)).eraseDups := by
    intro x hx a ha
    rw [List.mem_eraseDups, List.mem_filterMap]
    exact ⟨x, hx, ha⟩
  have hmem : ∀ a ∈ ((SoftSchedule.window e.1 e.2 run.length).filterMap (grid c)).eraseDups,
      ∃ x, grid c x = some a := by
    intro a ha
    rw [List.mem_eraseDups, List.mem_filterMap] at ha
    obtain ⟨x, _, hx⟩ := ha
    exact ⟨x, hx⟩
  have hp := (Option.filter_eq_some_iff.mp h).1
  generalize ((SoftSchedule.window e.1 e.2 run.length).filterMap (grid c)).eraseDups = found at *
  split at hp
  · cases hp
    have hnone : ∀ x ∈ SoftSchedule.window e.1 e.2 run.length, grid c x = none := by
      intro x hx
      cases hcell : grid c x with
      | none => rfl
      | some a => exact absurd (hlist x hx a hcell) List.not_mem_nil
    refine ⟨⟨hnodup, SoftSchedule.nodup_window _ _ _, hrun, hnone, ?_⟩, fun o ho => by cases ho⟩
    intro x hx hw
    have hcell := hrun x hx
    rw [hnone x hw] at hcell
    cases hcell
  · rename_i o
    have hsome : ∀ y x, x ∈ Problem.runSlots (grid c) y → ∃ a, grid c x = some a :=
      fun y x hx => runSlots_isSome hx
    generalize (if ((SoftSchedule.window e.1 e.2 run.length).head?.bind (grid c)).isSome = true
      then (SoftSchedule.window e.1 e.2 run.length).head?.getD 0
      else (SoftSchedule.window e.1 e.2 run.length).getLast?.getD 0) = y at hp
    split at hp
    · cases hp
    · rename_i hperm
      split at hp
      · cases hp
      · rename_i hsubject
        split at hp
        · cases hp
        · split at hp
          · cases hp
            have hcells : ∀ x ∈ SoftSchedule.window e.1 e.2 run.length, grid c x = some o := by
              intro x hx
              obtain ⟨a, ha⟩ := hsome y x ((not_not.mp hperm).symm.subset hx)
              rw [ha, List.mem_singleton.mp (hlist x hx a ha)]
            refine ⟨⟨hnodup, SoftSchedule.nodup_window _ _ _, hrun, hcells, ?_⟩, ?_⟩
            · intro x hx hw
              have heq := (hcells x hw).symm.trans (hrun x hx)
              cases heq
              exact hsubject rfl
            · intro o' ho
              cases ho
              exact hmem o List.mem_cons_self
          · cases hp
  · cases hp

/-- The coverage of a window takes lessons of the row. -/
theorem coverRuns_row {row : Slot → Option P.Asg} {last : Option Slot} {fuel : Nat}
    {cells : List Slot} {victims : List (P.Asg × List Slot)}
    (h : Problem.coverRuns row last fuel cells = some victims) :
    ∀ v ∈ victims, ∃ slot, row slot = some v.1 := by
  induction fuel generalizing cells victims with
  | zero =>
    cases cells with
    | nil =>
      cases h
      exact fun v hv => absurd hv List.not_mem_nil
    | cons x rest => cases h
  | succ fuel ih =>
    cases cells with
    | nil =>
      cases h
      exact fun v hv => absurd hv List.not_mem_nil
    | cons x rest =>
      unfold Problem.coverRuns at h
      dsimp only at h
      split at h
      · cases h
      · obtain ⟨v, hv, hmap⟩ := Option.bind_eq_some_iff.mp h
        obtain ⟨more, hmore, rfl⟩ := Option.map_eq_some_iff.mp hmap
        intro w hw
        cases List.mem_cons.mp hw with
        | inl hw => exact ⟨x, by rw [hw]; exact hv⟩
        | inr hw => exact ih hmore w hw

theorem mem_orders {α : Type} {n : Nat} {l order : List α} (h : order ∈ orders n l) :
    ∀ x ∈ order, x ∈ l := by
  induction n generalizing l order with
  | zero =>
    rw [orders, List.mem_singleton] at h
    rw [h]
    exact fun x hx => absurd hx List.not_mem_nil
  | succ n ih =>
    rw [orders, List.mem_flatMap] at h
    obtain ⟨i, _, hi⟩ := h
    cases hget : l[i]? with
    | none =>
      rw [hget] at hi
      cases hi
    | some y =>
      rw [hget] at hi
      obtain ⟨rest, hrest, rfl⟩ := List.mem_map.mp hi
      intro x hx
      cases List.mem_cons.mp hx with
      | inl hx =>
        rw [hx]
        exact List.mem_of_getElem? hget
      | inr hx => exact (List.eraseIdx_sublist l i).subset (ih hrest x hx)

theorem mem_victimTargets {cells : List Slot} {victims : List (P.Asg × List Slot)}
    {e : P.Asg × List Slot} (h : e ∈ Problem.victimTargets cells victims) :
    ∃ v ∈ victims, v.1 = e.1 := by
  induction victims generalizing cells with
  | nil => cases h
  | cons v rest ih =>
    rw [Problem.victimTargets] at h
    cases List.mem_cons.mp h with
    | inl h => exact ⟨v, List.mem_cons_self, by rw [h]⟩
    | inr h =>
      obtain ⟨w, hw, heq⟩ := ih h
      exact ⟨w, List.mem_cons_of_mem v hw, heq⟩

theorem exchangesOf_fromRow {grid : P.Grid} {c : P.Cls} {ai : P.Asg} {run window : List Slot}
    {s s2 : Session} {victims : List (P.Asg × List Slot)} {seen : List (RowChange P)}
    (hai : ∃ slot, grid c slot = some ai) (hvictims : ∀ v ∈ victims, ∃ slot, grid c slot = some v.1)
    (h : seen ∈ Problem.exchangesOf grid c ai run s s2 window victims) : FromRow (grid c) seen := by
  obtain ⟨order, horder, hseen⟩ := List.mem_filterMap.mp h
  dsimp only at hseen
  split at hseen
  · split at hseen
    · cases hseen
      intro e he a hv
      have hin := Placing.mem_lastWrites he
      rw [List.mem_append, List.mem_append, List.mem_map, List.mem_map, List.mem_flatMap] at hin
      rcases hin with (⟨x, _, rfl⟩ | ⟨v, hv', hin⟩) | ⟨x, _, rfl⟩
      · cases hv
      · obtain ⟨x, _, rfl⟩ := List.mem_map.mp hin
        cases hv
        obtain ⟨w, hw, heq⟩ := mem_victimTargets hv'
        rw [← heq]
        exact hvictims w (mem_orders (List.mem_of_mem_take horder) w hw)
      · cases hv
        exact hai
    · cases hseen
  · cases hseen

theorem enumMultiExchanges_fromRow {grid : P.Grid} {locked : P.Cls → Slot → Bool} {c : P.Cls}
    {run : List Slot} {cap : Nat} {e : List (RowChange P) × Slot}
    (h : e ∈ Problem.enumMultiExchanges grid locked c run cap) : FromRow (grid c) e.1 := by
  unfold Problem.enumMultiExchanges at h
  split at h
  · cases h
  · cases hx : run.head? with
    | none =>
      rw [hx] at h
      cases h
    | some x =>
      rw [hx] at h
      cases hai : grid c x with
      | none =>
        simp only [Option.elim_some, hai, Option.elim_none] at h
        cases h
      | some ai =>
        simp only [Option.elim_some, hai] at h
        obtain ⟨w, _, he⟩ := List.mem_flatMap.mp (List.mem_of_mem_take h)
        unfold Problem.exchangesAt at he
        dsimp only at he
        split at he
        · cases he
        split at he
        · cases he
        split at he
        · cases he
        split at he
        · cases he
        · rename_i victims hcover
          split at he
          · cases he
          split at he
          · cases he
          split at he
          · cases hstart : (SoftSchedule.window w.1 w.2 run.length).head? with
            | none =>
              rw [hstart] at he
              cases he
            | some start =>
              rw [hstart] at he
              obtain ⟨seen, hseen, rfl⟩ := List.mem_map.mp he
              exact exchangesOf_fromRow ⟨x, hai⟩ (coverRuns_row hcover) hseen
          · cases he

/-- The schedule in the loops is like the one at the start, and the moves listed are exact for it. -/
structure Measured (k : RuledSchedule P) (c : P.Cls) (r : RuledSchedule P × List (Move P)) : Prop where
  current : Current r.1
  alike : SoftSchedule.Alike k.toSoftSchedule r.1.toSoftSchedule
  exact : ∀ m ∈ r.2, m.1 = (k.applyChanges c m.2.1).1.fullPenalty - k.fullPenalty

/-- What the changes cost, seen from a schedule that is like the first one. -/
theorem Measured.cost {c : P.Cls} {r : RuledSchedule P × List (Move P)} (h : Measured k c r)
    (changes : List (RowChange P)) :
    (r.1.applyChanges c changes).1.fullPenalty - r.1.fullPenalty =
      (k.applyChanges c changes).1.fullPenalty - k.fullPenalty := by
  rw [(applyChanges_alike c changes h.alike).fullPenalty_eq, h.alike.fullPenalty_eq]

/-- A move that is made, measured and taken back. -/
theorem Measured.push {c : P.Cls} (hclear : PlacesClear P k.grid c)
    {r : RuledSchedule P × List (Move P)} (h : Measured k c r) {changes : List (RowChange P)}
    (hrow : FromRow (k.grid c) changes) {delta : Int} (start : Slot)
    (hdelta : delta = (r.1.applyChanges c changes).1.fullPenalty - r.1.fullPenalty) :
    Measured k c (((r.1.applyChanges c changes).1.applyChanges c (r.1.applyChanges c changes).2).1,
      r.2 ++ [(delta, changes, start)]) := by
  have hgrid := h.alike.grid
  rw [hgrid] at hclear hrow
  have hback := applyChanges_back h.current c hrow hclear
  refine ⟨(h.current.applyChanges c changes).applyChanges c _, h.alike.trans hback, ?_⟩
  intro m hm
  cases List.mem_append.mp hm with
  | inl hm => exact h.exact m hm
  | inr hm =>
    rw [List.mem_singleton.mp hm]
    exact hdelta.trans (h.cost changes)

theorem Measured.swapMove (hteachers : ∀ ai, (P.aTeachers ai).Nodup) {c : P.Cls}
    (hclear : PlacesClear P k.grid c) {locked : P.Cls → Slot → Bool} {ai : P.Asg} {run : List Slot}
    (hnodup : run.Nodup) (hrun : ∀ x ∈ run, k.grid c x = some ai)
    (hai : ∃ slot, k.grid c slot = some ai) (s : Session) {r : RuledSchedule P × List (Move P)}
    (h : Measured k c r) (e : Session × Nat) :
    Measured k c (RuledSchedule.swapMove locked c ai run s r e) := by
  have hgrid := h.alike.grid
  unfold RuledSchedule.swapMove
  cases hpartner : swapPartner r.1.grid locked c ai run s e with
  | none => exact h
  | some other =>
    rw [← hgrid] at hpartner
    obtain ⟨hexchange, hother⟩ := swapPartner_exchange hnodup hrun hpartner
    have hrow : FromRow (k.grid c)
        (swapChanges ai run other (SoftSchedule.window e.1 e.2 run.length)) :=
      swapChanges_fromRow hai hother
    rw [hgrid] at hexchange
    have hdelta := swapChanges_swap hteachers h.current hexchange
    have happlied := h.current.applyChanges c
      (swapChanges ai run other (SoftSchedule.window e.1 e.2 run.length))
    dsimp only
    split
    · apply h.push hclear hrow
      rw [happlied.fullPenalty_eq, h.current.fullPenalty_eq, hdelta]
      omega
    · rename_i hrules
      rw [Bool.not_eq_true, Bool.or_eq_false_iff, List.any_eq_false, List.any_eq_false] at hrules
      refine ⟨h.current, h.alike, ?_⟩
      intro m hm
      cases List.mem_append.mp hm with
      | inl hm => exact h.exact m hm
      | inr hm =>
        rw [List.mem_singleton.mp hm, ← h.cost, hdelta]
        have htotal := swapChanges_total h.current hexchange
          (fun t ht => Bool.eq_false_iff.mpr (hrules.1 t ht))
          fun t ht => Bool.eq_false_iff.mpr (hrules.2 t ht)
        dsimp only
        omega

theorem Measured.swaps (hteachers : ∀ ai, (P.aTeachers ai).Nodup) {c : P.Cls}
    (hclear : PlacesClear P k.grid c) (locked : P.Cls → Slot → Bool) {ai : P.Asg} {run : List Slot}
    (hnodup : run.Nodup) (hrun : ∀ x ∈ run, k.grid c x = some ai)
    (hai : ∃ slot, k.grid c slot = some ai) (s : Session) (starts : List (Session × Nat))
    {r : RuledSchedule P × List (Move P)} (h : Measured k c r) :
    Measured k c (starts.foldl (RuledSchedule.swapMove locked c ai run s) r) := by
  induction starts generalizing r with
  | nil => exact h
  | cons e rest ih => exact ih (h.swapMove hteachers hclear hnodup hrun hai s e)

theorem Measured.exchangeMove {c : P.Cls} (hclear : PlacesClear P k.grid c)
    {r : RuledSchedule P × List (Move P)} (h : Measured k c r) {e : List (RowChange P) × Slot}
    (hrow : FromRow (k.grid c) e.1) : Measured k c (RuledSchedule.exchangeMove c r e) := by
  refine h.push hclear hrow e.2 ?_
  have happlied := h.current.applyChanges c e.1
  have hback : SoftSchedule.Alike r.1.toSoftSchedule
      ((r.1.applyChanges c e.1).1.applyChanges c (r.1.applyChanges c e.1).2).1.toSoftSchedule := by
    have hgrid := h.alike.grid
    rw [hgrid] at hclear hrow
    exact applyChanges_back h.current c hrow hclear
  rw [hback.fullPenalty_eq, happlied.fullPenalty_eq, (happlied.applyChanges c _).fullPenalty_eq]
  omega

theorem Measured.exchanges {c : P.Cls} (hclear : PlacesClear P k.grid c)
    {exchanges : List (List (RowChange P) × Slot)} (hrows : ∀ e ∈ exchanges, FromRow (k.grid c) e.1)
    {r : RuledSchedule P × List (Move P)} (h : Measured k c r) :
    Measured k c (exchanges.foldl (RuledSchedule.exchangeMove c) r) := by
  induction exchanges generalizing r with
  | nil => exact h
  | cons e rest ih =>
    exact ih (fun d hd => hrows d (List.mem_cons_of_mem e hd))
      (h.exchangeMove hclear (hrows e List.mem_cons_self))

/-- After every run of writes, refreshes and mode switches that leaves the kept penalties right, each
move that `_candidate_swaps` lists for a run of one assignment carries the change of the penalty, if
the teachers with place rules who teach in the class have one lesson at a time; and `_swap_delta` is
the change of the overlap for every run and window of one assignment each. -/
theorem candidateSwaps_exact (P : Problem) (hteachers : ∀ ai, (P.aTeachers ai).Nodup)
    (edits : List (Edit P))
    (hpen : ∀ t, ((init P).run edits).rulePen t = ((init P).run edits).teacherRulePenalty t)
    (locked : P.Cls → Slot → Bool) (c : P.Cls) :
    (PlacesClear P ((init P).run edits).grid c → ∀ (slot : Slot) (starts : List (Session × Nat)),
      (∀ x ∈ Problem.runSlots (((init P).run edits).grid c) slot,
        ((init P).run edits).grid c x = ((init P).run edits).grid c slot) →
      ∀ m ∈ (((init P).run edits).candidateSwaps locked c
          (Problem.runSlots (((init P).run edits).grid c) slot) starts).2,
        m.1 = (((init P).run edits).applyChanges c m.2.1).1.fullPenalty -
          ((init P).run edits).fullPenalty) ∧
    ∀ (ai : P.Asg) (run : List Slot) (other : Option P.Asg) (window : List Slot),
      SoftSchedule.Exchange (((init P).run edits).grid c) ai run other window →
      ((init P).run edits).swapDelta ai run other window =
        (((init P).run edits).applyChanges c (swapChanges ai run other window)).1.overlap -
          ((init P).run edits).overlap := by
  have hfresh := (Fresh.init P).run edits
  generalize (init P).run edits = k at hpen hfresh ⊢
  have hk : Current k := ⟨hfresh.inv, hfresh.total, hpen⟩
  refine ⟨fun hclear slot starts hone m hm => ?_, fun ai run other window h =>
    swapChanges_swap hteachers hk h⟩
  have hmeasured : ∀ m ∈ (k.candidateSwaps locked c (Problem.runSlots (k.grid c) slot) starts).2,
      m.1 = (k.applyChanges c m.2.1).1.fullPenalty - k.fullPenalty := by
    unfold candidateSwaps
    cases hhead : (Problem.runSlots (k.grid c) slot).head? with
    | none => exact fun m hm => absurd hm List.not_mem_nil
    | some x =>
      have hx := List.mem_of_head? hhead
      cases hai : k.grid c x with
      | none =>
        simp only [Option.elim_some, hai, Option.elim_none]
        exact fun m hm => absurd hm List.not_mem_nil
      | some ai =>
        have hrun : ∀ y ∈ Problem.runSlots (k.grid c) slot, k.grid c y = some ai := by
          intro y hy
          rw [hone y hy, ← hone x hx, hai]
        have hnodup : (Problem.runSlots (k.grid c) slot).Nodup := by
          unfold Problem.runSlots
          cases k.grid c slot with
          | none => exact List.nodup_nil
          | some a => exact SoftSchedule.nodup_window _ _ _
        simp only [Option.elim_some, hai]
        generalize Problem.runSlots (k.grid c) slot = run at hrun hnodup ⊢
        have hstart : Measured k c (k, []) :=
          ⟨hk, ⟨hk.inv, hk.inv, rfl, fun _ _ => rfl⟩, fun m hm => absurd hm List.not_mem_nil⟩
        have hswaps := hstart.swaps hteachers hclear locked hnodup hrun ⟨x, hai⟩ (sessionOfSlot x)
          starts
        generalize starts.foldl (RuledSchedule.swapMove locked c ai run (sessionOfSlot x)) (k, []) = r
          at hswaps
        have hrows : ∀ e ∈ Problem.enumMultiExchanges r.1.grid locked c run 8,
            FromRow (k.grid c) e.1 := by
          intro e he
          rw [hswaps.alike.grid]
          exact enumMultiExchanges_fromRow he
        intro m hm
        exact (hswaps.exchanges hclear hrows).exact m ((List.perm_insertionSort _ _).mem_iff.mp hm)
  exact hmeasured m hm

/-- Two classes and four slots. The second teacher shares a subject with the first one, and the third
may teach in one place a session. -/
def twoClasses : Problem where
  numClasses := 2
  numTeachers := 3
  numSubjects := 3
  numAssignments := 6
  className := !["6A", "6B"]
  teacherName := !["GV1", "GV2", "GV3"]
  subjectName := !["Toan", "Van", "Su"]
  aClass := ![0, 0, 1, 0, 0, 1]
  aSubject := ![0, 0, 0, 1, 2, 1]
  aTeacher := ![some 0, some 1, some 1, some 2, some 2, some 2]
  aTeachers := ![[0], [1], [1], [2], [2], [2]]
  aRoom := fun _ => ""
  aPeriods := fun _ => 1
  aCap := fun _ => 2
  aAllowed := fun _ slot => decide (slot ∈ [slotAt 0 0, slotAt 0 1, slotAt 1 0, slotAt 1 1])
  aRule := fun _ => none
  aLoc := ![none, none, none, some 0, some 0, some 1]
  teacherRules := ![none, none, some { locOne := fun _ => true }]
  teacherMust := fun _ => []
  teacherLocRules := ![false, false, true]
  noSameSession := fun _ => []
  noSameDay := fun _ => []
  fixedCells := []
  fixedMask := fun _ _ => false
  timeLimitRules := []
  subjectGroups := fun _ => []
  groupRuleKeys := fun _ _ => none
  rawGroups := fun _ _ => []

/-- A lesson at a period of the first morning. -/
def twoClasses.put (c : Fin 2) (p : Period) (a : Fin 6) : Edit twoClasses :=
  .setCell c (slotAt 0 p) (some a)

/-- The lessons of the third teacher in one class. -/
def twoClasses.clear : RuledSchedule twoClasses :=
  (init twoClasses).run [twoClasses.put 0 0 3, twoClasses.put 0 1 4, .refreshRulePen (2 : Fin 3)]

theorem twoClasses_exact :
    (∀ m ∈ (twoClasses.clear.candidateSwaps (fun _ _ => false) (0 : Fin 2)
        (Problem.runSlots (twoClasses.clear.grid (0 : Fin 2)) 0) (SoftSchedule.windowStarts 1)).2,
      m.1 = (twoClasses.clear.applyChanges (0 : Fin 2) m.2.1).1.fullPenalty -
        twoClasses.clear.fullPenalty) ∧
    twoClasses.clear.swapDelta (3 : Fin 6) [0] (some (4 : Fin 6)) [1] =
      (twoClasses.clear.applyChanges (0 : Fin 2)
        (swapChanges (P := twoClasses) (3 : Fin 6) [0] (some (4 : Fin 6)) [1])).1.overlap -
        twoClasses.clear.overlap := by
  have h := candidateSwaps_exact twoClasses (by decide +kernel)
    [twoClasses.put 0 0 3, twoClasses.put 0 1 4, .refreshRulePen (2 : Fin 3)] (by decide +kernel)
    (fun _ _ => false) (0 : Fin 2)
  refine ⟨h.1 ?_ 0 (SoftSchedule.windowStarts 1) ?_, h.2 (3 : Fin 6) [0] (some (4 : Fin 6)) [1] ?_⟩
  · unfold PlacesClear
    decide +kernel
  · decide +kernel
  · exact ⟨by decide, by decide, by decide +kernel, by decide +kernel, by decide⟩

/-- Two teachers of one subject, the second one with two lessons at the second period. -/
def twoClasses.mixed : RuledSchedule twoClasses :=
  (init twoClasses).run [twoClasses.put 0 0 0, twoClasses.put 0 1 1, twoClasses.put 1 1 2]

/-- The third teacher has two lessons at the first period, in different places. -/
def twoClasses.doubled : RuledSchedule twoClasses :=
  (init twoClasses).run [twoClasses.put 0 0 3, twoClasses.put 0 1 4, twoClasses.put 1 0 5,
    .refreshRulePen (2 : Fin 3)]

/-- A run of two assignments moves as if it were one, and a move taken back may change the first
place of a teacher with two lessons at a slot. -/
theorem twoClasses_inexact :
    (∀ t, twoClasses.mixed.rulePen t = twoClasses.mixed.teacherRulePenalty t) ∧
    (¬ ∀ m ∈ (twoClasses.mixed.candidateSwaps (fun _ _ => false) (0 : Fin 2)
        (Problem.runSlots (twoClasses.mixed.grid (0 : Fin 2)) 0) (SoftSchedule.windowStarts 2)).2,
      m.1 = (twoClasses.mixed.applyChanges (0 : Fin 2) m.2.1).1.fullPenalty -
        twoClasses.mixed.fullPenalty) ∧
    (∀ t, twoClasses.doubled.rulePen t = twoClasses.doubled.teacherRulePenalty t) ∧
    ¬ ∀ m ∈ (twoClasses.doubled.candidateSwaps (fun _ _ => false) (0 : Fin 2)
        (Problem.runSlots (twoClasses.doubled.grid (0 : Fin 2)) 0) (SoftSchedule.windowStarts 1)).2,
      m.1 = (twoClasses.doubled.applyChanges (0 : Fin 2) m.2.1).1.fullPenalty -
        twoClasses.doubled.fullPenalty := by
  refine ⟨?_, ?_, ?_, ?_⟩
  · decide +kernel
  · decide +kernel
  · decide +kernel
  · decide +kernel

end RuledSchedule

end TkbCherry.Engine
