import TkbCherry.Engine.State

/-!
# Cell writes

What one write does to the slot table and the counters, that it keeps them a function of
the grid, and that the rollback of a journal leads back to where the journal began.
-/

namespace TkbCherry.Engine

set_option autoImplicit false

open Array2

/-- The grid after a change list, the last write to a cell winning. -/
def Problem.overlay (P : Problem) (grid : P.Grid) (changes : List (Change P)) : P.Grid :=
  changes.foldl (fun g e => set2 g e.1 e.2.1 e.2.2) grid

namespace Cells
variable {P : Problem}

/-- The slot table and the counters are those of the grid, and every lesson stands in its
class at an allowed slot. -/
structure Sound (k : Cells P) : Prop where
  cells : ∀ c slot ai, k.grid c slot = some ai → P.aClass ai = c ∧ P.aAllowed ai slot = true
  owner : ∀ t slot ai, k.teacherSlot t slot = some ai ↔
    k.grid (P.aClass ai) slot = some ai ∧ t ∈ P.aTeachers ai
  placed : k.placed = tally (fun o => if o.isSome then 1 else 0) k.grid
  aPlaced : ∀ ai, k.aPlaced ai = tally (fun o => if o = some ai then 1 else 0) k.grid

@[simp] theorem release_grid (k : Cells P) (slot : Slot) (o : Option P.Asg) :
    (k.release slot o).grid = k.grid := by cases o <;> rfl

@[simp] theorem occupy_grid (k : Cells P) (slot : Slot) (o : Option P.Asg) :
    (k.occupy slot o).grid = k.grid := by cases o <;> rfl

theorem release_teacherSlot (k : Cells P) (slot : Slot) (o : Option P.Asg) (t : P.Tch)
    (s : Slot) : (k.release slot o).teacherSlot t s =
      if t ∈ P.members o ∧ s = slot then none else k.teacherSlot t s := by
  cases o with
  | none => simp [release]
  | some ai =>
    simp only [release, setAll_apply, Problem.members_some]
    congr

theorem occupy_teacherSlot (k : Cells P) (slot : Slot) (o : Option P.Asg) (t : P.Tch)
    (s : Slot) : (k.occupy slot o).teacherSlot t s =
      if t ∈ P.members o ∧ s = slot then o else k.teacherSlot t s := by
  cases o with
  | none => simp [occupy]
  | some ai =>
    simp only [occupy, setAll_apply, Problem.members_some]
    congr

theorem release_placed (k : Cells P) (slot : Slot) (o : Option P.Asg) :
    (k.release slot o).placed = k.placed - if o.isSome then 1 else 0 := by
  cases o <;> simp [release]

theorem occupy_placed (k : Cells P) (slot : Slot) (o : Option P.Asg) :
    (k.occupy slot o).placed = k.placed + if o.isSome then 1 else 0 := by
  cases o <;> simp [occupy]

theorem release_aPlaced (k : Cells P) (slot : Slot) (o : Option P.Asg) (b : P.Asg) :
    (k.release slot o).aPlaced b = k.aPlaced b - if o = some b then 1 else 0 := by
  cases o with
  | none => simp [release]
  | some ai =>
    by_cases h : b = ai
    · subst h
      simp [release]
    · have h' : ai ≠ b := fun he => h he.symm
      simp [release, h, h']

theorem occupy_aPlaced (k : Cells P) (slot : Slot) (o : Option P.Asg) (b : P.Asg) :
    (k.occupy slot o).aPlaced b = k.aPlaced b + if o = some b then 1 else 0 := by
  cases o with
  | none => simp [occupy]
  | some ai =>
    by_cases h : b = ai
    · subst h
      simp [occupy]
    · have h' : ai ≠ b := fun he => h he.symm
      simp [occupy, h, h']

theorem busy_eq_false_iff (k : Cells P) (slot : Slot) (o : Option P.Asg) :
    k.busy slot o = false ↔ ∀ t ∈ P.members o, k.teacherSlot t slot = none := by
  cases o <;> simp [busy]

theorem ext_of {k k' : Cells P} (hg : ∀ c s, k.grid c s = k'.grid c s)
    (ht : ∀ t s, k.teacherSlot t s = k'.teacherSlot t s) (hp : k.placed = k'.placed)
    (ha : ∀ a, k.aPlaced a = k'.aPlaced a) : k = k' := by
  cases k
  cases k'
  simp only [Cells.mk.injEq]
  exact ⟨funext fun c => funext (hg c), funext fun t => funext (ht t), hp, funext ha⟩

/-- The effect of an accepted write: the old lesson out, the new one in. -/
def put (k : Cells P) (c : P.Cls) (slot : Slot) (new : Option P.Asg) : Cells P :=
  { (k.release slot (k.grid c slot)).occupy slot new with grid := set2 k.grid c slot new }

@[simp] theorem put_grid (k : Cells P) (c : P.Cls) (slot : Slot) (new : Option P.Asg) :
    (k.put c slot new).grid = set2 k.grid c slot new := rfl

theorem put_teacherSlot (k : Cells P) (c : P.Cls) (slot : Slot) (new : Option P.Asg)
    (t : P.Tch) (s : Slot) : (k.put c slot new).teacherSlot t s =
      if t ∈ P.members new ∧ s = slot then new
      else if t ∈ P.members (k.grid c slot) ∧ s = slot then none else k.teacherSlot t s := by
  simp only [put, occupy_teacherSlot, release_teacherSlot]

theorem put_placed (k : Cells P) (c : P.Cls) (slot : Slot) (new : Option P.Asg) :
    (k.put c slot new).placed = k.placed - (if (k.grid c slot).isSome then 1 else 0) +
      if new.isSome then 1 else 0 := by
  simp only [put, occupy_placed, release_placed]

theorem put_aPlaced (k : Cells P) (c : P.Cls) (slot : Slot) (new : Option P.Asg) (b : P.Asg) :
    (k.put c slot new).aPlaced b = k.aPlaced b - (if k.grid c slot = some b then 1 else 0) +
      if new = some b then 1 else 0 := by
  simp only [put, occupy_aPlaced, release_aPlaced]

/-- A write that `_write_cell` accepts after the checks of `apply`. -/
structure Fits (k : Cells P) (c : P.Cls) (slot : Slot) (new : Option P.Asg) : Prop where
  cell : ∀ ai, new = some ai → P.aClass ai = c ∧ P.aAllowed ai slot = true
  free : ∀ t ∈ P.members new, t ∉ P.members (k.grid c slot) → k.teacherSlot t slot = none

theorem fits_of_busy {k : Cells P} {c : P.Cls} {slot : Slot} {new : Option P.Asg}
    (hcell : ∀ ai, new = some ai → P.aClass ai = c ∧ P.aAllowed ai slot = true)
    (hbusy : (k.release slot (k.grid c slot)).busy slot new = false) : k.Fits c slot new := by
  refine ⟨hcell, fun t ht hold => ?_⟩
  have h := (busy_eq_false_iff _ slot new).mp hbusy t ht
  rwa [release_teacherSlot, if_neg fun hh => hold hh.1] at h

namespace Sound
variable {k : Cells P} (hk : k.Sound)
include hk

theorem teacherSlot_of_member {c : P.Cls} {slot : Slot} {t : P.Tch}
    (h : t ∈ P.members (k.grid c slot)) : k.teacherSlot t slot = k.grid c slot := by
  cases hg : k.grid c slot with
  | none => simp [hg] at h
  | some ai =>
    rw [hg] at h
    have hc := (hk.cells c slot ai hg).1
    exact (hk.owner t slot ai).mpr ⟨by rw [hc, hg], h⟩

/-- No teacher stands in two classes at one slot. -/
theorem exclusive {c d : P.Cls} {slot : Slot} {t : P.Tch}
    (hc : t ∈ P.members (k.grid c slot)) (hd : t ∈ P.members (k.grid d slot)) : c = d := by
  have hc' := hk.teacherSlot_of_member hc
  have hd' := hk.teacherSlot_of_member hd
  cases hg : k.grid c slot with
  | none => simp [hg] at hc
  | some ai =>
    have hdg : k.grid d slot = some ai := by rw [← hd', hc', hg]
    rw [← (hk.cells c slot ai hg).1, ← (hk.cells d slot ai hdg).1]

theorem put_owner {c : P.Cls} {slot : Slot} {new : Option P.Asg} (hf : k.Fits c slot new)
    (t : P.Tch) (b : P.Asg) : (k.put c slot new).teacherSlot t slot = some b ↔
      (k.put c slot new).grid (P.aClass b) slot = some b ∧ t ∈ P.aTeachers b := by
  have hclass : ∀ d, k.grid d slot = some b → P.aClass b = d := fun d h => (hk.cells d slot b h).1
  rw [put_teacherSlot, put_grid, set2_apply]
  simp only [and_true]
  by_cases hn : t ∈ P.members new
  · rw [if_pos hn]
    constructor
    · rintro rfl
      exact ⟨by rw [if_pos (hf.cell b rfl).1], hn⟩
    · rintro ⟨hg, hb⟩
      split at hg
      · exact hg
      · rename_i hne
        -- `b` would sit in another class, so its teacher could not be free here
        have hts := (hk.owner t slot b).mpr ⟨hg, hb⟩
        by_cases hold : t ∈ P.members (k.grid c slot)
        · rw [hk.teacherSlot_of_member hold] at hts
          exact absurd (hclass c hts) hne
        · rw [hf.free t hn hold] at hts
          simp at hts
  · rw [if_neg hn]
    by_cases hold : t ∈ P.members (k.grid c slot)
    · rw [if_pos hold]
      constructor
      · intro h
        simp at h
      · rintro ⟨hg, hb⟩
        split at hg
        · subst hg
          exact absurd hb hn
        · rename_i hne
          have hts := (hk.owner t slot b).mpr ⟨hg, hb⟩
          rw [hk.teacherSlot_of_member hold] at hts
          exact absurd (hclass c hts) hne
    · rw [if_neg hold, hk.owner t slot b]
      by_cases hc : P.aClass b = c
      · rw [if_pos hc, hc]
        constructor
        · rintro ⟨hg, hb⟩
          exact absurd (by rw [hg]; exact hb) hold
        · rintro ⟨hg, hb⟩
          exact absurd (by rw [hg]; exact hb) hn
      · rw [if_neg hc]

theorem put {c : P.Cls} {slot : Slot} {new : Option P.Asg} (hf : k.Fits c slot new) :
    (k.put c slot new).Sound := by
  constructor
  · intro d s ai h
    rw [put_grid, set2_apply] at h
    split at h
    · rename_i hd
      rw [hd.1, hd.2]
      exact hf.cell ai h
    · exact hk.cells d s ai h
  · intro t s b
    by_cases hs : s = slot
    · subst hs
      exact hk.put_owner hf t b
    · rw [put_teacherSlot, put_grid, if_neg (fun h => hs h.2), if_neg (fun h => hs h.2),
        set2_of_ne (fun h => hs h.2)]
      exact hk.owner t s b
  · rw [put_placed, put_grid, tally_set2, hk.placed]
  · intro ai
    rw [put_aPlaced, put_grid, tally_set2, hk.aPlaced]

/-- Writing the old lesson back undoes a write. -/
theorem put_put {c : P.Cls} {slot : Slot} {new : Option P.Asg} (hf : k.Fits c slot new) :
    (k.put c slot new).put c slot (k.grid c slot) = k := by
  apply ext_of
  · intro d s
    rw [put_grid, put_grid, set2_set2, set2_get]
  · intro t s
    rw [put_teacherSlot, put_grid, set2_self, put_teacherSlot]
    by_cases hs : s = slot
    · subst hs
      simp only [and_true]
      by_cases hold : t ∈ P.members (k.grid c s)
      · rw [if_pos hold, hk.teacherSlot_of_member hold]
      · rw [if_neg hold, if_neg hold]
        by_cases hn : t ∈ P.members new
        · rw [if_pos hn, hf.free t hn hold]
        · rw [if_neg hn, if_neg hn]
    · simp [hs]
  · rw [put_placed, put_placed, put_grid, set2_self]
    omega
  · intro a
    rw [put_aPlaced, put_aPlaced, put_grid, set2_self]
    omega

/-- Releasing a cell and entering it again changes nothing. -/
theorem occupy_release {c : P.Cls} {slot : Slot} :
    (k.release slot (k.grid c slot)).occupy slot (k.grid c slot) = k := by
  apply ext_of
  · intro d s
    simp
  · intro t s
    rw [occupy_teacherSlot, release_teacherSlot]
    by_cases h : t ∈ P.members (k.grid c slot) ∧ s = slot
    · rw [if_pos h, h.2, hk.teacherSlot_of_member h.1]
    · rw [if_neg h, if_neg h]
  · rw [occupy_placed, release_placed]
    omega
  · intro a
    rw [occupy_aPlaced, release_aPlaced]
    omega

end Sound

theorem empty_sound : (empty P).Sound := by
  constructor <;> simp [empty, tally]

/-- What `_write_cell` does to sound cells: nothing, an accepted write, or a refusal that
leaves the cells as they were. -/
theorem writeCell_cases {k : Cells P} (hk : k.Sound) (c : P.Cls) (slot : Slot)
    (new : Option P.Asg) (journal : List (Entry P))
    (hcell : ∀ ai, new = some ai → P.aClass ai = c ∧ P.aAllowed ai slot = true) :
    (k.grid c slot = new ∧ k.writeCell c slot new journal = (k, journal, true)) ∨
    (k.grid c slot ≠ new ∧ k.Fits c slot new ∧ k.writeCell c slot new journal =
      (k.put c slot new, ⟨c, slot, k.grid c slot, new⟩ :: journal, true)) ∨
    k.writeCell c slot new journal = (k, journal, false) := by
  unfold writeCell
  by_cases heq : k.grid c slot = new
  · exact Or.inl ⟨heq, if_pos heq⟩
  · rw [if_neg heq]
    cases hb : (k.release slot (k.grid c slot)).busy slot new with
    | true =>
      refine Or.inr (Or.inr ?_)
      simp only [hb, if_true, hk.occupy_release]
    | false =>
      refine Or.inr (Or.inl ⟨heq, fits_of_busy hcell hb, ?_⟩)
      simp only [hb]
      rfl

/-! ### Journals -/

/-- `journal` leads from `k₀` to `k` by accepted writes. -/
inductive Trail (k₀ : Cells P) : List (Entry P) → Cells P → Prop where
  | nil : Trail k₀ [] k₀
  | snoc {journal : List (Entry P)} {k : Cells P} {e : Entry P} :
      Trail k₀ journal k → k.Sound → e.old = k.grid e.cls e.slot → e.old ≠ e.new →
      k.Fits e.cls e.slot e.new → Trail k₀ (e :: journal) (k.put e.cls e.slot e.new)

theorem undoEntry_put {k : Cells P} {e : Entry P} (hk : k.Sound)
    (hold : e.old = k.grid e.cls e.slot) (hf : k.Fits e.cls e.slot e.new) :
    (k.put e.cls e.slot e.new).undoEntry e = k := by
  have h := hk.put_put hf
  rw [← hold] at h
  simpa [undoEntry, Cells.put] using h

namespace Trail
variable {k₀ k : Cells P} {journal : List (Entry P)}

/-- The rollback of a journal ends where the journal began. -/
theorem rollback (h : Trail k₀ journal k) : k.rollback journal = k₀ := by
  induction h with
  | nil => rfl
  | snoc _ hk hold _ hf ih =>
    rw [Cells.rollback, List.foldl_cons, undoEntry_put hk hold hf]
    exact ih

theorem sound (h : Trail k₀ journal k) (hk : k₀.Sound) : k.Sound := by
  induction h with
  | nil => exact hk
  | snoc _ hs _ _ hf _ => exact hs.put hf

/-- Cells no entry names keep their lesson. -/
theorem grid_eq (h : Trail k₀ journal k) {c : P.Cls} {slot : Slot}
    (hout : ∀ e ∈ journal, ¬ (c = e.cls ∧ slot = e.slot)) : k.grid c slot = k₀.grid c slot := by
  induction h with
  | nil => rfl
  | snoc _ _ _ _ _ ih =>
    rw [put_grid, set2_of_ne (hout _ List.mem_cons_self)]
    exact ih fun e he => hout e (List.mem_cons_of_mem _ he)

/-- The slot row of a teacher changes only where an entry touches it. -/
theorem teacherSlot_eq (h : Trail k₀ journal k) {t : P.Tch} {slot : Slot}
    (hout : ∀ e ∈ journal, ¬ (t ∈ State.entryTeachers e ∧ slot = e.slot)) :
    k.teacherSlot t slot = k₀.teacherSlot t slot := by
  induction h with
  | nil => rfl
  | @snoc journal k e _ _ hold _ _ ih =>
    have hcons := hout e List.mem_cons_self
    have hnew : ¬ (t ∈ P.members e.new ∧ slot = e.slot) := fun hh =>
      hcons ⟨List.mem_append.mpr (Or.inr hh.1), hh.2⟩
    have hmem : ¬ (t ∈ P.members (k.grid e.cls e.slot) ∧ slot = e.slot) := fun hh =>
      hcons ⟨List.mem_append.mpr (Or.inl (hold ▸ hh.1)), hh.2⟩
    rw [put_teacherSlot, if_neg hnew, if_neg hmem]
    exact ih fun e' he => hout e' (List.mem_cons_of_mem _ he)

end Trail

/-- The change loop of `apply` extends the trail of its journal, or goes back to its start. -/
theorem applyChanges_trail {k₀ : Cells P} (locked : P.Cls → Slot → Bool)
    (changes : List (Change P)) {k : Cells P} {journal : List (Entry P)}
    (h : Trail k₀ journal k) (hk : k.Sound) :
    (∃ k' journal', k.applyChanges locked changes journal = (k', .ok journal') ∧
      Trail k₀ journal' k' ∧ k'.Sound) ∨
    ∃ reason, k.applyChanges locked changes journal = (k₀, .error reason) := by
  induction changes generalizing k journal with
  | nil => exact Or.inl ⟨k, journal, rfl, h, hk⟩
  | cons change rest ih =>
    obtain ⟨c, slot, new⟩ := change
    by_cases hl : locked c slot = true ∧ k.grid c slot ≠ new
    · exact Or.inr ⟨"locked", by simp only [applyChanges, if_pos hl, h.rollback]⟩
    by_cases hna : new.any (fun a => decide (P.aClass a ≠ c) || !P.aAllowed a slot) = true
    · exact Or.inr ⟨"not_allowed",
        by simp only [applyChanges, if_neg hl, hna, if_true, h.rollback]⟩
    have hcell : ∀ ai, new = some ai → P.aClass ai = c ∧ P.aAllowed ai slot = true := by
      rintro ai rfl
      simpa using hna
    rcases writeCell_cases hk c slot new journal hcell with ⟨_, hw⟩ | ⟨hne, hf, hw⟩ | hw
    · simp only [applyChanges, if_neg hl, if_neg hna, hw]
      exact ih h hk
    · simp only [applyChanges, if_neg hl, if_neg hna, hw]
      have hsnoc := @Trail.snoc P k₀ journal k ⟨c, slot, k.grid c slot, new⟩ h hk rfl hne hf
      exact ih hsnoc (hk.put hf)
    · refine Or.inr ⟨"teacher_conflict", ?_⟩
      simp only [applyChanges, if_neg hl, if_neg hna, hw, h.rollback]

/-- An accepted change list overlays the grid. -/
theorem applyChanges_overlay {locked : P.Cls → Slot → Bool} (changes : List (Change P))
    {k k' : Cells P} {journal journal' : List (Entry P)} (hk : k.Sound)
    (h : k.applyChanges locked changes journal = (k', .ok journal')) :
    k'.grid = P.overlay k.grid changes := by
  induction changes generalizing k journal with
  | nil =>
    simp only [applyChanges, Prod.mk.injEq] at h
    rw [← h.1]
    rfl
  | cons change rest ih =>
    obtain ⟨c, slot, new⟩ := change
    rw [applyChanges] at h
    split at h
    · simp at h
    split at h
    · simp at h
    rename_i hna
    have hcell : ∀ ai, new = some ai → P.aClass ai = c ∧ P.aAllowed ai slot = true := by
      rintro ai rfl
      simpa using hna
    rcases writeCell_cases hk c slot new journal hcell with ⟨heq, hw⟩ | ⟨_, hf, hw⟩ | hw
    · simp only [hw] at h
      rw [ih hk h, Problem.overlay, Problem.overlay, List.foldl_cons, ← heq, set2_get]
    · simp only [hw] at h
      rw [ih (hk.put hf) h, put_grid]
      rfl
    · simp [hw] at h

end Cells

end TkbCherry.Engine
