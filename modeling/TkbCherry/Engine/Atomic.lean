import TkbCherry.Engine.Stats

/-!
# Atomicity of `apply`

The caches of a consistent state are a function of its cells, so two consistent states with
the same cells and the same switches are one state. An undo right after an accepted change
list leads back to consistent statistics over the old cells, hence to the old state.
-/

namespace TkbCherry.Engine

set_option autoImplicit false

namespace Consistent
variable {P : Problem} {s s' : State P}

theorem ts_eq (h : Consistent s) (h' : Consistent s') (hcells : s'.toCells = s.toCells) :
    s'.ts = s.ts := by
  funext t ses
  rw [h.kept.ts t ses id, h'.kept.ts t ses id]
  simp only [State.rowWindow, hcells]

theorem tDaySessions_eq (h : Consistent s) (h' : Consistent s')
    (hcells : s'.toCells = s.toCells) : s'.tDaySessions = s.tDaySessions := by
  funext t d
  rw [h.kept.tDaySessions, h'.kept.tDaySessions, ts_eq h h' hcells]

/-- The statistics are a function of the cells. -/
theorem eq_of_cells (h : Consistent s) (h' : Consistent s') (hcells : s'.toCells = s.toCells)
    (hlocked : s'.locked = s.locked) (hreason : s'.checkFailReason = s.checkFailReason)
    (hdefer : s'.deferMin = s.deferMin) : s' = s := by
  have hts := ts_eq h h' hcells
  have hday := tDaySessions_eq h h' hcells
  have hsingleton : s'.nSingleton = s.nSingleton := by
    rw [h.kept.nSingleton, h'.kept.nSingleton, hts]
  have hgap2 : s'.nGap2 = s.nGap2 := by
    rw [h.kept.nGap2, h'.kept.nGap2, hts]
  have hsessions : s'.nSessions = s.nSessions := by
    rw [h.kept.nSessions, h'.kept.nSessions, hts]
  have hgap1 : s'.nGap1 = s.nGap1 := by
    rw [h.kept.nGap1, h'.kept.nGap1, hts]
  have hdays : s'.nDays = s.nDays := by
    rw [h.kept.nDays, h'.kept.nDays, hday]
  cases s
  cases s'
  simp only [State.mk.injEq]
  exact ⟨hcells, hlocked, hts, hday, hsingleton, hgap2, hsessions, hgap1, hdays, hreason, hdefer⟩

end Consistent

namespace State
variable {P : Problem}

@[simp] theorem refreshAll_checkFailReason (s : State P) (touched : List (P.Tch × Session)) :
    (s.refreshAll touched).checkFailReason = s.checkFailReason := by
  induction touched generalizing s with
  | nil => rfl
  | cons e rest ih => exact ih (s.refreshTs e.1 e.2)

/-- An accepted change list leaves the reason of the last failure alone. -/
theorem apply_checkFailReason {s s' : State P} {changes : List (Change P)} {check : Bool}
    {journal : List (Entry P)} (h : Consistent s)
    (happ : s.apply changes check = (s', some journal)) :
    s'.checkFailReason = s.checkFailReason := by
  rcases Cells.applyChanges_trail s.locked changes (@Cells.Trail.nil P s.toCells) h.sound with
    ⟨k, j, hchg, _, _⟩ | ⟨reason, hchg⟩
  · cases j with
    | nil =>
      simp only [apply, hchg, Prod.mk.injEq] at happ
      rw [← happ.1]
    | cons e rest =>
      cases hchk : if check then ({ s with toCells := k } : State P).checkScopes (e :: rest)
        else none with
      | some reason =>
        simp [apply_of_reason hchg (List.cons_ne_nil e rest) hchk] at happ
      | none =>
        rw [apply_of_checked hchg (List.cons_ne_nil e rest) hchk, Prod.mk.injEq] at happ
        rw [← happ.1, refreshAll_checkFailReason]
  · simp [apply, hchg] at happ

/-- A refused change list leaves every field but the reason of the failure as it was. -/
theorem apply_refused {s s' : State P} {changes : List (Change P)} {check : Bool}
    (h : Consistent s) (happ : s.apply changes check = (s', none)) :
    s' = { s with checkFailReason := s'.checkFailReason } := by
  rcases apply_cases h changes check with ⟨reason, hr⟩ | ⟨_, _, hr, _⟩
  · rw [happ, Prod.mk.injEq] at hr
    rw [hr.1]
  · rw [happ] at hr
    simp at hr

/-- The undo of a journal right after its change list restores the state. -/
theorem undo_apply {s s' : State P} {changes : List (Change P)} {check : Bool}
    {journal : List (Entry P)} (h : Consistent s)
    (happ : s.apply changes check = (s', some journal)) : s'.undo journal = s := by
  have hreason := apply_checkFailReason h happ
  rcases apply_cases h changes check with ⟨_, hr⟩ | ⟨s₁, j, hr, hlocked, hdefer, htrail, hs₁⟩
  · rw [happ] at hr
    simp at hr
  · rw [happ, Prod.mk.injEq, Option.some.injEq] at hr
    obtain ⟨rfl, rfl⟩ := hr
    obtain ⟨hcells, hundone⟩ := undo_consistent hs₁ h.sound htrail
    apply h.eq_of_cells hundone hcells
    · simpa [undo] using hlocked
    · simpa [undo] using hreason
    · simpa [undo] using hdefer

/-- `apply` either refuses and moves no field but the reason of the failure, or answers
with a journal whose undo gives the state back. -/
structure Atomic (s : State P) (changes : List (Change P)) (check : Bool) : Prop where
  refused : ∀ s', s.apply changes check = (s', none) →
    s' = { s with checkFailReason := s'.checkFailReason }
  undone : ∀ s' journal, s.apply changes check = (s', some journal) → s'.undo journal = s

/-- Every change list is atomic in every state a run of applies, undos, restores and locks
leads to. -/
theorem apply_atomic (P : Problem) (deferMin : Bool) (edits : List (Edit P))
    (changes : List (Change P)) (check : Bool) :
    Atomic (edits.foldl Desk.step (Desk.init P deferMin)).state changes check := by
  have hinv := Desk.inv_run (Transition.Run.ofFn_foldl Desk.step _ edits)
    (Desk.inv_init P deferMin)
  constructor
  · intro s' happ
    exact apply_refused hinv.consistent happ
  · intro s' journal happ
    exact undo_apply hinv.consistent happ

end State

end TkbCherry.Engine
