import TkbCherry.Engine.Atomic
import TkbCherry.Engine.Hard
import TkbCherry.Engine.OptimizeMoves

/-!
# What the optimizer keeps

The objective is a function of the grid, a locked cell outlives every accepted change list, and a grid
that loads is restored with its statistics and the locks of the fixed cells. From these the invariant of
a search: whatever holds of the first grid, and outlives accepted changes that rearrange the rows, holds
of every grid and of the best one.
-/

namespace TkbCherry.Engine

set_option autoImplicit false

open Array2 Program

namespace Problem
variable (P : Problem)

/-- The objective of a grid. -/
def objectiveOf (grid : P.Grid) : List Int :=
  [tally Window.singleton (P.windowOf grid), tally Window.gap2 (P.windowOf grid),
    tally Window.session (P.windowOf grid), tally Window.gap1 (P.windowOf grid),
    tally dayUsed (P.daySessionsOf grid)]

/-- The locks of the fixed cells. -/
def fixedLocks : P.Cls → Slot → Bool :=
  P.fixedCells.foldl (fun locked e => set2 locked e.1 e.2.1 true) fun _ _ => false

end Problem

section States
variable {P : Problem} {s s' : State P}

theorem Consistent.objective_eq (h : Consistent s) : s.objective = P.objectiveOf s.grid := by
  have hr := h.recount
  unfold State.objective Problem.objectiveOf
  rw [hr.nSingleton, hr.nGap2, hr.nSessions, hr.nGap1, hr.nDays]

theorem writeCell_locked {k k' : Cells P} {c : P.Cls} {slot : Slot} {new : Option P.Asg}
    {journal journal' : List (Entry P)} (h : k.writeCell c slot new journal = (k', journal', true))
    {d : P.Cls} {x : Slot} (hkeep : (d = c ∧ x = slot) → k.grid c slot = new) :
    k'.grid d x = k.grid d x := by
  unfold Cells.writeCell at h
  dsimp only at h
  split at h
  · cases h
    rfl
  · split at h
    · cases h
    · cases h
      show set2 k.grid c slot new d x = k.grid d x
      rw [set2_apply]
      split
      · rename_i hkey
        rw [hkey.1, hkey.2]
        exact (hkeep hkey).symm
      · rfl

/-- An accepted change list leaves the locked cells as they are. -/
theorem applyChanges_locked {locked : P.Cls → Slot → Bool} (changes : List (Change P))
    {k k' : Cells P} {journal journal' : List (Entry P)}
    (h : k.applyChanges locked changes journal = (k', .ok journal')) {d : P.Cls} {x : Slot}
    (hlock : locked d x = true) : k'.grid d x = k.grid d x := by
  induction changes generalizing k journal with
  | nil =>
    cases h
    rfl
  | cons change rest ih =>
    obtain ⟨c, slot, new⟩ := change
    rw [Cells.applyChanges] at h
    split at h
    · cases h
    · rename_i hfree
      split at h
      · cases h
      · cases hw : k.writeCell c slot new journal with
        | mk k₁ rest₁ =>
          obtain ⟨journal₁, ok⟩ := rest₁
          rw [hw] at h
          cases ok with
          | false => cases h
          | true =>
            rw [ih h]
            apply writeCell_locked hw
            intro hkey
            by_contra hne
            exact hfree ⟨by rw [← hkey.1, ← hkey.2]; exact hlock, hne⟩

theorem apply_locked {changes : List (Change P)} {check : Bool} {journal : List (Entry P)}
    (happ : s.apply changes check = (s', some journal)) {d : P.Cls} {x : Slot}
    (hlock : s.locked d x = true) : s'.grid d x = s.grid d x := by
  unfold State.apply at happ
  cases hchg : s.toCells.applyChanges s.locked changes [] with
  | mk k r =>
    rw [hchg] at happ
    cases r with
    | error reason => cases happ
    | ok j =>
      have hkept := applyChanges_locked changes hchg hlock
      cases j with
      | nil =>
        cases happ
        exact hkept
      | cons e rest =>
        dsimp only at happ
        split at happ
        · cases happ
        · cases happ
          rw [State.refreshAll_toCells]
          exact hkept

theorem lockFixed_locked (hfree : ∀ c slot, s.locked c slot = false) :
    s.lockFixed.locked = P.fixedLocks := by
  have hfold : ∀ (cells : List (P.Cls × Slot × P.Asg)) (s : State P),
      (cells.foldl (fun s e => s.lockCell e.1 e.2.1) s).locked =
        cells.foldl (fun locked e => set2 locked e.1 e.2.1 true) s.locked := by
    intro cells
    induction cells with
    | nil =>
      intro s
      rfl
    | cons e rest ih =>
      intro s
      rw [List.foldl_cons, List.foldl_cons, ih]
      rfl
  have hstart : s.locked = fun _ _ => false := by
    funext c slot
    exact hfree c slot
  unfold State.lockFixed Problem.fixedLocks
  rw [hfold, hstart]

theorem lockFixed_deferMin (s : State P) : s.lockFixed.deferMin = s.deferMin := by
  unfold State.lockFixed
  induction P.fixedCells generalizing s with
  | nil => rfl
  | cons e rest ih =>
    rw [List.foldl_cons, ih]
    rfl

/-- Loading changes neither the locks nor the switch. -/
theorem restoreCells_frame (h : Consistent s) (snap : P.Grid) (cells : List (P.Cls × Slot)) :
    (State.restoreCells snap cells s).1.locked = s.locked ∧
      (State.restoreCells snap cells s).1.deferMin = s.deferMin := by
  induction cells generalizing s with
  | nil => exact ⟨rfl, rfl⟩
  | cons e rest ih =>
    obtain ⟨c, slot⟩ := e
    rw [State.restoreCells]
    cases snap c slot with
    | none => exact ih h
    | some ai =>
      rcases State.apply_cases h [(c, slot, some ai)] false with
        ⟨reason, happ⟩ | ⟨s₁, journal, happ, hlocked, hdefer, -, hs₁⟩
      · dsimp only
        rw [happ]
        exact ⟨rfl, rfl⟩
      · dsimp only
        rw [happ]
        obtain ⟨hl, hd⟩ := ih hs₁
        exact ⟨hl.trans hlocked, hd.trans hdefer⟩

/-- A loadable grid is restored as it stands. -/
theorem restore_spec (s : State P) {snap : P.Grid} (h : P.Loadable snap) :
    ∃ s', s.restore snap = (s', true) ∧ s'.grid = snap ∧ Consistent s' ∧
      s'.locked = P.fixedLocks ∧ s'.deferMin = s.deferMin := by
  obtain ⟨s₁, hload, hgrid⟩ := State.load_eq P s.deferMin h
  have hframe := restoreCells_frame (Consistent.init P s.deferMin) snap (P.allClasses.product allSlots)
  have hconsistent := State.load_consistent P s.deferMin snap
  unfold State.load at hload hconsistent
  rw [hload] at hframe hconsistent
  refine ⟨s₁.lockFixed, ?_, ?_, hconsistent.lockFixed, ?_, ?_⟩
  · unfold State.restore State.load
    rw [hload]
  · rw [← hgrid]
    unfold State.lockFixed
    clear hload hframe hconsistent hgrid
    induction P.fixedCells generalizing s₁ with
    | nil => rfl
    | cons e rest ih =>
      rw [List.foldl_cons, ih]
      rfl
  · apply lockFixed_locked
    intro c slot
    rw [hframe.1]
    rfl
  · rw [lockFixed_deferMin, hframe.2]
    rfl

/-- Consistent states are one, up to the reason of the last failure, where their grids are. -/
theorem Consistent.eq_of_grid (h : Consistent s) (h' : Consistent s') (hgrid : s'.grid = s.grid)
    (hlocked : s'.locked = s.locked) (hdefer : s'.deferMin = s.deferMin) :
    s' = { s with checkFailReason := s'.checkFailReason } := by
  have hcells : s'.toCells = s.toCells := by
    have hr := h.recount
    have hr' := h'.recount
    apply Cells.ext_of
    · intro c slot
      rw [hgrid]
    · intro t slot
      rw [hr.teacherSlot, hr'.teacherSlot, hgrid]
    · rw [hr.placed, hr'.placed, hgrid]
    · intro a
      rw [hr.aPlaced, hr'.aPlaced, hgrid]
  have hsame : Consistent { s with checkFailReason := s'.checkFailReason } :=
    h.of_eq rfl rfl rfl rfl
  exact hsame.eq_of_cells h' hcells hlocked rfl hdefer

end States

/-! ### The invariant of a search -/

/-- What a search is measured by: a property of grids that accepted changes keep where they rearrange
the rows, the objective not to be exceeded, and the readings of the clock. -/
structure Aim (P : Problem) where
  deferMin : Bool
  keeps : P.Grid → Prop
  goal : List Int
  clock : Nat → Int
  lasting : ∀ (s s' : State P) (changes : List (Change P)) (journal : List (Entry P)),
    Consistent s → s.locked = P.fixedLocks → s.deferMin = deferMin → keeps s.grid →
    s.apply changes true = (s', some journal) →
    Problem.Rearranged s.grid (P.overlay s.grid changes) → keeps s'.grid

/-- The state is consistent, its grid and the best one keep the property, and at least `ticks` readings
of the clock were used. -/
structure Aim.Inv {P : Problem} (A : Aim P) (ticks : Nat) (o : Optimizer P) : Prop where
  consistent : Consistent o.state
  locked : o.state.locked = P.fixedLocks
  deferMin : o.state.deferMin = A.deferMin
  grid : A.keeps o.state.grid
  bestGrid : A.keeps o.bestSnap
  bestLoads : P.Loadable o.bestSnap
  bestTuple : o.bestTuple = P.objectiveOf o.bestSnap
  goal : o.bestTuple ≤ A.goal
  clock : ∃ used, ticks ≤ used ∧ ∀ i, o.clock i = A.clock (i + used)

/-- Nothing but the reason of the last failure, the generator and the clock has moved. -/
structure Unchanged {P : Problem} (o o' : Optimizer P) : Prop where
  state : o'.state = { o.state with checkFailReason := o'.state.checkFailReason }
  bestSnap : o'.bestSnap = o.bestSnap
  bestTuple : o'.bestTuple = o.bestTuple

namespace Unchanged
variable {P : Problem} {o o' o'' : Optimizer P}

theorem refl (o : Optimizer P) : Unchanged o o := ⟨rfl, rfl, rfl⟩

theorem cells (h : Unchanged o o') : o'.state.toCells = o.state.toCells := by
  rw [h.state]

theorem ts (h : Unchanged o o') : o'.state.ts = o.state.ts := by
  rw [h.state]

theorem objective (h : Unchanged o o') : o'.state.objective = o.state.objective := by
  rw [h.state]
  rfl

theorem trans (h : Unchanged o o') (h' : Unchanged o' o'') : Unchanged o o'' := by
  refine ⟨?_, h'.bestSnap.trans h.bestSnap, h'.bestTuple.trans h.bestTuple⟩
  rw [h'.state, h.state]

end Unchanged

/-- A hit improves the objective, or at least does not spoil it; a miss changes nothing. -/
def Aim.Outcome {P : Problem} (A : Aim P) (ticks : Nat) (strict : Bool) (o : Optimizer P) (hit : Bool)
    (o' : Optimizer P) : Prop :=
  if hit = true then A.Inv ticks o' ∧ o'.state.objective ≤ o.state.objective ∧
    (strict = true → o'.state.objective < o.state.objective)
  else A.Inv ticks o' ∧ Unchanged o o'

section Invariant
variable {P : Problem} {A : Aim P} {ticks : Nat} {o o' : Optimizer P}

theorem Aim.Outcome.miss {strict : Bool} (h : A.Inv ticks o') (hsame : Unchanged o o') :
    A.Outcome ticks strict o false o' := ⟨h, hsame⟩

theorem Aim.Outcome.inv {strict hit : Bool} (h : A.Outcome ticks strict o hit o') :
    A.Inv ticks o' := by
  cases hit with
  | true => exact h.1
  | false => exact h.1

/-- An outcome seen from an earlier moment that nothing has changed since. -/
theorem Aim.Outcome.since {strict hit : Bool} {before : Optimizer P} (hsame : Unchanged before o)
    (h : A.Outcome ticks strict o hit o') : A.Outcome ticks strict before hit o' := by
  cases hit with
  | true =>
    obtain ⟨hinv, hle, hlt⟩ := h
    rw [hsame.objective] at hle hlt
    exact ⟨hinv, hle, hlt⟩
  | false => exact ⟨h.1, hsame.trans h.2⟩

/-- The same search with another generator and a later clock. -/
theorem Aim.Inv.of_clock {draws : Nat → Nat} {clock : Nat → Int} (h : A.Inv ticks o)
    (hclock : ∃ used, ticks ≤ used ∧ ∀ i, clock i = A.clock (i + used)) :
    A.Inv ticks { o with draws := draws, clock := clock } :=
  ⟨h.consistent, h.locked, h.deferMin, h.grid, h.bestGrid, h.bestLoads, h.bestTuple, h.goal, hclock⟩

/-- A reading of the clock. -/
theorem monotonic_spec (h : A.Inv ticks o) : Returns Optimizer.monotonic o fun now o' =>
    A.Inv (ticks + 1) o' ∧ Unchanged o o' ∧ ∃ i, ticks ≤ i ∧ now = A.clock i := by
  obtain ⟨used, hused, hclock⟩ := h.clock
  unfold Optimizer.monotonic
  apply Returns.read
  apply Returns.write
  apply Returns.pure
  refine ⟨⟨h.consistent, h.locked, h.deferMin, h.grid, h.bestGrid, h.bestLoads, h.bestTuple, h.goal,
    used + 1, by omega, ?_⟩, ⟨rfl, rfl, rfl⟩, used, hused, ?_⟩
  · intro i
    show o.clock (i + 1) = A.clock (i + (used + 1))
    rw [hclock, Nat.add_right_comm, Nat.add_assoc]
  · rw [hclock, Nat.zero_add]

/-- Fewer readings are asked for. -/
theorem Aim.Inv.fewer {fewer : Nat} (h : A.Inv ticks o) (hle : fewer ≤ ticks) : A.Inv fewer o := by
  obtain ⟨used, hused, hclock⟩ := h.clock
  exact ⟨h.consistent, h.locked, h.deferMin, h.grid, h.bestGrid, h.bestLoads, h.bestTuple, h.goal, used,
    by omega, hclock⟩

theorem randrange_spec {n : Nat} (hn : 0 < n) (h : A.Inv ticks o) :
    Returns (Optimizer.randrange n) o fun _ o' => A.Inv ticks o' ∧ Unchanged o o' := by
  unfold Optimizer.randrange
  apply Returns.read
  rw [dif_pos hn]
  apply Returns.write
  apply Returns.pure
  exact ⟨h.of_clock h.clock, ⟨rfl, rfl, rfl⟩⟩

theorem mem_swapAt {α : Type} {xs : List α} {i j : Nat} {x : α} (h : x ∈ Optimizer.swapAt xs i j) :
    x ∈ xs := by
  unfold Optimizer.swapAt at h
  split at h
  · rename_i a b ha hb
    rcases List.mem_or_eq_of_mem_set h with hin | heq
    · rcases List.mem_or_eq_of_mem_set hin with hin | heq
      · exact hin
      · rw [heq]
        exact List.mem_of_getElem? hb
    · rw [heq]
      exact List.mem_of_getElem? ha
  · exact h

theorem shuffleFrom_spec {α : Type} (n : Nat) (xs : List α) (h : A.Inv ticks o) :
    Returns (Optimizer.shuffleFrom n xs) o fun ys o' =>
      A.Inv ticks o' ∧ Unchanged o o' ∧ ∀ y ∈ ys, y ∈ xs := by
  induction n generalizing xs o with
  | zero =>
    apply Returns.pure
    exact ⟨h, .refl o, fun y hy => hy⟩
  | succ n ih =>
    unfold Optimizer.shuffleFrom
    apply Returns.bind (randrange_spec (by omega) h)
    rintro j o₁ ⟨h₁, hsame₁⟩
    apply (ih _ h₁).mono
    rintro ys o₂ ⟨h₂, hsame₂, hys⟩
    exact ⟨h₂, hsame₁.trans hsame₂, fun y hy => mem_swapAt (hys y hy)⟩

theorem shuffle_spec {α : Type} (xs : List α) (h : A.Inv ticks o) :
    Returns (Optimizer.shuffle xs) o fun ys o' =>
      A.Inv ticks o' ∧ Unchanged o o' ∧ ∀ y ∈ ys, y ∈ xs := shuffleFrom_spec _ xs h

/-- The invariant after a note of the best grid. -/
theorem Aim.Inv.noteBest (h : A.Inv ticks o) : A.Inv ticks (Optimizer.noteBest o) := by
  unfold Optimizer.noteBest
  split
  · rename_i hlt
    exact ⟨h.consistent, h.locked, h.deferMin, h.grid, h.grid, h.consistent.sound.loadable,
      h.consistent.objective_eq, hlt.le.trans h.goal, h.clock⟩
  · exact h

theorem noteBest_state (o : Optimizer P) : (Optimizer.noteBest o).state = o.state := by
  unfold Optimizer.noteBest
  split <;> rfl

/-- Back to a grid that loads and keeps the property. -/
theorem restoreTo_spec {snap : P.Grid} (h : A.Inv ticks o) (hsnap : A.keeps snap)
    (hload : P.Loadable snap) : Returns (Optimizer.restoreTo snap) o fun _ o' =>
      A.Inv ticks o' ∧ o'.state.grid = snap ∧ o'.bestSnap = o.bestSnap ∧ o'.bestTuple = o.bestTuple := by
  obtain ⟨s', heq, hgrid, hs', hlocked, hdefer⟩ := restore_spec o.state hload
  unfold Optimizer.restoreTo
  apply Returns.read
  rw [heq]
  apply Returns.write
  rw [if_pos rfl]
  apply Returns.pure
  refine ⟨⟨hs', hlocked, hdefer.trans h.deferMin, ?_, h.bestGrid, h.bestLoads, h.bestTuple, h.goal,
    h.clock⟩, hgrid, rfl, rfl⟩
  rw [hgrid]
  exact hsnap

/-- Going back undoes whatever happened since. -/
theorem goBack_spec {before : Optimizer P} (hbefore : A.Inv ticks before) (h : A.Inv ticks o) :
    Returns (Optimizer.goBack before) o fun hit o' => hit = false ∧ A.Inv ticks o' ∧
      Unchanged before o' := by
  unfold Optimizer.goBack
  apply Returns.bind (restoreTo_spec h hbefore.grid hbefore.consistent.sound.loadable)
  rintro - o₁ ⟨h₁, hgrid, -, -⟩
  apply Returns.read
  apply Returns.write
  apply Returns.pure
  refine ⟨rfl, ⟨h₁.consistent, h₁.locked, h₁.deferMin, h₁.grid, hbefore.bestGrid, hbefore.bestLoads,
    hbefore.bestTuple, hbefore.goal, h₁.clock⟩, ?_, rfl, rfl⟩
  exact hbefore.consistent.eq_of_grid h₁.consistent hgrid (h₁.locked.trans hbefore.locked.symm)
    (h₁.deferMin.trans hbefore.deferMin.symm)

/-- An accepted change list that rearranges the rows keeps the invariant. -/
theorem Aim.Inv.applied {s' : State P} {changes : List (Change P)} {journal : List (Entry P)}
    (h : A.Inv ticks o) (happ : o.state.apply changes true = (s', some journal))
    (hmove : Problem.Rearranged o.state.grid (P.overlay o.state.grid changes)) :
    A.Inv ticks { o with state := s' } := by
  have hkeeps := A.lasting o.state s' changes journal h.consistent h.locked h.deferMin h.grid happ hmove
  rcases State.apply_cases h.consistent changes true with
    ⟨reason, heq⟩ | ⟨s₁, journal₁, heq, hlocked, hdefer, -, hs₁⟩
  · rw [happ] at heq
    cases heq
  · rw [happ] at heq
    cases heq
    exact ⟨hs₁, hlocked.trans h.locked, hdefer.trans h.deferMin, hkeeps, h.bestGrid, h.bestLoads,
      h.bestTuple, h.goal, h.clock⟩

/-- A refused change list only names its reason. -/
theorem Aim.Inv.refused {s' : State P} {changes : List (Change P)} (h : A.Inv ticks o)
    (happ : o.state.apply changes true = (s', none)) :
    A.Inv ticks { o with state := s' } ∧ Unchanged o { o with state := s' } := by
  have heq := State.apply_refused h.consistent happ
  constructor
  · have hs' : Consistent s' := by
      rw [heq]
      exact h.consistent.of_eq rfl rfl rfl rfl
    refine ⟨hs', ?_, ?_, ?_, h.bestGrid, h.bestLoads, h.bestTuple, h.goal, h.clock⟩
    · show s'.locked = P.fixedLocks
      rw [heq]
      exact h.locked
    · show s'.deferMin = A.deferMin
      rw [heq]
      exact h.deferMin
    · show A.keeps s'.grid
      rw [heq]
      exact h.grid
  · exact ⟨heq, rfl, rfl⟩

/-- `_try` -/
theorem attempt_spec {changes : List (Change P)} (h : A.Inv ticks o)
    (hmove : Problem.Rearranged o.state.grid (P.overlay o.state.grid changes)) (allowEqual : Bool) :
    Returns (Optimizer.attempt changes allowEqual) o (A.Outcome ticks (!allowEqual) o) := by
  unfold Optimizer.attempt
  apply Returns.read
  cases happ : o.state.apply changes true with
  | mk s' answer =>
    cases answer with
    | none =>
      apply Returns.write
      apply Returns.pure
      obtain ⟨hinv, hsame⟩ := h.refused happ
      exact Aim.Outcome.miss hinv hsame
    | some journal =>
      dsimp only
      split
      · rename_i hbetter
        apply Returns.write
        apply Returns.pure
        have hle : s'.objective ≤ o.state.objective := by
          rcases hbetter with hlt | heq
          · exact hlt.le
          · exact le_of_eq heq.2
        refine ⟨(h.applied happ hmove).noteBest, ?_, ?_⟩
        · rw [noteBest_state]
          exact hle
        · intro hstrict
          rw [noteBest_state]
          rcases hbetter with hlt | heq
          · exact hlt
          · rw [heq.1] at hstrict
            cases hstrict
      · apply Returns.write
        apply Returns.pure
        have hundo := State.undo_apply h.consistent happ
        rw [hundo]
        exact Aim.Outcome.miss h (.refl o)

theorem attemptSome_spec {changes : List (Change P)} (h : A.Inv ticks o)
    (hmove : Problem.Rearranged o.state.grid (P.overlay o.state.grid changes)) (allowEqual : Bool) :
    Returns (Optimizer.attemptSome changes allowEqual) o (A.Outcome ticks (!allowEqual) o) := by
  unfold Optimizer.attemptSome
  split
  · apply Returns.pure
    exact Aim.Outcome.miss h (.refl o)
  · exact attempt_spec h hmove allowEqual

/-- A loop over tries that stops at the first hit. -/
theorem anyM_spec {α : Type} {f : α → Search P Bool} {xs : List α} (strict : Bool)
    (h : A.Inv ticks o)
    (hf : ∀ x ∈ xs, ∀ o₁, A.Inv ticks o₁ → Unchanged o o₁ →
      Returns (f x) o₁ (A.Outcome ticks strict o₁)) :
    Returns (xs.anyM f) o (A.Outcome ticks strict o) := by
  apply Returns.mono
  · apply Returns.anyM (I := fun o₁ => A.Inv ticks o₁ ∧ Unchanged o o₁)
      (J := fun o₁ => A.Inv ticks o₁ ∧ o₁.state.objective ≤ o.state.objective ∧
        (strict = true → o₁.state.objective < o.state.objective)) ⟨h, .refl o⟩
    intro x hx o₁ h₁
    exact (hf x hx o₁ h₁.1 h₁.2).mono fun hit o₂ h₂ => h₂.since h₁.2
  · intro hit o₁ h₁
    exact h₁

end Invariant

end TkbCherry.Engine
