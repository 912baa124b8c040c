import TkbCherry.Engine.Writes
import TkbCherry.Lib.Transition

/-!
# Cached statistics

The caches of `State` against a computation from the grid. Between the writes of a change
list and its refresh the rows of the touched teacher sessions are stale; every refresh
makes one of them fresh again, so the invariant carries the set of stale rows.
-/

namespace TkbCherry.Engine

set_option autoImplicit false

open Array2

/-! ### Computation from the grid -/

namespace Problem
variable (P : Problem)

/-- The lesson a teacher gives at a slot. -/
def lessonOf (grid : P.Grid) (t : P.Tch) (slot : Slot) : Option P.Asg :=
  P.allClasses.findSome? fun c => (grid c slot).filter fun ai => decide (t ∈ P.aTeachers ai)

def windowOf (grid : P.Grid) (t : P.Tch) (ses : Session) : Window :=
  sessionWindow fun p => (P.lessonOf grid t (slotAt ses p)).isSome

def daySessionsOf (grid : P.Grid) (t : P.Tch) (d : Day) : Int :=
  (P.windowOf grid t (morning d)).used + (P.windowOf grid t (afternoon d)).used

/-- No teacher stands in two classes at one slot. -/
def Exclusive (grid : P.Grid) : Prop :=
  ∀ c d slot t, t ∈ P.members (grid c slot) → t ∈ P.members (grid d slot) → c = d

/-- Every lesson stands in its class at an allowed slot, with its teachers free. -/
structure Loadable (grid : P.Grid) : Prop where
  cells : ∀ c slot ai, grid c slot = some ai → P.aClass ai = c ∧ P.aAllowed ai slot = true
  exclusive : P.Exclusive grid

end Problem

/-- `1 if count > 0 else 0` of a day. -/
def dayUsed (sessions : Int) : Int := if sessions > 0 then 1 else 0

/-- Every cache of the state is what its grid gives. -/
structure Recount {P : Problem} (s : State P) : Prop where
  exclusive : P.Exclusive s.grid
  teacherSlot : ∀ t slot, s.teacherSlot t slot = P.lessonOf s.grid t slot
  placed : s.placed = tally (fun o => if o.isSome then 1 else 0) s.grid
  aPlaced : ∀ ai, s.aPlaced ai = tally (fun o => if o = some ai then 1 else 0) s.grid
  ts : ∀ t ses, s.ts t ses = P.windowOf s.grid t ses
  tDaySessions : ∀ t d, s.tDaySessions t d = P.daySessionsOf s.grid t d
  nSingleton : s.nSingleton = tally Window.singleton (P.windowOf s.grid)
  nGap2 : s.nGap2 = tally Window.gap2 (P.windowOf s.grid)
  nSessions : s.nSessions = tally Window.session (P.windowOf s.grid)
  nGap1 : s.nGap1 = tally Window.gap1 (P.windowOf s.grid)
  nDays : s.nDays = tally dayUsed (P.daySessionsOf s.grid)

theorem Cells.Sound.loadable {P : Problem} {k : Cells P} (hk : k.Sound) : P.Loadable k.grid :=
  ⟨hk.cells, fun _ _ _ _ hc hd => hk.exclusive hc hd⟩

theorem Cells.Sound.teacherSlot_eq_lessonOf {P : Problem} {k : Cells P} (hk : k.Sound)
    (t : P.Tch) (slot : Slot) : k.teacherSlot t slot = P.lessonOf k.grid t slot := by
  cases hl : P.lessonOf k.grid t slot with
  | some ai =>
    obtain ⟨c, _, hc⟩ := List.exists_of_findSome?_eq_some hl
    obtain ⟨hg, ht⟩ := Option.filter_eq_some_iff.mp hc
    refine (hk.owner t slot ai).mpr ⟨?_, of_decide_eq_true ht⟩
    rw [(hk.cells c slot ai hg).1]
    exact hg
  | none =>
    cases hts : k.teacherSlot t slot with
    | none => rfl
    | some ai =>
      obtain ⟨hg, ht⟩ := (hk.owner t slot ai).mp hts
      have hnone := List.findSome?_eq_none_iff.mp hl (P.aClass ai) (List.mem_finRange _)
      simp [hg, ht] at hnone

/-! ### Fresh and stale rows -/

/-- The window `_refresh_ts` reads off the slot row. -/
def State.rowWindow {P : Problem} (s : State P) (t : P.Tch) (ses : Session) : Window :=
  sessionWindow fun p => (s.teacherSlot t (slotAt ses p)).isSome

/-- The statistics are those of the cached windows, and a window outside `stale` is that
of its slot row. -/
structure Kept {P : Problem} (s : State P) (stale : P.Tch → Session → Prop) : Prop where
  ts : ∀ t ses, ¬ stale t ses → s.ts t ses = s.rowWindow t ses
  tDaySessions : ∀ t d,
    s.tDaySessions t d = (s.ts t (morning d)).used + (s.ts t (afternoon d)).used
  nSingleton : s.nSingleton = tally Window.singleton s.ts
  nGap2 : s.nGap2 = tally Window.gap2 s.ts
  nSessions : s.nSessions = tally Window.session s.ts
  nGap1 : s.nGap1 = tally Window.gap1 s.ts
  nDays : s.nDays = tally dayUsed s.tDaySessions

/-- A weight over the two halves of a day, after one session is written. -/
theorem halfDays_set2 {A V : Type} [DecidableEq A] (f : V → Int) (cells : A → Session → V)
    (a : A) (ses : Session) (v : V) (a' : A) (d : Day) :
    f (set2 cells a ses v a' (morning d)) + f (set2 cells a ses v a' (afternoon d)) =
      f (cells a' (morning d)) + f (cells a' (afternoon d)) +
        if a' = a ∧ d = dayOf ses then f v - f (cells a ses) else 0 := by
  by_cases ha : a' = a
  · subst ha
    by_cases hd : d = dayOf ses
    · subst hd
      rcases (dayOf_eq_iff ses (dayOf ses)).mp rfl with hm | hm
      · have hne : ¬ afternoon (dayOf ses) = ses := by
          rw [hm, dayOf_morning]
          exact fun h => morning_ne_afternoon _ _ h.symm
        rw [← hm]
        simp only [set2_apply, hne, and_true, and_false, if_true, if_false]
        omega
      · have hne : ¬ morning (dayOf ses) = ses := by
          rw [hm, dayOf_afternoon]
          exact morning_ne_afternoon _ _
        rw [← hm]
        simp only [set2_apply, hne, and_true, and_false, if_true, if_false]
        omega
    · have hm : ¬ morning d = ses := fun he => hd (by rw [← he, dayOf_morning])
      have ha : ¬ afternoon d = ses := fun he => hd (by rw [← he, dayOf_afternoon])
      simp [set2_apply, hd, hm, ha]
  · simp [set2_apply, ha]

/-- The update of a day total when one day goes from `had` to `now` sessions. -/
theorem dayUsed_step {had now : Int} (hhad : 0 ≤ had) (hnow : 0 ≤ now) (n : Int) :
    (if had = 0 ∧ now > 0 then n + 1 else if had > 0 ∧ now = 0 then n - 1 else n) =
      n - dayUsed had + dayUsed now := by
  unfold dayUsed
  split_ifs <;> omega

theorem Window.used_nonneg (w : Window) : 0 ≤ w.used := by
  unfold Window.used
  split <;> omega

namespace State
variable {P : Problem}

@[simp] theorem refreshTs_toCells (s : State P) (t : P.Tch) (ses : Session) :
    (s.refreshTs t ses).toCells = s.toCells := rfl

@[simp] theorem refreshTs_locked (s : State P) (t : P.Tch) (ses : Session) :
    (s.refreshTs t ses).locked = s.locked := rfl

@[simp] theorem refreshTs_deferMin (s : State P) (t : P.Tch) (ses : Session) :
    (s.refreshTs t ses).deferMin = s.deferMin := rfl

@[simp] theorem refreshAll_toCells (s : State P) (touched : List (P.Tch × Session)) :
    (s.refreshAll touched).toCells = s.toCells := by
  induction touched generalizing s with
  | nil => rfl
  | cons e rest ih => exact (ih (s.refreshTs e.1 e.2)).trans (refreshTs_toCells s e.1 e.2)

@[simp] theorem refreshAll_locked (s : State P) (touched : List (P.Tch × Session)) :
    (s.refreshAll touched).locked = s.locked := by
  induction touched generalizing s with
  | nil => rfl
  | cons e rest ih => exact (ih (s.refreshTs e.1 e.2)).trans (refreshTs_locked s e.1 e.2)

@[simp] theorem refreshAll_deferMin (s : State P) (touched : List (P.Tch × Session)) :
    (s.refreshAll touched).deferMin = s.deferMin := by
  induction touched generalizing s with
  | nil => rfl
  | cons e rest ih => exact (ih (s.refreshTs e.1 e.2)).trans (refreshTs_deferMin s e.1 e.2)

theorem rowWindow_congr {s s' : State P} {t : P.Tch} {ses : Session}
    (h : ∀ slot, sessionOfSlot slot = ses → s.teacherSlot t slot = s'.teacherSlot t slot) :
    s.rowWindow t ses = s'.rowWindow t ses := by
  have hrow : ∀ p, s.teacherSlot t (slotAt ses p) = s'.teacherSlot t (slotAt ses p) :=
    fun p => h _ (sessionOfSlot_slotAt ses p)
  simp only [rowWindow, hrow]

/-- The day counter of the refreshed teacher, written on the refreshed windows. -/
theorem refreshTs_daySessions {s : State P} {stale : P.Tch → Session → Prop} (h : Kept s stale)
    (t : P.Tch) (ses : Session) (t' : P.Tch) (d : Day) :
    (s.refreshTs t ses).tDaySessions t' d =
      ((s.refreshTs t ses).ts t' (morning d)).used +
        ((s.refreshTs t ses).ts t' (afternoon d)).used := by
  calc (s.refreshTs t ses).tDaySessions t' d
      = s.tDaySessions t' d + if t' = t ∧ d = dayOf ses
          then (s.rowWindow t ses).used - (s.ts t ses).used else 0 := by
        simp only [refreshTs, set2_apply]
        split
        · rename_i he
          rw [he.1, he.2]
          rfl
        · omega
    _ = _ := by
        rw [h.tDaySessions, ← halfDays_set2 Window.used]
        rfl

/-- A refresh makes one row fresh and keeps every total. -/
theorem refreshTs_kept {s : State P} {stale stale' : P.Tch → Session → Prop}
    (h : Kept s stale) (t : P.Tch) (ses : Session)
    (hstale : ∀ t' ses', stale t' ses' → stale' t' ses' ∨ (t' = t ∧ ses' = ses)) :
    Kept (s.refreshTs t ses) stale' := by
  constructor
  · intro t' ses' hn
    simp only [refreshTs, set2_apply]
    split
    · rename_i he
      rw [he.1, he.2]
      rfl
    · rename_i he
      exact h.ts t' ses' fun hs => (hstale t' ses' hs).elim hn he
  · exact refreshTs_daySessions h t ses
  · simp only [refreshTs, tally_set2, ← h.nSingleton]
    omega
  · simp only [refreshTs, tally_set2, ← h.nGap2]
    omega
  · simp only [refreshTs, tally_set2, ← h.nSessions]
    omega
  · simp only [refreshTs, tally_set2, ← h.nGap1]
    omega
  · have hhad : 0 ≤ s.tDaySessions t (dayOf ses) := by
      have hm := Window.used_nonneg (s.ts t (morning (dayOf ses)))
      have ha := Window.used_nonneg (s.ts t (afternoon (dayOf ses)))
      rw [h.tDaySessions]
      omega
    have hnow : 0 ≤ (s.refreshTs t ses).tDaySessions t (dayOf ses) := by
      have hm := Window.used_nonneg ((s.refreshTs t ses).ts t (morning (dayOf ses)))
      have ha := Window.used_nonneg ((s.refreshTs t ses).ts t (afternoon (dayOf ses)))
      rw [refreshTs_daySessions h]
      omega
    simp only [refreshTs, set2_self] at hnow
    simp only [refreshTs, tally_set2, ← h.nDays, dayUsed_step hhad hnow]

theorem refreshAll_kept {s : State P} (touched : List (P.Tch × Session))
    (h : Kept s fun t ses => (t, ses) ∈ touched) :
    Kept (s.refreshAll touched) fun _ _ => False := by
  induction touched generalizing s with
  | nil => simpa [refreshAll] using h
  | cons e rest ih =>
    obtain ⟨t, ses⟩ := e
    refine ih (refreshTs_kept h t ses fun t' ses' hm => ?_)
    rcases List.mem_cons.mp hm with heq | hm
    · obtain ⟨rfl, rfl⟩ := Prod.mk.inj heq
      exact Or.inr ⟨rfl, rfl⟩
    · exact Or.inl hm

end State

/-! ### One operation -/

/-- Sound cells with fresh statistics. -/
structure Consistent {P : Problem} (s : State P) : Prop where
  sound : s.toCells.Sound
  kept : Kept s fun _ _ => False

namespace Consistent
variable {P : Problem} {s : State P}

theorem recount (h : Consistent s) : Recount s := by
  have hts : s.ts = P.windowOf s.grid := by
    funext t ses
    rw [h.kept.ts t ses id]
    simp only [State.rowWindow, h.sound.teacherSlot_eq_lessonOf, Problem.windowOf]
  have hday : s.tDaySessions = P.daySessionsOf s.grid := by
    funext t d
    rw [h.kept.tDaySessions, hts, Problem.daySessionsOf]
  exact
    { exclusive := fun _ _ _ _ hc hd => h.sound.exclusive hc hd
      teacherSlot := h.sound.teacherSlot_eq_lessonOf
      placed := h.sound.placed
      aPlaced := h.sound.aPlaced
      ts := fun t ses => by rw [hts]
      tDaySessions := fun t d => by rw [hday]
      nSingleton := by rw [h.kept.nSingleton, hts]
      nGap2 := by rw [h.kept.nGap2, hts]
      nSessions := by rw [h.kept.nSessions, hts]
      nGap1 := by rw [h.kept.nGap1, hts]
      nDays := by rw [h.kept.nDays, hday] }

theorem init (P : Problem) (deferMin : Bool) : Consistent (State.init P deferMin) := by
  have hw : sessionWindow (fun _ => false) = ⟨0, -1, -1⟩ := by decide
  refine ⟨Cells.empty_sound, ?_⟩
  constructor <;> intros <;>
    simp [State.init, State.rowWindow, Cells.empty, hw, tally, Window.used, Window.singleton,
      Window.gap2, Window.session, Window.gap1, dayUsed]

/-- Fields the statistics do not read may change. -/
theorem of_eq {s' : State P} (h : Consistent s) (hc : s'.toCells = s.toCells)
    (hts : s'.ts = s.ts) (hd : s'.tDaySessions = s.tDaySessions)
    (ho : s'.objective = s.objective) : Consistent s' := by
  simp only [State.objective, List.cons.injEq, and_true] at ho
  obtain ⟨h1, h2, h3, h4, h5⟩ := ho
  refine ⟨hc ▸ h.sound, ?_⟩
  constructor
  · intro t ses hn
    rw [hts, h.kept.ts t ses hn]
    simp only [State.rowWindow, hc]
  · rw [hts, hd]
    exact h.kept.tDaySessions
  · rw [hts, h1, h.kept.nSingleton]
  · rw [hts, h2, h.kept.nGap2]
  · rw [hts, h3, h.kept.nSessions]
  · rw [hts, h4, h.kept.nGap1]
  · rw [hd, h5, h.kept.nDays]

theorem lockCell (h : Consistent s) (c : P.Cls) (slot : Slot) : Consistent (s.lockCell c slot) :=
  h.of_eq rfl rfl rfl rfl

theorem lockFixed (h : Consistent s) : Consistent s.lockFixed := by
  unfold State.lockFixed
  induction P.fixedCells generalizing s with
  | nil => exact h
  | cons e rest ih => exact ih (h.lockCell e.1 e.2.1)

end Consistent

namespace State
variable {P : Problem}

/-- New cells leave stale only the rows a journal between the two cell states names. -/
theorem kept_of_rows {s : State P} {k : Cells P} {journal : List (Entry P)}
    (h : Kept s fun _ _ => False)
    (hrows : ∀ t slot, (∀ e ∈ journal, ¬ (t ∈ entryTeachers e ∧ slot = e.slot)) →
      k.teacherSlot t slot = s.teacherSlot t slot) :
    Kept { s with toCells := k } fun t ses => (t, ses) ∈ touchedTs journal := by
  refine { h with ts := fun t ses hn => ?_ }
  refine (h.ts t ses id).trans (rowWindow_congr fun slot hslot => (hrows t slot ?_).symm)
  rintro e he ⟨ht, rfl⟩
  apply hn
  simp only [touchedTs, List.mem_flatMap, List.mem_map, Prod.mk.injEq]
  exact ⟨e, he, t, ht, rfl, hslot⟩

section Apply
variable {s : State P} {changes : List (Change P)} {check : Bool} {k : Cells P}
  {journal : List (Entry P)}

theorem apply_of_reason {reason : String}
    (happ : s.toCells.applyChanges s.locked changes [] = (k, .ok journal)) (hne : journal ≠ [])
    (hchk : (if check then ({ s with toCells := k } : State P).checkScopes journal else none) =
      some reason) :
    s.apply changes check =
      ({ s with toCells := k.rollback journal, checkFailReason := reason }, none) := by
  cases journal with
  | nil => exact absurd rfl hne
  | cons e rest => simp only [apply, happ, hchk]

theorem apply_of_checked
    (happ : s.toCells.applyChanges s.locked changes [] = (k, .ok journal)) (hne : journal ≠ [])
    (hchk : (if check then ({ s with toCells := k } : State P).checkScopes journal else none) =
      none) :
    s.apply changes check =
      (({ s with toCells := k } : State P).refreshAll (touchedTs journal), some journal) := by
  cases journal with
  | nil => exact absurd rfl hne
  | cons e rest => simp only [apply, happ, hchk]

end Apply

/-- What `apply` does: a refusal moves nothing but the reason of failure, an accepted list
leaves a trail from the old cells and the statistics of the new ones. -/
theorem apply_cases {s : State P} (h : Consistent s) (changes : List (Change P)) (check : Bool) :
    (∃ reason, s.apply changes check = ({ s with checkFailReason := reason }, none)) ∨
    ∃ s' journal, s.apply changes check = (s', some journal) ∧
      s'.locked = s.locked ∧ s'.deferMin = s.deferMin ∧
      Cells.Trail s.toCells journal s'.toCells ∧ Consistent s' := by
  rcases Cells.applyChanges_trail s.locked changes (@Cells.Trail.nil P s.toCells) h.sound with
    ⟨k, journal, happ, htrail, hk⟩ | ⟨reason, happ⟩
  · cases journal with
    | nil =>
      have hks : k = s.toCells := by
        cases htrail
        rfl
      subst hks
      exact Or.inr ⟨s, [], by simp [apply, happ], rfl, rfl, htrail, h⟩
    | cons e rest =>
      cases hchk : if check then ({ s with toCells := k } : State P).checkScopes (e :: rest)
        else none with
      | some reason =>
        refine Or.inl ⟨reason, ?_⟩
        rw [apply_of_reason happ (List.cons_ne_nil e rest) hchk, htrail.rollback]
      | none =>
        have hkept := kept_of_rows (k := k) h.kept fun t slot => htrail.teacherSlot_eq
        refine Or.inr ⟨_, e :: rest, apply_of_checked happ (List.cons_ne_nil e rest) hchk,
          by simp, by simp, by simpa using htrail, ?_⟩
        exact ⟨by simpa using hk, refreshAll_kept _ hkept⟩
  · exact Or.inl ⟨reason, by simp only [apply, happ]⟩

theorem apply_grid {s s' : State P} (h : Consistent s) {changes : List (Change P)} {check : Bool}
    {journal : List (Entry P)} (happ : s.apply changes check = (s', some journal)) :
    s'.grid = P.overlay s.grid changes := by
  rcases Cells.applyChanges_trail s.locked changes (@Cells.Trail.nil P s.toCells) h.sound with
    ⟨k, j, hchg, _, _⟩ | ⟨reason, hchg⟩
  · rw [← Cells.applyChanges_overlay changes h.sound hchg]
    cases j with
    | nil =>
      simp only [apply, hchg, Prod.mk.injEq] at happ
      rw [← happ.1]
    | cons e rest =>
      cases hchk : if check then ({ s with toCells := k } : State P).checkScopes (e :: rest)
        else none with
      | some reason =>
        simp [apply_of_reason hchg (List.cons_ne_nil e rest) hchk] at happ
      | none =>
        rw [apply_of_checked hchg (List.cons_ne_nil e rest) hchk, Prod.mk.injEq] at happ
        rw [← happ.1, refreshAll_toCells]
  · simp [apply, hchg] at happ

/-- Undoing the journal of a trail restores its first cells, with their statistics. -/
theorem undo_consistent {s : State P} {k₀ : Cells P} {journal : List (Entry P)}
    (h : Consistent s) (hk : k₀.Sound) (ht : Cells.Trail k₀ journal s.toCells) :
    (s.undo journal).toCells = k₀ ∧ Consistent (s.undo journal) := by
  have hcells : (s.undo journal).toCells = k₀ := by
    simp only [undo, refreshAll_toCells, ht.rollback]
  refine ⟨hcells, hcells ▸ hk, refreshAll_kept _ (kept_of_rows h.kept ?_)⟩
  intro t slot hout
  rw [ht.rollback, ht.teacherSlot_eq hout]

theorem restoreCells_consistent {s : State P} (snap : P.Grid) (cells : List (P.Cls × Slot))
    (h : Consistent s) : Consistent (restoreCells snap cells s).1 := by
  induction cells generalizing s with
  | nil => exact h
  | cons e rest ih =>
    obtain ⟨c, slot⟩ := e
    rw [restoreCells]
    cases snap c slot with
    | none => exact ih h
    | some ai =>
      rcases apply_cases h [(c, slot, some ai)] false with
        ⟨reason, happ⟩ | ⟨s', journal, happ, _, _, _, hs'⟩
      · simp only [happ]
        exact h.of_eq rfl rfl rfl rfl
      · simp only [happ]
        exact ih hs'

theorem load_consistent (P : Problem) (deferMin : Bool) (grid : P.Grid) :
    Consistent (load P deferMin grid).1 :=
  restoreCells_consistent grid _ (Consistent.init P deferMin)

theorem restore_consistent (s : State P) (snap : P.Grid) : Consistent (s.restore snap).1 := by
  have h := load_consistent P s.deferMin snap
  unfold restore
  generalize load P s.deferMin snap = r at h
  obtain ⟨s', ok⟩ := r
  cases ok with
  | false => exact h
  | true => exact h.lockFixed

/-- A free cell takes a lesson whose teachers are free. -/
theorem apply_free {s : State P} {c : P.Cls} {slot : Slot} {ai : P.Asg}
    (hlock : s.locked c slot = false) (hcell : P.aClass ai = c ∧ P.aAllowed ai slot = true)
    (hnone : s.grid c slot = none) (hfree : ∀ t ∈ P.aTeachers ai, s.teacherSlot t slot = none) :
    ∃ s' journal, s.apply [(c, slot, some ai)] false = (s', some journal) := by
  have hbusy : (s.toCells.release slot (s.grid c slot)).busy slot (some ai) = false := by
    rw [hnone, Cells.busy_eq_false_iff]
    exact hfree
  have hwrite : s.toCells.writeCell c slot (some ai) [] =
      (s.toCells.put c slot (some ai), [⟨c, slot, s.grid c slot, some ai⟩], true) := by
    unfold Cells.writeCell
    rw [if_neg (by simp [hnone])]
    simp only [hbusy]
    rfl
  have hchg : s.toCells.applyChanges s.locked [(c, slot, some ai)] [] =
      (s.toCells.put c slot (some ai), .ok [⟨c, slot, s.grid c slot, some ai⟩]) := by
    simp [Cells.applyChanges, hlock, hcell, hwrite]
  exact ⟨_, _, apply_of_checked hchg (List.cons_ne_nil _ _) rfl⟩

/-- Loading the rest of a grid whose lessons fit together succeeds. -/
theorem restoreCells_eq {s : State P} {snap : P.Grid} (hsnap : P.Loadable snap)
    (cells : List (P.Cls × Slot)) (h : Consistent s) (hlock : ∀ c slot, s.locked c slot = false)
    (hsub : ∀ c slot ai, s.grid c slot = some ai → snap c slot = some ai) :
    ∃ s', restoreCells snap cells s = (s', true) ∧
      (∀ c slot ai, s'.grid c slot = some ai → snap c slot = some ai) ∧
      ∀ c slot, ((c, slot) ∈ cells ∨ s.grid c slot = snap c slot) →
        s'.grid c slot = snap c slot := by
  induction cells generalizing s with
  | nil => exact ⟨s, rfl, hsub, fun c slot hc => hc.resolve_left List.not_mem_nil⟩
  | cons e rest ih =>
    obtain ⟨c, slot⟩ := e
    cases hs : snap c slot with
    | none =>
      obtain ⟨s', hload, hsub', hcells⟩ := ih h hlock hsub
      refine ⟨s', by simp only [restoreCells, hs, hload], hsub', fun c' slot' hc => ?_⟩
      rcases hc with hc | hc
      · rcases List.mem_cons.mp hc with heq | hc
        · obtain ⟨rfl, rfl⟩ := Prod.mk.inj heq
          cases hg : s'.grid c' slot' with
          | none => exact hs.symm
          | some ai => exact (hsub' c' slot' ai hg).symm
        · exact hcells c' slot' (Or.inl hc)
      · exact hcells c' slot' (Or.inr hc)
    | some ai =>
      have happ : ∃ s₁ journal, s.apply [(c, slot, some ai)] false = (s₁, some journal) := by
        cases hg : s.grid c slot with
        | some bi =>
          have hbi : bi = ai := Option.some.inj ((hsub c slot bi hg).symm.trans hs)
          subst hbi
          exact ⟨s, [], by simp [apply, Cells.applyChanges, Cells.writeCell, hg, hlock,
            hsnap.cells c slot bi hs]⟩
        | none =>
          refine apply_free (hlock c slot) (hsnap.cells c slot ai hs) hg fun t ht => ?_
          cases hts : s.teacherSlot t slot with
          | none => rfl
          | some bi =>
            -- the teacher would stand in another class of the snapshot too
            obtain ⟨hgb, htb⟩ := (h.sound.owner t slot bi).mp hts
            have hclass := hsnap.exclusive (P.aClass bi) c slot t
              (by rw [hsub _ _ bi hgb]; exact htb) (by rw [hs]; exact ht)
            rw [hclass, hg] at hgb
            exact absurd hgb (by simp)
      obtain ⟨s₁, journal, happ⟩ := happ
      have hgrid := apply_grid h happ
      have h₁ : Consistent s₁ ∧ s₁.locked = s.locked := by
        rcases apply_cases h [(c, slot, some ai)] false with ⟨r, hr⟩ | ⟨s₂, j, h₂, hl, _, _, hc⟩
        · simp [happ] at hr
        · rw [happ] at h₂
          simp only [Prod.mk.injEq] at h₂
          rw [h₂.1]
          exact ⟨hc, hl⟩
      have hwritten : ∀ c' slot', s₁.grid c' slot' =
          if c' = c ∧ slot' = slot then some ai else s.grid c' slot' := by
        intro c' slot'
        rw [hgrid]
        exact set2_apply _ _ _ _ _ _
      have hsub₁ : ∀ c' slot' bi, s₁.grid c' slot' = some bi → snap c' slot' = some bi := by
        intro c' slot' bi hb
        rw [hwritten] at hb
        split at hb
        · rename_i he
          rw [he.1, he.2, hs, hb]
        · exact hsub c' slot' bi hb
      obtain ⟨s', hload, hsub', hcells⟩ := ih h₁.1 (fun c' slot' => h₁.2 ▸ hlock c' slot') hsub₁
      refine ⟨s', by simp only [restoreCells, hs, happ, hload], hsub', fun c' slot' hc => ?_⟩
      by_cases he : c' = c ∧ slot' = slot
      · refine hcells c' slot' (Or.inr ?_)
        rw [hwritten, if_pos he, he.1, he.2, hs]
      · refine hcells c' slot' (hc.imp (fun hc => ?_) fun hc => ?_)
        · exact (List.mem_cons.mp hc).resolve_left fun heq => he (Prod.mk.inj heq)
        · rw [hwritten, if_neg he, hc]

/-- A loadable grid loads into an empty state as it stands. -/
theorem load_eq (P : Problem) (deferMin : Bool) {grid : P.Grid} (h : P.Loadable grid) :
    ∃ s, load P deferMin grid = (s, true) ∧ s.grid = grid := by
  obtain ⟨s, hload, _, hcells⟩ := restoreCells_eq h (P.allClasses.product allSlots)
    (Consistent.init P deferMin) (fun _ _ => rfl) (fun _ _ _ hn => absurd hn (by simp [init, Cells.empty]))
  refine ⟨s, hload, funext fun c => funext fun slot => hcells c slot (Or.inl ?_)⟩
  exact List.mem_product.mpr ⟨List.mem_finRange c, mem_allSlots slot⟩

end State

/-! ### Runs -/

/-- A state with the journals of its accepted changes, the newest on top. An undo takes the
newest journal, as every caller does. -/
structure Desk (P : Problem) where
  state : State P
  journals : List (List (Entry P))

inductive Edit (P : Problem) where
  | apply (changes : List (Change P)) (check : Bool)
  | undo
  | restore (snap : P.Grid)
  | lockCell (c : P.Cls) (slot : Slot)
  | setDeferMin (defer : Bool)

namespace Desk
variable {P : Problem}

def init (P : Problem) (deferMin : Bool) : Desk P := ⟨State.init P deferMin, []⟩

def step (k : Desk P) : Edit P → Desk P
  | .apply changes check =>
    match k.state.apply changes check with
    | (s, some journal) => ⟨s, journal :: k.journals⟩
    | (s, none) => ⟨s, k.journals⟩
  | .undo =>
    match k.journals with
    | [] => k
    | journal :: rest => ⟨k.state.undo journal, rest⟩
  | .restore snap => ⟨(k.state.restore snap).1, []⟩
  | .lockCell c slot => ⟨k.state.lockCell c slot, k.journals⟩
  | .setDeferMin defer => ⟨{ k.state with deferMin := defer }, k.journals⟩

/-- The journals lead from one sound cell state to the next, up to `k`. -/
inductive History : List (List (Entry P)) → Cells P → Prop where
  | nil {k : Cells P} : History [] k
  | cons {journal : List (Entry P)} {rest : List (List (Entry P))} {k₀ k : Cells P} :
      k₀.Sound → History rest k₀ → Cells.Trail k₀ journal k → History (journal :: rest) k

structure Inv (k : Desk P) : Prop where
  consistent : Consistent k.state
  history : History k.journals k.state.toCells

theorem inv_init (P : Problem) (deferMin : Bool) : Inv (init P deferMin) :=
  ⟨Consistent.init P deferMin, .nil⟩

theorem inv_step {k : Desk P} (h : Inv k) (edit : Edit P) : Inv (k.step edit) := by
  cases edit with
  | apply changes check =>
    rcases State.apply_cases h.consistent changes check with
      ⟨reason, happ⟩ | ⟨s', journal, happ, _, _, htrail, hs'⟩
    · simp only [step, happ]
      exact ⟨h.consistent.of_eq rfl rfl rfl rfl, h.history⟩
    · simp only [step, happ]
      exact ⟨hs', .cons h.consistent.sound h.history htrail⟩
  | undo =>
    obtain ⟨s, journals⟩ := k
    cases journals with
    | nil => exact h
    | cons journal rest =>
      have hist := h.history
      cases hist with
      | cons hk hrest htrail =>
        obtain ⟨hcells, hs⟩ := State.undo_consistent h.consistent hk htrail
        refine ⟨hs, ?_⟩
        show History rest (s.undo journal).toCells
        rw [hcells]
        exact hrest
  | restore snap => exact ⟨State.restore_consistent k.state snap, .nil⟩
  | lockCell c slot => exact ⟨h.consistent.lockCell c slot, h.history⟩
  | setDeferMin defer => exact ⟨h.consistent.of_eq rfl rfl rfl rfl, h.history⟩

theorem inv_run {k k' : Desk P} {edits : List (Edit P)}
    (h : Transition.Run (Transition.ofFn step) k edits k') (hk : Inv k) : Inv k' := by
  refine h.invariant (fun {s a t} hs hst => ?_) hk
  subst hst
  exact inv_step hs a

/-- After every run of applies, undos and restores the caches are those of the grid. -/
theorem recount_of_run (P : Problem) (deferMin : Bool) (edits : List (Edit P)) :
    Recount (edits.foldl step (init P deferMin)).state :=
  (inv_run (Transition.Run.ofFn_foldl step _ edits) (inv_init P deferMin)).consistent.recount

end Desk

end TkbCherry.Engine
