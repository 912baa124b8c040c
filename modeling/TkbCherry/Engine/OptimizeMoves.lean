import TkbCherry.Engine.Optimize
import Mathlib.GroupTheory.Perm.Basic

/-!
# Moves rearrange the rows

Every change list that the optimizer tries writes the cells of a class in another order: a lesson is
neither lost nor written twice, also where a dict or a list of columns decides the order of the writes.
-/

namespace TkbCherry.Engine

set_option autoImplicit false

open Array2

namespace Problem
variable {P : Problem} {g g' g'' : P.Grid}

/-- Every row of the second grid has the cells of that row of the first one, in some order. -/
def Rearranged (g g' : P.Grid) : Prop :=
  ∀ c, ∃ σ : Equiv.Perm Slot, ∀ slot, g' c slot = g c (σ slot)

theorem Rearranged.refl (g : P.Grid) : Rearranged g g := by
  intro c
  exact ⟨1, fun slot => rfl⟩

theorem Rearranged.trans (h : Rearranged g g') (h' : Rearranged g' g'') : Rearranged g g'' := by
  intro c
  obtain ⟨σ, hσ⟩ := h c
  obtain ⟨τ, hτ⟩ := h' c
  refine ⟨σ * τ, ?_⟩
  intro slot
  rw [hτ, hσ]
  rfl

/-- A change list that writes what another grid has, and every cell that differs, leads to it. -/
theorem overlay_eq {changes : List (Change P)} (hval : ∀ e ∈ changes, e.2.2 = g' e.1 e.2.1)
    (hcov : ∀ c slot, (∃ e ∈ changes, e.1 = c ∧ e.2.1 = slot) ∨ g' c slot = g c slot) :
    P.overlay g changes = g' := by
  induction changes generalizing g with
  | nil =>
    funext c slot
    rcases hcov c slot with hwritten | hsame
    · obtain ⟨e, he, -⟩ := hwritten
      exact absurd he List.not_mem_nil
    · exact hsame.symm
  | cons e rest ih =>
    rw [overlay, List.foldl_cons]
    apply ih
    · intro e' he'
      exact hval e' (List.mem_cons_of_mem _ he')
    · intro c slot
      by_cases he : e.1 = c ∧ e.2.1 = slot
      · right
        rw [set2_apply, if_pos ⟨he.1.symm, he.2.symm⟩, hval e List.mem_cons_self, he.1, he.2]
      · rcases hcov c slot with hwritten | hsame
        · obtain ⟨e', he', hkey⟩ := hwritten
          rcases List.mem_cons.mp he' with heq | hrest
          · exact absurd (heq ▸ hkey) he
          · exact Or.inl ⟨e', hrest, hkey⟩
        · right
          rw [hsame, set2_of_ne]
          intro hkey
          exact he ⟨hkey.1.symm, hkey.2.symm⟩

/-- The writes follow a permutation of the cells of one class. -/
theorem rearranged_of_perm {c : P.Cls} {changes : List (Change P)} (σ : Equiv.Perm Slot)
    (hval : ∀ e ∈ changes, e.1 = c ∧ e.2.2 = g c (σ e.2.1))
    (hcov : ∀ slot, (∃ e ∈ changes, e.2.1 = slot) ∨ σ slot = slot) :
    Rearranged g (P.overlay g changes) := by
  have heq : P.overlay g changes = fun d slot => if d = c then g c (σ slot) else g d slot := by
    apply overlay_eq
    · intro e he
      obtain ⟨hc, hv⟩ := hval e he
      rw [if_pos hc]
      exact hv
    · intro d slot
      by_cases hd : d = c
      · subst hd
        rw [if_pos rfl]
        rcases hcov slot with hwritten | hfix
        · obtain ⟨e, he, hslot⟩ := hwritten
          exact Or.inl ⟨e, he, (hval e he).1, hslot⟩
        · right
          rw [hfix]
      · exact Or.inr (if_neg hd)
  intro d
  by_cases hd : d = c
  · subst hd
    refine ⟨σ, ?_⟩
    intro slot
    rw [heq]
    exact if_pos rfl
  · refine ⟨1, ?_⟩
    intro slot
    rw [heq]
    exact if_neg hd

/-! ### Pairs of cells -/

/-- The two cells of every pair. -/
def cellsOf (ps : List (Slot × Slot)) : List Slot := ps.flatMap fun e => [e.1, e.2]

def swapPairs (ps : List (Slot × Slot)) : Equiv.Perm Slot :=
  (ps.map fun e => Equiv.swap e.1 e.2).prod

theorem swapPairs_other {ps : List (Slot × Slot)} {x : Slot} (h : x ∉ cellsOf ps) :
    swapPairs ps x = x := by
  induction ps with
  | nil => rfl
  | cons e rest ih =>
    unfold cellsOf at h
    rw [List.flatMap_cons, List.mem_append, not_or, List.mem_cons, List.mem_singleton, not_or] at h
    obtain ⟨⟨h1, h2⟩, hrest⟩ := h
    unfold swapPairs
    rw [List.map_cons, List.prod_cons, Equiv.Perm.mul_apply]
    have hx := ih hrest
    unfold swapPairs at hx
    rw [hx]
    exact Equiv.swap_apply_of_ne_of_ne h1 h2

theorem mem_cellsOf {ps : List (Slot × Slot)} {e : Slot × Slot} (h : e ∈ ps) :
    e.1 ∈ cellsOf ps ∧ e.2 ∈ cellsOf ps := by
  unfold cellsOf
  constructor
  · exact List.mem_flatMap.mpr ⟨e, h, List.mem_cons_self⟩
  · exact List.mem_flatMap.mpr ⟨e, h, List.mem_cons_of_mem _ (List.mem_singleton_self _)⟩

theorem swapPairs_mem {ps : List (Slot × Slot)} (hnodup : (cellsOf ps).Nodup) {e : Slot × Slot}
    (he : e ∈ ps) : swapPairs ps e.1 = e.2 ∧ swapPairs ps e.2 = e.1 := by
  induction ps with
  | nil => exact absurd he List.not_mem_nil
  | cons p rest ih =>
    have hsplit : (([p.1, p.2] : List Slot) ++ cellsOf rest).Nodup := hnodup
    obtain ⟨-, hrest, hdisj⟩ := List.nodup_append.mp hsplit
    have hstep : ∀ x, swapPairs (p :: rest) x = Equiv.swap p.1 p.2 (swapPairs rest x) := by
      intro x
      unfold swapPairs
      rw [List.map_cons, List.prod_cons, Equiv.Perm.mul_apply]
    rw [hstep, hstep]
    rcases List.mem_cons.mp he with heq | hin
    · subst heq
      have h1 : e.1 ∉ cellsOf rest := by
        intro h
        exact hdisj e.1 List.mem_cons_self e.1 h rfl
      have h2 : e.2 ∉ cellsOf rest := by
        intro h
        exact hdisj e.2 (List.mem_cons_of_mem _ (List.mem_singleton_self _)) e.2 h rfl
      rw [swapPairs_other h1, swapPairs_other h2]
      exact ⟨Equiv.swap_apply_left _ _, Equiv.swap_apply_right _ _⟩
    · obtain ⟨h1, h2⟩ := ih hrest hin
      obtain ⟨hc1, hc2⟩ := mem_cellsOf hin
      have hout : ∀ x ∈ cellsOf rest, Equiv.swap p.1 p.2 x = x := by
        intro x hx
        apply Equiv.swap_apply_of_ne_of_ne
        · exact fun heq => hdisj p.1 List.mem_cons_self x hx heq.symm
        · exact fun heq => hdisj p.2 (List.mem_cons_of_mem _ (List.mem_singleton_self _)) x hx heq.symm
      rw [h1, h2]
      exact ⟨hout _ hc2, hout _ hc1⟩

/-- A list that exchanges the two cells of each of some disjoint pairs. -/
theorem rearranged_of_pairs {c : P.Cls} {changes : List (Change P)} {ps : List (Slot × Slot)}
    (hnodup : (cellsOf ps).Nodup)
    (hval : ∀ e ∈ changes, e.1 = c ∧ ∃ p ∈ ps,
      (e.2.1 = p.1 ∧ e.2.2 = g c p.2) ∨ (e.2.1 = p.2 ∧ e.2.2 = g c p.1))
    (hcov : ∀ x ∈ cellsOf ps, ∃ e ∈ changes, e.2.1 = x) : Rearranged g (P.overlay g changes) := by
  apply rearranged_of_perm (swapPairs ps)
  · intro e he
    obtain ⟨hc, p, hp, hcase⟩ := hval e he
    obtain ⟨h1, h2⟩ := swapPairs_mem hnodup hp
    refine ⟨hc, ?_⟩
    rcases hcase with ⟨hslot, hv⟩ | ⟨hslot, hv⟩
    · rw [hslot, h1, hv]
    · rw [hslot, h2, hv]
  · intro slot
    by_cases hx : slot ∈ cellsOf ps
    · exact Or.inl (hcov slot hx)
    · exact Or.inr (swapPairs_other hx)

end Problem

/-! ### Runs and windows -/

theorem periodAt?_eq_some {p : Int} {q : Period} (h : periodAt? p = some q) : (q.val : Int) = p := by
  unfold periodAt? at h
  split at h
  · rename_i hp
    cases h
    show ((p.toNat : Nat) : Int) = p
    omega
  · cases h

theorem periodAt?_natCast {p : Nat} (h : p < 5) : periodAt? (p : Nat) = some ⟨p, h⟩ := by
  unfold periodAt?
  rw [dif_pos ⟨by omega, by omega⟩]
  rfl

/-- Distinct cells of one session. -/
structure InSession (ses : Session) (slots : List Slot) : Prop where
  nodup : slots.Nodup
  same : ∀ x ∈ slots, sessionOfSlot x = ses

theorem slotAt_injective (ses : Session) {p q : Period} (h : slotAt ses p = slotAt ses q) : p = q := by
  have hp := congrArg periodOfSlot h
  rwa [periodOfSlot_slotAt, periodOfSlot_slotAt] at hp

theorem inSession_map (ses : Session) {ps : List Period} (h : ps.Nodup) :
    InSession ses (ps.map (slotAt ses)) where
  nodup := h.map fun _ _ heq => slotAt_injective ses heq
  same := by
    intro x hx
    obtain ⟨p, -, rfl⟩ := List.mem_map.mp hx
    exact sessionOfSlot_slotAt ses p

theorem windowAt_inSession (ses : Session) (start length : Nat) :
    InSession ses (windowAt ses start length) where
  nodup := by
    apply List.Nodup.filterMap ?_ List.nodup_range
    intro i j x hi hj
    obtain ⟨p, hp, hpx⟩ := Option.map_eq_some_iff.mp hi
    obtain ⟨q, hq, hqx⟩ := Option.map_eq_some_iff.mp hj
    have hpq : p = q := slotAt_injective ses (hpx.trans hqx.symm)
    have hpi := periodAt?_eq_some hp
    have hqj := periodAt?_eq_some hq
    rw [hpq] at hpi
    omega
  same := by
    intro x hx
    obtain ⟨off, -, hoff⟩ := List.mem_filterMap.mp hx
    obtain ⟨p, -, rfl⟩ := Option.map_eq_some_iff.mp hoff
    exact sessionOfSlot_slotAt ses p

/-- A window that fits into the session is as long as asked. -/
theorem length_windowAt {ses : Session} {start length : Nat} (h : start + length ≤ 5) :
    (windowAt ses start length).length = length := by
  induction length with
  | zero => rfl
  | succ n ih =>
    have hlast : (periodAt? (start + n : Nat)).map (slotAt ses) =
        some (slotAt ses ⟨start + n, by omega⟩) := by
      rw [periodAt?_natCast (by omega)]
      rfl
    have hinit := ih (by omega)
    unfold windowAt at hinit ⊢
    rw [List.range_succ, List.filterMap_append, List.length_append, hinit]
    simp only [List.filterMap_cons, hlast, List.filterMap_nil, List.length_singleton]

section Runs
variable {P : Problem}

theorem runOf_inSession (s : State P) (c : P.Cls) (slot : Slot) :
    InSession (sessionOfSlot slot) (s.runOf c slot) := by
  unfold State.runOf
  split
  · exact ⟨List.nodup_nil, fun x hx => absurd hx List.not_mem_nil⟩
  · apply inSession_map
    apply List.Nodup.filter
    exact List.nodup_finRange 5

theorem runLow_le (same : Nat → Bool) (p : Nat) : State.runLow same p ≤ p := by
  induction p with
  | zero => exact Nat.le_refl 0
  | succ lo ih =>
    unfold State.runLow
    split
    · omega
    · exact Nat.le_refl _

theorem le_runHigh (same : Nat → Bool) (left p : Nat) : p ≤ State.runHigh same left p := by
  induction left generalizing p with
  | zero => exact Nat.le_refl p
  | succ n ih =>
    unfold State.runHigh
    split
    · have hnext := ih (p + 1)
      omega
    · exact Nat.le_refl p

/-- A lesson is in its own run. -/
theorem mem_runOf {s : State P} {c : P.Cls} {slot : Slot} (h : (s.grid c slot).isSome = true) :
    slot ∈ s.runOf c slot := by
  unfold State.runOf
  split
  · rename_i hnone
    rw [hnone] at h
    cases h
  · apply List.mem_map.mpr
    refine ⟨periodOfSlot slot, ?_, slotAt_session_period slot⟩
    rw [List.mem_filter]
    refine ⟨mem_allPeriods _, ?_⟩
    rw [decide_eq_true_eq]
    exact ⟨runLow_le _ _, le_runHigh _ _ _⟩

/-- A run between the two bounds has lessons of the subject only. -/
theorem runLow_same {same : Nat → Bool} {p q : Nat} (h : State.runLow same p ≤ q) (hq : q < p) :
    same q = true := by
  induction p with
  | zero => omega
  | succ lo ih =>
    unfold State.runLow at h
    split at h
    · rename_i hsame
      rcases Nat.lt_or_ge q lo with hlt | hge
      · exact ih h hlt
      · have heq : q = lo := by omega
        rw [heq]
        exact hsame
    · omega

theorem runHigh_same {same : Nat → Bool} {left p q : Nat} (h : q ≤ State.runHigh same left p)
    (hq : p < q) : same q = true := by
  induction left generalizing p with
  | zero =>
    unfold State.runHigh at h
    omega
  | succ n ih =>
    unfold State.runHigh at h
    split at h
    · rename_i hsame
      rcases Nat.lt_or_ge (p + 1) q with hlt | hge
      · exact ih h hlt
      · have heq : q = p + 1 := by omega
        rw [heq]
        exact hsame
    · omega

theorem sameSubject_elim {s : State P} {c : P.Cls} {ses : Session} {si : P.Sub} {q : Period}
    (h : s.sameSubject c ses si q.val = true) :
    ∃ bi, s.grid c (slotAt ses q) = some bi ∧ P.aSubject bi = si := by
  unfold State.sameSubject at h
  obtain ⟨r, -, hr⟩ := List.any_eq_true.mp h
  rw [Bool.and_eq_true, decide_eq_true_eq] at hr
  have heq : r = q := Fin.ext hr.1
  rw [heq] at hr
  cases hg : s.grid c (slotAt ses q) with
  | none =>
    rw [hg] at hr
    cases hr.2
  | some bi =>
    rw [hg, Option.any_some, decide_eq_true_eq] at hr
    exact ⟨bi, rfl, hr.2⟩

/-- The cells of a run have lessons of one subject. -/
theorem subject_of_mem_runOf {s : State P} {c : P.Cls} {slot x : Slot} {ai : P.Asg}
    (hai : s.grid c slot = some ai) (hx : x ∈ s.runOf c slot) :
    ∃ bi, s.grid c x = some bi ∧ P.aSubject bi = P.aSubject ai := by
  unfold State.runOf at hx
  rw [hai] at hx
  obtain ⟨q, hq, rfl⟩ := List.mem_map.mp hx
  obtain ⟨-, hbounds⟩ := List.mem_filter.mp hq
  rw [decide_eq_true_eq] at hbounds
  rcases Nat.lt_trichotomy q.val (periodOfSlot slot).val with hlt | heq | hgt
  · exact sameSubject_elim (runLow_same hbounds.1 hlt)
  · have hslot : slotAt (sessionOfSlot slot) q = slot := by
      rw [Fin.ext heq, slotAt_session_period]
    exact ⟨ai, by rw [hslot, hai], rfl⟩
  · exact sameSubject_elim (runHigh_same hbounds.2 hgt)

end Runs

/-! ### The change lists -/

/-- Two lists of distinct cells without a common one. -/
structure CellsApart (run window : List Slot) : Prop where
  left : run.Nodup
  right : window.Nodup
  disjoint : ∀ x ∈ run, x ∉ window

theorem InSession.apart {ses s2 : Session} {run window : List Slot} (h : InSession ses run)
    (h' : InSession s2 window) (hne : s2 ≠ ses) : CellsApart run window where
  left := h.nodup
  right := h'.nodup
  disjoint := by
    intro x hx hw
    exact hne ((h'.same x hw).symm.trans (h.same x hx))

theorem CellsApart.nodup_zip {run window : List Slot} (h : CellsApart run window) :
    (Problem.cellsOf (run.zip window)).Nodup := by
  induction run generalizing window with
  | nil => exact List.nodup_nil
  | cons x rest ih =>
    cases window with
    | nil => exact List.nodup_nil
    | cons y more =>
      obtain ⟨hx, hrest⟩ := List.nodup_cons.mp h.left
      obtain ⟨hy, hmore⟩ := List.nodup_cons.mp h.right
      have htail : CellsApart rest more := by
        refine ⟨hrest, hmore, ?_⟩
        intro z hz hzm
        exact h.disjoint z (List.mem_cons_of_mem _ hz) (List.mem_cons_of_mem _ hzm)
      have hcells : ∀ z ∈ Problem.cellsOf (rest.zip more), z ∈ rest ∨ z ∈ more := by
        intro z hz
        obtain ⟨e, he, hze⟩ := List.mem_flatMap.mp hz
        rcases List.mem_cons.mp hze with hz1 | hz2
        · exact Or.inl (hz1 ▸ (List.of_mem_zip he).1)
        · exact Or.inr (List.mem_singleton.mp hz2 ▸ (List.of_mem_zip he).2)
      have hxy : x ≠ y := by
        intro heq
        exact h.disjoint x List.mem_cons_self (heq ▸ List.mem_cons_self)
      show ([x, y] ++ Problem.cellsOf (rest.zip more)).Nodup
      rw [List.nodup_append]
      refine ⟨?_, ih htail, ?_⟩
      · rw [List.nodup_cons]
        exact ⟨fun hin => hxy (List.mem_singleton.mp hin), List.nodup_singleton y⟩
      · intro z hz w hw heq
        subst heq
        rcases List.mem_cons.mp hz with hz1 | hz2
        · rcases hcells z hw with hr | hm
          · exact hx (hz1 ▸ hr)
          · exact h.disjoint x List.mem_cons_self (List.mem_cons_of_mem _ (hz1 ▸ hm))
        · rcases hcells z hw with hr | hm
          · have hzy : z = y := List.mem_singleton.mp hz2
            exact h.disjoint z (List.mem_cons_of_mem _ hr) (hzy ▸ List.mem_cons_self)
          · exact hy (List.mem_singleton.mp hz2 ▸ hm)

section Lists
variable {P : Problem} {s : State P} {c : P.Cls} {run window : List Slot}

theorem swapRunsChanges_rearranged {changes : List (Change P)} (h : CellsApart run window)
    (hc : s.swapRunsChanges c run window = some changes) :
    Problem.Rearranged s.grid (P.overlay s.grid changes) := by
  unfold State.swapRunsChanges at hc
  split at hc
  · cases hc
  · cases hc
    apply Problem.rearranged_of_pairs h.nodup_zip
    · intro e he
      obtain ⟨e', he', rfl⟩ := List.mem_map.mp he
      refine ⟨rfl, ?_⟩
      obtain ⟨p, hp, hin⟩ := List.mem_flatMap.mp (Placing.mem_lastWrites he')
      refine ⟨p, hp, ?_⟩
      rcases List.mem_cons.mp hin with heq | heq
      · exact Or.inr (heq ▸ ⟨rfl, rfl⟩)
      · exact Or.inl (List.mem_singleton.mp heq ▸ ⟨rfl, rfl⟩)
    · intro x hx
      obtain ⟨p, hp, hxp⟩ := List.mem_flatMap.mp hx
      have hraw : x ∈ ((run.zip window).flatMap fun e =>
          [(e.2, s.grid c e.1), (e.1, s.grid c e.2)]).map Prod.fst := by
        rcases List.mem_cons.mp hxp with hx1 | hx2
        · refine List.mem_map.mpr ⟨(p.1, s.grid c p.2), ?_, hx1.symm⟩
          exact List.mem_flatMap.mpr ⟨p, hp, List.mem_cons_of_mem _ (List.mem_singleton_self _)⟩
        · refine List.mem_map.mpr ⟨(p.2, s.grid c p.1), ?_, (List.mem_singleton.mp hx2).symm⟩
          exact List.mem_flatMap.mpr ⟨p, hp, List.mem_cons_self⟩
      obtain ⟨e, he, hek⟩ := List.mem_map.mp (Placing.key_mem_lastWrites hraw)
      exact ⟨(c, e.1, e.2), List.mem_map.mpr ⟨e, he, rfl⟩, hek⟩

theorem getD_swapRunsChanges_rearranged (h : CellsApart run window) :
    Problem.Rearranged s.grid (P.overlay s.grid ((s.swapRunsChanges c run window).getD [])) := by
  cases hc : s.swapRunsChanges c run window with
  | none => exact .refl _
  | some changes => exact swapRunsChanges_rearranged h hc

theorem mem_zip_left {xs ys : List Slot} (h : xs.length = ys.length) {x : Slot} (hx : x ∈ xs) :
    ∃ e ∈ xs.zip ys, e.1 = x := by
  have hmap : x ∈ (xs.zip ys).map Prod.fst := by
    rw [List.map_fst_zip (Nat.le_of_eq h)]
    exact hx
  obtain ⟨e, he, hex⟩ := List.mem_map.mp hmap
  exact ⟨e, he, hex⟩

/-- A run goes into a window of the same length, against free cells or against lessons. -/
theorem intoWindow_rearranged (h : CellsApart run window) (hlen : run.length = window.length) :
    Problem.Rearranged s.grid (P.overlay s.grid (Optimizer.intoWindow s c run window)) := by
  unfold Optimizer.intoWindow
  split
  · exact .refl _
  · split
    · rename_i hfree
      have hnone : ∀ x ∈ window, s.grid c x = none := by
        intro x hx
        exact Option.isNone_iff_eq_none.mp (List.all_eq_true.mp hfree x hx)
      apply Problem.rearranged_of_pairs h.nodup_zip
      · intro e he
        rcases List.mem_append.mp he with hrun | hmoved
        · obtain ⟨x, hx, rfl⟩ := List.mem_map.mp hrun
          obtain ⟨p, hp, hpx⟩ := mem_zip_left hlen hx
          refine ⟨rfl, p, hp, Or.inl ⟨hpx.symm, ?_⟩⟩
          exact (hnone p.2 (List.of_mem_zip hp).2).symm
        · obtain ⟨p, hp, rfl⟩ := List.mem_map.mp hmoved
          exact ⟨rfl, p, hp, Or.inr ⟨rfl, rfl⟩⟩
      · intro x hx
        obtain ⟨p, hp, hxp⟩ := List.mem_flatMap.mp hx
        rcases List.mem_cons.mp hxp with hx1 | hx2
        · refine ⟨(c, p.1, none), ?_, hx1.symm⟩
          exact List.mem_append_left _ (List.mem_map.mpr ⟨p.1, (List.of_mem_zip hp).1, rfl⟩)
        · refine ⟨(c, p.2, s.grid c p.1), ?_, (List.mem_singleton.mp hx2).symm⟩
          exact List.mem_append_right _ (List.mem_map.mpr ⟨p, hp, rfl⟩)
    · split
      · exact .refl _
      · exact getD_swapRunsChanges_rearranged h

/-- The cycle of three cells; where two of them are one the list still exchanges two cells. -/
theorem cycle_rearranged {src dst mid : Slot} (hsrc : mid ≠ src) (hdst : mid ≠ dst) :
    Problem.Rearranged s.grid (P.overlay s.grid
      [(c, dst, s.grid c src), (c, mid, s.grid c dst), (c, src, s.grid c mid)]) := by
  by_cases heq : dst = src
  · subst heq
    have hsame : P.overlay s.grid [(c, dst, s.grid c dst), (c, mid, s.grid c dst),
        (c, dst, s.grid c mid)] = P.overlay s.grid [(c, mid, s.grid c dst), (c, dst, s.grid c mid)] := by
      unfold Problem.overlay
      simp only [List.foldl_cons, List.foldl_nil, Array2.set2_get]
    rw [hsame]
    apply Problem.rearranged_of_perm (Equiv.swap dst mid)
    · intro e he
      rcases List.mem_cons.mp he with rfl | he
      · exact ⟨rfl, by rw [Equiv.swap_apply_right]⟩
      · cases List.mem_singleton.mp he
        exact ⟨rfl, by rw [Equiv.swap_apply_left]⟩
    · intro slot
      by_cases h1 : slot = mid
      · exact Or.inl ⟨_, List.mem_cons_self, h1.symm⟩
      · by_cases h2 : slot = dst
        · exact Or.inl ⟨_, List.mem_cons_of_mem _ (List.mem_singleton_self _), h2.symm⟩
        · exact Or.inr (Equiv.swap_apply_of_ne_of_ne h2 h1)
  · apply Problem.rearranged_of_perm (Equiv.swap src dst * Equiv.swap src mid)
    · intro e he
      rcases List.mem_cons.mp he with rfl | he
      · refine ⟨rfl, ?_⟩
        rw [Equiv.Perm.mul_apply, Equiv.swap_apply_of_ne_of_ne heq hdst.symm, Equiv.swap_apply_right]
      · rcases List.mem_cons.mp he with rfl | he
        · refine ⟨rfl, ?_⟩
          rw [Equiv.Perm.mul_apply, Equiv.swap_apply_right, Equiv.swap_apply_left]
        · cases List.mem_singleton.mp he
          refine ⟨rfl, ?_⟩
          rw [Equiv.Perm.mul_apply, Equiv.swap_apply_left, Equiv.swap_apply_of_ne_of_ne hsrc hdst]
    · intro slot
      by_cases h1 : slot = dst
      · exact Or.inl ⟨_, List.mem_cons_self, h1.symm⟩
      · by_cases h2 : slot = mid
        · exact Or.inl ⟨_, List.mem_cons_of_mem _ List.mem_cons_self, h2.symm⟩
        · by_cases h3 : slot = src
          · exact Or.inl ⟨_, List.mem_cons_of_mem _ (List.mem_cons_of_mem _
              (List.mem_singleton_self _)), h3.symm⟩
          · right
            rw [Equiv.Perm.mul_apply, Equiv.swap_apply_of_ne_of_ne h3 h2,
              Equiv.swap_apply_of_ne_of_ne h3 h1]

/-- Two cells of a class change places. -/
theorem exchange_rearranged {x y : Slot} {changes : List (Change P)}
    (hval : ∀ e ∈ changes, e = (c, x, s.grid c y) ∨ e = (c, y, s.grid c x))
    (hx : (c, x, s.grid c y) ∈ changes) (hy : (c, y, s.grid c x) ∈ changes) :
    Problem.Rearranged s.grid (P.overlay s.grid changes) := by
  apply Problem.rearranged_of_perm (Equiv.swap x y)
  · intro e he
    rcases hval e he with rfl | rfl
    · exact ⟨rfl, by rw [Equiv.swap_apply_left]⟩
    · exact ⟨rfl, by rw [Equiv.swap_apply_right]⟩
  · intro slot
    by_cases h1 : slot = x
    · exact Or.inl ⟨_, hx, h1.symm⟩
    · by_cases h2 : slot = y
      · exact Or.inl ⟨_, hy, h2.symm⟩
      · exact Or.inr (Equiv.swap_apply_of_ne_of_ne h1 h2)

/-- The lone lesson of a friend goes to another session. -/
theorem friendChanges_rearranged {slot target : Slot} {ai : P.Asg}
    (hlesson : s.grid c slot = some ai) (hne : sessionOfSlot target ≠ sessionOfSlot slot) :
    Problem.Rearranged s.grid (P.overlay s.grid (Optimizer.friendChanges s c slot target ai)) := by
  unfold Optimizer.friendChanges
  split
  · exact .refl _
  · split
    · apply getD_swapRunsChanges_rearranged
      have htarget : InSession (sessionOfSlot target) [target] := by
        refine ⟨List.nodup_singleton _, ?_⟩
        intro x hx
        rw [List.mem_singleton.mp hx]
      exact (runOf_inSession s c slot).apart htarget hne
    · rename_i hfree
      have hnone : s.grid c target = none := Option.not_isSome_iff_eq_none.mp hfree
      apply exchange_rearranged
      · intro e he
        rcases List.mem_cons.mp he with rfl | he
        · exact Or.inl (by rw [hnone])
        · cases List.mem_singleton.mp he
          exact Or.inr (by rw [hlesson])
      · rw [hnone]
        exact List.mem_cons_self
      · rw [hlesson]
        exact List.mem_cons_of_mem _ (List.mem_singleton_self _)

/-- The columns of a session change places in the classes of the component, in any order. -/
theorem kempeColumnSwap_rearranged {order : List P.Cls → List P.Cls} {ses : Session} {p1 p2 : Period}
    {changes : List (Change P)} (h : s.kempeColumnSwap order c ses p1 p2 = some changes) :
    Problem.Rearranged s.grid (P.overlay s.grid changes) := by
  obtain ⟨-, -, comp, -, hchanges⟩ := (State.kempeColumnSwap_eq_some_iff _ _ _ _ _ _ _).mp h
  obtain ⟨-, hlist⟩ := (State.kempeChanges_eq_some_iff _ _ _ _ _).mp hchanges
  have heq : P.overlay s.grid changes =
      P.exchange s.grid (slotAt ses p1) (slotAt ses p2) (order comp) := by
    apply Problem.overlay_eq
    · intro e he
      rw [hlist] at he
      obtain ⟨d, hd, hin⟩ := List.mem_flatMap.mp he
      unfold Problem.exchangeOf at hin
      split at hin
      · exact absurd hin List.not_mem_nil
      · rename_i hdiff
        have hne : slotAt ses p2 ≠ slotAt ses p1 := fun heq => hdiff (by rw [heq])
        rcases List.mem_cons.mp hin with rfl | hin
        · unfold Problem.exchange
          rw [if_pos hd, if_pos rfl]
        · cases List.mem_singleton.mp hin
          unfold Problem.exchange
          rw [if_pos hd, if_neg hne, if_pos rfl]
    · intro d slot
      by_cases hd : d ∈ order comp
      · by_cases hsame : s.grid d (slotAt ses p1) = s.grid d (slotAt ses p2)
        · right
          unfold Problem.exchange
          rw [if_pos hd]
          split
          · rename_i h1
            rw [h1, hsame]
          · split
            · rename_i h2
              rw [h2, hsame]
            · rfl
        · have hmem : ∀ e ∈ P.exchangeOf s.grid (slotAt ses p1) (slotAt ses p2) d, e ∈ changes := by
            intro e he
            rw [hlist]
            exact List.mem_flatMap.mpr ⟨d, hd, he⟩
          unfold Problem.exchangeOf at hmem
          rw [if_neg hsame] at hmem
          by_cases h1 : slot = slotAt ses p1
          · exact Or.inl ⟨_, hmem _ List.mem_cons_self, rfl, h1.symm⟩
          · by_cases h2 : slot = slotAt ses p2
            · exact Or.inl ⟨_, hmem _ (List.mem_cons_of_mem _ (List.mem_singleton_self _)), rfl,
                h2.symm⟩
            · right
              unfold Problem.exchange
              rw [if_pos hd, if_neg h1, if_neg h2]
      · right
        unfold Problem.exchange
        rw [if_neg hd]
  rw [heq]
  intro d
  by_cases hd : d ∈ order comp
  · refine ⟨Equiv.swap (slotAt ses p1) (slotAt ses p2), ?_⟩
    intro slot
    unfold Problem.exchange
    rw [if_pos hd]
    by_cases h1 : slot = slotAt ses p1
    · rw [if_pos h1, h1, Equiv.swap_apply_left]
    · by_cases h2 : slot = slotAt ses p2
      · rw [if_neg h1, if_pos h2, h2, Equiv.swap_apply_right]
      · rw [if_neg h1, if_neg h2, Equiv.swap_apply_of_ne_of_ne h1 h2]
  · refine ⟨1, ?_⟩
    intro slot
    unfold Problem.exchange
    rw [if_neg hd]
    rfl

/-- Two sessions of a class change places. -/
theorem sessionSwap_rearranged {s1 s2 : Session} (hne : s1 ≠ s2) :
    Problem.Rearranged s.grid (P.overlay s.grid (allPeriods.flatMap fun p =>
      [(c, slotAt s1 p, s.grid c (slotAt s2 p)), (c, slotAt s2 p, s.grid c (slotAt s1 p))])) := by
  have hnodup : allPeriods.Nodup := List.nodup_finRange 5
  have hapart := (inSession_map s1 hnodup).apart (inSession_map s2 hnodup) hne.symm
  apply Problem.rearranged_of_pairs hapart.nodup_zip
  · intro e he
    obtain ⟨p, hp, hin⟩ := List.mem_flatMap.mp he
    have hpair : (slotAt s1 p, slotAt s2 p) ∈
        (allPeriods.map (slotAt s1)).zip (allPeriods.map (slotAt s2)) := by
      rw [List.zip_map']
      exact List.mem_map.mpr ⟨p, hp, rfl⟩
    rcases List.mem_cons.mp hin with rfl | hin
    · exact ⟨rfl, _, hpair, Or.inl ⟨rfl, rfl⟩⟩
    · cases List.mem_singleton.mp hin
      exact ⟨rfl, _, hpair, Or.inr ⟨rfl, rfl⟩⟩
  · intro x hx
    obtain ⟨e, he, hxe⟩ := List.mem_flatMap.mp hx
    rw [List.zip_map'] at he
    obtain ⟨p, hp, rfl⟩ := List.mem_map.mp he
    rcases List.mem_cons.mp hxe with hx1 | hx2
    · refine ⟨(c, slotAt s1 p, s.grid c (slotAt s2 p)), ?_, hx1.symm⟩
      exact List.mem_flatMap.mpr ⟨p, hp, List.mem_cons_self⟩
    · refine ⟨(c, slotAt s2 p, s.grid c (slotAt s1 p)), ?_, (List.mem_singleton.mp hx2).symm⟩
      exact List.mem_flatMap.mpr ⟨p, hp, List.mem_cons_of_mem _ (List.mem_singleton_self _)⟩

end Lists

end TkbCherry.Engine
