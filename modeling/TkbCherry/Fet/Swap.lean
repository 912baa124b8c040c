import TkbCherry.Fet.Conflicts

/-! `randomSwap`: whatever the draws, the call limit and the clock do, a call that
fails has rolled everything back, and a call that succeeds has lost nothing. -/

namespace TkbCherry.Fet
open Booking
set_option autoImplicit false
set_option linter.unusedSectionVars false

variable {κ : Type} [DecidableEq κ]

abbrev State.plan (st : State κ) : Nat → Option Nat := st.grids.actPlacement

/-- From one state to a later one by journalled moves: the new entries are a
history between the two placements, through legal ones only. -/
structure Moved (d : Desk κ) (base : Row κ → Nat → Cell) (st st' : State κ) : Prop where
  booked : Booked d base st'.grids
  grows : Grows st.grids st'.grids
  journal : ∃ ops, st'.moveJournal = ops ++ st.moveJournal ∧
    (∀ op ∈ ops, op.item < d.activities.length) ∧
    Trace d.CellOf (d.Usable base) st.plan ops st'.plan

variable {d : Desk κ} {set : Settings κ} {base : Row κ → Nat → Cell}

namespace Moved
variable {st st' st'' : State κ}

theorem refl (h : Booked d base st.grids) : Moved d base st st :=
  ⟨h, Grows.refl _, [], rfl, by simp, .nil⟩

theorem trans (h : Moved d base st st') (h' : Moved d base st' st'') : Moved d base st st'' := by
  obtain ⟨ops, hj, hk, ht⟩ := h.journal
  obtain ⟨ops', hj', hk', ht'⟩ := h'.journal
  refine ⟨h'.booked, h.grows.trans h'.grows, ops' ++ ops, ?_, ?_, ht.append ht'⟩
  · rw [hj', hj, List.append_assoc]
  · intro op hop
    cases List.mem_append.mp hop with
    | inl hop => exact hk' op hop
    | inr hop => exact hk op hop

/-- Only the grids and the journal matter. -/
theorem congr {st₀ st₁ : State κ} (h : Moved d base st st') (hg : st₀.grids = st.grids)
    (hj : st₀.moveJournal = st.moveJournal) (hg' : st₁.grids = st'.grids)
    (hj' : st₁.moveJournal = st'.moveJournal) : Moved d base st₀ st₁ := by
  obtain ⟨hb, hgr, hjr⟩ := h
  refine ⟨hg'.symm ▸ hb, ?_, ?_⟩
  · rw [hg, hg']
    exact hgr
  · rw [hj, hj', State.plan, State.plan, hg, hg']
    exact hjr

end Moved

section Moves
variable {st : State κ} {a slot : Nat}

theorem jrnUnplace_none (hp : st.plan a = none) : jrnUnplace d st a = st := by
  simp [jrnUnplace, hp]

theorem jrnUnplace_some {prev : Nat} (hp : st.plan a = some prev) :
    jrnUnplace d st a = { st with
      moveJournal := .took a prev :: st.moveJournal
      grids := unplaceActivity d st.grids a } := by
  simp [jrnUnplace, hp]

theorem jrnUnplace_swapped (st : State κ) (a : Nat) :
    (jrnUnplace d st a).swappedInBranch = st.swappedInBranch := by
  cases hp : st.plan a with
  | none => rw [jrnUnplace_none hp]
  | some prev => rw [jrnUnplace_some hp]

theorem jrnUnplace_moved (hg : Ground d base) (h : Booked d base st.grids) :
    Moved d base st (jrnUnplace d st a) ∧ (jrnUnplace d st a).plan = take st.plan a := by
  cases hp : st.plan a with
  | none =>
    rw [jrnUnplace_none hp, take_none hp]
    exact ⟨.refl h, rfl⟩
  | some prev =>
    obtain ⟨hb, hplan⟩ := h.unplace hg a
    rw [jrnUnplace_some hp]
    refine ⟨⟨hb, grows_unplace d _ a, [.took a prev], rfl, ?_, ?_⟩, hplan⟩
    · intro op hop
      rw [List.mem_singleton.mp hop]
      exact h.known a (by simp [hp])
    · have htr := Trace.took (.nil : Trace d.CellOf (d.Usable base) st.plan [] st.plan) hp
      simpa [State.plan, hplan] using htr

theorem jrnPlace_moved (hg : Ground d base) (h : Booked d base st.grids) {act : Act κ}
    (ha : d.activities[a]? = some act) (hl : d.Legal base (put st.plan a slot)) :
    Moved d base st (jrnPlace d st a slot) ∧ (jrnPlace d st a slot).plan = put st.plan a slot := by
  obtain ⟨hm, hplan⟩ := jrnUnplace_moved hg h (a := a)
  have hl' : d.Legal base (put (jrnUnplace d st a).plan a slot) := by
    rw [hplan, put_take]
    exact hl
  obtain ⟨hb, hplan'⟩ := hm.booked.place hg ha hl'
  have hput : put (jrnUnplace d st a).plan a slot = put st.plan a slot := by
    rw [hplan, put_take]
  refine ⟨hm.trans ⟨hb, grows_place d _ a slot, [.put a slot], rfl, ?_, ?_⟩, hplan'.trans hput⟩
  · intro op hop
    rw [List.mem_singleton.mp hop]
    exact (List.getElem?_eq_some_iff.mp ha).1
  · have htr := Trace.put (s := slot) (.nil : Trace d.CellOf (d.Usable base) _ [] _)
      (by rw [hplan, take_self]) hl'
    simpa [jrnPlace, State.plan, hplan'] using htr

theorem jrnPlace_swapped : (jrnPlace d st a slot).swappedInBranch = st.swappedInBranch :=
  jrnUnplace_swapped st a

theorem displace_moved (hg : Ground d base) (h : Booked d base st.grids) :
    Moved d base st (displace d st a) ∧ (displace d st a).plan = take st.plan a := by
  obtain ⟨hm, hplan⟩ := jrnUnplace_moved hg h (a := a)
  exact ⟨hm.congr rfl rfl rfl rfl, hplan⟩

theorem displaceAll_moved (hg : Ground d base) (l : List Nat) (st : State κ)
    (h : Booked d base st.grids) :
    Moved d base st (l.foldl (displace d) st) ∧
      (l.foldl (displace d) st).plan = takeAll st.plan l ∧
      (l.foldl (displace d) st).swappedInBranch = l.reverse ++ st.swappedInBranch := by
  induction l generalizing st with
  | nil => exact ⟨.refl h, rfl, rfl⟩
  | cons c l ih =>
    obtain ⟨hm, hplan⟩ := displace_moved hg h (a := c)
    obtain ⟨hm', hplan', hsw⟩ := ih (displace d st c) hm.booked
    refine ⟨hm.trans hm', ?_, ?_⟩
    · rw [List.foldl_cons, hplan', hplan, takeAll_cons]
    · have hc : (displace d st c).swappedInBranch = c :: st.swappedInBranch := by
        simp [displace, jrnUnplace_swapped]
      rw [List.foldl_cons, hsw, hc]
      simp

theorem setTabu_grids (st : State κ) (a : Nat) (old : Option Nat) :
    (setTabu d st a old).grids = st.grids ∧
      (setTabu d st a old).moveJournal = st.moveJournal ∧
      (setTabu d st a old).swappedInBranch = st.swappedInBranch := by
  cases old with
  | none => exact ⟨rfl, rfl, rfl⟩
  | some s => exact ⟨rfl, rfl, rfl⟩

theorem force_moved (hg : Ground d base) (h : Booked d base st.grids) {cand : Candidate}
    (hf : Fits d set base st.plan a cand.slot cand.conflicts) :
    Moved d base st (force d st a cand) ∧
      (force d st a cand).plan = put (takeAll st.plan cand.conflicts) a cand.slot ∧
      (force d st a cand).swappedInBranch = cand.conflicts.reverse ++ st.swappedInBranch := by
  obtain ⟨hm, hplan, hsw⟩ := displaceAll_moved hg cand.conflicts st h
  obtain ⟨act, ha⟩ := hf.exists_act
  have hl := hf.legal hg
  rw [← hplan] at hl
  obtain ⟨hm', hplan'⟩ := jrnPlace_moved hg hm.booked ha hl
  obtain ⟨hgr, hj, hsw'⟩ := setTabu_grids (d := d)
    (jrnPlace d (cand.conflicts.foldl (displace d) st) a cand.slot) a
    ((cand.conflicts.foldl (displace d) st).grids.actPlacement a)
  refine ⟨hm.trans (hm'.congr rfl rfl hgr hj), ?_, ?_⟩
  · rw [← hplan, ← hplan', State.plan, State.plan, force, hgr]
  · rw [force, hsw', jrnPlace_swapped, hsw]

end Moves

section Rollback

theorem rollback_cons (op : Op Nat Nat) {mark : Nat} {ops : List (Op Nat Nat)}
    (h : mark ≤ ops.length) (g : Grids κ) :
    rollback d mark (op :: ops) g = rollback d mark ops (undo d g op) := by
  rw [rollback, if_pos]
  rw [List.length_cons]
  omega

/-- Undoing a history leads back to the placement it started from. -/
theorem rollback_trace (hg : Ground d base) {p q : Nat → Option Nat} {ops : List (Op Nat Nat)}
    (ht : Trace d.CellOf (d.Usable base) p ops q) (hp : d.Legal base p)
    (hk : ∀ op ∈ ops, op.item < d.activities.length) (j : List (Op Nat Nat)) (g : Grids κ)
    (hb : Booked d base g) (hq : g.actPlacement = q) :
    (rollback d j.length (ops ++ j) g).1 = j ∧
      Booked d base (rollback d j.length (ops ++ j) g).2 ∧
      (rollback d j.length (ops ++ j) g).2.actPlacement = p ∧
      Grows g (rollback d j.length (ops ++ j) g).2 := by
  induction ht generalizing g with
  | nil =>
    cases j with
    | nil => exact ⟨rfl, hb, hq, Grows.refl g⟩
    | cons op j => simp [rollback, hb, hq, Grows.refl]
  | @took ops q a s ht hqa ih =>
    have ha : a < d.activities.length := hk (.took a s) List.mem_cons_self
    have hback : put g.actPlacement a s = q := by rw [hq, put_of_take hqa]
    have hl : d.Legal base (put g.actPlacement a s) := by
      rw [hback]
      exact ht.legal hp
    obtain ⟨hb', hplan⟩ := hb.place hg (List.getElem?_eq_getElem ha) hl
    have hlen : j.length ≤ (ops ++ j).length := by
      rw [List.length_append]
      omega
    have hstep : rollback d j.length ((.took a s :: ops) ++ j) g =
        rollback d j.length (ops ++ j) (placeActivityDirect d g a s) :=
      rollback_cons (.took a s) hlen g
    rw [hstep]
    obtain ⟨h1, h2, h3, h4⟩ := ih (fun op hop => hk op (List.mem_cons_of_mem _ hop))
      (placeActivityDirect d g a s) hb' (hplan.trans hback)
    exact ⟨h1, h2, h3, (grows_place d g a s).trans h4⟩
  | @put ops q a s ht hqa hl ih =>
    have hs : g.actPlacement a = some s := by rw [hq, put_self]
    obtain ⟨hb', hplan⟩ := hb.unplace hg a
    have hback : take g.actPlacement a = q := by rw [hq, take_put hqa]
    have hlen : j.length ≤ (ops ++ j).length := by
      rw [List.length_append]
      omega
    have hstep : rollback d j.length ((.put a s :: ops) ++ j) g =
        rollback d j.length (ops ++ j) (unplaceActivity d g a) := by
      rw [List.cons_append, rollback_cons (.put a s) hlen g, undo, if_pos hs]
    rw [hstep]
    obtain ⟨h1, h2, h3, h4⟩ := ih (fun op hop => hk op (List.mem_cons_of_mem _ hop))
      (unplaceActivity d g a) hb' (hplan.trans hback)
    exact ⟨h1, h2, h3, (grows_unplace d g a).trans h4⟩

/-- `jrnRollback` to the length the journal had before. -/
theorem jrnRollback_moved (hg : Ground d base) {st st' : State κ} (h : Booked d base st.grids)
    (hm : Moved d base st st') :
    Booked d base (jrnRollback d st' st.moveJournal.length).grids ∧
      (jrnRollback d st' st.moveJournal.length).plan = st.plan ∧
      (jrnRollback d st' st.moveJournal.length).moveJournal = st.moveJournal ∧
      Grows st.grids (jrnRollback d st' st.moveJournal.length).grids := by
  obtain ⟨ops, hj, hk, ht⟩ := hm.journal
  have hr := rollback_trace hg ht h.legal hk st.moveJournal st'.grids hm.booked rfl
  rw [← hj] at hr
  obtain ⟨h1, h2, h3, h4⟩ := hr
  exact ⟨h2, h3, h1, hm.grows.trans h4⟩

end Rollback

/-- How a swap ends: on failure nothing has changed, on success the activity stands
and whoever stood before stands. -/
structure Outcome (d : Desk κ) (set : Settings κ) (base : Row κ → Nat → Cell) (st : State κ)
    (a : Nat) (r : State κ × Option Chain) : Prop where
  moved : Moved d base st r.1
  swapped : r.1.swappedInBranch = st.swappedInBranch
  undone : r.2 = none → r.1.plan = st.plan ∧ r.1.moveJournal = st.moveJournal
  kept : ∀ kept, r.2 = some kept → Performs d set base st.plan kept r.1.plan ∧
    (∀ b, st.plan b ≠ none → r.1.plan b ≠ none) ∧ r.1.plan a ≠ none

section Displaced
variable {swap : State κ → Nat → State κ × Option Chain}

/-- What the calls one level deeper are assumed to do. -/
def SwapsWell (d : Desk κ) (set : Settings κ) (base : Row κ → Nat → Cell)
    (swap : State κ → Nat → State κ × Option Chain) : Prop :=
  ∀ st c, Booked d base st.grids → Outcome d set base st c (swap st c)

theorem placeDisplaced_moved (hs : SwapsWell d set base swap) (l : List Nat) (st : State κ)
    (h : Booked d base st.grids) :
    Moved d base st (placeDisplaced swap l st).1 ∧
      (placeDisplaced swap l st).1.swappedInBranch = st.swappedInBranch ∧
      ∀ kept, (placeDisplaced swap l st).2 = some kept →
        Performs d set base st.plan kept (placeDisplaced swap l st).1.plan ∧
        (∀ b, st.plan b ≠ none → (placeDisplaced swap l st).1.plan b ≠ none) ∧
        ∀ c ∈ l, (placeDisplaced swap l st).1.plan c ≠ none := by
  induction l generalizing st with
  | nil =>
    refine ⟨.refl h, rfl, ?_⟩
    intro kept hk
    cases hk
    exact ⟨.nil _, fun _ hb => hb, by simp⟩
  | cons c l ih =>
    have ho := hs st c h
    rcases hsw : swap st c with ⟨st', res⟩
    rw [hsw] at ho
    cases res with
    | none =>
      have heq : placeDisplaced swap (c :: l) st = (st', none) := by simp [placeDisplaced, hsw]
      rw [heq]
      exact ⟨ho.moved, ho.swapped, by simp⟩
    | some kept₁ =>
      obtain ⟨hp₁, hall₁, hc₁⟩ := ho.kept kept₁ rfl
      obtain ⟨hm, hsb, hkept⟩ := ih st' ho.moved.booked
      rcases hrest : placeDisplaced swap l st' with ⟨st'', res'⟩
      rw [hrest] at hm hsb hkept
      cases res' with
      | none =>
        have heq : placeDisplaced swap (c :: l) st = (st'', none) := by
          simp [placeDisplaced, hsw, hrest]
        rw [heq]
        exact ⟨ho.moved.trans hm, hsb.trans ho.swapped, by simp⟩
      | some kept₂ =>
        have heq : placeDisplaced swap (c :: l) st = (st'', some (kept₁ ++ kept₂)) := by
          simp [placeDisplaced, hsw, hrest]
        obtain ⟨hp₂, hall₂, hl₂⟩ := hkept kept₂ rfl
        rw [heq]
        refine ⟨ho.moved.trans hm, hsb.trans ho.swapped, ?_⟩
        intro kept hk
        cases hk
        refine ⟨hp₁.append hp₂, fun b hb => hall₂ b (hall₁ b hb), ?_⟩
        intro b hb
        cases List.mem_cons.mp hb with
        | inl hb => exact hb ▸ hall₂ c hc₁
        | inr hb => exact hl₂ b hb

/-- Forgetting the conflicts gives the set there was, when none of them was in it. -/
theorem filter_forget {l s : List Nat} (h : l.any (fun c => s.contains c) = false) :
    (l.reverse ++ s).filter (fun c => !l.contains c) = s := by
  rw [List.filter_append]
  have hl : l.reverse.filter (fun c => !l.contains c) = [] := by
    apply List.filter_eq_nil_iff.mpr
    intro c hc
    simp [List.mem_reverse.mp hc]
  have hs : s.filter (fun c => !l.contains c) = s := by
    apply List.filter_eq_self.mpr
    intro c hc
    have hn : c ∉ l := by
      intro hcl
      have hno := List.any_eq_false.mp h c hcl
      exact hno (List.contains_iff_mem.mpr hc)
    simp [hn]
  rw [hl, hs, List.nil_append]

theorem tryCandidates_outcome (hg : Ground d base) (hs : SwapsWell d set base swap) (level a : Nat)
    (cands : List Candidate) (st : State κ) (h : Booked d base st.grids)
    (hf : ∀ c ∈ cands, Fits d set base st.plan a c.slot c.conflicts) :
    Outcome d set base st a (tryCandidates d swap level a cands st) := by
  induction cands generalizing st with
  | nil => exact ⟨.refl h, rfl, fun _ => ⟨rfl, rfl⟩, by simp [tryCandidates]⟩
  | cons cand rest ih =>
    have hrest : ∀ c ∈ rest, Fits d set base st.plan a c.slot c.conflicts :=
      fun c hc => hf c (List.mem_cons_of_mem _ hc)
    by_cases hcyc : cand.conflicts.any fun c => st.swappedInBranch.contains c
    · have heq : tryCandidates d swap level a (cand :: rest) st =
          tryCandidates d swap level a rest st := by
        rw [tryCandidates, if_pos hcyc]
      rw [heq]
      exact ih st h hrest
    · have hfit := hf cand List.mem_cons_self
      obtain ⟨hm, hplan, hsw⟩ := force_moved hg h hfit
      obtain ⟨hm', hsw', hkept⟩ :=
        placeDisplaced_moved hs cand.conflicts (force d st a cand) hm.booked
      have hmoved := hm.trans hm'
      have hforget : (forget (placeDisplaced swap cand.conflicts (force d st a cand)).1
          cand.conflicts).swappedInBranch = st.swappedInBranch := by
        rw [forget, hsw', hsw]
        exact filter_forget (by simpa using hcyc)
      rcases hpd : placeDisplaced swap cand.conflicts (force d st a cand) with ⟨st', res⟩
      rw [hpd] at hm' hsw' hkept hmoved hforget
      cases res with
      | some kept =>
        have heq : tryCandidates d swap level a (cand :: rest) st =
            (forget st' cand.conflicts, some ((a, cand.slot) :: kept)) := by
          rw [tryCandidates, if_neg hcyc, hpd]
        rw [heq]
        obtain ⟨hperf, hall, hconf⟩ := hkept kept rfl
        refine ⟨hmoved.congr rfl rfl rfl rfl, hforget, by simp, ?_⟩
        intro kept' hk'
        cases hk'
        have hself : st'.plan a ≠ none := hall a (by rw [hplan]; simp)
        refine ⟨.cons hfit (hplan ▸ hperf), ?_, hself⟩
        intro b hb
        by_cases hbc : b ∈ cand.conflicts
        · exact hconf b hbc
        · exact hall b (hplan ▸ Fits.keeps _ hb hbc)
      | none =>
        -- rolled back to the restore point: the remaining candidates still fit
        obtain ⟨hb, hback, hj, hgr⟩ := jrnRollback_moved hg h hmoved
        let st'' := forget (jrnRollback d st' st.moveJournal.length) cand.conflicts
        have hst : Moved d base st st'' := ⟨hb, hgr, [], hj, by simp, by
          show Trace _ _ st.plan [] st''.plan
          have hpl : st''.plan = st.plan := hback
          rw [hpl]
          exact .nil⟩
        have hsb : st''.swappedInBranch = st.swappedInBranch := hforget
        by_cases hlev : 6 ≤ level
        · have heq : tryCandidates d swap level a (cand :: rest) st = (st'', none) := by
            rw [tryCandidates, if_neg hcyc, hpd]
            exact if_pos hlev
          rw [heq]
          exact ⟨hst, hsb, fun _ => ⟨hback, hj⟩, by simp⟩
        · have heq : tryCandidates d swap level a (cand :: rest) st =
              tryCandidates d swap level a rest st'' := by
            rw [tryCandidates, if_neg hcyc, hpd]
            exact if_neg hlev
          rw [heq]
          have hpl : st''.plan = st.plan := hback
          have ho := ih st'' hb (hpl.symm ▸ hrest)
          refine ⟨hst.trans ho.moved, ho.swapped.trans hsb, ?_, ?_⟩
          · intro hn
            exact ⟨(ho.undone hn).1.trans hpl, (ho.undone hn).2.trans hj⟩
          · intro kept hk
            rw [← hpl]
            exact ho.kept kept hk

theorem trySlots_outcome (hg : Ground d base) (hs : SwapsWell d set base swap) (level a : Nat)
    (cands : List Candidate) (st : State κ) (h : Booked d base st.grids)
    (hf : ∀ c ∈ cands, Fits d set base st.plan a c.slot c.conflicts) :
    Outcome d set base st a (trySlots d swap level a cands st) := by
  cases hz : (cands.filter (·.conflicts.isEmpty)).insertionSort (·.penalty ≤ ·.penalty) with
  | nil =>
    have heq : trySlots d swap level a cands st = tryCandidates d swap level a
        ((cands.filter (!·.conflicts.isEmpty)).insertionSort Candidate.before) st := by
      simp [trySlots, hz]
    rw [heq]
    apply tryCandidates_outcome hg hs level a _ st h
    intro c hc
    exact hf c (List.mem_filter.mp ((List.mem_insertionSort _).mp hc)).1
  | cons best more =>
    have hbest : best ∈ cands.filter (·.conflicts.isEmpty) := by
      rw [← List.mem_insertionSort (fun a b : Candidate => a.penalty ≤ b.penalty), hz]
      exact List.mem_cons_self
    obtain ⟨hmem, hempty⟩ := List.mem_filter.mp hbest
    have hfit := hf best hmem
    have hnil : best.conflicts = [] := List.isEmpty_iff.mp hempty
    obtain ⟨act, ha⟩ := hfit.exists_act
    rw [hnil] at hfit
    obtain ⟨hm, hplan⟩ := jrnPlace_moved hg h ha (hfit.legal hg)
    have heq : trySlots d swap level a cands st =
        (jrnPlace d st a best.slot, some [(a, best.slot)]) := by
      simp [trySlots, hz]
    rw [heq]
    refine ⟨hm, jrnPlace_swapped, by simp, ?_⟩
    intro kept hk
    cases hk
    refine ⟨?_, ?_, ?_⟩
    · refine .cons hfit ?_
      rw [hplan]
      exact .nil _
    · intro b hb
      rw [hplan]
      exact Fits.keeps [] hb (by simp)
    · rw [hplan]
      simp

end Displaced

section Calls
variable {swap : State κ → Nat → State κ × Option Chain}

theorem evaluate_fits (st : State κ) (h : Booked d base st.grids) {a : Nat} {act : Act κ}
    (ha : d.activities[a]? = some act) {restricted : Bool} {slot : Nat} {cand : Candidate}
    (he : evaluate d set st a act restricted slot = some cand) :
    Fits d set base st.plan a cand.slot cand.conflicts := by
  by_cases hopen : opensUnaffordableSession set st.grids act restricted slot
  · simp [evaluate, hopen] at he
  cases hc : getConflictsForSlot d set st.grids a act slot with
  | none => simp [evaluate, hopen, hc] at he
  | some confs =>
    by_cases htabu : !confs.isEmpty &&
        (st.tabuMap a slot).any (fun till => decide (st.currentStep < till))
    · simp [evaluate, hopen, hc, htabu] at he
    · have hcand : (⟨slot, confs, getPlacementPenalty st.grids act slot⟩ : Candidate) = cand := by
        simpa [evaluate, hopen, hc, htabu] using he
      subst hcand
      exact ⟨st.grids, act, h, rfl, ha, hc⟩

/-- A call's outcome, counted from the state whose journal it may have emptied. -/
def OutcomeFrom (d : Desk κ) (set : Settings κ) (base : Row κ → Nat → Cell) (level : Nat)
    (st : State κ) (a : Nat) (r : State κ × Option Chain) : Prop :=
  ∃ st₀ : State κ, st₀.grids = st.grids ∧ st₀.swappedInBranch = st.swappedInBranch ∧
    (level ≠ 0 → st₀.moveJournal = st.moveJournal) ∧ Outcome d set base st₀ a r

/-- Nothing but counters changed. -/
theorem idle_outcome {st : State κ} (st' : State κ) (h : Booked d base st.grids) (hg : st'.grids = st.grids)
    (hs : st'.swappedInBranch = st.swappedInBranch) {level : Nat}
    (hj : level ≠ 0 → st'.moveJournal = st.moveJournal) (a : Nat) :
    OutcomeFrom d set base level st a (st', none) :=
  ⟨st', hg, hs, hj, .refl (hg.symm ▸ h), rfl, fun _ => ⟨rfl, rfl⟩, by simp⟩

theorem swapCall_outcome (hg : Ground d base) (hs : SwapsWell d set base swap) (level : Nat)
    (st : State κ) (a : Nat) (restrictSlots : Option (List Nat)) (h : Booked d base st.grids) :
    OutcomeFrom d set base level st a (swapCall d set swap level st a restrictSlots) := by
  by_cases hlim : set.limitCalls ≤ st.nCalls
  · rw [swapCall, if_pos hlim]
    exact idle_outcome st h rfl rfl (fun _ => rfl) a
  by_cases hlate : readsClock set st && d.late st.readings
  · rw [swapCall, if_neg hlim, if_pos hlate]
    exact idle_outcome { st with deadlineHit := true, readings := st.readings + 1 } h rfl rfl
      (fun _ => rfl) a
  have hj : level ≠ 0 → (enter set st level).moveJournal = st.moveJournal := by
    intro hl
    simp [enter, hl]
  cases ha : d.activities[a]? with
  | none =>
    have heq : swapCall d set swap level st a restrictSlots = (enter set st level, none) := by
      simp [swapCall, hlim, hlate, ha, -Bool.and_eq_true]
    rw [heq]
    exact idle_outcome (enter set st level) h rfl rfl hj a
  | some act =>
    by_cases hfix : act.isFixed
    · have heq : swapCall d set swap level st a restrictSlots = (enter set st level, none) := by
        simp [swapCall, hlim, hlate, ha, hfix, -Bool.and_eq_true]
      rw [heq]
      exact idle_outcome (enter set st level) h rfl rfl hj a
    · let sh := shuffle d (enter set st level) (candidateSlots restrictSlots)
      have heq : swapCall d set swap level st a restrictSlots =
          trySlots d swap level a
            (sh.1.filterMap (evaluate d set sh.2 a act restrictSlots.isSome)) sh.2 := by
        simp [swapCall, hlim, hlate, ha, hfix, sh, -Bool.and_eq_true]
      rw [heq]
      refine ⟨sh.2, rfl, rfl, hj, ?_⟩
      apply trySlots_outcome hg hs level a _ sh.2 h
      intro cand hcand
      obtain ⟨slot, _, he⟩ := List.mem_filterMap.mp hcand
      exact evaluate_fits sh.2 h ha he

/-- By induction on the levels left: below the first level the journal is only added to. -/
theorem swapWithin_outcome (set : Settings κ) (hg : Ground d base) (depth : Nat) (hdeep : depth ≤ MAX_RECURSION_LEVEL)
    (st : State κ) (a : Nat) (restrictSlots : Option (List Nat)) (h : Booked d base st.grids) :
    OutcomeFrom d set base (MAX_RECURSION_LEVEL - depth) st a
      (swapWithin d set depth st a restrictSlots) := by
  induction depth generalizing st a restrictSlots with
  | zero => exact idle_outcome st h rfl rfl (fun _ => rfl) a
  | succ depth ih =>
    apply swapCall_outcome hg _ _ st a restrictSlots h
    intro st' c hb
    obtain ⟨st₀, h1, h2, h3, ho⟩ := ih (by omega) st' c none hb
    have hj := h3 (by omega)
    refine ⟨ho.moved.congr h1.symm hj.symm rfl rfl, ho.swapped.trans h2, ?_, ?_⟩
    · intro hn
      obtain ⟨hp, hjr⟩ := ho.undone hn
      exact ⟨hp.trans (by rw [State.plan, h1]), hjr.trans hj⟩
    · intro kept hk
      have hk' := ho.kept kept hk
      rw [State.plan, h1] at hk'
      exact hk'

end Calls

end TkbCherry.Fet
