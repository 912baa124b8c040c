import TkbCherry.Engine.Stats

/-!
# Loading a schedule with conflicts

`_lenient_state` and the branch of `_load_state` for a positive penalty. Cells are written class
after class, and a cell whose teacher is taken is left out. No cell is locked until all are
written, so a fixed lesson has no precedence over a lesson of an earlier class.
-/

namespace TkbCherry.Engine

set_option autoImplicit false

open Array2

namespace State
variable {P : Problem}

/-- The writing loop, which ignores a refusal. -/
def writeAll (grid : P.Grid) : List (P.Cls × Slot) → State P → State P
  | [], s => s
  | (c, slot) :: rest, s =>
    writeAll grid rest ((grid c slot).elim s fun ai => (s.apply [(c, slot, some ai)] false).1)

/-- `owners` of one teacher and slot. -/
def owners (s : State P) (t : P.Tch) (slot : Slot) : List P.Cls :=
  P.allClasses.filter fun c => decide (t ∈ P.members (s.grid c slot))

/-- `owners.pop()` while more than one is left; a locked cell stays. -/
def dropOwners (s : State P) (t : P.Tch) (slot : Slot) : State P :=
  (s.owners t slot).tail.reverse.foldl (fun s c =>
    if s.locked c slot then s else (s.apply [(c, slot, none)] false).1) s

def dropOverlaps (s : State P) : State P :=
  (P.allTeachers.product allSlots).foldl (fun s e => s.dropOwners e.1 e.2) s

/-- `_lenient_state`. -/
def lenientState (P : Problem) (grid : P.Grid) : State P :=
  { ((writeAll grid (P.allClasses.product allSlots) (init P true)).dropOverlaps).lockFixed with
    deferMin := false }

/-- The writing loop of the strict branch, with the last reason of a refusal. -/
def writeStrict (grid : P.Grid) : List (P.Cls × Slot) → State P → Option String →
    State P × Option String
  | [], s, fail => (s, fail)
  | (c, slot) :: rest, s, fail =>
    match grid c slot with
    | none => writeStrict grid rest s fail
    | some ai =>
      match s.apply [(c, slot, some ai)] false with
      | (s', some _) => writeStrict grid rest s' fail
      | (s', none) => writeStrict grid rest s'
          (some (if s'.checkFailReason = "" then "teacher_conflict" else s'.checkFailReason))

/-- `_load_state`, with `_last_load_fail` where it is set. -/
def loadState (P : Problem) (penalty : Int) (grid : P.Grid) : Option (State P) × Option String :=
  if penalty > 0 then (some (lenientState P grid), none)
  else
    let (s, fail) := writeStrict grid (P.allClasses.product allSlots) (init P false) none
    match fail with
    | some reason => (none, some reason)
    | none =>
      match s.lockFixed.fullRecheckReason with
      | some reason => (none, some (if reason = "" then "hard_check" else reason))
      | none => (some s.lockFixed, none)

/-! ### One cell -/

/-- The lesson is of the class and allowed at the slot. -/
def FitsCell (c : P.Cls) (slot : Slot) (ai : P.Asg) : Prop :=
  P.aClass ai = c ∧ P.aAllowed ai slot = true

/-- An empty cell takes a lesson that fits and whose teachers are free, and no other. -/
theorem apply_cell {s : State P} (h : Consistent s) {c : P.Cls} {slot : Slot} {ai : P.Asg}
    (hlock : s.locked c slot = false) (hnone : s.grid c slot = none) :
    Consistent (s.apply [(c, slot, some ai)] false).1 ∧
      (s.apply [(c, slot, some ai)] false).1.locked = s.locked ∧
      ((FitsCell c slot ai ∧ (∀ t ∈ P.aTeachers ai, s.teacherSlot t slot = none) ∧
          (s.apply [(c, slot, some ai)] false).1.grid = set2 s.grid c slot (some ai)) ∨
        (¬ (FitsCell c slot ai ∧ ∀ t ∈ P.aTeachers ai, s.teacherSlot t slot = none) ∧
          (s.apply [(c, slot, some ai)] false).1.grid = s.grid)) := by
  rcases apply_cases h [(c, slot, some ai)] false with
    ⟨reason, happ⟩ | ⟨s', journal, happ, hl, _, _, hs'⟩
  · rw [happ]
    refine ⟨h.of_eq rfl rfl rfl rfl, rfl, Or.inr ⟨?_, rfl⟩⟩
    rintro ⟨hfit, hfree⟩
    obtain ⟨s', journal, hok⟩ := apply_free hlock hfit hnone hfree
    rw [happ] at hok
    cases hok
  · have hgrid : s'.grid = set2 s.grid c slot (some ai) := apply_grid h happ
    rw [happ]
    refine ⟨hs', hl, Or.inl ⟨?_, ?_, hgrid⟩⟩
    · apply hs'.sound.cells c slot ai
      rw [hgrid]
      exact set2_self _ _ _ _
    · intro t ht
      cases hts : s.teacherSlot t slot with
      | none => rfl
      | some bi =>
        -- the teacher would stand in two classes afterwards
        obtain ⟨hb, htb⟩ := (h.sound.owner t slot bi).mp hts
        have hne : P.aClass bi ≠ c := by
          rintro rfl
          rw [hnone] at hb
          cases hb
        have hb' : s'.grid (P.aClass bi) slot = some bi := by
          rw [hgrid, set2_apply, if_neg (fun he => hne he.1)]
          exact hb
        have ha' : s'.grid c slot = some ai := by
          rw [hgrid]
          exact set2_self _ _ _ _
        refine absurd (hs'.sound.loadable.exclusive (P.aClass bi) c slot t ?_ ?_) hne
        · rw [hb']
          exact htb
        · rw [ha']
          exact ht

/-! ### The writing loop -/

/-- Two lessons have a teacher in common. -/
def Clash (ai bi : P.Asg) : Prop := ∃ t, t ∈ P.aTeachers ai ∧ t ∈ P.aTeachers bi

/-- A choice of cells of a grid by the rule "first come, first served": a lesson is chosen exactly
when it fits its cell and clashes with no chosen lesson of an earlier class. -/
def FirstCome (grid : P.Grid) (chosen : P.Cls → Slot → Prop) : Prop :=
  ∀ c slot, chosen c slot ↔ ∃ ai, grid c slot = some ai ∧ FitsCell c slot ai ∧
    ∀ c' < c, chosen c' slot → ∀ bi, grid c' slot = some bi → ¬ Clash ai bi

/-- The rule leaves no freedom. -/
theorem FirstCome.unique {grid : P.Grid} {chosen chosen' : P.Cls → Slot → Prop}
    (h : FirstCome grid chosen) (h' : FirstCome grid chosen') (c : P.Cls) (slot : Slot) :
    chosen c slot ↔ chosen' c slot := by
  induction c using WellFoundedLT.induction with
  | ind c ih =>
    rw [h, h']
    constructor
    · rintro ⟨ai, hai, hfit, hfirst⟩
      exact ⟨ai, hai, hfit, fun c' hc hch => hfirst c' hc ((ih c' hc).mpr hch)⟩
    · rintro ⟨ai, hai, hfit, hfirst⟩
      exact ⟨ai, hai, hfit, fun c' hc hch => hfirst c' hc ((ih c' hc).mp hch)⟩

/-- What is known after the cells `done` are written. -/
structure Written (grid : P.Grid) (done : List (P.Cls × Slot)) (s : State P) : Prop where
  consistent : Consistent s
  unlocked : ∀ c slot, s.locked c slot = false
  rest : ∀ c slot, (c, slot) ∉ done → s.grid c slot = none
  sub : ∀ c slot ai, s.grid c slot = some ai → grid c slot = some ai
  first : ∀ c slot, (c, slot) ∈ done → (s.grid c slot ≠ none ↔ ∃ ai, grid c slot = some ai ∧
    FitsCell c slot ai ∧ ∀ c' < c, ∀ bi, s.grid c' slot = some bi → ¬ Clash ai bi)

/-- A cell after all written cells of its slot, in the order of the classes. -/
def Next (done : List (P.Cls × Slot)) (c : P.Cls) (slot : Slot) : Prop :=
  (c, slot) ∉ done ∧ ∀ c', (c', slot) ∈ done → c' < c

theorem Written.skip {grid : P.Grid} {done : List (P.Cls × Slot)} {s : State P}
    (h : Written grid done s) {c : P.Cls} {slot : Slot} (hnone : grid c slot = none) :
    Written grid (done ++ [(c, slot)]) s := by
  have hempty : s.grid c slot = none := by
    cases hc : s.grid c slot with
    | none => rfl
    | some ai => exact absurd (h.sub c slot ai hc) (by simp [hnone])
  refine ⟨h.consistent, h.unlocked, fun c' slot' hn => h.rest c' slot' fun hin =>
    hn (List.mem_append_left _ hin), h.sub, fun c' slot' hin => ?_⟩
  rcases List.mem_append.mp hin with hin | hin
  · exact h.first c' slot' hin
  · cases List.mem_singleton.mp hin
    simp [hempty, hnone]

/-- The teachers of a lesson are free exactly when it clashes with no written lesson. -/
theorem Written.free_iff {grid : P.Grid} {done : List (P.Cls × Slot)} {s : State P}
    (h : Written grid done s) {c : P.Cls} {slot : Slot} (hn : Next done c slot) (ai : P.Asg) :
    (∀ t ∈ P.aTeachers ai, s.teacherSlot t slot = none) ↔
      ∀ c' < c, ∀ bi, s.grid c' slot = some bi → ¬ Clash ai bi := by
  constructor
  · rintro hfree c' _ bi hb ⟨t, hta, htb⟩
    have hclass := (h.consistent.sound.cells c' slot bi hb).1
    have howner := (h.consistent.sound.owner t slot bi).mpr ⟨by rwa [hclass], htb⟩
    rw [hfree t hta] at howner
    cases howner
  · intro hnot t ht
    cases hts : s.teacherSlot t slot with
    | none => rfl
    | some bi =>
      obtain ⟨hb, htb⟩ := (h.consistent.sound.owner t slot bi).mp hts
      have hdone : (P.aClass bi, slot) ∈ done := by
        by_contra hout
        rw [h.rest _ _ hout] at hb
        cases hb
      exact absurd ⟨t, ht, htb⟩ (hnot _ (hn.2 _ hdone) bi hb)

theorem Written.step {grid : P.Grid} {done : List (P.Cls × Slot)} {s : State P}
    (h : Written grid done s) {c : P.Cls} {slot : Slot} (hn : Next done c slot) {ai : P.Asg}
    (hai : grid c slot = some ai) :
    Written grid (done ++ [(c, slot)]) (s.apply [(c, slot, some ai)] false).1 := by
  have hempty := h.rest c slot hn.1
  have hfree := h.free_iff hn ai
  obtain ⟨hcons, hlock, hcases⟩ := @apply_cell P s h.consistent c slot ai (h.unlocked c slot) hempty
  generalize (s.apply [(c, slot, some ai)] false).1 = s' at hcons hlock hcases
  -- no earlier class of a written cell is touched
  have hearlier : ∀ c' slot', (c', slot') ∈ done → ∀ c₀, c₀ ≤ c' → s'.grid c₀ slot' = s.grid c₀ slot' := by
    intro c' slot' hin c₀ hle
    rcases hcases with ⟨_, _, hgrid⟩ | ⟨_, hgrid⟩
    · rw [hgrid, set2_apply, if_neg]
      rintro ⟨rfl, rfl⟩
      exact absurd (hn.2 c' hin) (not_lt.mpr hle)
    · rw [hgrid]
  have hbelow : ∀ c' < c, s'.grid c' slot = s.grid c' slot := by
    intro c' hlt
    rcases hcases with ⟨_, _, hgrid⟩ | ⟨_, hgrid⟩
    · rw [hgrid, set2_apply, if_neg]
      rintro ⟨rfl, _⟩
      exact absurd hlt (lt_irrefl _)
    · rw [hgrid]
  constructor
  · exact hcons
  · exact fun c' slot' => hlock ▸ h.unlocked c' slot'
  · intro c' slot' hout
    rw [List.mem_append, not_or] at hout
    rcases hcases with ⟨_, _, hgrid⟩ | ⟨_, hgrid⟩
    · rw [hgrid, set2_apply, if_neg]
      · exact h.rest c' slot' hout.1
      · rintro ⟨rfl, rfl⟩
        exact hout.2 (List.mem_singleton_self _)
    · rw [hgrid]
      exact h.rest c' slot' hout.1
  · intro c' slot' bi hb
    rcases hcases with ⟨_, _, hgrid⟩ | ⟨_, hgrid⟩
    · rw [hgrid, set2_apply] at hb
      by_cases he : c' = c ∧ slot' = slot
      · rw [if_pos he] at hb
        rw [he.1, he.2, hai, hb]
      · rw [if_neg he] at hb
        exact h.sub c' slot' bi hb
    · rw [hgrid] at hb
      exact h.sub c' slot' bi hb
  · intro c' slot' hin
    rcases List.mem_append.mp hin with hin | hin
    · rw [hearlier c' slot' hin c' (le_refl c'), h.first c' slot' hin]
      constructor
      · rintro ⟨bi, hbi, hfit, hfirst⟩
        exact ⟨bi, hbi, hfit, fun c₀ hlt b hb => hfirst c₀ hlt b
          (hearlier c' slot' hin c₀ (le_of_lt hlt) ▸ hb)⟩
      · rintro ⟨bi, hbi, hfit, hfirst⟩
        refine ⟨bi, hbi, hfit, fun c₀ hlt b hb => hfirst c₀ hlt b ?_⟩
        rwa [hearlier c' slot' hin c₀ (le_of_lt hlt)]
    · cases List.mem_singleton.mp hin
      have hsame : (∀ c' < c, ∀ bi, s'.grid c' slot = some bi → ¬ Clash ai bi) ↔
          ∀ t ∈ P.aTeachers ai, s.teacherSlot t slot = none := by
        rw [hfree]
        constructor
        · exact fun hall c' hlt bi hb => hall c' hlt bi (by rwa [hbelow c' hlt])
        · exact fun hall c' hlt bi hb => hall c' hlt bi (by rwa [← hbelow c' hlt])
      have hright : (∃ bi, grid c slot = some bi ∧ FitsCell c slot bi ∧
          ∀ c' < c, ∀ b, s'.grid c' slot = some b → ¬ Clash bi b) ↔
          FitsCell c slot ai ∧ ∀ t ∈ P.aTeachers ai, s.teacherSlot t slot = none := by
        rw [← hsame]
        constructor
        · rintro ⟨bi, hbi, hrest⟩
          rw [hai] at hbi
          cases hbi
          exact hrest
        · exact fun hrest => ⟨ai, hai, hrest⟩
      rw [hright]
      rcases hcases with ⟨hfit, hfr, hgrid⟩ | ⟨hnot, hgrid⟩
      · rw [hgrid, set2_self]
        exact iff_of_true (by simp) ⟨hfit, hfr⟩
      · rw [hgrid]
        exact iff_of_false (not_not.mpr hempty) hnot

theorem writeAll_written {grid : P.Grid} (cells done : List (P.Cls × Slot)) {s : State P}
    (h : Written grid done s)
    (horder : (done ++ cells).Pairwise fun e e' => e ≠ e' ∧ (e.2 = e'.2 → e.1 < e'.1)) :
    Written grid (done ++ cells) (writeAll grid cells s) := by
  induction cells generalizing done s with
  | nil => rwa [List.append_nil]
  | cons e rest ih =>
    obtain ⟨c, slot⟩ := e
    have hbefore := fun e' he' => (List.pairwise_append.mp horder).2.2 e' he' (c, slot)
      List.mem_cons_self
    have hnext : Next done c slot := by
      constructor
      · exact fun hin => (hbefore _ hin).1 rfl
      · exact fun c' hin => (hbefore _ hin).2 rfl
    have hassoc : done ++ (c, slot) :: rest = (done ++ [(c, slot)]) ++ rest := by simp
    rw [hassoc] at horder ⊢
    rw [writeAll]
    cases hai : grid c slot with
    | none => exact ih _ (h.skip hai) horder
    | some ai => exact ih _ (h.step hnext hai) horder

/-- Class by class, slot by slot. -/
theorem cells_order (P : Problem) : (P.allClasses.product allSlots).Pairwise fun e e' =>
    e ≠ e' ∧ (e.2 = e'.2 → e.1 < e'.1) := by
  have hrow : ∀ c : P.Cls, (allSlots.map (Prod.mk c)).Pairwise fun e e' =>
      e ≠ e' ∧ (e.2 = e'.2 → e.1 < e'.1) := by
    intro c
    rw [List.pairwise_map]
    refine (List.pairwise_lt_finRange 60).imp ?_
    intro slot slot' hlt
    have hne : slot ≠ slot' := ne_of_lt hlt
    exact ⟨fun heq => hne (congrArg Prod.snd heq), fun heq => absurd heq hne⟩
  have hblocks : ∀ cs : List P.Cls, cs.Pairwise (· < ·) → (cs.product allSlots).Pairwise fun e e' =>
      e ≠ e' ∧ (e.2 = e'.2 → e.1 < e'.1) := by
    intro cs hcs
    induction cs with
    | nil => exact .nil
    | cons c cs ih =>
      obtain ⟨hlt, hrest⟩ := List.pairwise_cons.mp hcs
      have hcons : (c :: cs).product allSlots = allSlots.map (Prod.mk c) ++ cs.product allSlots :=
        List.flatMap_cons
      rw [hcons, List.pairwise_append]
      refine ⟨hrow c, ih hrest, ?_⟩
      intro e he e' he'
      obtain ⟨slot, _, rfl⟩ := List.mem_map.mp he
      have hc' := hlt e'.1 (List.mem_product.mp he').1
      exact ⟨fun heq => absurd (congrArg Prod.fst heq) (ne_of_lt hc'), fun _ => hc'⟩
  exact hblocks _ (List.pairwise_lt_finRange _)

theorem writeAll_init (P : Problem) (grid : P.Grid) (deferMin : Bool) :
    Written grid (P.allClasses.product allSlots)
      (writeAll grid (P.allClasses.product allSlots) (init P deferMin)) := by
  have hstart : Written grid [] (init P deferMin) := by
    constructor
    · exact Consistent.init P deferMin
    · exact fun _ _ => rfl
    · exact fun _ _ _ => rfl
    · exact fun _ _ _ hc => absurd hc (by simp [init, Cells.empty])
    · exact fun _ _ hin => absurd hin List.not_mem_nil
  exact writeAll_written _ [] hstart (cells_order P)

/-! ### The overlap loop has nothing to do -/

theorem dropOwners_eq {s : State P} (h : P.Exclusive s.grid) (t : P.Tch) (slot : Slot) :
    s.dropOwners t slot = s := by
  have hone : (s.owners t slot).tail = [] := by
    cases howners : s.owners t slot with
    | nil => rfl
    | cons c rest =>
      cases rest with
      | nil => rfl
      | cons d rest =>
        have hmem : ∀ e ∈ s.owners t slot, t ∈ P.members (s.grid e slot) :=
          fun e he => of_decide_eq_true (List.mem_filter.mp he).2
        rw [howners] at hmem
        have heq : c = d := h c d slot t (hmem c List.mem_cons_self) (hmem d (by simp))
        have hnodup : (s.owners t slot).Nodup := (List.nodup_finRange _).filter _
        rw [howners, heq] at hnodup
        simp at hnodup
  rw [dropOwners, hone]
  rfl

theorem dropOverlaps_eq {s : State P} (h : P.Exclusive s.grid) : s.dropOverlaps = s := by
  have hall : ∀ cells : List (P.Tch × Slot),
      cells.foldl (fun s e => s.dropOwners e.1 e.2) s = s := by
    intro cells
    induction cells with
    | nil => rfl
    | cons e cells ih => rw [List.foldl_cons, dropOwners_eq h, ih]
  exact hall _

theorem lockFixed_grid (s : State P) : s.lockFixed.grid = s.grid := by
  have hall : ∀ (cells : List (P.Cls × Slot × P.Asg)) (s : State P),
      (cells.foldl (fun s e => s.lockCell e.1 e.2.1) s).grid = s.grid := by
    intro cells
    induction cells with
    | nil => exact fun _ => rfl
    | cons e cells ih => exact fun s => ih (s.lockCell e.1 e.2.1)
  exact hall _ s

theorem lenientState_grid (P : Problem) (grid : P.Grid) : (lenientState P grid).grid =
    (writeAll grid (P.allClasses.product allSlots) (init P true)).grid := by
  have hw := writeAll_init P grid true
  have hgrid : (lenientState P grid).grid =
      ((writeAll grid (P.allClasses.product allSlots) (init P true)).dropOverlaps).lockFixed.grid := rfl
  rw [hgrid, lockFixed_grid, dropOverlaps_eq hw.consistent.sound.loadable.exclusive]

/-! ### What is kept -/

/-- A loaded schedule keeps the fixed lessons of its grid, and drops only lessons that clash with a
kept one. -/
structure KeepsFixed (grid : P.Grid) (s : State P) : Prop where
  fixed : ∀ e ∈ P.fixedCells, s.grid e.1 e.2.1 = some e.2.2
  exclusive : P.Exclusive s.grid
  drops : ∀ c slot, s.grid c slot = grid c slot ∨ s.grid c slot = none
  clash : ∀ c slot ai, grid c slot = some ai → s.grid c slot = none →
    ∃ c' bi, s.grid c' slot = some bi ∧ Clash ai bi

/-- First come, first served chooses every fixed cell, and a lesson that does not fit its cell
clashes with a chosen one. -/
def FixedComeFirst (grid : P.Grid) : Prop :=
  ∃ chosen, FirstCome grid chosen ∧ (∀ e ∈ P.fixedCells, chosen e.1 e.2.1) ∧
    ∀ c slot ai, grid c slot = some ai → ¬ FitsCell c slot ai →
      ∃ c' bi, chosen c' slot ∧ grid c' slot = some bi ∧ Clash ai bi

section Kept
variable {grid : P.Grid} {s : State P}

theorem Written.mem_all (c : P.Cls) (slot : Slot) : (c, slot) ∈ P.allClasses.product allSlots :=
  List.mem_product.mpr ⟨List.mem_finRange c, mem_allSlots slot⟩

theorem Written.firstCome (h : Written grid (P.allClasses.product allSlots) s) :
    FirstCome grid fun c slot => s.grid c slot ≠ none := by
  intro c slot
  refine (h.first c slot (mem_all c slot)).trans ?_
  constructor
  · rintro ⟨ai, hai, hfit, hfirst⟩
    refine ⟨ai, hai, hfit, fun c' hlt hkept bi hb => ?_⟩
    obtain ⟨b, hb'⟩ := Option.ne_none_iff_exists'.mp hkept
    have heq := h.sub c' slot b hb'
    rw [hb] at heq
    cases heq
    exact hfirst c' hlt bi hb'
  · rintro ⟨ai, hai, hfit, hfirst⟩
    refine ⟨ai, hai, hfit, fun c' hlt bi hb => ?_⟩
    have hkept : s.grid c' slot ≠ none := by
      rw [hb]
      exact Option.some_ne_none bi
    exact hfirst c' hlt hkept bi (h.sub c' slot bi hb)

/-- A dropped lesson that fits its cell clashes with a kept lesson of an earlier class. -/
theorem Written.clash_of_fits (h : Written grid (P.allClasses.product allSlots) s) {c : P.Cls}
    {slot : Slot} {ai : P.Asg} (hai : grid c slot = some ai) (hfit : FitsCell c slot ai)
    (hdrop : s.grid c slot = none) : ∃ c' bi, s.grid c' slot = some bi ∧ Clash ai bi := by
  by_contra hnone
  apply (h.first c slot (mem_all c slot)).mpr _ hdrop
  exact ⟨ai, hai, hfit, fun c' _ bi hb hclash => hnone ⟨c', bi, hb, hclash⟩⟩

theorem Written.keepsFixed_iff (h : Written grid (P.allClasses.product allSlots) s)
    (hfixed : ∀ e ∈ P.fixedCells, grid e.1 e.2.1 = some e.2.2) :
    KeepsFixed grid s ↔ FixedComeFirst grid := by
  constructor
  · intro hk
    refine ⟨_, h.firstCome, fun e he => ?_, fun c slot ai hai hnot => ?_⟩
    · rw [hk.fixed e he]
      exact Option.some_ne_none _
    · have hdrop : s.grid c slot = none := by
        cases hc : s.grid c slot with
        | none => rfl
        | some bi =>
          have heq := h.sub c slot bi hc
          rw [hai] at heq
          cases heq
          exact absurd (h.consistent.sound.cells c slot ai hc) hnot
      obtain ⟨c', bi, hb, hclash⟩ := hk.clash c slot ai hai hdrop
      exact ⟨c', bi, by rw [hb]; exact Option.some_ne_none bi, h.sub c' slot bi hb, hclash⟩
  · rintro ⟨chosen, hchosen, hfix, hunfit⟩
    have hsame : ∀ c slot, s.grid c slot ≠ none ↔ chosen c slot :=
      fun c slot => h.firstCome.unique hchosen c slot
    have hkept : ∀ c slot ai, chosen c slot → grid c slot = some ai → s.grid c slot = some ai := by
      intro c slot ai hch hai
      obtain ⟨b, hb⟩ := Option.ne_none_iff_exists'.mp ((hsame c slot).mpr hch)
      have heq := h.sub c slot b hb
      rw [hai] at heq
      rw [hb, heq]
    constructor
    · exact fun e he => hkept _ _ _ (hfix e he) (hfixed e he)
    · exact h.consistent.sound.loadable.exclusive
    · intro c slot
      cases hc : s.grid c slot with
      | none => exact Or.inr rfl
      | some ai => exact Or.inl (h.sub c slot ai hc).symm
    · intro c slot ai hai hdrop
      by_cases hfit : FitsCell c slot ai
      · exact h.clash_of_fits hai hfit hdrop
      · obtain ⟨c', bi, hch, hb, hclash⟩ := hunfit c slot ai hai hfit
        exact ⟨c', bi, hkept c' slot bi hch hb, hclash⟩

theorem KeepsFixed.of_grid {s' : State P} (h : KeepsFixed grid s) (hg : s'.grid = s.grid) :
    KeepsFixed grid s' :=
  ⟨hg ▸ h.fixed, hg ▸ h.exclusive, hg ▸ h.drops, hg ▸ h.clash⟩

end Kept

/-- A conflicted grid keeps its fixed lessons, and loses only to kept ones, exactly when its fixed
lessons come first. -/
theorem load_keepsFixed_iff (P : Problem) (grid : P.Grid)
    (hfixed : ∀ e ∈ P.fixedCells, grid e.1 e.2.1 = some e.2.2) :
    (KeepsFixed grid (lenientState P grid) ↔ FixedComeFirst grid) ∧
      ∀ penalty > 0, ((∃ s, (loadState P penalty grid).1 = some s ∧ KeepsFixed grid s) ↔
        FixedComeFirst grid) := by
  have hiff : KeepsFixed grid (lenientState P grid) ↔ FixedComeFirst grid := by
    rw [← (writeAll_init P grid true).keepsFixed_iff hfixed]
    have hgrid := lenientState_grid P grid
    exact ⟨fun h => h.of_grid hgrid.symm, fun h => h.of_grid hgrid⟩
  refine ⟨hiff, fun penalty hpos => ?_⟩
  rw [loadState, if_pos hpos, ← hiff]
  constructor
  · rintro ⟨s, hs, hk⟩
    cases hs
    exact hk
  · exact fun hk => ⟨_, rfl, hk⟩

/-! ### A fixed lesson that is lost -/

/-- One teacher, two classes, one lesson each; the lesson of the second class is fixed. -/
def sharedTeacher : Problem where
  numClasses := 2
  numTeachers := 1
  numSubjects := 1
  numAssignments := 2
  className := ![("6A" : String), "6B"]
  teacherName := fun _ => "GV1"
  subjectName := fun _ => "Toan"
  aClass := id
  aSubject := fun _ => 0
  aTeacher := fun _ => some 0
  aTeachers := fun _ => [0]
  aRoom := fun _ => ""
  aPeriods := fun _ => 1
  aCap := fun _ => 1
  aAllowed := fun _ _ => true
  aRule := fun _ => none
  aLoc := fun _ => none
  teacherRules := fun _ => none
  teacherMust := fun _ => []
  teacherLocRules := fun _ => false
  noSameSession := fun _ => []
  noSameDay := fun _ => []
  fixedCells := [(1, 0, 1)]
  fixedMask := fun c slot => decide (c = 1 ∧ slot = 0)
  timeLimitRules := []
  subjectGroups := fun _ => []
  groupRuleKeys := fun _ _ => none
  rawGroups := fun _ _ => []

/-- Each class has its lesson at one slot. -/
def sharedTeacher.lessonsAt (slotA slotB : Slot) : sharedTeacher.Grid :=
  fun c slot => if slot = ![slotA, slotB] c then some c else none

/-- Apart in time, the fixed lesson comes first, and both lessons are loaded. -/
theorem sharedTeacher_apart :
    FixedComeFirst (P := sharedTeacher) (sharedTeacher.lessonsAt 1 0) ∧
      KeepsFixed (P := sharedTeacher) (sharedTeacher.lessonsAt 1 0)
        (lenientState sharedTeacher (sharedTeacher.lessonsAt 1 0)) := by
  have hfirst : FixedComeFirst (P := sharedTeacher) (sharedTeacher.lessonsAt 1 0) := by
    refine ⟨fun c slot => sharedTeacher.lessonsAt 1 0 c slot ≠ none, ?_, by decide +kernel, ?_⟩
    · unfold FirstCome Clash FitsCell
      decide +kernel
    · intro c slot ai hai hnot
      refine absurd ⟨?_, rfl⟩ hnot
      unfold sharedTeacher.lessonsAt at hai
      by_cases hslot : slot = ![(1 : Slot), 0] c
      · rw [if_pos hslot] at hai
        exact (Option.some.inj hai).symm
      · rw [if_neg hslot] at hai
        cases hai
  exact ⟨hfirst, (load_keepsFixed_iff sharedTeacher (sharedTeacher.lessonsAt 1 0)
    (by decide +kernel)).1.mpr hfirst⟩

/-- The fixed lesson of the second class is dropped for the lesson of the first. -/
theorem sharedTeacher_loses_fixed :
    ¬ KeepsFixed (P := sharedTeacher) (sharedTeacher.lessonsAt 0 0)
      (lenientState sharedTeacher (sharedTeacher.lessonsAt 0 0)) := by
  intro h
  have hgrid := lenientState_grid sharedTeacher (sharedTeacher.lessonsAt 0 0)
  obtain ⟨chosen, hchosen, hfix, _⟩ := ((writeAll_init sharedTeacher _ true).keepsFixed_iff
    (by decide +kernel)).mp (h.of_grid hgrid.symm)
  have hfixed : chosen (1 : Fin 2) 0 := hfix ((1 : Fin 2), 0, (1 : Fin 2)) List.mem_cons_self
  have hfirst : chosen (0 : Fin 2) 0 :=
    (hchosen (0 : Fin 2) 0).mpr ⟨(0 : Fin 2), rfl, ⟨rfl, rfl⟩, fun c hc => absurd hc (Nat.not_lt_zero c.val)⟩
  obtain ⟨ai, hai, _, hfree⟩ := (hchosen (1 : Fin 2) 0).mp hfixed
  cases hai
  exact hfree (0 : Fin 2) (by decide) hfirst (0 : Fin 2) rfl
    ⟨(0 : Fin 1), List.mem_singleton_self _, List.mem_singleton_self _⟩

end State

end TkbCherry.Engine
