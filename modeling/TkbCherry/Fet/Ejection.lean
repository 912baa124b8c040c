import TkbCherry.Fet.Swap

/-! The ejection chain undoes a failed attempt by hand; together with `randomSwap`
it leaves the placement as it was, or loses nothing and places the activity. -/

namespace TkbCherry.Fet
open Booking
set_option autoImplicit false
set_option linter.unusedSectionVars false

variable {κ : Type} [DecidableEq κ]

/-- How an attempt over the bare grids ends. -/
structure Settled (d : Desk κ) (set : Settings κ) (base : Row κ → Nat → Cell) (g : Grids κ)
    (a : Nat) (r : Grids κ × Option Chain) : Prop where
  booked : Booked d base r.1
  grows : Grows g r.1
  undone : r.2 = none → r.1.actPlacement = g.actPlacement
  kept : ∀ kept, r.2 = some kept → Performs d set base g.actPlacement kept r.1.actPlacement ∧
    (∀ b, g.actPlacement b ≠ none → r.1.actPlacement b ≠ none) ∧ r.1.actPlacement a ≠ none

variable {d : Desk κ} {set : Settings κ} {base : Row κ → Nat → Cell}

section Attempts
variable {g g' : Grids κ} {a : Nat} {act : Act κ}

theorem Settled.fail (h : Booked d base g) : Settled d set base g a (g, none) :=
  ⟨h, Grows.refl g, fun _ => rfl, by simp⟩

/-- After a failed attempt the next one starts from the same placement. -/
theorem Settled.next {r : Grids κ × Option Chain} (h : Settled d set base g a (g', none))
    (h' : Settled d set base g' a r) : Settled d set base g a r := by
  have hp : g'.actPlacement = g.actPlacement := h.undone rfl
  obtain ⟨hb, hgr, hun, hk⟩ := h'
  rw [hp] at hun hk
  exact ⟨hb, h.grows.trans hgr, hun, hk⟩

theorem direct_settled (hg : Ground d base) (h : Booked d base g)
    (ha : d.activities[a]? = some act) (slot : Nat) :
    Settled d set base g a (direct d set a act g slot) := by
  by_cases hc : getConflictsForSlot d set g a act slot = some []
  · have hfit : Fits d set base g.actPlacement a slot [] := ⟨g, act, h, rfl, ha, hc⟩
    obtain ⟨hb, hplan⟩ := h.place hg ha (hfit.legal hg)
    rw [direct, if_pos hc]
    refine ⟨hb, grows_place d g a slot, by simp, ?_⟩
    intro kept hk
    cases hk
    rw [hplan]
    refine ⟨.cons hfit (.nil _), ?_, by simp⟩
    intro b hb
    exact Fits.keeps [] hb (by simp)
  · rw [direct, if_neg hc]
    exact .fail h

theorem firstSlot_settled {attempt : Grids κ → Nat → Grids κ × Option Chain}
    (hstep : ∀ g', Booked d base g' → g'.actPlacement = g.actPlacement → ∀ s,
      Settled d set base g' a (attempt g' s))
    (l : List Nat) (h : Booked d base g) :
    Settled d set base g a (firstSlot attempt l g) := by
  induction l generalizing g with
  | nil => exact .fail h
  | cons s l ih =>
    have hs := hstep g h rfl s
    rcases hat : attempt g s with ⟨g', res⟩
    rw [hat] at hs
    cases res with
    | some kept =>
      have heq : firstSlot attempt (s :: l) g = (g', some kept) := by rw [firstSlot, hat]
      rw [heq]
      exact hs
    | none =>
      have heq : firstSlot attempt (s :: l) g = firstSlot attempt l g' := by rw [firstSlot, hat]
      have hp : g'.actPlacement = g.actPlacement := hs.undone rfl
      rw [heq]
      apply hs.next
      apply ih _ hs.booked
      intro g'' hb hp'
      exact hstep g'' hb (hp'.trans hp)

/-- One link of the chain: if the displaced activity cannot be placed by `next`,
taking the newcomer out and putting the other back restores the placement. -/
theorem eject_settled (hg : Ground d base) {allowed : Nat → Act κ → Bool}
    {next : Nat → Act κ → Nat → Grids κ → Grids κ × Option Chain}
    (hnext : ∀ c cAct old g', Booked d base g' → g'.actPlacement c = none →
      d.activities[c]? = some cAct → Settled d set base g' c (next c cAct old g'))
    (h : Booked d base g) (hn : g.actPlacement a = none) (ha : d.activities[a]? = some act)
    (slot : Nat) :
    Settled d set base g a (eject d set allowed next a act g slot) := by
  cases hc : getConflictsForSlot d set g a act slot with
  | none =>
    have heq : eject d set allowed next a act g slot = (g, none) := by simp [eject, hc]
    exact heq ▸ .fail h
  | some confs =>
    have hfit : Fits d set base g.actPlacement a slot confs := ⟨g, act, h, rfl, ha, hc⟩
    have fails (hne : ∀ c, confs ≠ [c]) : Settled d set base g a
        (eject d set allowed next a act g slot) := by
      have heq : eject d set allowed next a act g slot = (g, none) := by
        cases confs with
        | nil => simp [eject, hc]
        | cons c rest =>
          cases rest with
          | nil => exact absurd rfl (hne c)
          | cons c' rest => simp [eject, hc]
      exact heq ▸ .fail h
    by_cases hone : ∃ c, confs = [c]
    · obtain ⟨c, rfl⟩ := hone
      have hca : c ≠ a := ((hfit.mem_iff hg).mp List.mem_cons_self).1
      obtain ⟨old, hold⟩ := Option.ne_none_iff_exists'.mp (hfit.placed hg List.mem_cons_self)
      obtain ⟨cAct, hcAct⟩ := h.exists_act hold
      by_cases hall : cAct.isFixed || !allowed c cAct
      · have heq : eject d set allowed next a act g slot = (g, none) := by
          rw [eject, hc]
          simp only [hcAct, hold]
          exact if_pos hall
        exact heq ▸ .fail h
      obtain ⟨hu, hup⟩ := h.unplace hg c
      have hl : d.Legal base (put (unplaceActivity d g c).actPlacement a slot) := by
        rw [hup]
        exact hfit.legal hg
      obtain ⟨hb, hplan⟩ := hu.place hg ha hl
      rw [hup] at hplan
      let g₁ := placeActivityDirect d (unplaceActivity d g c) a slot
      have hg₁ : Grows g g₁ := (grows_unplace d g c).trans (grows_place d _ a slot)
      have hs := hnext c cAct old g₁ hb (by rw [hplan, put_other hca, take_self]) hcAct
      rcases hnx : next c cAct old g₁ with ⟨g₂, res⟩
      rw [hnx] at hs
      cases res with
      | some kept =>
        have heq : eject d set allowed next a act g slot = (g₂, some ((a, slot) :: kept)) := by
          rw [eject, hc]
          simp only [hcAct, hold]
          rw [if_neg hall, hnx]
        obtain ⟨hperf, hkeep, hcp⟩ := hs.kept kept rfl
        rw [hplan] at hperf hkeep
        rw [heq]
        refine ⟨hs.booked, hg₁.trans hs.grows, by simp, ?_⟩
        intro kept' hk
        cases hk
        refine ⟨.cons hfit hperf, ?_, hkeep a (by simp)⟩
        intro b hb
        by_cases hbc : b = c
        · exact hbc ▸ hcp
        · exact hkeep b (Fits.keeps [c] hb (by simpa using hbc))
      | none =>
        have heq : eject d set allowed next a act g slot =
            (placeActivityDirect d (unplaceActivity d g₂ a) c old, none) := by
          rw [eject, hc]
          simp only [hcAct, hold]
          rw [if_neg hall, hnx]
        have hp₂ : g₂.actPlacement = put (take g.actPlacement c) a slot :=
          (hs.undone rfl).trans hplan
        obtain ⟨hu₂, hup₂⟩ := hs.booked.unplace hg a
        have hout : (unplaceActivity d g₂ a).actPlacement = take g.actPlacement c := by
          rw [hup₂, hp₂]
          exact take_put (by rw [take_other hca.symm, hn])
        have hback : put (unplaceActivity d g₂ a).actPlacement c old = g.actPlacement := by
          rw [hout, put_of_take hold]
        obtain ⟨hb₃, hplan₃⟩ := hu₂.place hg hcAct (hback.symm ▸ h.legal)
        rw [heq]
        refine ⟨hb₃, ?_, fun _ => hplan₃.trans hback, by simp⟩
        exact hg₁.trans (hs.grows.trans ((grows_unplace d g₂ a).trans (grows_place d _ c old)))
    · exact fails (not_exists.mp hone)

theorem relocate_settled (set : Settings κ) (hg : Ground d base) (h : Booked d base g)
    (ha : d.activities[a]? = some act) (old : Nat) :
    Settled d set base g a (relocate d set a act old g) :=
  firstSlot_settled (fun _ hb _ s => direct_settled hg hb ha s) _ h

theorem relocateTwice_settled (set : Settings κ) (hg : Ground d base) (h : Booked d base g)
    (hn : g.actPlacement a = none) (ha : d.activities[a]? = some act) (root old : Nat) :
    Settled d set base g a (relocateTwice d set root a act old g) := by
  apply firstSlot_settled _ _ h
  intro g' hb hp s
  apply eject_settled hg _ hb (hp ▸ hn) ha s
  intro c cAct old' g'' hb' _ hc
  exact relocate_settled set hg hb' hc old'

theorem relocateAcross_settled (set : Settings κ) (hg : Ground d base) (h : Booked d base g)
    (hn : g.actPlacement a = none) (ha : d.activities[a]? = some act) (old : Nat) :
    Settled d set base g a (relocateAcross d set a act old g) := by
  apply firstSlot_settled _ _ h
  intro g' hb hp s
  by_cases hfree : g'.read (.lop act.classId) s ≠ .free
  · rw [if_pos hfree]
    exact .fail hb
  · rw [if_neg hfree]
    apply eject_settled hg _ hb (hp ▸ hn) ha s
    intro c cAct old' g'' hb' _ hc
    exact relocate_settled set hg hb' hc old'

/-- One round over the shuffled slots, with any way of placing the displaced activity. -/
theorem round_settled (allowed : Nat → Act κ → Bool) (hg : Ground d base)
    {next : Nat → Act κ → Nat → Grids κ → Grids κ × Option Chain}
    (hnext : ∀ c cAct old g', Booked d base g' → g'.actPlacement c = none →
      d.activities[c]? = some cAct → Settled d set base g' c (next c cAct old g'))
    (h : Booked d base g) (hn : g.actPlacement a = none) (ha : d.activities[a]? = some act)
    (slots : List Nat) :
    Settled d set base g a (firstSlot (eject d set allowed next a act) slots g) :=
  firstSlot_settled (fun _ hb hp s => eject_settled hg hnext hb (hp ▸ hn) ha s) slots h

theorem ejectionRounds_settled (hg : Ground d base) (h : Booked d base g)
    (hn : g.actPlacement a = none) (ha : d.activities[a]? = some act) (slots : List Nat) :
    Settled d set base g a (ejectionRounds d set a act slots g) := by
  have h₁ : Settled d set base g a (firstSlot (direct d set a act) slots g) :=
    firstSlot_settled (fun _ hb _ s => direct_settled hg hb ha s) slots h
  rcases e₁ : firstSlot (direct d set a act) slots g with ⟨g₁, r₁⟩
  rw [e₁] at h₁
  cases r₁ with
  | some kept => rw [ejectionRounds, e₁]; exact h₁
  | none =>
    have hn₁ : g₁.actPlacement a = none := by rw [h₁.undone rfl]; exact hn
    have h₂ := round_settled (fun _ _ => true) hg
      (fun c cAct old g' hb _ hc => relocate_settled set hg hb hc old)
      h₁.booked hn₁ ha slots
    rcases e₂ : firstSlot (eject d set (fun _ _ => true) (relocate d set) a act) slots g₁
      with ⟨g₂, r₂⟩
    rw [e₂] at h₂
    cases r₂ with
    | some kept => rw [ejectionRounds, e₁]; simp only [e₂]; exact h₁.next h₂
    | none =>
      have hn₂ : g₂.actPlacement a = none := by rw [h₂.undone rfl]; exact hn₁
      have h₃ := round_settled (fun _ _ => true) hg
        (fun c cAct old g' hb hnc hc => relocateTwice_settled set hg hb hnc hc a old)
        h₂.booked hn₂ ha slots
      rcases e₃ : firstSlot (eject d set (fun _ _ => true) (relocateTwice d set a) a act)
        slots g₂ with ⟨g₃, r₃⟩
      rw [e₃] at h₃
      cases r₃ with
      | some kept =>
        rw [ejectionRounds, e₁]
        simp only [e₂, e₃]
        exact h₁.next (h₂.next h₃)
      | none =>
        have hn₃ : g₃.actPlacement a = none := by rw [h₃.undone rfl]; exact hn₂
        have h₄ := round_settled (fun _ _ => true) hg
          (fun c cAct old g' hb hnc hc => relocateAcross_settled set hg hb hnc hc old)
          h₃.booked hn₃ ha slots
        rw [ejectionRounds, e₁]
        simp only [e₂, e₃]
        exact h₁.next (h₂.next (h₃.next h₄))

end Attempts

/-- The grids hold exactly the placed activities, and no branch is open. -/
structure Balanced (d : Desk κ) (base : Row κ → Nat → Cell) (st : State κ) : Prop where
  booked : Booked d base st.grids
  closed : st.swappedInBranch = []

/-- How a top-level search for an activity ends. A row made for an attempt that was
undone may stay behind, with every cell free. -/
structure EndsWell (d : Desk κ) (base : Row κ → Nat → Cell) (st : State κ) (a : Nat)
    (r : State κ × Option Chain) : Prop where
  balanced : Balanced d base r.1
  placed : r.2.isSome → (∀ b, st.plan b ≠ none → r.1.plan b ≠ none) ∧ r.1.plan a ≠ none
  placement : r.2 = none → r.1.plan = st.plan
  cells : r.2 = none → SameCells st.grids r.1.grids
  rows : r.2 = none → ∀ k row, st.grids.rows k = some row → r.1.grids.rows k = some row
  fresh : r.2 = none → ∀ k row, st.grids.rows k = none → r.1.grids.rows k = some row →
    ∀ s, row s = .free

theorem Settled.endsWell {st : State κ} {a : Nat} {r : State κ × Option Chain}
    (h : Booked d base st.grids) (hs : Settled d set base st.grids a (r.1.grids, r.2))
    (hc : r.1.swappedInBranch = []) : EndsWell d base st a r := by
  have same (hn : r.2 = none) : SameCells st.grids r.1.grids :=
    h.same_cells hs.booked (hs.undone hn)
  refine ⟨⟨hs.booked, hc⟩, ?_, hs.undone, same, ?_, ?_⟩
  · intro hsome
    obtain ⟨kept, hk⟩ := Option.isSome_iff_exists.mp hsome
    exact (hs.kept kept hk).2
  · intro hn k row hrow
    exact row_eq (same hn) hs.grows hrow
  · intro hn k row hrow hrow' s
    exact row_free (same hn) hrow hrow' s

theorem Outcome.settled {st : State κ} {a : Nat} {r : State κ × Option Chain}
    (h : Outcome d set base st a r) : Settled d set base st.grids a (r.1.grids, r.2) :=
  ⟨h.moved.booked, h.moved.grows, fun hn => (h.undone hn).1, h.kept⟩

theorem randomSwap_settled (set : Settings κ) (hg : Ground d base) (st : State κ) (h : Booked d base st.grids)
    (a : Nat) (restrictSlots : Option (List Nat)) :
    Settled d set base st.grids a
      ((randomSwap d set st a 0 restrictSlots).1.grids, (randomSwap d set st a 0 restrictSlots).2) ∧
    (randomSwap d set st a 0 restrictSlots).1.swappedInBranch = st.swappedInBranch := by
  obtain ⟨st₀, h1, h2, _, ho⟩ := swapWithin_outcome set hg MAX_RECURSION_LEVEL
    (Nat.le_refl _) st a restrictSlots h
  rw [← h1, ← h2]
  exact ⟨ho.settled, ho.swapped⟩

theorem tryEjectionChain_settled (set : Settings κ) (hg : Ground d base) (st : State κ)
    (h : Booked d base st.grids) {a : Nat} (ha : a < d.activities.length) :
    Settled d set base st.grids a
      ((tryEjectionChain d set st a).1.grids, (tryEjectionChain d set st a).2) ∧
    (tryEjectionChain d set st a).1.swappedInBranch = st.swappedInBranch := by
  have hact := List.getElem?_eq_getElem ha
  by_cases hp : (st.grids.actPlacement a).isSome
  · have heq : tryEjectionChain d set st a = (st, some []) := by
      simp [tryEjectionChain, hact, hp]
    rw [heq]
    refine ⟨⟨h, Grows.refl _, by simp, ?_⟩, rfl⟩
    intro kept hk
    cases hk
    exact ⟨.nil _, fun _ hb => hb, Option.isSome_iff_ne_none.mp hp⟩
  · have hn : st.grids.actPlacement a = none := Option.not_isSome_iff_eq_none.mp hp
    rcases hsh : shuffle d st (List.range TOTAL_SLOTS) with ⟨slots, st'⟩
    have hst : st' = { st with drawn := st.drawn + ((List.range TOTAL_SLOTS).length - 1) } :=
      (congrArg Prod.snd hsh).symm
    have hgr : st'.grids = st.grids := by rw [hst]
    have hsw : st'.swappedInBranch = st.swappedInBranch := by rw [hst]
    have heq : tryEjectionChain d set st a =
        ({ st' with grids := (ejectionRounds d set a d.activities[a] slots st.grids).1 },
          (ejectionRounds d set a d.activities[a] slots st.grids).2) := by
      simp [tryEjectionChain, hact, hp, hsh, hgr]
    rw [heq]
    exact ⟨ejectionRounds_settled hg h hn hact slots, hsw⟩

/-- Both searches, from every balanced state, with any draws, limits and clock. -/
theorem searches_end_well (d : Desk κ) (set : Settings κ) (base : Row κ → Nat → Cell)
    (hg : Ground d base) (st : State κ) (h : Balanced d base st) (a : Nat) :
    (∀ restrictSlots, EndsWell d base st a (randomSwap d set st a 0 restrictSlots)) ∧
      (a < d.activities.length → EndsWell d base st a (tryEjectionChain d set st a)) := by
  constructor
  · intro restrictSlots
    obtain ⟨hs, hsw⟩ := randomSwap_settled set hg st h.booked a restrictSlots
    exact hs.endsWell h.booked (hsw.trans h.closed)
  · intro ha
    obtain ⟨hs, hsw⟩ := tryEjectionChain_settled set hg st h.booked ha
    exact hs.endsWell h.booked (hsw.trans h.closed)

section Start

/-- The grids before anything is placed; `made` says which rows there are. -/
def emptyGrids (base : Row κ → Nat → Cell) (made : Row κ → Bool) : Grids κ where
  actPlacement := fun _ => none
  rows := fun r => if made r then some (base r) else none

theorem emptyGrids_booked {base : Row κ → Nat → Cell} {made : Row κ → Bool}
    (hmade : ∀ act ∈ d.activities, made (.lop act.classId) = true)
    (hfree : ∀ r, made r = false → ∀ s, base r s = .free) :
    Booked d base (emptyGrids base made) where
  legal := by
    constructor
    · intro a b x ha
      obtain ⟨s, hs, _⟩ := ha
      cases hs
    · intro a x ha
      obtain ⟨s, hs, _⟩ := ha
      cases hs
  known := fun a ha => absurd rfl ha
  held := by
    intro a x ha
    obtain ⟨s, hs, _⟩ := ha
    cases hs
  bare := by
    intro x _
    by_cases hm : made x.1
    · simp [emptyGrids, Grids.read, hm]
    · simp [emptyGrids, Grids.read, hm, hfree x.1 (by simpa using hm)]
  made := fun act hact => by simp [emptyGrids, hmade act hact]

def freshState (g : Grids κ) : State κ where
  grids := g
  moveJournal := []
  swappedInBranch := []
  tabuMap := fun _ _ => none
  nCalls := 0
  currentStep := 0
  deadlineHit := false
  drawn := 0
  readings := 0

end Start

section Leftover

/-- One class with one usable period and two lessons of different teachers. -/
def tightDesk : Desk Nat where
  activities :=
    [⟨0, 10, 10, [1], none, none, 1, false⟩, ⟨0, 11, 11, [2], none, none, 1, false⟩]
  offSlots := fun _ s => s != 0
  fixedSlots := fun _ _ => none
  teacherOffSlots := fun _ _ => false
  roomOffSlots := fun _ _ => false
  subjectOffSlots := fun _ _ => false
  normalizeMonName := fun m => m
  getCanonMonKey := fun m => m
  getSubjectSessionLimit := fun _ => 2
  draw := fun _ => 0
  late := fun _ => false

def solveSettings : Settings Nat where
  strictFetGaps := true
  minTwoGuardActive := false
  teacherWeeklyLoad := none
  solveDeadlineAt := false
  limitCalls := 8000

/-- Empty grids of a desk with no fixed cells beside those of its classes. -/
def plainBase (d : Desk κ) : Row κ → Nat → Cell
  | .lop c, s => cleared d (.lop c) s
  | .gv _, _ => .free
  | .phong _, _ => .free

theorem plainBase_ground (d : Desk κ) : Ground d (plainBase d) where
  lop := fun _ _ => rfl
  empty := by
    intro r s a
    cases r with
    | lop c => exact cleared_ne_act d (.lop c) s a
    | gv t => simp [plainBase]
    | phong k => simp [plainBase]

def isLop : Row κ → Bool
  | .lop _ => true
  | _ => false

/-- The second lesson has taken the only period. -/
def tightState : State Nat :=
  (randomSwap tightDesk solveSettings
    (freshState (emptyGrids (plainBase tightDesk) isLop)) 1 0 none).1

theorem tight_empty_booked :
    Booked tightDesk (plainBase tightDesk) (emptyGrids (plainBase tightDesk) isLop) := by
  apply emptyGrids_booked
  · intro act _
    rfl
  · intro r hr s
    cases r with
    | lop c => cases hr
    | gv t => rfl
    | phong k => rfl

theorem tightState_balanced : Balanced tightDesk (plainBase tightDesk) tightState := by
  obtain ⟨hs, hsw⟩ := randomSwap_settled solveSettings (plainBase_ground tightDesk)
    (freshState (emptyGrids (plainBase tightDesk) isLop)) tight_empty_booked 1 none
  exact ⟨hs.booked, hsw⟩

/-- A swap that fails leaves the row it made for the first teacher behind. -/
theorem failed_swap_leaves_row :
    Ground tightDesk (plainBase tightDesk) ∧ Balanced tightDesk (plainBase tightDesk) tightState ∧
      (randomSwap tightDesk solveSettings tightState 0 0 none).2 = none ∧
      (randomSwap tightDesk solveSettings tightState 0 0 none).1.grids ≠ tightState.grids := by
  refine ⟨plainBase_ground _, tightState_balanced, by decide +kernel, ?_⟩
  intro heq
  have hrow : ((randomSwap tightDesk solveSettings tightState 0 0 none).1.grids.rows (.gv 1)).isSome
      = true := by decide +kernel
  have hnone : (tightState.grids.rows (.gv 1)).isSome = false := by decide +kernel
  rw [heq, hnone] at hrow
  cases hrow

theorem tight_searches_end_well :
    EndsWell tightDesk (plainBase tightDesk) tightState 0
      (randomSwap tightDesk solveSettings tightState 0 0 none) ∧
    EndsWell tightDesk (plainBase tightDesk) tightState 0
      (tryEjectionChain tightDesk solveSettings tightState 0) :=
  have h := searches_end_well tightDesk solveSettings (plainBase tightDesk)
    (plainBase_ground tightDesk) tightState tightState_balanced 0
  ⟨h.1 none, h.2 (by decide)⟩

end Leftover

end TkbCherry.Fet
