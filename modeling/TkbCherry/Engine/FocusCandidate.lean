import TkbCherry.Engine.FocusGate
import TkbCherry.Engine.Scores

/-!
# The kept candidate

While a one-target run goes on, `_offer_focus_candidate` keeps the best grid met so far that a gate
would accept. Grids are objects: a schedule is written in place, a copy never is.
-/

namespace TkbCherry.Engine

set_option autoImplicit false

/-- `_grid_hard_ok` -/
def Problem.gridHardOk (P : Problem) (grid : P.Grid) : Bool :=
  let r := State.load P false grid
  r.2 && (P.fixedCells.all fun e => decide (r.1.grid e.1 e.2.1 = some e.2.2)) && r.1.fullRecheck

/-- `sum(1 for row in grid for v in row if v >= 0)` -/
def Problem.lessonsIn (P : Problem) (grid : P.Grid) : Int :=
  (((P.allClasses.product allSlots).filter fun e => (grid e.1 e.2).isSome).length : Nat)

/-- `_focus_candidate_key` -/
def focusCandidateKey (focus : Focus) (quality : List Int) : List Int :=
  let q := fun i => quality.getD i 0
  if focus = .gap1 then [q 0, q 1, q 3, q 2] else [q 0, q 1, q 2, q 3]

/-- A schedule with its rows, or a copy of the rows of one. -/
inductive GridObject (P : Problem) where
  | schedule (k : SoftSchedule P)
  | copy (grid : P.Grid)

def GridObject.grid {P : Problem} : GridObject P → P.Grid
  | .schedule k => k.grid
  | .copy grid => grid

/-- `_focus_candidate`; the grid is a reference. -/
structure HeldCandidate where
  grid : Nat
  quality : List Int
  placed : Int
  key : List Int

/-- The objects of a run, its best grid with the quality noted for it, the candidate, and the start
quality and number of lessons. -/
structure FocusRun (P : Problem) where
  heap : Nat → GridObject P
  next : Nat
  best : Option (Nat × List Int)
  candidate : Option HeldCandidate
  checkedAt : Rat
  start : Option (List Int × Int)

inductive FocusStep (P : Problem) where
  /-- the start numbers of a warm start -/
  | start (quality : List Int) (placed : Int)
  /-- a new `SoftSchedule` -/
  | create
  | edit (i : Nat) (e : SoftSchedule.Edit P)
  /-- `best_grid` and `best_q` of `phase3_quality`, which runs on a tracked schedule -/
  | keepBest (i : Nat)
  /-- the offer of `emit_quality` -/
  | offerBest (force : Bool) (now : Rat)
  /-- an offer of a tracked schedule -/
  | offerSchedule (i : Nat) (force : Bool) (now : Rat)

namespace FocusRun
variable {P : Problem} (focus : Focus) (env : Option String)

def init (P : Problem) : FocusRun P :=
  ⟨fun _ => .copy fun _ _ => none, 0, none, none, 0, none⟩

/-- A new object, with the reference to it in `next`. -/
def alloc (s : FocusRun P) (o : GridObject P) : FocusRun P :=
  { s with heap := Function.update s.heap s.next o, next := s.next + 1 }

/-- `_offer_focus_candidate` with a focus. -/
def offer (s : FocusRun P) (grid : P.Grid) (quality : List Int) (force : Bool) (now : Rat) :
    FocusRun P :=
  match s.start with
  | none => s
  | some start =>
    let placed := P.lessonsIn grid
    if focusCandidateAcceptable focus env start.1 start.2 quality placed then
      let key := focusCandidateKey focus quality
      if s.candidate.any fun current => !decide (key < current.key) then s
      else if !force && decide (now - s.checkedAt < 1) then s
      else if P.gridHardOk grid then
        { s.alloc (.copy grid) with
          checkedAt := now
          candidate := some ⟨s.next, quality.take 5, placed, key⟩ }
      else { s with checkedAt := now }
    else s

/-- One step; an object that is not there is left alone. -/
def step (s : FocusRun P) : FocusStep P → FocusRun P
  | .start quality placed => { s with start := some (quality, placed), candidate := none }
  | .create => s.alloc (.schedule (SoftSchedule.init P))
  | .edit i e =>
    match s.heap i with
    | .schedule k => { s with heap := Function.update s.heap i (.schedule (k.step e)) }
    | .copy _ => s
  | .keepBest i =>
    match s.heap i with
    | .schedule k =>
      if k.trackQuality then { s.alloc (.copy k.grid) with best := some (s.next, k.quality) } else s
    | .copy _ => s
  | .offerBest force now =>
    match s.best with
    | some (ref, quality) => s.offer focus env (s.heap ref).grid quality force now
    | none => s
  | .offerSchedule i force now =>
    match s.heap i with
    | .schedule k => if k.trackQuality then s.offer focus env k.grid k.quality force now else s
    | .copy _ => s

def run (steps : List (FocusStep P)) : FocusRun P := steps.foldl (step focus env) (init P)

end FocusRun

/-! ### A grid that passes the hard check -/

namespace State
variable {P : Problem}

/-- A grid that loads is the grid of the state. -/
theorem restoreCells_grid {snap : P.Grid} {cells : List (P.Cls × Slot)} {s s' : State P}
    (hs : Consistent s) (h : restoreCells snap cells s = (s', true)) :
    Consistent s' ∧ ∀ c slot, s'.grid c slot =
      if (c, slot) ∈ cells ∧ snap c slot ≠ none then snap c slot else s.grid c slot := by
  induction cells generalizing s with
  | nil =>
    cases h
    exact ⟨hs, fun c slot => by simp⟩
  | cons e rest ih =>
    obtain ⟨c', slot'⟩ := e
    unfold restoreCells at h
    cases hcell : snap c' slot' with
    | none =>
      simp only [hcell] at h
      obtain ⟨hs', hgrid⟩ := ih hs h
      refine ⟨hs', fun c slot => (hgrid c slot).trans (if_congr ?_ rfl rfl)⟩
      rw [List.mem_cons, Prod.mk.injEq]
      constructor
      · rintro ⟨hin, hne⟩
        exact ⟨Or.inr hin, hne⟩
      · rintro ⟨⟨rfl, rfl⟩ | hin, hne⟩
        · exact absurd hcell hne
        · exact ⟨hin, hne⟩
    | some ai =>
      simp only [hcell] at h
      have hone := restoreCells_consistent snap [(c', slot')] hs
      rw [restoreCells, hcell] at hone
      cases happ : s.apply [(c', slot', some ai)] false with
      | mk s₁ result =>
        rw [happ] at h
        dsimp only at hone
        rw [happ] at hone
        cases result with
        | none => cases h
        | some journal =>
          have hs₁ : Consistent s₁ := hone
          obtain ⟨hs', hgrid⟩ := ih hs₁ h
          refine ⟨hs', fun c slot => (hgrid c slot).trans ?_⟩
          have hwrite : s₁.grid c slot = if c = c' ∧ slot = slot' then some ai else s.grid c slot := by
            rw [apply_grid hs happ]
            rfl
          by_cases hat : c = c' ∧ slot = slot'
          · obtain ⟨rfl, rfl⟩ := hat
            simp [hcell, hwrite]
          · simp only [List.mem_cons, Prod.mk.injEq, hat, false_or, hwrite, if_false]

theorem load_grid {deferMin : Bool} {grid : P.Grid} {s : State P}
    (h : load P deferMin grid = (s, true)) : Consistent s ∧ s.grid = grid := by
  obtain ⟨hs, hgrid⟩ := restoreCells_grid (Consistent.init P deferMin) h
  refine ⟨hs, funext fun c => funext fun slot => (hgrid c slot).trans ?_⟩
  split
  · rfl
  · rename_i hnot
    by_contra hne
    refine hnot ⟨List.pair_mem_product.mpr ⟨List.mem_finRange c, mem_allSlots slot⟩, fun hnone => ?_⟩
    rw [hnone] at hne
    exact hne rfl

end State

/-- What the hard check says of a grid. -/
theorem Problem.gridHardOk_iff (P : Problem) (grid : P.Grid) : P.gridHardOk grid = true ↔
    ∃ s, State.load P false grid = (s, true) ∧ Consistent s ∧ s.grid = grid ∧
      (∀ e ∈ P.fixedCells, grid e.1 e.2.1 = some e.2.2) ∧ s.fullRecheck = true := by
  unfold Problem.gridHardOk
  cases hload : State.load P false grid with
  | mk s ok =>
    cases ok with
    | false =>
      simp
    | true =>
      obtain ⟨hs, hgrid⟩ := State.load_grid hload
      simp only [Bool.true_and, Bool.and_eq_true, List.all_eq_true, decide_eq_true_eq, hgrid]
      constructor
      · rintro ⟨hfixed, hcheck⟩
        exact ⟨s, rfl, hs, hgrid, hfixed, hcheck⟩
      · rintro ⟨s', heq, _, _, hfixed, hcheck⟩
        cases heq
        exact ⟨hfixed, hcheck⟩

namespace FocusRun
variable {P : Problem} {focus : Focus} {env : Option String} {s : FocusRun P}

/-- A grid of a tracked schedule, with its quality. -/
def Measured (grid : P.Grid) (quality : List Int) : Prop :=
  ∃ k : SoftSchedule P, k.Inv ∧ k.trackQuality = true ∧ k.grid = grid ∧ k.quality = quality

/-- The candidate is a grid that passes the hard check, holds the fixed cells and meets the contract,
and its numbers are those of the grid. -/
structure Sound (focus : Focus) (env : Option String) (start : List Int × Int) (grid : P.Grid)
    (c : HeldCandidate) : Prop where
  hard : P.gridHardOk grid = true
  fixed : ∀ e ∈ P.fixedCells, grid e.1 e.2.1 = some e.2.2
  acceptable : focusCandidateAcceptable focus env start.1 start.2 c.quality c.placed = true
  quality : c.quality = (State.load P false grid).1.objective
  placed : c.placed = P.lessonsIn grid
  key : c.key = focusCandidateKey focus c.quality

structure Inv (focus : Focus) (env : Option String) (s : FocusRun P) : Prop where
  schedules : ∀ i k, s.heap i = .schedule k → k.Inv
  best : ∀ ref quality, s.best = some (ref, quality) →
    ref < s.next ∧ ∃ grid, s.heap ref = .copy grid ∧ Measured grid quality
  candidate : ∀ c, s.candidate = some c → c.grid < s.next ∧
    ∃ grid start, s.heap c.grid = .copy grid ∧ s.start = some start ∧ Sound focus env start grid c

/-- What an offer does: nothing, a later time of the last check, or a better candidate. -/
theorem offer_cases (s : FocusRun P) {grid : P.Grid} {quality : List Int}
    (hm : Measured grid quality) (force : Bool) (now : Rat) :
    (∃ time, s.offer focus env grid quality force now = { s with checkedAt := time }) ∨
    ∃ start c, s.start = some start ∧ c.grid = s.next ∧ Sound focus env start grid c ∧
      (∀ current, s.candidate = some current → c.key < current.key) ∧
      s.offer focus env grid quality force now =
        { s.alloc (.copy grid) with checkedAt := now, candidate := some c } := by
  unfold offer
  split
  · exact Or.inl ⟨s.checkedAt, rfl⟩
  · rename_i start hstart
    dsimp only
    split
    · rename_i hok
      split
      · exact Or.inl ⟨s.checkedAt, rfl⟩
      · rename_i hkey
        split
        · exact Or.inl ⟨s.checkedAt, rfl⟩
        · split
          · rename_i hhard
            obtain ⟨state, hload, hcons, hgrid, hfixed, _⟩ := (P.gridHardOk_iff grid).mp hhard
            obtain ⟨k, hk, htrack, hkgrid, hkq⟩ := hm
            have htake : quality.take 5 = quality := by
              rw [← hkq]
              rfl
            rw [htake]
            refine Or.inr ⟨start, ⟨s.next, quality, P.lessonsIn grid, focusCandidateKey focus quality⟩,
              hstart, rfl, ⟨hhard, hfixed, hok, ?_, rfl, rfl⟩, ?_, rfl⟩
            · rw [hload, ← hkq]
              exact hk.recount.quality_eq htrack hcons.recount (hgrid.trans hkgrid.symm)
            · intro current hcurrent
              rw [hcurrent, Option.any_some, Bool.not_eq_true, Bool.not_eq_false',
                decide_eq_true_eq] at hkey
              exact hkey
          · exact Or.inl ⟨now, rfl⟩
    · exact Or.inl ⟨s.checkedAt, rfl⟩

theorem heap_alloc {ref : Nat} (h : ref < s.next) (o : GridObject P) :
    (s.alloc o).heap ref = s.heap ref :=
  Function.update_of_ne (Nat.ne_of_lt h) _ _

/-- A new object keeps the invariant. -/
theorem Inv.alloc (h : Inv focus env s) {o : GridObject P} (ho : ∀ k, o = .schedule k → k.Inv) :
    Inv focus env (s.alloc o) where
  schedules := by
    intro i k hi
    change Function.update s.heap s.next o i = .schedule k at hi
    by_cases hn : i = s.next
    · subst hn
      rw [Function.update_self] at hi
      exact ho k hi
    · rw [Function.update_of_ne hn] at hi
      exact h.schedules i k hi
  best := by
    intro ref quality hb
    obtain ⟨hlt, grid, hcopy, hm⟩ := h.best ref quality hb
    exact ⟨Nat.lt_succ_of_lt hlt, grid, (heap_alloc hlt o).trans hcopy, hm⟩
  candidate := by
    intro c hc
    obtain ⟨hlt, grid, start, hcopy, hstart, hsound⟩ := h.candidate c hc
    exact ⟨Nat.lt_succ_of_lt hlt, grid, start, (heap_alloc hlt o).trans hcopy, hstart, hsound⟩

theorem Inv.offer (h : Inv focus env s) {grid : P.Grid} {quality : List Int}
    (hm : Measured grid quality) (force : Bool) (now : Rat) :
    Inv focus env (s.offer focus env grid quality force now) := by
  rcases offer_cases s hm force now with ⟨time, heq⟩ | ⟨start, c, hstart, href, hsound, _, heq⟩
  · rw [heq]
    exact ⟨h.schedules, h.best, h.candidate⟩
  · rw [heq]
    have halloc := h.alloc (o := .copy grid) fun k hk => by cases hk
    refine ⟨halloc.schedules, halloc.best, ?_⟩
    intro c' hc'
    cases hc'
    refine ⟨href ▸ Nat.lt_succ_self s.next, grid, start, ?_, hstart, hsound⟩
    show Function.update s.heap s.next (.copy grid) c.grid = _
    rw [href, Function.update_self]

/-- One step. -/
theorem Inv.step (h : Inv focus env s) (e : FocusStep P) : Inv focus env (s.step focus env e) := by
  cases e with
  | start quality placed => exact ⟨h.schedules, h.best, fun c hc => by cases hc⟩
  | create =>
    refine h.alloc fun k hk => ?_
    cases hk
    exact SoftSchedule.Inv.init P
  | edit i e =>
    cases hi : s.heap i with
    | copy grid =>
      rw [FocusRun.step, hi]
      exact h
    | schedule k =>
      rw [FocusRun.step, hi]
      -- The references of the run point to copies, so the written object is none of them.
      have hother : ∀ ref grid, s.heap ref = .copy grid →
          Function.update s.heap i (.schedule (k.step e)) ref = .copy grid := by
        intro ref grid hcopy
        rw [Function.update_of_ne, hcopy]
        rintro rfl
        rw [hi] at hcopy
        cases hcopy
      constructor
      · intro i' k' hk'
        by_cases hii : i' = i
        · subst hii
          dsimp only at hk'
          rw [Function.update_self] at hk'
          cases hk'
          exact SoftSchedule.inv_step (h.schedules i' k hi) e
        · dsimp only at hk'
          rw [Function.update_of_ne hii] at hk'
          exact h.schedules i' k' hk'
      · intro ref quality hb
        obtain ⟨hlt, grid, hcopy, hm⟩ := h.best ref quality hb
        exact ⟨hlt, grid, hother ref grid hcopy, hm⟩
      · intro c hc
        obtain ⟨hlt, grid, start, hcopy, hstart, hsound⟩ := h.candidate c hc
        exact ⟨hlt, grid, start, hother c.grid grid hcopy, hstart, hsound⟩
  | keepBest i =>
    cases hi : s.heap i with
    | copy grid =>
      rw [FocusRun.step, hi]
      exact h
    | schedule k =>
      rw [FocusRun.step, hi]
      dsimp only
      split
      · rename_i htrack
        have halloc := h.alloc (o := .copy k.grid) fun k' hk' => by cases hk'
        refine ⟨halloc.schedules, ?_, halloc.candidate⟩
        intro ref quality hb
        cases hb
        exact ⟨Nat.lt_succ_self s.next, k.grid, Function.update_self _ _ _,
          k, h.schedules i k hi, htrack, rfl, rfl⟩
      · exact h
  | offerBest force now =>
    cases hb : s.best with
    | none =>
      rw [FocusRun.step, hb]
      exact h
    | some held =>
      rw [FocusRun.step, hb]
      obtain ⟨ref, quality⟩ := held
      obtain ⟨_, grid, hcopy, hm⟩ := h.best ref quality hb
      refine h.offer ?_ force now
      rw [hcopy]
      exact hm
  | offerSchedule i force now =>
    cases hi : s.heap i with
    | copy grid =>
      rw [FocusRun.step, hi]
      exact h
    | schedule k =>
      rw [FocusRun.step, hi]
      dsimp only
      split
      · rename_i htrack
        exact h.offer ⟨k, h.schedules i k hi, htrack, rfl, rfl⟩ force now
      · exact h

theorem Inv.init (P : Problem) : Inv focus env (FocusRun.init P) :=
  ⟨fun _ _ hk => (nomatch hk), fun _ _ hb => (nomatch hb), fun _ hc => (nomatch hc)⟩

theorem inv_run (steps : List (FocusStep P)) : Inv focus env (run focus env steps) := by
  have hall : ∀ (steps : List (FocusStep P)) (s : FocusRun P), Inv focus env s →
      Inv focus env (steps.foldl (step focus env) s) := by
    intro steps
    induction steps with
    | nil => exact fun s h => h
    | cons e rest ih => exact fun s h => ih (s.step focus env e) (h.step e)
  exact hall steps (FocusRun.init P) (Inv.init P)

/-- What a step does to the candidate. -/
theorem Inv.candidate_step (h : Inv focus env s) (e : FocusStep P) :
    ((s.step focus env e).candidate = s.candidate ∧
      ∀ c, s.candidate = some c → (s.step focus env e).heap c.grid = s.heap c.grid) ∨
    ((s.step focus env e).candidate = none ∧ ∃ quality placed, e = .start quality placed) ∨
    ∃ c, (s.step focus env e).candidate = some c ∧
      ∀ current, s.candidate = some current → c.key < current.key := by
  have hoffer : ∀ {grid : P.Grid} {quality : List Int}, Measured grid quality →
      ∀ (force : Bool) (now : Rat),
      ((s.offer focus env grid quality force now).candidate = s.candidate ∧
        ∀ c, s.candidate = some c →
          (s.offer focus env grid quality force now).heap c.grid = s.heap c.grid) ∨
      ∃ c, (s.offer focus env grid quality force now).candidate = some c ∧
        ∀ current, s.candidate = some current → c.key < current.key := by
    intro grid quality hm force now
    rcases offer_cases s hm force now with ⟨time, heq⟩ | ⟨_, c, _, _, _, hkey, heq⟩
    · rw [heq]
      exact Or.inl ⟨rfl, fun _ _ => rfl⟩
    · rw [heq]
      exact Or.inr ⟨c, rfl, hkey⟩
  cases e with
  | start quality placed => exact Or.inr (Or.inl ⟨rfl, quality, placed, rfl⟩)
  | create => exact Or.inl ⟨rfl, fun c hc => heap_alloc (h.candidate c hc).1 _⟩
  | edit i e =>
    cases hi : s.heap i with
    | copy grid =>
      rw [FocusRun.step, hi]
      exact Or.inl ⟨rfl, fun _ _ => rfl⟩
    | schedule k =>
      rw [FocusRun.step, hi]
      refine Or.inl ⟨rfl, fun c hc => Function.update_of_ne ?_ _ _⟩
      obtain ⟨_, grid, _, hcopy, _, _⟩ := h.candidate c hc
      rintro rfl
      rw [hi] at hcopy
      cases hcopy
  | keepBest i =>
    cases hi : s.heap i with
    | copy grid =>
      rw [FocusRun.step, hi]
      exact Or.inl ⟨rfl, fun _ _ => rfl⟩
    | schedule k =>
      rw [FocusRun.step, hi]
      dsimp only
      split
      · exact Or.inl ⟨rfl, fun c hc => heap_alloc (h.candidate c hc).1 _⟩
      · exact Or.inl ⟨rfl, fun _ _ => rfl⟩
  | offerBest force now =>
    cases hb : s.best with
    | none =>
      rw [FocusRun.step, hb]
      exact Or.inl ⟨rfl, fun _ _ => rfl⟩
    | some held =>
      rw [FocusRun.step, hb]
      obtain ⟨ref, quality⟩ := held
      obtain ⟨_, grid, hcopy, hm⟩ := h.best ref quality hb
      dsimp only
      rw [hcopy]
      exact (hoffer hm force now).imp_right Or.inr
  | offerSchedule i force now =>
    cases hi : s.heap i with
    | copy grid =>
      rw [FocusRun.step, hi]
      exact Or.inl ⟨rfl, fun _ _ => rfl⟩
    | schedule k =>
      rw [FocusRun.step, hi]
      dsimp only
      split
      · rename_i htrack
        exact (hoffer ⟨k, h.schedules i k hi, htrack, rfl, rfl⟩ force now).imp_right Or.inr
      · exact Or.inl ⟨rfl, fun _ _ => rfl⟩

/-- After every run of writes, copies, offers and starts the candidate is absent or sound for the
start, as a copy that no step changes, and a step that replaces it lowers its key. -/
theorem candidate_kept (P : Problem) (focus : Focus) (env : Option String)
    (steps : List (FocusStep P)) :
    (∀ c, (run focus env steps).candidate = some c → ∃ grid start,
      (run focus env steps).heap c.grid = .copy grid ∧
        (run focus env steps).start = some start ∧ Sound focus env start grid c) ∧
    ∀ e, (((run focus env steps).step focus env e).candidate = (run focus env steps).candidate ∧
        ∀ c, (run focus env steps).candidate = some c →
          ((run focus env steps).step focus env e).heap c.grid =
            (run focus env steps).heap c.grid) ∨
      (((run focus env steps).step focus env e).candidate = none ∧
        ∃ quality placed, e = .start quality placed) ∨
      ∃ c, ((run focus env steps).step focus env e).candidate = some c ∧
        ∀ current, (run focus env steps).candidate = some current → c.key < current.key := by
  have h : Inv focus env (run focus env steps) := inv_run steps
  exact ⟨fun c hc => (h.candidate c hc).2, fun e => h.candidate_step e⟩

end FocusRun

end TkbCherry.Engine
