import TkbCherry.Engine.OptimizeRuns

/-!
# The controller of the optimizer

The rounds of `run`, its perturbations and its last return to the best grid. Whatever the generator and
the clock answer, the lessons of every class stay what they were, and the schedule that is left is not
worse than the first one.
-/

namespace TkbCherry.Engine

set_option autoImplicit false

open Program

section Control
variable {P : Problem} {A : Aim P} {ticks : Nat} {o : Optimizer P}

/-- Operators and rounds are asked for the invariant only. -/
def Aim.Kept (A : Aim P) (ticks : Nat) {α : Type} (m : Search P α) : Prop :=
  ∀ o, A.Inv ticks o → Returns m o fun _ o' => A.Inv ticks o'

theorem Aim.Kept.of_outcome {m : Search P Bool}
    (h : ∀ o, A.Inv ticks o → Returns m o (A.Outcome ticks true o)) : A.Kept ticks m := by
  intro o ho
  apply (h o ho).mono
  intro hit o' h'
  exact h'.inv

theorem Aim.Kept.bind {α β : Type} {m : Search P α} {f : α → Search P β} (h : A.Kept ticks m)
    (hf : ∀ a, A.Kept ticks (f a)) : A.Kept ticks (m >>= f) := by
  intro o ho
  apply Returns.bind (h o ho)
  intro a o' h'
  exact hf a o' h'

theorem Aim.Kept.pure {α : Type} (a : α) : A.Kept ticks (pure a : Search P α) := by
  intro o ho
  exact Returns.pure ho

theorem Aim.Kept.get : A.Kept ticks (get : Search P (Optimizer P)) := by
  intro o ho
  exact Returns.get ho

theorem Aim.Kept.monotonic : A.Kept ticks (Optimizer.monotonic : Search P Int) := by
  intro o ho
  apply (monotonic_spec ho).mono
  rintro now o' ⟨h', -⟩
  exact h'.fewer (Nat.le_succ ticks)

theorem Aim.Kept.ite {α : Type} {c : Prop} [Decidable c] {m m' : Search P α} (h : A.Kept ticks m)
    (h' : A.Kept ticks m') : A.Kept ticks (if c then m else m') := by
  split
  · exact h
  · exact h'

theorem Aim.Kept.sweep {α : Type} {deadline : Int} {fix : α → Search P Bool}
    (hfix : ∀ x, A.Kept ticks (fix x)) (xs : List α) :
    A.Kept ticks (Optimizer.sweep deadline fix xs) := by
  induction xs with
  | nil => exact .pure false
  | cons x rest ih =>
    unfold Optimizer.sweep
    apply Aim.Kept.bind .monotonic
    intro now
    apply Aim.Kept.ite (.pure false)
    apply Aim.Kept.bind (hfix x)
    intro hit
    apply Aim.Kept.bind ih
    intro more
    exact .pure _

theorem Aim.Kept.shuffle {α : Type} (xs : List α) : A.Kept ticks (Optimizer.shuffle xs) := by
  intro o ho
  apply (shuffle_spec xs ho).mono
  rintro ys o' ⟨h', -⟩
  exact h'

theorem opSingleton_kept (deadline : Int) : A.Kept ticks (Optimizer.opSingleton deadline) := by
  unfold Optimizer.opSingleton
  apply Aim.Kept.bind .get
  intro o
  apply Aim.Kept.bind (.shuffle _)
  intro targets
  apply Aim.Kept.sweep
  intro e
  apply Aim.Kept.bind .get
  intro o2
  apply Aim.Kept.ite
  · exact .of_outcome fun o ho => fixSingleton_spec e.1 e.2 ho
  · exact .pure false

theorem opGap_kept (hteam : P.OneTeam) (order : List P.Cls → List P.Cls) (deadline minGap : Int) :
    A.Kept ticks (Optimizer.opGap order deadline minGap) := by
  unfold Optimizer.opGap
  apply Aim.Kept.bind .get
  intro o
  apply Aim.Kept.sweep
  intro e
  exact .of_outcome fun o ho => fixGapSession_spec hteam order e.1 e.2 ho

theorem opSessions_kept (deadline : Int) : A.Kept ticks (Optimizer.opSessions deadline) := by
  unfold Optimizer.opSessions
  apply Aim.Kept.bind .get
  intro o
  apply Aim.Kept.sweep
  intro e
  apply Aim.Kept.bind .get
  intro o2
  apply Aim.Kept.ite (.pure false)
  exact .of_outcome fun o ho => vacateSession_spec e.1 e.2 ho

theorem Aim.Kept.randrange {n : Nat} (hn : 0 < n) :
    A.Kept ticks (Optimizer.randrange n : Search P (Fin n)) := by
  intro o ho
  apply (randrange_spec hn ho).mono
  rintro i o' ⟨h', -⟩
  exact h'

theorem trySessionSwap_kept (hclasses : 0 < P.numClasses) :
    A.Kept ticks (Optimizer.trySessionSwap : Search P Bool) := by
  unfold Optimizer.trySessionSwap
  apply Aim.Kept.bind (.randrange hclasses)
  intro c
  apply Aim.Kept.bind (.randrange (by omega))
  intro s1
  apply Aim.Kept.bind (.randrange (by omega))
  intro s2 o ho
  apply Returns.read
  split
  · exact Returns.pure ho
  · rename_i hne
    split
    · exact Returns.pure ho
    · split
      · exact Returns.pure ho
      · apply (attempt_spec ho (sessionSwap_rearranged hne) false).mono
        intro hit o' h'
        exact h'.inv

theorem opClassSessionSwap_kept (hclasses : 0 < P.numClasses) (deadline : Int) (tries : Nat) :
    A.Kept ticks (Optimizer.opClassSessionSwap deadline tries : Search P Bool) := by
  unfold Optimizer.opClassSessionSwap
  apply Aim.Kept.sweep
  intro _
  exact trySessionSwap_kept hclasses

/-! ### Perturbations -/

theorem perturbLoop_kept (hclasses : 0 < P.numClasses) (left todo : Nat) :
    A.Kept ticks (Optimizer.perturbLoop left todo : Search P Unit) := by
  induction left generalizing todo with
  | zero =>
    unfold Optimizer.perturbLoop
    exact .pure ()
  | succ left ih =>
    cases todo with
    | zero => exact .pure ()
    | succ todo =>
      unfold Optimizer.perturbLoop
      apply Aim.Kept.bind (.randrange hclasses)
      intro c
      apply Aim.Kept.bind (.randrange (by omega))
      intro slot1
      apply Aim.Kept.bind (.randrange (by omega))
      intro slot2 o ho
      apply Returns.read
      dsimp only
      split
      · exact ih (todo + 1) o ho
      · split
        · rename_i s happ
          apply Returns.write
          exact ih (todo + 1) _ (ho.refused happ).1
        · rename_i s journal happ
          apply Returns.write
          apply ih todo
          apply ho.applied happ
          apply exchange_rearranged
          · intro e he
            rcases List.mem_cons.mp he with rfl | he
            · exact Or.inl rfl
            · exact Or.inr (List.mem_singleton.mp he)
          · exact List.mem_cons_self
          · exact List.mem_cons_of_mem _ (List.mem_singleton_self _)

theorem perturb_kept (hclasses : 0 < P.numClasses) (strength : Nat) :
    A.Kept ticks (Optimizer.perturb strength : Search P Unit) :=
  perturbLoop_kept hclasses _ _

/-! ### Rounds -/

theorem Aim.Kept.inTime {deadline : Int} {op : Search P Bool} (h : A.Kept ticks op) :
    A.Kept ticks (Optimizer.inTime deadline op) := by
  unfold Optimizer.inTime
  apply Aim.Kept.bind .monotonic
  intro now
  exact .ite h (.pure false)

theorem Aim.Kept.onlyIf {p : State P → Bool} {op : Search P Bool} (h : A.Kept ticks op) :
    A.Kept ticks (Optimizer.onlyIf p op) := by
  unfold Optimizer.onlyIf
  apply Aim.Kept.bind .get
  intro o
  exact .ite h (.pure false)

theorem improveRound_kept (hclasses : 0 < P.numClasses) (hteam : P.OneTeam)
    (order : List P.Cls → List P.Cls) (deadline : Int) :
    A.Kept ticks (Optimizer.improveRound order deadline) := by
  unfold Optimizer.improveRound
  apply Aim.Kept.bind .monotonic
  intro start
  apply Aim.Kept.bind .get
  intro o
  apply Aim.Kept.bind (.onlyIf (opSingleton_kept _))
  intro b1
  apply Aim.Kept.bind (.onlyIf (.inTime (opGap_kept hteam order _ 2)))
  intro b2
  apply Aim.Kept.bind (.inTime (opSessions_kept _))
  intro b3
  apply Aim.Kept.bind (.onlyIf (.inTime (opGap_kept hteam order _ 1)))
  intro b4
  apply Aim.Kept.bind (.inTime (opClassSessionSwap_kept hclasses _ 120))
  intro b5
  exact .pure _

theorem report_kept (progress : Bool) (lastReport : Int) :
    A.Kept ticks (Optimizer.report progress lastReport : Search P Int) := by
  unfold Optimizer.report
  apply Aim.Kept.ite ?_ (.pure lastReport)
  apply Aim.Kept.bind .monotonic
  intro now
  exact .ite (.pure now) (.pure lastReport)

theorem restoreBest_kept (o : Optimizer P) (h : A.Inv ticks o) :
    Returns (Optimizer.restoreTo o.bestSnap) o fun _ o' =>
      A.Inv ticks o' ∧ o'.state.objective = o.bestTuple := by
  apply (restoreTo_spec h h.bestGrid h.bestLoads).mono
  rintro - o' ⟨h', hgrid, -, -⟩
  refine ⟨h', ?_⟩
  rw [h'.consistent.objective_eq, hgrid, h.bestTuple]

theorem shake_kept (hclasses : 0 < P.numClasses) (deadline : Int) (stagnation : Nat) :
    A.Kept ticks (Optimizer.shake deadline stagnation : Search P Unit) := by
  unfold Optimizer.shake
  apply Aim.Kept.ite ?_ (perturb_kept hclasses 5)
  intro o ho
  apply Returns.read
  apply Returns.bind (restoreBest_kept o ho)
  rintro - o₁ ⟨h₁, -⟩
  revert h₁
  apply Aim.Kept.bind (perturb_kept hclasses _)
  intro _
  apply Aim.Kept.bind .monotonic
  intro now
  apply Aim.Kept.bind (opClassSessionSwap_kept hclasses _ 40)
  intro _
  exact .pure ()

/-- A loop that stops at its bound has read the clock in every round, each time before the deadline. -/
theorem rounds_spec (hclasses : 0 < P.numClasses) (hteam : P.OneTeam) (progress : Bool)
    (order : List P.Cls → List P.Cls) (deadline : Int) (left stagnation : Nat) (lastReport : Int)
    (h : A.Inv ticks o) :
    Returns (Optimizer.rounds progress order deadline left stagnation lastReport) o fun ended o' =>
      A.Inv ticks o' ∧ (ended = false → left = 0 ∨ ∃ i, ticks + left ≤ i + 1 ∧ A.clock i < deadline) := by
  induction left generalizing ticks o stagnation lastReport with
  | zero =>
    apply Returns.pure
    exact ⟨h, fun _ => Or.inl rfl⟩
  | succ left ih =>
    unfold Optimizer.rounds
    apply Returns.bind (monotonic_spec h)
    rintro now o₁ ⟨h₁, -, i, hi, rfl⟩
    split
    · rename_i htime
      apply Returns.bind (improveRound_kept hclasses hteam order deadline o₁ h₁)
      intro improved o₂ h₂
      apply Returns.read
      apply Returns.write
      apply Returns.bind (report_kept progress lastReport _ h₂.noteBest)
      intro last o₃ h₃
      have hagain : ∀ stagnation o₄, A.Inv (ticks + 1) o₄ →
          Returns (Optimizer.rounds progress order deadline left stagnation last) o₄ fun ended o' =>
            A.Inv ticks o' ∧ (ended = false → left + 1 = 0 ∨
              ∃ i, ticks + (left + 1) ≤ i + 1 ∧ A.clock i < deadline) := by
        intro stagnation o₄ h₄
        apply (ih stagnation last h₄).mono
        rintro ended o₅ ⟨h₅, hended⟩
        refine ⟨h₅.fewer (Nat.le_succ ticks), ?_⟩
        intro hfalse
        right
        rcases hended hfalse with hzero | hlater
        · exact ⟨i, by omega, htime⟩
        · obtain ⟨j, hj, hclock⟩ := hlater
          exact ⟨j, by omega, hclock⟩
      split
      · apply Returns.pure
        exact ⟨h₃.fewer (Nat.le_succ ticks), fun hfalse => absurd hfalse Bool.noConfusion⟩
      · split
        · exact hagain 0 o₃ h₃
        · apply Returns.bind (shake_kept hclasses deadline (stagnation + 1) o₃ h₃)
          intro _ o₄ h₄
          exact hagain (stagnation + 1) o₄ h₄
    · apply Returns.pure
      exact ⟨h₁.fewer (Nat.le_succ ticks), fun hfalse => absurd hfalse Bool.noConfusion⟩

/-- The whole run ends no worse than the goal. -/
theorem run_spec (hclasses : 0 < P.numClasses) (hteam : P.OneTeam) (progress : Bool)
    (order : List P.Cls → List P.Cls) (deadline : Int) (bound : Nat) (h : A.Inv 0 o) :
    Returns (Optimizer.run progress order deadline bound) o fun ended o' =>
      A.Inv 0 o' ∧ o'.state.objective ≤ A.goal ∧
        (ended = false → bound = 0 ∨ ∃ i, bound ≤ i + 1 ∧ A.clock i < deadline) := by
  unfold Optimizer.run
  apply Returns.bind (rounds_spec hclasses hteam progress order deadline bound 0 0 h)
  rintro ended o₁ ⟨h₁, hended⟩
  rw [Nat.zero_add] at hended
  apply Returns.read
  split
  · apply Returns.bind (restoreBest_kept o₁ h₁)
    rintro - o₂ ⟨h₂, hobjective⟩
    apply Returns.pure
    refine ⟨h₂, ?_, hended⟩
    rw [hobjective]
    exact h₁.goal
  · rename_i hnot
    apply Returns.pure
    exact ⟨h₁, (not_lt.mp hnot).trans h₁.goal, hended⟩

/-- The invariant holds at the start. -/
theorem init_inv (A : Aim P) {s : State P} (hs : Consistent s) (hlocked : s.locked = P.fixedLocks)
    (hdefer : s.deferMin = A.deferMin) (hkeeps : A.keeps s.grid) (hgoal : s.objective ≤ A.goal)
    (draws : Nat → Nat) : A.Inv 0 (Optimizer.init s draws A.clock) :=
  ⟨hs, hlocked, hdefer, hkeeps, hkeeps, hs.sound.loadable, hs.objective_eq, hgoal, 0, Nat.le_refl 0,
    fun _ => rfl⟩

end Control

section Results
variable {P : Problem}

/-- What the optimizer must not lose: the lessons of every class, and each fixed cell. -/
structure Problem.Conserved (g g' : P.Grid) : Prop where
  rows : Problem.Rearranged g g'
  fixed : ∀ c slot, P.fixedLocks c slot = true → g' c slot = g c slot

theorem Problem.Conserved.applied {g : P.Grid} {s s' : State P} {changes : List (Change P)}
    {journal : List (Entry P)} (h : Problem.Conserved g s.grid) (hs : Consistent s)
    (hlocked : s.locked = P.fixedLocks) (happ : s.apply changes true = (s', some journal))
    (hmove : Problem.Rearranged s.grid (P.overlay s.grid changes)) : Problem.Conserved g s'.grid where
  rows := by
    rw [State.apply_grid hs happ]
    exact h.rows.trans hmove
  fixed := by
    intro c slot hfixed
    rw [← h.fixed c slot hfixed]
    apply apply_locked happ
    rw [hlocked]
    exact hfixed

/-- For every seed, clock, deadline, order of a set and bound on the rounds, and every consistent
schedule with its fixed cells locked: the run never raises an error, each class keeps its lessons and
its fixed cells, the statistics are those of the grid, and the objective is not worse than at the start.
Once the clock passes the deadline the run ends. -/
theorem run_conserves (hclasses : 0 < P.numClasses) (hteam : P.OneTeam) (s : State P)
    (hs : Consistent s) (hlocked : s.locked = P.fixedLocks) (draws : Nat → Nat) (clock : Nat → Int)
    (progress : Bool) (order : List P.Cls → List P.Cls) (deadline : Int) (bound : Nat) :
    Returns (Optimizer.run progress order deadline bound) (Optimizer.init s draws clock)
      fun ended o' => Recount o'.state ∧ Problem.Conserved s.grid o'.state.grid ∧
        o'.state.objective ≤ s.objective ∧
        (0 < bound → (∀ i, bound ≤ i + 1 → deadline ≤ clock i) → ended = true) := by
  let A : Aim P :=
    { deferMin := s.deferMin
      keeps := Problem.Conserved s.grid
      goal := s.objective
      clock := clock
      lasting := fun s₁ s₂ changes journal h₁ hl₁ _ hk happ hmove => hk.applied h₁ hl₁ happ hmove }
  have hstart : A.Inv 0 (Optimizer.init s draws clock) :=
    init_inv A hs hlocked rfl ⟨.refl _, fun _ _ _ => rfl⟩ (le_refl s.objective) draws
  apply (run_spec hclasses hteam progress order deadline bound hstart).mono
  rintro ended o' ⟨h', hgoal, hended⟩
  refine ⟨h'.consistent.recount, h'.grid, hgoal, ?_⟩
  intro hbound hclock
  by_contra hne
  rcases hended (Bool.not_eq_true _ ▸ hne) with hzero | hlater
  · omega
  · obtain ⟨i, hi, hearly⟩ := hlater
    have hlate := hclock i hi
    have hclockEq : A.clock i = clock i := rfl
    omega

section Linked

theorem linkedClasses_oneTeam : linkedClasses.OneTeam := by
  intro ai bi hclass _ t ht
  have heq : ai = bi := hclass
  rw [← heq]
  exact ht

theorem linkedClasses_consistent : Consistent linkedClasses.desk.state :=
  (Desk.inv_run (Transition.Run.ofFn_foldl Desk.step _ linkedClasses.placed)
    (Desk.inv_init linkedClasses false)).consistent

theorem linkedClasses_locked : linkedClasses.desk.state.locked = linkedClasses.fixedLocks := by
  have h : ∀ c slot, linkedClasses.desk.state.locked c slot = linkedClasses.fixedLocks c slot := by
    decide +kernel
  funext c slot
  exact h c slot

theorem linkedClasses_conserved : Returns
    (Optimizer.run true id 3000 4)
    (Optimizer.init linkedClasses.desk.state (fun i => i) fun i => 1000 * (i : Int))
    fun ended o' => Recount o'.state ∧
      Problem.Conserved linkedClasses.desk.state.grid o'.state.grid ∧
      o'.state.objective ≤ linkedClasses.desk.state.objective ∧
      (0 < 4 → (∀ i : Nat, 4 ≤ i + 1 → (3000 : Int) ≤ 1000 * (i : Int)) → ended = true) :=
  run_conserves (by decide) linkedClasses_oneTeam _ linkedClasses_consistent linkedClasses_locked _ _
    true id 3000 4

end Linked

/-- The rules that a teacher has count no lessons, days or sessions. -/
def TeacherRule.Uncounted (rule : TeacherRule) : Prop :=
  (∀ d, rule.sessionMode d = .free ∧ rule.dayPeriodCap d ≤ 0 ∧ (rule.sessionPeriodCap d).1 ≤ 0 ∧
    (rule.sessionPeriodCap d).2 ≤ 0) ∧
  rule.maxDays ≤ 0 ∧ rule.maxSessions ≤ 0 ∧ rule.maxMorning ≤ 0 ∧ rule.maxAfternoon ≤ 0

theorem TeacherRule.Uncounted.hold {rule : TeacherRule} (h : rule.Uncounted)
    (counts : Session → Int) :
    (∀ d, countDayReason rule counts d = none) ∧ totalsReason rule counts = none := by
  obtain ⟨hday, h1, h2, h3, h4⟩ := h
  constructor
  · intro d
    obtain ⟨hmode, hcap, ham, hpm⟩ := hday d
    unfold countDayReason
    dsimp only
    rw [firstReason_eq_none_iff]
    intro e he
    simp only [List.mem_cons, List.not_mem_nil, or_false] at he
    rcases he with rfl | rfl | rfl | rfl | rfl | rfl
    · simp [hmode]
    · simp [hmode]
    · simp [hmode]
    · simp [Int.not_lt.mpr hcap]
    · simp [Int.not_lt.mpr ham]
    · simp [Int.not_lt.mpr hpm]
  · unfold totalsReason
    rw [if_neg]
    omega

/-- The weekly rule of a class and a subject does not depend on the assignment. -/
def Problem.OneRule (P : Problem) : Prop :=
  ∀ ai bi, P.aClass ai = P.aClass bi → P.aSubject ai = P.aSubject bi → P.aRule ai = P.aRule bi

/-- Accepted lessons are written into their classes. -/
theorem applyChanges_classes {locked : P.Cls → Slot → Bool} (changes : List (Change P))
    {k k' : Cells P} {journal journal' : List (Entry P)}
    (h : k.applyChanges locked changes journal = (k', .ok journal')) :
    ∀ e ∈ changes, ∀ ai, e.2.2 = some ai → P.aClass ai = e.1 := by
  induction changes generalizing k journal with
  | nil =>
    intro e he
    exact absurd he List.not_mem_nil
  | cons change rest ih =>
    obtain ⟨c, slot, new⟩ := change
    rw [Cells.applyChanges] at h
    split at h
    · cases h
    · split at h
      · cases h
      · rename_i hcell
        cases hw : k.writeCell c slot new journal with
        | mk k₁ rest₁ =>
          obtain ⟨journal₁, ok⟩ := rest₁
          rw [hw] at h
          cases ok with
          | false => cases h
          | true =>
            intro e he ai hai
            rcases List.mem_cons.mp he with rfl | hrest
            · have hnew : new = some ai := hai
              rw [hnew, Option.any_some, Bool.or_eq_true, not_or, decide_eq_true_eq] at hcell
              exact not_not.mp hcell.1
            · exact ih h e hrest ai hai

/-- Without rules on numbers, and with one weekly rule for a class and a subject, every accepted change
list fits. -/
theorem fits_of_uncounted (hcount : ∀ t rule, P.teacherRules t = some rule → rule.Uncounted)
    (hrule : P.OneRule) {s s' : State P} {changes : List (Change P)} {journal : List (Entry P)}
    (hs : Consistent s) (happ : s.apply changes true = (s', some journal)) : Fits s changes where
  counts := by
    intro e _ t _ rule hr
    exact (hcount t rule hr).hold _
  weeks := by
    intro e he hne
    exfalso
    apply hne
    have hclass : P.aClass e.2 = e.1 := by
      obtain ⟨change, hc, hin⟩ := List.mem_flatMap.mp he
      obtain ⟨ai, hai, rfl⟩ := List.mem_map.mp hin
      rcases List.mem_append.mp hai with hold | hnew
      · exact (hs.sound.cells _ _ _ (Option.mem_toList.mp hold)).1
      · unfold State.apply at happ
        cases hchg : s.toCells.applyChanges s.locked changes [] with
        | mk k r =>
          rw [hchg] at happ
          cases r with
          | error reason => cases happ
          | ok j => exact applyChanges_classes changes hchg change hc ai (Option.mem_toList.mp hnew)
    cases hfirst : P.firstAssignment e.1 (P.aSubject e.2) with
    | none =>
      have hnone := List.find?_eq_none.mp hfirst e.2 (List.mem_finRange e.2)
      exact absurd (decide_eq_true ⟨hclass, rfl⟩) hnone
    | some b =>
      unfold Problem.firstAssignment at hfirst
      have hb : P.aClass b = e.1 ∧ P.aSubject b = P.aSubject e.2 := by
        have hfound := List.find?_some hfirst
        rw [decide_eq_true_eq] at hfound
        exact hfound
      exact hrule b e.2 (hb.1.trans hclass.symm) hb.2

/-- Where no teacher has rules on numbers of lessons and a class has one weekly rule for a subject, a
run from a schedule that passes `full_recheck` ends with one that passes it. -/
theorem run_hardValid (hclasses : 0 < P.numClasses) (hteam : P.OneTeam)
    (hcount : ∀ t rule, P.teacherRules t = some rule → rule.Uncounted) (hrule : P.OneRule)
    (s : State P) (hs : Consistent s) (hlocked : s.locked = P.fixedLocks)
    (hvalid : s.fullRecheck = true) (draws : Nat → Nat) (clock : Nat → Int) (progress : Bool)
    (order : List P.Cls → List P.Cls) (deadline : Int) (bound : Nat) :
    Returns (Optimizer.run progress order deadline bound) (Optimizer.init s draws clock)
      fun _ o' => o'.state.fullRecheck = true ∧ P.Exclusive o'.state.grid := by
  let A : Aim P :=
    { deferMin := s.deferMin
      keeps := P.Hard s.deferMin
      goal := s.objective
      clock := clock
      lasting := by
        intro s₁ s₂ changes journal h₁ _ hdefer hhard happ _
        rw [← hdefer] at hhard ⊢
        have hnew := (State.hard_apply_iff h₁ hhard happ).mpr (fits_of_uncounted hcount hrule h₁ happ)
        rcases State.apply_cases h₁ changes true with
          ⟨reason, heq⟩ | ⟨s₃, journal₃, heq, -, hsame, -, -⟩
        · rw [happ] at heq
          cases heq
        · rw [happ] at heq
          cases heq
          rw [hsame] at hnew
          exact hnew }
  have hstart : A.Inv 0 (Optimizer.init s draws clock) :=
    init_inv A hs hlocked rfl ((State.fullRecheck_iff hs).mp hvalid) (le_refl s.objective) draws
  apply (run_spec hclasses hteam progress order deadline bound hstart).mono
  rintro ended o' ⟨h', -, -⟩
  refine ⟨?_, h'.consistent.recount.exclusive⟩
  rw [State.fullRecheck_iff h'.consistent, h'.deferMin]
  exact h'.grid

theorem linkedClasses_hardValid : linkedClasses.desk.state.fullRecheck = true ∧ Returns
    (Optimizer.run true id 3000 4)
    (Optimizer.init linkedClasses.desk.state (fun i => i) fun i => 1000 * (i : Int))
    fun _ o' => o'.state.fullRecheck = true ∧ linkedClasses.Exclusive o'.state.grid := by
  have hvalid : linkedClasses.desk.state.fullRecheck = true := by decide +kernel
  refine ⟨hvalid, run_hardValid (by decide) linkedClasses_oneTeam ?_ (fun _ _ _ _ => rfl) _
    linkedClasses_consistent linkedClasses_locked hvalid _ _ true id 3000 4⟩
  intro t rule hrule
  cases hrule

end Results

/-! ### A subject with two teams -/

/-- One class has a subject with two teachers; the first one has a lesson of another class too. -/
def twoTeams : Problem where
  numClasses := 2
  numTeachers := 2
  numSubjects := 2
  numAssignments := 4
  className := ![("6A" : String), "6B"]
  teacherName := ![("GV1" : String), "GV2"]
  subjectName := ![("Toan" : String), "Van"]
  aClass := ![0, 0, 0, 1]
  aSubject := ![0, 0, 1, 0]
  aTeacher := ![some 0, some 1, none, some 0]
  aTeachers := ![[0], [1], [], [0]]
  aRoom := fun _ => ""
  aPeriods := fun _ => 1
  aCap := fun _ => 5
  aAllowed := fun _ _ => true
  aRule := fun _ => none
  aLoc := fun _ => none
  teacherRules := fun _ => none
  teacherMust := fun _ => []
  teacherLocRules := fun _ => false
  noSameSession := fun _ => []
  noSameDay := fun _ => []
  fixedCells := []
  fixedMask := fun _ _ => false
  timeLimitRules := []
  subjectGroups := fun _ => []
  groupRuleKeys := fun _ _ => none
  rawGroups := fun _ _ => []

namespace twoTeams

/-- The first teacher has the periods 1 and 4, the second one has the subject at period 3. -/
def placed : List (Edit twoTeams) :=
  [.apply [((0 : Fin 2), 1, some (2 : Fin 4)), ((0 : Fin 2), 2, some (1 : Fin 4)),
    ((0 : Fin 2), 3, some (0 : Fin 4)), ((1 : Fin 2), 0, some (3 : Fin 4))] true]

def desk : Desk twoTeams := placed.foldl Desk.step (Desk.init twoTeams false)

/-- The run at the border takes in the lesson of the second teacher and overlaps the window of holes: the
slide writes that lesson twice and loses the one of the other subject. -/
theorem slide_loses : desk.state.aPlaced (2 : Fin 4) = 1 ∧
    (exec (Optimizer.slideIntoHole (0 : Fin 2) 0 (desk.state.holes (0 : Fin 2) 0))
      (Optimizer.init desk.state (fun _ => 0) fun _ => 0)).2.state.aPlaced (2 : Fin 4) = 0 := by
  decide +kernel

end twoTeams

end TkbCherry.Engine
