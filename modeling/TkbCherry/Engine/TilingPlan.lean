import TkbCherry.Engine.TilingSearch

/-!
# The block plan

The blocks of an assignment add up to the periods that its fixed cells leave open, and matching the
teachers with little slack only moves blocks from the plan to the row of their class.
-/

namespace TkbCherry.Engine

set_option autoImplicit false

open Filling

/-! ### Block sizes -/

theorem splitBlocks_sum {take : Nat → Rng → Nat × Rng} (hle : ∀ r rng, (take r rng).1 ≤ r) (fuel r : Nat)
    (rng : Rng) {e : List Nat × Rng} (h : splitBlocks take fuel r rng = some e) : e.1.sum = r := by
  induction fuel generalizing r rng e with
  | zero =>
    cases r with
    | zero =>
      cases h
      rfl
    | succ r => cases h
  | succ fuel ih =>
    cases r with
    | zero =>
      cases h
      rfl
    | succ r =>
      rw [splitBlocks, Option.map_eq_some_iff] at h
      obtain ⟨e', he', rfl⟩ := h
      have htail := ih _ _ he'
      have htake := hle (r + 1) rng
      rw [List.sum_cons, htail]
      omega

theorem splitBlocks_pos {take : Nat → Rng → Nat × Rng}
    (hpos : ∀ r rng, 0 < r → 0 < (take r rng).1) (fuel r : Nat) (rng : Rng) {e : List Nat × Rng}
    (h : splitBlocks take fuel r rng = some e) : ∀ n ∈ e.1, 0 < n := by
  induction fuel generalizing r rng e with
  | zero =>
    cases r with
    | zero =>
      cases h
      exact fun n hn => nomatch hn
    | succ r => cases h
  | succ fuel ih =>
    cases r with
    | zero =>
      cases h
      exact fun n hn => nomatch hn
    | succ r =>
      rw [splitBlocks, Option.map_eq_some_iff] at h
      obtain ⟨e', he', rfl⟩ := h
      intro n hn
      cases List.mem_cons.mp hn with
      | inl heq => exact heq ▸ hpos (r + 1) rng (Nat.succ_pos r)
      | inr hmem => exact ih _ _ he' n hmem

/-- The rest shrinks, so the loop ends. -/
theorem splitBlocks_isSome {take : Nat → Rng → Nat × Rng}
    (hpos : ∀ r rng, 0 < r → 0 < (take r rng).1) (fuel r : Nat) (hfuel : r ≤ fuel) (rng : Rng) :
    (splitBlocks take fuel r rng).isSome = true := by
  induction fuel generalizing r rng with
  | zero =>
    cases r with
    | zero => rfl
    | succ r => omega
  | succ fuel ih =>
    cases r with
    | zero => rfl
    | succ r =>
      rw [splitBlocks, Option.isSome_map]
      apply ih
      have htake := hpos (r + 1) rng (Nat.succ_pos r)
      omega

/-- Without a cap above zero the loop does not end. -/
theorem splitBlocks_eq_none {cap : Int} (hcap : cap ≤ 0) (fuel r : Nat) (rng : Rng) :
    splitBlocks (takeCap cap) fuel (r + 1) rng = none := by
  induction fuel generalizing rng with
  | zero => rfl
  | succ fuel ih =>
    have htake : (takeCap cap (r + 1) rng).1 = 0 := by
      simp only [takeCap]
      omega
    rw [splitBlocks, htake, Nat.sub_zero, ih]
    rfl

theorem takeCap_le (cap : Int) (r : Nat) (rng : Rng) : (takeCap cap r rng).1 ≤ r := Nat.min_le_right _ _

theorem takeCap_pos {cap : Int} (hcap : 1 ≤ cap) (r : Nat) (rng : Rng) (hr : 0 < r) :
    0 < (takeCap cap r rng).1 := by
  simp only [takeCap]
  omega

theorem takeAlt_le (cap : Int) (r : Nat) (rng : Rng) : (takeAlt cap r rng).1 ≤ r := by
  unfold takeAlt
  split
  · dsimp only
    omega
  · dsimp only
    omega

theorem takeAlt_pos {cap : Int} (hcap : 2 ≤ cap) (r : Nat) (rng : Rng) (hr : 0 < r) :
    0 < (takeAlt cap r rng).1 := by
  unfold takeAlt
  split
  · dsimp only
    omega
  · dsimp only
    split
    · omega
    · omega

/-- Positive sizes of the sum. -/
structure Cuts (residual : Nat) (sizes : List Nat) : Prop where
  sum : sizes.sum = residual
  pos : ∀ n ∈ sizes, 0 < n

theorem Cuts.perm {residual : Nat} {sizes sizes' : List Nat} (h : Cuts residual sizes)
    (hperm : List.Perm sizes' sizes) : Cuts residual sizes' where
  sum := hperm.sum_eq.trans h.sum
  pos := fun n hn => h.pos n (hperm.mem_iff.mp hn)

theorem Cuts.doubled {residual : Nat} {sizes : List Nat} (h : Cuts residual sizes) (needDouble : Bool) :
    Cuts residual (Engine.doubled needDouble residual sizes) := by
  unfold Engine.doubled
  split
  · rename_i hcond
    simp only [Bool.and_eq_true, decide_eq_true_eq] at hcond
    obtain ⟨⟨_, hsmall⟩, htwo⟩ := hcond
    -- all sizes are one
    have hones : sizes = List.replicate residual 1 := by
      have hall : ∀ n ∈ sizes, n = 1 := by
        intro n hn
        have hlt : n < 2 := by simpa using List.all_eq_true.mp hsmall n hn
        have hpos := h.pos n hn
        omega
      have heq := List.eq_replicate_of_mem hall
      have hsum := h.sum
      rw [heq, List.sum_replicate, smul_eq_mul, Nat.mul_one] at hsum
      rwa [hsum] at heq
    obtain ⟨m, rfl⟩ : ∃ m, residual = m + 2 := ⟨residual - 2, by omega⟩
    rw [hones, List.replicate_succ, List.replicate_succ, List.erase_cons_head, List.erase_cons_head]
    constructor
    · rw [List.sum_append, List.sum_replicate, smul_eq_mul, Nat.mul_one]
      rfl
    · intro n hn
      rcases List.mem_append.mp hn with hm | hm
      · rw [List.eq_of_mem_replicate hm]
        exact Nat.one_pos
      · rw [List.mem_singleton.mp hm]
        exact Nat.two_pos
  · exact h

theorem blockSizes_cuts {residual : Nat} {cap : Int} {needDouble : Bool} {rng : Rng}
    {e : List Nat × Rng} (h : blockSizes residual cap needDouble rng = some e) : Cuts residual e.1 := by
  unfold blockSizes at h
  obtain ⟨e₀, he₀, h⟩ := Option.bind_eq_some_iff.mp h
  have hfirst : Cuts residual e₀.1 := by
    constructor
    · exact splitBlocks_sum (takeCap_le cap) _ _ _ he₀
    · by_cases hcap : 1 ≤ cap
      · exact splitBlocks_pos (takeCap_pos hcap) _ _ _ he₀
      · cases residual with
        | zero =>
          cases he₀
          exact fun n hn => nomatch hn
        | succ r =>
          rw [splitBlocks_eq_none (by omega)] at he₀
          cases he₀
  have hsizes : Cuts residual (if 2 ≤ cap then doubled needDouble residual e₀.1 else e₀.1) := by
    split
    · exact hfirst.doubled needDouble
    · exact hfirst
  revert hsizes h
  generalize (if 2 ≤ cap then doubled needDouble residual e₀.1 else e₀.1) = sizes
  intro h hsizes
  dsimp only at h
  split at h
  · rename_i hcond
    obtain ⟨e₁, he₁, rfl⟩ := Option.map_eq_some_iff.mp h
    have halt : Cuts residual e₁.1 := by
      constructor
      · exact splitBlocks_sum (takeAlt_le cap) _ _ _ he₁
      · exact splitBlocks_pos (takeAlt_pos hcond.2) _ _ _ he₁
    exact (halt.doubled needDouble).perm (List.perm_insertionSort _ _)
  · cases h
    exact hsizes.perm (List.perm_insertionSort _ _)

theorem blockSizes_isSome {cap : Int} (hcap : 1 ≤ cap) (residual : Nat) (needDouble : Bool) (rng : Rng) :
    (blockSizes residual cap needDouble rng).isSome = true := by
  unfold blockSizes
  have hfirst := splitBlocks_isSome (takeCap_pos hcap) residual residual (Nat.le_refl _) rng
  obtain ⟨e, he⟩ := Option.isSome_iff_exists.mp hfirst
  rw [he, Option.bind_some]
  dsimp only
  split
  · rename_i hcond
    rw [Option.isSome_map]
    exact splitBlocks_isSome (takeAlt_pos hcond.2) residual residual (Nat.le_refl _) _
  · rfl

namespace SoftSchedule
variable {P : Problem}

/-! ### The plan of the assignments -/

/-- Every listed assignment has blocks for the periods its fixed cells leave open. -/
theorem planBlocks_cuts {count : P.Asg → Nat} {ais : List P.Asg} (hnodup : ais.Nodup)
    {blocksOf : P.Asg → List Nat} {rng : Rng} {r : (P.Asg → List Nat) × Rng}
    (h : planBlocks count ais blocksOf rng = some r) :
    (∀ ai ∈ ais, blocksOf ai = [] → Cuts (P.aPeriods ai - count ai) (r.1 ai)) ∧
      ∀ ai, ai ∉ ais → r.1 ai = blocksOf ai := by
  induction ais generalizing blocksOf rng with
  | nil =>
    cases h
    exact ⟨fun ai hai => (List.not_mem_nil hai).elim, fun _ _ => rfl⟩
  | cons a ais ih =>
    obtain ⟨hout, hrest⟩ := List.nodup_cons.mp hnodup
    rw [planBlocks] at h
    by_cases hfull : P.aPeriods a ≤ count a
    · rw [if_pos hfull] at h
      obtain ⟨hin, hother⟩ := ih hrest h
      constructor
      · intro ai hai hempty
        cases List.mem_cons.mp hai with
        | inl heq =>
          subst heq
          rw [hother ai hout, hempty, Nat.sub_eq_zero_of_le hfull]
          exact ⟨rfl, fun n hn => nomatch hn⟩
        | inr hmem => exact hin ai hmem hempty
      · intro ai hai
        exact hother ai fun hmem => hai (List.mem_cons_of_mem _ hmem)
    · rw [if_neg hfull] at h
      obtain ⟨e, he, h⟩ := Option.bind_eq_some_iff.mp h
      obtain ⟨hin, hother⟩ := ih hrest h
      constructor
      · intro ai hai hempty
        by_cases heq : ai = a
        · subst heq
          rw [hother ai hout, Function.update_self]
          exact blockSizes_cuts he
        · have hmem := (List.mem_cons.mp hai).resolve_left heq
          apply hin ai hmem
          rw [Function.update_of_ne heq, hempty]
      · intro ai hai
        have hne : ai ≠ a := fun heq => hai (heq ▸ List.mem_cons_self)
        rw [hother ai fun hmem => hai (List.mem_cons_of_mem _ hmem), Function.update_of_ne hne]

theorem planBlocks_isSome (hcap : ∀ ai, 1 ≤ P.aCap ai) (count : P.Asg → Nat) (ais : List P.Asg)
    (blocksOf : P.Asg → List Nat) (rng : Rng) : (planBlocks count ais blocksOf rng).isSome = true := by
  induction ais generalizing blocksOf rng with
  | nil => rfl
  | cons a ais ih =>
    rw [planBlocks]
    split
    · exact ih blocksOf rng
    · obtain ⟨e, he⟩ := Option.isSome_iff_exists.mp (blockSizes_isSome (hcap a)
        (P.aPeriods a - count a) (needDouble a) rng)
      rw [he, Option.bind_some]
      exact ih _ _

/-! ### Fixed cells -/

namespace Fixed

/-- The locked cells are the written ones, each is one of the problem, and they are counted. -/
structure Sound (f : Fixed P) (cells : List (P.Cls × Slot × P.Asg)) : Prop where
  locked : ∀ c slot, f.locked c slot = true ↔ f.soft.grid c slot ≠ none
  source : ∀ c slot ai, f.soft.grid c slot = some ai → (c, slot, ai) ∈ cells
  written : ∀ e ∈ cells, f.soft.grid e.1 e.2.1 ≠ none
  count : ∀ ai, f.count ai = ∑ c, Filling.load (f.soft.grid c) ai

theorem load_set2 {grid : P.Grid} {c : P.Cls} {slot : Slot} (h : grid c slot = none) (bi ai : P.Asg)
    (c' : P.Cls) : Filling.load (Array2.set2 grid c slot (some bi) c') ai =
      Filling.load (grid c') ai + if c' = c ∧ bi = ai then 1 else 0 := by
  by_cases hc : c' = c
  · subst hc
    have hrow : Array2.set2 grid c' slot (some bi) c' = fill (grid c') [slot] (some bi) := by
      funext x
      simp [Array2.set2_apply, fill]
    rw [hrow, load_fill (List.nodup_singleton slot) (by
      intro x hx
      rw [List.mem_singleton.mp hx, h])]
    simp
  · have hrow : Array2.set2 grid c slot (some bi) c' = grid c' := by
      funext x
      exact Array2.set2_of_ne fun heq => hc heq.1
    rw [hrow, if_neg fun hand => hc hand.1, Nat.add_zero]

theorem Sound.place {f : Fixed P} {cells : List (P.Cls × Slot × P.Asg)} (h : f.Sound cells)
    (e : P.Cls × Slot × P.Asg) : (f.place e).Sound (cells ++ [e]) := by
  unfold Fixed.place
  by_cases hempty : f.soft.grid e.1 e.2.1 = none
  · rw [if_pos hempty]
    constructor
    · intro c slot
      dsimp only
      rw [setCell_grid, Array2.set2_apply, Array2.set2_apply]
      split
      · simp
      · exact h.locked c slot
    · intro c slot ai hcell
      dsimp only at hcell
      rw [setCell_grid, Array2.set2_apply] at hcell
      split at hcell
      · rename_i heq
        cases hcell
        rw [heq.1, heq.2]
        exact List.mem_append_right _ List.mem_cons_self
      · exact List.mem_append_left _ (h.source c slot ai hcell)
    · intro e' he'
      dsimp only
      rw [setCell_grid, Array2.set2_apply]
      split
      · exact Option.some_ne_none _
      · rename_i hne
        cases List.mem_append.mp he' with
        | inl hmem => exact h.written e' hmem
        | inr hlast =>
          rw [List.mem_singleton.mp hlast] at hne
          exact absurd ⟨rfl, rfl⟩ hne
    · intro ai
      dsimp only
      rw [setCell_grid]
      simp only [load_set2 hempty]
      rw [Finset.sum_add_distrib, ← h.count]
      by_cases hai : e.2.2 = ai
      · subst hai
        rw [Function.update_self]
        simp
      · rw [Function.update_of_ne fun heq => hai heq.symm]
        simp [hai]
  · rw [if_neg hempty]
    constructor
    · exact h.locked
    · intro c slot ai hcell
      exact List.mem_append_left _ (h.source c slot ai hcell)
    · intro e' he'
      cases List.mem_append.mp he' with
      | inl hmem => exact h.written e' hmem
      | inr hlast =>
        rw [List.mem_singleton.mp hlast]
        exact hempty
    · exact h.count

theorem foldl_sound (cells done : List (P.Cls × Slot × P.Asg)) {f : Fixed P} (h : f.Sound done) :
    (cells.foldl Fixed.place f).Sound (done ++ cells) := by
  induction cells generalizing f done with
  | nil => rwa [List.append_nil]
  | cons e cells ih =>
    have hstep := ih (done ++ [e]) (h.place e)
    rwa [List.append_assoc, List.singleton_append] at hstep

theorem ofProblem_sound (P : Problem) : (ofProblem P).Sound P.fixedCells := by
  apply foldl_sound P.fixedCells []
  constructor
  · intro c slot
    simp [SoftSchedule.init]
  · intro c slot ai h
    cases h
  · intro e he
    cases he
  · intro ai
    simp [SoftSchedule.init, Filling.load]

end Fixed

end SoftSchedule

end TkbCherry.Engine
