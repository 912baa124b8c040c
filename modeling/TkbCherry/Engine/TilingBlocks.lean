import TkbCherry.Engine.TilingPlan

/-!
# What phase 1 places

Before the classes are tiled the row of each holds the fixed cells and the matched blocks, each alone
with its subject in its session, so the runs read off the row are these blocks. A class that is tiled
a second time loses a block exactly when two of the runs are alike or one is still to place.
-/

namespace TkbCherry.Engine

set_option autoImplicit false

open Filling

namespace SoftSchedule
variable {P : Problem}

/-! ### Rows with blocks -/

/-- A block at its place. -/
structure Tile (P : Problem) where
  ai : P.Asg
  s : Session
  start : Nat
  size : Nat

namespace Tile

def cells (t : Tile P) : List Slot := window t.s t.start t.size

def block (t : Tile P) : Block P := (t.ai, t.size)

/-- The first cell. -/
def first (t : Tile P) : Slot := slotAt t.s ⟨t.start % 5, Nat.mod_lt _ (by decide)⟩

end Tile

/-- A row with blocks beside its first cells, each alone with its subject in its session. -/
structure RowTiled (row₀ row : Slot → Option P.Asg) (tiles : List (Tile P)) : Prop where
  inside : ∀ t ∈ tiles, t.start + t.size ≤ 5 ∧ 0 < t.size
  held : ∀ t ∈ tiles, ∀ x ∈ t.cells, row x = some t.ai ∧ row₀ x = none
  kept : ∀ x, (∀ t ∈ tiles, x ∉ t.cells) → row x = row₀ x
  alone : ∀ t ∈ tiles, ∀ x, sessionOfSlot x = t.s →
    (row x).map P.aSubject = some (P.aSubject t.ai) → x ∈ t.cells
  apart : tiles.Pairwise fun t u => ∀ x ∈ t.cells, x ∉ u.cells
  adds : Adds row₀ row (tiles.map Tile.block)

theorem Tile.first_mem {t : Tile P} (h : t.start + t.size ≤ 5 ∧ 0 < t.size) : t.first ∈ t.cells := by
  have hstart : t.start % 5 = t.start := Nat.mod_eq_of_lt (by omega)
  rw [Tile.cells, mem_window, Tile.first, sessionOfSlot_slotAt, periodOfSlot_slotAt]
  dsimp only
  exact ⟨rfl, by omega, by omega⟩

theorem RowTiled.nil (row : Slot → Option P.Asg) : RowTiled row row [] where
  inside := fun _ h => (List.not_mem_nil h).elim
  held := fun _ h => (List.not_mem_nil h).elim
  kept := fun _ _ => rfl
  alone := fun _ h => (List.not_mem_nil h).elim
  apart := List.Pairwise.nil
  adds := Adds.refl row

theorem hasSubject_iff {row : Slot → Option P.Asg} {s : Session} {si : P.Sub} :
    hasSubject row s si = true ↔ ∃ x, sessionOfSlot x = s ∧ (row x).map P.aSubject = some si := by
  rw [hasSubject, List.any_eq_true]
  constructor
  · intro h
    obtain ⟨p, _, hp⟩ := h
    exact ⟨slotAt s p, sessionOfSlot_slotAt s p, of_decide_eq_true hp⟩
  · intro h
    obtain ⟨x, rfl, hx⟩ := h
    refine ⟨periodOfSlot x, mem_allPeriods _, ?_⟩
    rw [slotAt_session_period]
    exact decide_eq_true hx

/-- One more block in a session without its subject. -/
theorem RowTiled.snoc {row₀ row : Slot → Option P.Asg} {tiles : List (Tile P)}
    (h : RowTiled row₀ row tiles) {t : Tile P} (hsize : 0 < t.size)
    (hsubject : hasSubject row t.s (P.aSubject t.ai) = false) (hvacant : Vacant row t.size (t.s, t.start)) :
    RowTiled row₀ (fill row t.cells (some t.ai)) (tiles ++ [t]) := by
  have hin : t.start + t.size ≤ 5 ∧ 0 < t.size := ⟨hvacant.1, hsize⟩
  have hempty : ∀ x ∈ t.cells, row x = none := hvacant.2
  have hno : ∀ x, sessionOfSlot x = t.s → (row x).map P.aSubject ≠ some (P.aSubject t.ai) := by
    intro x hx hsub
    rw [hasSubject_iff.mpr ⟨x, hx, hsub⟩] at hsubject
    cases hsubject
  have hapart : ∀ u ∈ tiles, ∀ x ∈ u.cells, x ∉ t.cells := by
    intro u hu x hx hmem
    have hheld := (h.held u hu x hx).1
    rw [hempty x hmem] at hheld
    cases hheld
  constructor
  · intro u hu
    cases List.mem_append.mp hu with
    | inl hmem => exact h.inside u hmem
    | inr hlast => exact List.mem_singleton.mp hlast ▸ hin
  · intro u hu x hx
    cases List.mem_append.mp hu with
    | inl hmem =>
      rw [fill_of_notMem (hapart u hmem x hx)]
      exact h.held u hmem x hx
    | inr hlast =>
      cases List.mem_singleton.mp hlast
      refine ⟨fill_of_mem hx, ?_⟩
      -- the cell was empty before every block
      have hout : ∀ u ∈ tiles, x ∉ u.cells := fun u hu hmem => hapart u hu x hmem hx
      rw [← h.kept x hout, hempty x hx]
  · intro x hx
    have hlast : x ∉ t.cells := hx t (List.mem_append_right _ List.mem_cons_self)
    rw [fill_of_notMem hlast]
    exact h.kept x fun u hu => hx u (List.mem_append_left _ hu)
  · intro u hu x hs hsub
    cases List.mem_append.mp hu with
    | inl hmem =>
      by_cases hx : x ∈ t.cells
      · -- the subject of the block would stand in the session already
        exfalso
        rw [fill_of_mem hx, Option.map_some] at hsub
        have hsession : u.s = t.s := hs.symm.trans (mem_window.mp hx).1
        have hfirst := Tile.first_mem (h.inside u hmem)
        apply hno u.first ((mem_window.mp hfirst).1.trans hsession)
        rw [(h.held u hmem _ hfirst).1, Option.map_some, hsub]
      · rw [fill_of_notMem hx] at hsub
        exact h.alone u hmem x hs hsub
    | inr hlast =>
      cases List.mem_singleton.mp hlast
      by_contra hx
      rw [fill_of_notMem hx] at hsub
      exact hno x hs hsub
  · rw [List.pairwise_append]
    refine ⟨h.apart, List.pairwise_singleton _ _, ?_⟩
    intro u hu v hv
    rw [List.mem_singleton.mp hv]
    exact hapart u hu
  · rw [List.map_append]
    exact h.adds.trans (adds_write hvacant t.ai)

/-! ### The runs of a row -/

theorem runLow_eq {same : Nat → Bool} {start stop : Nat}
    (hsame : ∀ q, q < 5 → same q = decide (start ≤ q ∧ q < stop)) (p : Nat) (hp : p < 5)
    (hstart : start ≤ p) (hstop : p < stop) : runLow same p = start := by
  induction p with
  | zero =>
    rw [runLow]
    omega
  | succ p ih =>
    rw [runLow, hsame p (by omega)]
    by_cases hlow : start ≤ p
    · rw [if_pos (decide_eq_true ⟨hlow, by omega⟩)]
      exact ih (by omega) hlow (by omega)
    · rw [if_neg (by simp [hlow])]
      omega

theorem runHigh_eq {same : Nat → Bool} {start stop : Nat}
    (hsame : ∀ q, q < 5 → same q = decide (start ≤ q ∧ q < stop)) (p n : Nat) (hn : p + n ≤ 4)
    (hstart : start ≤ p) (hstop : p < stop) (hend : stop ≤ p + n + 1) :
    runHigh same p n = stop - 1 - p := by
  induction n generalizing p with
  | zero =>
    rw [runHigh]
    omega
  | succ n ih =>
    rw [runHigh, hsame (p + 1) (by omega)]
    by_cases hhigh : p + 1 < stop
    · rw [if_pos (decide_eq_true ⟨by omega, hhigh⟩), ih (p + 1) (by omega) (by omega) hhigh (by omega)]
      omega
    · rw [if_neg (by simp [hhigh])]
      omega

/-- The run at a cell of a block is the block. -/
theorem RowTiled.runWindow_eq {row₀ row : Slot → Option P.Asg} {tiles : List (Tile P)}
    (h : RowTiled row₀ row tiles) {t : Tile P} (ht : t ∈ tiles) {x : Slot} (hx : x ∈ t.cells) :
    runWindow row (sessionOfSlot x) (periodOfSlot x) (P.aSubject t.ai) = (t.start, t.size) := by
  obtain ⟨hs, hlow, hhigh⟩ := mem_window.mp hx
  obtain ⟨hin, hpos⟩ := h.inside t ht
  have hp : (periodOfSlot x).val < 5 := (periodOfSlot x).isLt
  have hsame : ∀ q, q < 5 → (if hq : q < 5 then decide ((row (slotAt (sessionOfSlot x) ⟨q, hq⟩)).map
      P.aSubject = some (P.aSubject t.ai)) else false) =
        decide (t.start ≤ q ∧ q < t.start + t.size) := by
    intro q hq
    rw [dif_pos hq]
    apply decide_eq_decide.mpr
    have hcell : slotAt (sessionOfSlot x) ⟨q, hq⟩ ∈ t.cells ↔ t.start ≤ q ∧ q < t.start + t.size := by
      rw [Tile.cells, mem_window, sessionOfSlot_slotAt, periodOfSlot_slotAt]
      exact and_iff_right hs
    rw [← hcell]
    constructor
    · intro hsub
      apply h.alone t ht _ _ hsub
      rw [sessionOfSlot_slotAt, hs]
    · intro hmem
      rw [(h.held t ht _ hmem).1, Option.map_some]
  unfold runWindow
  dsimp only
  rw [runLow_eq hsame _ hp hlow hhigh, runHigh_eq hsame _ _ (by omega) hlow hhigh (by omega)]
  congr 1
  omega

section Runs
variable {k : SoftSchedule P} {locked : P.Cls → Slot → Bool} {c : P.Cls}
  {row₀ : Slot → Option P.Asg} {tiles : List (Tile P)}

/-- A cell of a block is unlocked and reads the block at its first cell. -/
theorem RowTiled.runAt_cell (h : RowTiled row₀ (k.grid c) tiles)
    (hlocked : ∀ x, locked c x = true ↔ row₀ x ≠ none) {t : Tile P} (ht : t ∈ tiles) {x : Slot}
    (hx : x ∈ t.cells) : k.runAt locked c x = if x = t.first then some t.block else none := by
  obtain ⟨hrow, hnone⟩ := h.held t ht x hx
  have hfree : ¬ locked c x = true := fun hl => (hlocked _).mp hl hnone
  have hstart : t.start % 5 = t.start := Nat.mod_eq_of_lt (by have := h.inside t ht; omega)
  have hfirst : (periodOfSlot t.first).val = t.start := by
    rw [Tile.first, periodOfSlot_slotAt]
    exact hstart
  have hiff : t.start = (periodOfSlot x).val ↔ x = t.first := by
    constructor
    · intro heq
      have hp : periodOfSlot x = periodOfSlot t.first := Fin.ext (heq.symm.trans hfirst.symm)
      have hs : sessionOfSlot x = sessionOfSlot t.first := by
        rw [(mem_window.mp hx).1, Tile.first, sessionOfSlot_slotAt]
      rw [← slotAt_session_period x, hp, hs, slotAt_session_period]
    · intro heq
      rw [heq]
      exact hfirst.symm
  rw [runAt, hrow, Option.bind_some, if_neg hfree, h.runWindow_eq ht hx]
  simp only [hiff]
  rfl

theorem RowTiled.runAt_first (h : RowTiled row₀ (k.grid c) tiles)
    (hlocked : ∀ x, locked c x = true ↔ row₀ x ≠ none) {t : Tile P} (ht : t ∈ tiles) :
    k.runAt locked c t.first = some t.block := by
  rw [h.runAt_cell hlocked ht (Tile.first_mem (h.inside t ht)), if_pos rfl]

theorem RowTiled.runAt_other (h : RowTiled row₀ (k.grid c) tiles)
    (hlocked : ∀ x, locked c x = true ↔ row₀ x ≠ none) {x : Slot} (hx : x ∉ tiles.map Tile.first) :
    k.runAt locked c x = none := by
  by_cases hin : ∃ t ∈ tiles, x ∈ t.cells
  · obtain ⟨t, ht, hmem⟩ := hin
    rw [h.runAt_cell hlocked ht hmem, if_neg]
    intro heq
    exact hx (heq ▸ List.mem_map_of_mem ht)
  · have hkept : k.grid c x = row₀ x := h.kept x fun t ht hmem => hin ⟨t, ht, hmem⟩
    rw [runAt, hkept]
    cases hrow : row₀ x with
    | none => rfl
    | some ai =>
      have hl : locked c x = true := (hlocked x).mpr (by simp [hrow])
      rw [Option.bind_some, if_pos hl]

theorem RowTiled.nodup_first (h : RowTiled row₀ (k.grid c) tiles) : (tiles.map Tile.first).Nodup := by
  rw [List.Nodup, List.pairwise_map]
  apply (List.Pairwise.and_mem.mp h.apart).imp
  intro t u htu heq
  have hmem := Tile.first_mem (h.inside t htu.1)
  have hmem' := Tile.first_mem (h.inside u htu.2.1)
  exact htu.2.2 _ hmem (heq ▸ hmem')

/-- The runs that start at unlocked cells are the blocks. -/
theorem RowTiled.runs_perm (h : RowTiled row₀ (k.grid c) tiles)
    (hlocked : ∀ x, locked c x = true ↔ row₀ x ≠ none) :
    List.Perm (k.unlockedRuns locked c) (tiles.map Tile.block) := by
  have hslots : List.Perm (allSlots.filter fun x => decide (x ∈ tiles.map Tile.first))
      (tiles.map Tile.first) := by
    apply (List.perm_ext_iff_of_nodup ((List.nodup_finRange 60).filter _) h.nodup_first).mpr
    intro x
    rw [List.mem_filter, decide_eq_true_eq]
    exact and_iff_right (mem_allSlots x)
  have hruns : k.unlockedRuns locked c =
      (allSlots.filter fun x => decide (x ∈ tiles.map Tile.first)).filterMap (k.runAt locked c) := by
    rw [List.filterMap_filter]
    apply List.filterMap_congr
    intro x _
    by_cases hx : x ∈ tiles.map Tile.first
    · rw [if_pos (decide_eq_true hx)]
    · rw [if_neg (by simpa using hx)]
      exact h.runAt_other hlocked hx
  have hmap : (tiles.map Tile.first).filterMap (k.runAt locked c) = tiles.map Tile.block := by
    rw [List.filterMap_map, ← List.filterMap_eq_map]
    apply List.filterMap_congr
    intro t ht
    exact h.runAt_first hlocked ht
  rw [hruns, ← hmap]
  exact hslots.filterMap _

/-- Clearing the unlocked cells leaves the fixed ones. -/
theorem RowTiled.clear (h : RowTiled row₀ (k.grid c) tiles)
    (hlocked : ∀ x, locked c x = true ↔ row₀ x ≠ none) : (k.clearUnlocked locked c).grid c = row₀ := by
  rw [clearUnlocked, write_row]
  funext x
  by_cases hx : k.grid c x ≠ none ∧ locked c x = false
  · rw [fill_of_mem (List.mem_filter.mpr ⟨mem_allSlots x, by simp [hx.1, hx.2]⟩)]
    by_contra hne
    have hl := (hlocked x).mpr fun heq => hne heq.symm
    rw [hx.2] at hl
    cases hl
  · rw [fill_of_notMem (by
      intro hmem
      apply hx
      simpa using (List.mem_filter.mp hmem).2)]
    by_cases hin : ∃ t ∈ tiles, x ∈ t.cells
    · obtain ⟨t, ht, hmem⟩ := hin
      obtain ⟨hrow, hnone⟩ := h.held t ht x hmem
      exfalso
      apply hx
      refine ⟨by rw [hrow]; exact Option.some_ne_none _, ?_⟩
      exact eq_false_of_ne_true fun hl => (hlocked x).mp hl hnone
    · exact h.kept x fun t ht hmem => hin ⟨t, ht, hmem⟩

end Runs

/-! ### Matching the teachers -/

namespace Plan
variable {p : Plan P} {f : Fixed P}

/-- The rows hold the fixed cells and the matched blocks, and the plan the blocks still to place. -/
structure Matched (f : Fixed P) (p : Plan P) : Prop where
  rows : ∀ c, ∃ tiles, RowTiled (f.soft.grid c) (p.soft.grid c) tiles ∧
    tiles.map Tile.block = p.prematched c
  classes : ∀ c, ∀ b ∈ p.prematched c, P.aClass b.1 = c

theorem foldl_best {α : Type} (l : List (Rat × α)) (best : Option (Rat × α)) {e : Rat × α}
    (h : l.foldl (fun (best : Option (Rat × α)) e =>
      if best.all fun b => decide (e.1 < b.1) then some e else best) best = some e) :
    e ∈ l ∨ best = some e := by
  induction l generalizing best with
  | nil => exact Or.inr h
  | cons e' l ih =>
    rw [List.foldl_cons] at h
    cases ih _ h with
    | inl hmem => exact Or.inl (List.mem_cons_of_mem _ hmem)
    | inr hbest =>
      split at hbest
      · cases hbest
        exact Or.inl List.mem_cons_self
      · exact Or.inr hbest

theorem isOpen_of_bestWindow {k : SoftSchedule P} {ai : P.Asg} {size : Nat} {rng : Rng}
    {e : Session × Nat} (h : (bestWindow k ai size rng).1 = some e) :
    e ∈ windowStarts size ∧ k.isOpen (P.aClass ai) ai size e = true := by
  unfold bestWindow at h
  obtain ⟨scored, hscored, rfl⟩ := Option.map_eq_some_iff.mp h
  cases foldl_best _ none hscored with
  | inl hmem =>
    obtain ⟨tagged, htagged, rfl⟩ := List.mem_map.mp hmem
    obtain ⟨hstart, hopen⟩ := List.mem_filter.mp (Rng.mem_of_tag htagged)
    exact ⟨hstart, (Bool.and_eq_true_iff.mp hopen).1⟩
  | inr hnone => cases hnone

/-- The matched blocks grow by the blocks placed. -/
structure Grown (f : Fixed P) (p : Plan P) (placedNow : List (Block P)) (r : Plan P × List (Block P))
    (bs : List (Block P)) : Prop where
  matched : Matched f r.1
  plan : r.1.blocksOf = p.blocksOf
  placed : ∃ l, r.2 = placedNow ++ l ∧ List.Sublist l bs ∧
    ∀ ai, weight ai (r.1.prematched (P.aClass ai)) = weight ai (p.prematched (P.aClass ai)) + weight ai l

theorem prematchBlock_grown (h : Matched f p) (placedNow : List (Block P)) (b : Block P)
    (hpos : 0 < b.2) : Grown f p placedNow (prematchBlock p placedNow b) [b] := by
  have hsame : ∀ (rng : Rng) (k : SoftSchedule P), k.grid = p.soft.grid →
      Grown f p placedNow ({ p with soft := k, rng := rng }, placedNow) [b] := by
    intro rng k hk
    refine ⟨⟨?_, h.classes⟩, rfl, [], (List.append_nil _).symm, List.nil_sublist _, fun _ => rfl⟩
    intro c
    rw [hk]
    exact h.rows c
  unfold prematchBlock
  dsimp only
  cases hbest : (bestWindow p.soft b.1 b.2 p.rng).1 with
  | none => exact hsame _ _ rfl
  | some e =>
    obtain ⟨s, start⟩ := e
    obtain ⟨hstart, hopen⟩ := isOpen_of_bestWindow hbest
    have hvacant := vacant_of_isOpen hstart hopen
    have hsubject : hasSubject (p.soft.grid (P.aClass b.1)) s (P.aSubject b.1) = false := by
      simpa using (Bool.and_eq_true_iff.mp hopen).1
    dsimp only
    split
    · -- the block is placed
      refine ⟨⟨?_, ?_⟩, rfl, [b], rfl, List.Sublist.refl _, ?_⟩
      · intro c
        dsimp only
        by_cases hc : c = P.aClass b.1
        · subst hc
          obtain ⟨tiles, hrow, hblocks⟩ := h.rows (P.aClass b.1)
          refine ⟨tiles ++ [⟨b.1, s, start, b.2⟩], ?_, ?_⟩
          · rw [write_row]
            exact hrow.snoc (t := ⟨b.1, s, start, b.2⟩) hpos hsubject hvacant
          · rw [Function.update_self, List.map_append, hblocks]
            rfl
        · rw [write_other _ hc, Function.update_of_ne hc]
          exact h.rows c
      · intro c b' hb'
        dsimp only at hb'
        by_cases hc : c = P.aClass b.1
        · subst hc
          rw [Function.update_self] at hb'
          cases List.mem_append.mp hb' with
          | inl hmem => exact h.classes _ b' hmem
          | inr hlast => rw [List.mem_singleton.mp hlast]
        · rw [Function.update_of_ne hc] at hb'
          exact h.classes c b' hb'
      · intro ai
        dsimp only
        by_cases hc : P.aClass ai = P.aClass b.1
        · rw [hc, Function.update_self, weight_append]
        · have hne : ∀ b' ∈ [b], b'.1 ≠ ai := by
            intro b' hb' heq
            rw [List.mem_singleton.mp hb'] at heq
            exact hc (heq ▸ rfl)
          rw [Function.update_of_ne hc, weight_eq_zero hne, Nat.add_zero]
    · apply hsame
      exact clear_write hvacant (fun c' hc => write_other p.soft hc _ _) (write_row p.soft _ _ _)

theorem prematchBlocks_grown (bs : List (Block P)) (hpos : ∀ b ∈ bs, 0 < b.2) (h : Matched f p)
    (placedNow : List (Block P)) : Grown f p placedNow (prematchBlocks p placedNow bs) bs := by
  induction bs generalizing p placedNow with
  | nil => exact ⟨h, rfl, [], (List.append_nil _).symm, List.Sublist.refl _, fun _ => rfl⟩
  | cons b bs ih =>
    have hfirst := prematchBlock_grown h placedNow b (hpos b List.mem_cons_self)
    have hrest := ih (fun b' hb' => hpos b' (List.mem_cons_of_mem _ hb')) hfirst.matched
      (prematchBlock p placedNow b).2
    obtain ⟨l, hl, hsub, hweight⟩ := hfirst.placed
    obtain ⟨l', hl', hsub', hweight'⟩ := hrest.placed
    refine ⟨hrest.matched, hrest.plan.trans hfirst.plan, l ++ l', ?_, hsub.append hsub', ?_⟩
    · rw [← List.append_assoc, ← hl]
      exact hl'
    · intro ai
      rw [weight_append, ← Nat.add_assoc, ← hweight]
      exact hweight' ai

/-- The sizes of an assignment in a list of blocks. -/
def sizesOf (ai : P.Asg) (bs : List (Block P)) : List Nat :=
  (bs.filter fun b => decide (b.1 = ai)).map Prod.snd

theorem foldl_unplan (bs : List (Block P)) (blocksOf : P.Asg → List Nat) (ai : P.Asg) :
    bs.foldl unplan blocksOf ai = (blocksOf ai).diff (sizesOf ai bs) := by
  induction bs generalizing blocksOf with
  | nil => rfl
  | cons b bs ih =>
    rw [List.foldl_cons, ih, unplan, sizesOf, sizesOf]
    by_cases hb : b.1 = ai
    · subst hb
      rw [Function.update_self, List.filter_cons_of_pos (by simp), List.map_cons, List.diff_cons]
    · rw [Function.update_of_ne fun heq => hb heq.symm, List.filter_cons_of_neg (by simpa using hb)]

/-- The blocks of the plan that a teacher takes part in. -/
def items (p : Plan P) (t : P.Tch) : List (Block P) :=
  (P.allAssignments.filter fun ai => decide (t ∈ P.aTeachers ai)).flatMap fun ai =>
    (p.blocksOf ai).map fun size => (ai, size)

theorem sizesOf_flatMap (ais : List P.Asg) (hnodup : ais.Nodup) (blocksOf : P.Asg → List Nat)
    (ai : P.Asg) : sizesOf ai (ais.flatMap fun ai => (blocksOf ai).map fun size => (ai, size)) =
      if ai ∈ ais then blocksOf ai else [] := by
  induction ais with
  | nil => rfl
  | cons a ais ih =>
    obtain ⟨hout, hrest⟩ := List.nodup_cons.mp hnodup
    have htail := ih hrest
    unfold sizesOf at htail ⊢
    rw [List.flatMap_cons, List.filter_append, List.map_append, htail, List.filter_map, List.map_map]
    by_cases ha : a = ai
    · subst ha
      rw [if_pos List.mem_cons_self, if_neg hout, List.append_nil, List.filter_eq_self.mpr]
      · exact List.map_id _
      · intro n _
        exact decide_eq_true rfl
    · have hnil : (blocksOf a).filter ((fun b : Block P => decide (b.1 = ai)) ∘ fun size => (a, size)) =
          [] := by
        rw [List.filter_eq_nil_iff]
        intro n _
        simpa using ha
      rw [hnil, List.map_nil, List.nil_append]
      by_cases hmem : ai ∈ ais
      · rw [if_pos hmem, if_pos (List.mem_cons_of_mem _ hmem)]
      · rw [if_neg hmem, if_neg fun h => (List.mem_cons.mp h).elim (fun heq => ha heq.symm) hmem]

/-- What is kept while blocks move from the plan to the rows. -/
structure Kept (f : Fixed P) (due : P.Asg → Nat) (p : Plan P) : Prop where
  matched : Matched f p
  pos : ∀ ai, ∀ n ∈ p.blocksOf ai, 0 < n
  due : ∀ ai, (p.blocksOf ai).sum + weight ai (p.prematched (P.aClass ai)) = due ai

theorem prematchTeacher_kept {due : P.Asg → Nat} (h : Kept f due p) (t : P.Tch) :
    Kept f due (p.prematchTeacher t) := by
  have hitems : ∀ b ∈ p.items t, b.2 ∈ p.blocksOf b.1 := by
    intro b hb
    obtain ⟨ai, _, hmem⟩ := List.mem_flatMap.mp hb
    obtain ⟨n, hn, rfl⟩ := List.mem_map.mp hmem
    exact hn
  have hperm := shuffled_perm (p.items t) p.rng
  have hmatched : Matched f { p with rng := (shuffled (p.items t) p.rng).2 } :=
    ⟨h.matched.rows, h.matched.classes⟩
  have hgrown := prematchBlocks_grown (shuffled (p.items t) p.rng).1
    (fun b hb => h.pos b.1 b.2 (hitems b (hperm.mem_iff.mp hb))) hmatched []
  obtain ⟨l, hl, hsub, hweight⟩ := hgrown.placed
  rw [List.nil_append] at hl
  -- the blocks placed are blocks of the plan
  have hnodup : P.allAssignments.Nodup := List.nodup_finRange _
  have hsizes : ∀ ai, List.Subperm (sizesOf ai l) (p.blocksOf ai) := by
    intro ai
    have hsublist : List.Sublist (sizesOf ai l) (sizesOf ai (shuffled (p.items t) p.rng).1) :=
      (hsub.filter _).map _
    have hsame : List.Perm (sizesOf ai (shuffled (p.items t) p.rng).1) (sizesOf ai (p.items t)) :=
      (hperm.filter _).map _
    have hplan : List.Sublist (sizesOf ai (p.items t)) (p.blocksOf ai) := by
      rw [items, sizesOf_flatMap _ (hnodup.filter _)]
      split
      · exact List.Sublist.refl _
      · exact List.nil_sublist _
    exact (hsublist.subperm.trans hsame.subperm).trans hplan.subperm
  have hplan : ∀ ai, (p.prematchTeacher t).blocksOf ai = (p.blocksOf ai).diff (sizesOf ai l) := by
    intro ai
    have hfold := foldl_unplan l p.blocksOf ai
    rw [← hfold, ← hl]
    exact congrFun (congrArg (fun g => List.foldl unplan g _) hgrown.plan) ai
  constructor
  · exact ⟨hgrown.matched.rows, hgrown.matched.classes⟩
  · intro ai n hn
    rw [hplan ai] at hn
    exact h.pos ai n (List.diff_subset _ _ hn)
  · intro ai
    have hsum := (List.subperm_append_diff_self_of_count_le (List.subperm_ext_iff.mp (hsizes ai))).sum_eq
    have hw : weight ai l = (sizesOf ai l).sum := rfl
    have hafter : weight ai ((p.prematchTeacher t).prematched (P.aClass ai)) =
        weight ai (p.prematched (P.aClass ai)) + weight ai l := hweight ai
    have hdue := h.due ai
    rw [List.sum_append] at hsum
    rw [hplan ai, hafter, hw]
    omega

theorem matchTeachers_kept {due : P.Asg → Nat} (h : Kept f due p)
    (teacherAvail : P.Tch → Slot → Bool) : Kept f due (p.matchTeachers teacherAvail) := by
  unfold matchTeachers
  generalize p.tightTeachers teacherAvail = ts
  induction ts generalizing p with
  | nil => exact h
  | cons t ts ih => exact ih (prematchTeacher_kept h t)

end Plan

/-! ### One class -/

namespace Tiling
variable {g : Tiling P} {c : P.Cls} {row₀ : Slot → Option P.Asg}

/-- What the row of a class holds once it is tiled: no more than its blocks, and all of them exactly
when no second attempt lost one. -/
structure Holds (g : Tiling P) (c : P.Cls) (row₀ row : Slot → Option P.Asg) (keeps : Prop)
    (bs : List (Block P)) : Prop where
  adds : Adds row₀ row bs
  le : ∀ ai, weight ai bs ≤ weight ai (g.prematched c) + weight ai (g.todo c)
  iff : (∀ ai, weight ai bs = weight ai (g.prematched c) + weight ai (g.todo c)) ↔ keeps

/-- The row before the class is tiled. -/
def Ready (g : Tiling P) (c : P.Cls) (row₀ row : Slot → Option P.Asg) : Prop :=
  ∃ tiles, RowTiled row₀ row tiles ∧ tiles.map Tile.block = g.prematched c

theorem Holds.of_all {row : Slot → Option P.Asg} {keeps : Prop} (hkeeps : keeps)
    (h : Adds row₀ row (g.prematched c ++ g.todo c)) :
    g.Holds c row₀ row keeps (g.prematched c ++ g.todo c) := by
  refine ⟨h, ?_, ?_⟩
  · intro ai
    rw [weight_append]
  · refine ⟨fun _ => hkeeps, fun _ ai => ?_⟩
    rw [weight_append]

theorem tileStep_other (g : Tiling P) {c c' : P.Cls} (h : c' ≠ c) (k : SoftSchedule P) (rng : Rng) :
    (g.tileStep c k rng).2.1.grid c' = k.grid c' := by
  have hfirst := (tileClass_tiled c (g.todo c) k rng).other c' h
  unfold tileStep
  split
  · rfl
  · dsimp only
    split
    · exact hfirst
    · split
      · exact hfirst
      · rw [(tileClass_tiled c _ _ _).other c' h, clearUnlocked, write_other _ h]
        exact hfirst

/-- A class that is tiled holds its blocks beside the fixed cells. -/
theorem tileStep_holds {k : SoftSchedule P} (hlocked : ∀ x, g.locked c x = true ↔ row₀ x ≠ none)
    (hready : g.Ready c row₀ (k.grid c)) {rng : Rng} (h : (g.tileStep c k rng).1 = true) :
    ∃ bs, g.Holds c row₀ ((g.tileStep c k rng).2.1.grid c)
      (g.retiles c k rng = true → AllNew (g.todo c) (g.prematched c)) bs := by
  obtain ⟨tiles, hrow, hblocks⟩ := hready
  have hadds := hrow.adds
  rw [hblocks] at hadds
  have hfirst := tileClass_tiled c (g.todo c) k rng
  unfold tileStep at h ⊢
  by_cases hempty : (g.todo c).isEmpty = true
  · -- only blocks that were matched
    rw [if_pos hempty]
    refine ⟨_, Holds.of_all ?_ ?_⟩
    · intro hre
      simp [retiles, hempty] at hre
    · rw [List.isEmpty_iff.mp hempty, List.append_nil]
      exact hadds
  · rw [if_neg hempty] at h ⊢
    dsimp only at h ⊢
    by_cases hok : (tileClass c (g.todo c) k rng).1 = true
    · rw [if_pos hok]
      refine ⟨_, Holds.of_all ?_ (hadds.trans (hfirst.success hok))⟩
      intro hre
      simp [retiles, hok] at hre
    · rw [if_neg hok] at h ⊢
      by_cases hpre : (g.prematched c).isEmpty = true
      · rw [if_pos hpre] at h
        cases h
      · rw [if_neg hpre] at h ⊢
        -- the row is cleared and tiled from its runs
        have hsame := hfirst.failure (eq_false_of_ne_true hok)
        have hrow' : RowTiled row₀ ((tileClass c (g.todo c) k rng).2.1.grid c) tiles := by
          rw [hsame]
          exact hrow
        have hruns := hrow'.runs_perm hlocked
        rw [hblocks] at hruns
        have hpos : ∀ b ∈ (tileClass c (g.todo c) k rng).2.1.unlockedRuns g.locked c, 0 < b.2 := by
          intro b hb
          have hmem := hruns.mem_iff.mp hb
          rw [← hblocks] at hmem
          obtain ⟨t, ht, rfl⟩ := List.mem_map.mp hmem
          exact (hrow.inside t ht).2
        have hsecond := (tileClass_tiled c _ _ _).success h
        rw [hrow'.clear hlocked] at hsecond
        have hweight : ∀ ai, weight ai (g.prematched c) + weight ai (g.todo c) = weight ai (g.todo c) +
            weight ai ((tileClass c (g.todo c) k rng).2.1.unlockedRuns g.locked c) := by
          intro ai
          rw [weight_perm hruns, Nat.add_comm]
        refine ⟨_, hsecond, ?_, ?_⟩
        · intro ai
          rw [hweight]
          exact weight_addNew_le ai _ _
        · have hre : g.retiles c k rng = true := by
            rw [retiles]
            simp only [Bool.and_eq_true, Bool.not_eq_true', eq_false_of_ne_true hempty,
              eq_false_of_ne_true hok, eq_false_of_ne_true hpre, and_self]
          rw [← AllNew.perm hruns, ← weight_addNew_iff hpos]
          simp only [hweight, hre, forall_const]

/-! ### The loop over the classes -/

theorem mem_of_steps {cs : List P.Cls} {k : SoftSchedule P} {rng : Rng}
    {e : P.Cls × SoftSchedule P × Rng} (h : e ∈ g.steps cs k rng) : e.1 ∈ cs := by
  induction cs generalizing k rng with
  | nil => cases h
  | cons c cs ih =>
    rw [steps] at h
    cases List.mem_cons.mp h with
    | inl heq => exact heq ▸ List.mem_cons_self
    | inr hmem => exact List.mem_cons_of_mem _ (ih hmem)

/-- No second attempt at the class loses a block. -/
def KeepsAt (g : Tiling P) (c : P.Cls) (es : List (P.Cls × SoftSchedule P × Rng)) : Prop :=
  ∀ e ∈ es, e.1 = c → g.retiles e.1 e.2.1 e.2.2 = true → AllNew (g.todo e.1) (g.prematched e.1)

theorem tileClasses_holds {base : P.Grid} (hlocked : ∀ c x, g.locked c x = true ↔ base c x ≠ none)
    {late : P.Cls → Bool} {cs : List P.Cls} (hnodup : cs.Nodup) {k k' : SoftSchedule P} {rng : Rng}
    (hready : ∀ c ∈ cs, g.Ready c (base c) (k.grid c)) (h : g.tileClasses late cs k rng = (k', true)) :
    (∀ c, c ∉ cs → k'.grid c = k.grid c) ∧
      ∀ c ∈ cs, ∃ bs, g.Holds c (base c) (k'.grid c) (g.KeepsAt c (g.steps cs k rng)) bs := by
  induction cs generalizing k rng with
  | nil =>
    cases h
    exact ⟨fun _ _ => rfl, fun c hc => (List.not_mem_nil hc).elim⟩
  | cons c cs ih =>
    obtain ⟨hout, hrest⟩ := List.nodup_cons.mp hnodup
    rw [tileClasses] at h
    by_cases hlate : late c = true
    · rw [if_pos hlate] at h
      cases h
    · rw [if_neg hlate, Prod.mk.injEq, Bool.and_eq_true] at h
      obtain ⟨hk, hstep, htiled⟩ := h
      have hother : ∀ c' ∈ cs, c' ≠ c := fun c' hc' heq => hout (heq ▸ hc')
      have hready' : ∀ c' ∈ cs, g.Ready c' (base c') ((g.tileStep c k rng).2.1.grid c') := by
        intro c' hc'
        rw [tileStep_other g (hother c' hc')]
        exact hready c' (List.mem_cons_of_mem _ hc')
      obtain ⟨hkeep, hholds⟩ := ih hrest hready' (Prod.ext hk htiled)
      constructor
      · intro c' hc'
        rw [hkeep c' fun hmem => hc' (List.mem_cons_of_mem _ hmem)]
        have hne : c' ≠ c := fun heq => hc' (heq ▸ List.mem_cons_self)
        exact tileStep_other g hne k rng
      · intro c' hc'
        by_cases heq : c' = c
        · subst heq
          obtain ⟨bs, hbs⟩ := tileStep_holds (hlocked c') (hready c' List.mem_cons_self) hstep
          refine ⟨bs, ?_, hbs.le, hbs.iff.trans ?_⟩
          · rw [hkeep c' hout]
            exact hbs.adds
          · constructor
            · intro hnew e he hec hre
              rw [steps] at he
              cases List.mem_cons.mp he with
              | inl hfirst =>
                subst hfirst
                exact hnew hre
              | inr hmem => exact absurd (hec ▸ mem_of_steps hmem) hout
            · intro hall hre
              exact hall (c', k, rng) List.mem_cons_self rfl hre
        · obtain ⟨bs, hbs⟩ := hholds c' ((List.mem_cons.mp hc').resolve_left heq)
          refine ⟨bs, hbs.adds, hbs.le, hbs.iff.trans ?_⟩
          constructor
          · intro hall e he hec hre
            rw [steps] at he
            cases List.mem_cons.mp he with
            | inl hfirst =>
              subst hfirst
              exact absurd hec.symm heq
            | inr hmem => exact hall e hmem hec hre
          · intro hall e he hec hre
            exact hall e (List.mem_cons_of_mem _ he) hec hre

end Tiling

/-! ### The whole phase -/

/-- The cells of an assignment in the grid. -/
def periodsIn (grid : P.Grid) (ai : P.Asg) : Nat := ∑ c, load (grid c) ai

/-- Every assignment has its number of periods, and the fixed cells are kept. -/
structure Required (P : Problem) (grid : P.Grid) : Prop where
  periods : ∀ ai, periodsIn grid ai = P.aPeriods ai
  fixed : ∀ e ∈ P.fixedCells, grid e.1 e.2.1 = some e.2.2

/-- The fixed cells of an assignment. -/
def fixedPeriods (P : Problem) (ai : P.Asg) : Nat :=
  ∑ c, (Finset.univ.filter fun slot => (c, slot, ai) ∈ P.fixedCells).card

/-- No cell is fixed for two assignments, and no assignment has more fixed cells than periods. -/
structure FixedFit (P : Problem) : Prop where
  agree : ∀ e ∈ P.fixedCells, ∀ e' ∈ P.fixedCells, e.1 = e'.1 → e.2.1 = e'.2.1 → e.2.2 = e'.2.2
  within : ∀ ai, fixedPeriods P ai ≤ P.aPeriods ai

/-- Whenever a class is tiled a second time, the blocks that were matched before differ from each other
and from those still to place. -/
def Plan.KeepsBlocks (p : Plan P) : Prop :=
  ∀ e ∈ p.tiling.steps p.tiling.classes p.soft p.rng,
    p.tiling.retiles e.1 e.2.1 e.2.2 = true → AllNew (p.tiling.todo e.1) (p.tiling.prematched e.1)

def KeepsBlocks (P : Problem) (teacherAvail : P.Tch → Slot → Bool) (rng : Rng) : Prop :=
  ∀ p, Plan.ofProblem P rng = some p → (p.matchTeachers teacherAvail).KeepsBlocks

theorem Fixed.Sound.fixed_iff {f : Fixed P} (h : f.Sound P.fixedCells) :
    (∀ e ∈ P.fixedCells, f.soft.grid e.1 e.2.1 = some e.2.2) ↔
      ∀ e ∈ P.fixedCells, ∀ e' ∈ P.fixedCells, e.1 = e'.1 → e.2.1 = e'.2.1 → e.2.2 = e'.2.2 := by
  constructor
  · intro hkept e he e' he' hc hs
    have hcell := hkept e he
    rw [hc, hs, hkept e' he'] at hcell
    exact (Option.some.inj hcell).symm
  · intro hagree e he
    cases hcell : f.soft.grid e.1 e.2.1 with
    | none => exact absurd hcell (h.written e he)
    | some ai =>
      have hsource := h.source _ _ _ hcell
      rw [hagree e he _ hsource rfl rfl]

theorem Fixed.Sound.fixedPeriods_eq {f : Fixed P} (h : f.Sound P.fixedCells)
    (hkept : ∀ e ∈ P.fixedCells, f.soft.grid e.1 e.2.1 = some e.2.2) (ai : P.Asg) :
    fixedPeriods P ai = f.count ai := by
  rw [h.count, fixedPeriods]
  apply Finset.sum_congr rfl
  intro c _
  unfold load
  congr 1
  ext slot
  simp only [Finset.mem_filter, Finset.mem_univ, true_and]
  constructor
  · intro hmem
    exact hkept _ hmem
  · intro hcell
    exact h.source _ _ _ hcell

/-- The plan at the start. -/
theorem Plan.ofProblem_kept {rng : Rng} {p : Plan P} (h : Plan.ofProblem P rng = some p) :
    Plan.Kept (Fixed.ofProblem P) (fun ai => P.aPeriods ai - (Fixed.ofProblem P).count ai) p := by
  obtain ⟨r, hr, rfl⟩ := Option.map_eq_some_iff.mp h
  have hcuts := (planBlocks_cuts (List.nodup_finRange _) hr).1
  constructor
  · refine ⟨fun c => ⟨[], RowTiled.nil _, rfl⟩, ?_⟩
    intro c b hb
    cases hb
  · intro ai
    exact (hcuts ai (List.mem_finRange ai) rfl).pos
  · intro ai
    exact (hcuts ai (List.mem_finRange ai) rfl).sum

namespace Plan
variable {p : Plan P} {due : P.Asg → Nat}

theorem weight_todo (p : Plan P) (ai : P.Asg) :
    weight ai (p.tiling.todo (P.aClass ai)) = (p.blocksOf ai).sum := by
  have hsizes := sizesOf_flatMap (P.allAssignments.filter fun a => decide (P.aClass a = P.aClass ai))
    ((List.nodup_finRange _).filter _) p.blocksOf ai
  have hmem : ai ∈ P.allAssignments.filter fun a => decide (P.aClass a = P.aClass ai) :=
    List.mem_filter.mpr ⟨List.mem_finRange ai, decide_eq_true rfl⟩
  rw [if_pos hmem] at hsizes
  rw [← hsizes]
  rfl

theorem todo_class {c : P.Cls} {b : Block P} (h : b ∈ p.tiling.todo c) : P.aClass b.1 = c := by
  obtain ⟨ai, hai, hmem⟩ := List.mem_flatMap.mp h
  obtain ⟨n, _, rfl⟩ := List.mem_map.mp hmem
  exact of_decide_eq_true (List.mem_filter.mp hai).2

/-- No assignment has blocks in the row of another class. -/
theorem weight_elsewhere (h : Kept (Fixed.ofProblem P) due p) {c : P.Cls} {ai : P.Asg}
    (hc : P.aClass ai ≠ c) : weight ai (p.tiling.prematched c) + weight ai (p.tiling.todo c) = 0 := by
  have hpre : weight ai (p.tiling.prematched c) = 0 := by
    apply weight_eq_zero
    intro b hb heq
    exact hc (heq ▸ h.matched.classes c b hb)
  have htodo : weight ai (p.tiling.todo c) = 0 := by
    apply weight_eq_zero
    intro b hb heq
    exact hc (heq ▸ todo_class hb)
  rw [hpre, htodo]

/-- Every class holds its blocks after the phase. -/
theorem tiling_holds (h : Kept (Fixed.ofProblem P) due p) {late : P.Cls → Bool} {k : SoftSchedule P}
    (htiled : p.tiling.tileClasses late p.tiling.classes p.soft p.rng = (k, true)) (c : P.Cls) :
    ∃ bs, p.tiling.Holds c ((Fixed.ofProblem P).soft.grid c) (k.grid c)
      (p.tiling.KeepsAt c (p.tiling.steps p.tiling.classes p.soft p.rng)) bs := by
  have hnodup : p.tiling.classes.Nodup :=
    (List.perm_insertionSort _ _).nodup_iff.mpr ((List.nodup_finRange _).filter _)
  have hready : ∀ c ∈ p.tiling.classes,
      p.tiling.Ready c ((Fixed.ofProblem P).soft.grid c) (p.soft.grid c) :=
    fun c _ => h.matched.rows c
  obtain ⟨hkeep, hholds⟩ := Tiling.tileClasses_holds (Fixed.ofProblem_sound P).locked hnodup hready htiled
  by_cases hc : c ∈ p.tiling.classes
  · exact hholds c hc
  · -- a class without blocks
    have hempty : p.tiling.todo c = [] ∧ p.tiling.prematched c = [] := by
      rw [Tiling.classes, List.mem_insertionSort, List.mem_filter] at hc
      simpa [Problem.allClasses] using hc
    obtain ⟨tiles, hrow, hblocks⟩ := h.matched.rows c
    have hadds := hrow.adds
    rw [hblocks] at hadds
    refine ⟨_, Tiling.Holds.of_all ?_ ?_⟩
    · intro e he hec
      exact absurd (hec ▸ Tiling.mem_of_steps he) hc
    · rw [hkeep c hc, hempty.1, List.append_nil]
      exact hadds

end Plan

/-- Phase 1 that reports every class as tiled has placed what is required exactly when the fixed cells
fit and no second attempt lost a block. -/
theorem phase1_required_iff (P : Problem) (teacherAvail : P.Tch → Slot → Bool) (late : P.Cls → Bool)
    (rng : Rng) (k : SoftSchedule P) (h : phase1 P teacherAvail late rng = some (k, true)) :
    Required P k.grid ↔ FixedFit P ∧ KeepsBlocks P teacherAvail rng := by
  obtain ⟨p, hp, htiled⟩ := Option.map_eq_some_iff.mp h
  have hsound := Fixed.ofProblem_sound P
  have hkept := Plan.matchTeachers_kept (Plan.ofProblem_kept hp) teacherAvail
  have hholds := Plan.tiling_holds hkept htiled
  generalize hp₁ : p.matchTeachers teacherAvail = p₁ at hkept hholds
  choose bs hbs using hholds
  -- the periods of an assignment are its fixed cells and the blocks in the row of its class
  have hperiods : ∀ ai, periodsIn k.grid ai =
      (Fixed.ofProblem P).count ai + weight ai (bs (P.aClass ai)) := by
    intro ai
    have hrow : ∀ c, load (k.grid c) ai = load ((Fixed.ofProblem P).soft.grid c) ai +
        if c = P.aClass ai then weight ai (bs (P.aClass ai)) else 0 := by
      intro c
      rw [(hbs c).adds.load]
      by_cases hc : c = P.aClass ai
      · subst hc
        rw [if_pos rfl]
      · have hle := (hbs c).le ai
        rw [Plan.weight_elsewhere hkept fun heq => hc heq.symm] at hle
        rw [if_neg hc, Nat.le_zero.mp hle]
    rw [periodsIn, Finset.sum_congr rfl fun c _ => hrow c, Finset.sum_add_distrib, ← hsound.count]
    simp
  have hdue : ∀ ai, weight ai (p₁.tiling.prematched (P.aClass ai)) +
      weight ai (p₁.tiling.todo (P.aClass ai)) = P.aPeriods ai - (Fixed.ofProblem P).count ai := by
    intro ai
    rw [Plan.weight_todo, Nat.add_comm]
    exact hkept.due ai
  have hfixed : (∀ e ∈ P.fixedCells, k.grid e.1 e.2.1 = some e.2.2) ↔
      ∀ e ∈ P.fixedCells, (Fixed.ofProblem P).soft.grid e.1 e.2.1 = some e.2.2 := by
    constructor
    · intro hall e he
      cases hcell : (Fixed.ofProblem P).soft.grid e.1 e.2.1 with
      | none => exact absurd hcell (hsound.written e he)
      | some ai =>
        have hsame := (hbs e.1).adds.keeps _ _ hcell
        rw [hall e he] at hsame
        exact hsame.symm
    · intro hall e he
      exact (hbs e.1).adds.keeps _ _ (hall e he)
  have hkeeps : KeepsBlocks P teacherAvail rng ↔
      ∀ c, p₁.tiling.KeepsAt c (p₁.tiling.steps p₁.tiling.classes p₁.soft p₁.rng) := by
    constructor
    · intro hall c e he _ hre
      subst hp₁
      exact hall p hp e he hre
    · intro hall p' hp' e he hre
      cases Option.some.inj (hp.symm.trans hp')
      subst hp₁
      exact hall e.1 e he rfl hre
  rw [hkeeps]
  constructor
  · intro hreq
    have hcells := hfixed.mp hreq.fixed
    refine ⟨⟨hsound.fixed_iff.mp hcells, ?_⟩, ?_⟩
    · intro ai
      rw [hsound.fixedPeriods_eq hcells]
      have hcount := hreq.periods ai
      rw [hperiods] at hcount
      omega
    · intro c
      apply (hbs c).iff.mp
      intro ai
      by_cases hc : P.aClass ai = c
      · subst hc
        have hcount := hreq.periods ai
        have hle := (hbs (P.aClass ai)).le ai
        rw [hperiods] at hcount
        rw [hdue] at hle ⊢
        omega
      · have hle := (hbs c).le ai
        have hzero := Plan.weight_elsewhere hkept hc
        omega
  · intro hcond
    obtain ⟨hfit, hall⟩ := hcond
    have hcells := hsound.fixed_iff.mpr hfit.agree
    refine ⟨?_, hfixed.mpr hcells⟩
    intro ai
    have hwithin := hfit.within ai
    rw [hsound.fixedPeriods_eq hcells] at hwithin
    rw [hperiods, (hbs (P.aClass ai)).iff.mpr (hall _), hdue]
    omega

/-- With caps of at least one period the phase returns. -/
theorem phase1_isSome (P : Problem) (hcap : ∀ ai, 1 ≤ P.aCap ai) (teacherAvail : P.Tch → Slot → Bool)
    (late : P.Cls → Bool) (rng : Rng) : (phase1 P teacherAvail late rng).isSome = true := by
  rw [phase1, Option.isSome_map, Plan.ofProblem, Option.isSome_map]
  exact planBlocks_isSome hcap _ _ _ _

/-! ### Two blocks that are alike -/

/-- Four periods of a teacher in two sessions, and a lesson of the same class in the first of them. -/
def twoDoubles : Problem where
  numClasses := 1
  numTeachers := 1
  numSubjects := 2
  numAssignments := 2
  className := fun _ => "6A"
  teacherName := fun _ => "GV1"
  subjectName := fun si => if si = 0 then "Toan" else "Chao co"
  aClass := fun _ => 0
  aSubject := id
  aTeacher := fun ai => if ai = 0 then some 0 else none
  aTeachers := fun ai => if ai = 0 then [0] else []
  aRoom := fun _ => ""
  aPeriods := fun ai => if ai = 0 then 4 else 1
  aCap := fun _ => 2
  aAllowed := fun ai slot => if ai = 0 then decide (slot = 0 ∨ slot = 1 ∨ slot = 10 ∨ slot = 11)
    else decide (slot = 0)
  aRule := fun _ => none
  aLoc := fun _ => none
  teacherRules := fun _ => none
  teacherMust := fun _ => []
  teacherLocRules := fun _ => false
  noSameSession := fun _ => []
  noSameDay := fun _ => []
  fixedCells := []
  fixedMask := fun _ _ => false
  timeLimitRules := []
  subjectGroups := fun _ => []
  groupRuleKeys := fun _ _ => none
  rawGroups := fun _ _ => []

namespace twoDoubles

def avail : twoDoubles.Tch → Slot → Bool := fun _ slot =>
  decide (slot = 0 ∨ slot = 1 ∨ slot = 10 ∨ slot = 11)

def result : SoftSchedule twoDoubles × Bool :=
  (phase1 twoDoubles avail (fun _ => false) fun _ => 1 / 2).getD (SoftSchedule.init twoDoubles, false)

theorem phase1_eq : phase1 twoDoubles avail (fun _ => false) (fun _ => 1 / 2) = some (result.1, true) := by
  have hsome := phase1_isSome twoDoubles (fun _ => (by decide : (1 : Int) ≤ 2)) avail (fun _ => false) fun _ => 1 / 2
  obtain ⟨r, hr⟩ := Option.isSome_iff_exists.mp hsome
  have htiled : result.2 = true := by decide +kernel
  have hresult : result = r := by
    rw [result, hr]
    rfl
  rw [hr, hresult, ← htiled, hresult]

end twoDoubles

/-- Both blocks of two were matched, and after the second attempt one of them is missing. -/
theorem twoDoubles_lost : ∃ k, phase1 twoDoubles twoDoubles.avail (fun _ => false) (fun _ => 1 / 2) =
    some (k, true) ∧ ¬ Required twoDoubles k.grid := by
  refine ⟨twoDoubles.result.1, twoDoubles.phase1_eq, ?_⟩
  intro h
  have hperiods := h.periods (0 : Fin 2)
  revert hperiods
  decide +kernel

theorem twoDoubles_required_iff : Required twoDoubles twoDoubles.result.1.grid ↔
    FixedFit twoDoubles ∧ KeepsBlocks twoDoubles twoDoubles.avail fun _ => 1 / 2 :=
  phase1_required_iff twoDoubles twoDoubles.avail (fun _ => false) (fun _ => 1 / 2) twoDoubles.result.1
    twoDoubles.phase1_eq

end SoftSchedule

end TkbCherry.Engine
