import TkbCherry.Engine.Tiling

/-!
# What the search in one class leaves

A search that succeeds has added every block of its list to the row of the class, and one that fails
leaves the row as it was. No other row changes.
-/

namespace TkbCherry.Engine

set_option autoImplicit false

open Filling

theorem Rng.tag_fst {α : Type} (rng : Rng) (l : List α) : (rng.tag l).1.map Prod.fst = l := by
  have h : (rng.tag l).1.map Prod.fst = l.zipIdx.map Prod.fst := by
    rw [Rng.tag, List.map_map]
    rfl
  rw [h, List.zipIdx_map_fst]

theorem Rng.mem_of_tag {α : Type} {rng : Rng} {l : List α} {e : α × Rat} (h : e ∈ (rng.tag l).1) :
    e.1 ∈ l := by
  have hmem := List.mem_map_of_mem (f := Prod.fst) h
  rwa [Rng.tag_fst] at hmem

namespace SoftSchedule
variable {P : Problem} {k : SoftSchedule P} {c : P.Cls}

/-! ### Writing a window -/

theorem write_row (k : SoftSchedule P) (c : P.Cls) (slots : List Slot) (v : Option P.Asg) :
    (k.write c slots v).grid c = fill (k.grid c) slots v := by
  induction slots generalizing k with
  | nil =>
    funext x
    rfl
  | cons slot slots ih =>
    have hcons : (k.write c (slot :: slots) v).grid c = fill ((k.setCell c slot v).grid c) slots v :=
      ih (k.setCell c slot v)
    rw [hcons, setCell_grid]
    funext x
    by_cases hx : x ∈ slots
    · rw [fill_of_mem hx, fill_of_mem (List.mem_cons_of_mem _ hx)]
    · rw [fill_of_notMem hx, Array2.set2_apply]
      by_cases heq : x = slot
      · subst heq
        rw [if_pos ⟨rfl, rfl⟩, fill_of_mem List.mem_cons_self]
      · rw [if_neg fun h => heq h.2, fill_of_notMem]
        intro hmem
        exact (List.mem_cons.mp hmem).elim heq hx

theorem write_other (k : SoftSchedule P) {c c' : P.Cls} (h : c' ≠ c) (slots : List Slot)
    (v : Option P.Asg) : (k.write c slots v).grid c' = k.grid c' := by
  induction slots generalizing k with
  | nil => rfl
  | cons slot slots ih =>
    have hcons : (k.write c (slot :: slots) v).grid c' = (k.setCell c slot v).grid c' :=
      ih (k.setCell c slot v)
    rw [hcons, setCell_grid]
    funext x
    exact Array2.set2_of_ne fun heq => h heq.1

/-! ### Windows -/

theorem mem_window {s : Session} {start size : Nat} {x : Slot} : x ∈ window s start size ↔
    sessionOfSlot x = s ∧ start ≤ (periodOfSlot x).val ∧ (periodOfSlot x).val < start + size := by
  unfold window
  simp only [List.mem_map, List.mem_filter, decide_eq_true_eq]
  constructor
  · intro h
    obtain ⟨p, hp, rfl⟩ := h
    rw [sessionOfSlot_slotAt, periodOfSlot_slotAt]
    exact ⟨rfl, hp.2⟩
  · intro h
    refine ⟨periodOfSlot x, ⟨mem_allPeriods _, h.2⟩, ?_⟩
    rw [← h.1, slotAt_session_period]

theorem nodup_window (s : Session) (start size : Nat) : (window s start size).Nodup := by
  apply ((List.nodup_finRange 5).filter _).map
  intro p q h
  have hp := congrArg periodOfSlot h
  rwa [periodOfSlot_slotAt, periodOfSlot_slotAt] at hp

theorem length_window (s : Session) {start size : Nat} (h : start + size ≤ 5) :
    (window s start size).length = size := by
  have hstart : start < 6 := by omega
  have hsize : size < 6 := by omega
  have hall : ∀ (start size : Fin 6), start.val + size.val ≤ 5 →
      (allPeriods.filter fun p => decide (start.val ≤ p.val ∧ p.val < start.val + size.val)).length =
        size.val := by decide
  rw [window, List.length_map]
  exact hall ⟨start, hstart⟩ ⟨size, hsize⟩ h

theorem mem_windowStarts {size : Nat} {e : Session × Nat} (h : e ∈ windowStarts size) :
    e.2 + size ≤ 5 ∨ size = 0 ∧ e.2 ≤ 5 := by
  unfold windowStarts at h
  obtain ⟨s, _, hs⟩ := List.mem_flatMap.mp h
  obtain ⟨start, hstart, rfl⟩ := List.mem_map.mp hs
  have hlt := List.mem_range.mp hstart
  dsimp only
  omega

/-- The window lies in the session, and its cells are empty in the row. -/
def Vacant (row : Slot → Option P.Asg) (size : Nat) (e : Session × Nat) : Prop :=
  e.2 + size ≤ 5 ∧ ∀ x ∈ window e.1 e.2 size, row x = none

theorem vacant_of_isOpen {ai : P.Asg} {size : Nat} {e : Session × Nat} (he : e ∈ windowStarts size)
    (h : k.isOpen c ai size e = true) : Vacant (k.grid c) size e := by
  have hin : e.2 + size ≤ 5 := by
    have := mem_windowStarts he
    omega
  obtain ⟨_, hcells⟩ := Bool.and_eq_true_iff.mp h
  refine ⟨hin, ?_⟩
  intro x hx
  have hcell := List.all_eq_true.mp hcells x hx
  exact of_decide_eq_true (Bool.and_eq_true_iff.mp hcell).2

theorem adds_write {row : Slot → Option P.Asg} {size : Nat} {e : Session × Nat}
    (h : Vacant row size e) (ai : P.Asg) :
    Adds row (fill row (window e.1 e.2 size) (some ai)) [(ai, size)] := by
  have hadds := Adds.fill (nodup_window e.1 e.2 size) h.2 ai
  rwa [length_window e.1 h.1] at hadds

theorem vacant_of_candidates {ai : P.Asg} {size : Nat} {rng : Rng} {w : Scored}
    (h : w ∈ (k.candidates c ai size rng).1) : Vacant (k.grid c) size w.2 := by
  unfold candidates at h
  obtain ⟨e, he, rfl⟩ := List.mem_map.mp ((List.mem_insertionSort _).mp h)
  obtain ⟨hstart, hopen⟩ := List.mem_filter.mp (Rng.mem_of_tag he)
  exact vacant_of_isOpen hstart hopen

/-! ### The search -/

/-- The outcome of a search for the blocks. -/
structure Searched (c : P.Cls) (blocks : List (Block P)) (k : SoftSchedule P) (d : Dfs P)
    (r : Bool × SoftSchedule P × Dfs P) : Prop where
  other : ∀ c', c' ≠ c → r.2.1.grid c' = k.grid c'
  success : r.1 = true → Adds (k.grid c) (r.2.1.grid c) blocks
  failure : r.1 = false → r.2.1.grid c = k.grid c ∧ r.2.2.placed = d.placed

/-- A search from another schedule with the same rows. -/
theorem Searched.of_grid {blocks : List (Block P)} {k k' : SoftSchedule P} {d d' : Dfs P}
    {r : Bool × SoftSchedule P × Dfs P} (h : Searched c blocks k' d' r) (hrow : k'.grid = k.grid)
    (hplaced : d'.placed = d.placed) : Searched c blocks k d r where
  other := by
    intro c' hc
    rw [h.other c' hc, hrow]
  success := by
    intro hr
    rw [← hrow]
    exact h.success hr
  failure := by
    intro hr
    obtain ⟨hcell, hp⟩ := h.failure hr
    exact ⟨hcell.trans (congrFun hrow c), hp.trans hplaced⟩

/-- A window that is written and cleared leaves the rows as they were. -/
theorem clear_write {k' : SoftSchedule P} {size : Nat} {e : Session × Nat} {ai : P.Asg}
    (h : Vacant (k.grid c) size e) (hother : ∀ c', c' ≠ c → k'.grid c' = k.grid c')
    (hrow : k'.grid c = fill (k.grid c) (window e.1 e.2 size) (some ai)) :
    (k'.write c (window e.1 e.2 size) none).grid = k.grid := by
  funext c'
  by_cases hc : c' = c
  · subst hc
    rw [write_row, hrow, fill_none_fill h.2]
  · rw [write_other _ hc, hother c' hc]

theorem tryWindows_searched (ai : P.Asg) (size : Nat) {rest : List (Block P)}
    {next : SoftSchedule P → Dfs P → Bool × SoftSchedule P × Dfs P}
    (hnext : ∀ k d, Searched c rest k d (next k d)) (ws : List Scored) (k : SoftSchedule P) (d : Dfs P)
    (hws : ∀ w ∈ ws, Vacant (k.grid c) size w.2) :
    Searched c ((ai, size) :: rest) k d (tryWindows c ai size next ws k d) := by
  induction ws generalizing k d with
  | nil => exact ⟨fun _ _ => rfl, fun h => (Bool.false_ne_true h).elim, fun _ => ⟨rfl, rfl⟩⟩
  | cons w ws ih =>
    have hw := hws w List.mem_cons_self
    have hwritten : ∀ c', c' ≠ c →
        (k.write c (window w.2.1 w.2.2 size) (some ai)).grid c' = k.grid c' :=
      fun c' hc => write_other k hc _ _
    have hrest : ∀ k' : SoftSchedule P, k'.grid = k.grid → ∀ w' ∈ ws, Vacant (k'.grid c) size w'.2 := by
      intro k' hgrid w' hw'
      rw [hgrid]
      exact hws w' (List.mem_cons_of_mem _ hw')
    rw [tryWindows]
    dsimp only
    split
    · -- the block stands, and the blocks after it are searched
      have hsearch := hnext (k.write c (window w.2.1 w.2.2 size) (some ai))
        { d with placed := d.placed ++ [(ai, window w.2.1 w.2.2 size)] }
      revert hsearch
      generalize next (k.write c (window w.2.1 w.2.2 size) (some ai))
        { d with placed := d.placed ++ [(ai, window w.2.1 w.2.2 size)] } = r
      intro hsearch
      split
      · rename_i hr
        constructor
        · intro c' hc
          rw [hsearch.other c' hc, hwritten c' hc]
        · intro _
          have hadds := hsearch.success hr
          rw [write_row] at hadds
          exact (adds_write hw ai).trans hadds
        · intro hfalse
          rw [hr] at hfalse
          cases hfalse
      · rename_i hr
        obtain ⟨hrow, hplaced⟩ := hsearch.failure (eq_false_of_ne_true hr)
        have hgrid : (r.2.1.write c (window w.2.1 w.2.2 size) none).grid = k.grid := by
          apply clear_write hw
          · intro c' hc
            rw [hsearch.other c' hc, hwritten c' hc]
          · rw [hrow, write_row]
        refine (ih _ _ (hrest _ hgrid)).of_grid hgrid ?_
        dsimp only
        rw [hplaced]
        exact List.dropLast_concat
    · have hgrid : ((k.write c (window w.2.1 w.2.2 size) (some ai)).write c
          (window w.2.1 w.2.2 size) none).grid = k.grid :=
        clear_write hw hwritten (write_row k c _ _)
      exact (ih _ _ (hrest _ hgrid)).of_grid hgrid rfl

theorem dfsPlace_searched (c : P.Cls) (blocks : List (Block P)) (k : SoftSchedule P) (d : Dfs P) :
    Searched c blocks k d (dfsPlace c blocks k d) := by
  induction blocks generalizing k d with
  | nil => exact ⟨fun _ _ => rfl, fun _ => Adds.refl _, fun h => (Bool.noConfusion h)⟩
  | cons b rest ih =>
    obtain ⟨ai, size⟩ := b
    rw [dfsPlace]
    split
    · exact ⟨fun _ _ => rfl, fun h => (Bool.false_ne_true h).elim, fun _ => ⟨rfl, rfl⟩⟩
    · have hsearch := tryWindows_searched ai size ih
        (k.candidates c ai size d.rng).1 k
        { d with budget := d.budget - 1, rng := (k.candidates c ai size d.rng).2 }
        fun w hw => vacant_of_candidates hw
      exact hsearch.of_grid rfl rfl

theorem shuffled_perm (blocks : List (Block P)) (rng : Rng) :
    List.Perm (shuffled blocks rng).1 blocks := by
  have hperm := (List.perm_insertionSort (fun a b : Block P × Rat =>
    a.1.2 > b.1.2 ∨ a.1.2 = b.1.2 ∧ a.2 ≤ b.2) (rng.tag blocks).1).map Prod.fst
  rw [Rng.tag_fst] at hperm
  exact hperm

/-- The outcome of the attempts at one class. -/
structure Tiled (c : P.Cls) (blocks : List (Block P)) (k : SoftSchedule P)
    (r : Bool × SoftSchedule P × Rng) : Prop where
  other : ∀ c', c' ≠ c → r.2.1.grid c' = k.grid c'
  success : r.1 = true → Adds (k.grid c) (r.2.1.grid c) blocks
  failure : r.1 = false → r.2.1.grid c = k.grid c

theorem tileAttempts_tiled (c : P.Cls) (blocks : List (Block P)) (n : Nat) (k : SoftSchedule P)
    (rng : Rng) : Tiled c blocks k (tileAttempts c blocks n k rng) := by
  induction n generalizing k rng with
  | zero => exact ⟨fun _ _ => rfl, fun h => (Bool.false_ne_true h).elim, fun _ => rfl⟩
  | succ n ih =>
    have hsearch := dfsPlace_searched c (shuffled blocks rng).1 k ⟨[], 4000, (shuffled blocks rng).2⟩
    rw [tileAttempts]
    revert hsearch
    generalize dfsPlace c (shuffled blocks rng).1 k ⟨[], 4000, (shuffled blocks rng).2⟩ = r
    intro hsearch
    split
    · rename_i hr
      constructor
      · exact hsearch.other
      · intro _
        exact (hsearch.success hr).perm (shuffled_perm blocks rng)
      · intro hfalse
        cases hfalse
    · rename_i hr
      -- nothing is left to undo
      obtain ⟨hrow, hplaced⟩ := hsearch.failure (eq_false_of_ne_true hr)
      have hnil : r.2.2.placed = [] := hplaced
      rw [hnil, List.foldl_nil]
      have htail := ih r.2.1 r.2.2.rng
      constructor
      · intro c' hc
        rw [htail.other c' hc, hsearch.other c' hc]
      · intro hr'
        rw [← hrow]
        exact htail.success hr'
      · intro hr'
        rw [htail.failure hr', hrow]

theorem tileClass_tiled (c : P.Cls) (blocks : List (Block P)) (k : SoftSchedule P) (rng : Rng) :
    Tiled c blocks k (tileClass c blocks k rng) := tileAttempts_tiled c blocks 10 k rng

end SoftSchedule

end TkbCherry.Engine
