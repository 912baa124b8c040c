import Mathlib

/-!
# Filling rows with blocks

A row has empty cells and cells with a label. Filling empty cells adds their number to the load of the
label, and clearing them again restores the row. A list of blocks, each a label with a length, weighs
the sum of the lengths for every label.
-/

namespace Filling

set_option autoImplicit false

universe u v
variable {σ : Type u} {α : Type v}

/-! ### Rows -/

section Rows
variable [DecidableEq σ]

def fill (row : σ → Option α) (slots : List σ) (v : Option α) : σ → Option α :=
  fun x => if x ∈ slots then v else row x

theorem fill_of_mem {row : σ → Option α} {slots : List σ} {v : Option α} {x : σ} (h : x ∈ slots) :
    fill row slots v x = v := if_pos h

theorem fill_of_notMem {row : σ → Option α} {slots : List σ} {v : Option α} {x : σ} (h : x ∉ slots) :
    fill row slots v x = row x := if_neg h

/-- Cells that were empty are empty again. -/
theorem fill_none_fill {row : σ → Option α} {slots : List σ} (h : ∀ x ∈ slots, row x = none)
    (v : Option α) : fill (fill row slots v) slots none = row := by
  funext x
  by_cases hx : x ∈ slots
  · rw [fill_of_mem hx, h x hx]
  · rw [fill_of_notMem hx, fill_of_notMem hx]

/-- The number of cells with the label. -/
def load [Fintype σ] [DecidableEq α] (row : σ → Option α) (a : α) : Nat :=
  (Finset.univ.filter fun x => row x = some a).card

theorem load_fill [Fintype σ] [DecidableEq α] {row : σ → Option α} {slots : List σ} (hnodup : slots.Nodup)
    (h : ∀ x ∈ slots, row x = none) (a b : α) :
    load (fill row slots (some b)) a = load row a + if b = a then slots.length else 0 := by
  unfold load
  by_cases hab : b = a
  · subst hab
    have hunion : (Finset.univ.filter fun x => fill row slots (some b) x = some b) =
        (Finset.univ.filter fun x => row x = some b) ∪ slots.toFinset := by
      ext x
      simp only [Finset.mem_filter, Finset.mem_univ, true_and, Finset.mem_union, List.mem_toFinset]
      by_cases hx : x ∈ slots
      · simp [fill_of_mem hx, hx]
      · simp [fill_of_notMem hx, hx]
    have hdisjoint : Disjoint (Finset.univ.filter fun x => row x = some b) slots.toFinset := by
      rw [Finset.disjoint_left]
      intro x hx hslot
      have hnone := h x (List.mem_toFinset.mp hslot)
      rw [(Finset.mem_filter.mp hx).2] at hnone
      cases hnone
    rw [hunion, Finset.card_union_of_disjoint hdisjoint, List.toFinset_card_of_nodup hnodup, if_pos rfl]
  · rw [if_neg hab, Nat.add_zero]
    congr 1
    ext x
    simp only [Finset.mem_filter, Finset.mem_univ, true_and]
    by_cases hx : x ∈ slots
    · rw [fill_of_mem hx, h x hx]
      simp [hab]
    · rw [fill_of_notMem hx]

end Rows

/-! ### Blocks -/

section Blocks
variable [DecidableEq α]

/-- The total length of the blocks with the label. -/
def weight (a : α) (blocks : List (α × Nat)) : Nat :=
  ((blocks.filter fun b => decide (b.1 = a)).map Prod.snd).sum

@[simp] theorem weight_nil (a : α) : weight a [] = 0 := rfl

theorem weight_cons (a : α) (b : α × Nat) (blocks : List (α × Nat)) :
    weight a (b :: blocks) = (if b.1 = a then b.2 else 0) + weight a blocks := by
  unfold weight
  by_cases h : b.1 = a
  · rw [List.filter_cons_of_pos (by simpa using h), List.map_cons, List.sum_cons, if_pos h]
  · rw [List.filter_cons_of_neg (by simpa using h), if_neg h, Nat.zero_add]

theorem weight_append (a : α) (blocks blocks' : List (α × Nat)) :
    weight a (blocks ++ blocks') = weight a blocks + weight a blocks' := by
  unfold weight
  rw [List.filter_append, List.map_append, List.sum_append]

theorem weight_perm {blocks blocks' : List (α × Nat)} (h : List.Perm blocks blocks') (a : α) :
    weight a blocks = weight a blocks' :=
  ((h.filter _).map Prod.snd).sum_eq

theorem weight_eq_zero {a : α} {blocks : List (α × Nat)} (h : ∀ b ∈ blocks, b.1 ≠ a) :
    weight a blocks = 0 := by
  have hnil : (blocks.filter fun b => decide (b.1 = a)) = [] := by
    rw [List.filter_eq_nil_iff]
    intro b hb
    simpa using h b hb
  rw [weight, hnil]
  rfl

/-- The row holds the blocks beside what it held before. -/
structure Adds [Fintype σ] (row row' : σ → Option α) (blocks : List (α × Nat)) : Prop where
  keeps : ∀ x a, row x = some a → row' x = some a
  load : ∀ a, load row' a = load row a + weight a blocks

namespace Adds
variable [Fintype σ] {row row' row'' : σ → Option α} {blocks blocks' : List (α × Nat)}

theorem refl (row : σ → Option α) : Adds row row [] where
  keeps := fun _ _ h => h
  load := fun _ => rfl

theorem trans (h : Adds row row' blocks) (h' : Adds row' row'' blocks') :
    Adds row row'' (blocks ++ blocks') where
  keeps := fun x a hx => h'.keeps x a (h.keeps x a hx)
  load := by
    intro a
    rw [h'.load, h.load, weight_append, Nat.add_assoc]

theorem fill [DecidableEq σ] {slots : List σ} (hnodup : slots.Nodup) (hempty : ∀ x ∈ slots, row x = none) (b : α) :
    Adds row (Filling.fill row slots (some b)) [(b, slots.length)] where
  keeps := by
    intro x a hx
    have hout : x ∉ slots := by
      intro hmem
      rw [hempty x hmem] at hx
      cases hx
    rw [fill_of_notMem hout, hx]
  load := by
    intro a
    rw [load_fill hnodup hempty, weight_cons, weight_nil, Nat.add_zero]

theorem perm (h : Adds row row' blocks) (hperm : List.Perm blocks blocks') : Adds row row' blocks' where
  keeps := h.keeps
  load := by
    intro a
    rw [h.load, weight_perm hperm]

end Adds

end Blocks

/-! ### Blocks that are listed once -/

/-- The blocks that are not yet listed are appended, one after the other. -/
def addNew [DecidableEq α] (listed : List (α × Nat)) : List (α × Nat) → List (α × Nat)
  | [] => listed
  | b :: blocks => addNew (if b ∈ listed then listed else listed ++ [b]) blocks

/-- No block repeats another or one that is listed. -/
def AllNew (listed blocks : List (α × Nat)) : Prop := blocks.Nodup ∧ ∀ b ∈ blocks, b ∉ listed

theorem AllNew.perm {listed blocks blocks' : List (α × Nat)} (h : List.Perm blocks blocks') :
    AllNew listed blocks ↔ AllNew listed blocks' := by
  unfold AllNew
  rw [h.nodup_iff]
  simp only [h.mem_iff]

theorem allNew_cons {listed blocks : List (α × Nat)} {b : α × Nat} (hb : b ∉ listed) :
    AllNew listed (b :: blocks) ↔ AllNew (listed ++ [b]) blocks := by
  unfold AllNew
  constructor
  · intro h
    obtain ⟨hout, hnodup⟩ := List.nodup_cons.mp h.1
    refine ⟨hnodup, ?_⟩
    intro b' hb' hmem
    cases List.mem_append.mp hmem with
    | inl hl => exact h.2 b' (List.mem_cons_of_mem _ hb') hl
    | inr hs =>
      rw [List.mem_singleton.mp hs] at hb'
      exact hout hb'
  · intro h
    constructor
    · refine List.nodup_cons.mpr ⟨?_, h.1⟩
      intro hmem
      exact h.2 b hmem (List.mem_append_right _ List.mem_cons_self)
    · intro b' hb' hl
      cases List.mem_cons.mp hb' with
      | inl heq => exact hb (heq ▸ hl)
      | inr hmem => exact h.2 b' hmem (List.mem_append_left _ hl)

section
variable [DecidableEq α]

theorem weight_addNew_le (a : α) (listed blocks : List (α × Nat)) :
    weight a (addNew listed blocks) ≤ weight a listed + weight a blocks := by
  induction blocks generalizing listed with
  | nil => exact Nat.le_refl _
  | cons b blocks ih =>
    rw [addNew, weight_cons]
    by_cases hb : b ∈ listed
    · rw [if_pos hb]
      have hle := ih listed
      omega
    · rw [if_neg hb]
      have hle := ih (listed ++ [b])
      rw [weight_append, weight_cons, weight_nil] at hle
      omega

/-- Nothing is lost exactly when every block is new. -/
theorem weight_addNew_iff {listed blocks : List (α × Nat)} (hpos : ∀ b ∈ blocks, 0 < b.2) :
    (∀ a, weight a (addNew listed blocks) = weight a listed + weight a blocks) ↔
      AllNew listed blocks := by
  induction blocks generalizing listed with
  | nil => exact ⟨fun _ => ⟨List.nodup_nil, fun _ h => nomatch h⟩, fun _ _ => rfl⟩
  | cons b blocks ih =>
    have htail : ∀ b' ∈ blocks, 0 < b'.2 := fun b' hb' => hpos b' (List.mem_cons_of_mem _ hb')
    by_cases hb : b ∈ listed
    · -- the block is lost
      constructor
      · intro h
        have heq := h b.1
        rw [addNew, if_pos hb, weight_cons, if_pos rfl] at heq
        have hle := weight_addNew_le b.1 listed blocks
        have hlen := hpos b List.mem_cons_self
        omega
      · intro h
        exact absurd hb (h.2 b List.mem_cons_self)
    · rw [allNew_cons hb, ← ih htail]
      have hstep : ∀ a, weight a (addNew listed (b :: blocks)) =
          weight a (addNew (listed ++ [b]) blocks) := by
        intro a
        rw [addNew, if_neg hb]
      have hsum : ∀ a, weight a (listed ++ [b]) + weight a blocks =
          weight a listed + weight a (b :: blocks) := by
        intro a
        rw [weight_append, weight_cons, weight_cons, weight_nil]
        omega
      constructor
      · intro h a
        rw [← hstep, h, hsum]
      · intro h a
        rw [hstep, h, hsum]

end

end Filling
