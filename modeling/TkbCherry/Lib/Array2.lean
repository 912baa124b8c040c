import Mathlib

/-!
# Two-index arrays and tallies over them

`set2` writes one cell. A tally `∑ f (cell)` over a finite array moves by the weight of
the new cell minus the weight of the old one, which is what an incremental counter does.
-/

namespace Array2

set_option autoImplicit false

universe u v w
variable {A : Type u} {B : Type v} {V : Type w} [DecidableEq A] [DecidableEq B]

/-- `cells[a][b] = v`. -/
def set2 (cells : A → B → V) (a : A) (b : B) (v : V) : A → B → V :=
  fun a' b' => if a' = a ∧ b' = b then v else cells a' b'

@[simp] theorem set2_self (cells : A → B → V) (a : A) (b : B) (v : V) :
    set2 cells a b v a b = v := by simp [set2]

theorem set2_apply (cells : A → B → V) (a a' : A) (b b' : B) (v : V) :
    set2 cells a b v a' b' = if a' = a ∧ b' = b then v else cells a' b' := rfl

theorem set2_of_ne {cells : A → B → V} {a a' : A} {b b' : B} {v : V}
    (h : ¬ (a' = a ∧ b' = b)) : set2 cells a b v a' b' = cells a' b' := if_neg h

@[simp] theorem set2_get (cells : A → B → V) (a : A) (b : B) :
    set2 cells a b (cells a b) = cells := by
  funext a' b'
  rw [set2_apply]
  split
  · rename_i h
    rw [h.1, h.2]
  · rfl

@[simp] theorem set2_set2 (cells : A → B → V) (a : A) (b : B) (v w : V) :
    set2 (set2 cells a b v) a b w = set2 cells a b w := by
  funext a' b'
  simp only [set2_apply]
  split <;> rfl

/-- `for a in as: cells[a][b] = v`. -/
def setAll (cells : A → B → V) (as : List A) (b : B) (v : V) : A → B → V :=
  as.foldl (fun cs a => set2 cs a b v) cells

theorem setAll_apply (cells : A → B → V) (as : List A) (b : B) (v : V) (a' : A) (b' : B) :
    setAll cells as b v a' b' = if a' ∈ as ∧ b' = b then v else cells a' b' := by
  unfold setAll
  induction as generalizing cells with
  | nil => simp
  | cons a rest ih =>
    rw [List.foldl_cons, ih, set2_apply]
    by_cases hb : b' = b
    · by_cases hr : a' ∈ rest
      · simp [hb, hr]
      · by_cases ha : a' = a <;> simp [hb, hr, ha]
    · simp [hb]

section Tally
variable [Fintype A] [Fintype B]

/-- The sum of a weight over all cells. -/
def tally (f : V → Int) (cells : A → B → V) : Int := ∑ a, ∑ b, f (cells a b)

/-- One write moves a tally by the difference of the two weights. -/
theorem tally_set2 (f : V → Int) (cells : A → B → V) (a : A) (b : B) (v : V) :
    tally f (set2 cells a b v) = tally f cells - f (cells a b) + f v := by
  have hrow : ∀ a', (∑ b', f (set2 cells a b v a' b')) =
      (∑ b', f (cells a' b')) + if a' = a then f v - f (cells a b) else 0 := by
    intro a'
    by_cases ha : a' = a
    · subst ha
      have hcell : ∀ b', f (set2 cells a' b v a' b') =
          f (cells a' b') + if b' = b then f v - f (cells a' b) else 0 := by
        intro b'
        by_cases hb : b' = b
        · subst hb
          simp
        · simp [set2_apply, hb]
      simp only [hcell, Finset.sum_add_distrib, Finset.sum_ite_eq', Finset.mem_univ, if_true]
    · simp [set2_apply, ha]
  simp only [tally, hrow, Finset.sum_add_distrib, Finset.sum_ite_eq', Finset.mem_univ, if_true]
  omega

omit [DecidableEq A] [DecidableEq B] in
theorem tally_congr {f : V → Int} {cells cells' : A → B → V}
    (h : ∀ a b, f (cells a b) = f (cells' a b)) : tally f cells = tally f cells' := by
  simp only [tally, h]

end Tally

section Column
variable [Fintype A]

/-- The sum of a weight over one column. -/
def column (f : V → Int) (cells : A → B → V) (b : B) : Int := ∑ a, f (cells a b)

theorem column_set2 (f : V → Int) (cells : A → B → V) (a : A) (b b' : B) (v : V) :
    column f (set2 cells a b v) b' =
      column f cells b' + if b' = b then f v - f (cells a b) else 0 := by
  unfold column
  by_cases hb : b' = b
  · subst hb
    have hcell : ∀ a', f (set2 cells a b' v a' b') =
        f (cells a' b') + if a' = a then f v - f (cells a b') else 0 := by
      intro a'
      by_cases ha : a' = a
      · subst ha
        simp
      · simp [set2_apply, ha]
    simp only [hcell, Finset.sum_add_distrib, Finset.sum_ite_eq', Finset.mem_univ, if_true]
  · simp [set2_apply, hb]

omit [DecidableEq A] [DecidableEq B] in
theorem le_column {f : V → Int} (hf : ∀ v, 0 ≤ f v) (cells : A → B → V) (a : A) (b : B) :
    f (cells a b) ≤ column f cells b :=
  Finset.single_le_sum (f := fun a' => f (cells a' b)) (fun _ _ => hf _) (Finset.mem_univ a)

end Column

end Array2
