import Mathlib

/-!
# Edits that only grow a state

A run of edits under which a state grows along a preorder ends where it began exactly when no
edit of it had anything to do there.
-/

namespace Growing

set_option autoImplicit false

universe u v
variable {σ : Type u} {κ : Type v}

/-- Edits that grow the state, and strictly unless they are idle. -/
structure Grows (edit : σ → κ → σ) (le : σ → σ → Prop) (idle : σ → κ → Prop) : Prop where
  refl : ∀ s, le s s
  trans : ∀ {s t u}, le s t → le t u → le s u
  le_edit : ∀ s k, le s (edit s k)
  idle_of_le : ∀ {s k}, le (edit s k) s → idle s k
  edit_eq : ∀ {s k}, idle s k → edit s k = s

namespace Grows
variable {edit : σ → κ → σ} {le : σ → σ → Prop} {idle : σ → κ → Prop}
  (h : Grows edit le idle)
include h

theorem le_foldl (s : σ) (ks : List κ) : le s (ks.foldl edit s) := by
  induction ks generalizing s with
  | nil => exact h.refl s
  | cons k ks ih => exact h.trans (h.le_edit s k) (ih (edit s k))

/-- The edits lead back to the first state only by doing nothing. -/
theorem foldl_eq_iff (s : σ) (ks : List κ) : ks.foldl edit s = s ↔ ∀ k ∈ ks, idle s k := by
  induction ks with
  | nil => simp
  | cons k ks ih =>
    rw [List.foldl_cons, List.forall_mem_cons]
    constructor
    · intro heq
      have hidle : idle s k := by
        apply h.idle_of_le
        have hle := h.le_foldl (edit s k) ks
        rwa [heq] at hle
      rw [h.edit_eq hidle] at heq
      exact ⟨hidle, ih.mp heq⟩
    · intro hall
      rw [h.edit_eq hall.1]
      exact ih.mpr hall.2

end Grows

end Growing
