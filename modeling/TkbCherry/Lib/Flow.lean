import Mathlib

/-!
# Quantities along runs

A measure of the state, and for every step what flows in and out. When each step balances, a whole
run does.
-/

namespace Flow

set_option autoImplicit false

universe u v
variable {σ : Type u} {α : Type v}

/-- The sum over the steps of a run, each counted in the state before it. -/
def along (next : σ → α → σ) (f : σ → α → Nat) : σ → List α → Nat
  | _, [] => 0
  | s, a :: as => f s a + along next f (next s a) as

theorem along_add (next : σ → α → σ) (f g : σ → α → Nat) (s : σ) (as : List α) :
    along next (fun s a => f s a + g s a) s as = along next f s as + along next g s as := by
  induction as generalizing s with
  | nil => rfl
  | cons a as ih =>
    have hrest := ih (next s a)
    simp only [along]
    omega

/-- Balanced steps make a balanced run. -/
theorem conserved (next : σ → α → σ) (measure : σ → Nat) (inflow outflow : σ → α → Nat)
    (h : ∀ s a, measure (next s a) + outflow s a = measure s + inflow s a) (s : σ) (as : List α) :
    measure (as.foldl next s) + along next outflow s as = measure s + along next inflow s as := by
  induction as generalizing s with
  | nil => rfl
  | cons a as ih =>
    have hstep := h s a
    have hrest := ih (next s a)
    simp only [List.foldl_cons, along]
    omega

/-- A measure that the first flow raises and nothing else changes. -/
theorem raised (next : σ → α → σ) (measure : σ → Nat) (inflow : σ → α → Nat)
    (h : ∀ s a, measure (next s a) = measure s + inflow s a) (s : σ) (as : List α) :
    measure (as.foldl next s) = measure s + along next inflow s as := by
  induction as generalizing s with
  | nil => rfl
  | cons a as ih =>
    have hstep := h s a
    have hrest := ih (next s a)
    simp only [List.foldl_cons, along]
    omega

end Flow
