import Mathlib

/-!
# Lists related entry by entry

What `List.Forall₂` gives for access by index, for an update in place and for counting.
-/

namespace Pointwise

set_option autoImplicit false

open List

universe u v
variable {α : Type u} {β : Type v} {R : α → β → Prop}

theorem trans {S : α → α → Prop} (hS : ∀ {a b c}, S a b → S b c → S a c) {l m n : List α}
    (h : Forall₂ S l m) (k : Forall₂ S m n) : Forall₂ S l n := by
  induction h generalizing n with
  | nil => exact k
  | cons hab _ ih =>
    cases k with
    | cons hbc hrest => exact .cons (hS hab hbc) (ih hrest)

theorem getElem? {l : List α} {m : List β} (h : Forall₂ R l m) {i : Nat} {b : β}
    (hb : m[i]? = some b) : ∃ a, l[i]? = some a ∧ R a b := by
  induction h generalizing i with
  | nil => exact absurd hb (by simp)
  | @cons a b' l m hab _ ih =>
    cases i with
    | zero =>
      rw [List.getElem?_cons_zero, Option.some.injEq] at hb
      exact ⟨a, rfl, hb ▸ hab⟩
    | succ i =>
      rw [List.getElem?_cons_succ] at hb
      exact ih hb

theorem getElem?_left {l : List α} {m : List β} (h : Forall₂ R l m) {i : Nat} {a : α}
    (ha : l[i]? = some a) : ∃ b, m[i]? = some b ∧ R a b := by
  have hflip : Forall₂ (flip R) m l := h.flip
  exact getElem? hflip ha

theorem set {S : α → α → Prop} (hS : ∀ a, S a a) {l : List α} {i : Nat} {a b : α}
    (ha : l[i]? = some a) (hab : S a b) : Forall₂ S l (l.set i b) := by
  induction l generalizing i with
  | nil => exact absurd ha (by simp)
  | cons c l ih =>
    cases i with
    | zero =>
      rw [List.getElem?_cons_zero, Option.some.injEq] at ha
      exact .cons (ha ▸ hab) (forall₂_same.mpr fun x _ => hS x)
    | succ i =>
      rw [List.getElem?_cons_succ] at ha
      exact .cons (hS c) (ih ha)

theorem countP_le {p : α → Bool} {q : β → Bool} (hpq : ∀ a b, R a b → q b = true → p a = true)
    {l : List α} {m : List β} (h : Forall₂ R l m) : m.countP q ≤ l.countP p := by
  induction h with
  | nil => exact Nat.le_refl _
  | @cons a b l m hab _ ih =>
    rw [List.countP_cons, List.countP_cons]
    have hhead : (if q b = true then 1 else 0) ≤ (if p a = true then 1 else 0) := by
      split
      · rename_i hq
        exact Nat.le_of_eq (if_pos (hpq a b hab hq)).symm
      · exact Nat.zero_le _
    exact Nat.add_le_add ih hhead

theorem map_eq {γ : Type v} {f : α → γ} {g : β → γ} (hfg : ∀ {a b}, R a b → g b = f a)
    {l : List α} {m : List β} (h : Forall₂ R l m) : m.map g = l.map f := by
  induction h with
  | nil => rfl
  | cons hab _ ih => rw [List.map_cons, List.map_cons, hfg hab, ih]

end Pointwise
