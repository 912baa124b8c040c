import Mathlib.Logic.Function.Basic
import Mathlib.Data.List.Basic

/-! Bookings: items put into places, where an item in a place covers some cells.
A plan is legal when no cell is covered twice and only usable cells are covered.
A history records single puts and takes; read backwards it leads back to the
plan it started from, through legal plans only. -/

namespace TkbCherry.Booking
set_option autoImplicit false

variable {α σ κ : Type}

/-- Where each item stands, if anywhere. -/
abbrev Plan (α σ : Type) := α → Option σ

/-- The item stands in the plan and the cell is one of those it covers there. -/
def Covers (cells : α → σ → κ → Prop) (p : Plan α σ) (a : α) (x : κ) : Prop :=
  ∃ s, p a = some s ∧ cells a s x

structure Legal (cells : α → σ → κ → Prop) (usable : κ → Prop) (p : Plan α σ) : Prop where
  apart : ∀ {a b x}, Covers cells p a x → Covers cells p b x → a = b
  allowed : ∀ {a x}, Covers cells p a x → usable x

/-- A legal plan stays legal when fewer items stand in it. -/
theorem Legal.mono {cells : α → σ → κ → Prop} {usable : κ → Prop} {p q : Plan α σ} (h : Legal cells usable p)
    (hsub : ∀ a x, Covers cells q a x → Covers cells p a x) : Legal cells usable q where
  apart ha hb := h.apart (hsub _ _ ha) (hsub _ _ hb)
  allowed ha := h.allowed (hsub _ _ ha)

section Updates
variable [DecidableEq α] {cells : α → σ → κ → Prop} {usable : κ → Prop}

def take (p : Plan α σ) (a : α) : Plan α σ := Function.update p a none

def put (p : Plan α σ) (a : α) (s : σ) : Plan α σ := Function.update p a (some s)

/-- The plan without the items of a list. -/
def takeAll (p : Plan α σ) (l : List α) : Plan α σ := l.foldl take p

@[simp] theorem take_self (p : Plan α σ) (a : α) : take p a a = none := by simp [take]

theorem take_other {p : Plan α σ} {a b : α} (h : b ≠ a) : take p a b = p b := by
  simp [take, h]

@[simp] theorem put_self (p : Plan α σ) (a : α) (s : σ) : put p a s a = some s := by simp [put]

theorem put_other {p : Plan α σ} {a b : α} {s : σ} (h : b ≠ a) : put p a s b = p b := by
  simp [put, h]

theorem put_take (p : Plan α σ) (a : α) (s : σ) : put (take p a) a s = put p a s := by
  simp [put, take]

theorem take_put {p : Plan α σ} {a : α} {s : σ} (h : p a = none) : take (put p a s) a = p := by
  simp [put, take, ← h]

theorem put_of_take {p : Plan α σ} {a : α} {s : σ} (h : p a = some s) :
    put (take p a) a s = p := by
  simp [put, take, ← h]

theorem take_none {p : Plan α σ} {a : α} (h : p a = none) : take p a = p := by
  simp [take, ← h]

theorem takeAll_cons (p : Plan α σ) (a : α) (l : List α) :
    takeAll p (a :: l) = takeAll (take p a) l := rfl

theorem takeAll_apply (p : Plan α σ) (l : List α) (b : α) :
    takeAll p l b = if b ∈ l then none else p b := by
  induction l generalizing p with
  | nil => simp [takeAll]
  | cons a l ih =>
    rw [takeAll_cons, ih]
    by_cases hb : b ∈ l
    · simp [hb]
    · by_cases ha : b = a
      · simp [ha]
      · simp [hb, ha, take_other ha]

theorem takeAll_mem {p : Plan α σ} {l : List α} {b : α} (h : b ∈ l) : takeAll p l b = none := by
  simp [takeAll_apply, h]

theorem takeAll_notMem {p : Plan α σ} {l : List α} {b : α} (h : b ∉ l) :
    takeAll p l b = p b := by
  simp [takeAll_apply, h]

theorem covers_take {p : Plan α σ} {a b : α} {x : κ} :
    Covers cells (take p a) b x ↔ b ≠ a ∧ Covers cells p b x := by
  by_cases h : b = a
  · subst h
    simp [Covers]
  · simp [Covers, h, take_other h]

theorem covers_takeAll {p : Plan α σ} {l : List α} {b : α} {x : κ} :
    Covers cells (takeAll p l) b x ↔ b ∉ l ∧ Covers cells p b x := by
  by_cases h : b ∈ l
  · simp [Covers, h, takeAll_mem h]
  · simp [Covers, h, takeAll_notMem h]

theorem covers_put_self {p : Plan α σ} {a : α} {s : σ} {x : κ} :
    Covers cells (put p a s) a x ↔ cells a s x := by
  simp [Covers]

theorem covers_put_other {p : Plan α σ} {a b : α} {s : σ} {x : κ} (h : b ≠ a) :
    Covers cells (put p a s) b x ↔ Covers cells p b x := by
  simp [Covers, put_other h]

theorem Legal.take {p : Plan α σ} (h : Legal cells usable p) (a : α) :
    Legal cells usable (take p a) :=
  h.mono fun _ _ hc => (covers_take.mp hc).2

theorem Legal.takeAll {p : Plan α σ} (h : Legal cells usable p) (l : List α) :
    Legal cells usable (takeAll p l) :=
  h.mono fun _ _ hc => (covers_takeAll.mp hc).2

/-- An item may be put where every cell it covers is usable and covered by nobody else. -/
theorem Legal.put {p : Plan α σ} (h : Legal cells usable p) {a : α} {s : σ}
    (hopen : ∀ x, cells a s x → usable x)
    (hfree : ∀ x b, cells a s x → Covers cells p b x → b = a) :
    Legal cells usable (put p a s) where
  apart := by
    intro b c x hb hc
    by_cases hba : b = a
    · subst hba
      by_cases hca : c = b
      · exact hca.symm
      · exact (hfree x c (covers_put_self.mp hb) ((covers_put_other hca).mp hc)).symm
    · by_cases hca : c = a
      · subst hca
        exact hfree x b (covers_put_self.mp hc) ((covers_put_other hba).mp hb)
      · exact h.apart ((covers_put_other hba).mp hb) ((covers_put_other hca).mp hc)
  allowed := by
    intro b x hb
    by_cases hba : b = a
    · subst hba
      exact hopen x (covers_put_self.mp hb)
    · exact h.allowed ((covers_put_other hba).mp hb)

end Updates

/-- One entry of a history. -/
inductive Op (α σ : Type) where
  | took (a : α) (s : σ)
  | put (a : α) (s : σ)
  deriving DecidableEq, Repr

def Op.item : Op α σ → α
  | .took a _ => a
  | .put a _ => a

section Histories
variable [DecidableEq α] {cells : α → σ → κ → Prop} {usable : κ → Prop}

/-- The history, newest entry first, of a way from one plan to another. -/
inductive Trace (cells : α → σ → κ → Prop) (usable : κ → Prop) (p : Plan α σ) :
    List (Op α σ) → Plan α σ → Prop where
  | nil : Trace cells usable p [] p
  | took {ops q a s} : Trace cells usable p ops q → q a = some s →
      Trace cells usable p (.took a s :: ops) (take q a)
  | put {ops q a s} : Trace cells usable p ops q → q a = none →
      Legal cells usable (put q a s) → Trace cells usable p (.put a s :: ops) (put q a s)

theorem Trace.append {p q r : Plan α σ} {ops ops' : List (Op α σ)}
    (h : Trace cells usable p ops q) (h' : Trace cells usable q ops' r) :
    Trace cells usable p (ops' ++ ops) r := by
  induction h' with
  | nil => exact h
  | took _ hq ih => exact .took ih hq
  | put _ hq hl ih => exact .put ih hq hl

/-- Every plan a history passes through is legal. -/
theorem Trace.legal {p q : Plan α σ} {ops : List (Op α σ)} (h : Trace cells usable p ops q)
    (hp : Legal cells usable p) : Legal cells usable q := by
  induction h with
  | nil => exact hp
  | took _ _ ih => exact ih.take _
  | put _ _ hl _ => exact hl

end Histories

end TkbCherry.Booking
