import Mathlib

/-!
# Programs with a state and errors

What a program returns from a state, and what then holds. There is one rule for each way to build a
program; the rules for a loop that stops at the first success and for a sweep carry an invariant.
-/

namespace Program

set_option autoImplicit false

variable {σ ε α β : Type}

/-- A program changes a state and may raise an error. -/
abbrev Prog (σ ε α : Type) := ExceptT ε (StateM σ) α

def exec (m : Prog σ ε α) (s : σ) : Except ε α × σ := (ExceptT.run m).run s

/-- The program returns, and what it returns and leaves meets a condition. -/
def Returns (m : Prog σ ε α) (s : σ) (Q : α → σ → Prop) : Prop :=
  ∃ a s', exec m s = (.ok a, s') ∧ Q a s'

section Rules
variable {m : Prog σ ε α} {f : α → Prog σ ε β} {s : σ} {Q R : α → σ → Prop} {T : β → σ → Prop}

theorem exec_bind (m : Prog σ ε α) (f : α → Prog σ ε β) (s : σ) :
    exec (m >>= f) s = match exec m s with
      | (.ok a, s') => exec (f a) s'
      | (.error e, s') => (.error e, s') := by
  show (do let r ← (ExceptT.run m).run s
           (ExceptT.bindCont f r.1).run r.2 : Id _) = _
  unfold exec
  generalize (ExceptT.run m).run s = r
  obtain ⟨r, s'⟩ := r
  cases r with
  | ok a => rfl
  | error e => rfl

theorem Returns.pure {a : α} (h : Q a s) : Returns (pure a : Prog σ ε α) s Q := ⟨a, s, rfl, h⟩

theorem Returns.bind (h : Returns m s R) (hf : ∀ a s', R a s' → Returns (f a) s' T) :
    Returns (m >>= f) s T := by
  obtain ⟨a, s', heq, hr⟩ := h
  obtain ⟨b, s'', hb, ht⟩ := hf a s' hr
  refine ⟨b, s'', ?_, ht⟩
  rw [exec_bind, heq]
  exact hb

theorem Returns.mono (h : Returns m s R) (himp : ∀ a s', R a s' → Q a s') : Returns m s Q := by
  obtain ⟨a, s', heq, hr⟩ := h
  exact ⟨a, s', heq, himp a s' hr⟩

theorem Returns.get {Q : σ → σ → Prop} (h : Q s s) : Returns (get : Prog σ ε σ) s Q :=
  ⟨s, s, rfl, h⟩

theorem Returns.set {Q : PUnit → σ → Prop} {s' : σ} (h : Q ⟨⟩ s') :
    Returns (set s' : Prog σ ε PUnit) s Q := ⟨⟨⟩, s', rfl, h⟩

/-- Reading the state and going on. -/
theorem Returns.read {k : σ → Prog σ ε β} (h : Returns (k s) s T) :
    Returns (MonadState.get >>= k) s T := by
  apply Returns.bind (Returns.get (Q := fun a s' => a = s ∧ s' = s) ⟨rfl, rfl⟩)
  rintro a s' ⟨rfl, rfl⟩
  exact h

/-- Writing the state and going on. -/
theorem Returns.write {k : PUnit → Prog σ ε β} {s' : σ} (h : Returns (k ⟨⟩) s' T) :
    Returns (MonadStateOf.set s' >>= k) s T := by
  apply Returns.bind (Returns.set (Q := fun _ s'' => s'' = s') rfl)
  rintro a s'' rfl
  exact h

end Rules

section Loops
variable {f : α → Prog σ ε Bool} {I : σ → Prop} {J : σ → Prop}

/-- A loop that stops at the first success: failures keep `I`, a success gives `J`. -/
theorem Returns.anyM {xs : List α} {s : σ} (hs : I s)
    (h : ∀ x ∈ xs, ∀ s, I s → Returns (f x) s fun hit s' => if hit = true then J s' else I s') :
    Returns (xs.anyM f) s fun hit s' => if hit = true then J s' else I s' := by
  induction xs generalizing s with
  | nil => exact Returns.pure hs
  | cons x rest ih =>
    apply Returns.bind (h x List.mem_cons_self s hs)
    intro hit s' hs'
    cases hit with
    | true => exact Returns.pure hs'
    | false =>
      apply ih hs'
      intro y hy
      exact h y (List.mem_cons_of_mem _ hy)

/-- A loop that stops at the first failure. -/
theorem Returns.allM {xs : List α} {s : σ} (hs : I s)
    (h : ∀ x ∈ xs, ∀ s, I s → Returns (f x) s fun hit s' => if hit = true then I s' else J s') :
    Returns (xs.allM f) s fun hit s' => if hit = true then I s' else J s' := by
  induction xs generalizing s with
  | nil => exact Returns.pure hs
  | cons x rest ih =>
    apply Returns.bind (h x List.mem_cons_self s hs)
    intro hit s' hs'
    cases hit with
    | false => exact Returns.pure hs'
    | true =>
      apply ih hs'
      intro y hy
      exact h y (List.mem_cons_of_mem _ hy)

end Loops

end Program
