import Mathlib

/-!
# The best of what was seen

A strict preference and the candidates offered so far, one after another. Whoever keeps the
best of them compares each new one with it once; a second slot may hold a better one than the
first, as long as it is known to be better.
-/

namespace Incumbent

set_option autoImplicit false

universe u
variable {α : Type u}

/-- What comparing needs of a preference. -/
structure Strict (pref : α → α → Bool) : Prop where
  irrefl : ∀ a, pref a a = false
  trans : ∀ a b c, pref a b = true → pref b c = true → pref a c = true

variable {pref : α → α → Bool}

/-- Nothing seen is preferred to it, and it was seen. -/
def Minimal (pref : α → α → Bool) (c : α) (seen : List α) : Prop :=
  c ∈ seen ∧ ∀ d ∈ seen, pref d c = false

/-- The incumbent: a minimal one of what was seen, if anything was. -/
def Best (pref : α → α → Bool) (best : Option α) (seen : List α) : Prop :=
  match best with
  | some c => Minimal pref c seen
  | none => seen = []

/-- The second of two incumbents only if it is preferred. -/
def better (pref : α → α → Bool) (left right : Option α) : Option α :=
  match left, right with
  | some left, some right => some (if pref right left then right else left)
  | some candidate, none => some candidate
  | none, right => right

/-- Whether an offer beats the incumbent. -/
def beats (pref : α → α → Bool) (offer : α) (best : Option α) : Bool :=
  (best.map (pref offer)).getD true

theorem better_none (left : Option α) : better pref left none = left := by
  cases left <;> rfl

namespace Best
variable {best : Option α} {seen : List α} {offer : α}

theorem empty : Best pref none [] := rfl

theorem mem {c : α} (h : Best pref (some c) seen) : c ∈ seen := h.1

/-- The offer that beats the incumbent is the new one. -/
theorem accept (hp : Strict pref) (h : Best pref best seen) (hbeats : beats pref offer best = true) :
    Best pref (some offer) (seen ++ [offer]) := by
  refine ⟨List.mem_append_right _ (List.mem_singleton.mpr rfl), fun d hd => ?_⟩
  rcases List.mem_append.mp hd with hd | hd
  · cases best with
    | none =>
      have hnil : seen = [] := h
      rw [hnil] at hd
      exact absurd hd List.not_mem_nil
    | some c =>
      have hoffer : pref offer c = true := hbeats
      cases hdo : pref d offer with
      | false => rfl
      | true =>
        have hdc := hp.trans d offer c hdo hoffer
        rw [h.2 d hd] at hdc
        exact absurd hdc (by simp)
  · rw [List.mem_singleton.mp hd]
    exact hp.irrefl offer

/-- The offer that does not beat it changes nothing. -/
theorem refuse {c : α} (h : Best pref (some c) seen) (hnot : beats pref offer (some c) = false) :
    Best pref (some c) (seen ++ [offer]) := by
  refine ⟨List.mem_append_left _ h.1, fun d hd => ?_⟩
  rcases List.mem_append.mp hd with hd | hd
  · exact h.2 d hd
  · rw [List.mem_singleton.mp hd]
    exact hnot

theorem beaten (hnot : beats pref offer best = false) : ∃ c, best = some c := by
  cases best with
  | none => exact absurd hnot (by simp [beats])
  | some c => exact ⟨c, rfl⟩

/-- The incumbent after an offer. -/
theorem offered (hp : Strict pref) (h : Best pref best seen) :
    Best pref (if beats pref offer best then some offer else best) (seen ++ [offer]) := by
  by_cases hbeats : beats pref offer best = true
  · rw [if_pos hbeats]
    exact h.accept hp hbeats
  · rw [if_neg hbeats]
    have hnot := Bool.eq_false_iff.mpr hbeats
    obtain ⟨c, rfl⟩ := beaten hnot
    exact h.refuse hnot

end Best

/-! ### Two slots -/

/-- The best of two slots is the incumbent, and the second is there only because it is better
than the first. -/
structure Slots (pref : α → α → Bool) (first second : Option α) (seen : List α) : Prop where
  best : Best pref (better pref first second) seen
  ahead : ∀ a b, first = some a → second = some b → pref b a = true

namespace Slots
variable {first second : Option α} {seen : List α} {offer : α}

theorem empty : Slots pref none none [] := ⟨rfl, fun _ _ h => absurd h (by simp)⟩

theorem single (c : Option α) (hp : Strict pref) : Slots pref c none c.toList where
  best := by
    rw [better_none]
    cases c with
    | none => rfl
    | some c => exact ⟨List.mem_singleton.mpr rfl, fun d hd => by
        rw [List.mem_singleton.mp hd]
        exact hp.irrefl c⟩
  ahead := fun _ _ _ h => absurd h (by simp)

/-- The offer, or the best so far, goes to the first slot; the second is emptied. -/
theorem settle (hp : Strict pref) (h : Slots pref first second seen) :
    Slots pref (if beats pref offer (better pref first second) then some offer
      else better pref first second) none (seen ++ [offer]) where
  best := by
    rw [better_none]
    split
    · rename_i hbeats
      exact h.best.accept hp hbeats
    · rename_i hnot
      have hnot' : beats pref offer (better pref first second) = false := by simpa using hnot
      obtain ⟨c, hc⟩ := Best.beaten hnot'
      have hbest := h.best
      rw [hc] at hbest hnot' ⊢
      exact hbest.refuse hnot'
  ahead := fun _ _ _ h => absurd h (by simp)

/-- The offer that beats both slots goes to the second. -/
theorem improve (hp : Strict pref) (h : Slots pref first second seen)
    (hbeats : beats pref offer (better pref first second) = true) :
    Slots pref first (some offer) (seen ++ [offer]) := by
  have hahead : ∀ a, first = some a → pref offer a = true := by
    intro a ha
    subst ha
    cases second with
    | none => exact hbeats
    | some b =>
      have hba := h.ahead a b rfl rfl
      have hob : pref offer b = true := by simpa [better, beats, hba] using hbeats
      exact hp.trans offer b a hob hba
  refine ⟨?_, fun a b ha hb => Option.some.inj hb ▸ hahead a ha⟩
  have hoffer : better pref first (some offer) = some offer := by
    cases first with
    | none => rfl
    | some a => simp [better, hahead a rfl]
  rw [hoffer]
  exact h.best.accept hp hbeats

/-- The offer that does not beat both slots changes neither. -/
theorem keep (h : Slots pref first second seen)
    (hnot : beats pref offer (better pref first second) = false) :
    Slots pref first second (seen ++ [offer]) where
  best := by
    obtain ⟨c, hc⟩ := Best.beaten hnot
    have hbest := h.best
    rw [hc] at hbest hnot ⊢
    exact hbest.refuse hnot
  ahead := h.ahead

/-- With both slots filled the first one is not minimal. -/
theorem first_not_minimal {a b : α} (h : Slots pref (some a) (some b) seen) :
    ¬ Minimal pref a seen := by
  intro ha
  have hba := h.ahead a b rfl rfl
  have hbest := h.best
  simp only [better, hba, if_true] at hbest
  rw [ha.2 b hbest.1] at hba
  exact absurd hba (by simp)

end Slots

end Incumbent
