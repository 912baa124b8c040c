import Mathlib

/-!
# Labelled transition systems and their runs

A run lists the labels of its steps, oldest first. An invariant is proved once for one
step and holds along every run; a run splits wherever its list of labels does.
-/

namespace Transition

set_option autoImplicit false

universe u v w
variable {σ : Type u} {α : Type v}

/-- Finite runs of a labelled step relation. -/
inductive Run (Step : σ → α → σ → Prop) : σ → List α → σ → Prop where
  | nil (s : σ) : Run Step s [] s
  | snoc {s t u : σ} {as : List α} {a : α} :
      Run Step s as t → Step t a u → Run Step s (as ++ [a]) u

/-- A deterministic system as a step relation. -/
def ofFn (f : σ → α → σ) : σ → α → σ → Prop := fun s a t => f s a = t

/-- The steps whose state and label meet a condition. -/
def within (C : σ → α → Prop) (Step : σ → α → σ → Prop) : σ → α → σ → Prop :=
  fun s a t => C s a ∧ Step s a t

namespace Run
variable {Step : σ → α → σ → Prop} {s t u : σ} {as bs : List α} {a : α}

theorem single (h : Step s a t) : Run Step s [a] t := .snoc (.nil s) h

theorem trans (h : Run Step s as t) (k : Run Step t bs u) : Run Step s (as ++ bs) u := by
  induction k with
  | nil => simpa using h
  | snoc _ hstep ih =>
    rw [← List.append_assoc]
    exact .snoc ih hstep

theorem cons (h : Step s a t) (k : Run Step t bs u) : Run Step s (a :: bs) u :=
  (single h).trans k

/-- A run whose labels split passes through a state between the two parts. -/
theorem split (h : Run Step s (as ++ bs) u) : ∃ t, Run Step s as t ∧ Run Step t bs u := by
  generalize hl : as ++ bs = ls at h
  induction h generalizing bs with
  | nil =>
    obtain ⟨rfl, rfl⟩ := List.append_eq_nil_iff.mp hl
    exact ⟨s, .nil s, .nil s⟩
  | @snoc t u ls a hrun hstep ih =>
    cases bs using List.reverseRecOn with
    | nil =>
      rw [List.append_nil] at hl
      subst hl
      exact ⟨u, .snoc hrun hstep, .nil u⟩
    | append_singleton bs b _ =>
      rw [← List.append_assoc] at hl
      obtain ⟨hls, hb⟩ := List.append_inj' hl rfl
      obtain ⟨m, hm, hmt⟩ := ih hls
      rw [List.singleton_inj.mp hb]
      exact ⟨m, hm, .snoc hmt hstep⟩

theorem eq_of_nil (h : Run Step s [] t) : s = t := by
  generalize hl : ([] : List α) = ls at h
  cases h with
  | nil => rfl
  | snoc _ _ => simp at hl

theorem step_of_single (h : Run Step s [a] t) : Step s a t := by
  generalize hl : [a] = ls at h
  cases h with
  | nil => simp at hl
  | @snoc m _ as' a' hrun hstep =>
    have hnil : as' = [] := by
      cases as' with
      | nil => rfl
      | cons x xs => simp at hl
    subst hnil
    rw [← eq_of_nil hrun] at hstep
    rw [List.nil_append] at hl
    rwa [List.singleton_inj.mp hl]

theorem uncons (h : Run Step s (a :: bs) u) : ∃ t, Step s a t ∧ Run Step t bs u := by
  have hsplit : Run Step s ([a] ++ bs) u := h
  obtain ⟨t, hone, hrest⟩ := split hsplit
  exact ⟨t, step_of_single hone, hrest⟩

/-- An invariant of every step holds at the end of every run. -/
theorem invariant {I : σ → Prop} (hstep : ∀ {s a t}, I s → Step s a t → I t)
    (h : Run Step s as t) (hs : I s) : I t := by
  induction h with
  | nil => exact hs
  | snoc _ hst ih => exact hstep ih hst

theorem mono {Step' : σ → α → σ → Prop} (hle : ∀ {s a t}, Step s a t → Step' s a t)
    (h : Run Step s as t) : Run Step' s as t := by
  induction h with
  | nil => exact .nil _
  | snoc _ hst ih => exact .snoc ih (hle hst)

theorem of_within {C : σ → α → Prop} (h : Run (within C Step) s as t) : Run Step s as t :=
  h.mono fun hst => hst.2

/-- A transitive relation between the two ends of every step links the ends of a run. -/
theorem related {R : σ → σ → Prop} {I : σ → Prop} (refl : ∀ s, R s s)
    (trans : ∀ {a b c}, R a b → R b c → R a c)
    (hinv : ∀ {s a t}, I s → Step s a t → I t)
    (hstep : ∀ {s a t}, I s → Step s a t → R s t)
    (h : Run Step s as t) (hs : I s) : R s t := by
  induction h with
  | nil => exact refl _
  | snoc hrun hst ih => exact trans ih (hstep (invariant hinv hrun hs) hst)

/-- What every step does under an invariant it keeps, the steps of a run do. -/
theorem strengthen {I : σ → Prop} {P : σ → α → σ → Prop}
    (hstep : ∀ {s a t}, I s → Step s a t → I t ∧ P s a t) (h : Run Step s as t) (hs : I s) :
    Run (fun s a t => Step s a t ∧ P s a t) s as t := by
  have hinv : ∀ {s a t}, I s → Step s a t → I t := fun hi hst => (hstep hi hst).1
  induction h with
  | nil => exact .nil _
  | snoc hrun hst ih => exact .snoc ih ⟨hst, (hstep (invariant hinv hrun hs) hst).2⟩

/-- A run is quiet throughout, or it is quiet up to its first step that is not. -/
theorem quiet_or_first (Quiet : σ → α → σ → Prop) (h : Run Step s as t) :
    Run (fun s a t => Step s a t ∧ Quiet s a t) s as t ∨
      ∃ bs a cs m m', as = bs ++ a :: cs ∧ Run (fun s a t => Step s a t ∧ Quiet s a t) s bs m ∧
        Step m a m' ∧ ¬ Quiet m a m' ∧ Run Step m' cs t := by
  induction h with
  | nil => exact .inl (.nil _)
  | @snoc m u as a hrun hst ih =>
    rcases ih with hquiet | ⟨bs, b, cs, n, n', rfl, hquiet, hb, hloud, hrest⟩
    · by_cases hq : Quiet m a u
      · exact .inl (.snoc hquiet ⟨hst, hq⟩)
      · exact .inr ⟨as, a, [], m, u, rfl, hquiet, hst, hq, .nil _⟩
    · right
      refine ⟨bs, b, cs ++ [a], n, n', ?_, hquiet, hb, hloud, .snoc hrest hst⟩
      rw [List.append_assoc, List.cons_append]

/-- A partial system runs where its function does. -/
theorem of_foldlM {f : σ → α → Option σ} (h : as.foldlM f s = some t) :
    Run (fun s a t => f s a = some t) s as t := by
  induction as generalizing s with
  | nil =>
    cases h
    exact .nil _
  | cons a as ih =>
    rw [List.foldlM_cons] at h
    obtain ⟨m, hstep, hrest⟩ := Option.bind_eq_some_iff.mp h
    exact .cons hstep (ih hrest)

theorem ofFn_foldl (f : σ → α → σ) (s : σ) (as : List α) :
    Run (ofFn f) s as (as.foldl f s) := by
  induction as using List.reverseRecOn with
  | nil => exact .nil s
  | append_singleton as a ih =>
    rw [List.foldl_append]
    exact .snoc ih rfl

end Run

end Transition
