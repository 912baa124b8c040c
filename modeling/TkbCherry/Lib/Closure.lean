import Mathlib

/-!
# Closures computed with a stack

A depth-first closure of a successor function that gives up when more than `cap` nodes are
seen. When it answers it answers the nodes reachable from the seed, and it answers exactly
when there are at most `cap` of them.
-/

namespace Closure

set_option autoImplicit false

universe u
variable {α : Type u} [DecidableEq α]

/-- Push the nodes that are new: first the seen ones, then the stack. -/
def visit (found : List α) (seen stack : List α) : List α × List α :=
  match found with
  | [] => (seen, stack)
  | d :: rest => if d ∈ seen then visit rest seen stack else visit rest (d :: seen) (d :: stack)

/-- Pop a node and visit its successors, until the stack is empty. -/
def closure (next : α → List α) (cap : Nat) : Nat → List α → List α → Option (List α)
  | _, seen, [] => some seen
  | 0, _, _ :: _ => none
  | fuel + 1, seen, c :: stack =>
    if seen.length > cap then none
    else
      let after := visit (next c) seen stack
      closure next cap fuel after.1 after.2

/-- More than `cap` nodes are seen after `cap + 1` pops, so the fuel is enough. -/
def component (next : α → List α) (cap : Nat) (seed : α) : Option (List α) :=
  closure next cap (cap + 1) [seed] [seed]

/-- A path of successors. -/
def Reach (next : α → List α) : α → α → Prop := Relation.ReflTransGen fun a b => b ∈ next a

theorem visit_eq (found seen stack : List α) (hseen : seen.Nodup) :
    ∃ fresh : List α, visit found seen stack = (fresh ++ seen, fresh ++ stack) ∧
      (fresh ++ seen).Nodup ∧ (∀ d ∈ fresh, d ∈ found) ∧ ∀ d ∈ found, d ∈ fresh ++ seen := by
  induction found generalizing seen stack with
  | nil => exact ⟨[], rfl, hseen, by simp, by simp⟩
  | cons d rest ih =>
    rw [visit]
    by_cases hd : d ∈ seen
    · obtain ⟨fresh, heq, hnodup, hfound, hall⟩ := ih seen stack hseen
      refine ⟨fresh, by rw [if_pos hd, heq], hnodup, ?_, ?_⟩
      · intro e he
        exact List.mem_cons_of_mem _ (hfound e he)
      · intro e he
        cases List.mem_cons.mp he with
        | inl he => exact List.mem_append_right _ (he ▸ hd)
        | inr he => exact hall e he
    · obtain ⟨fresh, heq, hnodup, hfound, hall⟩ :=
        ih (d :: seen) (d :: stack) (List.nodup_cons.mpr ⟨hd, hseen⟩)
      refine ⟨fresh ++ [d], by simp [hd, heq], by simpa using hnodup, ?_, ?_⟩
      · intro e he
        cases List.mem_append.mp he with
        | inl he => exact List.mem_cons_of_mem _ (hfound e he)
        | inr he => exact List.mem_cons.mpr (Or.inl (List.mem_singleton.mp he))
      · intro e he
        rw [List.append_assoc, List.singleton_append]
        cases List.mem_cons.mp he with
        | inl he => exact List.mem_append_right _ (he ▸ List.mem_cons_self)
        | inr he => exact hall e he

/-- The seen nodes are reachable, and those off the stack have their successors seen. -/
structure Inv (next : α → List α) (seed : α) (seen stack : List α) : Prop where
  root : seed ∈ seen
  nodup : seen.Nodup
  pushed : ∀ c ∈ stack, c ∈ seen
  reach : ∀ c ∈ seen, Reach next seed c
  closed : ∀ c ∈ seen, c ∉ stack → ∀ d ∈ next c, d ∈ seen

omit [DecidableEq α] in
theorem inv_init (next : α → List α) (seed : α) : Inv next seed [seed] [seed] where
  root := List.mem_singleton_self _
  nodup := List.nodup_singleton _
  pushed := fun c hc => hc
  reach := fun c hc => by
    rw [List.mem_singleton.mp hc]
    exact Relation.ReflTransGen.refl
  closed := fun c hc hn => absurd hc hn

theorem inv_step {next : α → List α} {seed c : α} {seen stack fresh : List α}
    (h : Inv next seed seen (c :: stack)) (hnodup : (fresh ++ seen).Nodup)
    (hfresh : ∀ d ∈ fresh, d ∈ next c) (hall : ∀ d ∈ next c, d ∈ fresh ++ seen) :
    Inv next seed (fresh ++ seen) (fresh ++ stack) where
  root := List.mem_append_right _ h.root
  nodup := hnodup
  pushed := by
    intro d hd
    cases List.mem_append.mp hd with
    | inl hd => exact List.mem_append_left _ hd
    | inr hd => exact List.mem_append_right _ (h.pushed d (List.mem_cons_of_mem _ hd))
  reach := by
    intro d hd
    cases List.mem_append.mp hd with
    | inl hd => exact (h.reach c (h.pushed c List.mem_cons_self)).tail (hfresh d hd)
    | inr hd => exact h.reach d hd
  closed := by
    intro d hd hn e he
    have hnfresh : d ∉ fresh := fun hf => hn (List.mem_append_left _ hf)
    have hnstack : d ∉ stack := fun hs => hn (List.mem_append_right _ hs)
    have hseen : d ∈ seen := (List.mem_append.mp hd).resolve_left hnfresh
    by_cases hdc : d = c
    · exact hall e (hdc ▸ he)
    · have hout : d ∉ c :: stack := fun hm => (List.mem_cons.mp hm).elim hdc hnstack
      exact List.mem_append_right _ (h.closed d hseen hout e he)

omit [DecidableEq α] in
/-- An empty stack leaves a closed set. -/
theorem Inv.mem_iff {next : α → List α} {seed : α} {seen : List α} (h : Inv next seed seen [])
    (c : α) : c ∈ seen ↔ Reach next seed c := by
  constructor
  · exact h.reach c
  · intro hc
    induction hc with
    | refl => exact h.root
    | tail _ hstep ih => exact h.closed _ ih List.not_mem_nil _ hstep

theorem closure_inv {next : α → List α} {cap : Nat} {seed : α} (fuel : Nat)
    {seen stack comp : List α} (h : Inv next seed seen stack)
    (hrun : closure next cap fuel seen stack = some comp) : Inv next seed comp [] := by
  induction fuel generalizing seen stack with
  | zero =>
    cases stack with
    | nil =>
      simp only [closure, Option.some.injEq] at hrun
      exact hrun ▸ h
    | cons c rest => simp [closure] at hrun
  | succ fuel ih =>
    cases stack with
    | nil =>
      simp only [closure, Option.some.injEq] at hrun
      exact hrun ▸ h
    | cons c rest =>
      obtain ⟨fresh, heq, hnodup, hfresh, hall⟩ := visit_eq (next c) seen rest h.nodup
      rw [closure, heq] at hrun
      by_cases hcap : seen.length > cap
      · simp [hcap] at hrun
      · rw [if_neg hcap] at hrun
        exact ih (inv_step h hnodup hfresh hall) hrun

/-- The last pop saw at most `cap` nodes and found no new one. -/
theorem closure_length {next : α → List α} {cap : Nat} (fuel : Nat) {seen stack comp : List α}
    (hnodup : seen.Nodup) (hrun : closure next cap fuel seen stack = some comp) :
    stack = [] ∧ comp = seen ∨ comp.length ≤ cap := by
  induction fuel generalizing seen stack with
  | zero =>
    cases stack with
    | nil =>
      simp only [closure, Option.some.injEq] at hrun
      exact Or.inl ⟨rfl, hrun.symm⟩
    | cons c rest => simp [closure] at hrun
  | succ fuel ih =>
    cases stack with
    | nil =>
      simp only [closure, Option.some.injEq] at hrun
      exact Or.inl ⟨rfl, hrun.symm⟩
    | cons c rest =>
      obtain ⟨fresh, heq, hfresh, _, _⟩ := visit_eq (next c) seen rest hnodup
      rw [closure, heq] at hrun
      by_cases hcap : seen.length > cap
      · simp [hcap] at hrun
      · rw [if_neg hcap] at hrun
        rcases ih hfresh hrun with ⟨hstack, hcomp⟩ | hle
        · obtain ⟨rfl, _⟩ := List.append_eq_nil_iff.mp hstack
          rw [hcomp]
          exact Or.inr (Nat.le_of_not_gt hcap)
        · exact Or.inr hle

/-- With at most `cap` reachable nodes the stack runs empty before the fuel does. -/
theorem closure_isSome {next : α → List α} {cap : Nat} {seed : α}
    (hsmall : ∀ l : List α, l.Nodup → (∀ c ∈ l, Reach next seed c) → l.length ≤ cap)
    (fuel : Nat) {seen stack : List α} (h : Inv next seed seen stack)
    (hfuel : fuel + seen.length = cap + 1 + stack.length) :
    (closure next cap fuel seen stack).isSome = true := by
  have hlen : seen.length ≤ cap := hsmall seen h.nodup h.reach
  induction fuel generalizing seen stack with
  | zero =>
    cases stack with
    | nil => rfl
    | cons c rest =>
      rw [List.length_cons] at hfuel
      omega
  | succ fuel ih =>
    cases stack with
    | nil => rfl
    | cons c rest =>
      obtain ⟨fresh, heq, hnodup, hfresh, hall⟩ := visit_eq (next c) seen rest h.nodup
      have hstep := inv_step h hnodup hfresh hall
      rw [closure, heq, if_neg (Nat.not_lt.mpr hlen)]
      apply ih hstep
      · simp only [List.length_append, List.length_cons] at hfuel ⊢
        omega
      · exact hsmall _ hnodup hstep.reach

theorem component_inv {next : α → List α} {cap : Nat} {seed : α} {comp : List α}
    (h : component next cap seed = some comp) : Inv next seed comp [] :=
  closure_inv (cap + 1) (inv_init next seed) h

/-- The closure answers exactly when at most `cap` nodes are reachable. -/
theorem component_isSome_iff {next : α → List α} {cap : Nat} (seed : α) :
    (component next cap seed).isSome = true ↔
      ∀ l : List α, l.Nodup → (∀ c ∈ l, Reach next seed c) → l.length ≤ cap := by
  constructor
  · intro h l hnodup hreach
    obtain ⟨comp, hcomp⟩ := Option.isSome_iff_exists.mp h
    have hinv := component_inv hcomp
    have hsub : l ⊆ comp := fun c hc => (hinv.mem_iff c).mpr (hreach c hc)
    have hle : l.length ≤ comp.length := (List.subperm_of_subset hnodup hsub).length_le
    rcases closure_length (cap + 1) (List.nodup_singleton seed) hcomp with ⟨hstack, _⟩ | hlen
    · cases hstack
    · omega
  · intro h
    exact closure_isSome h (cap + 1) (inv_init next seed) rfl

end Closure
