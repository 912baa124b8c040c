import Mathlib

/-!
# Reading a list at other indices

Pairs of a target and a source tell where an entry is read from. Where the targets are distinct and
the sources are the targets in another order, they make a permutation of the indices.
-/

namespace Reindex

set_option autoImplicit false

universe u v
variable {ι : Type u}

section Source
variable [DecidableEq ι]

/-- The source of an index; one that is no target reads itself. -/
def source (pairs : List (ι × ι)) (i : ι) : ι := (pairs.lookup i).getD i

theorem source_of_notMem {pairs : List (ι × ι)} {i : ι} (h : i ∉ pairs.map Prod.fst) :
    source pairs i = i := by
  have hnone : pairs.lookup i = none := by
    apply List.lookup_eq_none_iff.mpr
    intro e he
    apply bne_iff_ne.mpr
    intro heq
    exact h (List.mem_map.mpr ⟨e, he, heq.symm⟩)
  rw [source, hnone]
  rfl

theorem source_of_mem {pairs : List (ι × ι)} (hnodup : (pairs.map Prod.fst).Nodup) {i j : ι}
    (h : (i, j) ∈ pairs) : source pairs i = j := by
  induction pairs with
  | nil => cases h
  | cons e pairs ih =>
    obtain ⟨he, hnodup⟩ := List.nodup_cons.mp hnodup
    cases List.mem_cons.mp h with
    | inl h =>
      subst h
      simp [source]
    | inr h =>
      have hne : i ≠ e.1 := by
        intro heq
        exact he (heq ▸ List.mem_map_of_mem (f := Prod.fst) h)
      have hrest := ih hnodup h
      rw [source] at hrest
      rw [source, List.lookup_cons, beq_eq_false_iff_ne.mpr hne]
      exact hrest

/-- The pair that a target stands in. -/
theorem mem_source {pairs : List (ι × ι)} (hnodup : (pairs.map Prod.fst).Nodup) {i : ι}
    (h : i ∈ pairs.map Prod.fst) : (i, source pairs i) ∈ pairs := by
  obtain ⟨e, he, rfl⟩ := List.mem_map.mp h
  rw [source_of_mem hnodup he]
  exact he

theorem bijective_source {pairs : List (ι × ι)} (hnodup : (pairs.map Prod.fst).Nodup)
    (hperm : (pairs.map Prod.snd).Perm (pairs.map Prod.fst)) : Function.Bijective (source pairs) := by
  have hsources : (pairs.map Prod.snd).Nodup := hperm.nodup_iff.mpr hnodup
  have htarget : ∀ i, i ∈ pairs.map Prod.fst → source pairs i ∈ pairs.map Prod.fst := by
    intro i hi
    exact hperm.mem_iff.mp (List.mem_map_of_mem (f := Prod.snd) (mem_source hnodup hi))
  constructor
  · intro i j h
    by_cases hi : i ∈ pairs.map Prod.fst
    · by_cases hj : j ∈ pairs.map Prod.fst
      · have hpair := List.inj_on_of_nodup_map hsources (mem_source hnodup hi) (mem_source hnodup hj) h
        exact congrArg Prod.fst hpair
      · rw [source_of_notMem hj] at h
        exact absurd (h ▸ htarget i hi) hj
    · rw [source_of_notMem hi] at h
      by_cases hj : j ∈ pairs.map Prod.fst
      · exact absurd (h ▸ htarget j hj) hi
      · rwa [source_of_notMem hj] at h
  · intro j
    by_cases hj : j ∈ pairs.map Prod.fst
    · obtain ⟨e, he, rfl⟩ := List.mem_map.mp (hperm.mem_iff.mpr hj)
      exact ⟨e.1, source_of_mem hnodup he⟩
    · exact ⟨j, source_of_notMem hj⟩

end Source

/-- A permutation that keeps the indices below a bound permutes them. -/
theorem map_range_perm {n : Nat} (σ : Equiv.Perm Nat) (h : ∀ i < n, σ i < n) :
    ((List.range n).map σ).Perm (List.range n) := by
  have hnodup : ((List.range n).map σ).Nodup := List.nodup_range.map σ.injective
  have hsub : (List.range n).map σ ⊆ List.range n := by
    intro j hj
    obtain ⟨i, hi, rfl⟩ := List.mem_map.mp hj
    exact List.mem_range.mpr (h i (List.mem_range.mp hi))
  apply (List.Nodup.subperm hnodup hsub).perm_of_length_le
  simp

/-- A list read at permuted indices has the same entries. -/
theorem perm_of_reindex {α β : Type v} {before after : List α} (key : α → β) (σ : Equiv.Perm Nat)
    (hlength : after.length = before.length)
    (h : ∀ i < before.length, ∃ a b, after[i]? = some a ∧ before[σ i]? = some b ∧ key a = key b) :
    (after.map key).Perm (before.map key) := by
  have hread : ∀ l : List α, l.map key = (List.range l.length).filterMap fun i => l[i]?.map key := by
    intro l
    have hopt : (List.range l.length).map (fun i => l[i]?.map key) = l.map fun a => some (key a) := by
      apply List.ext_getElem?
      intro i
      by_cases hi : i < l.length
      · simp [hi]
      · simp [hi]
    have hid := congrArg (List.filterMap id) hopt
    rw [List.filterMap_map, List.filterMap_map] at hid
    simpa [Function.comp_def] using hid.symm
  have hrange : ∀ i < before.length, σ i < before.length := by
    intro i hi
    obtain ⟨a, b, _, hb, _⟩ := h i hi
    exact (List.getElem?_eq_some_iff.mp hb).1
  have hafter : after.map key = ((List.range before.length).map σ).filterMap fun i =>
      before[i]?.map key := by
    rw [hread after, hlength, List.filterMap_map]
    apply List.filterMap_congr
    intro i hi
    obtain ⟨a, b, ha, hb, hkey⟩ := h i (List.mem_range.mp hi)
    rw [ha, Function.comp_apply, hb, Option.map_some, Option.map_some, hkey]
  rw [hafter, hread before]
  exact (map_range_perm σ hrange).filterMap _

/-! ### Pairs of groups of indices -/

variable {β : Type v} {f : β → List ι}

/-- Groups of one length, matched entry by entry. -/
def matched (f : β → List ι) (steps : List (β × β)) : List (ι × ι) :=
  steps.flatMap fun e => (f e.2).zip (f e.1)

theorem matched_fst {steps : List (β × β)} (h : ∀ e ∈ steps, (f e.2).length = (f e.1).length) :
    (matched f steps).map Prod.fst = (steps.map Prod.snd).flatMap f := by
  induction steps with
  | nil => rfl
  | cons e steps ih =>
    have hrest := ih fun e' he' => h e' (List.mem_cons_of_mem _ he')
    rw [matched] at hrest
    rw [matched, List.flatMap_cons, List.map_append, hrest, List.map_cons, List.flatMap_cons,
      List.map_fst_zip (h e List.mem_cons_self).le]

theorem matched_snd {steps : List (β × β)} (h : ∀ e ∈ steps, (f e.2).length = (f e.1).length) :
    (matched f steps).map Prod.snd = (steps.map Prod.fst).flatMap f := by
  induction steps with
  | nil => rfl
  | cons e steps ih =>
    have hrest := ih fun e' he' => h e' (List.mem_cons_of_mem _ he')
    rw [matched] at hrest
    rw [matched, List.flatMap_cons, List.map_append, hrest, List.map_cons, List.flatMap_cons,
      List.map_snd_zip (h e List.mem_cons_self).ge]

/-- Every entry and its successor, the first after the last. -/
def successors (cycle : List β) : List (β × β) := cycle.zip (cycle.rotate 1)

theorem successors_fst (cycle : List β) : (successors cycle).map Prod.fst = cycle :=
  List.map_fst_zip (List.length_rotate cycle 1).ge

theorem successors_snd (cycle : List β) : (successors cycle).map Prod.snd = cycle.rotate 1 :=
  List.map_snd_zip (List.length_rotate cycle 1).le

end Reindex
