import Mathlib

/-!
# Association lists as ordered maps

`assign` is insertion into a map kept in key order, `unset` is removal. The lookup
laws need neither sortedness nor distinct keys, so they hold for every list; ordered lists
are determined by their lookups.
-/

namespace AssocList

set_option autoImplicit false

universe u v
variable {K : Type u} {V : Type v} [DecidableEq K]

/-- Replace the value under `k`, or insert it before the first larger key. -/
def assign [LT K] [DecidableLT K] (k : K) (v : V) : List (K × V) → List (K × V)
  | [] => [(k, v)]
  | (j, w) :: rest =>
    if k = j then (k, v) :: rest
    else if k < j then (k, v) :: (j, w) :: rest
    else (j, w) :: assign k v rest

/-- Remove every entry under `k`. -/
def unset (k : K) (entries : List (K × V)) : List (K × V) :=
  entries.filter fun e => decide (e.1 ≠ k)

theorem lookup_cons_eq (k j : K) (v : V) (rest : List (K × V)) :
    List.lookup k ((j, v) :: rest) = if k = j then some v else List.lookup k rest := by
  by_cases h : k = j
  · subst h; simp
  · have hb : (k == j) = false := beq_false_of_ne h
    simp [List.lookup_cons, hb, h]

section Assign
variable [LT K] [DecidableLT K]

@[simp] theorem lookup_assign_self (k : K) (v : V) (entries : List (K × V)) :
    List.lookup k (assign k v entries) = some v := by
  induction entries with
  | nil => simp [assign]
  | cons e rest ih =>
    obtain ⟨j, w⟩ := e
    simp only [assign]
    split
    · simp
    · rename_i hne
      split
      · simp
      · rw [lookup_cons_eq, if_neg hne, ih]

theorem lookup_assign_ne {k j : K} (h : j ≠ k) (v : V) (entries : List (K × V)) :
    List.lookup j (assign k v entries) = List.lookup j entries := by
  induction entries with
  | nil => simp [assign, lookup_cons_eq, h]
  | cons e rest ih =>
    obtain ⟨i, w⟩ := e
    simp only [assign]
    split
    · rename_i heq
      subst heq
      rw [lookup_cons_eq, lookup_cons_eq, if_neg h, if_neg h]
    · split
      · rw [lookup_cons_eq, if_neg h]
      · rw [lookup_cons_eq, lookup_cons_eq, ih]

/-- A new key adds one entry. -/
theorem assign_perm {k : K} {entries : List (K × V)} (h : List.lookup k entries = none) (v : V) :
    (assign k v entries).Perm ((k, v) :: entries) := by
  induction entries with
  | nil => exact .refl _
  | cons e rest ih =>
    obtain ⟨j, w⟩ := e
    rw [lookup_cons_eq] at h
    split at h
    · exact absurd h (by simp)
    · rename_i hne
      simp only [assign, if_neg hne]
      split
      · exact .refl _
      · exact ((ih h).cons _).trans (.swap _ _ _)

end Assign

@[simp] theorem lookup_unset_self (k : K) (entries : List (K × V)) :
    List.lookup k (unset k entries) = none := by
  induction entries with
  | nil => rfl
  | cons e rest ih =>
    obtain ⟨j, w⟩ := e
    unfold unset at ih ⊢
    by_cases h : j = k
    · simpa [h] using ih
    · have hkj : k ≠ j := fun he => h he.symm
      rw [List.filter_cons_of_pos (by simpa using h), lookup_cons_eq, if_neg hkj, ih]

theorem lookup_unset_ne {k j : K} (h : j ≠ k) (entries : List (K × V)) :
    List.lookup j (unset k entries) = List.lookup j entries := by
  induction entries with
  | nil => rfl
  | cons e rest ih =>
    obtain ⟨i, w⟩ := e
    unfold unset at ih ⊢
    by_cases hi : i = k
    · subst hi
      rw [List.filter_cons_of_neg (by simp), ih, lookup_cons_eq, if_neg h]
    · rw [List.filter_cons_of_pos (by simpa using hi), lookup_cons_eq, lookup_cons_eq, ih]

/-- Change the value under `k`, if there is one. -/
def modify (k : K) (f : V → V) (entries : List (K × V)) : List (K × V) :=
  entries.map fun e => if e.1 = k then (e.1, f e.2) else e

theorem lookup_modify (k : K) (f : V → V) (entries : List (K × V)) (j : K) :
    List.lookup j (modify k f entries) =
      if j = k then (List.lookup k entries).map f else List.lookup j entries := by
  induction entries with
  | nil => simp [modify]
  | cons e rest ih =>
    obtain ⟨i, v⟩ := e
    unfold modify at ih ⊢
    rw [List.map_cons]
    rcases eq_or_ne i k with hi | hi
    · subst hi
      rw [if_pos rfl, lookup_cons_eq, lookup_cons_eq, lookup_cons_eq, if_pos rfl, ih]
      rcases eq_or_ne j i with hj | hj
      · rw [if_pos hj, if_pos hj, Option.map_some]
      · rw [if_neg hj, if_neg hj, if_neg hj, if_neg hj]
    · rw [if_neg hi, lookup_cons_eq, lookup_cons_eq, lookup_cons_eq, ih, if_neg hi.symm]
      rcases eq_or_ne j k with hj | hj
      · rw [if_pos hj, if_pos hj, hj, if_neg hi.symm]
      · rw [if_neg hj, if_neg hj]

theorem mem_of_lookup {k : K} {v : V} {entries : List (K × V)}
    (h : List.lookup k entries = some v) : (k, v) ∈ entries := by
  induction entries with
  | nil => simp at h
  | cons e rest ih =>
    obtain ⟨j, w⟩ := e
    rw [lookup_cons_eq] at h
    split at h
    · rename_i hkj
      cases h
      subst hkj
      exact List.mem_cons_self
    · exact List.mem_cons_of_mem _ (ih h)

theorem lookup_eq_none_iff {k : K} {entries : List (K × V)} :
    List.lookup k entries = none ↔ k ∉ entries.map Prod.fst := by
  induction entries with
  | nil => simp
  | cons e rest ih =>
    obtain ⟨j, w⟩ := e
    rw [lookup_cons_eq, List.map_cons, List.mem_cons, not_or]
    split
    · rename_i hkj
      simp [hkj]
    · rename_i hkj
      exact ih.trans ⟨fun h => ⟨hkj, h⟩, fun h => h.2⟩

theorem lookup_isSome_iff {k : K} {entries : List (K × V)} :
    (List.lookup k entries).isSome = true ↔ k ∈ entries.map Prod.fst := by
  rw [Option.isSome_iff_ne_none, ne_eq, lookup_eq_none_iff, not_not]

/-! ### Ordered lists -/

section Sorted
variable [LT K]

/-- Keys ascend, so no key occurs twice. -/
def Sorted (entries : List (K × V)) : Prop := entries.Pairwise fun a b => a.1 < b.1

instance [DecidableLT K] (entries : List (K × V)) : Decidable (Sorted entries) :=
  inferInstanceAs (Decidable (entries.Pairwise fun a b => a.1 < b.1))

omit [DecidableEq K] in
theorem Sorted.filter {entries : List (K × V)} (h : Sorted entries) (p : K × V → Bool) :
    Sorted (entries.filter p) := List.Pairwise.filter p h

theorem Sorted.modify {entries : List (K × V)} (h : Sorted entries) (k : K) (f : V → V) :
    Sorted (modify k f entries) := by
  unfold Sorted AssocList.modify
  rw [List.pairwise_map]
  apply h.imp
  intro a b hab
  split <;> split <;> exact hab

theorem mem_assign [DecidableLT K] {k : K} {v : V} {e : K × V} {entries : List (K × V)}
    (h : e ∈ assign k v entries) : e = (k, v) ∨ e ∈ entries := by
  induction entries with
  | nil => exact Or.inl (List.mem_singleton.mp h)
  | cons x rest ih =>
    obtain ⟨j, w⟩ := x
    unfold assign at h
    split at h
    · exact (List.mem_cons.mp h).imp id (List.mem_cons_of_mem _)
    · split at h
      · exact List.mem_cons.mp h
      · rcases List.mem_cons.mp h with rfl | h
        · exact Or.inr List.mem_cons_self
        · exact (ih h).imp id (List.mem_cons_of_mem _)

variable [IsStrictTotalOrder K (· < ·)]

theorem Sorted.assign [DecidableLT K] {entries : List (K × V)} (h : Sorted entries) (k : K)
    (v : V) : Sorted (assign k v entries) := by
  induction entries with
  | nil => exact List.pairwise_singleton _ _
  | cons e rest ih =>
    obtain ⟨j, w⟩ := e
    obtain ⟨hhead, hrest⟩ := List.pairwise_cons.mp h
    unfold AssocList.assign
    split
    · rename_i hkj
      subst hkj
      exact List.pairwise_cons.mpr ⟨hhead, hrest⟩
    · rename_i hne
      split
      · rename_i hlt
        refine List.pairwise_cons.mpr ⟨?_, h⟩
        intro e he
        rcases List.mem_cons.mp he with rfl | he
        · exact hlt
        · exact IsTrans.trans _ _ _ hlt (hhead e he)
      · rename_i hge
        refine List.pairwise_cons.mpr ⟨?_, ih hrest⟩
        intro e he
        rcases mem_assign he with rfl | he
        · by_contra hjk
          exact hne (Std.Trichotomous.trichotomous k j hge hjk)
        · exact hhead e he

/-- In an ordered list the lookup finds every entry. -/
theorem Sorted.lookup_of_mem {entries : List (K × V)} (h : Sorted entries) {e : K × V}
    (he : e ∈ entries) : List.lookup e.1 entries = some e.2 := by
  induction entries with
  | nil => simp at he
  | cons x rest ih =>
    obtain ⟨j, w⟩ := x
    obtain ⟨hhead, hrest⟩ := List.pairwise_cons.mp h
    rw [lookup_cons_eq]
    rcases List.mem_cons.mp he with rfl | he
    · rw [if_pos rfl]
    · rw [if_neg, ih hrest he]
      intro hej
      exact Std.Irrefl.irrefl (r := (· < ·)) j (hej ▸ hhead e he)

theorem Sorted.lookup_filter {entries : List (K × V)} (h : Sorted entries) (p : K × V → Bool)
    (k : K) :
    List.lookup k (entries.filter p) = (List.lookup k entries).filter fun v => p (k, v) := by
  cases hl : List.lookup k entries with
  | none =>
    rw [Option.filter_none, lookup_eq_none_iff]
    rw [lookup_eq_none_iff] at hl
    intro hk
    obtain ⟨e, he, rfl⟩ := List.mem_map.mp hk
    exact hl (List.mem_map_of_mem (List.mem_of_mem_filter he))
  | some v =>
    have hmem := mem_of_lookup hl
    rw [Option.filter_some]
    split
    · rename_i hp
      exact (h.filter p).lookup_of_mem (List.mem_filter.mpr ⟨hmem, hp⟩)
    · rename_i hp
      rw [lookup_eq_none_iff]
      intro hk
      obtain ⟨e, he, rfl⟩ := List.mem_map.mp hk
      obtain ⟨hein, hpe⟩ := List.mem_filter.mp he
      have hev : some e.2 = some v := (h.lookup_of_mem hein).symm.trans hl
      cases hev
      exact hp hpe

/-- Ordered lists with the same lookups are the same list. -/
theorem Sorted.ext {entries entries' : List (K × V)} (h : Sorted entries) (h' : Sorted entries')
    (heq : ∀ k, List.lookup k entries = List.lookup k entries') : entries = entries' := by
  have hmem : ∀ e, e ∈ entries ↔ e ∈ entries' := by
    intro e
    constructor
    · intro he
      exact mem_of_lookup ((heq e.1).symm.trans (h.lookup_of_mem he))
    · intro he
      exact mem_of_lookup ((heq e.1).trans (h'.lookup_of_mem he))
  have hnodup : ∀ {l : List (K × V)}, Sorted l → l.Nodup := by
    intro l hl
    apply hl.imp
    intro a b hab hab'
    exact Std.Irrefl.irrefl (r := (· < ·)) b.1 (hab' ▸ hab)
  have hperm : entries.Perm entries' := (List.perm_ext_iff_of_nodup (hnodup h) (hnodup h')).mpr hmem
  refine List.Perm.eq_of_pairwise ?_ h h' hperm
  intro a b _ _ hab hba
  exact absurd (IsTrans.trans _ _ _ hab hba) (Std.Irrefl.irrefl (r := (· < ·)) a.1)

/-- Assigning the value that is there changes nothing. -/
theorem Sorted.assign_eq_self [DecidableLT K] {entries : List (K × V)} (h : Sorted entries) {k : K}
    {v : V} (hl : List.lookup k entries = some v) : AssocList.assign k v entries = entries := by
  apply (h.assign k v).ext h
  intro j
  rcases eq_or_ne j k with rfl | hj
  · rw [lookup_assign_self, hl]
  · rw [lookup_assign_ne hj]

end Sorted

end AssocList
