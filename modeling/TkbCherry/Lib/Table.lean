import Mathlib

/-!
# Tables

A hash map is an association list with distinct keys whose order no result depends on.
`AList` has lookup, insertion and removal; here are updates in place, filters and the sum
of a weight over the values.
-/

namespace Table

set_option autoImplicit false

universe u v
variable {K : Type u} {V : Type v}

/-- The values with their keys, the key type being the same for all of them. -/
abbrev Entries (K : Type u) (V : Type v) := AList fun _ : K => V

/-- The entries as pairs. -/
def toList (m : Entries K V) : List (K × V) := m.entries.map fun e => (e.1, e.2)

/-- `retain`. -/
def retain (p : K → V → Bool) (m : Entries K V) : Entries K V where
  entries := m.entries.filter fun e => p e.1 e.2
  nodupKeys := m.nodupKeys.sublist List.filter_sublist

/-- The sum of a weight over the values. -/
def total (f : V → Nat) (m : Entries K V) : Nat := (m.entries.map fun e => f e.2).sum

/-- `values().filter(p).count()`. -/
def count (p : V → Bool) (m : Entries K V) : Nat := (m.entries.filter fun e => p e.2).length

def size (m : Entries K V) : Nat := m.entries.length

variable [DecidableEq K]

/-- Update the value under `k`, if there is one. -/
def modify (k : K) (f : V → V) (m : Entries K V) : Entries K V where
  entries := m.entries.map fun e => if e.1 = k then ⟨e.1, f e.2⟩ else e
  nodupKeys := by
    have hkeys : (m.entries.map fun e => if e.1 = k then (⟨e.1, f e.2⟩ : Sigma fun _ : K => V)
        else e).keys = m.entries.keys := by
      unfold List.keys
      rw [List.map_map]
      refine List.map_congr_left fun e _ => ?_
      simp only [Function.comp]
      split <;> rfl
    unfold List.NodupKeys
    rw [hkeys]
    exact m.nodupKeys

omit [DecidableEq K] in
theorem keys_map (f : V → V) (es : List (Sigma fun _ : K => V)) :
    (es.map fun e => (⟨e.1, f e.2⟩ : Sigma fun _ : K => V)).keys = es.keys := by
  unfold List.keys
  rw [List.map_map]
  rfl

omit [DecidableEq K] in
/-- Change every value: a loop over `values_mut()`. -/
def mapValues (f : V → V) (m : Entries K V) : Entries K V where
  entries := m.entries.map fun e => ⟨e.1, f e.2⟩
  nodupKeys := by
    unfold List.NodupKeys
    rw [keys_map]
    exact m.nodupKeys

section Lookup
variable {m : Entries K V} {k : K} {v : V}

theorem mem_entries_iff : (⟨k, v⟩ : Sigma fun _ : K => V) ∈ m.entries ↔ m.lookup k = some v :=
  (AList.mem_lookup_iff (s := m)).symm

theorem mem_toList_iff : (k, v) ∈ toList m ↔ m.lookup k = some v := by
  rw [← mem_entries_iff, toList, List.mem_map]
  constructor
  · rintro ⟨⟨k', v'⟩, h, he⟩
    obtain ⟨rfl, rfl⟩ := Prod.mk.inj he
    exact h
  · exact fun h => ⟨_, h, rfl⟩

theorem lookup_retain (p : K → V → Bool) (m : Entries K V) (k : K) :
    (retain p m).lookup k = (m.lookup k).filter (p k) := by
  ext v
  rw [← mem_entries_iff, Option.filter_eq_some_iff, ← mem_entries_iff]
  exact List.mem_filter

theorem lookup_retain_eq_some (p : K → V → Bool) :
    (retain p m).lookup k = some v ↔ m.lookup k = some v ∧ p k v = true := by
  rw [lookup_retain, Option.filter_eq_some_iff]

theorem lookup_modify (k : K) (f : V → V) (m : Entries K V) (j : K) :
    (modify k f m).lookup j = if j = k then (m.lookup k).map f else m.lookup j := by
  ext v
  rw [← mem_entries_iff]
  simp only [modify, List.mem_map]
  by_cases hj : j = k
  · subst hj
    rw [if_pos rfl, Option.map_eq_some_iff]
    constructor
    · rintro ⟨⟨k', v'⟩, hin, he⟩
      split at he
      · rename_i hk
        obtain ⟨rfl, hv⟩ := Sigma.mk.inj_iff.mp he
        exact ⟨v', mem_entries_iff.mp hin, eq_of_heq hv⟩
      · rename_i hk
        exact absurd (congrArg Sigma.fst he) hk
    · rintro ⟨v', hl, rfl⟩
      exact ⟨⟨j, v'⟩, mem_entries_iff.mpr hl, by simp⟩
  · rw [if_neg hj, ← mem_entries_iff]
    constructor
    · rintro ⟨⟨k', v'⟩, hin, he⟩
      split at he
      · rename_i hk
        exact absurd ((congrArg Sigma.fst he).symm.trans hk) hj
      · rw [← he]
        exact hin
    · exact fun hin => ⟨⟨j, v⟩, hin, by simp [hj]⟩

@[simp] theorem lookup_modify_self (k : K) (f : V → V) (m : Entries K V) :
    (modify k f m).lookup k = (m.lookup k).map f := by
  rw [lookup_modify, if_pos rfl]

theorem lookup_modify_ne {j k : K} (h : j ≠ k) (f : V → V) (m : Entries K V) :
    (modify k f m).lookup j = m.lookup j := by
  rw [lookup_modify, if_neg h]

theorem lookup_mapValues (f : V → V) (m : Entries K V) (k : K) :
    (mapValues f m).lookup k = (m.lookup k).map f := by
  ext v
  rw [← mem_entries_iff, Option.map_eq_some_iff]
  unfold mapValues
  rw [List.mem_map]
  constructor
  · rintro ⟨⟨k', v'⟩, hin, he⟩
    obtain ⟨rfl, hv⟩ := Sigma.mk.inj_iff.mp he
    exact ⟨v', mem_entries_iff.mp hin, eq_of_heq hv⟩
  · rintro ⟨v', hl, rfl⟩
    exact ⟨⟨k, v'⟩, mem_entries_iff.mpr hl, rfl⟩

end Lookup

section Total
variable (f : V → Nat) (m : Entries K V)

omit [DecidableEq K] in
@[simp] theorem total_empty : total f (∅ : Entries K V) = 0 := rfl

omit [DecidableEq K] in
@[simp] theorem size_empty : size (∅ : Entries K V) = 0 := rfl

omit [DecidableEq K] in
theorem size_eq_total : size m = total (fun _ => 1) m := by
  simp [size, total]

theorem total_insert {k : K} (h : m.lookup k = none) (v : V) :
    total f (m.insert k v) = f v + total f m := by
  rw [total, AList.entries_insert_of_notMem (AList.lookup_eq_none.mp h)]
  rfl

omit [DecidableEq K] in
theorem total_retain_le (p : K → V → Bool) : total f (retain p m) ≤ total f m :=
  (List.filter_sublist.map fun e : Sigma fun _ : K => V => f e.2).sum_le_sum fun _ _ => Nat.zero_le _

theorem total_erase_le (k : K) : total f (m.erase k) ≤ total f m :=
  ((List.kerase_sublist k m.entries).map fun e : Sigma fun _ : K => V => f e.2).sum_le_sum
    fun _ _ => Nat.zero_le _

theorem total_modify {g : V → V} (hg : ∀ v, f (g v) = f v) (k : K) :
    total f (modify k g m) = total f m := by
  unfold total modify
  rw [List.map_map]
  congr 1
  refine List.map_congr_left fun e _ => ?_
  simp only [Function.comp]
  split
  · exact hg e.2
  · rfl

theorem total_congr {m m' : Entries K V} (h : ∀ k, m.lookup k = m'.lookup k) :
    total f m = total f m' := by
  have hperm : m.entries.Perm m'.entries := by
    refine List.lookup_ext m.nodupKeys m'.nodupKeys fun k v => ?_
    have hk : m.entries.dlookup k = m'.entries.dlookup k := h k
    rw [hk]
  exact (hperm.map _).sum_eq

theorem total_erase {m : Entries K V} {k : K} {v : V} (h : m.lookup k = some v) :
    total f m = f v + total f (m.erase k) := by
  have hnone : (m.erase k).lookup k = none := AList.lookup_erase k m
  rw [← total_insert f (m.erase k) hnone v]
  refine total_congr f fun j => ?_
  rcases eq_or_ne j k with hj | hj
  · rw [hj, h, AList.lookup_insert]
  · rw [AList.lookup_insert_ne hj, AList.lookup_erase_ne hj]

/-- Inserting a value takes the place of the old one. -/
theorem total_insert_erase (k : K) (v : V) :
    total f (m.insert k v) = f v + total f (m.erase k) := by
  rw [← total_insert f (m.erase k) (AList.lookup_erase k m) v]
  refine total_congr f fun j => ?_
  rcases eq_or_ne j k with hj | hj
  · rw [hj, AList.lookup_insert, AList.lookup_insert]
  · rw [AList.lookup_insert_ne hj, AList.lookup_insert_ne hj, AList.lookup_erase_ne hj]

/-- What an update in place does to the sum. -/
theorem total_modify_at {m : Entries K V} {k : K} {v : V} (h : m.lookup k = some v) (g : V → V) :
    total f (modify k g m) + f v = total f m + f (g v) := by
  have hg : (modify k g m).lookup k = some (g v) := by rw [lookup_modify_self, h, Option.map_some]
  have hrest : total f ((modify k g m).erase k) = total f (m.erase k) := by
    refine total_congr f fun j => ?_
    rcases eq_or_ne j k with hj | hj
    · rw [hj, AList.lookup_erase, AList.lookup_erase]
    · rw [AList.lookup_erase_ne hj, AList.lookup_erase_ne hj, lookup_modify_ne hj]
  rw [total_erase f hg, total_erase f h, hrest]
  omega

/-- A table whose entries are all in another one, and no heavier there, weighs no more. -/
theorem total_le {f g : V → Nat} {m m' : Entries K V}
    (h : ∀ k v', m'.lookup k = some v' → ∃ v, m.lookup k = some v ∧ f v' ≤ g v) :
    total f m' ≤ total g m := by
  induction m' using AList.insertRec generalizing m with
  | H0 => exact Nat.zero_le _
  | IH k v' rest hk ih =>
    have hnone : rest.lookup k = none := AList.lookup_eq_none.mpr hk
    obtain ⟨v, hv, hle⟩ := h k v' (AList.lookup_insert _)
    have hrest : total f rest ≤ total g (m.erase k) := by
      refine ih fun j w hj => ?_
      have hne : j ≠ k := by
        intro he
        rw [he, hnone] at hj
        exact absurd hj (by simp)
      obtain ⟨u, hu, hw⟩ := h j w (by rw [AList.lookup_insert_ne hne, hj])
      exact ⟨u, by rw [AList.lookup_erase_ne hne, hu], hw⟩
    rw [total_insert f rest hnone, total_erase g hv]
    exact Nat.add_le_add hle hrest

theorem total_eq_zero {m : Entries K V} (h : ∀ k v, m.lookup k = some v → f v = 0) :
    total f m = 0 := by
  have hle : total f m ≤ total (fun _ => 0) m := total_le fun k v hv => ⟨v, hv, (h k v hv).le⟩
  have hzero : total (fun _ : V => 0) m = 0 := by
    simp [total]
  omega

omit [DecidableEq K] in
/-- Counting is summing ones. -/
theorem count_eq_total (p : V → Bool) (m : Entries K V) :
    count p m = total (fun v => if p v then 1 else 0) m := by
  unfold count total
  induction m.entries with
  | nil => rfl
  | cons e rest ih =>
    rw [List.map_cons, List.sum_cons, ← ih, List.filter_cons]
    simp only
    split
    · rw [List.length_cons, Nat.add_comm]
    · rw [Nat.zero_add]

theorem count_insert {p : V → Bool} {m : Entries K V} {k : K} (h : m.lookup k = none) (v : V) :
    count p (m.insert k v) = (if p v then 1 else 0) + count p m := by
  rw [count_eq_total, count_eq_total, total_insert _ m h]

theorem count_erase {p : V → Bool} {m : Entries K V} {k : K} {v : V} (h : m.lookup k = some v) :
    count p m = (if p v then 1 else 0) + count p (m.erase k) := by
  rw [count_eq_total, count_eq_total, total_erase _ h]

theorem count_insert_erase (p : V → Bool) (m : Entries K V) (k : K) (v : V) :
    count p (m.insert k v) = (if p v then 1 else 0) + count p (m.erase k) := by
  rw [count_eq_total, count_eq_total, total_insert_erase]

theorem size_erase_lt {m : Entries K V} {k : K} {v : V} (h : m.lookup k = some v) :
    size (m.erase k) < size m := by
  rw [size_eq_total, size_eq_total, total_erase _ h]
  omega

/-- Fewer values count when every one that counts came from one that counted. -/
theorem count_le {p q : V → Bool} {m m' : Entries K V}
    (h : ∀ k v', m'.lookup k = some v' → ∃ v, m.lookup k = some v ∧ (p v' = true → q v = true)) :
    count p m' ≤ count q m := by
  rw [count_eq_total, count_eq_total]
  refine total_le fun k v' hl' => ?_
  obtain ⟨v, hl, hpq⟩ := h k v' hl'
  refine ⟨v, hl, ?_⟩
  cases hp : p v' with
  | true => simp [hpq hp]
  | false => simp

end Total

end Table
