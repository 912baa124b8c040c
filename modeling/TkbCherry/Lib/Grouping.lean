import Mathlib

/-!
# Entries collected under keys

`grouped` is the map that a loop of `entry(key).or_default().push(value)` builds: every key that
occurs, with its values in the order of the entries.
-/

namespace Grouping

set_option autoImplicit false

variable {κ α β : Type} [DecidableEq κ]

/-- The values of a key. -/
def valuesAt (k : κ) (entries : List (κ × α)) : List α :=
  entries.filterMap fun e => if e.1 = k then some e.2 else none

def grouped (entries : List (κ × α)) : List (κ × List α) :=
  (entries.map Prod.fst).dedup.map fun k => (k, valuesAt k entries)

theorem mem_valuesAt {k : κ} {entries : List (κ × α)} {v : α} :
    v ∈ valuesAt k entries ↔ (k, v) ∈ entries := by
  rw [valuesAt, List.mem_filterMap]
  constructor
  · intro h
    obtain ⟨⟨k', v'⟩, he, hv⟩ := h
    by_cases hk : k' = k
    · rw [if_pos hk] at hv
      cases hv
      exact hk ▸ he
    · rw [if_neg hk] at hv
      cases hv
  · intro h
    exact ⟨(k, v), h, if_pos rfl⟩

theorem valuesAt_eq_nil_iff {k : κ} {entries : List (κ × α)} :
    valuesAt k entries = [] ↔ k ∉ entries.map Prod.fst := by
  rw [List.eq_nil_iff_forall_not_mem]
  constructor
  · intro h hk
    obtain ⟨⟨k', v⟩, he, rfl⟩ := List.mem_map.mp hk
    exact h v (mem_valuesAt.mpr he)
  · intro h v hv
    exact h (List.mem_map_of_mem (f := Prod.fst) (mem_valuesAt.mp hv))

theorem mem_grouped {k : κ} {vs : List α} {entries : List (κ × α)} :
    (k, vs) ∈ grouped entries ↔ k ∈ entries.map Prod.fst ∧ vs = valuesAt k entries := by
  rw [grouped, List.mem_map]
  constructor
  · intro h
    obtain ⟨k', hk', heq⟩ := h
    cases heq
    exact ⟨List.mem_dedup.mp hk', rfl⟩
  · intro h
    exact ⟨k, List.mem_dedup.mpr h.1, by rw [h.2]⟩

theorem nodup_grouped_keys (entries : List (κ × α)) : ((grouped entries).map Prod.fst).Nodup := by
  rw [grouped, List.map_map]
  simpa [Function.comp_def] using List.nodup_dedup (entries.map Prod.fst)

/-- A check of every group that an empty group passes is a check at every key. -/
theorem grouped_all_iff {p : κ × List α → Bool} {entries : List (κ × α)}
    (hnil : ∀ k, p (k, []) = true) :
    (grouped entries).all p = true ↔ ∀ k, p (k, valuesAt k entries) = true := by
  rw [List.all_eq_true]
  constructor
  · intro h k
    by_cases hk : k ∈ entries.map Prod.fst
    · exact h _ (mem_grouped.mpr ⟨hk, rfl⟩)
    · rw [valuesAt_eq_nil_iff.mpr hk]
      exact hnil k
  · intro h e he
    obtain ⟨k, vs⟩ := e
    rw [(mem_grouped.mp he).2]
    exact h k

/-- The values of a key in the entries that a list gives. -/
theorem valuesAt_filterMap (k : κ) (f : β → Option (κ × α)) (l : List β) :
    valuesAt k (l.filterMap f) = l.filterMap fun b => (f b).bind fun e =>
      if e.1 = k then some e.2 else none := by
  rw [valuesAt, List.filterMap_filterMap]

/-- Where every item has distinct keys, a key collects the items that have it. -/
theorem valuesAt_flatMap (k : κ) (keys : β → List κ) (value : β → α) (l : List β)
    (hnodup : ∀ b ∈ l, (keys b).Nodup) :
    valuesAt k (l.flatMap fun b => (keys b).map fun key => (key, value b)) =
      (l.filter fun b => decide (k ∈ keys b)).map value := by
  have hone : ∀ (ks : List κ) (v : α), ks.Nodup →
      valuesAt k (ks.map fun key => (key, v)) = if k ∈ ks then [v] else [] := by
    intro ks v hks
    induction ks with
    | nil => rfl
    | cons key ks ih =>
      obtain ⟨hkey, hks⟩ := List.nodup_cons.mp hks
      rw [List.map_cons, valuesAt, List.filterMap_cons]
      by_cases heq : key = k
      · subst heq
        have hrest := ih hks
        rw [valuesAt, if_neg hkey] at hrest
        simp [hrest]
      · have hrest := ih hks
        rw [valuesAt] at hrest
        have hne : ¬ k = key := fun h => heq h.symm
        simp [heq, hne, hrest]
  induction l with
  | nil => rfl
  | cons b l ih =>
    have hb := hone (keys b) (value b) (hnodup b List.mem_cons_self)
    have hl := ih fun b' hb' => hnodup b' (List.mem_cons_of_mem _ hb')
    rw [List.flatMap_cons, valuesAt, List.filterMap_append]
    rw [valuesAt] at hb hl
    rw [hb, hl]
    by_cases hk : k ∈ keys b
    · simp [hk]
    · simp [hk]

/-- Every entry is in one group. -/
theorem sum_length_grouped (entries : List (κ × α)) :
    ((grouped entries).map fun e => e.2.length).sum = entries.length := by
  have hcount : ∀ k, (valuesAt k entries).length = (entries.map Prod.fst).count k := by
    intro k
    induction entries with
    | nil => rfl
    | cons e entries ih =>
      rw [valuesAt, List.filterMap_cons, List.map_cons, List.count_cons]
      by_cases hk : e.1 = k
      · rw [if_pos hk, if_pos (beq_iff_eq.mpr hk), List.length_cons]
        exact congrArg (· + 1) ih
      · rw [if_neg hk, if_neg (fun h => hk (beq_iff_eq.mp h))]
        exact ih
  have hsum := List.sum_map_count_dedup_eq_length (entries.map Prod.fst)
  have hlength : (entries.map Prod.fst).length = entries.length := List.length_map Prod.fst
  rw [grouped, List.map_map, ← hlength, ← hsum]
  exact congrArg List.sum (List.map_congr_left fun k _ => hcount k)

end Grouping
