import Mathlib

/-!
# Lists read by index

What an update at one index does to a `filterMap` and to a relation between all pairs, and the
entries kept at chosen indices.
-/

namespace Indexed

set_option autoImplicit false

universe u v
variable {α : Type u} {β : Type v}

theorem pairwise_iff_getElem? {R : α → α → Prop} (hR : ∀ {a b}, R a b → R b a) {l : List α} :
    l.Pairwise R ↔ ∀ (i j : Nat) (a b : α), i ≠ j → l[i]? = some a → l[j]? = some b → R a b := by
  rw [List.pairwise_iff_getElem]
  constructor
  · intro h i j a b hne ha hb
    obtain ⟨hi, rfl⟩ := List.getElem?_eq_some_iff.mp ha
    obtain ⟨hj, rfl⟩ := List.getElem?_eq_some_iff.mp hb
    rcases Nat.lt_or_gt_of_ne hne with hlt | hgt
    · exact h i j hi hj hlt
    · exact hR (h j i hj hi hgt)
  · intro h i j hi hj hlt
    exact h i j _ _ (Nat.ne_of_lt hlt) (List.getElem?_eq_getElem hi) (List.getElem?_eq_getElem hj)

/-- An update in place, entry by entry. -/
theorem modify_eq_map_zipIdx (l : List α) (i : Nat) (f : α → α) :
    l.modify i f = l.zipIdx.map fun e => if e.2 = i then f e.1 else e.1 := by
  apply List.ext_getElem?
  intro j
  rw [List.getElem?_modify, List.getElem?_map, List.getElem?_zipIdx, Nat.zero_add]
  cases l[j]? with
  | none => rfl
  | some a =>
    by_cases hij : i = j
    · subst hij
      simp
    · have hji : ¬ j = i := fun h => hij h.symm
      simp [hij, hji]

theorem filterMap_modify (g : α → Option β) (l : List α) (i : Nat) (f : α → α) :
    (l.modify i f).filterMap g = l.zipIdx.filterMap fun e => g (if e.2 = i then f e.1 else e.1) := by
  rw [modify_eq_map_zipIdx, List.filterMap_map]
  rfl

/-- What reads the updated entry as before reads the list as before. -/
theorem filterMap_modify_eq {g : α → Option β} {l : List α} {i : Nat} {f : α → α}
    (h : ∀ a, l[i]? = some a → g (f a) = g a) : (l.modify i f).filterMap g = l.filterMap g := by
  induction l generalizing i with
  | nil =>
    cases i <;> rfl
  | cons a l ih =>
    cases i with
    | zero =>
      rw [List.modify_zero_cons, List.filterMap_cons, List.filterMap_cons, h a rfl]
    | succ i =>
      rw [List.modify_succ_cons, List.filterMap_cons, List.filterMap_cons, ih fun b hb => h b hb]

theorem forall_mem_modify {p : α → Prop} {l : List α} {i : Nat} {f : α → α} {a : α}
    (ha : l[i]? = some a) (h : ∀ b ∈ l, p b) : (∀ b ∈ l.modify i f, p b) ↔ p (f a) := by
  constructor
  · intro hall
    apply hall
    apply List.mem_of_getElem? (i := i)
    rw [List.getElem?_modify_eq, ha]
    rfl
  · intro hfa b hb
    obtain ⟨j, hj⟩ := List.mem_iff_getElem?.mp hb
    rw [List.getElem?_modify] at hj
    obtain ⟨c, hc, rfl⟩ := Option.map_eq_some_iff.mp hj
    by_cases hij : i = j
    · subst hij
      rw [ha] at hc
      cases hc
      rwa [if_pos rfl]
    · rw [if_neg hij]
      exact h c (List.mem_of_getElem? hc)

/-- After an update at `i`, only the pairs with `i` are new. -/
theorem pairwise_modify_iff {R : α → α → Prop} (hR : ∀ {a b}, R a b → R b a) {l : List α} {i : Nat}
    {f : α → α} {a : α} (ha : l[i]? = some a) (h : l.Pairwise R) :
    (l.modify i f).Pairwise R ↔ ∀ (j : Nat) (b : α), j ≠ i → l[j]? = some b → R (f a) b := by
  rw [pairwise_iff_getElem? hR] at h ⊢
  constructor
  · intro hall j b hne hb
    apply hall i j _ _ (Ne.symm hne)
    · rw [List.getElem?_modify_eq, ha]
      rfl
    · rw [List.getElem?_modify_ne f l (Ne.symm hne), hb]
  · intro hnew j k b c hne hb hc
    rw [List.getElem?_modify] at hb hc
    obtain ⟨b', hb', rfl⟩ := Option.map_eq_some_iff.mp hb
    obtain ⟨c', hc', rfl⟩ := Option.map_eq_some_iff.mp hc
    by_cases hij : i = j
    · subst hij
      rw [ha] at hb'
      cases hb'
      rw [if_pos rfl, if_neg hne]
      exact hnew k c' (Ne.symm hne) hc'
    · rw [if_neg hij]
      by_cases hik : i = k
      · subst hik
        rw [ha] at hc'
        cases hc'
        rw [if_pos rfl]
        exact hR (hnew j b' hne hb')
      · rw [if_neg hik]
        exact h j k b' c' hne hb' hc'

/-! ### Entries at chosen indices -/

/-- `[x for i, x in enumerate(l) if p(i)]`. -/
def keepAt (p : Nat → Bool) (l : List α) : List α :=
  (l.zipIdx.filter fun e => p e.2).map Prod.fst

theorem mem_keepAt {p : Nat → Bool} {l : List α} {a : α} :
    a ∈ keepAt p l ↔ ∃ i, l[i]? = some a ∧ p i = true := by
  simp only [keepAt, List.mem_map, List.mem_filter, Prod.exists, List.mem_zipIdx_iff_getElem?]
  constructor
  · intro h
    obtain ⟨b, i, hmem, rfl⟩ := h
    exact ⟨i, hmem.1, hmem.2⟩
  · intro h
    obtain ⟨i, hi, hp⟩ := h
    exact ⟨a, i, ⟨hi, hp⟩, rfl⟩

theorem keepAt_sublist (p : Nat → Bool) (l : List α) : List.Sublist (keepAt p l) l := by
  have h := (List.filter_sublist (p := fun e : α × Nat => p e.2) (l := l.zipIdx)).map Prod.fst
  rwa [List.zipIdx_map_fst] at h

theorem pairwise_keepAt {R : α → α → Prop} {p : Nat → Bool} {l : List α}
    (h : ∀ (i j : Nat) (a b : α), i < j → l[i]? = some a → l[j]? = some b → p i = true →
      p j = true → R a b) : (keepAt p l).Pairwise R := by
  rw [keepAt, List.pairwise_map, List.pairwise_filter, List.pairwise_iff_getElem]
  intro i j hi hj hlt hpi hpj
  rw [List.length_zipIdx] at hi hj
  simp only [List.getElem_zipIdx, Nat.zero_add] at hpi hpj ⊢
  exact h i j _ _ hlt (List.getElem?_eq_getElem hi) (List.getElem?_eq_getElem hj) hpi hpj

/-- The indices of the entries that pass a test, in order. -/
def indicesOf (p : α → Bool) (l : List α) : List Nat :=
  (l.zipIdx.filter fun e => p e.1).map Prod.snd

theorem mem_indicesOf {p : α → Bool} {l : List α} {i : Nat} :
    i ∈ indicesOf p l ↔ ∃ a, l[i]? = some a ∧ p a = true := by
  simp only [indicesOf, List.mem_map, List.mem_filter, Prod.exists, List.mem_zipIdx_iff_getElem?]
  constructor
  · intro h
    obtain ⟨a, j, hmem, rfl⟩ := h
    exact ⟨a, hmem.1, hmem.2⟩
  · intro h
    obtain ⟨a, ha, hp⟩ := h
    exact ⟨a, i, ⟨ha, hp⟩, rfl⟩

theorem pairwise_indicesOf (p : α → Bool) (l : List α) : (indicesOf p l).Pairwise (· < ·) := by
  rw [indicesOf, List.pairwise_map, List.pairwise_filter, List.pairwise_iff_getElem]
  intro i j hi hj hlt _ _
  simpa using hlt

/-- All but the first of an ascending list. -/
theorem mem_drop_one_iff {l : List Nat} (h : l.Pairwise (· < ·)) {i : Nat} :
    i ∈ l.drop 1 ↔ i ∈ l ∧ ∃ j ∈ l, j < i := by
  cases l with
  | nil => simp
  | cons a l =>
    obtain ⟨ha, _⟩ := List.pairwise_cons.mp h
    rw [List.drop_one, List.tail_cons]
    constructor
    · intro hi
      exact ⟨List.mem_cons_of_mem _ hi, a, List.mem_cons_self, ha i hi⟩
    · intro hi
      obtain ⟨hi, j, hj, hlt⟩ := hi
      apply (List.mem_cons.mp hi).resolve_left
      intro hia
      subst hia
      cases List.mem_cons.mp hj with
      | inl hj => omega
      | inr hj =>
        have hgt := ha j hj
        omega

end Indexed
