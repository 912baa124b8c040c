import TkbCherry.Lib.Table

/-!
# Rows under conditions

Statements that update every row of a table that meets a condition, and the change of a row's key
that is left out where the new key is taken.
-/

namespace Table

set_option autoImplicit false

universe u v
variable {K : Type u} {V : Type v}

/-- `UPDATE … SET … WHERE …` on columns outside the key. -/
def updateWhere (p : K → V → Bool) (f : V → V) (m : Entries K V) : Entries K V where
  entries := m.entries.map fun e => ⟨e.1, if p e.1 e.2 then f e.2 else e.2⟩
  nodupKeys := by
    have hkeys : (m.entries.map fun e =>
        (⟨e.1, if p e.1 e.2 then f e.2 else e.2⟩ : Sigma fun _ : K => V)).keys = m.entries.keys := by
      unfold List.keys
      rw [List.map_map]
      rfl
    unfold List.NodupKeys
    rw [hkeys]
    exact m.nodupKeys

variable [DecidableEq K]

theorem lookup_updateWhere (p : K → V → Bool) (f : V → V) (m : Entries K V) (k : K) :
    (updateWhere p f m).lookup k = (m.lookup k).map fun v => if p k v then f v else v := by
  ext v
  rw [← mem_entries_iff, Option.map_eq_some_iff]
  unfold updateWhere
  rw [List.mem_map]
  constructor
  · rintro ⟨⟨k', v'⟩, hin, he⟩
    obtain ⟨rfl, hv⟩ := Sigma.mk.inj_iff.mp he
    exact ⟨v', mem_entries_iff.mp hin, eq_of_heq hv⟩
  · rintro ⟨v', hl, rfl⟩
    exact ⟨⟨k, v'⟩, mem_entries_iff.mpr hl, rfl⟩

/-- `UPDATE OR IGNORE` of the key of one row. -/
def move (k k' : K) (m : Entries K V) : Entries K V :=
  match m.lookup k with
  | none => m
  | some v => if k' = k ∨ (m.lookup k').isSome then m else (m.erase k).insert k' v

/-- The other rows stay. -/
theorem lookup_move_of_isSome {k j : K} {m : Entries K V} (hj : j ≠ k) (h : (m.lookup j).isSome)
    (k' : K) : (move k k' m).lookup j = m.lookup j := by
  unfold move
  split
  · rfl
  · rename_i v hk
    split
    · rfl
    · rename_i hfree
      rw [not_or] at hfree
      have hne : j ≠ k' := by
        intro he
        rw [he] at h
        exact hfree.2 h
      rw [AList.lookup_insert_ne hne, AList.lookup_erase_ne hj]

/-- A row of the table after the move was there before, under its key or the old one. -/
theorem lookup_move_cases {k k' j : K} {v : V} {m : Entries K V}
    (h : (move k k' m).lookup j = some v) :
    m.lookup j = some v ∨ (j = k' ∧ m.lookup k = some v) := by
  unfold move at h
  split at h
  · exact Or.inl h
  · rename_i w hk
    split at h
    · exact Or.inl h
    · rcases eq_or_ne j k' with hj | hj
      · rw [hj, AList.lookup_insert] at h
        cases h
        exact Or.inr ⟨hj, hk⟩
      · rw [AList.lookup_insert_ne hj] at h
        rcases eq_or_ne j k with hjk | hjk
        · rw [hjk, AList.lookup_erase] at h
          cases h
        · rw [AList.lookup_erase_ne hjk] at h
          exact Or.inl h

/-- The row itself stays, or it is found under the new key. -/
theorem lookup_move_at {k : K} {v : V} {m : Entries K V} (h : m.lookup k = some v) (k' : K) :
    (move k k' m).lookup k = some v ∨ (move k k' m).lookup k' = some v := by
  unfold move
  rw [h]
  dsimp only
  split
  · exact Or.inl h
  · exact Or.inr (AList.lookup_insert _)

theorem size_move (k k' : K) (m : Entries K V) : size (move k k' m) = size m := by
  unfold move
  split
  · rfl
  · rename_i v hk
    split
    · rfl
    · rename_i hfree
      rw [not_or] at hfree
      have hnone : (m.erase k).lookup k' = none := by
        rw [AList.lookup_erase_ne hfree.1]
        exact Option.not_isSome_iff_eq_none.mp hfree.2
      rw [size_eq_total, size_eq_total, total_insert _ _ hnone, total_erase _ hk]

/-! ### Counting -/

omit [DecidableEq K] in
theorem size_updateWhere (p : K → V → Bool) (f : V → V) (m : Entries K V) :
    size (updateWhere p f m) = size m := List.length_map _

omit [DecidableEq K] in
/-- A condition is counted among the rows that stay and among those that go. -/
theorem count_retain_add (p q : V → Bool) (m : Entries K V) :
    count p (retain (fun _ v => q v) m) + count (fun v => p v && !q v) m = count p m := by
  have hsplit : ∀ es : List (Sigma fun _ : K => V),
      ((es.filter fun e => q e.2).filter fun e => p e.2).length +
        (es.filter fun e => p e.2 && !q e.2).length = (es.filter fun e => p e.2).length := by
    intro es
    induction es with
    | nil => rfl
    | cons e rest ih =>
      cases hq : q e.2 with
      | true =>
        cases hp : p e.2 with
        | true =>
          simp only [List.filter_cons, hp, hq, if_true, Bool.not_true, Bool.and_false,
            Bool.false_eq_true, if_false, List.length_cons]
          omega
        | false =>
          simp only [List.filter_cons, hp, hq, if_true, Bool.false_and, Bool.false_eq_true, if_false]
          exact ih
      | false =>
        cases hp : p e.2 with
        | true =>
          simp only [List.filter_cons, hp, hq, if_true, Bool.not_false, Bool.and_true,
            Bool.false_eq_true, if_false, List.length_cons]
          omega
        | false =>
          simp only [List.filter_cons, hp, hq, Bool.false_and, Bool.false_eq_true, if_false]
          exact ih
  exact hsplit m.entries

/-- An update that the condition does not see. -/
theorem count_modify {p : V → Bool} {g : V → V} (hg : ∀ v, p (g v) = p v) (k : K) (m : Entries K V) :
    count p (modify k g m) = count p m := by
  rw [count_eq_total, count_eq_total]
  apply total_modify
  intro v
  rw [hg]

/-- What an update in place does to the count. -/
theorem count_modify_at {p : V → Bool} {m : Entries K V} {k : K} {v : V} (h : m.lookup k = some v)
    (g : V → V) : count p (modify k g m) + (if p v then 1 else 0) =
      count p m + if p (g v) then 1 else 0 := by
  rw [count_eq_total, count_eq_total]
  exact total_modify_at _ h g

end Table
