import Mathlib

/-!
# Placing items on a board

A loop that writes the value of each item at its position leaves, where the positions are
distinct, the value of the item at each of them. A loop that spends one credit of its key for an
item, while there is one, passes on the items beyond the credits of each key.
-/

namespace Placing

set_option autoImplicit false

universe u v w
variable {α : Type u} {π : Type v} {β : Type w}

section Writes
variable [DecidableEq π] (pos : α → π) (value : α → β)

/-- The board after the items in order. -/
def place (board : π → β) (items : List α) : π → β :=
  items.foldl (fun b x => Function.update b (pos x) (value x)) board

variable {pos value} {board : π → β} {items : List α}

theorem place_of_notMem {p : π} (h : ∀ x ∈ items, pos x ≠ p) : place pos value board items p = board p := by
  induction items generalizing board with
  | nil => rfl
  | cons x items ih =>
    have hne : p ≠ pos x := fun he => h x List.mem_cons_self he.symm
    have htail : ∀ y ∈ items, pos y ≠ p := fun y hy => h y (List.mem_cons_of_mem _ hy)
    calc place pos value board (x :: items) p
        = place pos value (Function.update board (pos x) (value x)) items p := rfl
      _ = Function.update board (pos x) (value x) p := ih htail
      _ = board p := Function.update_of_ne hne _ _

theorem place_of_mem (hnodup : (items.map pos).Nodup) {x : α} (hx : x ∈ items) :
    place pos value board items (pos x) = value x := by
  induction items generalizing board with
  | nil => cases hx
  | cons y items ih =>
    obtain ⟨hy, hrest⟩ := List.nodup_cons.mp hnodup
    cases List.mem_cons.mp hx with
    | inl hxy =>
      subst hxy
      have hout : ∀ z ∈ items, pos z ≠ pos x := fun z hz he => hy (he ▸ List.mem_map_of_mem hz)
      calc place pos value board (x :: items) (pos x)
          = place pos value (Function.update board (pos x) (value x)) items (pos x) := rfl
        _ = Function.update board (pos x) (value x) (pos x) := place_of_notMem hout
        _ = value x := Function.update_self _ _ _
    | inr hx => exact ih hrest hx

theorem place_congr {board' : π → β} {p : π} (h : board p = board' p) :
    place pos value board items p = place pos value board' items p := by
  induction items generalizing board board' with
  | nil => exact h
  | cons x items ih =>
    apply ih
    show Function.update board (pos x) (value x) p = Function.update board' (pos x) (value x) p
    by_cases hp : p = pos x
    · subst hp
      rw [Function.update_self, Function.update_self]
    · rw [Function.update_of_ne hp, Function.update_of_ne hp, h]

/-- What stands at a position was there or is the value of an item. -/
theorem place_cases (items : List α) (board : π → β) (p : π) :
    place pos value board items p = board p ∨ ∃ x ∈ items, place pos value board items p = value x := by
  induction items generalizing board with
  | nil => exact Or.inl rfl
  | cons x items ih =>
    cases ih (Function.update board (pos x) (value x)) with
    | inl h =>
      by_cases hp : p = pos x
      · subst hp
        rw [Function.update_self] at h
        exact Or.inr ⟨x, List.mem_cons_self, h⟩
      · rw [Function.update_of_ne hp] at h
        exact Or.inl h
    | inr h =>
      obtain ⟨y, hy, heq⟩ := h
      exact Or.inr ⟨y, List.mem_cons_of_mem x hy, heq⟩

theorem place_append (more : List α) : place pos value board (items ++ more) =
    place pos value (place pos value board items) more := List.foldl_append

/-! #### Entries of a dictionary -/

/-- `d[k] = v` on the entries of a dictionary in the order of insertion. -/
def putLast (e : π × β) : List (π × β) → List (π × β)
  | [] => [e]
  | d :: rest => if d.1 = e.1 then e :: rest else d :: putLast e rest

/-- The entries after a loop of `d[k] = v`. -/
def lastWrites (entries : List (π × β)) : List (π × β) :=
  entries.foldl (fun seen e => putLast e seen) []

theorem mem_putLast {e d : π × β} {entries : List (π × β)} (h : d ∈ putLast e entries) :
    d = e ∨ d ∈ entries := by
  induction entries with
  | nil => exact Or.inl (List.mem_singleton.mp h)
  | cons x rest ih =>
    rw [putLast] at h
    split at h
    · cases List.mem_cons.mp h with
      | inl he => exact Or.inl he
      | inr hr => exact Or.inr (List.mem_cons_of_mem x hr)
    · cases List.mem_cons.mp h with
      | inl he => exact Or.inr (he ▸ List.mem_cons_self)
      | inr hr =>
        cases ih hr with
        | inl he => exact Or.inl he
        | inr hm => exact Or.inr (List.mem_cons_of_mem x hm)

/-- Putting an entry last writes its position last. -/
theorem place_putLast (e : π × β) {entries : List (π × β)} (hnodup : (entries.map Prod.fst).Nodup)
    (board : π → β) : (((putLast e entries).map Prod.fst).Nodup ∧
      ∀ p, p ∈ (putLast e entries).map Prod.fst ↔ p = e.1 ∨ p ∈ entries.map Prod.fst) ∧
    place Prod.fst Prod.snd board (putLast e entries) =
      Function.update (place Prod.fst Prod.snd board entries) e.1 e.2 := by
  induction entries generalizing board with
  | nil => exact ⟨⟨List.nodup_singleton _, fun p => by simp [putLast]⟩, rfl⟩
  | cons d rest ih =>
    obtain ⟨hd, hrest⟩ := List.nodup_cons.mp hnodup
    have hout : ∀ x ∈ rest, x.1 ≠ d.1 := fun x hx he => hd (he ▸ List.mem_map_of_mem hx)
    rw [putLast]
    split
    · rename_i hkey
      refine ⟨⟨?_, fun p => ?_⟩, ?_⟩
      · rw [List.map_cons, ← hkey]
        exact hnodup
      · simp [← hkey]
      · funext p
        show place Prod.fst Prod.snd (Function.update board e.1 e.2) rest p = _
        by_cases hp : p = e.1
        · subst hp
          rw [Function.update_self, place_of_notMem fun x hx => hkey ▸ hout x hx, Function.update_self]
        · rw [Function.update_of_ne hp]
          refine place_congr ?_
          show Function.update board e.1 e.2 p = Function.update board d.1 d.2 p
          rw [Function.update_of_ne hp, Function.update_of_ne (hkey ▸ hp)]
    · rename_i hkey
      obtain ⟨⟨hnodup', hmem⟩, hplace⟩ := ih hrest (Function.update board d.1 d.2)
      refine ⟨⟨?_, fun p => ?_⟩, hplace⟩
      · rw [List.map_cons, List.nodup_cons, hmem, not_or]
        exact ⟨⟨hkey, hd⟩, hnodup'⟩
      · rw [List.map_cons, List.mem_cons, hmem, List.map_cons, List.mem_cons]
        tauto

/-- The entries that remain write the same board. -/
theorem place_lastWrites (entries : List (π × β)) (board : π → β) :
    place Prod.fst Prod.snd board (lastWrites entries) = place Prod.fst Prod.snd board entries ∧
      ((lastWrites entries).map Prod.fst).Nodup := by
  have hrun : ∀ rest seen : List (π × β), (seen.map Prod.fst).Nodup →
      place Prod.fst Prod.snd board (rest.foldl (fun seen e => putLast e seen) seen) =
          place Prod.fst Prod.snd (place Prod.fst Prod.snd board seen) rest ∧
        ((rest.foldl (fun seen e => putLast e seen) seen).map Prod.fst).Nodup := by
    intro rest
    induction rest with
    | nil => exact fun seen h => ⟨rfl, h⟩
    | cons e rest ih =>
      intro seen hseen
      obtain ⟨⟨hnodup, _⟩, hplace⟩ := place_putLast e hseen board
      obtain ⟨hnext, hkeys⟩ := ih (putLast e seen) hnodup
      refine ⟨hnext.trans ?_, hkeys⟩
      rw [hplace]
      rfl
  exact hrun entries [] List.nodup_nil

theorem mem_lastWrites {e : π × β} {entries : List (π × β)} (h : e ∈ lastWrites entries) :
    e ∈ entries := by
  have hrun : ∀ rest seen : List (π × β), e ∈ rest.foldl (fun seen e => putLast e seen) seen →
      e ∈ seen ∨ e ∈ rest := by
    intro rest
    induction rest with
    | nil => exact fun seen h => Or.inl h
    | cons d rest ih =>
      intro seen h
      cases ih (putLast d seen) h with
      | inl hs =>
        cases mem_putLast hs with
        | inl he => exact Or.inr (he ▸ List.mem_cons_self)
        | inr hm => exact Or.inl hm
      | inr hr => exact Or.inr (List.mem_cons_of_mem d hr)
  cases hrun entries [] h with
  | inl hs => cases hs
  | inr hr => exact hr

theorem key_mem_putLast {e : π × β} {entries : List (π × β)} {k : π}
    (h : k = e.1 ∨ k ∈ entries.map Prod.fst) : k ∈ (putLast e entries).map Prod.fst := by
  induction entries with
  | nil =>
    rcases h with heq | hin
    · rw [heq]
      exact List.mem_singleton_self _
    · exact absurd hin List.not_mem_nil
  | cons d rest ih =>
    rw [List.map_cons, List.mem_cons] at h
    rw [putLast]
    split
    · rename_i hkey
      rw [List.map_cons, List.mem_cons]
      rcases h with heq | heq | hin
      · exact Or.inl heq
      · exact Or.inl (heq.trans hkey)
      · exact Or.inr hin
    · rw [List.map_cons, List.mem_cons]
      rcases h with heq | heq | hin
      · exact Or.inr (ih (Or.inl heq))
      · exact Or.inl heq
      · exact Or.inr (ih (Or.inr hin))

/-- Every key that was written remains. -/
theorem key_mem_lastWrites {entries : List (π × β)} {k : π} (h : k ∈ entries.map Prod.fst) :
    k ∈ (lastWrites entries).map Prod.fst := by
  have hrun : ∀ rest seen : List (π × β), k ∈ seen.map Prod.fst ∨ k ∈ rest.map Prod.fst →
      k ∈ (rest.foldl (fun seen e => putLast e seen) seen).map Prod.fst := by
    intro rest
    induction rest with
    | nil => exact fun seen h => h.resolve_right List.not_mem_nil
    | cons d rest ih =>
      intro seen h
      apply ih
      rw [List.map_cons, List.mem_cons] at h
      rcases h with hin | heq | hin
      · exact Or.inl (key_mem_putLast (Or.inr hin))
      · exact Or.inl (key_mem_putLast (Or.inl heq))
      · exact Or.inr hin
  exact hrun entries [] (Or.inr h)

end Writes

section Credits
variable {κ : Type v} [DecidableEq κ] (key : α → κ)

/-- The items that find no credit of their key left. -/
def beyond : (κ → Nat) → List α → List α
  | _, [] => []
  | credit, x :: items =>
    if 0 < credit (key x) then
      beyond (Function.update credit (key x) (credit (key x) - 1)) items
    else x :: beyond credit items

variable {key} {credit : κ → Nat}

theorem beyond_sublist (items : List α) : List.Sublist (beyond key credit items) items := by
  induction items generalizing credit with
  | nil => exact List.Sublist.slnil
  | cons x items ih =>
    rw [beyond]
    split
    · exact ih.cons x
    · exact ih.cons_cons x

/-- Of each key as many items stay as exceed its credits. -/
theorem count_beyond (items : List α) (k : κ) :
    ((beyond key credit items).filter fun x => decide (key x = k)).length =
      (items.filter fun x => decide (key x = k)).length - credit k := by
  induction items generalizing credit with
  | nil => simp [beyond]
  | cons x items ih =>
    rw [beyond]
    by_cases hpos : 0 < credit (key x)
    · rw [if_pos hpos, ih]
      by_cases hk : key x = k
      · subst hk
        simp only [Function.update_self, List.filter_cons, decide_true, if_true, List.length_cons]
        omega
      · have hne : k ≠ key x := fun h => hk h.symm
        rw [Function.update_of_ne hne, List.filter_cons_of_neg (by simpa using hk)]
    · rw [if_neg hpos]
      by_cases hk : key x = k
      · subst hk
        simp only [List.filter_cons, decide_true, if_true, List.length_cons, ih]
        omega
      · rw [List.filter_cons_of_neg (by simpa using hk), List.filter_cons_of_neg (by simpa using hk), ih]

end Credits

section Tags
variable {τ : Type v} {κ : Type w}

/-- Lists whose entries carry the tag of their list are distinct when the tags are. -/
theorem nodup_flatMap_of_tag {l : List α} {f : α → List β} (g : β → κ) (tag : α → τ) (tagOf : κ → τ)
    (htags : (l.map tag).Nodup) (hlists : ∀ a ∈ l, ((f a).map g).Nodup)
    (htag : ∀ a ∈ l, ∀ b ∈ f a, tagOf (g b) = tag a) : ((l.flatMap f).map g).Nodup := by
  induction l with
  | nil => exact List.nodup_nil
  | cons a l ih =>
    obtain ⟨ha, hl⟩ := List.nodup_cons.mp htags
    rw [List.flatMap_cons, List.map_append]
    apply List.Nodup.append
    · exact hlists a List.mem_cons_self
    · apply ih hl
      · intro a' ha'
        exact hlists a' (List.mem_cons_of_mem _ ha')
      · intro a' ha' b hb
        exact htag a' (List.mem_cons_of_mem _ ha') b hb
    · intro k hk hk'
      obtain ⟨b, hb, rfl⟩ := List.mem_map.mp hk
      obtain ⟨b', hb', heq⟩ := List.mem_map.mp hk'
      obtain ⟨a', ha', hb'⟩ := List.mem_flatMap.mp hb'
      apply ha
      rw [← htag a List.mem_cons_self b hb, ← heq, htag a' (List.mem_cons_of_mem _ ha') b' hb']
      exact List.mem_map_of_mem ha'

/-- Items with distinct positions of one row have distinct columns. -/
theorem nodup_map_of_filter {l : List α} {pos : α → τ × κ} {col : α → κ} {p : α → Bool} {r : τ}
    (hnodup : (l.map pos).Nodup) (hrow : ∀ a, p a = true → pos a = (r, col a)) :
    ((l.filter p).map col).Nodup := by
  have hsub := hnodup.sublist (List.filter_sublist (p := p).map pos)
  have hmap : (l.filter p).map pos = ((l.filter p).map col).map fun k => (r, k) := by
    rw [List.map_map]
    apply List.map_congr_left
    intro a ha
    exact hrow a (List.mem_filter.mp ha).2
  rw [hmap] at hsub
  exact hsub.of_map _

end Tags

end Placing
