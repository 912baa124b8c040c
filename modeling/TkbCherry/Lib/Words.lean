import Mathlib

/-!
# Splitting a text at separators

`pieces` are the nonempty stretches between separators, `joined` puts one separator between
neighbours, and the two undo each other on clean pieces.
-/

namespace Words

set_option autoImplicit false

variable {α : Type} {p : α → Bool}

/-- The nonempty stretches between separators. -/
def pieces (p : α → Bool) (l : List α) : List (List α) :=
  (l.splitOnP p).filter fun w => !w.isEmpty

def joined (sep : α) : List (List α) → List α
  | [] => []
  | [w] => w
  | w :: v :: rest => w ++ sep :: joined sep (v :: rest)

/-- `str.strip`, for the separators. -/
def trimmed (p : α → Bool) (l : List α) : List α :=
  ((l.dropWhile p).reverse.dropWhile p).reverse

/-- A nonempty stretch without separators. -/
def Clean (p : α → Bool) (w : List α) : Prop := w ≠ [] ∧ ∀ c ∈ w, p c = false

/-- A piece of a split lies in the text and has no separator. -/
theorem mem_splitOnP {l w : List α} (h : w ∈ l.splitOnP p) : ∀ c ∈ w, c ∈ l ∧ p c = false := by
  induction l generalizing w with
  | nil =>
    rw [List.splitOnP_nil, List.mem_singleton] at h
    simp [h]
  | cons a l ih =>
    have htail : ∀ {v : List α}, v ∈ l.splitOnP p → ∀ c ∈ v, c ∈ a :: l ∧ p c = false :=
      fun hv c hc => ⟨List.mem_cons_of_mem _ (ih hv c hc).1, (ih hv c hc).2⟩
    obtain ⟨first, rest, hcut⟩ := List.exists_cons_of_ne_nil (List.splitOnP_ne_nil p l)
    rw [List.splitOnP_cons_eq_if_modifyHead] at h
    by_cases ha : p a = true
    · rw [if_pos ha, List.mem_cons] at h
      rcases h with rfl | h
      · simp
      · exact htail h
    · rw [if_neg ha, hcut, List.modifyHead_cons, List.mem_cons] at h
      rcases h with rfl | h
      · intro c hc
        rcases List.mem_cons.mp hc with rfl | hc
        · exact ⟨List.mem_cons_self, eq_false_of_ne_true ha⟩
        · exact htail (hcut ▸ List.mem_cons_self) c hc
      · exact htail (hcut ▸ List.mem_cons_of_mem _ h)

theorem mem_pieces {l w : List α} (h : w ∈ pieces p l) : Clean p w := by
  obtain ⟨hcut, hne⟩ := List.mem_filter.mp h
  exact ⟨by simpa using hne, fun c hc => (mem_splitOnP hcut c hc).2⟩

theorem mem_of_mem_pieces {l w : List α} (h : w ∈ pieces p l) {c : α} (hc : c ∈ w) : c ∈ l :=
  (mem_splitOnP (List.mem_filter.mp h).1 c hc).1

theorem pieces_append_sep {sep : α} (h : p sep = true) (a b : List α) :
    pieces p (a ++ sep :: b) = pieces p a ++ pieces p b := by
  unfold pieces
  rw [List.splitOnP_append_cons a b h, List.filter_append]

@[simp] theorem pieces_nil : pieces p ([] : List α) = [] := by simp [pieces]

theorem pieces_clean {w : List α} (h : Clean p w) : pieces p w = [w] := by
  unfold pieces
  rw [List.splitOnP_eq_singleton h.2]
  simp [h.1]

/-- Separators in front of a text belong to no piece. -/
theorem pieces_sep_append {a : List α} (h : ∀ c ∈ a, p c = true) (b : List α) :
    pieces p (a ++ b) = pieces p b := by
  induction a with
  | nil => rfl
  | cons c a ih =>
    have hcut := pieces_append_sep (h c List.mem_cons_self) [] (a ++ b)
    rw [pieces_nil, List.nil_append, List.nil_append] at hcut
    rw [List.cons_append, hcut]
    exact ih fun x hx => h x (List.mem_cons_of_mem _ hx)

/-- Nor do separators behind it. -/
theorem pieces_append_seps {b : List α} (h : ∀ c ∈ b, p c = true) (a : List α) :
    pieces p (a ++ b) = pieces p a := by
  cases b with
  | nil => rw [List.append_nil]
  | cons c b =>
    have hrest : pieces p b = [] := by
      have hsep := pieces_sep_append (fun x hx => h x (List.mem_cons_of_mem _ hx)) ([] : List α)
      rwa [List.append_nil, pieces_nil] at hsep
    rw [pieces_append_sep (h c List.mem_cons_self), hrest, List.append_nil]

theorem pieces_joined {sep : α} (hsep : p sep = true) {ws : List (List α)}
    (h : ∀ w ∈ ws, Clean p w) : pieces p (joined sep ws) = ws := by
  induction ws with
  | nil => rw [joined, pieces_nil]
  | cons w rest ih =>
    have hw := pieces_clean (h w List.mem_cons_self)
    cases rest with
    | nil => rw [joined, hw]
    | cons v rest =>
      rw [joined, pieces_append_sep hsep, hw, ih fun x hx => h x (List.mem_cons_of_mem _ hx)]
      rfl

theorem mem_joined {sep c : α} {ws : List (List α)} (h : c ∈ joined sep ws) :
    c = sep ∨ ∃ w ∈ ws, c ∈ w := by
  induction ws with
  | nil => cases h
  | cons w rest ih =>
    cases rest with
    | nil => exact Or.inr ⟨w, List.mem_cons_self, h⟩
    | cons v rest =>
      rw [joined, List.mem_append, List.mem_cons] at h
      rcases h with h | h | h
      · exact Or.inr ⟨w, List.mem_cons_self, h⟩
      · exact Or.inl h
      · refine (ih h).imp id fun hmem => ?_
        obtain ⟨u, hu, hc⟩ := hmem
        exact ⟨u, List.mem_cons_of_mem _ hu, hc⟩

theorem joined_ne_nil {sep : α} {ws : List (List α)} (hne : ws ≠ []) (h : ∀ w ∈ ws, w ≠ []) :
    joined sep ws ≠ [] := by
  cases ws with
  | nil => exact absurd rfl hne
  | cons w rest =>
    cases rest with
    | nil => exact h w List.mem_cons_self
    | cons v rest => simp [joined]

/-- A text is its trimmed middle between two runs of separators. -/
theorem exists_trimmed (p : α → Bool) (l : List α) : ∃ a b, l = a ++ (trimmed p l ++ b) ∧
    (∀ c ∈ a, p c = true) ∧ ∀ c ∈ b, p c = true := by
  refine ⟨l.takeWhile p, ((l.dropWhile p).reverse.takeWhile p).reverse, ?_, ?_, ?_⟩
  · rw [trimmed, ← List.reverse_append, List.takeWhile_append_dropWhile, List.reverse_reverse,
      List.takeWhile_append_dropWhile]
  · exact fun c hc => List.mem_takeWhile_imp hc
  · exact fun c hc => List.mem_takeWhile_imp (List.mem_reverse.mp hc)

/-- Trimming leaves a text that has nothing to trim. -/
theorem trimmed_trimmed (p : α → Bool) (l : List α) : trimmed p (trimmed p l) = trimmed p l := by
  have hback : (trimmed p l).reverse.dropWhile p = (trimmed p l).reverse := by
    rw [trimmed, List.reverse_reverse, List.dropWhile_idempotent]
  have hfront : (trimmed p l).dropWhile p = trimmed p l := by
    have hpre : trimmed p l <+: l.dropWhile p := List.rdropWhile_prefix p (l.dropWhile p)
    have hinner : (l.dropWhile p).dropWhile p = l.dropWhile p := List.dropWhile_idempotent ..
    rw [List.dropWhile_eq_self_iff] at hinner ⊢
    intro hpos
    have hlength := hpre.length_le
    have hget := hinner (by omega)
    rwa [hpre.getElem hpos]
  calc trimmed p (trimmed p l)
      = (((trimmed p l).dropWhile p).reverse.dropWhile p).reverse := rfl
    _ = trimmed p l := by rw [hfront, hback, List.reverse_reverse]

/-- A text without separators has nothing to trim. -/
theorem trimmed_of_clean {l : List α} (h : ∀ c ∈ l, p c = false) : trimmed p l = l := by
  have hdrop : ∀ l' : List α, (∀ c ∈ l', p c = false) → l'.dropWhile p = l' := by
    intro l' hl
    cases l' with
    | nil => rfl
    | cons c rest => exact List.dropWhile_cons_of_neg (by simp [hl c List.mem_cons_self])
  rw [trimmed, hdrop l h, hdrop _ fun c hc => h c (List.mem_reverse.mp hc), List.reverse_reverse]

/-- A text splits at its last separator in one way. -/
theorem append_sep_inj {sep : α} {a a' b b' : List α} (hb : sep ∉ b) (hb' : sep ∉ b')
    (h : a ++ sep :: b = a' ++ sep :: b') : a = a' ∧ b = b' := by
  have hone : ∀ {x y z : List α}, sep ∉ x → sep :: x = y ++ sep :: z → y = [] := by
    intro x y z hx heq
    cases y with
    | nil => rfl
    | cons c y =>
      rw [List.cons_append, List.cons.injEq] at heq
      apply absurd _ hx
      rw [heq.2]
      exact List.mem_append_right _ List.mem_cons_self
  cases List.append_eq_append_iff.mp h with
  | inl hleft =>
    obtain ⟨c, ha, hc⟩ := hleft
    have hnil := hone hb hc
    rw [hnil, List.nil_append, List.cons.injEq] at hc
    rw [hnil, List.append_nil] at ha
    exact ⟨ha.symm, hc.2⟩
  | inr hright =>
    obtain ⟨c, ha, hc⟩ := hright
    have hnil := hone hb' hc
    rw [hnil, List.nil_append, List.cons.injEq] at hc
    rw [hnil, List.append_nil] at ha
    exact ⟨ha, hc.2.symm⟩

end Words
