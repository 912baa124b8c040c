import TkbCherry.Engine.Places

/-!
# One session under the place rules

The engine counts how far a session breaks its rules, on place indices; the validator asks
whether it does, on place texts.
-/

namespace TkbCherry.Engine

set_option autoImplicit false

theorem one_lt_eraseDups_iff {α : Type} [BEq α] [LawfulBEq α] (a : α) (l : List α) :
    1 < (a :: l).eraseDups.length ↔ ∃ b ∈ l, b ≠ a := by
  rw [List.eraseDups_cons, List.length_cons, Nat.lt_add_one_iff, Nat.one_le_iff_ne_zero, ne_eq,
    List.length_eq_zero_iff]
  constructor
  · intro h
    obtain ⟨b, hb⟩ := List.exists_mem_of_ne_nil _ h
    obtain ⟨hmem, hne⟩ := List.mem_filter.mp (List.mem_eraseDups.mp hb)
    exact ⟨b, hmem, by simpa using hne⟩
  · rintro ⟨b, hb, hne⟩ hnil
    have hmem : b ∈ (l.filter fun c => !c == a).eraseDups :=
      List.mem_eraseDups.mpr (List.mem_filter.mpr ⟨hb, by simpa using hne⟩)
    rw [hnil] at hmem
    cases hmem

/-! ### Rules that imply another -/

theorem exists_ne_of_compactLocs {a : String} {l : List String}
    (h : 1 < (compactLocs (a :: l)).length) : ∃ b ∈ l, b ≠ a := by
  induction l generalizing a with
  | nil => simp [compactLocs] at h
  | cons b l ih =>
    by_cases hb : b ≠ a
    · exact ⟨b, List.mem_cons_self, hb⟩
    · rw [compactLocs, if_neg hb] at h
      rw [not_not] at hb
      subst hb
      obtain ⟨c, hc, hne⟩ := ih h
      exact ⟨c, List.mem_cons_of_mem _ hc, hne⟩

theorem exists_ne_of_adjacentChange {breaks : List Nat} {e : Nat × String}
    {l : List (Nat × String)} (h : adjacentChange breaks (e :: l) = true) :
    ∃ b ∈ l.map Prod.snd, b ≠ e.2 := by
  induction l generalizing e with
  | nil => cases h
  | cons e' l ih =>
    obtain ⟨q, b⟩ := e'
    obtain ⟨p, a⟩ := e
    by_cases hb : b = a
    · subst hb
      rw [adjacentChange] at h
      simp only [ne_eq, not_true_eq_false, decide_false, Bool.false_and, Bool.false_or] at h
      obtain ⟨c, hc, hne⟩ := ih h
      exact ⟨c, List.mem_cons_of_mem _ hc, hne⟩
    · exact ⟨b, List.mem_cons_self, hb⟩

theorem two_le_eraseDups {α : Type} [BEq α] [LawfulBEq α] {a b : α} {l : List α} (ha : a ∈ l)
    (hb : b ∈ l) (hne : a ≠ b) : 2 ≤ l.eraseDups.length := by
  cases l with
  | nil => cases ha
  | cons c rest =>
    apply (one_lt_eraseDups_iff c rest).mpr
    by_cases hac : a = c
    · refine ⟨b, (List.mem_cons.mp hb).resolve_left ?_, ?_⟩
      · exact fun hbc => hne (hac.trans hbc.symm)
      · exact fun hbc => hne (hac.trans hbc.symm)
    · exact ⟨a, (List.mem_cons.mp ha).resolve_left hac, hac⟩

/-- A broken session has a rule that is on, and two places. -/
theorem any_of_placesBroken {f : PlaceFlags} {l : List (Nat × String)}
    (h : placesBroken f l = true) : f.any = true ∧ ∃ a ∈ l, ∃ b ∈ l, a.2 ≠ b.2 := by
  cases l with
  | nil => simp [placesBroken] at h
  | cons e l =>
    simp only [placesBroken, List.map_cons, Bool.and_eq_true, Bool.or_eq_true] at h
    have hplaces : (∃ b ∈ l.map Prod.snd, b ≠ e.2) → ∃ a ∈ e :: l, ∃ b ∈ e :: l, a.2 ≠ b.2 := by
      rintro ⟨b, hb, hne⟩
      obtain ⟨e', he', rfl⟩ := List.mem_map.mp hb
      exact ⟨e', List.mem_cons_of_mem _ he', e, List.mem_cons_self, hne⟩
    rcases h.2 with (⟨hone, hd⟩ | ⟨hmove, hd⟩) | ⟨hadj, hd⟩
    · refine ⟨by simp [PlaceFlags.any, hone], hplaces ?_⟩
      exact (one_lt_eraseDups_iff _ _).mp (of_decide_eq_true hd)
    · refine ⟨by simp [PlaceFlags.any, hmove], hplaces (exists_ne_of_compactLocs ?_)⟩
      have := of_decide_eq_true hd
      omega
    · refine ⟨?_, hplaces (exists_ne_of_adjacentChange hd)⟩
      unfold PlaceFlags.adjacent at hadj
      simp only [Bool.or_eq_true] at hadj
      rcases hadj with (hgap | h23) | h34
      · simp [PlaceFlags.any, hgap]
      · simp [PlaceFlags.any, h23]
      · simp [PlaceFlags.any, h34]

/-- Where several places break a rule of their own, the other flags do not matter. -/
theorem placesBroken_of_one {f : PlaceFlags} (h : f.one = true) (l : List (Nat × String)) :
    placesBroken f l =
      (decide (2 ≤ l.length) && decide (1 < (l.map Prod.snd).eraseDups.length)) := by
  cases l with
  | nil => rfl
  | cons e l =>
    rw [placesBroken, h, List.map_cons, Bool.true_and]
    by_cases hd : 1 < (e.2 :: l.map Prod.snd).eraseDups.length
    · simp [hd]
    · have hmove : ¬ 2 < (compactLocs (e.2 :: l.map Prod.snd)).length := by
        intro hlt
        exact hd ((one_lt_eraseDups_iff _ _).mpr (exists_ne_of_compactLocs (by omega)))
      have hadj : adjacentChange f.breakPeriods (e :: l) = false := by
        rw [← Bool.not_eq_true]
        exact fun ht => hd ((one_lt_eraseDups_iff _ _).mpr (exists_ne_of_adjacentChange ht))
      simp [hd, hmove, hadj]

/-- Two readings of the rules that no session tells apart. -/
structure PlaceFlags.SameVerdict (f g : PlaceFlags) : Prop where
  one : f.one = g.one
  rest : f.one = false → f.move = g.move ∧ f.adjacent = g.adjacent ∧
    f.break23 = g.break23 ∧ f.break34 = g.break34

theorem PlaceFlags.SameVerdict.broken {f g : PlaceFlags} (h : f.SameVerdict g)
    (l : List (Nat × String)) : placesBroken f l = placesBroken g l := by
  by_cases hone : f.one = true
  · rw [placesBroken_of_one hone, placesBroken_of_one (h.one ▸ hone)]
  · obtain ⟨hm, ha, h23, h34⟩ := h.rest (eq_false_of_ne_true hone)
    simp only [placesBroken, PlaceFlags.breakPeriods, h.one, hm, ha, h23, h34]

/-- Five sessions, and what breaks in each. -/
theorem broken_probes (f : PlaceFlags) :
    placesBroken f [(1, "a"), (3, "b")] = f.one ∧
    placesBroken f [(1, "a"), (3, "b"), (5, "a")] = (f.one || f.move) ∧
    placesBroken f [(1, "a"), (2, "b")] = (f.one || f.adjacent) ∧
    placesBroken f [(2, "a"), (3, "b")] = (f.one || (f.adjacent && !f.break23)) ∧
    placesBroken f [(3, "a"), (4, "b")] = (f.one || (f.adjacent && !f.break34)) := by
  obtain ⟨one, gap, move, break23, break34⟩ := f
  revert one gap move break23 break34
  decide +kernel

def probes : List (List (Nat × String)) :=
  [[(1, "a"), (3, "b")], [(1, "a"), (3, "b"), (5, "a")], [(1, "a"), (2, "b")],
    [(2, "a"), (3, "b")], [(3, "a"), (4, "b")]]

/-- Readings that agree on the five sessions agree on all. -/
theorem sameVerdict_of_probes {f g : PlaceFlags}
    (h : ∀ l ∈ probes, placesBroken f l = placesBroken g l) : f.SameVerdict g := by
  obtain ⟨f1, f2, f3, f4, f5⟩ := broken_probes f
  obtain ⟨g1, g2, g3, g4, g5⟩ := broken_probes g
  have hone : f.one = g.one := by rw [← f1, ← g1, h _ (by simp [probes])]
  refine ⟨hone, fun hoff => ?_⟩
  have hoff' : g.one = false := hone ▸ hoff
  have hmove := h [(1, "a"), (3, "b"), (5, "a")] (by simp [probes])
  have hadj := h [(1, "a"), (2, "b")] (by simp [probes])
  have h23 := h [(2, "a"), (3, "b")] (by simp [probes])
  have h34 := h [(3, "a"), (4, "b")] (by simp [probes])
  rw [f2, g2, hoff, hoff', Bool.false_or, Bool.false_or] at hmove
  rw [f3, g3, hoff, hoff', Bool.false_or, Bool.false_or] at hadj
  rw [f4, g4, hoff, hoff', Bool.false_or, Bool.false_or, hadj] at h23
  rw [f5, g5, hoff, hoff', Bool.false_or, Bool.false_or, hadj] at h34
  refine ⟨hmove, hadj, ?_⟩
  by_cases ha : g.adjacent = true
  · rw [ha, Bool.true_and, Bool.true_and] at h23 h34
    exact ⟨Bool.not_inj h23, Bool.not_inj h34⟩
  · -- without a rule on adjacent periods there is no break either
    have hnone : ∀ k : PlaceFlags, ¬ k.adjacent = true → k.break23 = false ∧ k.break34 = false := by
      intro k hk
      simp only [PlaceFlags.adjacent, Bool.or_eq_true, not_or, Bool.not_eq_true] at hk
      exact ⟨hk.1.2, hk.2⟩
    obtain ⟨hf23, hf34⟩ := hnone f (hadj ▸ ha)
    obtain ⟨hg23, hg34⟩ := hnone g ha
    exact ⟨hf23.trans hg23.symm, hf34.trans hg34.symm⟩

/-! ### The engine's count -/

section Count
variable {name : Nat → String} {adjacent : Bool} {breaks : List Period} {breaks' : List Nat}

/-- A place entry as the validator has it. -/
def named (name : Nat → String) (e : Period × Nat) : Nat × String := (e.1.val + 1, name e.2)

def Apart (name : Nat → String) (entries : List (Period × Nat)) : Prop :=
  ∀ a ∈ entries, ∀ b ∈ entries, name a.2 = name b.2 → a.2 = b.2

theorem Apart.tail {e : Period × Nat} {l : List (Period × Nat)} (h : Apart name (e :: l)) :
    Apart name l :=
  fun a ha b hb => h a (List.mem_cons_of_mem _ ha) b (List.mem_cons_of_mem _ hb)

theorem Apart.ne_iff {e e' : Period × Nat} {l : List (Period × Nat)} (h : Apart name (e :: e' :: l)) :
    name e'.2 ≠ name e.2 ↔ e'.2 ≠ e.2 := by
  constructor
  · exact fun hne heq => hne (congrArg name heq)
  · exact fun hne heq => hne (h e' (by simp) e (by simp) heq)

theorem compactLocs_change {a b : String} (h : b ≠ a) (l : List String) :
    compactLocs (a :: b :: l) = a :: compactLocs (b :: l) := by
  rw [compactLocs, if_pos h]

theorem compactLocs_same (a : String) (l : List String) :
    compactLocs (a :: a :: l) = compactLocs (a :: l) := by
  rw [compactLocs, if_neg (not_not.mpr rfl)]

theorem locationSteps_same (p q : Period) (a : Nat) (l : List (Period × Nat)) :
    locationSteps adjacent breaks (p, a) ((q, a) :: l) = locationSteps adjacent breaks (q, a) l := by
  simp only [locationSteps, ne_eq, not_true_eq_false, if_false]

theorem locationSteps_change (p q : Period) {a b : Nat} (h : b ≠ a) (l : List (Period × Nat)) :
    locationSteps adjacent breaks (p, a) ((q, b) :: l) =
      ((locationSteps adjacent breaks (q, b) l).1 + 1,
        if adjacent && decide ((q.val : Int) - p.val ≤ 1) && decide (p ∉ breaks)
        then (locationSteps adjacent breaks (q, b) l).2 + 1
        else (locationSteps adjacent breaks (q, b) l).2) := by
  simp only [locationSteps, ne_eq, h, not_false_eq_true, if_true]

/-- One change of place fewer than compact places. -/
theorem locationSteps_changes {e : Period × Nat} {l : List (Period × Nat)}
    (h : Apart name (e :: l)) : (locationSteps adjacent breaks e l).1 + 1 =
      ((compactLocs ((e :: l).map fun e => name e.2)).length : Int) := by
  induction l generalizing e with
  | nil => rfl
  | cons e' l ih =>
    have hrest := ih h.tail
    have hne := h.ne_iff
    obtain ⟨p, a⟩ := e
    obtain ⟨q, b⟩ := e'
    rw [List.map_cons] at hrest
    rw [List.map_cons, List.map_cons]
    by_cases hb : b = a
    · subst hb
      rw [locationSteps_same, compactLocs_same]
      exact hrest
    · rw [locationSteps_change p q hb, compactLocs_change (hne.mpr hb), List.length_cons]
      push_cast
      rw [← hrest]

theorem adjacentChange_cons (p q : Nat) (a b : String) (l : List (Nat × String)) :
    adjacentChange breaks' ((p, a) :: (q, b) :: l) =
      ((decide (a ≠ b) && decide ((q : Int) - (p : Int) ≤ 1) && decide (p ∉ breaks')) ||
        adjacentChange breaks' ((q, b) :: l)) := rfl

theorem locationSteps_debt {e : Period × Nat} {l : List (Period × Nat)}
    (h : Apart name (e :: l)) (hb : ∀ p : Period, p ∈ breaks ↔ p.val + 1 ∈ breaks') :
    0 ≤ (locationSteps adjacent breaks e l).2 ∧
      (0 < (locationSteps adjacent breaks e l).2 ↔
        adjacent = true ∧ adjacentChange breaks' ((e :: l).map (named name)) = true) := by
  induction l generalizing e with
  | nil => simp [locationSteps, adjacentChange]
  | cons e' l ih =>
    obtain ⟨hpos, hiff⟩ := ih h.tail
    have hne := h.ne_iff
    obtain ⟨p, a⟩ := e
    obtain ⟨q, b⟩ := e'
    have hcons : adjacentChange breaks' (((p, a) :: (q, b) :: l).map (named name)) =
        ((decide (name a ≠ name b) && decide ((q.val : Int) - p.val ≤ 1) && decide (p ∉ breaks)) ||
          adjacentChange breaks' (((q, b) :: l).map (named name))) := by
      rw [List.map_cons, List.map_cons, named, named, adjacentChange_cons, ← named, ← List.map_cons]
      have hdist : ((q.val + 1 : Nat) : Int) - ((p.val + 1 : Nat) : Int) ≤ 1 ↔
          (q.val : Int) - p.val ≤ 1 := by omega
      simp only [hdist, hb p]
    rw [hcons]
    by_cases hab : b = a
    · subst hab
      rw [locationSteps_same]
      simp only [ne_eq, not_true_eq_false, decide_false, Bool.false_and, Bool.false_or]
      exact ⟨hpos, hiff⟩
    · have hnab : name a ≠ name b := (hne.mpr hab).symm
      rw [locationSteps_change p q hab, decide_eq_true hnab, Bool.true_and, Bool.and_assoc]
      by_cases hstep : (decide ((q.val : Int) - p.val ≤ 1) && decide (p ∉ breaks)) = true
      · rw [hstep, Bool.and_true]
        cases adjacent with
        | false => exact ⟨hpos, by simpa using hiff⟩
        | true =>
          simp only [if_true, Bool.true_or, and_self, iff_true]
          omega
      · rw [eq_false_of_ne_true hstep, Bool.and_false, Bool.false_or]
        exact ⟨hpos, hiff⟩

theorem eraseDups_named {e : Period × Nat} {l : List (Period × Nat)} (h : Apart name (e :: l)) :
    1 < ((e :: l).map fun e => name e.2).eraseDups.length ↔
      1 < ((e :: l).map Prod.snd).eraseDups.length := by
  rw [List.map_cons, List.map_cons, one_lt_eraseDups_iff, one_lt_eraseDups_iff]
  constructor
  · rintro ⟨b, hb, hne⟩
    obtain ⟨e', he', rfl⟩ := List.mem_map.mp hb
    exact ⟨e'.2, List.mem_map_of_mem he', fun heq => hne (congrArg name heq)⟩
  · rintro ⟨b, hb, hne⟩
    obtain ⟨e', he', rfl⟩ := List.mem_map.mp hb
    refine ⟨name e'.2, List.mem_map_of_mem (f := fun e => name e.2) he', ?_⟩
    exact fun heq => hne (h e' (List.mem_cons_of_mem _ he') e List.mem_cons_self heq)

theorem locBreaks_iff (r : TeacherRule) (flags : Session → PlaceFlags) (s : Session) (p : Period) :
    p ∈ (r.withPlaces flags).locBreaks s ↔ p.val + 1 ∈ (flags s).breakPeriods := by
  simp only [TeacherRule.withPlaces, PlaceFlags.breakPeriods]
  generalize (flags s).break23 = on23
  generalize (flags s).break34 = on34
  cases on23 <;> cases on34 <;> simp [Fin.ext_iff]

/-- What makes the count of a session positive. -/
theorem locationRuleDebt_pos_iff (one gap move : Bool) {e e' : Period × Nat}
    {l : List (Period × Nat)} (h : Apart name (e :: e' :: l))
    (hb : ∀ p : Period, p ∈ breaks ↔ p.val + 1 ∈ breaks') :
    0 < locationRuleDebt (e :: e' :: l) one gap move breaks ↔
      (one = true ∧ 1 < ((e :: e' :: l).map fun e => name e.2).eraseDups.length) ∨
      (move = true ∧ 2 < (compactLocs ((e :: e' :: l).map fun e => name e.2)).length) ∨
      ((gap || !breaks.isEmpty) = true ∧
        adjacentChange breaks' ((e :: e' :: l).map (named name)) = true) := by
  rw [eraseDups_named h]
  have hdistinct : 0 < ((e :: e' :: l).map Prod.snd).eraseDups.length := by
    rw [List.map_cons, List.eraseDups_cons, List.length_cons]
    omega
  have hchanges := @locationSteps_changes name (gap || !breaks.isEmpty) breaks e (e' :: l) h
  obtain ⟨hpos, hdebt⟩ := @locationSteps_debt name (gap || !breaks.isEmpty) breaks breaks' e (e' :: l) h hb
  simp only [locationRuleDebt]
  generalize ((e :: e' :: l).map Prod.snd).eraseDups.length = distinct at hdistinct ⊢
  generalize (compactLocs ((e :: e' :: l).map fun e => name e.2)).length = compact at hchanges ⊢
  generalize locationSteps (gap || !breaks.isEmpty) breaks e (e' :: l) = steps at hchanges hpos hdebt ⊢
  generalize (gap || !breaks.isEmpty) = adjacent at hdebt ⊢
  rw [← hdebt]
  cases one <;> cases move <;> cases adjacent <;>
    simp only [Bool.false_eq_true, if_false, if_true, Bool.or_false, Bool.or_true, Bool.false_and,
      Bool.true_and, false_and, true_and, false_or, decide_eq_true_eq, iff_false] at hdebt ⊢ <;>
    (try split) <;> omega

/-- The engine and the validator judge a session alike when they read its rules alike. -/
theorem locBroken_eq (r : TeacherRule) (flags : Session → PlaceFlags) (s : Session)
    {entries : List (Period × Nat)} (h : Apart name entries) :
    locBroken (r.withPlaces flags) s entries =
      placesBroken (flags s) (entries.map (named name)) := by
  have hbreaks := locBreaks_iff r flags s
  have hempty : (!((r.withPlaces flags).locBreaks s).isEmpty) =
      ((flags s).break23 || (flags s).break34) := by
    simp only [TeacherRule.withPlaces]
    cases (flags s).break23 <;> cases (flags s).break34 <;> rfl
  have hone : (r.withPlaces flags).locOne s = (flags s).one := rfl
  have hgap : (r.withPlaces flags).locGap s = (flags s).gap := rfl
  have hmove : (r.withPlaces flags).locMove s = (flags s).move := rfl
  have hadj : ((flags s).gap || !((r.withPlaces flags).locBreaks s).isEmpty) =
      (flags s).adjacent := by rw [hempty, PlaceFlags.adjacent, Bool.or_assoc]
  rw [locBroken, hone, hgap, hmove]
  generalize (r.withPlaces flags).locBreaks s = breaks at hbreaks hempty hadj ⊢
  cases entries with
  | nil => simp [placesBroken]
  | cons e rest =>
    cases rest with
    | nil => simp [placesBroken]
    | cons e' l =>
      have hpos := locationRuleDebt_pos_iff (flags s).one (flags s).gap (flags s).move h hbreaks
      rw [hadj] at hpos
      have hnames : ((e :: e' :: l).map (named name)).map Prod.snd =
          (e :: e' :: l).map fun e => name e.2 := by rw [List.map_map]; rfl
      have hlen : 2 ≤ (e :: e' :: l).length := by simp
      rw [Bool.eq_iff_iff]
      simp only [placesBroken, hnames, List.length_map, hlen, decide_true, Bool.and_true,
        Bool.true_and, Bool.and_eq_true, Bool.or_eq_true, decide_eq_true_eq, gt_iff_lt, hpos,
        or_assoc]
      refine ⟨And.right, fun hany => ⟨?_, hany⟩⟩
      rcases hany with hany | hany | hany
      · exact Or.inl hany.1
      · exact Or.inr (Or.inr (Or.inl hany.1))
      · have hon := hany.1
        rw [← hadj, Bool.or_eq_true] at hon
        exact Or.inr (hon.imp id Or.inr)

end Count

end TkbCherry.Engine
