import TkbCherry.Engine.Stats
import TkbCherry.Lib.Closure

/-!
# The column swap of the optimizer

`_kempe_column_swap` closes a class under the first teachers of its lessons at two slots of
a session and exchanges the two slots in every class found. The writes are made class by
class, so a teacher who links two classes is still entered in the second one when his lesson
of the first is written, and the write is refused. The swap is complete only where no
teacher links two classes, or where a lesson that may not stand at its new slot is met first.
-/

namespace TkbCherry.Engine

set_option autoImplicit false

open Array2

namespace State
variable {P : Problem}

/-- The class that the first teacher of the lesson at `slot` has at `other`. -/
def blockerOf (s : State P) (c : P.Cls) (slot other : Slot) : Option P.Cls :=
  ((s.grid c slot).bind P.aTeacher).bind fun t => (s.teacherSlot t other).map P.aClass

def kempeNext (s : State P) (slot1 slot2 : Slot) (c : P.Cls) : List P.Cls :=
  (s.blockerOf c slot1 slot2).toList ++ (s.blockerOf c slot2 slot1).toList

/-- The two loops of `_run_of`; `same` says that the cell has a lesson of the subject. -/
def runLow (same : Nat → Bool) : Nat → Nat
  | 0 => 0
  | lo + 1 => if same lo then runLow same lo else lo + 1

def runHigh (same : Nat → Bool) : Nat → Nat → Nat
  | 0, hi => hi
  | left + 1, hi => if same (hi + 1) then runHigh same left (hi + 1) else hi

def sameSubject (s : State P) (c : P.Cls) (ses : Session) (si : P.Sub) (q : Nat) : Bool :=
  allPeriods.any fun r => decide (r.val = q) &&
    (s.grid c (slotAt ses r)).any fun a2 => decide (P.aSubject a2 = si)

/-- `_run_of`. -/
def runOf (s : State P) (c : P.Cls) (slot : Slot) : List Slot :=
  match s.grid c slot with
  | none => []
  | some ai =>
    let ses := sessionOfSlot slot
    let p := (periodOfSlot slot).val
    let same := s.sameSubject c ses (P.aSubject ai)
    let lo := runLow same p
    let hi := runHigh same (4 - p) p
    (allPeriods.filter fun q => decide (lo ≤ q.val ∧ q.val ≤ hi)).map (slotAt ses)

/-- The lock and run filters of one class. -/
def exchangeable (s : State P) (c : P.Cls) (slot1 slot2 : Slot) : Bool :=
  [slot1, slot2].all fun slot => !s.locked c slot &&
    ((s.grid c slot).isNone || decide ((s.runOf c slot).length = 1))

/-- The loop that fills the change list; `none` is `return False`. -/
def kempeChanges (s : State P) (slot1 slot2 : Slot) : List P.Cls → Option (List (Change P))
  | [] => some []
  | c :: rest =>
    if s.grid c slot1 = s.grid c slot2 then kempeChanges s slot1 slot2 rest
    else if s.exchangeable c slot1 slot2 then
      (kempeChanges s slot1 slot2 rest).map fun changes =>
        (c, slot1, s.grid c slot2) :: (c, slot2, s.grid c slot1) :: changes
    else none

/-- The change list that `_kempe_column_swap` tries. The component is a set of the source;
`order` is the order in which it is walked. -/
def kempeColumnSwap (s : State P) (order : List P.Cls → List P.Cls) (seed : P.Cls)
    (ses : Session) (p1 p2 : Period) : Option (List (Change P)) :=
  if p1 = p2 then none
  else
    let slot1 := slotAt ses p1
    let slot2 := slotAt ses p2
    ((Closure.component (s.kempeNext slot1 slot2) 12 seed).bind fun comp =>
      s.kempeChanges slot1 slot2 (order comp)).filter fun changes => !changes.isEmpty

/-- `apply` refuses the list at a write, for a teacher who is busy. -/
def RefusedForTeacher (s : State P) (changes : List (Change P)) : Prop :=
  (s.toCells.applyChanges s.locked changes []).2 = .error "teacher_conflict"

theorem apply_of_refusedForTeacher {s : State P} {changes : List (Change P)} (check : Bool)
    (h : s.RefusedForTeacher changes) :
    (s.apply changes check).2 = none ∧
      (s.apply changes check).1.checkFailReason = "teacher_conflict" := by
  unfold RefusedForTeacher at h
  cases hrun : s.toCells.applyChanges s.locked changes [] with
  | mk k r =>
    rw [hrun] at h
    subst h
    simp [apply, hrun]

/-- The swap is complete: whatever the order of the set, the exchanged grid has no teacher
in two classes at one slot, and no write of the list is refused for a teacher. -/
def KempeComplete (s : State P) (seed : P.Cls) (ses : Session) (p1 p2 : Period) : Prop :=
  ∀ order : List P.Cls → List P.Cls, (∀ l, (order l).Perm l) →
    ∀ changes, s.kempeColumnSwap order seed ses p1 p2 = some changes →
      P.Exclusive (P.overlay s.grid changes) ∧ ¬ s.RefusedForTeacher changes

end State

namespace Problem
variable (P : Problem)

/-- A teacher of the lesson has another class `d` at the slot. -/
def Elsewhere (grid : P.Grid) (c : P.Cls) (new : Option P.Asg) (slot : Slot) (d : P.Cls) : Prop :=
  d ≠ c ∧ ∃ t ∈ P.members new, t ∈ P.members (grid d slot)

/-- The lesson may not stand at the slot. -/
def Barred (new : Option P.Asg) (slot : Slot) : Prop :=
  ∃ ai, new = some ai ∧ P.aAllowed ai slot = false

/-- A lesson of the class whose teacher is taken at the new slot is met after one that may
not stand at its new slot. -/
structure BarredFirst (grid : P.Grid) (slot1 slot2 : Slot) (c : P.Cls) : Prop where
  first : ∀ d, P.Elsewhere grid c (grid c slot2) slot1 d → P.Barred (grid c slot2) slot1
  second : ∀ d, P.Elsewhere grid c (grid c slot1) slot2 d →
    P.Barred (grid c slot1) slot2 ∨ P.Barred (grid c slot2) slot1

/-- The classes that share a teacher with the exchanged lessons are exchanged too. -/
structure LinkedInside (grid : P.Grid) (slot1 slot2 : Slot) (inside : P.Cls → Prop)
    (c : P.Cls) : Prop where
  first : ∀ d, P.Elsewhere grid c (grid c slot2) slot1 d → inside d
  second : ∀ d, P.Elsewhere grid c (grid c slot1) slot2 d → inside d

/-- The two columns exchanged in the classes of the list. -/
def exchange (grid : P.Grid) (slot1 slot2 : Slot) (classes : List P.Cls) : P.Grid :=
  fun c slot =>
    if c ∈ classes then
      if slot = slot1 then grid c slot2 else if slot = slot2 then grid c slot1 else grid c slot
    else grid c slot

/-- The two changes of one class; none where both slots hold the same. -/
def exchangeOf (grid : P.Grid) (slot1 slot2 : Slot) (c : P.Cls) : List (Change P) :=
  if grid c slot1 = grid c slot2 then []
  else [(c, slot1, grid c slot2), (c, slot2, grid c slot1)]

variable {P}

theorem Exclusive.ne_of_elsewhere {grid : P.Grid} (h : P.Exclusive grid) {c d : P.Cls}
    {new : Option P.Asg} {slot : Slot} (he : P.Elsewhere grid c new slot d) :
    grid c slot ≠ new := by
  obtain ⟨hdc, t, ht, htd⟩ := he
  intro heq
  rw [← heq] at ht
  exact hdc (h d c slot t htd ht)

theorem overlay_append (grid : P.Grid) (changes rest : List (Change P)) :
    P.overlay grid (changes ++ rest) = P.overlay (P.overlay grid changes) rest := by
  simp only [overlay, List.foldl_append]

/-- The changes of one class exchange its two columns. -/
theorem overlay_exchangeOf (grid g : P.Grid) {slot1 slot2 : Slot} (c : P.Cls)
    (hrow : ∀ slot, g c slot = grid c slot) :
    P.overlay g (P.exchangeOf grid slot1 slot2 c) = P.exchange g slot1 slot2 [c] := by
  funext d slot
  unfold exchangeOf exchange
  simp only [List.mem_singleton]
  by_cases heq : grid c slot1 = grid c slot2
  · rw [if_pos heq]
    by_cases hd : d = c
    · subst hd
      rw [if_pos rfl]
      by_cases h1 : slot = slot1
      · rw [if_pos h1, hrow, ← heq, ← hrow, h1]
        rfl
      · rw [if_neg h1]
        by_cases h2 : slot = slot2
        · rw [if_pos h2, hrow, heq, ← hrow, h2]
          rfl
        · rw [if_neg h2]
          rfl
    · rw [if_neg hd]
      rfl
  · rw [if_neg heq]
    simp only [overlay, List.foldl_cons, List.foldl_nil, set2_apply]
    by_cases hd : d = c
    · subst hd
      by_cases h2 : slot = slot2
      · subst h2
        by_cases h1 : slot = slot1
        · exact absurd (by rw [← h1]) heq
        · simp [h1, hrow]
      · by_cases h1 : slot = slot1
        · subst h1
          simp [h2, hrow]
        · simp [h1, h2, hrow]
    · simp [hd]

theorem exchange_cons {grid : P.Grid} {slot1 slot2 : Slot} {c : P.Cls} {classes : List P.Cls}
    (hc : c ∉ classes) : P.exchange (P.exchange grid slot1 slot2 [c]) slot1 slot2 classes =
      P.exchange grid slot1 slot2 (c :: classes) := by
  funext d slot
  unfold exchange
  by_cases hd : d = c
  · subst hd
    simp [hc]
  · simp [hd]

theorem exchange_row {grid : P.Grid} {slot1 slot2 : Slot} {c d : P.Cls} (h : d ≠ c) (slot : Slot) :
    P.exchange grid slot1 slot2 [c] d slot = grid d slot := by
  simp [exchange, h]

/-- The change list of the swap exchanges the two columns of its classes. -/
theorem overlay_flatMap_exchangeOf (grid g : P.Grid) {slot1 slot2 : Slot} {classes : List P.Cls}
    (hnodup : classes.Nodup) (hrow : ∀ c ∈ classes, ∀ slot, g c slot = grid c slot) :
    P.overlay g (classes.flatMap (P.exchangeOf grid slot1 slot2)) =
      P.exchange g slot1 slot2 classes := by
  induction classes generalizing g with
  | nil =>
    funext c slot
    simp [overlay, exchange]
  | cons c rest ih =>
    obtain ⟨hc, hrest⟩ := List.nodup_cons.mp hnodup
    rw [List.flatMap_cons, overlay_append, overlay_exchangeOf grid g c (hrow c List.mem_cons_self),
      ih _ hrest, exchange_cons hc]
    intro d hd slot
    have hdc : d ≠ c := fun he => hc (he ▸ hd)
    rw [exchange_row hdc]
    exact hrow d (List.mem_cons_of_mem _ hd) slot

/-- The exchange keeps the teachers apart exactly when it takes in every linked class. -/
theorem exclusive_exchange_iff {grid : P.Grid} (h : P.Exclusive grid) {slot1 slot2 : Slot}
    (hne : slot1 ≠ slot2) (classes : List P.Cls) :
    P.Exclusive (P.exchange grid slot1 slot2 classes) ↔
      ∀ c ∈ classes, P.LinkedInside grid slot1 slot2 (· ∈ classes) c := by
  have hat1 : ∀ c, P.exchange grid slot1 slot2 classes c slot1 =
      if c ∈ classes then grid c slot2 else grid c slot1 := by
    intro c
    simp [exchange]
  have hat2 : ∀ c, P.exchange grid slot1 slot2 classes c slot2 =
      if c ∈ classes then grid c slot1 else grid c slot2 := by
    intro c
    simp [exchange, hne.symm]
  constructor
  · intro hex c hc
    constructor
    · intro d hd
      obtain ⟨hdc, t, ht, htd⟩ := hd
      by_contra hout
      apply hdc
      apply hex d c slot1 t
      · rwa [hat1, if_neg hout]
      · rwa [hat1, if_pos hc]
    · intro d hd
      obtain ⟨hdc, t, ht, htd⟩ := hd
      by_contra hout
      apply hdc
      apply hex d c slot2 t
      · rwa [hat2, if_neg hout]
      · rwa [hat2, if_pos hc]
  · intro hin c d slot t hc hd
    by_contra hcd
    by_cases h1 : slot = slot1
    · subst h1
      rw [hat1] at hc hd
      by_cases hcin : c ∈ classes <;> by_cases hdin : d ∈ classes <;>
        simp only [hcin, hdin, if_true, if_false] at hc hd
      · exact hcd (h c d slot2 t hc hd)
      · exact hdin ((hin c hcin).first d ⟨fun he => hcd he.symm, t, hc, hd⟩)
      · exact hcin ((hin d hdin).first c ⟨hcd, t, hd, hc⟩)
      · exact hcd (h c d slot t hc hd)
    · by_cases h2 : slot = slot2
      · subst h2
        rw [hat2] at hc hd
        by_cases hcin : c ∈ classes <;> by_cases hdin : d ∈ classes <;>
          simp only [hcin, hdin, if_true, if_false] at hc hd
        · exact hcd (h c d slot1 t hc hd)
        · exact hdin ((hin c hcin).second d ⟨fun he => hcd he.symm, t, hc, hd⟩)
        · exact hcin ((hin d hdin).second c ⟨hcd, t, hd, hc⟩)
        · exact hcd (h c d slot t hc hd)
      · have hrow : ∀ e, P.exchange grid slot1 slot2 classes e slot = grid e slot := by
          intro e
          simp [exchange, h1, h2]
        rw [hrow] at hc hd
        exact hcd (h c d slot t hc hd)

end Problem

namespace Cells
variable {P : Problem}

/-- A write is refused exactly when a teacher of the lesson has another class at the slot. -/
theorem Sound.writeCell_refused_iff {k : Cells P} (hk : k.Sound) (c : P.Cls) (slot : Slot)
    (new : Option P.Asg) (journal : List (Entry P)) :
    (k.writeCell c slot new journal).2.2 = false ↔ ∃ d, P.Elsewhere k.grid c new slot d := by
  have hex : P.Exclusive k.grid := hk.loadable.exclusive
  have hbusy : (k.release slot (k.grid c slot)).busy slot new = false ↔
      ∀ d, ¬ P.Elsewhere k.grid c new slot d := by
    rw [busy_eq_false_iff]
    constructor
    · intro hfree d hd
      obtain ⟨hdc, t, ht, htd⟩ := hd
      have hold : t ∉ P.members (k.grid c slot) := fun ho => hdc (hex d c slot t htd ho)
      have hnone := hfree t ht
      rw [release_teacherSlot, if_neg fun hh => hold hh.1, hk.teacherSlot_of_member htd] at hnone
      simp [hnone] at htd
    · intro hnone t ht
      rw [release_teacherSlot]
      by_cases hold : t ∈ P.members (k.grid c slot)
      · rw [if_pos ⟨hold, rfl⟩]
      · rw [if_neg fun hh => hold hh.1]
        cases hts : k.teacherSlot t slot with
        | none => rfl
        | some b =>
          obtain ⟨hg, hb⟩ := (hk.owner t slot b).mp hts
          refine absurd ⟨fun he => hold ?_, t, ht, ?_⟩ (hnone (P.aClass b))
          · rw [← he, hg]
            exact hb
          · rw [hg]
            exact hb
  unfold writeCell
  by_cases heq : k.grid c slot = new
  · rw [if_pos heq]
    constructor
    · intro h
      cases h
    · intro h
      obtain ⟨d, hd⟩ := h
      exact absurd heq (hex.ne_of_elsewhere hd)
  · rw [if_neg heq]
    cases hb : (k.release slot (k.grid c slot)).busy slot new with
    | true =>
      simp only [hb, if_true, true_iff]
      by_contra hn
      have hfalse := hbusy.mpr fun d hd => hn ⟨d, hd⟩
      rw [hb] at hfalse
      cases hfalse
    | false =>
      simp only [hb]
      constructor
      · intro h
        cases h
      · intro h
        obtain ⟨d, hd⟩ := h
        exact absurd hd (hbusy.mp hb d)

/-- One change of an unlocked cell of the class of its lesson: barred, refused for a teacher,
or written. -/
theorem Sound.applyChanges_cons {k : Cells P} (hk : k.Sound) {locked : P.Cls → Slot → Bool}
    {c : P.Cls} {slot : Slot} {new : Option P.Asg} (hlock : locked c slot = false)
    (hclass : ∀ ai, new = some ai → P.aClass ai = c) (rest : List (Change P))
    (journal : List (Entry P)) :
    (P.Barred new slot ∧
      (k.applyChanges locked ((c, slot, new) :: rest) journal).2 = .error "not_allowed") ∨
    (¬ P.Barred new slot ∧ (∃ d, P.Elsewhere k.grid c new slot d) ∧
      (k.applyChanges locked ((c, slot, new) :: rest) journal).2 = .error "teacher_conflict") ∨
    (¬ P.Barred new slot ∧ (∀ d, ¬ P.Elsewhere k.grid c new slot d) ∧
      ∃ (k' : Cells P) (journal' : List (Entry P)), k'.Sound ∧ k'.grid = set2 k.grid c slot new ∧
        k.applyChanges locked ((c, slot, new) :: rest) journal =
          k'.applyChanges locked rest journal') := by
  have hl : ¬ (locked c slot = true ∧ k.grid c slot ≠ new) := by
    rw [hlock]
    simp
  by_cases hbar : P.Barred new slot
  · refine Or.inl ⟨hbar, ?_⟩
    obtain ⟨ai, rfl, hai⟩ := hbar
    simp [applyChanges, hlock, hai]
  · have hallow : ∀ ai, new = some ai → P.aClass ai = c ∧ P.aAllowed ai slot = true := by
      intro ai hai
      refine ⟨hclass ai hai, ?_⟩
      by_contra hn
      exact hbar ⟨ai, hai, by simpa using hn⟩
    have hna : ¬ new.any (fun a => decide (P.aClass a ≠ c) || !P.aAllowed a slot) = true := by
      cases new with
      | none => simp
      | some ai => simp [hallow ai rfl]
    have hiff := hk.writeCell_refused_iff c slot new journal
    rcases writeCell_cases hk c slot new journal hallow with ⟨heq, hw⟩ | ⟨_, hf, hw⟩ | hw
    · refine Or.inr (Or.inr ⟨hbar, ?_, k, journal, hk, ?_, ?_⟩)
      · intro d hd
        have hfalse := hiff.mpr ⟨d, hd⟩
        rw [hw] at hfalse
        cases hfalse
      · rw [← heq, set2_get]
      · simp only [applyChanges, if_neg hl, if_neg hna, hw]
    · refine Or.inr (Or.inr ⟨hbar, ?_, k.put c slot new,
        ⟨c, slot, k.grid c slot, new⟩ :: journal, hk.put hf, rfl, ?_⟩)
      · intro d hd
        have hfalse := hiff.mpr ⟨d, hd⟩
        rw [hw] at hfalse
        cases hfalse
      · simp only [applyChanges, if_neg hl, if_neg hna, hw]
    · refine Or.inr (Or.inl ⟨hbar, hiff.mp (by rw [hw]), ?_⟩)
      simp only [applyChanges, if_neg hl, if_neg hna, hw]

/-- The condition on a class survives the exchange of another one. -/
theorem barredFirst_of_exchange {k k' : Cells P} (hk : k.Sound) {slot1 slot2 : Slot}
    (hne : slot1 ≠ slot2) {c e : P.Cls} (hec : e ≠ c)
    (hgrid : k'.grid = P.exchange k.grid slot1 slot2 [c])
    (h : P.BarredFirst k.grid slot1 slot2 e) : P.BarredFirst k'.grid slot1 slot2 e := by
  have hex : P.Exclusive k.grid := hk.loadable.exclusive
  have hrow : ∀ slot, k'.grid e slot = k.grid e slot := by
    intro slot
    rw [hgrid, Problem.exchange_row hec]
  have hold : ∀ slot other, (slot = slot1 ∧ other = slot2 ∨ slot = slot2 ∧ other = slot1) →
      ∀ d, P.Elsewhere k'.grid e (k.grid e other) slot d →
        P.Elsewhere k.grid e (k.grid e other) slot d := by
    intro slot other hpair d hd
    obtain ⟨hde, t, ht, htd⟩ := hd
    refine ⟨hde, t, ht, ?_⟩
    by_cases hdc : d = c
    · -- the exchanged class now has what it had at the other slot, where `t` has class `e`
      subst hdc
      have hother : k'.grid d slot = k.grid d other := by
        rw [hgrid]
        rcases hpair with ⟨rfl, rfl⟩ | ⟨rfl, rfl⟩
        · simp [Problem.exchange]
        · simp [Problem.exchange, hne.symm]
      rw [hother] at htd
      exact absurd (hex d e other t htd ht) hde
    · rwa [hgrid, Problem.exchange_row hdc] at htd
  constructor
  · intro d hd
    rw [hrow] at hd ⊢
    exact h.first d (hold slot1 slot2 (Or.inl ⟨rfl, rfl⟩) d hd)
  · intro d hd
    rw [hrow] at hd ⊢
    rw [hrow]
    exact h.second d (hold slot2 slot1 (Or.inr ⟨rfl, rfl⟩) d hd)

/-- The two changes of one class. -/
theorem Sound.applyChanges_exchangeOf {k : Cells P} (hk : k.Sound)
    {locked : P.Cls → Slot → Bool} {slot1 slot2 : Slot} (hne : slot1 ≠ slot2) {c : P.Cls}
    (hlock : k.grid c slot1 ≠ k.grid c slot2 →
      locked c slot1 = false ∧ locked c slot2 = false)
    (rest : List (Change P)) (journal : List (Entry P)) :
    (P.BarredFirst k.grid slot1 slot2 c ∧
      (k.applyChanges locked (P.exchangeOf k.grid slot1 slot2 c ++ rest) journal).2 =
        .error "not_allowed") ∨
    (¬ P.BarredFirst k.grid slot1 slot2 c ∧
      (k.applyChanges locked (P.exchangeOf k.grid slot1 slot2 c ++ rest) journal).2 =
        .error "teacher_conflict") ∨
    (P.BarredFirst k.grid slot1 slot2 c ∧
      ∃ (k' : Cells P) (journal' : List (Entry P)), k'.Sound ∧
        k'.grid = P.exchange k.grid slot1 slot2 [c] ∧
        k.applyChanges locked (P.exchangeOf k.grid slot1 slot2 c ++ rest) journal =
          k'.applyChanges locked rest journal') := by
  have hex : P.Exclusive k.grid := hk.loadable.exclusive
  have hover := @Problem.overlay_exchangeOf P k.grid k.grid slot1 slot2 c fun _ => rfl
  by_cases heq : k.grid c slot1 = k.grid c slot2
  · refine Or.inr (Or.inr ⟨?_, k, journal, hk, ?_, ?_⟩)
    · constructor
      · intro d hd
        exact absurd heq (hex.ne_of_elsewhere hd)
      · intro d hd
        exact absurd heq.symm (hex.ne_of_elsewhere hd)
    · rw [← hover, Problem.exchangeOf, if_pos heq]
      rfl
    · rw [Problem.exchangeOf, if_pos heq, List.nil_append]
  · obtain ⟨hlock1, hlock2⟩ := hlock heq
    have hclass1 : ∀ ai, k.grid c slot1 = some ai → P.aClass ai = c :=
      fun ai hai => (hk.cells c slot1 ai hai).1
    have hclass2 : ∀ ai, k.grid c slot2 = some ai → P.aClass ai = c :=
      fun ai hai => (hk.cells c slot2 ai hai).1
    rw [Problem.exchangeOf, if_neg heq, List.cons_append, List.singleton_append]
    rcases hk.applyChanges_cons hlock1 hclass2 ((c, slot2, k.grid c slot1) :: rest) journal with
      ⟨hbar, hrun⟩ | ⟨hbar, ⟨d, hd⟩, hrun⟩ | ⟨hbar1, hfree1, k₁, journal₁, hk₁, hgrid₁, hrun⟩
    · exact Or.inl ⟨⟨fun _ _ => hbar, fun _ _ => Or.inr hbar⟩, hrun⟩
    · exact Or.inr (Or.inl ⟨fun h => hbar (h.first d hd), hrun⟩)
    · -- the second write meets the same classes at its slot as before the first
      have hsame : ∀ d, P.Elsewhere k₁.grid c (k.grid c slot1) slot2 d ↔
          P.Elsewhere k.grid c (k.grid c slot1) slot2 d := by
        intro d
        unfold Problem.Elsewhere
        rw [hgrid₁, set2_of_ne fun hh => hne hh.2.symm]
      rw [hrun]
      rcases hk₁.applyChanges_cons hlock2 hclass1 rest journal₁ with
        ⟨hbar, hrun₂⟩ | ⟨hbar, ⟨d, hd⟩, hrun₂⟩ | ⟨hbar2, hfree2, k₂, journal₂, hk₂, hgrid₂, hrun₂⟩
      · exact Or.inl ⟨⟨fun d hd => absurd hd (hfree1 d), fun _ _ => Or.inl hbar⟩, hrun₂⟩
      · refine Or.inr (Or.inl ⟨fun h => ?_, hrun₂⟩)
        exact (h.second d ((hsame d).mp hd)).elim hbar hbar1
      · refine Or.inr (Or.inr ⟨?_, k₂, journal₂, hk₂, ?_, hrun₂⟩)
        · constructor
          · intro d hd
            exact absurd hd (hfree1 d)
          · intro d hd
            exact absurd ((hsame d).mpr hd) (hfree2 d)
        · rw [hgrid₂, hgrid₁, ← hover, Problem.exchangeOf, if_neg heq]
          rfl

/-- Where no class breaks the condition, no write of the list is refused for a teacher. -/
theorem Sound.applyChanges_exchange {locked : P.Cls → Slot → Bool} {slot1 slot2 : Slot}
    (hne : slot1 ≠ slot2) (grid : P.Grid) {classes : List P.Cls} (hnodup : classes.Nodup)
    {k : Cells P} (hk : k.Sound) (hrow : ∀ c ∈ classes, k.grid c = grid c)
    (hlock : ∀ c ∈ classes, grid c slot1 ≠ grid c slot2 →
      locked c slot1 = false ∧ locked c slot2 = false)
    (hcond : ∀ c ∈ classes, P.BarredFirst k.grid slot1 slot2 c) (journal : List (Entry P)) :
    (k.applyChanges locked (classes.flatMap (P.exchangeOf grid slot1 slot2)) journal).2 ≠
      .error "teacher_conflict" := by
  induction classes generalizing k journal with
  | nil => simp [applyChanges]
  | cons c rest ih =>
    obtain ⟨hc, hrest⟩ := List.nodup_cons.mp hnodup
    have hcrow := hrow c List.mem_cons_self
    have hof : P.exchangeOf grid slot1 slot2 c = P.exchangeOf k.grid slot1 slot2 c := by
      simp only [Problem.exchangeOf, hcrow]
    rw [List.flatMap_cons, hof]
    have hclock := hlock c List.mem_cons_self
    rw [← hcrow] at hclock
    rcases hk.applyChanges_exchangeOf hne hclock
        (rest.flatMap (P.exchangeOf grid slot1 slot2)) journal with
      ⟨_, hrun⟩ | ⟨hnot, _⟩ | ⟨_, k', journal', hk', hgrid', hrun⟩
    · rw [hrun]
      simp
    · exact absurd (hcond c List.mem_cons_self) hnot
    · rw [hrun]
      have hne' : ∀ e ∈ rest, e ≠ c := fun e he hec => hc (hec ▸ he)
      apply ih hrest hk'
      · intro e he
        funext slot
        rw [hgrid', Problem.exchange_row (hne' e he), hrow e (List.mem_cons_of_mem _ he)]
      · intro e he
        exact hlock e (List.mem_cons_of_mem _ he)
      · intro e he
        exact barredFirst_of_exchange hk hne (hne' e he) hgrid'
          (hcond e (List.mem_cons_of_mem _ he))

end Cells

namespace State
variable {P : Problem}

/-- The closure stays within its cap and every class found passes the filters. -/
structure KempeFinishes (s : State P) (seed : P.Cls) (slot1 slot2 : Slot) : Prop where
  small : ∀ l : List P.Cls, l.Nodup →
    (∀ c ∈ l, Closure.Reach (s.kempeNext slot1 slot2) seed c) → l.length ≤ 12
  passes : ∀ c, Closure.Reach (s.kempeNext slot1 slot2) seed c →
    s.grid c slot1 ≠ s.grid c slot2 → s.exchangeable c slot1 slot2 = true

/-- Every class found is linked only to classes found, and its linked lessons are preceded by
one that may not stand at its new slot. -/
def KempeHarmless (s : State P) (seed : P.Cls) (ses : Session) (p1 p2 : Period) : Prop :=
  p1 ≠ p2 → s.KempeFinishes seed (slotAt ses p1) (slotAt ses p2) →
    ∀ c, Closure.Reach (s.kempeNext (slotAt ses p1) (slotAt ses p2)) seed c →
      P.BarredFirst s.grid (slotAt ses p1) (slotAt ses p2) c ∧
      P.LinkedInside s.grid (slotAt ses p1) (slotAt ses p2)
        (Closure.Reach (s.kempeNext (slotAt ses p1) (slotAt ses p2)) seed) c

theorem exchangeable_locked {s : State P} {c : P.Cls} {slot1 slot2 : Slot}
    (h : s.exchangeable c slot1 slot2 = true) :
    s.locked c slot1 = false ∧ s.locked c slot2 = false := by
  simp only [exchangeable, List.all_cons, List.all_nil, Bool.and_eq_true, Bool.not_eq_true'] at h
  exact ⟨h.1.1, h.2.1.1⟩

theorem kempeChanges_eq_some_iff (s : State P) (slot1 slot2 : Slot) (classes : List P.Cls)
    (changes : List (Change P)) : s.kempeChanges slot1 slot2 classes = some changes ↔
      (∀ c ∈ classes, s.grid c slot1 ≠ s.grid c slot2 → s.exchangeable c slot1 slot2 = true) ∧
      changes = classes.flatMap (P.exchangeOf s.grid slot1 slot2) := by
  induction classes generalizing changes with
  | nil =>
    simp only [kempeChanges, Option.some.injEq, List.flatMap_nil]
    constructor
    · intro h
      exact ⟨fun c hc => absurd hc List.not_mem_nil, h.symm⟩
    · intro h
      exact h.2.symm
  | cons c rest ih =>
    rw [kempeChanges, List.flatMap_cons]
    by_cases heq : s.grid c slot1 = s.grid c slot2
    · rw [if_pos heq, ih, Problem.exchangeOf, if_pos heq, List.nil_append]
      simp [heq]
    · rw [if_neg heq, Problem.exchangeOf, if_neg heq]
      by_cases hok : s.exchangeable c slot1 slot2 = true
      · rw [if_pos hok, Option.map_eq_some_iff]
        constructor
        · intro h
          obtain ⟨tail, htail, rfl⟩ := h
          obtain ⟨hall, rfl⟩ := (ih tail).mp htail
          refine ⟨?_, rfl⟩
          intro e he
          cases List.mem_cons.mp he with
          | inl he => exact fun _ => he ▸ hok
          | inr he => exact hall e he
        · intro h
          obtain ⟨hall, rfl⟩ := h
          exact ⟨_, (ih _).mpr ⟨fun e he => hall e (List.mem_cons_of_mem _ he), rfl⟩, rfl⟩
      · rw [if_neg hok]
        constructor
        · intro h
          cases h
        · intro h
          exact absurd (h.1 c List.mem_cons_self heq) hok

theorem kempeColumnSwap_eq_some_iff (s : State P) (order : List P.Cls → List P.Cls) (seed : P.Cls)
    (ses : Session) (p1 p2 : Period) (changes : List (Change P)) :
    s.kempeColumnSwap order seed ses p1 p2 = some changes ↔ p1 ≠ p2 ∧ changes ≠ [] ∧
      ∃ comp, Closure.component (s.kempeNext (slotAt ses p1) (slotAt ses p2)) 12 seed = some comp ∧
        s.kempeChanges (slotAt ses p1) (slotAt ses p2) (order comp) = some changes := by
  unfold kempeColumnSwap
  by_cases hp : p1 = p2
  · simp [hp]
  · simp only [if_neg hp, Option.filter_eq_some_iff, Option.bind_eq_some_iff,
      Bool.not_eq_true', List.isEmpty_eq_false_iff]
    constructor
    · intro h
      exact ⟨hp, h.2, h.1⟩
    · intro h
      exact ⟨h.2.2, h.2.1⟩

theorem slotAt_ne {ses : Session} {p1 p2 : Period} (h : p1 ≠ p2) : slotAt ses p1 ≠ slotAt ses p2 := by
  intro he
  apply h
  rw [← periodOfSlot_slotAt ses p1, he, periodOfSlot_slotAt]

theorem harmless_of_same {s : State P} (h : s.toCells.Sound) {slot1 slot2 : Slot} {c : P.Cls}
    (heq : s.grid c slot1 = s.grid c slot2) (inside : P.Cls → Prop) :
    P.BarredFirst s.grid slot1 slot2 c ∧ P.LinkedInside s.grid slot1 slot2 inside c := by
  have hex : P.Exclusive s.grid := h.loadable.exclusive
  have hfirst : ∀ d, ¬ P.Elsewhere s.grid c (s.grid c slot2) slot1 d :=
    fun d hd => hex.ne_of_elsewhere hd heq
  have hsecond : ∀ d, ¬ P.Elsewhere s.grid c (s.grid c slot1) slot2 d :=
    fun d hd => hex.ne_of_elsewhere hd heq.symm
  exact ⟨⟨fun d hd => absurd hd (hfirst d), fun d hd => absurd hd (hsecond d)⟩,
    ⟨fun d hd => absurd hd (hfirst d), fun d hd => absurd hd (hsecond d)⟩⟩

/-- On a harmless swap nothing is refused for a teacher. -/
theorem complete_of_harmless {s : State P} (h : s.toCells.Sound) {seed : P.Cls} {ses : Session}
    {p1 p2 : Period} (hharm : s.KempeHarmless seed ses p1 p2) : s.KempeComplete seed ses p1 p2 := by
  intro order horder changes hswap
  obtain ⟨hp, _, comp, hcomp, hchanges⟩ :=
    (kempeColumnSwap_eq_some_iff s order seed ses p1 p2 changes).mp hswap
  obtain ⟨hpass, rfl⟩ := (kempeChanges_eq_some_iff s _ _ _ _).mp hchanges
  have hinv := Closure.component_inv hcomp
  have hmem : ∀ c, c ∈ order comp ↔
      Closure.Reach (s.kempeNext (slotAt ses p1) (slotAt ses p2)) seed c :=
    fun c => (horder comp).mem_iff.trans (hinv.mem_iff c)
  have hnodup : (order comp).Nodup := (horder comp).nodup_iff.mpr hinv.nodup
  have hfin : s.KempeFinishes seed (slotAt ses p1) (slotAt ses p2) :=
    ⟨(Closure.component_isSome_iff seed).mp (by rw [hcomp]; rfl),
      fun c hc => hpass c ((hmem c).mpr hc)⟩
  have hne := @slotAt_ne ses p1 p2 hp
  have hall : ∀ c ∈ order comp, P.BarredFirst s.grid (slotAt ses p1) (slotAt ses p2) c ∧
      P.LinkedInside s.grid (slotAt ses p1) (slotAt ses p2) (· ∈ order comp) c := by
    intro c hc
    obtain ⟨hbar, hlink⟩ := hharm hp hfin c ((hmem c).mp hc)
    exact ⟨hbar, ⟨fun d hd => (hmem d).mpr (hlink.first d hd),
      fun d hd => (hmem d).mpr (hlink.second d hd)⟩⟩
  constructor
  · rw [Problem.overlay_flatMap_exchangeOf _ _ hnodup fun _ _ _ => rfl]
    exact (Problem.exclusive_exchange_iff h.loadable.exclusive hne _).mpr fun c hc => (hall c hc).2
  · exact h.applyChanges_exchange hne s.grid hnodup (fun _ _ => rfl)
      (fun c hc hcne => exchangeable_locked (hpass c hc hcne)) (fun c hc => (hall c hc).1) []

/-- A complete swap is harmless: the order that starts with a class shows its condition. -/
theorem harmless_of_complete {s : State P} (h : s.toCells.Sound) {seed : P.Cls} {ses : Session}
    {p1 p2 : Period} (hcomplete : s.KempeComplete seed ses p1 p2) :
    s.KempeHarmless seed ses p1 p2 := by
  intro hp hfin c hc
  have hne := @slotAt_ne ses p1 p2 hp
  by_cases heq : s.grid c (slotAt ses p1) = s.grid c (slotAt ses p2)
  · exact harmless_of_same h heq _
  obtain ⟨comp, hcomp⟩ :=
    Option.isSome_iff_exists.mp ((Closure.component_isSome_iff seed).mpr hfin.small)
  have hinv := Closure.component_inv hcomp
  have hcin : c ∈ comp := (hinv.mem_iff c).mpr hc
  have horder : ∀ l : List P.Cls, (if c ∈ l then c :: l.erase c else l).Perm l := by
    intro l
    by_cases hl : c ∈ l
    · rw [if_pos hl]
      exact (List.perm_cons_erase hl).symm
    · rw [if_neg hl]
  have hperm : (c :: comp.erase c).Perm comp := (List.perm_cons_erase hcin).symm
  have hmem : ∀ d, d ∈ c :: comp.erase c ↔
      Closure.Reach (s.kempeNext (slotAt ses p1) (slotAt ses p2)) seed d :=
    fun d => hperm.mem_iff.trans (hinv.mem_iff d)
  have hpass : ∀ d ∈ c :: comp.erase c, s.grid d (slotAt ses p1) ≠ s.grid d (slotAt ses p2) →
      s.exchangeable d (slotAt ses p1) (slotAt ses p2) = true :=
    fun d hd => hfin.passes d ((hmem d).mp hd)
  have hnodup : (c :: comp.erase c).Nodup := hperm.nodup_iff.mpr hinv.nodup
  have hswap : s.kempeColumnSwap (fun l => if c ∈ l then c :: l.erase c else l) seed ses p1 p2 =
      some ((c :: comp.erase c).flatMap
        (P.exchangeOf s.grid (slotAt ses p1) (slotAt ses p2))) := by
    apply (kempeColumnSwap_eq_some_iff s _ seed ses p1 p2 _).mpr
    refine ⟨hp, ?_, comp, hcomp, ?_⟩
    · rw [List.flatMap_cons, Problem.exchangeOf, if_neg heq]
      simp
    · rw [if_pos hcin]
      exact (kempeChanges_eq_some_iff s _ _ _ _).mpr ⟨hpass, rfl⟩
  obtain ⟨hexcl, hfree⟩ := hcomplete _ horder _ hswap
  constructor
  · rcases h.applyChanges_exchangeOf hne
        (fun hcne => exchangeable_locked (hpass c List.mem_cons_self hcne))
        ((comp.erase c).flatMap (P.exchangeOf s.grid (slotAt ses p1) (slotAt ses p2))) [] with
      ⟨hbar, _⟩ | ⟨_, hrun⟩ | ⟨hbar, _⟩
    · exact hbar
    · exact absurd hrun hfree
    · exact hbar
  · rw [Problem.overlay_flatMap_exchangeOf _ _ hnodup fun _ _ _ => rfl] at hexcl
    have hlink := (Problem.exclusive_exchange_iff h.loadable.exclusive hne _).mp hexcl c
      List.mem_cons_self
    exact ⟨fun d hd => (hmem d).mp (hlink.first d hd), fun d hd => (hmem d).mp (hlink.second d hd)⟩

/-- In every state of every run the swap is complete exactly when it is harmless. -/
theorem kempeComplete_iff (P : Problem) (deferMin : Bool) (edits : List (Edit P)) (seed : P.Cls)
    (ses : Session) (p1 p2 : Period) :
    (edits.foldl Desk.step (Desk.init P deferMin)).state.KempeComplete seed ses p1 p2 ↔
      (edits.foldl Desk.step (Desk.init P deferMin)).state.KempeHarmless seed ses p1 p2 := by
  have hinv := Desk.inv_run (Transition.Run.ofFn_foldl Desk.step _ edits)
    (Desk.inv_init P deferMin)
  constructor
  · exact harmless_of_complete hinv.consistent.sound
  · exact complete_of_harmless hinv.consistent.sound

end State

/-! ### Two classes with one teacher -/

/-- One teacher with one lesson in each of two classes. -/
def linkedClasses : Problem where
  numClasses := 2
  numTeachers := 1
  numSubjects := 1
  numAssignments := 2
  className := ![("6A" : String), "6B"]
  teacherName := fun _ => "GV1"
  subjectName := fun _ => "Toan"
  aClass := id
  aSubject := fun _ => 0
  aTeacher := fun _ => some 0
  aTeachers := fun _ => [0]
  aRoom := fun _ => ""
  aPeriods := fun _ => 1
  aCap := fun _ => 1
  aAllowed := fun _ _ => true
  aRule := fun _ => none
  aLoc := fun _ => none
  teacherRules := fun _ => none
  teacherMust := fun _ => []
  teacherLocRules := fun _ => false
  noSameSession := fun _ => []
  noSameDay := fun _ => []
  fixedCells := []
  fixedMask := fun _ _ => false
  timeLimitRules := []
  subjectGroups := fun _ => []
  groupRuleKeys := fun _ _ => none
  rawGroups := fun _ _ => []

namespace linkedClasses

/-- The lessons of the two classes at the first two periods of the first session. -/
def placed : List (Edit linkedClasses) :=
  [.apply [((0 : Fin 2), 0, some (0 : Fin 2)), ((1 : Fin 2), 1, some (1 : Fin 2))] true]

def desk : Desk linkedClasses := placed.foldl Desk.step (Desk.init linkedClasses false)

def swap : List (Change linkedClasses) :=
  [((1 : Fin 2), 0, some (1 : Fin 2)), ((1 : Fin 2), 1, none),
    ((0 : Fin 2), 0, none), ((0 : Fin 2), 1, some (0 : Fin 2))]

/-- The first write of the swap meets the teacher in the class that is not exchanged yet. -/
theorem swap_refused : ¬ desk.state.KempeComplete (0 : Fin 2) 0 0 1 := by
  intro h
  have hswap : desk.state.kempeColumnSwap id (0 : Fin 2) 0 0 1 = some swap := by decide +kernel
  apply (h id (fun l => List.Perm.refl l) swap hswap).2
  rfl

end linkedClasses

end TkbCherry.Engine
