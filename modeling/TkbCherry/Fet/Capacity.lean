import TkbCherry.Fet.Ejection
import Mathlib.Algebra.BigOperators.Group.Finset.Basic
import Mathlib.Algebra.BigOperators.Group.Finset.Piecewise
import Mathlib.Algebra.BigOperators.Ring.Finset
import Mathlib.Order.Interval.Finset.Nat
import Mathlib.Algebra.Order.BigOperators.Group.Finset

/-! The capacity reports: demand against free cells, class by class and teacher by
teacher. Classes share no activity, so their shortages add up; two teachers of
one lesson do share it. -/

namespace TkbCherry.Fet
open Booking
set_option autoImplicit false
set_option linter.unusedSectionVars false

variable {κ : Type} [DecidableEq κ]

section Reports

structure CapacityRow (κ : Type) where
  key : κ
  need : Nat
  free : Nat
  deficit : Nat
  deriving DecidableEq, Repr

structure CapacityReport (κ : Type) where
  deficit : Nat
  rows : List (CapacityRow κ)
  deriving DecidableEq, Repr

/-- The keys of a map filled in the order of a list. -/
def mapKeys : List κ → List κ
  | [] => []
  | k :: ks => k :: (mapKeys ks).filter (· != k)

/-- The rows with more demand than room, the largest shortage first. -/
def capacityReport (keys : List κ) (need free : κ → Nat) : CapacityReport κ :=
  let short := (keys.filter fun k => decide (free k < need k)).map fun k =>
    ⟨k, need k, free k, need k - free k⟩
  { deficit := (short.map CapacityRow.deficit).sum
    rows := short.insertionSort fun a b => b.deficit ≤ a.deficit }

def Desk.movable (d : Desk κ) : List (Act κ) := d.activities.filter (!·.isFixed)

/-- The −1 cells of the class's row. -/
def classFree (g : Grids κ) (cid : κ) : Nat :=
  match g.rows (.lop cid) with
  | none => 0
  | some row => ((List.range TOTAL_SLOTS).filter fun s => row s == .free).length

def classNeed (d : Desk κ) (cid : κ) : Nat :=
  ((d.movable.filter fun act => decide (act.classId = cid)).map Act.duration).sum

/-- `blank` tells the class ids that are the empty string, which are passed over. -/
def computeClassCapacityReport (d : Desk κ) (blank : κ → Bool) (g : Grids κ) :
    CapacityReport κ :=
  capacityReport ((mapKeys (d.movable.map Act.classId)).filter (!blank ·)) (classNeed d)
    (classFree g)

/-- A lesson counts for every entry of its teacher list. -/
def teacherNeed (d : Desk κ) (t : κ) : Nat :=
  (d.movable.map fun act => act.gv.count t * act.duration).sum

/-- The slots free for the teacher and for some class of theirs. -/
def teacherSlots (d : Desk κ) (g : Grids κ) (t : κ) : Nat :=
  ((List.range TOTAL_SLOTS).filter fun s =>
    (g.rows (.gv t)).all (fun row => row s == .free) &&
    d.movable.any fun act => act.gv.contains t &&
      (g.rows (.lop act.classId)).any fun row => row s == .free).length

def computeTeacherCapacityReport (d : Desk κ) (g : Grids κ) : CapacityReport κ :=
  capacityReport (mapKeys (d.movable.flatMap Act.gv)) (teacherNeed d) (teacherSlots d g)

end Reports

section Statements
variable (d : Desk κ)

/-- A placement without conflicts, on cells of the grid. -/
structure ConflictFree (base : Row κ → Nat → Cell) (p : Nat → Option Nat) : Prop where
  legal : d.Legal base p
  inGrid : ∀ a x, d.Covers p a x → x.2 < TOTAL_SLOTS

/-- The duration of the movable activity with this id. -/
def Desk.periods (a : Nat) : Nat :=
  match d.activities[a]? with
  | none => 0
  | some act => if act.isFixed then 0 else act.duration

/-- The periods of movable activities that the placement leaves out. -/
def unplaced (p : Nat → Option Nat) : Nat :=
  ∑ a ∈ Finset.range d.activities.length, if (p a).isSome then 0 else d.periods a

/-- No lesson is counted for two teachers that lack slots. -/
def CountedOnce (g : Grids κ) : Prop :=
  ∀ act ∈ d.movable,
    (act.gv.filter fun t => decide (teacherSlots d g t < teacherNeed d t)).length ≤ 1

instance (g : Grids κ) : Decidable (CountedOnce d g) :=
  inferInstanceAs (Decidable (∀ act ∈ d.movable,
    (act.gv.filter fun t => decide (teacherSlots d g t < teacherNeed d t)).length ≤ 1))

end Statements

section Keys

theorem mem_mapKeys {l : List κ} {k : κ} : k ∈ mapKeys l ↔ k ∈ l := by
  induction l with
  | nil => simp [mapKeys]
  | cons x l ih =>
    by_cases h : k = x
    · simp [mapKeys, h]
    · simp [mapKeys, h, ih]

theorem nodup_mapKeys (l : List κ) : (mapKeys l).Nodup := by
  induction l with
  | nil => exact List.nodup_nil
  | cons x l ih =>
    rw [mapKeys, List.nodup_cons]
    exact ⟨by simp, ih.filter _⟩

/-- The deficit, as a sum over all keys. -/
theorem capacityReport_deficit (keys : List κ) (need free : κ → Nat) (hk : keys.Nodup) :
    (capacityReport keys need free).deficit = ∑ k ∈ keys.toFinset, (need k - free k) := by
  have hsum : (capacityReport keys need free).deficit = (keys.map fun k => need k - free k).sum := by
    simp only [capacityReport, List.map_map]
    induction keys with
    | nil => rfl
    | cons k keys ih =>
      have ih := ih (List.nodup_cons.mp hk).2
      by_cases h : free k < need k
      · simp only [h, decide_true, List.filter_cons_of_pos, List.map_cons, List.sum_cons, ih]
        rfl
      · have hz : need k - free k = 0 := by omega
        simp only [h, decide_false, Bool.false_eq_true, not_false_eq_true,
          List.filter_cons_of_neg, List.map_cons, List.sum_cons, ih, hz, Nat.zero_add]
  rw [hsum, List.sum_toFinset _ hk]

end Keys

section Lists

/-- A sum over a list, as a sum over its indices. -/
theorem sum_map_eq_range {β : Type} (l : List β) (w : β → Nat) :
    (l.map w).sum = ∑ a ∈ Finset.range l.length, (l[a]?.map w).getD 0 := by
  induction l with
  | nil => simp
  | cons x l ih =>
    rw [List.map_cons, List.sum_cons, ih, List.length_cons, Finset.sum_range_succ']
    simp [Nat.add_comm]

theorem sum_filter_map {β : Type} (l : List β) (q : β → Bool) (w : β → Nat) :
    ((l.filter q).map w).sum = (l.map fun x => if q x then w x else 0).sum := by
  induction l with
  | nil => rfl
  | cons x l ih =>
    cases h : q x
    · simp [h, ih]
    · simp [h, ih]

theorem sum_count_le (S : Finset κ) (l : List κ) :
    ∑ k ∈ S, l.count k ≤ (l.filter fun k => decide (k ∈ S)).length := by
  induction l with
  | nil => simp
  | cons x l ih =>
    have hsum : ∑ k ∈ S, (x :: l).count k = (∑ k ∈ S, l.count k) + if x ∈ S then 1 else 0 := by
      have hone : ∑ k ∈ S, (if x = k then 1 else 0) = if x ∈ S then 1 else 0 :=
        Finset.sum_ite_eq S x fun _ => 1
      rw [← hone, ← Finset.sum_add_distrib]
      apply Finset.sum_congr rfl
      intro k _
      by_cases hk : x = k
      · simp [hk]
      · simp [hk]
    rw [hsum]
    by_cases hx : x ∈ S
    · simp [hx]
      omega
    · simpa [hx] using ih

end Lists

section Shortage

/-- Shortages add up to a bound on what is left out, when the room of each short
key bounds what is put in, and nothing is counted for two short keys. -/
theorem shortages_le {n : Nat} {S : Finset κ} {m : Nat → κ → Nat} {size : Nat → Nat}
    {free : κ → Nat} {inside : Nat → Bool}
    (hroom : ∀ k ∈ S, free k < ∑ a ∈ Finset.range n, m a k * size a →
      (∑ a ∈ Finset.range n, if inside a then m a k * size a else 0) ≤ free k)
    (honce : ∀ a ∈ Finset.range n, (∑ k ∈ S.filter fun k =>
      free k < ∑ a ∈ Finset.range n, m a k * size a, m a k) * size a ≤ size a) :
    ∑ k ∈ S, ((∑ a ∈ Finset.range n, m a k * size a) - free k) ≤
      ∑ a ∈ Finset.range n, if inside a then 0 else size a := by
  let need (k : κ) : Nat := ∑ a ∈ Finset.range n, m a k * size a
  have hshort : ∑ k ∈ S, (need k - free k) = ∑ k ∈ S.filter (fun k => free k < need k),
      (need k - free k) := by
    rw [Finset.sum_filter]
    apply Finset.sum_congr rfl
    intro k _
    by_cases h : free k < need k
    · simp [h]
    · simp only [h, if_false]
      omega
  have hkey : ∀ k ∈ S.filter (fun k => free k < need k), need k - free k ≤
      ∑ a ∈ Finset.range n, if inside a then 0 else m a k * size a := by
    intro k hk
    obtain ⟨hS, hlt⟩ := Finset.mem_filter.mp hk
    have hin := hroom k hS hlt
    have hsplit : need k = (∑ a ∈ Finset.range n, if inside a then m a k * size a else 0) +
        ∑ a ∈ Finset.range n, if inside a then 0 else m a k * size a := by
      rw [← Finset.sum_add_distrib]
      apply Finset.sum_congr rfl
      intro a _
      cases inside a <;> simp
    omega
  calc ∑ k ∈ S, (need k - free k)
      = ∑ k ∈ S.filter (fun k => free k < need k), (need k - free k) := hshort
    _ ≤ ∑ k ∈ S.filter (fun k => free k < need k),
          ∑ a ∈ Finset.range n, (if inside a then 0 else m a k * size a) :=
        Finset.sum_le_sum hkey
    _ = ∑ a ∈ Finset.range n, ∑ k ∈ S.filter (fun k => free k < need k),
          (if inside a then 0 else m a k * size a) := Finset.sum_comm
    _ ≤ ∑ a ∈ Finset.range n, (if inside a then 0 else size a) := by
        apply Finset.sum_le_sum
        intro a ha
        cases hi : inside a with
        | true => simp
        | false =>
          simp only [Bool.false_eq_true, if_false]
          rw [← Finset.sum_mul]
          exact honce a ha

end Shortage

section Room
variable {d : Desk κ} {base : Row κ → Nat → Cell} {g : Grids κ} {p : Nat → Option Nat}

theorem periods_eq {a : Nat} {act : Act κ} (ha : d.activities[a]? = some act) :
    d.periods a = if act.isFixed then 0 else act.duration := by
  simp [Desk.periods, ha]

/-- The slots a movable activity stands in. -/
def slotsOf (d : Desk κ) (p : Nat → Option Nat) (a : Nat) : Finset Nat :=
  match p a with
  | none => ∅
  | some s => Finset.Ico s (s + d.periods a)

theorem card_slotsOf (a : Nat) :
    (slotsOf d p a).card = if (p a).isSome then d.periods a else 0 := by
  cases hs : p a with
  | none => simp [slotsOf, hs]
  | some s => simp [slotsOf, hs]

theorem movable_of_slotsOf {a s : Nat} {act : Act κ} (hs : s ∈ slotsOf d p a)
    (ha : d.activities[a]? = some act) : act ∈ d.movable := by
  refine List.mem_filter.mpr ⟨List.mem_of_getElem? ha, ?_⟩
  cases hf : act.isFixed with
  | false => rfl
  | true =>
    have hcard : 0 < (slotsOf d p a).card := Finset.card_pos.mpr ⟨s, hs⟩
    rw [card_slotsOf, periods_eq ha, hf] at hcard
    simp at hcard

theorem covers_slotsOf {a s : Nat} {r : Row κ} (hs : s ∈ slotsOf d p a)
    (hr : ∀ act, d.activities[a]? = some act → r ∈ act.rows) : d.Covers p a (r, s) := by
  cases hpa : p a with
  | none => simp [slotsOf, hpa] at hs
  | some s₀ =>
    simp only [slotsOf, hpa, Finset.mem_Ico] at hs
    obtain ⟨hlo, hhi⟩ := hs
    cases hact : d.activities[a]? with
    | none =>
      have hzero : d.periods a = 0 := by simp [Desk.periods, hact]
      omega
    | some act =>
      have hper : d.periods a ≤ act.duration := by
        rw [periods_eq hact]
        by_cases hf : act.isFixed
        · simp [hf]
        · simp [hf]
      refine ⟨s₀, hpa, act, hact, List.mem_flatMap.mpr ⟨s - s₀, ?_, ?_⟩⟩
      · exact List.mem_range.mpr (by omega)
      · refine List.mem_map.mpr ⟨r, hr act hact, ?_⟩
        rw [Nat.add_sub_cancel' hlo]

/-- The slots of one row that placed activities cover are distinct. -/
theorem row_room (hp : ConflictFree d base p) (r : Row κ) (A F : Finset Nat)
    (hA : ∀ a ∈ A, ∀ act, d.activities[a]? = some act → r ∈ act.rows)
    (hF : ∀ a ∈ A, ∀ s ∈ slotsOf d p a, s ∈ F) :
    (∑ a ∈ A, if (p a).isSome then d.periods a else 0) ≤ F.card := by
  have hcov : ∀ a ∈ A, ∀ s ∈ slotsOf d p a, d.Covers p a (r, s) :=
    fun a ha s hs => covers_slotsOf hs (hA a ha)
  calc (∑ a ∈ A, if (p a).isSome then d.periods a else 0)
      = ∑ a ∈ A, (slotsOf d p a).card := Finset.sum_congr rfl fun a _ => (card_slotsOf a).symm
    _ = (A.biUnion (slotsOf d p)).card := by
        symm
        apply Finset.card_biUnion
        intro a ha b hb hab
        rw [Function.onFun, Finset.disjoint_left]
        intro s hsa hsb
        exact hab (hp.legal.apart (hcov a ha s hsa) (hcov b hb s hsb))
    _ ≤ F.card := by
        apply Finset.card_le_card
        intro s hs
        obtain ⟨a, ha, hsa⟩ := Finset.mem_biUnion.mp hs
        exact hF a ha s hsa

/-- A usable cell reads free in the empty grids. -/
theorem read_free (hb : Booked d base g) (hempty : g.actPlacement = fun _ => none)
    {x : Row κ × Nat} (hu : d.Usable base x) : g.read x.1 x.2 = .free := by
  rw [hb.bare x ?_]
  · exact hu.1
  · rintro a ⟨s, hs, _⟩
    rw [hempty] at hs
    cases hs

theorem range_filter_card (n : Nat) (q : Nat → Bool) :
    ((Finset.range n).filter fun s => q s = true).card = ((List.range n).filter q).length := by
  have hlist : (List.range n).toFinset = Finset.range n := by
    ext s
    simp
  rw [← hlist, ← List.toFinset_filter, List.toFinset_card_of_nodup (List.nodup_range.filter _)]

/-- A covered slot is covered in every row of the activity. -/
theorem covers_row {a : Nat} {act : Act κ} (ha : d.activities[a]? = some act) {r r' : Row κ}
    {s : Nat} (hr : r' ∈ act.rows) (hc : d.Covers p a (r, s)) : d.Covers p a (r', s) := by
  obtain ⟨s₀, hs₀, e, he, hx⟩ := hc
  rw [ha] at he
  cases he
  obtain ⟨k, hk, hm⟩ := List.mem_flatMap.mp hx
  obtain ⟨r₁, _, heq⟩ := List.mem_map.mp hm
  cases heq
  exact ⟨s₀, hs₀, act, ha, List.mem_flatMap.mpr ⟨k, hk, List.mem_map.mpr ⟨r', hr, rfl⟩⟩⟩

end Room

section Bounds
variable {d : Desk κ} {base : Row κ → Nat → Cell} {g : Grids κ} {p : Nat → Option Nat}

/-- What the key `k` counts of activity `a`. -/
def share (d : Desk κ) (w : Act κ → κ → Nat) (a : Nat) (k : κ) : Nat :=
  match d.activities[a]? with
  | none => 0
  | some act => w act k

theorem need_eq (w : Act κ → κ → Nat) (k : κ) :
    (d.movable.map fun act => w act k * act.duration).sum =
      ∑ a ∈ Finset.range d.activities.length, share d w a k * d.periods a := by
  rw [Desk.movable, sum_filter_map, sum_map_eq_range]
  apply Finset.sum_congr rfl
  intro a _
  cases ha : d.activities[a]? with
  | none => simp [share, Desk.periods, ha]
  | some act =>
    cases hf : act.isFixed
    · simp [share, Desk.periods, ha, hf]
    · simp [share, Desk.periods, ha, hf]

def classShare (act : Act κ) (cid : κ) : Nat := if act.classId = cid then 1 else 0

def teacherShare (act : Act κ) (t : κ) : Nat := act.gv.count t

theorem classNeed_eq (cid : κ) : classNeed d cid =
    ∑ a ∈ Finset.range d.activities.length, share d classShare a cid * d.periods a := by
  rw [← need_eq classShare, classNeed, sum_filter_map]
  congr 1
  apply List.map_congr_left
  intro act _
  by_cases h : act.classId = cid
  · simp [classShare, h]
  · simp [classShare, h]

theorem teacherNeed_eq (t : κ) : teacherNeed d t =
    ∑ a ∈ Finset.range d.activities.length, share d teacherShare a t * d.periods a :=
  need_eq teacherShare t

/-- The activities that count for a key, each once. -/
def sharers (d : Desk κ) (w : Act κ → κ → Nat) (k : κ) : Finset Nat :=
  (Finset.range d.activities.length).filter fun a => share d w a k ≠ 0

theorem shared_room {w : Act κ → κ → Nat} {k : κ}
    (hone : ∀ a ∈ Finset.range d.activities.length, share d w a k * d.periods a ≤ d.periods a) :
    (∑ a ∈ Finset.range d.activities.length,
        if (p a).isSome then share d w a k * d.periods a else 0) ≤
      ∑ a ∈ sharers d w k, if (p a).isSome then d.periods a else 0 := by
  rw [sharers, Finset.sum_filter]
  apply Finset.sum_le_sum
  intro a ha
  by_cases hz : share d w a k = 0
  · simp [hz]
  · rw [if_pos hz]
    by_cases hp : (p a).isSome
    · rw [if_pos hp, if_pos hp]
      exact hone a ha
    · simp [hp]

theorem class_room (hb : Booked d base g) (hempty : g.actPlacement = fun _ => none)
    (hp : ConflictFree d base p) (cid : κ) :
    (∑ a ∈ Finset.range d.activities.length,
        if (p a).isSome then share d classShare a cid * d.periods a else 0) ≤ classFree g cid := by
  have hshare : ∀ a ∈ sharers d classShare cid, ∀ act, d.activities[a]? = some act →
      .lop cid ∈ act.rows := by
    intro a ha act hact
    have hne := (Finset.mem_filter.mp ha).2
    by_cases hc : act.classId = cid
    · simp [Act.rows, hc]
    · simp [share, hact, classShare, hc] at hne
  refine le_trans (shared_room ?_) ?_
  · intro a _
    cases ha : d.activities[a]? with
    | none => simp [share, ha]
    | some act =>
      by_cases hc : act.classId = cid
      · simp [share, ha, classShare, hc]
      · simp [share, ha, classShare, hc]
  · by_cases hsome : ∃ a, a ∈ sharers d classShare cid
    · obtain ⟨a₀, ha₀⟩ := hsome
      have hlen := Finset.mem_range.mp (Finset.mem_filter.mp ha₀).1
      have hact := List.getElem?_eq_getElem hlen
      have hclass : cid = d.activities[a₀].classId := by
        have hrow := hshare a₀ ha₀ _ hact
        simpa [Act.rows] using hrow
      have hmade := hb.made _ (List.mem_of_getElem? hact)
      rw [← hclass] at hmade
      obtain ⟨row, hrow⟩ := Option.isSome_iff_exists.mp hmade
      have hfree : classFree g cid =
          ((List.range TOTAL_SLOTS).filter fun s => row s == .free).length := by
        simp [classFree, hrow]
      rw [hfree, ← range_filter_card]
      apply row_room hp (.lop cid) _ _ hshare
      intro a ha s hs
      have hc := covers_slotsOf hs (hshare a ha)
      refine Finset.mem_filter.mpr ⟨Finset.mem_range.mpr (hp.inGrid a _ hc), ?_⟩
      have hread := read_free hb hempty (hp.legal.allowed hc)
      simpa [Grids.read, hrow] using hread
    · have hnil : sharers d classShare cid = ∅ :=
        Finset.eq_empty_of_forall_notMem (not_exists.mp hsome)
      rw [hnil]
      exact Nat.zero_le _

theorem teacher_room (hb : Booked d base g) (hempty : g.actPlacement = fun _ => none)
    (hp : ConflictFree d base p) {t : κ}
    (hone : ∀ a ∈ Finset.range d.activities.length,
      share d teacherShare a t * d.periods a ≤ d.periods a) :
    (∑ a ∈ Finset.range d.activities.length,
        if (p a).isSome then share d teacherShare a t * d.periods a else 0) ≤
      teacherSlots d g t := by
  have hshare : ∀ a ∈ sharers d teacherShare t, ∀ act, d.activities[a]? = some act →
      t ∈ act.gv := by
    intro a ha act hact
    have hne := (Finset.mem_filter.mp ha).2
    rw [share, hact] at hne
    exact List.count_pos_iff.mp (Nat.pos_of_ne_zero hne)
  refine le_trans (shared_room hone) ?_
  rw [teacherSlots, ← range_filter_card]
  apply row_room hp (.gv t)
  · intro a ha act hact
    simp [Act.rows, hshare a ha act hact]
  · intro a ha s hs
    have hlen := Finset.mem_range.mp (Finset.mem_filter.mp ha).1
    have hact := List.getElem?_eq_getElem hlen
    have hmem := hshare a ha _ hact
    have hc : d.Covers p a (.gv t, s) := by
      apply covers_slotsOf hs
      intro act hact
      simp [Act.rows, hshare a ha act hact]
    have hcl : d.Covers p a (.lop d.activities[a].classId, s) :=
      covers_row hact (by simp [Act.rows]) hc
    have hread := read_free hb hempty (hp.legal.allowed hc)
    have hreadl := read_free hb hempty (hp.legal.allowed hcl)
    obtain ⟨row, hrow⟩ := Option.isSome_iff_exists.mp
      (hb.made _ (List.mem_of_getElem? hact))
    refine Finset.mem_filter.mpr ⟨Finset.mem_range.mpr (hp.inGrid a _ hc), ?_⟩
    rw [Bool.and_eq_true]
    constructor
    · cases hgv : g.rows (.gv t) with
      | none => rfl
      | some trow => simpa [Grids.read, hgv] using hread
    · apply List.any_eq_true.mpr
      refine ⟨d.activities[a], movable_of_slotsOf hs hact, ?_⟩
      simpa [Grids.read, hrow, hmem] using hreadl

/-- Both reports are lower bounds on the periods left out: the class report always,
the teacher report when no lesson is counted for two teachers that lack slots. -/
theorem capacity_lower_bounds (d : Desk κ) (blank : κ → Bool) (base : Row κ → Nat → Cell)
    (g : Grids κ) (hb : Booked d base g) (hempty : g.actPlacement = fun _ => none)
    (p : Nat → Option Nat) (hp : ConflictFree d base p) :
    (computeClassCapacityReport d blank g).deficit ≤ unplaced d p ∧
      (CountedOnce d g → (computeTeacherCapacityReport d g).deficit ≤ unplaced d p) := by
  constructor
  · rw [computeClassCapacityReport, capacityReport_deficit _ _ _ ((nodup_mapKeys _).filter _)]
    simp only [classNeed_eq]
    apply shortages_le
    · intro cid _ _
      exact class_room hb hempty hp cid
    · intro a _
      have hone : ∀ S : Finset κ, ∑ k ∈ S, share d classShare a k ≤ 1 := by
        intro S
        cases ha : d.activities[a]? with
        | none => simp [share, ha]
        | some act =>
          simp only [share, ha, classShare]
          rw [Finset.sum_ite_eq]
          by_cases hS : act.classId ∈ S
          · simp [hS]
          · simp [hS]
      exact le_trans (Nat.mul_le_mul_right _ (hone _)) (by simp)
  · intro honce
    rw [computeTeacherCapacityReport, capacityReport_deficit _ _ _ (nodup_mapKeys _)]
    simp only [teacherNeed_eq]
    -- a movable activity has at most one entry among the teachers that are short
    have hcount : ∀ a, ∀ S : Finset κ, (∀ k ∈ S, teacherSlots d g k < teacherNeed d k) →
        (∑ k ∈ S, share d teacherShare a k) * d.periods a ≤ d.periods a := by
      intro a S hS
      cases ha : d.activities[a]? with
      | none => simp [share, ha]
      | some act =>
        by_cases hf : act.isFixed
        · simp [periods_eq ha, hf]
        · have hmov : act ∈ d.movable :=
            List.mem_filter.mpr ⟨List.mem_of_getElem? ha, by simpa using hf⟩
          have hle : ∑ k ∈ S, share d teacherShare a k ≤ 1 := by
            simp only [share, ha, teacherShare]
            refine le_trans (sum_count_le S act.gv) (le_trans ?_ (honce act hmov))
            apply List.Sublist.length_le
            apply List.monotone_filter_right
            intro t ht
            exact decide_eq_true (hS t (of_decide_eq_true ht))
          exact le_trans (Nat.mul_le_mul_right _ hle) (by simp)
    apply shortages_le
    · intro t _ hshort
      apply teacher_room hb hempty hp
      intro a _
      have hsingle := hcount a {t} (by
        intro k hk
        rw [Finset.mem_singleton.mp hk, teacherNeed_eq]
        exact hshort)
      rwa [Finset.sum_singleton] at hsingle
    · intro a _
      apply hcount a
      intro k hk
      rw [teacherNeed_eq]
      exact (Finset.mem_filter.mp hk).2

end Bounds

section CoTaught

/-- One lesson of two teachers who are off all week. -/
def coTaughtDesk : Desk Nat where
  activities := [⟨0, 10, 10, [1, 2], none, none, 1, false⟩]
  offSlots := fun _ _ => false
  fixedSlots := fun _ _ => none
  teacherOffSlots := fun _ _ => true
  roomOffSlots := fun _ _ => false
  subjectOffSlots := fun _ _ => false
  normalizeMonName := fun m => m
  getCanonMonKey := fun m => m
  getSubjectSessionLimit := fun _ => 2
  draw := fun _ => 0
  late := fun _ => false

def coTaughtBase : Row Nat → Nat → Cell
  | .lop _, _ => .free
  | .gv _, _ => .off
  | .phong _, _ => .free

def notPhong : Row κ → Bool
  | .phong _ => false
  | _ => true

theorem coTaught_booked :
    Booked coTaughtDesk coTaughtBase (emptyGrids coTaughtBase notPhong) := by
  apply emptyGrids_booked
  · intro act _
    rfl
  · intro r hr s
    cases r with
    | lop c => cases hr
    | gv t => cases hr
    | phong k => rfl

theorem nothing_conflictFree (d : Desk κ) (base : Row κ → Nat → Cell) :
    ConflictFree d base fun _ => none where
  legal := by
    constructor
    · rintro a b x ⟨s, hs, _⟩
      cases hs
    · rintro a x ⟨s, hs, _⟩
      cases hs
  inGrid := by
    rintro a x ⟨s, hs, _⟩
    cases hs

/-- The one period left out is reported as two. -/
theorem coTaught_counted_twice :
    Ground coTaughtDesk coTaughtBase ∧
      Booked coTaughtDesk coTaughtBase (emptyGrids coTaughtBase notPhong) ∧
      ConflictFree coTaughtDesk coTaughtBase (fun _ => none) ∧
      unplaced coTaughtDesk (fun _ => none) = 1 ∧
      (computeTeacherCapacityReport coTaughtDesk (emptyGrids coTaughtBase notPhong)).deficit = 2 := by
  refine ⟨⟨fun _ _ => rfl, ?_⟩, coTaught_booked, nothing_conflictFree _ _, by decide +kernel,
    by decide +kernel⟩
  intro r s a
  cases r with
  | lop c => simp [coTaughtBase]
  | gv t => simp [coTaughtBase]
  | phong k => simp [coTaughtBase]

theorem tight_capacity :
    (computeClassCapacityReport tightDesk (fun _ => false)
      (emptyGrids (plainBase tightDesk) isLop)).deficit ≤ unplaced tightDesk (fun _ => none) ∧
    (computeTeacherCapacityReport tightDesk
      (emptyGrids (plainBase tightDesk) isLop)).deficit ≤ unplaced tightDesk (fun _ => none) :=
  have h := capacity_lower_bounds tightDesk (fun _ => false) (plainBase tightDesk)
    (emptyGrids (plainBase tightDesk) isLop) tight_empty_booked rfl (fun _ => none)
    (nothing_conflictFree _ _)
  ⟨h.1, h.2 (by decide +kernel)⟩

end CoTaught

end TkbCherry.Fet
