import Mathlib
import TkbCherry.Lib.AssocList

/-!
# JSON values

Objects are association lists, so a document keeps the order of its keys. Numbers
are integers, or the source text of a number that is not one.
-/

set_option autoImplicit false

inductive Json where
  | null
  | bool (b : Bool)
  | int (n : Int)
  | float (text : String)
  | str (s : String)
  | arr (items : List Json)
  | obj (fields : List (String × Json))
deriving Repr, Inhabited

namespace Json

def asObject : Json → Option (List (String × Json))
  | .obj fields => some fields
  | _ => none

def asArray : Json → Option (List Json)
  | .arr items => some items
  | _ => none

def asStr : Json → Option String
  | .str s => some s
  | _ => none

def asBool : Json → Option Bool
  | .bool b => some b
  | _ => none

/-- A number that fits an unsigned 64-bit integer. -/
def asU64 : Json → Option Nat
  | .int n => if 0 ≤ n ∧ n < 2 ^ 64 then some n.toNat else none
  | _ => none

theorem asU64_natCast {n : Nat} (h : n < 2 ^ 64) : asU64 (.int n) = some n := by
  have hint : (n : Int) < 2 ^ 64 := by exact_mod_cast h
  simp only [asU64]
  rw [if_pos ⟨Int.natCast_nonneg n, hint⟩, Int.toNat_natCast]

/-- The value under a key; `none` when the value is no object or lacks the key. -/
def get? (v : Json) (key : String) : Option Json :=
  v.asObject.bind (List.lookup key)

@[simp] theorem get?_obj (fields : List (String × Json)) (key : String) :
    (Json.obj fields).get? key = List.lookup key fields := rfl

/-- Change the value under a key of an object, if there is one. -/
def update (key : String) (f : Json → Json) : Json → Json
  | .obj fields => .obj (AssocList.modify key f fields)
  | v => v

theorem get?_update (key : String) (f : Json → Json) (v : Json) (other : String) :
    (v.update key f).get? other = if other = key then (v.get? key).map f else v.get? other := by
  cases v with
  | obj fields => exact AssocList.lookup_modify key f fields other
  | _ => simp [update, get?, asObject]

theorem get?_update_ne {key other : String} (h : other ≠ key) (f : Json → Json) (v : Json) :
    (v.update key f).get? other = v.get? other := by
  rw [get?_update, if_neg h]

@[simp] theorem get?_update_self (key : String) (f : Json → Json) (v : Json) :
    (v.update key f).get? key = (v.get? key).map f := by
  rw [get?_update, if_pos rfl]

/-- An object stays one and a value of another kind stays as it is, and outside the listed keys
the two agree. -/
structure SameOutside (keys : List String) (v v' : Json) : Prop where
  object : v'.asObject.isSome = v.asObject.isSome
  other : v.asObject = none → v' = v
  get : ∀ key, key ∉ keys → v'.get? key = v.get? key

namespace SameOutside
variable {keys keys' : List String} {v v' v'' : Json}

theorem refl (keys : List String) (v : Json) : SameOutside keys v v := ⟨rfl, fun _ => rfl, fun _ _ => rfl⟩

theorem trans (h : SameOutside keys v v') (h' : SameOutside keys v' v'') :
    SameOutside keys v v'' where
  object := h'.object.trans h.object
  other := by
    intro hv
    obtain rfl := h.other hv
    exact h'.other hv
  get := fun key hk => (h'.get key hk).trans (h.get key hk)

theorem symm (h : SameOutside keys v v') : SameOutside keys v' v where
  object := h.object.symm
  other := by
    intro hv
    have hnone : v.asObject = none := by
      have hobject := h.object
      rw [hv] at hobject
      exact Option.isNone_iff_eq_none.mp (by simpa using hobject)
    exact (h.other hnone).symm
  get := fun key hk => (h.get key hk).symm

theorem mono (h : SameOutside keys v v') (hk : keys ⊆ keys') : SameOutside keys' v v' :=
  ⟨h.object, h.other, fun key hnot => h.get key fun hin => hnot (hk hin)⟩

/-- A change of the fields that only touches the listed ones. -/
theorem of_fields {fields fields' : List (String × Json)}
    (h : ∀ key, key ∉ keys → List.lookup key fields' = List.lookup key fields) :
    SameOutside keys (.obj fields) (.obj fields') :=
  ⟨rfl, fun hv => by simp [asObject] at hv, h⟩

theorem update (key : String) (f : Json → Json) (v : Json) :
    SameOutside [key] v (v.update key f) := by
  cases v with
  | obj fields =>
    refine of_fields fun other hother => ?_
    rw [AssocList.lookup_modify, if_neg (by simpa using hother)]
  | _ => exact refl _ _

end SameOutside

/-! ### Ordered documents -/

mutual

/-- Every object in the value is ordered by its keys. -/
def ordered : Json → Bool
  | .obj fields => decide (AssocList.Sorted fields) && orderedFields fields
  | .arr items => orderedItems items
  | _ => true

def orderedItems : List Json → Bool
  | [] => true
  | v :: rest => ordered v && orderedItems rest

def orderedFields : List (String × Json) → Bool
  | [] => true
  | (_, v) :: rest => ordered v && orderedFields rest

end

/-- The fields of an ordered object. -/
structure Ordered (fields : List (String × Json)) : Prop where
  sorted : AssocList.Sorted fields
  values : ∀ e ∈ fields, e.2.ordered = true

theorem orderedFields_iff (fields : List (String × Json)) :
    orderedFields fields = true ↔ ∀ e ∈ fields, e.2.ordered = true := by
  induction fields with
  | nil => simp [orderedFields]
  | cons e rest ih =>
    obtain ⟨key, v⟩ := e
    rw [orderedFields, Bool.and_eq_true, ih, List.forall_mem_cons]

theorem ordered_obj (fields : List (String × Json)) :
    (Json.obj fields).ordered = true ↔ Ordered fields := by
  rw [ordered, Bool.and_eq_true, decide_eq_true_eq, orderedFields_iff]
  exact ⟨fun h => ⟨h.1, h.2⟩, fun h => ⟨h.sorted, h.values⟩⟩

namespace Ordered
variable {fields : List (String × Json)}

theorem nil : Ordered [] := ⟨.nil, by simp⟩

theorem lookup (h : Ordered fields) {key : String} {v : Json}
    (hl : List.lookup key fields = some v) : v.ordered = true :=
  h.values _ (AssocList.mem_of_lookup hl)

theorem filter (h : Ordered fields) (p : String × Json → Bool) : Ordered (fields.filter p) :=
  ⟨h.sorted.filter p, fun e he => h.values e (List.mem_of_mem_filter he)⟩

theorem unset (h : Ordered fields) (key : String) : Ordered (AssocList.unset key fields) :=
  h.filter _

theorem assign (h : Ordered fields) (key : String) {v : Json} (hv : v.ordered = true) :
    Ordered (AssocList.assign key v fields) where
  sorted := h.sorted.assign key v
  values := by
    intro e he
    rcases AssocList.mem_assign he with rfl | he
    · exact hv
    · exact h.values e he

theorem modify (h : Ordered fields) (key : String) {f : Json → Json}
    (hf : ∀ v, v.ordered = true → (f v).ordered = true) :
    Ordered (AssocList.modify key f fields) where
  sorted := h.sorted.modify key f
  values := by
    intro e he
    obtain ⟨x, hx, rfl⟩ := List.mem_map.mp he
    split
    · exact hf _ (h.values x hx)
    · exact h.values x hx

end Ordered

theorem ordered_get? {v w : Json} (h : v.ordered = true) {key : String} (hg : v.get? key = some w) :
    w.ordered = true := by
  cases v with
  | obj fields => exact ((ordered_obj fields).mp h).lookup hg
  | _ => simp [get?, asObject] at hg

theorem ordered_update {v : Json} (h : v.ordered = true) (key : String) {f : Json → Json}
    (hf : ∀ w, w.ordered = true → (f w).ordered = true) : (v.update key f).ordered = true := by
  cases v with
  | obj fields => exact (ordered_obj _).mpr (((ordered_obj fields).mp h).modify key hf)
  | _ => exact h

/-- Ordered objects with the same fields are the same value. -/
theorem ordered_ext {v w : Json} (hv : v.ordered = true) (hw : w.ordered = true)
    (hvo : v.asObject.isSome = true) (hwo : w.asObject.isSome = true)
    (h : ∀ key, v.get? key = w.get? key) : v = w := by
  obtain ⟨fields, hfields⟩ := Option.isSome_iff_exists.mp hvo
  obtain ⟨fields', hfields'⟩ := Option.isSome_iff_exists.mp hwo
  cases v with
  | obj _ =>
    cases w with
    | obj _ =>
      have hsorted := ((ordered_obj _).mp hv).sorted
      exact congrArg Json.obj (hsorted.ext ((ordered_obj _).mp hw).sorted h)
    | _ => simp [asObject] at hfields'
  | _ => simp [asObject] at hfields

/-- A document as the program holds one: maps keep their keys in order. -/
abbrev Document := {v : Json // v.ordered = true}

end Json
