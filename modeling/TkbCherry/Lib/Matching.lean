import Mathlib

/-!
# Bipartite matching by augmenting search

`search` looks for an augmenting path from a unit by depth-first search over its slots, and `matchAll`
runs it for one unit after another. A unit whose search fails leaves behind a closed set of slots: all
of them are taken, by units that have no slot outside the set. No later path enters a closed set, so
the failed units are as few as possible.
-/

namespace Matching

set_option autoImplicit false
set_option linter.unusedSectionVars false

variable {U S : Type} [DecidableEq S]

/-- Who holds a slot. -/
abbrev Holder (U S : Type) := S → Option U

structure Found (U S : Type) where
  ok : Bool
  seen : List S
  held : Holder U S

/-- The loop over the slots of a unit; `retry` looks for another slot for a holder. -/
def scan (retry : U → List S → Holder U S → Found U S) (u : U) :
    List S → List S → Holder U S → Found U S
  | [], seen, held => ⟨false, seen, held⟩
  | s :: rest, seen, held =>
    if s ∈ seen then scan retry u rest seen held
    else
      match held s with
      | none => ⟨true, s :: seen, Function.update held s (some u)⟩
      | some v =>
        let r := retry v (s :: seen) held
        if r.ok then ⟨true, r.seen, Function.update r.held s (some u)⟩
        else scan retry u rest r.seen r.held

section Scan
variable {retry : U → List S → Holder U S → Found U S} {u : U} {s : S} {rest seen : List S}
  {held : Holder U S}

end Scan

/-- The search for a unit; the fuel bounds its depth. -/
def search (adj : U → List S) : Nat → U → List S → Holder U S → Found U S
  | 0, _, seen, held => ⟨false, seen, held⟩
  | fuel + 1, u, seen, held => scan (search adj fuel) u (adj u) seen held

/-- One search for each unit, with the units that found no slot. -/
def matchAll (adj : U → List S) (fuel : Nat) : List U → Holder U S → Holder U S × List U
  | [], held => (held, [])
  | u :: rest, held =>
    let r := search adj fuel u [] held
    if r.ok then matchAll adj fuel rest r.held
    else ((matchAll adj fuel rest r.held).1, u :: (matchAll adj fuel rest r.held).2)

/-! ### Closed sets -/

/-- Taken slots whose holders have no slot outside them. -/
def Closed (adj : U → List S) (held : Holder U S) (R : Finset S) : Prop :=
  ∀ s ∈ R, ∃ v, held s = some v ∧ ∀ x ∈ adj v, x ∈ R

/-- Every holder may use its slot. -/
def Valid (adj : U → List S) (held : Holder U S) : Prop :=
  ∀ s v, held s = some v → s ∈ adj v

/-- The number of slots of a unit. -/
def holds [Fintype S] [DecidableEq U] (held : Holder U S) (w : U) : Nat :=
  (Finset.univ.filter fun s => held s = some w).card

variable {adj : U → List S}

section Search
variable [Fintype S] [DecidableEq U]

/-- A successful search gives its unit one more slot and every other unit none, and leaves alone the
seen slots and every closed set. -/
structure Augments (adj : U → List S) (u : U) (seen : List S) (held held' : Holder U S) : Prop where
  valid : Valid adj held'
  kept : ∀ s ∈ seen, held' s = held s
  closed : ∀ R, Closed adj held R → ∀ s ∈ R, held' s = held s
  gained : ∀ w, holds held' w = holds held w + if u = w then 1 else 0

/-- A failed search has seen the slots of its unit, and the new slots it saw are taken by units whose
slots it saw. -/
structure Exhausts (adj : U → List S) (slots seen : List S) (held : Holder U S) (r : Found U S) :
    Prop where
  same : r.held = held
  grows : ∀ s ∈ seen, s ∈ r.seen
  slots : ∀ s ∈ slots, s ∈ r.seen
  taken : ∀ s ∈ r.seen, s ∈ seen ∨ ∃ v, held s = some v ∧ ∀ x ∈ adj v, x ∈ r.seen

/-- What is asked of the search for one unit. -/
structure Outcome (adj : U → List S) (u : U) (slots seen : List S) (held : Holder U S)
    (r : Found U S) : Prop where
  success : r.ok = true → Augments adj u seen held r.held
  failure : r.ok = false → Exhausts adj slots seen held r

/-- What is known after some units are matched and the units `failed` are not. -/
structure Matched (adj : U → List S) (units failed : List U) (held : Holder U S) (R : Finset S) :
    Prop where
  valid : Valid adj held
  closed : Closed adj held R
  stuck : ∀ u ∈ failed, ∀ s ∈ adj u, s ∈ R
  holds : ∀ w, holds held w = if w ∈ units ∧ w ∉ failed then 1 else 0

/-- The slots seen by a failed search are closed. -/
theorem Exhausts.closed {u : U} {held : Holder U S} {r : Found U S}
    (h : Exhausts adj (adj u) [] held r) : Closed adj held r.seen.toFinset := by
  intro s hs
  rcases h.taken s (List.mem_toFinset.mp hs) with hin | ⟨v, hv, hadj⟩
  · exact absurd hin List.not_mem_nil
  · exact ⟨v, hv, fun x hx => List.mem_toFinset.mpr (hadj x hx)⟩

/-- The units that have not failed can be matched at once. -/
theorem Matched.slots {units failed : List U} {held : Holder U S} {R : Finset S}
    (h : Matched adj units failed held R) :
    ∀ u, u ∈ units → u ∉ failed → ∃ s ∈ adj u, held s = some u := by
  intro u hu hf
  have hone := h.holds u
  rw [if_pos ⟨hu, hf⟩] at hone
  have hpos : 0 < (Finset.univ.filter fun s => held s = some u).card := by
    rw [Matching.holds] at hone
    omega
  obtain ⟨s, hs⟩ := Finset.card_pos.mp hpos
  have hheld := (Finset.mem_filter.mp hs).2
  exact ⟨s, h.valid s u hheld, hheld⟩

end Search

end Matching
