import TkbCherry.Engine.TimeLimits

/-!
# The focus gate

`_focus_gate` decides between the result of a one-target run, the best candidate met on
the way and the grid the run started from. Metrics are listed by priority: sessions of one
lesson, gaps of two or more, sessions, gaps of one.
-/

namespace TkbCherry.Engine

set_option autoImplicit false

/-- A requested target; `other` is any text outside `_FOCUS_INDEX`. -/
inductive Focus where
  | singletons
  | gap2
  | sessions
  | gap1
  | other (name : String)
deriving DecidableEq

namespace Focus

/-- `_FOCUS_INDEX` and `FOCUS_METRIC_INDEX`. -/
def index : Focus → Option Nat
  | singletons => some 0
  | gap2 => some 1
  | sessions => some 2
  | gap1 => some 3
  | other _ => none

end Focus

/-- `_gap1_session_slack` on the text of `TKB_GAP1_SESSION_SLACK`. -/
def gap1SessionSlack (env : Option String) : Int :=
  match env.getD "0" with
  | "" => 0
  | text => max 0 ((parseInt text).getD 0)

theorem gap1SessionSlack_nonneg (env : Option String) : 0 ≤ gap1SessionSlack env := by
  unfold gap1SessionSlack
  split <;> omega

/-- How far metric `i` may rise when `gained` more lessons are handled. -/
def focusSlack (focus : Focus) (env : Option String) (gained : Int) (i : Nat) : Int :=
  (if i = 2 then max 0 gained else 0) +
    if i = 2 ∧ focus = .gap1 then gap1SessionSlack env else 0

/-- Rows of assignment numbers, `-1` for a free cell. -/
abbrev RawGrid := List (List Int)

structure FocusCandidate where
  grid : RawGrid
  quality : List Int
  placed : Int

/-- The part of the run's `info` that the gate reads or writes. -/
structure FocusInfo where
  warmQuality : Option (List Int)
  warmPlaced : Option Int
  warmGrid : Option RawGrid
  warmLocationDebt : Option Int
  focusAborted : Option String
  focusCandidate : Option FocusCandidate
  /-- the reasons and the quality of a fallback -/
  focusFallback : Option (List String × List Int)
  focusNoGain : Option String
  qualityEjected : List String

structure FocusResult where
  grid : RawGrid
  placed : Int
  objective : List Int
  qualityEjected : Int
  locationDebt : Int
  info : FocusInfo

/-- `focus_candidate_acceptable`. -/
def focusCandidateAcceptable (focus : Focus) (env : Option String) (startQ : List Int)
    (startPlaced : Int) (quality : List Int) (placed : Int) : Bool :=
  match focus.index with
  | none => false
  | some idx =>
    if startQ.length < 4 ∨ quality.length < 4 then false
    else if placed < startPlaced then false
    else
      (List.range idx).all (fun i => decide (quality.getD i 0 ≤
        startQ.getD i 0 + focusSlack focus env (placed - startPlaced) i)) &&
      decide (quality.getD idx 0 < startQ.getD idx 0)

def dropText (text : String) (n : Nat) : String := String.ofList (text.toList.drop n)

/-- The candidate of `info` that stands in for a rejected result. -/
def focusFallback (focus : Focus) (env : Option String) (startQ : List Int) (startPlaced : Int)
    (info : FocusInfo) : Option FocusCandidate :=
  info.focusCandidate.filter fun cand => !cand.grid.isEmpty &&
    focusCandidateAcceptable focus env startQ startPlaced cand.quality cand.placed

section Gate
variable {focus : Focus} {env : Option String} {idx : Nat} {startQ : List Int} {startPlaced : Int}

end Gate

end TkbCherry.Engine
