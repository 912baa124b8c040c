import TkbCherry.Engine.PenaltyRuns
import TkbCherry.Engine.Tiling
import TkbCherry.Lib.Placing

/-!
# The moves of a run

A run is the lessons of one subject next to each other in a session of a class. `_candidate_swaps`
lists the windows of its length that it can change places with, and the sets of two or three whole
runs that fill such a window, each with the change of the penalty.
-/

namespace TkbCherry.Engine

set_option autoImplicit false

open Filling

/-- `list(permutations(range(n)))` applied to a list, `n` its length. -/
def orders {α : Type} : Nat → List α → List (List α)
  | 0, _ => [[]]
  | n + 1, l => (List.range l.length).flatMap fun i =>
    (l[i]?).elim [] fun x => (orders n (l.eraseIdx i)).map fun rest => x :: rest

/-- A cell of the class and what it is to hold. -/
abbrev RowChange (P : Problem) := Slot × Option P.Asg

namespace Problem
variable {P : Problem}

/-- The slots of `_run_window` -/
def runSlots (row : Slot → Option P.Asg) (slot : Slot) : List Slot :=
  (row slot).elim [] fun ai =>
    let run := SoftSchedule.runWindow row (sessionOfSlot slot) (periodOfSlot slot) (P.aSubject ai)
    SoftSchedule.window (sessionOfSlot slot) run.1 run.2

/-- The session has a lesson of the subject at another slot than those. -/
def subjectOutside (row : Slot → Option P.Asg) (s : Session) (si : P.Sub) (slots : List Slot) : Bool :=
  allPeriods.any fun p => decide ((row (slotAt s p)).map P.aSubject = some si) &&
    decide (slotAt s p ∉ slots)

/-- The row with a window exchanged for a run. -/
def swapRow (row : Slot → Option P.Asg) (ai : P.Asg) (run : List Slot) (other : Option P.Asg)
    (window : List Slot) : Slot → Option P.Asg :=
  let row := fill (fill row run none) window (some ai)
  if other.isSome then fill row run other else row

/-- `_class_side_ok_after` -/
def classSideOkAfter (grid : P.Grid) (c : P.Cls) (ai : P.Asg) (run : List Slot)
    (other : Option P.Asg) (window : List Slot) : Bool :=
  let grid := Function.update grid c (swapRow (grid c) ai run other window)
  (run.head?.any fun x => (P.checkClassSession grid c (sessionOfSlot x)).isNone) &&
    (window.head?.any fun x => (P.checkClassSession grid c (sessionOfSlot x)).isNone) &&
    (P.checkClassSubjectWeek grid c (P.aSubject ai) (some ai) false).isNone &&
    (other.all fun o => (P.checkClassSubjectWeek grid c (P.aSubject o) (some o) false).isNone) &&
    (run.head?.any fun x => (P.checkClassDay grid c (dayOf (sessionOfSlot x))).isNone) &&
    (window.head?.any fun x => (P.checkClassDay grid c (dayOf (sessionOfSlot x))).isNone)

/-! ### Exchanges with several runs -/

/-- The whole runs that cover a window; `none` when one sticks out. -/
def coverRuns (row : Slot → Option P.Asg) (last : Option Slot) :
    Nat → List Slot → Option (List (P.Asg × List Slot))
  | _, [] => some []
  | 0, _ :: _ => none
  | fuel + 1, x :: rest =>
    let run := runSlots row x
    if run.head? ≠ some x ∨ (run.getLast?.any fun y => last.any fun z => decide (z < y)) = true then none
    else (row x).bind fun v =>
      (coverRuns row last fuel ((x :: rest).drop run.length)).map fun victims => (v, run) :: victims

/-- The runs one after the other on the cells that become free. -/
def victimTargets : List Slot → List (P.Asg × List Slot) → List (P.Asg × List Slot)
  | _, [] => []
  | cells, (v, run) :: rest =>
    (v, cells.take run.length) :: victimTargets (cells.drop run.length) rest

/-- `seen` of one order of the victims. -/
def exchangeChanges (ai : P.Asg) (run window : List Slot) (targets : List (P.Asg × List Slot)) :
    List (RowChange P) :=
  Placing.lastWrites ((run.map fun x => (x, none)) ++
    (targets.flatMap fun e => e.2.map fun x => (x, some e.1)) ++
    window.map fun x => (x, some ai))

/-- The tentative class-side check of an exchange. -/
def exchangeValid (grid : P.Grid) (c : P.Cls) (ai : P.Asg) (s s2 : Session)
    (victims : List (P.Asg × List Slot)) (seen : List (RowChange P)) : Bool :=
  let grid := Function.update grid c (Placing.place Prod.fst Prod.snd (grid c) seen)
  (P.checkClassSession grid c s).isNone && (P.checkClassSession grid c s2).isNone &&
    (P.checkClassSubjectWeek grid c (P.aSubject ai) (some ai) false).isNone &&
    (victims.all fun e =>
      (P.checkClassSubjectWeek grid c (P.aSubject e.1) (some e.1) false).isNone) &&
    (P.checkClassDay grid c (dayOf s)).isNone && (P.checkClassDay grid c (dayOf s2)).isNone

/-- The orders of the victims that may stand on the cells of the run. -/
def exchangesOf (grid : P.Grid) (c : P.Cls) (ai : P.Asg) (run : List Slot) (s s2 : Session)
    (window : List Slot) (victims : List (P.Asg × List Slot)) : List (List (RowChange P)) :=
  ((orders victims.length victims).take 6).filterMap fun order =>
    let targets := victimTargets run order
    if targets.all fun e => (e.2.all fun x => P.aAllowed e.1 x) &&
        (decide (s2 = s) || !subjectOutside (grid c) s (P.aSubject e.1) run) then
      let seen := exchangeChanges ai run window targets
      if exchangeValid grid c ai s s2 victims seen then some seen else none
    else none

/-- The body of the loops over the sessions and starts. -/
def exchangesAt (grid : P.Grid) (locked : P.Cls → Slot → Bool) (c : P.Cls) (ai : P.Asg)
    (run : List Slot) (s : Session) (e : Session × Nat) : List (List (RowChange P) × Slot) :=
  let row := grid c
  let window := SoftSchedule.window e.1 e.2 run.length
  if !decide (e.1 = s) && SoftSchedule.hasSubject row e.1 (P.aSubject ai) then []
  else if decide (e.1 = s) && window.any (fun x => decide (x ∈ run)) then []
  else if window.any (locked c) || window.any (fun x => (row x).isNone) then []
  else match coverRuns row window.getLast? run.length window with
    | none => []
    | some victims =>
      if victims.length < 2 ∨ 3 < victims.length then []
      else if victims.any fun v => decide (P.aSubject v.1 = P.aSubject ai) then []
      else if window.all fun x => P.aAllowed ai x then
        window.head?.elim [] fun start =>
          (exchangesOf grid c ai run s e.1 window victims).map fun seen => (seen, start)
      else []

/-- `_enum_multi_exchanges` with `cap`, its other arguments left at their defaults. -/
def enumMultiExchanges (grid : P.Grid) (locked : P.Cls → Slot → Bool) (c : P.Cls) (run : List Slot)
    (cap : Nat) : List (List (RowChange P) × Slot) :=
  if run.length < 2 then []
  else run.head?.elim [] fun x => (grid c x).elim [] fun ai =>
    ((SoftSchedule.windowStarts run.length).flatMap
      (exchangesAt grid locked c ai run (sessionOfSlot x))).take cap

end Problem

/-! ### Measured moves -/

/-- The change of the overlap at a slot where the teachers of one lesson leave and others enter. -/
def SoftSchedule.exchangeDelta {P : Problem} (k : SoftSchedule P) (leaving entering : List P.Tch)
    (slot : Slot) : Int :=
  (leaving.map fun t => if k.tcnt t slot > 1 then (-1 : Int) else 0).sum +
    (entering.map fun t =>
      if k.tcnt t slot - (if t ∈ leaving then 1 else 0) ≥ 1 then (1 : Int) else 0).sum

/-- `_swap_delta` -/
def SoftSchedule.swapDelta {P : Problem} (k : SoftSchedule P) (ai : P.Asg) (run : List Slot)
    (other : Option P.Asg) (window : List Slot) : Int :=
  (run.map (k.exchangeDelta (P.aTeachers ai) (P.members other))).sum +
    (window.map (k.exchangeDelta (P.members other) (P.aTeachers ai))).sum

/-- The changes of a swap. -/
def swapChanges {P : Problem} (ai : P.Asg) (run : List Slot) (other : Option P.Asg)
    (window : List Slot) : List (RowChange P) :=
  (run.map fun x => (x, none)) ++ (window.map fun x => (x, some ai)) ++
    if other.isSome then run.map fun x => (x, other) else []

namespace RuledSchedule
variable {P : Problem}

/-- The loop of `_apply_changes` over the cells: the schedule, the inverse and the teachers touched. -/
def writeCells (c : P.Cls) :
    List (RowChange P) → RuledSchedule P → RuledSchedule P × List (RowChange P) × Finset P.Tch
  | [], k => (k, [], ∅)
  | e :: rest, k =>
    let old := k.grid c e.1
    let r := writeCells c rest (k.setCell c e.1 e.2)
    (r.1, (e.1, old) :: r.2.1, P.touched old e.2 ∪ r.2.2)

/-- `_apply_changes`; the order of the set makes no difference. -/
def applyChanges (k : RuledSchedule P) (c : P.Cls) (changes : List (RowChange P)) :
    RuledSchedule P × List (RowChange P) :=
  let r := writeCells c (Placing.lastWrites changes) k
  ((P.allTeachers.filter fun t => decide (t ∈ r.2.2) && P.hasRules t).foldl refreshRulePen r.1, r.2.1)

/-- A change of the penalty, the changes and the first slot of the window. -/
abbrev Move (P : Problem) := Int × List (RowChange P) × Slot

/-- The other assignment of the window, when the window can be exchanged for the run. -/
def swapPartner (grid : P.Grid) (locked : P.Cls → Slot → Bool) (c : P.Cls) (ai : P.Asg)
    (run : List Slot) (s : Session) (e : Session × Nat) : Option (Option P.Asg) :=
  let row := grid c
  let window := SoftSchedule.window e.1 e.2 run.length
  if window.head? = run.head? ∨ window.any (locked c) = true then none
  else
    let partner := match (window.filterMap row).eraseDups with
      | [] => some none
      | [other] =>
        let otherRun := Problem.runSlots row
          (if (window.head?.bind row).isSome then window.head?.getD 0 else window.getLast?.getD 0)
        if ¬ otherRun.Perm window then none
        else if P.aSubject other = P.aSubject ai then none
        else if e.1 ≠ s ∧ Problem.subjectOutside row s (P.aSubject other) run = true then none
        else if run.all fun x => P.aAllowed other x then some (some other) else none
      | _ => none
    partner.filter fun other =>
      !(!decide (e.1 = s) && Problem.subjectOutside row e.1 (P.aSubject ai) window) &&
        (window.all fun x => P.aAllowed ai x) &&
        Problem.classSideOkAfter grid c ai run other window

/-- The body of the loop over the shuffled windows. -/
def swapMove (locked : P.Cls → Slot → Bool) (c : P.Cls) (ai : P.Asg) (run : List Slot) (s : Session)
    (r : RuledSchedule P × List (Move P)) (e : Session × Nat) : RuledSchedule P × List (Move P) :=
  match swapPartner r.1.grid locked c ai run s e with
  | none => r
  | some other =>
    let window := SoftSchedule.window e.1 e.2 run.length
    let delta := r.1.swapDelta ai run other window
    let changes := swapChanges ai run other window
    if (P.aTeachers ai).any P.hasRules || (P.members other).any P.hasRules then
      let applied := r.1.applyChanges c changes
      let back := (applied.1.applyChanges c applied.2).1
      (back, r.2 ++ [(delta + (applied.1.rulePenTotal - r.1.rulePenTotal), changes,
        window.head?.getD 0)])
    else (r.1, r.2 ++ [(delta, changes, window.head?.getD 0)])

/-- The body of the loop over the exchanges. -/
def exchangeMove (c : P.Cls) (r : RuledSchedule P × List (Move P)) (e : List (RowChange P) × Slot) :
    RuledSchedule P × List (Move P) :=
  let applied := r.1.applyChanges c e.1
  let back := (applied.1.applyChanges c applied.2).1
  (back, r.2 ++ [(applied.1.overlap + applied.1.rulePenTotal - back.overlap - back.rulePenTotal,
    e.1, e.2)])

/-- `_candidate_swaps`; `starts` is the list of windows after `rng.shuffle`. -/
def candidateSwaps (k : RuledSchedule P) (locked : P.Cls → Slot → Bool) (c : P.Cls) (run : List Slot)
    (starts : List (Session × Nat)) : RuledSchedule P × List (Move P) :=
  run.head?.elim (k, []) fun x => (k.grid c x).elim (k, []) fun ai =>
    let swaps := starts.foldl (swapMove locked c ai run (sessionOfSlot x)) (k, [])
    let moves := (Problem.enumMultiExchanges swaps.1.grid locked c run 8).foldl (exchangeMove c) swaps
    (moves.1, moves.2.insertionSort fun a b => a.1 ≤ b.1)

end RuledSchedule

end TkbCherry.Engine
