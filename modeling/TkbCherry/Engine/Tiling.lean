import TkbCherry.Engine.Checks
import TkbCherry.Engine.SoftSchedule
import TkbCherry.Lib.Filling

/-!
# The tiling of the classes

`_phase1` writes the fixed cells, cuts the other periods of every assignment into blocks, places the
blocks of the teachers with little slack first, and fills the classes one after the other by a
randomized backtracking search. A class that cannot be filled around its first blocks is cleared and
filled again from a list of blocks read off its row. Scores are exact fractions.
-/

namespace TkbCherry.Engine

set_option autoImplicit false

open Filling

/-- The values of `rng.random()` that are still to come. -/
abbrev Rng := Nat → Rat

namespace Rng

def next (rng : Rng) : Rng := fun n => rng (n + 1)

/-- One value for every item, and the values after them. -/
def tag {α : Type} (rng : Rng) (l : List α) : List (α × Rat) × Rng :=
  (l.zipIdx.map fun e => (e.1, rng e.2), fun n => rng (n + l.length))

end Rng

/-! ### Block sizes -/

/-- `while r > 0`: what is taken off a rest, until nothing is left; `none` when the loop does not
end. -/
def splitBlocks (take : Nat → Rng → Nat × Rng) : Nat → Nat → Rng → Option (List Nat × Rng)
  | _, 0, rng => some ([], rng)
  | 0, _ + 1, _ => none
  | fuel + 1, r + 1, rng =>
    (splitBlocks take fuel (r + 1 - (take (r + 1) rng).1) (take (r + 1) rng).2).map fun e =>
      ((take (r + 1) rng).1 :: e.1, e.2)

/-- `min(cap, r)`. -/
def takeCap (cap : Int) (r : Nat) (rng : Rng) : Nat × Rng := (min cap.toNat r, rng)

/-- Blocks of two, and for a rest of three one of three half of the time. -/
def takeAlt (cap : Int) (r : Nat) (rng : Rng) : Nat × Rng :=
  if r ≠ 3 then (min (min 2 r) (min cap.toNat r), rng)
  else (min (if rng 0 < 1 / 2 then min 2 r else 3) (min cap.toNat r), rng.next)

/-- Two blocks of one become a block of two, where a double is needed and there is none. -/
def doubled (needDouble : Bool) (residual : Nat) (sizes : List Nat) : List Nat :=
  if needDouble && !sizes.isEmpty && sizes.all (· < 2) && decide (2 ≤ residual) then
    (sizes.erase 1).erase 1 ++ [2]
  else sizes

/-- `_block_sizes`. -/
def blockSizes (residual : Nat) (cap : Int) (needDouble : Bool) (rng : Rng) :
    Option (List Nat × Rng) :=
  (splitBlocks (takeCap cap) residual residual rng).bind fun e =>
    let sizes := if 2 ≤ cap then doubled needDouble residual e.1 else e.1
    if e.2 0 < 35 / 100 ∧ 2 ≤ cap then
      (splitBlocks (takeAlt cap) residual residual e.2.next).map fun e =>
        ((doubled needDouble residual e.1).insertionSort (· ≥ ·), e.2)
    else some (sizes.insertionSort (· ≥ ·), e.2.next)

namespace SoftSchedule
variable {P : Problem}

/-! ### Scores -/

/-- `busy`. -/
def busy (k : SoftSchedule P) (ai : P.Asg) (slot : Slot) : Int :=
  ((P.aTeachers ai).map fun t => k.tcnt t slot).sum

/-- `location_blocks`. -/
def locationBlocks (k : SoftSchedule P) (ai : P.Asg) (slot : Slot) : Bool :=
  (P.aLoc ai).any fun loc =>
    let s := sessionOfSlot slot
    (P.aTeachers ai).any fun t =>
      P.teacherLocRules t && (P.teacherRules t).any fun rule =>
        (rule.locOne s || rule.locGap s || rule.locMove s || !(rule.locBreaks s).isEmpty) &&
          let entries := allPeriods.filterMap fun q =>
            if q = periodOfSlot slot then some (q, loc)
            else (k.tloc t (slotAt s q)).head?.map fun l => (q, l)
          decide (2 ≤ entries.length) && decide (0 < locationRuleDebt entries (rule.locOne s)
            (rule.locGap s) (rule.locMove s) (rule.locBreaks s))

/-- `location_mix_cost`. -/
def locationMixCost (k : SoftSchedule P) (ai : P.Asg) (slot : Slot) : Nat :=
  (P.aLoc ai).elim 0 fun loc =>
    ((P.aTeachers ai).filter fun t => P.teacherLocRules t &&
      let seen := allPeriods.filterMap fun q =>
        if slotAt (sessionOfSlot slot) q = slot then none
        else (k.tloc t (slotAt (sessionOfSlot slot) q)).head?
      !seen.isEmpty && decide (loc ∉ seen)).length

/-! ### Windows -/

/-- `[base + start + off for off in range(size)]`. -/
def window (s : Session) (start size : Nat) : List Slot :=
  (allPeriods.filter fun p => decide (start ≤ p.val ∧ p.val < start + size)).map (slotAt s)

/-- The sessions and starts of a size, in the order of the loops. -/
def windowStarts (size : Nat) : List (Session × Nat) :=
  allSessions.flatMap fun s => (List.range (6 - size)).map fun start => (s, start)

/-- The class has a lesson of the subject in the session. -/
def hasSubject (row : Slot → Option P.Asg) (s : Session) (si : P.Sub) : Bool :=
  allPeriods.any fun p => decide ((row (slotAt s p)).map P.aSubject = some si)

/-- The session has no lesson of the subject and the window is allowed and empty. -/
def isOpen (k : SoftSchedule P) (c : P.Cls) (ai : P.Asg) (size : Nat) (e : Session × Nat) : Bool :=
  !hasSubject (k.grid c) e.1 (P.aSubject ai) &&
    (window e.1 e.2 size).all fun slot => P.aAllowed ai slot && decide (k.grid c slot = none)

def write (k : SoftSchedule P) (c : P.Cls) (slots : List Slot) (v : Option P.Asg) : SoftSchedule P :=
  slots.foldl (fun k slot => k.setCell c slot v) k

/-- The class-side checks after a block. -/
def blockFits (k : SoftSchedule P) (c : P.Cls) (ai : P.Asg) (s : Session) : Bool :=
  (P.checkClassSession k.grid c s).isNone &&
    (P.checkClassSubjectWeek k.grid c (P.aSubject ai) (some ai) true).isNone &&
    (P.checkClassDay k.grid c (dayOf s)).isNone

end SoftSchedule

/-- An assignment and the length of one of its blocks. -/
abbrev Block (P : Problem) := P.Asg × Nat

/-! ### The search in one class -/

namespace SoftSchedule
variable {P : Problem}

/-- A window with its score. -/
abbrev Scored := Rat × Session × Nat

/-- Tuples compare by their first difference. -/
def Scored.le (a b : Scored) : Bool :=
  decide (a.1 < b.1) || decide (a.1 = b.1) &&
    (decide (a.2.1 < b.2.1) || decide (a.2.1 = b.2.1) && decide (a.2.2 ≤ b.2.2))

/-- The windows of a block with their scores, best first. -/
def candidates (k : SoftSchedule P) (c : P.Cls) (ai : P.Asg) (size : Nat) (rng : Rng) :
    List Scored × Rng :=
  let tagged := rng.tag ((windowStarts size).filter (k.isOpen c ai size))
  ((tagged.1.map fun e =>
    let slots := window e.1.1 e.1.2 size
    let free := slots.countP fun slot => !(P.aTeachers ai).isEmpty && decide (k.busy ai slot = 0)
    (-(free : Rat) + e.2 + (if slots.any (k.locationBlocks ai) then 1000 else 0) +
      2 / 5 * ((slots.head?.elim 0 (k.locationMixCost ai) : Nat) : Rat), e.1.1, e.1.2)).insertionSort
    (fun a b => Scored.le a b), tagged.2)

/-- What `_dfs_place` shares between its calls. -/
structure Dfs (P : Problem) where
  placed : List (P.Asg × List Slot)
  budget : Int
  rng : Rng

/-- The loop over the windows of one block; `next` is the search for the blocks after it. -/
def tryWindows (c : P.Cls) (ai : P.Asg) (size : Nat)
    (next : SoftSchedule P → Dfs P → Bool × SoftSchedule P × Dfs P) :
    List Scored → SoftSchedule P → Dfs P → Bool × SoftSchedule P × Dfs P
  | [], k, d => (false, k, d)
  | w :: ws, k, d =>
    let slots := window w.2.1 w.2.2 size
    let k := k.write c slots (some ai)
    if k.blockFits c ai w.2.1 then
      let r := next k { d with placed := d.placed ++ [(ai, slots)] }
      if r.1 then r
      else tryWindows c ai size next ws (r.2.1.write c slots none)
        { r.2.2 with placed := r.2.2.placed.dropLast }
    else tryWindows c ai size next ws (k.write c slots none) d

/-- `_dfs_place` on the blocks from `idx` on. -/
def dfsPlace (c : P.Cls) : List (Block P) → SoftSchedule P → Dfs P → Bool × SoftSchedule P × Dfs P
  | [], k, d => (true, k, d)
  | (ai, size) :: rest, k, d =>
    if d.budget ≤ 0 then (false, k, d)
    else
      let cands := k.candidates c ai size d.rng
      tryWindows c ai size (dfsPlace c rest) cands.1 k
        { d with budget := d.budget - 1, rng := cands.2 }

/-- `sorted(blocks, key=lambda item: (-item[1], rng.random()))`. -/
def shuffled (blocks : List (Block P)) (rng : Rng) : List (Block P) × Rng :=
  let tagged := rng.tag blocks
  ((tagged.1.insertionSort fun a b => a.1.2 > b.1.2 ∨ a.1.2 = b.1.2 ∧ a.2 ≤ b.2).map Prod.fst,
    tagged.2)

/-- The attempts of `_tile_class`. -/
def tileAttempts (c : P.Cls) (blocks : List (Block P)) :
    Nat → SoftSchedule P → Rng → Bool × SoftSchedule P × Rng
  | 0, k, rng => (false, k, rng)
  | n + 1, k, rng =>
    let order := shuffled blocks rng
    let r := dfsPlace c order.1 k ⟨[], 4000, order.2⟩
    if r.1 then (true, r.2.1, r.2.2.rng)
    else tileAttempts c blocks n
      (r.2.2.placed.foldl (fun k e => k.write c e.2 none) r.2.1) r.2.2.rng

/-- `_tile_class`. -/
def tileClass (c : P.Cls) (blocks : List (Block P)) (k : SoftSchedule P) (rng : Rng) :
    Bool × SoftSchedule P × Rng :=
  tileAttempts c blocks 10 k rng

/-! ### Blocks of teachers with little slack -/

/-- `soft`, `blocks_of` and `prematched` while the teachers are matched; an assignment without
blocks is no key of `blocks_of`. -/
structure Plan (P : Problem) where
  soft : SoftSchedule P
  blocksOf : P.Asg → List Nat
  prematched : P.Cls → List (Block P)
  rng : Rng

namespace Plan

/-- The best of the open windows of a block: the first one with the least score. -/
def bestWindow (k : SoftSchedule P) (ai : P.Asg) (size : Nat) (rng : Rng) :
    Option (Session × Nat) × Rng :=
  let starts := (windowStarts size).filter fun e =>
    k.isOpen (P.aClass ai) ai size e && (window e.1 e.2 size).all fun slot => decide (k.busy ai slot = 0)
  let tagged := rng.tag starts
  let scored := tagged.1.map fun e =>
    let slots := window e.1.1 e.1.2 size
    (e.2 + (if slots.any (k.locationBlocks ai) then 1000 else 0) +
      2 / 5 * ((slots.head?.elim 0 (k.locationMixCost ai) : Nat) : Rat), e.1)
  ((scored.foldl (fun (best : Option (Rat × Session × Nat)) e =>
    if best.all fun b => decide (e.1 < b.1) then some e else best) none).map Prod.snd, tagged.2)

/-- The loop body of `_prematch_teacher`; the blocks that were placed are listed. -/
def prematchBlock (p : Plan P) (placedNow : List (Block P)) (b : Block P) :
    Plan P × List (Block P) :=
  let best := bestWindow p.soft b.1 b.2 p.rng
  let p := { p with rng := best.2 }
  match best.1 with
  | none => (p, placedNow)
  | some (s, start) =>
    let c := P.aClass b.1
    let slots := window s start b.2
    let k := p.soft.write c slots (some b.1)
    if k.blockFits c b.1 s then
      ({ p with
        soft := k
        prematched := Function.update p.prematched c (p.prematched c ++ [b]) }, placedNow ++ [b])
    else ({ p with soft := k.write c slots none }, placedNow)

def prematchBlocks (p : Plan P) (placedNow : List (Block P)) (bs : List (Block P)) :
    Plan P × List (Block P) :=
  bs.foldl (fun r b => prematchBlock r.1 r.2 b) (p, placedNow)

/-- `sizes.remove(size)` where the size is planned. -/
def unplan (blocksOf : P.Asg → List Nat) (b : Block P) : P.Asg → List Nat :=
  Function.update blocksOf b.1 ((blocksOf b.1).erase b.2)

/-- `_prematch_teacher`. -/
def prematchTeacher (p : Plan P) (t : P.Tch) : Plan P :=
  let items := (P.allAssignments.filter fun ai => decide (t ∈ P.aTeachers ai)).flatMap fun ai =>
    (p.blocksOf ai).map fun size => (ai, size)
  let order := shuffled items p.rng
  let r := prematchBlocks { p with rng := order.2 } [] order.1
  { r.1 with blocksOf := r.2.foldl unplan r.1.blocksOf }

/-- `t_load[t]`. -/
def tLoad (p : Plan P) (t : P.Tch) : Nat :=
  (P.allAssignments.map fun ai => (P.aTeachers ai).count t * (p.blocksOf ai).sum).sum

/-- The teachers with blocks and at most four free slots beyond them, by slack. -/
def tightTeachers (p : Plan P) (teacherAvail : P.Tch → Slot → Bool) : List P.Tch :=
  let slack t : Int := ((allSlots.countP (teacherAvail t) : Nat) : Int) - (p.tLoad t : Nat)
  (((P.allTeachers.filter fun t => P.allAssignments.any fun ai =>
      decide (t ∈ P.aTeachers ai) && !(p.blocksOf ai).isEmpty).map fun t => (slack t, t)).insertionSort
    (fun a b => a.1 < b.1 ∨ a.1 = b.1 ∧ a.2 ≤ b.2)).takeWhile (fun e => decide (e.1 ≤ 4)) |>.map Prod.snd

end Plan

/-! ### Phase 1 -/

/-- The fixed cells, first come, with the locks and the number of cells of every assignment. -/
structure Fixed (P : Problem) where
  soft : SoftSchedule P
  locked : P.Cls → Slot → Bool
  count : P.Asg → Nat

namespace Fixed

def place (f : Fixed P) (e : P.Cls × Slot × P.Asg) : Fixed P :=
  if f.soft.grid e.1 e.2.1 = none then
    { soft := f.soft.setCell e.1 e.2.1 (some e.2.2)
      locked := Array2.set2 f.locked e.1 e.2.1 true
      count := Function.update f.count e.2.2 (f.count e.2.2 + 1) }
  else f

/-- The cells that are written before the blocks. -/
def ofProblem (P : Problem) : Fixed P :=
  P.fixedCells.foldl place ⟨SoftSchedule.init P, fun _ _ => false, fun _ => 0⟩

end Fixed

/-- A lesson block of two periods is demanded. -/
def needDouble (ai : P.Asg) : Bool :=
  (P.aRule ai).any fun rule => rule.lessonBlocks.any fun b => decide (b.1 = 2 ∧ 0 < b.2.1)

/-- The block plan, assignment by assignment. -/
def planBlocks (count : P.Asg → Nat) :
    List P.Asg → (P.Asg → List Nat) → Rng → Option ((P.Asg → List Nat) × Rng)
  | [], blocksOf, rng => some (blocksOf, rng)
  | ai :: rest, blocksOf, rng =>
    if P.aPeriods ai ≤ count ai then planBlocks count rest blocksOf rng
    else (blockSizes (P.aPeriods ai - count ai) (P.aCap ai) (needDouble ai) rng).bind fun r =>
      planBlocks count rest (Function.update blocksOf ai r.1) r.2

/-- The first period of the run of the subject that ends at a period. -/
def runLow (same : Nat → Bool) : Nat → Nat
  | 0 => 0
  | p + 1 => if same p then runLow same p else p + 1

/-- The last period of the run, with the number of periods after this one. -/
def runHigh (same : Nat → Bool) : Nat → Nat → Nat
  | _, 0 => 0
  | p, n + 1 => if same (p + 1) then runHigh same (p + 1) n + 1 else 0

/-- `_run_window` at a cell of the subject: its first period and its length. -/
def runWindow (row : Slot → Option P.Asg) (s : Session) (p : Period) (si : P.Sub) : Nat × Nat :=
  let same q := if h : q < 5 then decide ((row (slotAt s ⟨q, h⟩)).map P.aSubject = some si) else false
  let low := runLow same p.val
  (low, p.val + runHigh same p.val (4 - p.val) + 1 - low)

/-- The run of an unlocked lesson, at its first cell. -/
def runAt (k : SoftSchedule P) (locked : P.Cls → Slot → Bool) (c : P.Cls) (slot : Slot) :
    Option (Block P) :=
  (k.grid c slot).bind fun ai =>
    if locked c slot then none
    else
      let run := runWindow (k.grid c) (sessionOfSlot slot) (periodOfSlot slot) (P.aSubject ai)
      if run.1 = (periodOfSlot slot).val then some (ai, run.2) else none

def unlockedRuns (k : SoftSchedule P) (locked : P.Cls → Slot → Bool) (c : P.Cls) : List (Block P) :=
  allSlots.filterMap (k.runAt locked c)

/-- The unlocked cells of the class are cleared. -/
def clearUnlocked (k : SoftSchedule P) (locked : P.Cls → Slot → Bool) (c : P.Cls) : SoftSchedule P :=
  k.write c (allSlots.filter fun slot => decide (k.grid c slot ≠ none) && !locked c slot) none

/-- The plan once the teachers are matched, with the locks. -/
structure Tiling (P : Problem) where
  locked : P.Cls → Slot → Bool
  prematched : P.Cls → List (Block P)
  todo : P.Cls → List (Block P)

namespace Tiling
variable (g : Tiling P)

/-- The first attempt at a class fails and blocks were placed before it. -/
def retiles (c : P.Cls) (k : SoftSchedule P) (rng : Rng) : Bool :=
  !(g.todo c).isEmpty && !(tileClass c (g.todo c) k rng).1 && !(g.prematched c).isEmpty

/-- The loop body for one class: whether it was tiled, the schedule and the random values. -/
def tileStep (c : P.Cls) (k : SoftSchedule P) (rng : Rng) : Bool × SoftSchedule P × Rng :=
  if (g.todo c).isEmpty then (true, k, rng)
  else
    let r := tileClass c (g.todo c) k rng
    if r.1 then r
    else if (g.prematched c).isEmpty then (false, r.2)
    else tileClass c (addNew (g.todo c) (r.2.1.unlockedRuns g.locked c))
      (r.2.1.clearUnlocked g.locked c) r.2.2

/-- The loop over the classes; `late` tells at which classes the deadline has passed. -/
def tileClasses (late : P.Cls → Bool) : List P.Cls → SoftSchedule P → Rng → SoftSchedule P × Bool
  | [], k, _ => (k, true)
  | c :: cs, k, rng =>
    if late c then (k, false)
    else
      let r := g.tileStep c k rng
      let rest := tileClasses late cs r.2.1 r.2.2
      (rest.1, r.1 && rest.2)

/-- The states in which the classes are tiled. -/
def steps : List P.Cls → SoftSchedule P → Rng → List (P.Cls × SoftSchedule P × Rng)
  | [], _, _ => []
  | c :: cs, k, rng =>
    (c, k, rng) :: steps cs (g.tileStep c k rng).2.1 (g.tileStep c k rng).2.2

/-- The classes with blocks, by the number of periods to place. -/
def classes : List P.Cls :=
  (P.allClasses.filter fun c => !(g.todo c).isEmpty || !(g.prematched c).isEmpty).insertionSort
    fun a b => ((g.todo b).map Prod.snd).sum ≤ ((g.todo a).map Prod.snd).sum

end Tiling

namespace Plan

/-- The plan before the teachers are matched. -/
def ofProblem (P : Problem) (rng : Rng) : Option (Plan P) :=
  let f := Fixed.ofProblem P
  (planBlocks f.count P.allAssignments (fun _ => []) rng).map fun r => ⟨f.soft, r.1, fun _ => [], r.2⟩

def matchTeachers (p : Plan P) (teacherAvail : P.Tch → Slot → Bool) : Plan P :=
  (p.tightTeachers teacherAvail).foldl prematchTeacher p

def tiling (p : Plan P) : Tiling P where
  locked := (Fixed.ofProblem P).locked
  prematched := p.prematched
  todo := fun c => (P.allAssignments.filter fun ai => decide (P.aClass ai = c)).flatMap fun ai =>
    (p.blocksOf ai).map fun size => (ai, size)

end Plan

/-- `_phase1`: the schedule, and whether every class was tiled. -/
def phase1 (P : Problem) (teacherAvail : P.Tch → Slot → Bool) (late : P.Cls → Bool) (rng : Rng) :
    Option (SoftSchedule P × Bool) :=
  (Plan.ofProblem P rng).map fun p =>
    let p := p.matchTeachers teacherAvail
    p.tiling.tileClasses late p.tiling.classes p.soft p.rng

end SoftSchedule

end TkbCherry.Engine
