import TkbCherry.Engine.Kempe
import TkbCherry.Lib.Placing
import TkbCherry.Lib.Programs

/-!
# The optimizer

`Optimizer` improves a complete schedule by moves inside the classes, column swaps and swaps of whole
sessions. Each move is one `apply`; what does not improve the objective is undone. What the generator
and the clock answer is part of the state, so that a result about a run is one about every seed and
every time limit.
-/

namespace TkbCherry.Engine

set_option autoImplicit false

open Program

/-- `singleton_floor`: the teachers with one lesson in the week. -/
def Problem.singletonFloor (P : Problem) : Int :=
  ((P.allTeachers.filter fun t => decide (((P.allAssignments.filter fun ai =>
    decide (P.aTeacher ai = some t)).map P.aPeriods).sum = 1)).length : Nat)

/-- The fields of the class, and the answers of `rng` and `time.monotonic` that are to come, the clock
in milliseconds. -/
structure Optimizer (P : Problem) where
  state : State P
  bestSnap : P.Grid
  bestTuple : List Int
  floorSingleton : Int
  draws : Nat → Nat
  clock : Nat → Int

def Optimizer.init {P : Problem} (state : State P) (draws : Nat → Nat) (clock : Nat → Int) :
    Optimizer P where
  state := state
  bestSnap := state.snapshot
  bestTuple := state.objective
  floorSingleton := P.singletonFloor
  draws := draws
  clock := clock

abbrev Search (P : Problem) (α : Type) := Prog (Optimizer P) String α

/-! ### Periods and windows -/

/-- `0 <= p < PERIODS`. -/
def periodAt? (p : Int) : Option Period :=
  if h : 0 ≤ p ∧ p < 5 then some ⟨p.toNat, by omega⟩ else none

/-- `[base + start + off for off in range(length)]` -/
def windowAt (ses : Session) (start length : Nat) : List Slot :=
  (List.range length).filterMap fun off => (periodAt? (start + off : Nat)).map (slotAt ses)

/-- `sort` with a key; it is stable. -/
def sortBy {α : Type} (key : α → List Int) (xs : List α) : List α :=
  xs.mergeSort fun a b => decide (key a ≤ key b)

namespace State
variable {P : Problem}

/-- `_swap_runs_changes` -/
def swapRunsChanges (s : State P) (c : P.Cls) (runA runB : List Slot) : Option (List (Change P)) :=
  if runA.length ≠ runB.length ∨ runA = [] then none
  else
    let raw := (runA.zip runB).flatMap fun e => [(e.2, s.grid c e.1), (e.1, s.grid c e.2)]
    some ((Placing.lastWrites raw).map fun e => (c, e.1, e.2))

def lockedIn (s : State P) (c : P.Cls) (slots : List Slot) : Bool := slots.any (s.locked c)

def teacherSessionsUsed (s : State P) (t : P.Tch) : List Session :=
  allSessions.filter fun ses => decide ((s.ts t ses).count > 0)

/-- The loop of `_teacher_blocks_in_session`; a run goes past the period it is taken at. -/
def blocksFrom (s : State P) (t : P.Tch) (ses : Session) : Nat → Nat → List (P.Cls × List Slot)
  | 0, _ => []
  | left + 1, p =>
    match periodAt? p with
    | none => []
    | some q =>
      match s.teacherSlot t (slotAt ses q) with
      | none => blocksFrom s t ses left (p + 1)
      | some ai =>
        let run := s.runOf (P.aClass ai) (slotAt ses q)
        (P.aClass ai, run) :: blocksFrom s t ses left
          (run.getLast?.elim (p + 1) fun last => (periodOfSlot last).val + 1)

def teacherBlocksInSession (s : State P) (t : P.Tch) (ses : Session) : List (P.Cls × List Slot) :=
  s.blocksFrom t ses 5 0

/-- `(ts_first, ts_last)`; callers come here with lessons in the session. -/
def edgePeriods (s : State P) (t : P.Tch) (ses : Session) : List Period :=
  [(s.ts t ses).first, (s.ts t ses).last].filterMap periodAt?

/-- The periods next to the teacher's lessons of a session. -/
def besidePeriods (s : State P) (t : P.Tch) (ses : Session) : List Period :=
  [(s.ts t ses).first - 1, (s.ts t ses).last + 1].filterMap periodAt?

def holes (s : State P) (t : P.Tch) (ses : Session) : List Period :=
  if (s.ts t ses).first < 0 then []
  else allPeriods.filter fun p => decide ((s.ts t ses).first < p.val ∧ (p.val : Int) < (s.ts t ses).last) &&
    (s.teacherSlot t (slotAt ses p)).isNone

def holeRunLen (s : State P) (t : P.Tch) (ses : Session) (h : Period) : Nat :=
  ((allPeriods.drop h.val).takeWhile fun p => (s.teacherSlot t (slotAt ses p)).isNone).length

/-- `adj_key` of `_swap_block_into_session`. -/
def adjKey (s : State P) (t : P.Tch) (ses : Session) (length start : Nat) : Int :=
  let w := s.ts t ses
  if w.first < 0 then 0
  else
    let stop : Int := start + length - 1
    if stop = w.first - 1 ∨ (start : Int) = w.last + 1 then 0
    else min |(start : Int) - w.last| |w.first - stop|

end State

namespace Optimizer
variable {P : Problem}

/-! ### The generator and the clock -/

/-- `time.monotonic()` -/
def monotonic : Search P Int := do
  let o ← get
  set { o with clock := fun i => o.clock (i + 1) }
  pure (o.clock 0)

/-- `rng.randrange(n)` -/
def randrange (n : Nat) : Search P (Fin n) := do
  let o ← get
  if h : 0 < n then do
    set { o with draws := fun i => o.draws (i + 1) }
    pure ⟨o.draws 0 % n, Nat.mod_lt _ h⟩
  else throw "empty range for randrange()"

/-- `xs[i], xs[j] = xs[j], xs[i]` -/
def swapAt {α : Type} (xs : List α) (i j : Nat) : List α :=
  match xs[i]?, xs[j]? with
  | some a, some b => (xs.set i b).set j a
  | _, _ => xs

/-- `rng.shuffle`: every place is exchanged with a random one before it, or itself. -/
def shuffleFrom {α : Type} : Nat → List α → Search P (List α)
  | 0, xs => pure xs
  | i + 1, xs => do
    let j ← randrange (i + 2)
    shuffleFrom i (swapAt xs (i + 1) j.val)

def shuffle {α : Type} (xs : List α) : Search P (List α) := shuffleFrom (xs.length - 1) xs

/-- `state.restore`, which raises where a cell is refused. -/
def restoreTo (snap : P.Grid) : Search P Unit := do
  let o ← get
  let after := o.state.restore snap
  set { o with state := after.1 }
  if after.2 = true then pure () else throw "restore produced conflict"

/-- Back to the state and the best grid of an earlier moment. -/
def goBack (before : Optimizer P) : Search P Bool := do
  restoreTo before.state.snapshot
  let o ← get
  set { o with bestTuple := before.bestTuple, bestSnap := before.bestSnap }
  pure false

/-- The best grid after a state that may be better. -/
def noteBest (o : Optimizer P) : Optimizer P :=
  if o.state.objective < o.bestTuple then
    { o with bestTuple := o.state.objective, bestSnap := o.state.snapshot }
  else o

/-- `_try` -/
def attempt (changes : List (Change P)) (allowEqual : Bool) : Search P Bool := do
  let o ← get
  match o.state.apply changes true with
  | (s, none) => do
    set { o with state := s }
    pure false
  | (s, some journal) =>
    if s.objective < o.state.objective ∨ (allowEqual = true ∧ s.objective = o.state.objective) then do
      set (noteBest { o with state := s })
      pure true
    else do
      set { o with state := s.undo journal }
      pure false

/-- `changes and self._try(changes)` -/
def attemptSome (changes : List (Change P)) (allowEqual : Bool) : Search P Bool :=
  if changes.isEmpty then pure false else attempt changes allowEqual

/-! ### Relocation of blocks -/

/-- The changes of `_swap_block_into_session` for one window. -/
def intoWindow (s : State P) (c : P.Cls) (run window : List Slot) : List (Change P) :=
  if s.lockedIn c window then []
  else if window.all fun slot => (s.grid c slot).isNone then
    run.map (fun slot => (c, slot, none)) ++ (run.zip window).map fun e => (c, e.2, s.grid c e.1)
  else if window.any fun slot => (s.grid c slot).isNone then []
  else (s.swapRunsChanges c run window).getD []

/-- `candidate_starts`, those beside the teacher's lessons first. -/
def candidateStarts (preferAdjacent : Option (P.Tch × Session)) (length : Nat) :
    Search P (List Nat) := do
  let o ← get
  match preferAdjacent with
  | some (t, ses) =>
    pure (sortBy (fun start => [o.state.adjKey t ses length start]) (List.range (6 - length)))
  | none => shuffle (List.range (6 - length))

/-- `_swap_block_into_session` -/
def swapBlockIntoSession (c : P.Cls) (run : List Slot) (s2 : Session)
    (preferAdjacent : Option (P.Tch × Session)) (allowEqual : Bool) : Search P Bool := do
  let starts ← candidateStarts preferAdjacent run.length
  starts.anyM fun start => do
    let o ← get
    attemptSome (intoWindow o.state c run (windowAt s2 start run.length)) allowEqual

/-- The loop of `_cycle3_place` over the third cells; at most forty are tried. -/
def cycleThrough (c : P.Cls) (src dst : Slot) (aSrc aDst : Option P.Asg) (allowEqual : Bool) :
    Nat → List Slot → Search P Bool
  | _, [] => pure false
  | tried, mid :: rest => do
    let o ← get
    if o.state.locked c mid = true ∨
        ((o.state.grid c mid).isSome = true ∧ (o.state.runOf c mid).length ≠ 1) then
      cycleThrough c src dst aSrc aDst allowEqual tried rest
    else if tried + 1 > 40 then pure false
    else do
      let hit ← attempt [(c, dst, aSrc), (c, mid, aDst), (c, src, o.state.grid c mid)] allowEqual
      if hit = true then pure true
      else cycleThrough c src dst aSrc aDst allowEqual (tried + 1) rest

/-- `_cycle3_place` -/
def cycle3Place (c : P.Cls) (src dst : Slot) (allowEqual : Bool) : Search P Bool := do
  let o ← get
  let s := o.state
  if (s.grid c src).isNone = true ∨ (s.grid c dst).isNone = true then pure false
  else if s.locked c src = true ∨ s.locked c dst = true then pure false
  else if (s.runOf c src).length ≠ 1 ∨ (s.runOf c dst).length ≠ 1 then pure false
  else do
    let mids ← shuffle (allSlots.filter fun m => decide (m ≠ src ∧ m ≠ dst))
    cycleThrough c src dst (s.grid c src) (s.grid c dst) allowEqual 0 mids

/-- The changes of `_bring_friend` for a lone lesson and a cell beside the teacher's lessons. -/
def friendChanges (s : State P) (c : P.Cls) (slot target : Slot) (ai : P.Asg) : List (Change P) :=
  if s.locked c target then []
  else if (s.grid c target).isSome then (s.swapRunsChanges c (s.runOf c slot) [target]).getD []
  else [(c, slot, none), (c, target, some ai)]

/-- `_bring_friend` -/
def bringFriend (t : P.Tch) (ses : Session) : Search P Bool := do
  let o ← get
  if (o.state.ts t ses).first < 0 then pure false
  else
    let donors := sortBy (fun s2 => [-(o.state.ts t s2).count]) ((o.state.teacherSessionsUsed t).filter
      fun s2 => decide (s2 ≠ ses ∧ (o.state.ts t s2).count ≥ 3))
    donors.anyM fun s2 => do
      let o2 ← get
      (o2.state.edgePeriods t s2).anyM fun edge => do
        let o3 ← get
        match o3.state.teacherSlot t (slotAt s2 edge) with
        | none => pure false
        | some ai =>
          let run := o3.state.runOf (P.aClass ai) (slotAt s2 edge)
          if run.length ≠ 1 ∨ o3.state.lockedIn (P.aClass ai) run = true then pure false
          else (o.state.besidePeriods t ses).anyM fun p => do
            let o4 ← get
            attemptSome
              (friendChanges o4.state (P.aClass ai) (slotAt s2 edge) (slotAt ses p) ai) false

/-- The blocks of `_vacate_session` one after another; each goes into another session. -/
def vacateBlocks (t : P.Tch) (ses : Session) (blocks : List (P.Cls × List Slot)) : Search P Bool :=
  blocks.allM fun block => do
    let o ← get
    (o.state.teacherSessionsUsed t).anyM fun s2 => do
      let o2 ← get
      if s2 = ses ∨ (o2.state.ts t s2).count + block.2.length > 5 then pure false
      else swapBlockIntoSession block.1 block.2 s2 (some (t, s2)) true

/-- `_vacate_session` -/
def vacateSession (t : P.Tch) (ses : Session) : Search P Bool := do
  let o ← get
  let blocks := o.state.teacherBlocksInSession t ses
  if blocks.isEmpty = true ∨ blocks.any (fun b => o.state.lockedIn b.1 b.2) = true then pure false
  else do
    let moved ← vacateBlocks t ses blocks
    let o2 ← get
    if moved = true ∧ o2.state.objective < o.state.objective then do
      set (noteBest o2)
      pure true
    else goBack o

/-- `_kempe_column_swap`; `order` is the order in which the set of classes is walked. -/
def kempeSwap (order : List P.Cls → List P.Cls) (c : P.Cls) (ses : Session) (p1 p2 : Period) :
    Search P Bool := do
  let o ← get
  match o.state.kempeColumnSwap order c ses p1 p2 with
  | none => pure false
  | some changes => attempt changes false

/-! ### Operators -/

/-- A loop that goes on until the deadline: `if time.monotonic() > deadline: break`. -/
def sweep {α : Type} (deadline : Int) (fix : α → Search P Bool) : List α → Search P Bool
  | [] => pure false
  | x :: rest => do
    let now ← monotonic
    if now > deadline then pure false
    else do
      let hit ← fix x
      let more ← sweep deadline fix rest
      pure (hit || more)

/-- The lone lesson of a session with its class and its run. -/
def loneRun (s : State P) (t : P.Tch) (ses : Session) : Option (P.Cls × List Slot) :=
  (periodAt? (s.ts t ses).first).bind fun p => (s.teacherSlot t (slotAt ses p)).map fun ai =>
    (P.aClass ai, s.runOf (P.aClass ai) (slotAt ses p))

/-- Another session of the teacher with a free period. -/
def roomIn (s : State P) (t : P.Tch) (ses s2 : Session) : Bool :=
  decide (s2 ≠ ses ∧ (s.ts t s2).count < 5)

/-- `A` of `_fix_singleton`: the lone lesson goes into another session of the teacher. -/
def mergeLone (t : P.Tch) (ses : Session) (c : P.Cls) (run : List Slot) : Search P Bool := do
  let o ← get
  if o.state.lockedIn c run = true then pure false
  else (o.state.teacherSessionsUsed t).anyM fun s2 => do
    let o2 ← get
    if roomIn o2.state t ses s2 = true then swapBlockIntoSession c run s2 (some (t, s2)) false
    else pure false

/-- `C` of `_fix_singleton`: a cycle of three brings it beside the lessons of another session. -/
def cycleLone (t : P.Tch) (ses : Session) (c : P.Cls) (run : List Slot) : Search P Bool := do
  let o ← get
  match run with
  | [slot] =>
    if o.state.lockedIn c run = true then pure false
    else (o.state.teacherSessionsUsed t).anyM fun s2 => do
      let o2 ← get
      if roomIn o2.state t ses s2 = true then
        (o2.state.besidePeriods t s2).anyM fun q => cycle3Place c slot (slotAt s2 q) false
      else pure false
  | _ => pure false

/-- The fixes that `_fix_singleton` and `_fix_singleton_direct` share. -/
def directFixes (t : P.Tch) (ses : Session) (c : P.Cls) (run : List Slot) : Search P Bool := do
  let merged ← mergeLone t ses c run
  if merged = true then pure true
  else do
    let brought ← bringFriend t ses
    if brought = true then pure true else cycleLone t ses c run

/-- `_fix_singleton_direct` -/
def fixSingletonDirect (t : P.Tch) (ses : Session) : Search P Bool := do
  let o ← get
  match loneRun o.state t ses with
  | none => pure false
  | some (c, run) => directFixes t ses c run

/-- The direct fixes for a lesson that is still alone after its move. -/
def fixMoved (t : P.Tch) (s3 : Session) : Search P Bool := do
  let o ← get
  if (o.state.ts t s3).first ≥ 0 ∧ (o.state.ts t s3).count = 1 then fixSingletonDirect t s3
  else pure false

/-- `D` of `_fix_singleton`: into an empty session, and the direct fixes from there. -/
def chainLone (t : P.Tch) (ses : Session) (c : P.Cls) (run : List Slot) : Search P Bool := do
  let o ← get
  if run.length = 1 ∧ o.state.lockedIn c run = false then do
    let empties ← shuffle (allSessions.filter fun s3 =>
      decide ((o.state.ts t s3).count = 0 ∧ s3 ≠ ses))
    (empties.take 4).anyM fun s3 => do
      let moved ← swapBlockIntoSession c run s3 none true
      if moved = true then do
        let fixed ← fixMoved t s3
        if fixed = true then pure true else goBack o
      else pure false
  else pure false

/-- `_fix_singleton` -/
def fixSingleton (t : P.Tch) (ses : Session) : Search P Bool := do
  let o ← get
  match loneRun o.state t ses with
  | none => pure false
  | some (c, run) => do
    let fixed ← directFixes t ses c run
    if fixed = true then pure true else chainLone t ses c run

def opSingleton (deadline : Int) : Search P Bool := do
  let o ← get
  let targets ← shuffle ((P.allTeachers.product allSessions).filter fun e =>
    decide ((o.state.ts e.1 e.2).count = 1))
  sweep deadline (fun e => do
    let o2 ← get
    if (o2.state.ts e.1 e.2).count = 1 then fixSingleton e.1 e.2 else pure false) targets

/-- The lesson of the teacher at an edge of the session. -/
def edgeRun (s : State P) (t : P.Tch) (ses : Session) (edge : Period) : Option (P.Cls × List Slot) :=
  (s.teacherSlot t (slotAt ses edge)).map fun ai =>
    (P.aClass ai, s.runOf (P.aClass ai) (slotAt ses edge))

/-- The window has a free or a locked cell of the class. -/
def windowShut (s : State P) (c : P.Cls) (window : List Slot) : Bool :=
  window.any fun x => (s.grid c x).isNone || s.locked c x

/-- `1` of `_fix_gap_session`: a block at the border slides into a window of holes. -/
def slideIntoHole (t : P.Tch) (ses : Session) (holes : List Period) : Search P Bool := do
  let o ← get
  (o.state.edgePeriods t ses).anyM fun edge => do
    let o2 ← get
    match edgeRun o2.state t ses edge with
    | none => pure false
    | some (c, run) =>
      if o2.state.lockedIn c run = true then pure false
      else holes.anyM fun h => do
        let o3 ← get
        let window := windowAt ses h.val run.length
        if o3.state.holeRunLen t ses h < run.length ∨ windowShut o3.state c window = true then
          pure false
        else attemptSome ((o3.state.swapRunsChanges c run window).getD []) false

/-- `2`: a block of another session goes into a hole. -/
def pullIntoHole (t : P.Tch) (ses : Session) (holes : List Period) : Search P Bool :=
  holes.anyM fun h => do
    let o ← get
    let maxLen := o.state.holeRunLen t ses h
    (o.state.teacherSessionsUsed t).anyM fun s2 => do
      let o2 ← get
      if s2 = ses then pure false
      else (o2.state.teacherBlocksInSession t s2).anyM fun block => do
        let o3 ← get
        let window := windowAt ses h.val block.2.length
        if block.2.length > maxLen ∨ o3.state.lockedIn block.1 block.2 = true ∨
            windowShut o3.state block.1 window = true then pure false
        else attemptSome ((o3.state.swapRunsChanges block.1 block.2 window).getD []) false

/-- `3`: the column of a hole against the column of the border. -/
def swapHoleColumn (order : List P.Cls → List P.Cls) (t : P.Tch) (ses : Session)
    (holes : List Period) : Search P Bool :=
  holes.anyM fun h => do
    let o ← get
    (o.state.edgePeriods t ses).anyM fun edge => do
      let o2 ← get
      match o2.state.teacherSlot t (slotAt ses edge) with
      | none => pure false
      | some ai => kempeSwap order (P.aClass ai) ses edge h

/-- `3b`: cycles of three bring a single lesson into a hole, from the border or another session. -/
def cycleIntoHole (t : P.Tch) (ses : Session) (holes : List Period) : Search P Bool := do
  let o ← get
  let border ← (o.state.edgePeriods t ses).anyM fun edge => do
    let o2 ← get
    match edgeRun o2.state t ses edge with
    | none => pure false
    | some (c, run) =>
      if run.length ≠ 1 then pure false
      else holes.anyM fun h => cycle3Place c (slotAt ses edge) (slotAt ses h) false
  if border = true then pure true
  else holes.anyM fun h => do
    let o ← get
    (o.state.teacherSessionsUsed t).anyM fun s2 => do
      let o2 ← get
      if s2 = ses then pure false
      else (o2.state.teacherBlocksInSession t s2).anyM fun block =>
        match block.2 with
        | [slot] => cycle3Place block.1 slot (slotAt ses h) false
        | _ => pure false

/-- `3c`: a border block goes to another session. -/
def moveBorderOut (t : P.Tch) (ses : Session) : Search P Bool := do
  let o ← get
  (o.state.edgePeriods t ses).anyM fun edge => do
    let o2 ← get
    match edgeRun o2.state t ses edge with
    | none => pure false
    | some (c, run) =>
      if o2.state.lockedIn c run = true then pure false
      else (o2.state.teacherSessionsUsed t).anyM fun s2 => do
        let o3 ← get
        if s2 = ses ∨ (o3.state.ts t s2).count + run.length > 5 then pure false
        else swapBlockIntoSession c run s2 (some (t, s2)) false

/-- `if first(): return True`, one after another. -/
def firstOf : List (Search P Bool) → Search P Bool
  | [] => pure false
  | m :: rest => do
    let hit ← m
    if hit = true then pure true else firstOf rest

/-- `_fix_gap_session` -/
def fixGapSession (order : List P.Cls → List P.Cls) (t : P.Tch) (ses : Session) : Search P Bool := do
  let o ← get
  let holes := o.state.holes t ses
  if holes.isEmpty then pure false
  else firstOf [slideIntoHole t ses holes, pullIntoHole t ses holes,
    swapHoleColumn order t ses holes, cycleIntoHole t ses holes, moveBorderOut t ses,
    vacateSession t ses]

def opGap (order : List P.Cls → List P.Cls) (deadline minGap : Int) : Search P Bool := do
  let o ← get
  let gap := fun e : P.Tch × Session => (o.state.ts e.1 e.2).gap
  let targets := (P.allTeachers.product allSessions).filter fun e =>
    decide ((o.state.ts e.1 e.2).count > 0 ∧ gap e ≥ minGap)
  sweep deadline (fun e => fixGapSession order e.1 e.2)
    (sortBy (fun e => [-gap e, -(e.1.val : Int), -(e.2.val : Int)]) targets)

def opSessions (deadline : Int) : Search P Bool := do
  let o ← get
  let thin := (P.allTeachers.product allSessions).filter fun e =>
    decide (0 < (o.state.ts e.1 e.2).count ∧ (o.state.ts e.1 e.2).count ≤ 2)
  sweep deadline (fun e => do
      let o2 ← get
      if (o2.state.ts e.1 e.2).count = 0 then pure false else vacateSession e.1 e.2)
    (sortBy (fun e => [(o.state.ts e.1 e.2).count, (e.1.val : Int), (e.2.val : Int)]) thin)

/-- One try of `op_class_session_swap`. -/
def trySessionSwap : Search P Bool := do
  let c ← randrange P.numClasses
  let s1 ← randrange 12
  let s2 ← randrange 12
  let o ← get
  if s1 = s2 then pure false
  else if allPeriods.any fun p => o.state.locked c (slotAt s1 p) || o.state.locked c (slotAt s2 p) then
    pure false
  else if allPeriods.all fun p => (o.state.grid c (slotAt s1 p)).isNone &&
      (o.state.grid c (slotAt s2 p)).isNone then pure false
  else attempt (allPeriods.flatMap fun p => [(c, slotAt s1 p, o.state.grid c (slotAt s2 p)),
    (c, slotAt s2 p, o.state.grid c (slotAt s1 p))]) false

def opClassSessionSwap (deadline : Int) (tries : Nat) : Search P Bool :=
  sweep deadline (fun _ : Nat => trySessionSwap) (List.range tries)

/-! ### The controller -/

/-- The loop of `perturb`, with the rounds its guard leaves and the swaps to be done. -/
def perturbLoop : Nat → Nat → Search P Unit
  | 0, _ => pure ()
  | _, 0 => pure ()
  | left + 1, todo + 1 => do
    let c ← randrange P.numClasses
    let slot1 ← randrange 60
    let slot2 ← randrange 60
    let o ← get
    let a1 := o.state.grid c slot1
    let a2 := o.state.grid c slot2
    if slot1 = slot2 ∨ o.state.locked c slot1 = true ∨ o.state.locked c slot2 = true ∨
        (a1 = none ∧ a2 = none) ∨ (a1 ≠ none ∧ (o.state.runOf c slot1).length ≠ 1) ∨
        (a2 ≠ none ∧ (o.state.runOf c slot2).length ≠ 1) then
      perturbLoop left (todo + 1)
    else
      match o.state.apply [(c, slot1, a2), (c, slot2, a1)] true with
      | (s, none) => do
        set { o with state := s }
        perturbLoop left (todo + 1)
      | (s, some _) => do
        set { o with state := s }
        perturbLoop left todo

def perturb (strength : Nat) : Search P Unit := perturbLoop (strength * 40) strength

/-- `time.monotonic() < deadline`, and then the operator. -/
def inTime (deadline : Int) (op : Search P Bool) : Search P Bool := do
  let now ← monotonic
  if now < deadline then op else pure false

def onlyIf (p : State P → Bool) (op : Search P Bool) : Search P Bool := do
  let o ← get
  if p o.state = true then op else pure false

/-- The operators of one round of `run`. -/
def improveRound (order : List P.Cls → List P.Cls) (deadline : Int) : Search P Bool := do
  let start ← monotonic
  let o ← get
  let floor := o.floorSingleton
  let limit := min deadline (start + 6000)
  let b1 ← onlyIf (fun s => decide (s.nSingleton > floor)) (opSingleton limit)
  let b2 ← onlyIf (fun s => decide (s.nGap2 > 0)) (inTime limit (opGap order limit 2))
  let b3 ← inTime limit (opSessions limit)
  let b4 ← onlyIf (fun s => decide (s.nSingleton ≤ floor ∧ s.nGap2 = 0 ∧ s.nGap1 > 0))
    (inTime limit (opGap order limit 1))
  let b5 ← inTime limit (opClassSessionSwap limit 120)
  pure (b1 || b2 || b3 || b4 || b5)

/-- The moment of the last report; the report itself goes to the caller. -/
def report (progress : Bool) (lastReport : Int) : Search P Int :=
  if progress = true then do
    let now ← monotonic
    if now - lastReport > 5000 then pure now else pure lastReport
  else pure lastReport

/-- Nothing but the number of sessions is left to improve. -/
def settled (o : Optimizer P) : Bool :=
  decide (o.state.nSingleton ≤ o.floorSingleton ∧ o.state.nGap2 = 0 ∧ o.state.nGap1 = 0)

/-- What follows a round without an improvement. -/
def shake (deadline : Int) (stagnation : Nat) : Search P Unit :=
  if stagnation % 3 = 0 then do
    let o ← get
    restoreTo o.bestSnap
    perturb (10 + 4 * min 8 (stagnation / 3))
    let now ← monotonic
    let _ ← opClassSessionSwap (min deadline (now + 1000)) 40
    pure ()
  else perturb 5

/-- The loop of `run` with a bound on its rounds; `false` when the bound is met first. -/
def rounds (progress : Bool) (order : List P.Cls → List P.Cls) (deadline : Int) :
    Nat → Nat → Int → Search P Bool
  | 0, _, _ => pure false
  | left + 1, stagnation, lastReport => do
    let now ← monotonic
    if now < deadline then do
      let improved ← improveRound order deadline
      let o ← get
      set (noteBest o)
      let lastReport ← report progress lastReport
      if settled o = true ∧ stagnation ≥ 6 then pure true
      else if improved = true then rounds progress order deadline left 0 lastReport
      else do
        shake deadline (stagnation + 1)
        rounds progress order deadline left (stagnation + 1) lastReport
    else pure true

/-- `run` -/
def run (progress : Bool) (order : List P.Cls → List P.Cls) (deadline : Int) (bound : Nat) :
    Search P Bool := do
  let ended ← rounds progress order deadline bound 0 0
  let o ← get
  if o.bestTuple < o.state.objective then do
    restoreTo o.bestSnap
    pure ended
  else pure ended

end Optimizer

end TkbCherry.Engine
