import TkbCherry.Fet.Model

/-! The two searches over the grids: `randomSwap` with its journal, and the
ejection chain. A search that succeeds returns, where the source returns `true`,
the placements it kept; `none` is `false`. -/

namespace TkbCherry.Fet
open Booking
set_option autoImplicit false

variable {κ : Type} [DecidableEq κ]

section Penalty

def busy : Cell → Bool
  | .act _ => true
  | .fixed => true
  | _ => false

/-- The largest gap between neighbours of an ascending list. -/
def maxConsecGap : List Nat → Nat
  | p :: q :: rest => max (q - p - 1) (maxConsecGap (q :: rest))
  | _ => 0

/-- The part of the penalty for a session the teacher already teaches in. -/
def joinPenalty (act : Act κ) (slot dayTaught : Nat) (single : Cell) (currentP : List Nat) : Int :=
  let occupied := (List.range act.duration).map fun k => periodIdx slot + k
  let newP := (currentP ++ occupied).insertionSort (· ≤ ·)
  let totalGaps : Int := (newP.getLastD 0 : Int) - newP.headD 0 + 1 - newP.length
  let gap := maxConsecGap newP
  (match currentP.length with
    | 1 => if single = .fixed then -700 else -250
    | 2 => -80
    | 3 => -30
    | 4 => -10
    | _ => 0)
  + (if dayTaught = 1 then -400 else 0)
  + (if 1 < gap then 2000 * gap else 0)
  + (if 1 < totalGaps then 1500 * (totalGaps - 1) else 0)
  + (if totalGaps = 1 ∧ gap = 1 then 10 else 0)
  + (if totalGaps = 0 then -100 else 0)

def teacherPenalty (g : Grids κ) (act : Act κ) (slot : Nat) (t : κ) : Int :=
  if (g.rows (.gv t)).isNone then 0
  else
    let at_ (s : Nat) := g.read (.gv t) s
    let dayTaught := ((List.range SLOTS_PER_DAY).filter fun pi =>
      busy (at_ (dayIdx slot * SLOTS_PER_DAY + pi))).length
    let currentP := (List.range PERIODS_PER_SESSION).filter fun pi =>
      busy (at_ (sessionStart slot + pi))
    if currentP.isEmpty then
      350 + (if dayTaught = 0 ∧ act.duration = 1 then 450 else 0)
    else joinPenalty act slot dayTaught (at_ (sessionStart slot + currentP.headD 0)) currentP

def getPlacementPenalty (g : Grids κ) (act : Act κ) (slot : Nat) : Int :=
  (act.gv.map (teacherPenalty g act slot)).sum

end Penalty

/-- The engine during a search. The journal's newest entry comes first. -/
structure State (κ : Type) where
  grids : Grids κ
  moveJournal : List (Op Nat Nat)
  swappedInBranch : List Nat
  tabuMap : Nat → Nat → Option Nat
  nCalls : Nat
  currentStep : Nat
  deadlineHit : Bool
  /-- How many numbers were drawn, and how often the clock was read. -/
  drawn : Nat
  readings : Nat

/-- The placements a search kept, in the order it made them. -/
abbrev Chain := List (Nat × Nat)

variable (d : Desk κ) (set : Settings κ)

section Shuffle

/-- Exchange two entries of a list. -/
def exchange (l : List Nat) (i j : Nat) : List Nat :=
  (l.set i (l.getD j 0)).set j (l.getD i 0)

/-- `rng.shuffle`: from the last index down, exchange with a drawn one not above it. -/
def shuffleFrom (draw : Nat → Nat) : Nat → Nat → List Nat → List Nat
  | 0, _, l => l
  | i + 1, n, l => shuffleFrom draw i (n + 1) (exchange l (i + 1) (draw n % (i + 2)))

def shuffle (st : State κ) (l : List Nat) : List Nat × State κ :=
  (shuffleFrom d.draw (l.length - 1) st.drawn l, { st with drawn := st.drawn + (l.length - 1) })

end Shuffle

section Journal

def jrnUnplace (st : State κ) (actId : Nat) : State κ :=
  match st.grids.actPlacement actId with
  | none => st
  | some prev =>
    { st with
      moveJournal := .took actId prev :: st.moveJournal
      grids := unplaceActivity d st.grids actId }

def jrnPlace (st : State κ) (actId slot : Nat) : State κ :=
  let st := jrnUnplace d st actId
  { st with
    moveJournal := .put actId slot :: st.moveJournal
    grids := placeActivityDirect d st.grids actId slot }

/-- The inverse of one journal entry. -/
def undo (g : Grids κ) : Op Nat Nat → Grids κ
  | .put actId slot =>
    if g.actPlacement actId = some slot then unplaceActivity d g actId else g
  | .took actId slot => placeActivityDirect d g actId slot

/-- Undo and pop entries until `mark` of them are left. -/
def rollback (mark : Nat) : List (Op Nat Nat) → Grids κ → List (Op Nat Nat) × Grids κ
  | [], g => ([], g)
  | op :: ops, g =>
    if mark < (op :: ops).length then rollback mark ops (undo d g op) else (op :: ops, g)

def jrnRollback (st : State κ) (mark : Nat) : State κ :=
  { st with
    moveJournal := (rollback d mark st.moveJournal st.grids).1
    grids := (rollback d mark st.moveJournal st.grids).2 }

end Journal

section Guard

def teacherSessionRequirement (g : Grids κ) (t : κ) : Nat :=
  if (g.rows (.gv t)).isNone then 0
  else ((List.range (TOTAL_SLOTS / PERIODS_PER_SESSION)).map fun b =>
    let cnt := ((List.range PERIODS_PER_SESSION).filter fun p =>
      busy (g.read (.gv t) (b * PERIODS_PER_SESSION + p))).length
    if 0 < cnt then max cnt 2 else 0).sum

/-- The teacher the two-period guard watches: a single one with a row and a load of two or more. -/
def guarded (g : Grids κ) (act : Act κ) (restricted : Bool) : Option (κ × Nat) :=
  if !set.minTwoGuardActive || restricted then none
  else match act.gv, set.teacherWeeklyLoad with
    | [t0], some load =>
      if (g.rows (.gv t0)).isNone || decide (load t0 < 2) then none else some (t0, load t0)
    | _, _ => none

def opensUnaffordableSession (g : Grids κ) (act : Act κ) (restricted : Bool) (slot : Nat) : Bool :=
  match guarded set g act restricted with
  | none => false
  | some (t0, mtL) =>
    ((List.range PERIODS_PER_SESSION).all fun p =>
      !busy (g.read (.gv t0) (slot / PERIODS_PER_SESSION * PERIODS_PER_SESSION + p)))
    && decide (mtL < teacherSessionRequirement g t0 + 2)

end Guard

structure Candidate where
  slot : Nat
  conflicts : List Nat
  penalty : Int
  deriving DecidableEq, Repr

/-- The candidate a slot gives: not one that is blocked, nor one that is tabu and not free. -/
def evaluate (st : State κ) (actId : Nat) (act : Act κ) (restricted : Bool) (slot : Nat) :
    Option Candidate :=
  if opensUnaffordableSession set st.grids act restricted slot then none
  else match getConflictsForSlot d set st.grids actId act slot with
    | none => none
    | some confs =>
      if !confs.isEmpty && (st.tabuMap actId slot).any (fun till => decide (st.currentStep < till))
      then none
      else some ⟨slot, confs, getPlacementPenalty st.grids act slot⟩

/-- `evaluated.sort`: fewer conflicts first, then the smaller penalty. -/
def Candidate.before (a b : Candidate) : Prop :=
  a.conflicts.length < b.conflicts.length ∨
    (a.conflicts.length = b.conflicts.length ∧ a.penalty ≤ b.penalty)

instance : DecidableRel Candidate.before := fun a b =>
  inferInstanceAs (Decidable (a.conflicts.length < b.conflicts.length ∨
    (a.conflicts.length = b.conflicts.length ∧ a.penalty ≤ b.penalty)))

section Swap

/-- Take one conflict out and remember it in `swappedInBranch`. -/
def displace (st : State κ) (confId : Nat) : State κ :=
  let st := jrnUnplace d st confId
  { st with swappedInBranch := confId :: st.swappedInBranch }

/-- `swappedInBranch.delete` for every conflict. -/
def forget (st : State κ) (conflicts : List Nat) : State κ :=
  { st with swappedInBranch := st.swappedInBranch.filter fun c => !conflicts.contains c }

/-- The slot the activity leaves becomes tabu for it. -/
def setTabu (st : State κ) (actId : Nat) (oldSlot : Option Nat) : State κ :=
  match oldSlot with
  | none => st
  | some s =>
    { st with tabuMap := fun a s' =>
        if a = actId ∧ s' = s then some (st.currentStep + d.activities.length)
        else st.tabuMap a s' }

/-- Take the conflicts out and put the activity into the slot. -/
def force (st : State κ) (actId : Nat) (cand : Candidate) : State κ :=
  let st := cand.conflicts.foldl (displace d) st
  setTabu d (jrnPlace d st actId cand.slot) actId (st.grids.actPlacement actId)

/-- Swap every displaced activity in turn; stop at the first that fails. -/
def placeDisplaced (swap : State κ → Nat → State κ × Option Chain) :
    List Nat → State κ → State κ × Option Chain
  | [], st => (st, some [])
  | c :: cs, st =>
    match swap st c with
    | (st, none) => (st, none)
    | (st, some kept) =>
      match placeDisplaced swap cs st with
      | (st, none) => (st, none)
      | (st, some kept') => (st, some (kept ++ kept'))

def tryCandidates (swap : State κ → Nat → State κ × Option Chain) (level actId : Nat) :
    List Candidate → State κ → State κ × Option Chain
  | [], st => (st, none)
  | cand :: rest, st =>
    if cand.conflicts.any fun c => st.swappedInBranch.contains c then
      tryCandidates swap level actId rest st
    else
      match placeDisplaced swap cand.conflicts (force d st actId cand) with
      | (st', some kept) => (forget st' cand.conflicts, some ((actId, cand.slot) :: kept))
      | (st', none) =>
        let st' := forget (jrnRollback d st' st.moveJournal.length) cand.conflicts
        if 6 ≤ level then (st', none) else tryCandidates swap level actId rest st'

/-- The conflict-free slot of least penalty if there is one, else the other candidates in order. -/
def trySlots (swap : State κ → Nat → State κ × Option Chain) (level actId : Nat)
    (cands : List Candidate) (st : State κ) : State κ × Option Chain :=
  match ((cands.filter (·.conflicts.isEmpty)).insertionSort (·.penalty ≤ ·.penalty)) with
  | best :: _ => (jrnPlace d st actId best.slot, some [(actId, best.slot)])
  | [] => tryCandidates d swap level actId
      ((cands.filter (!·.conflicts.isEmpty)).insertionSort Candidate.before) st

/-- Whether this call reads the clock: it does on every 256th call, if there is a deadline. -/
def readsClock (st : State κ) : Bool := set.solveDeadlineAt && decide (st.nCalls % 256 = 0)

/-- The counters of a call that was let in; at level 0 the journal starts anew. -/
def enter (st : State κ) (level : Nat) : State κ :=
  { st with
    moveJournal := if level = 0 then [] else st.moveJournal
    nCalls := st.nCalls + 1
    currentStep := st.currentStep + 1
    readings := if readsClock set st then st.readings + 1 else st.readings }

def candidateSlots (restrictSlots : Option (List Nat)) : List Nat :=
  match restrictSlots with
  | some (s :: ss) => s :: ss
  | _ => List.range TOTAL_SLOTS

/-- One call of `randomSwap`, with the calls one level deeper as an argument. -/
def swapCall (swap : State κ → Nat → State κ × Option Chain) (level : Nat) (st : State κ)
    (actId : Nat) (restrictSlots : Option (List Nat)) : State κ × Option Chain :=
  if set.limitCalls ≤ st.nCalls then (st, none)
  else if readsClock set st && d.late st.readings then
    ({ st with deadlineHit := true, readings := st.readings + 1 }, none)
  else
    let st := enter set st level
    match d.activities[actId]? with
    | none => (st, none)
    | some act =>
      if act.isFixed then (st, none)
      else
        let (slots, st) := shuffle d st (candidateSlots restrictSlots)
        trySlots d swap level actId
          (slots.filterMap (evaluate d set st actId act restrictSlots.isSome)) st

/-- `randomSwap` with so many levels left below the limit. -/
def swapWithin : Nat → State κ → Nat → Option (List Nat) → State κ × Option Chain
  | 0, st, _, _ => (st, none)
  | depth + 1, st, actId, restrictSlots =>
    swapCall d set (fun st c => swapWithin depth st c none)
      (MAX_RECURSION_LEVEL - (depth + 1)) st actId restrictSlots

def randomSwap (st : State κ) (actId level : Nat) (restrictSlots : Option (List Nat)) :
    State κ × Option Chain :=
  swapWithin d set (MAX_RECURSION_LEVEL - level) st actId restrictSlots

end Swap

section Ejection

/-- The first slot of a list at which an attempt succeeds. -/
def firstSlot (attempt : Grids κ → Nat → Grids κ × Option Chain) :
    List Nat → Grids κ → Grids κ × Option Chain
  | [], g => (g, none)
  | s :: ss, g =>
    match attempt g s with
    | (g, some kept) => (g, some kept)
    | (g, none) => firstSlot attempt ss g

/-- Direct placement, where nothing is in the way. -/
def direct (actId : Nat) (act : Act κ) (g : Grids κ) (slot : Nat) : Grids κ × Option Chain :=
  if getConflictsForSlot d set g actId act slot = some [] then
    (placeActivityDirect d g actId slot, some [(actId, slot)])
  else (g, none)

/-- Put the activity where exactly one other is in the way, and let `next` place
that one; if it cannot, both go back. `next` gets the slot the other one left. -/
def eject (allowed : Nat → Act κ → Bool)
    (next : Nat → Act κ → Nat → Grids κ → Grids κ × Option Chain)
    (actId : Nat) (act : Act κ) (g : Grids κ) (slot : Nat) : Grids κ × Option Chain :=
  match getConflictsForSlot d set g actId act slot with
  | some [confId] =>
    match d.activities[confId]?, g.actPlacement confId with
    | some confAct, some oldSlot =>
      if confAct.isFixed || !allowed confId confAct then (g, none)
      else
        match next confId confAct oldSlot
            (placeActivityDirect d (unplaceActivity d g confId) actId slot) with
        | (g, some kept) => (g, some ((actId, slot) :: kept))
        | (g, none) =>
          (placeActivityDirect d (unplaceActivity d g actId) confId oldSlot, none)
    | _, _ => (g, none)
  | _ => (g, none)

/-- Any slot but the one left, in ascending order. -/
def otherSlots (oldSlot : Nat) : List Nat := (List.range TOTAL_SLOTS).filter (· != oldSlot)

/-- Move to a free slot. -/
def relocate (actId : Nat) (act : Act κ) (oldSlot : Nat) (g : Grids κ) : Grids κ × Option Chain :=
  firstSlot (direct d set actId act) (otherSlots oldSlot) g

/-- 2-hop: take the slot of a third activity, which moves to a free one. -/
def relocateTwice (actId bId : Nat) (bAct : Act κ) (oldSlot : Nat) (g : Grids κ) :
    Grids κ × Option Chain :=
  firstSlot (eject d set (fun cId _ => cId != actId && cId != bId) (relocate d set) bId bAct)
    (otherSlots oldSlot) g

/-- Cross-class: at a slot the class has free, move the activity of another class
that keeps the teacher or the room. -/
def relocateAcross (bId : Nat) (bAct : Act κ) (oldSlot : Nat) (g : Grids κ) :
    Grids κ × Option Chain :=
  firstSlot
    (fun g sFree =>
      if g.read (.lop bAct.classId) sFree ≠ .free then (g, none)
      else eject d set (fun _ dAct => decide (dAct.classId ≠ bAct.classId)) (relocate d set)
        bId bAct g sFree)
    (otherSlots oldSlot) g

/-- The four rounds over the same shuffled slots. -/
def ejectionRounds (actId : Nat) (act : Act κ) (slots : List Nat) (g : Grids κ) :
    Grids κ × Option Chain :=
  match firstSlot (direct d set actId act) slots g with
  | (g, some kept) => (g, some kept)
  | (g, none) =>
    match firstSlot (eject d set (fun _ _ => true) (relocate d set) actId act) slots g with
    | (g, some kept) => (g, some kept)
    | (g, none) =>
      match firstSlot (eject d set (fun _ _ => true) (relocateTwice d set actId) actId act)
          slots g with
      | (g, some kept) => (g, some kept)
      | (g, none) =>
        firstSlot (eject d set (fun _ _ => true) (relocateAcross d set) actId act) slots g

def tryEjectionChain (st : State κ) (actId : Nat) : State κ × Option Chain :=
  match d.activities[actId]? with
  | none => (st, some [])
  | some act =>
    if (st.grids.actPlacement actId).isSome then (st, some [])
    else
      let (slots, st) := shuffle d st (List.range TOTAL_SLOTS)
      let r := ejectionRounds d set actId act slots st.grids
      ({ st with grids := r.1 }, r.2)

end Ejection

end TkbCherry.Fet
