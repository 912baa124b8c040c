import TkbCherry.Adapter.Metrics
import TkbCherry.Lib.Reindex

/-!
# Cycles of lesson blocks

`optimize_clean_quality_cycles` lets two or three blocks of one class and one length take one
another's slots, tries the cycles in the order of a fast quality and accepts one when the metrics of
the whole timetable say so. The clock is a stream of answers to `time.monotonic() >= deadline`, so a
result about a run is one about every clock.
-/

namespace TkbCherry.Adapter

set_option autoImplicit false

open Engine Grouping Reindex

/-! ### The fast quality -/

/-- `_teacher_slots` at a teacher. -/
def slotSet (lessons : List Lesson) (teacher : String) : Finset SlotKey :=
  ((lessons.filter fun l => decide (l.teacher = teacher)).map slotOf).toFinset

/-- The keys of `_teacher_slots`. -/
def labels (lessons : List Lesson) : List String :=
  ((lessons.map Lesson.teacher).filter fun teacher => decide (teacher ≠ "")).dedup

def teacherSlots (lessons : List Lesson) : List (String × Finset SlotKey) :=
  (labels lessons).map fun teacher => (teacher, slotSet lessons teacher)

/-- The sessions of the slots, the keys of `grouped`. -/
def sessionsOf (slots : Finset SlotKey) : Finset (Nat × Part) := slots.image fun s => (s.1, s.2.1)

/-- `unique`. -/
def periodsOf (slots : Finset SlotKey) (key : Nat × Part) : Finset Nat :=
  (slots.filter fun s => (s.1, s.2.1) = key).image fun s => s.2.2

/-- `gap` of a session. -/
def periodGap (periods : Finset Nat) : Int :=
  if 1 < periods.card then
    ((periods.sort (· ≤ ·)).getLast?.getD 0 : Nat) - ((periods.sort (· ≤ ·)).head?.getD 0 : Nat) + 1 -
      periods.card
  else 0

/-- What a session adds. -/
def sessionMetric (periods : Finset Nat) : Quality :=
  ![1, if periods.card = 1 then 1 else 0, if periodGap periods = 1 then 1 else 0,
    if 2 ≤ periodGap periods then 1 else 0, max 0 (periodGap periods)]

/-- `_teacher_metric`. -/
def teacherMetric (slots : Finset SlotKey) : Quality :=
  ∑ key ∈ sessionsOf slots, sessionMetric (periodsOf slots key)

def teacherMetrics (slots : List (String × Finset SlotKey)) : List (String × Quality) :=
  slots.map fun e => (e.1, teacherMetric e.2)

/-- The sum of the metrics of all teachers. -/
def totalQuality (metrics : List (String × Quality)) : Quality :=
  fun i => (metrics.map fun e => e.2 i).sum

/-- `_fast_quality`. -/
def fastQuality (lessons : List Lesson) : Quality :=
  totalQuality (teacherMetrics (teacherSlots lessons))

/-! ### Blocks -/

/-- `FixedSlot`. -/
abbrev PlaceKey := String × Nat × Part × Nat

def placeOf (l : Lesson) : PlaceKey := (l.className, l.day, l.session, l.period)

structure Block where
  className : String
  indices : List Nat
  slots : Finset SlotKey
  length : Nat
  subject : String
  teacher : String

/-- A lesson and its index. -/
abbrev Entry := Lesson × Nat

/-- The order of `sorted(grouped.items())`; the keys are distinct. -/
def sessionSortKey (key : String × Nat × Part) : Lex (String × Lex (Nat × String)) :=
  toLex (key.1, toLex (key.2.1, partText key.2.2))

/-- The lessons of every class and session, in the order of the periods. -/
def sessionRows (lessons : List Lesson) : List (List Entry) :=
  ((grouped (lessons.zipIdx.map fun e => ((e.1.className, e.1.day, e.1.session), e))).mergeSort
      fun a b => decide (sessionSortKey a.1 ≤ sessionSortKey b.1)).map fun row =>
    row.2.mergeSort fun a b => decide (a.1.period ≤ b.1.period)

/-- The test that extends `current`. -/
def continues (previous e : Entry) : Bool :=
  decide (e.1.period = previous.1.period + 1) && decide (e.1.subject = previous.1.subject) &&
    decide (e.1.teacher = previous.1.teacher)

/-- The block of a run; `none` when the run is fixed or has no teacher. -/
def blockOf (fixed : List PlaceKey) (run : List Entry) : Option Block :=
  match run with
  | [] => none
  | first :: _ =>
    if run.any fun e => decide (placeOf e.1 ∈ fixed) then none
    else if first.1.teacher = "" then none
    else some {
      className := first.1.className
      indices := run.map Prod.snd
      slots := (run.map fun e => slotOf e.1).toFinset
      length := run.length
      subject := first.1.subject
      teacher := first.1.teacher }

/-- `_blocks`. -/
def blocks (lessons : List Lesson) (fixed : List PlaceKey) : List Block :=
  (sessionRows lessons).flatMap fun row => (row.splitBy continues).filterMap (blockOf fixed)

/-! ### Cycles -/

/-- `removed` of a teacher: the slots that its blocks leave. -/
def removedAt (cycle : List Block) (teacher : String) : Finset SlotKey :=
  (((successors cycle).filter fun e => decide (e.1.teacher = teacher)).map fun e => e.1.slots).foldr
    (· ∪ ·) ∅

/-- `added` of a teacher: the slots that its blocks take. -/
def addedAt (cycle : List Block) (teacher : String) : Finset SlotKey :=
  (((successors cycle).filter fun e => decide (e.1.teacher = teacher)).map fun e => e.2.slots).foldr
    (· ∪ ·) ∅

/-- The loop body of `_cycle_quality`; `none` is `return None`. -/
def changeTeacher (cycle : List Block) (slots : List (String × Finset SlotKey))
    (metrics : List (String × Quality)) (quality : Quality) (teacher : String) : Option Quality :=
  let untouched := (slots.lookup teacher).getD ∅ \ removedAt cycle teacher
  if untouched ∩ addedAt cycle teacher ≠ ∅ then none
  else
    let old := (metrics.lookup teacher).getD 0
    let new := teacherMetric (untouched ∪ addedAt cycle teacher)
    some fun i => quality i + (new i - old i)

/-- `_cycle_quality`. -/
def cycleQuality (cycle : List Block) (slots : List (String × Finset SlotKey))
    (metrics : List (String × Quality)) (baseline : Quality) : Option Quality :=
  (cycle.map Block.teacher).dedup.foldlM (changeTeacher cycle slots metrics) baseline

/-- `replace(target, subject=…, teacher=…, room=…)`. -/
def receive (target source : Lesson) : Lesson :=
  { target with subject := source.subject, teacher := source.teacher, room := source.room }

/-- `sorted(block.indices, key=…)`. -/
def sortedIndices (lessons : List Lesson) (block : Block) : List Nat :=
  block.indices.mergeSort fun i j =>
    decide ((lessons[i]?).elim 0 Lesson.period ≤ (lessons[j]?).elim 0 Lesson.period)

/-- The target and the source of every write of `_apply_cycle`. -/
def cycleWrites (lessons : List Lesson) (cycle : List Block) : List (Nat × Nat) :=
  matched (sortedIndices lessons) (successors cycle)

def writeLesson (lessons candidate : List Lesson) (e : Nat × Nat) : List Lesson :=
  match lessons[e.1]?, lessons[e.2]? with
  | some target, some source => candidate.set e.1 (receive target source)
  | _, _ => candidate

/-- `_apply_cycle`. -/
def applyCycle (lessons : List Lesson) (cycle : List Block) : List Lesson :=
  (cycleWrites lessons cycle).foldl (writeLesson lessons) lessons

/-! ### Candidates -/

/-- `itertools.combinations`. -/
def combinations {α : Type} (n : Nat) (l : List α) : List (List α) := (l.sublistsLen n).reverse

/-- The blocks of every class and length, in the order in which the keys occur. -/
def blockGroups (bs : List Block) : List (List Block) :=
  let entries := bs.map fun b => ((b.className, b.length), b)
  ((entries.map Prod.fst).reverse.dedup.reverse).map fun key => valuesAt key entries

structure Candidate where
  quality : Quality
  cycle : List Block
  operator : String

/-- The cycles of a pair. -/
def pairCycles (pair : List Block) : List (List Block × String) :=
  if (pair.map Block.teacher).Nodup then [(pair, "equal_block_swap")] else []

/-- Both directions of a triple. -/
def tripleCycles (triple : List Block) : List (List Block × String) :=
  if (triple.map Block.teacher).Nodup then
    [(triple, "three_block_ejection"),
      ((triple.take 1 ++ (triple.drop 1).reverse), "three_block_ejection")]
  else []

/-- The cycles that are better than the timetable. -/
def improvingCycles (slots : List (String × Finset SlotKey)) (metrics : List (String × Quality))
    (cycles : List (List Block × String)) : List Candidate :=
  cycles.filterMap fun e =>
    (cycleQuality e.1 slots metrics (totalQuality metrics)).bind fun quality =>
      if quality.improves (totalQuality metrics) = true then some ⟨quality, e.1, e.2⟩ else none

/-- A computation that reads the clock. -/
abbrev Clocked := StateM (Nat → Bool)

/-- `time.monotonic() >= deadline`. -/
def isLate : Clocked Bool := do
  let late ← get
  set fun n => late (n + 1)
  pure (late 0)

/-- A loop that the deadline breaks, with what it appends. -/
def untilLate {α β : Type} (body : α → Clocked (List β)) : List α → Clocked (List β)
  | [] => pure []
  | x :: rest => do
    let late ← isLate
    if late = true then pure []
    else do
      let here ← body x
      let later ← untilLate body rest
      pure (here ++ later)

/-- The order of `result.sort`. -/
def candidateKey (c : Candidate) :
    Lex (List Int × Lex (Nat × Lex (String × List (List Nat)))) :=
  toLex (List.ofFn c.quality, toLex (c.cycle.length,
    toLex ((c.cycle.head?.map Block.className).getD "", c.cycle.map Block.indices)))

/-- The two inner loops for one group. -/
def groupCandidates (slots : List (String × Finset SlotKey)) (metrics : List (String × Quality))
    (group : List Block) : Clocked (List Candidate) := do
  let pairs ← untilLate (fun pair => pure (improvingCycles slots metrics (pairCycles pair)))
    (combinations 2 group)
  let triples ← untilLate (fun triple => pure (improvingCycles slots metrics (tripleCycles triple)))
    (combinations 3 group)
  pure (pairs ++ triples)

/-- `_candidate_cycles`. -/
def candidateCycles (lessons : List Lesson) (fixed : List PlaceKey) : Clocked (List Candidate) := do
  let slots := teacherSlots lessons
  let metrics := teacherMetrics slots
  let result ← untilLate (groupCandidates slots metrics) (blockGroups (blocks lessons fixed))
  pure (result.mergeSort fun a b => decide (candidateKey a ≤ candidateKey b))

end TkbCherry.Adapter
