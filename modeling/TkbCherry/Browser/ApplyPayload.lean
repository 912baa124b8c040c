import TkbCherry.Browser.OffCells
import TkbCherry.Lib.Placing
import TkbCherry.Lib.Words

/-!
# The timetable rebuilt from a solver payload

`applyPayload` writes the lessons of a payload into empty tables and puts the fixed lessons back
around them. A fixed lesson is a credit of its subject: the payload lessons at fixed cells of their
subject are taken first, and each further one of the subject is dropped while a credit is left.
-/

namespace TkbCherry.Browser

set_option autoImplicit false

open Placing

/-! ### Data -/

/-- `fixedLessonLockKey` is `classId|thu|buoi|ti`; the last three parts have no `|`. -/
structure FixedLock where
  classId : String
  slot : SlotKey
  subject : String
deriving DecidableEq, Repr

/-- A lesson of the payload; `slot` is `dayKey`, `sessionKey` and `period - 1`. -/
structure PayloadLesson where
  classId : String
  className : String
  slot : SlotKey
  subject : String
  teacher : String
deriving DecidableEq, Repr

structure PayloadClass where
  id : Option String
  name : String

structure Payload where
  classes : List PayloadClass
  lessons : List PayloadLesson
  allowShrink : Bool

/-- `DATA` before the payload: the timetable and the locks of `collectOffLocks`. -/
structure Incumbent where
  tkb : List (String × (String × String → List Cell))
  nodup : (tkb.map Prod.fst).Nodup
  offLocks : List (String × SlotKey)

/-- The shape of a fresh table and what is looked up in other data. -/
structure Bridge where
  days : List String
  nodup : days.Nodup
  sang : Nat
  chieu : Nat
  /-- the subjects of `computeMonsForClass` -/
  uiSubjects : String → List String
  /-- the set of `addSubjectAliases` -/
  aliases : String → List String
  /-- `fixedLessonCanonicalSubjectKey`, the first of a set with the key of the subject itself -/
  canonicalKey : String → String
  canonicalKey_empty : canonicalKey "" = ""
  canonicalKey_ne : ∀ s, jsTrim s ≠ "" → canonicalKey s ≠ ""
  /-- `teacherFixedOffViolationForLesson` of the class, the subject and the lesson -/
  teacherFixedOff : String → String → PayloadLesson → Bool

@[simp] theorem jsTrim_jsTrim (s : String) : jsTrim (jsTrim s) = jsTrim s := by
  have h := Words.trimmed_trimmed isJsSpace s.toList
  calc jsTrim (jsTrim s)
      = String.ofList (Words.trimmed isJsSpace
          (String.ofList (Words.trimmed isJsSpace s.toList)).toList) := rfl
    _ = jsTrim s := by
      rw [String.toList_ofList, h]
      rfl

/-- `cellSubjectText`. -/
def cellSubjectText : Cell → String
  | .missing => ""
  | .text s => jsTrim s
  | .record mon _ => jsTrim mon

theorem jsTrim_cellSubjectText (c : Cell) : jsTrim (cellSubjectText c) = cellSubjectText c := by
  cases c with
  | missing => decide
  | text s => exact jsTrim_jsTrim s
  | record mon fixed => exact jsTrim_jsTrim mon

/-- `isScheduledCell`. -/
def isScheduledCell (c : Cell) : Bool :=
  decide (cellSubjectText c ≠ "") && decide (cellSubjectText c ≠ "OFF")

def weekSessions : List (String × String) :=
  ["thu2", "thu3", "thu4", "thu5", "thu6", "thu7"].flatMap fun thu => [(thu, "sang"), (thu, "chieu")]

namespace Incumbent
variable (data : Incumbent)

/-- `collectFixedLessonLocks`. -/
def fixedLessonLocks : List FixedLock :=
  data.tkb.flatMap fun e => weekSessions.flatMap fun session =>
    (e.2 session).zipIdx.filterMap fun cell =>
      if isScheduledCell cell.1 && cell.1.isFixed then
        some ⟨e.1, (session.1, session.2, (cell.2 : Int)), cellSubjectText cell.1⟩
      else none

/-- `countScheduledLessons`. -/
def scheduledLessons : Nat :=
  (data.tkb.flatMap fun e => weekSessions.flatMap fun session =>
    (e.2 session).filter isScheduledCell).length

end Incumbent

/-- `classIdForLesson`; a class without id gives the text `undefined`. -/
def classIdForLesson (payload : Payload) (l : PayloadLesson) : String :=
  if l.classId ≠ "" then l.classId
  else
    match payload.classes.find? fun c => decide (c.name = l.className) with
    | some c => c.id.getD "undefined"
    | none => l.className

namespace Bridge
variable (env : Bridge)

/-- The cells of `makeEmptyTKB`. -/
def slots : List SlotKey :=
  env.days.flatMap fun thu =>
    (List.range env.sang).map (fun i : Nat => (thu, "sang", (i : Int))) ++
      (List.range env.chieu).map fun i : Nat => (thu, "chieu", (i : Int))

/-- `makeUiSubjectResolver`. -/
def resolveSubject (classId raw : String) : String :=
  let subject := jsTrim raw
  if subject = "" then ""
  else
    ((((env.uiSubjects classId).map jsTrim).filter fun item => decide (item ≠ "")).find? fun item =>
      (env.aliases subject).any fun key => (env.aliases item).contains key).getD subject

/-- `fixedLessonLockMatches`. -/
def lockMatches (lock : FixedLock) (subject : String) : Bool :=
  decide (env.canonicalKey lock.subject ≠ "") && decide (env.canonicalKey subject ≠ "") &&
    decide (env.canonicalKey lock.subject = env.canonicalKey subject)

/-- `fixedLessonLocks.get(key)`. -/
def lockAt (locks : List FixedLock) (classId : String) (slot : SlotKey) : Option FixedLock :=
  locks.find? fun k => decide (k.classId = classId ∧ k.slot = slot)

/-- The key joins into four parts. -/
def splits (classId : String) : Bool := decide ('|' ∉ classId.toList)

def countKey (classId key : String) : String := classId ++ "|" ++ key

/-- `fixedSubjectRemainders` before the lessons. -/
def fixedSubjectRemainders (locks : List FixedLock) (key : String) : Nat :=
  (locks.filter fun k => splits k.classId && decide (k.classId ≠ "") &&
    decide (env.canonicalKey k.subject ≠ "") &&
    decide (countKey k.classId (env.canonicalKey k.subject) = key)).length

end Bridge

/-- The tables under construction and the credits of the fixed subjects. A table is made for a class
when it is first needed, with empty cells. -/
structure Rebuild where
  classes : List String
  cell : String × SlotKey → Cell
  remain : String → Nat

namespace Bridge
variable (env : Bridge)

def ensureClass (b : Rebuild) (classId : String) : Rebuild :=
  { b with classes := if classId ∈ b.classes then b.classes else b.classes ++ [classId] }

/-- `arr[ti] = value` where the cell is in the table. -/
def writeCell (b : Rebuild) (classId : String) (slot : SlotKey) (v : Cell) : Rebuild :=
  if slot ∈ env.slots then { b with cell := Function.update b.cell (classId, slot) v } else b

/-- `consumeFixedSubject` with a class: whether a credit was left, and the credits. -/
def hasCredit (b : Rebuild) (classId subject : String) : Bool :=
  decide (env.canonicalKey subject ≠ "") &&
    decide (0 < b.remain (countKey classId (env.canonicalKey subject)))

def consume (b : Rebuild) (classId subject : String) : Rebuild :=
  let key := countKey classId (env.canonicalKey subject)
  if env.hasCredit b classId subject then
    { b with remain := Function.update b.remain key (b.remain key - 1) }
  else b

/-- One lesson of the loop, with the class and the subject that it resolves to. -/
def placeLesson (locks : List FixedLock) (b : Rebuild) (classId subject : String) (slot : SlotKey) :
    Rebuild :=
  if classId = "" then b
  else
    let b := ensureClass b classId
    match lockAt locks classId slot with
    | some lock =>
      if env.lockMatches lock subject then
        if slot ∈ env.slots then
          env.writeCell (env.consume b classId subject) classId slot
            (.record (if lock.subject ≠ "" then lock.subject else subject) true)
        else b
      else b
    | none =>
      if env.hasCredit b classId subject then env.consume b classId subject
      else env.writeCell b classId slot (.text subject)

/-- `isAtFixedCell` of `orderPayloadLessonsFixedFirst`. -/
def atFixedCell (locks : List FixedLock) (classId subject : String) (slot : SlotKey) : Bool :=
  decide (classId ≠ "") &&
    (lockAt locks classId slot).any fun lock => env.lockMatches lock subject

/-- `applyOffLocks`. -/
def applyOffLocks (b : Rebuild) (locks : List (String × SlotKey)) : Rebuild :=
  locks.foldl (fun b e => env.writeCell (ensureClass b e.1) e.1 e.2 .off) b

/-- `applyFixedLessonLocks`. -/
def applyFixedLessonLocks (b : Rebuild) (locks : List FixedLock) : Rebuild :=
  locks.foldl (fun b k =>
    if splits k.classId && decide (k.classId ≠ "") && decide (k.subject ≠ "") then
      env.writeCell (ensureClass b k.classId) k.classId k.slot (.record k.subject true)
    else b) b

/-- A payload lesson with its class and its subject. -/
structure Entry where
  classId : String
  subject : String
  slot : SlotKey
deriving DecidableEq, Repr

/-- The lessons that pass `filterTeacherFixedOffPayloadLessons`. -/
def entries (payload : Payload) : List Entry :=
  (payload.lessons.filter fun l =>
    let classId := classIdForLesson payload l
    !env.teacherFixedOff classId (env.resolveSubject classId l.subject) l).map fun l =>
      ⟨classIdForLesson payload l, env.resolveSubject (classIdForLesson payload l) l.subject, l.slot⟩

/-- The guard against a payload that shrinks the timetable. -/
def rejected (data : Incumbent) (payload : Payload) : Bool :=
  !payload.allowShrink && decide (50 ≤ data.scheduledLessons) &&
    decide ((env.entries payload).length + data.fixedLessonLocks.length <
      data.scheduledLessons * 3 / 5)

def emptyTables (payload : Payload) (locks : List FixedLock) : Rebuild where
  classes := ((payload.classes.map fun c =>
    if c.id.getD "" ≠ "" then c.id.getD "" else c.name).filter fun id => decide (id ≠ "")).eraseDups
  cell := fun _ => .text ""
  remain := env.fixedSubjectRemainders locks

/-- The lessons in the order of the loop. -/
def fixedFirst (locks : List FixedLock) (es : List Entry) : List Entry :=
  (es.filter fun e => env.atFixedCell locks e.classId e.subject e.slot) ++
    es.filter fun e => !env.atFixedCell locks e.classId e.subject e.slot

/-- The table that replaces `data.tkb`. -/
def nextTkb (data : Incumbent) (payload : Payload) : Rebuild :=
  let locks := data.fixedLessonLocks
  let b := (env.fixedFirst locks (env.entries payload)).foldl
    (fun b e => env.placeLesson locks b e.classId e.subject e.slot) (env.emptyTables payload locks)
  env.applyFixedLessonLocks (env.applyOffLocks b data.offLocks) locks

/-- `applyPayload` up to `data.tkb = nextTkb`; `none` when the guard rejects the payload. -/
def applyPayload (data : Incumbent) (payload : Payload) : Option Rebuild :=
  if env.rejected data payload then none else some (env.nextTkb data payload)

/-! ### What is lost and what is kept -/

/-- The subject key of a cell with a lesson. -/
def keyOf (c : Cell) : Option String :=
  if isScheduledCell c then some (env.canonicalKey (cellSubjectText c)) else none

/-- The lessons of a subject in the rebuilt table of a class. -/
def lessonsIn (b : Rebuild) (classId key : String) : Nat :=
  (env.slots.filter fun slot => decide (env.keyOf (b.cell (classId, slot)) = some key)).length

def lessonsOf (payload : Payload) (classId key : String) : Nat :=
  (payload.lessons.filter fun l => decide (classIdForLesson payload l = classId ∧
    env.canonicalKey (env.resolveSubject (classIdForLesson payload l) l.subject) = key)).length

def fixedOf (locks : List FixedLock) (classId key : String) : Nat :=
  (locks.filter fun k => decide (k.classId = classId ∧ env.canonicalKey k.subject = key)).length

/-- Every fixed lesson stands at its slot, the cell of a payload lesson has no other lesson of the
payload, and where no lesson lies on a cell fixed for another subject every subject has the larger of
its two numbers of lessons. -/
structure Lossless (data : Incumbent) (payload : Payload) (b : Rebuild) : Prop where
  fixed : ∀ k ∈ data.fixedLessonLocks, k.classId ∈ b.classes ∧
    b.cell (k.classId, k.slot) = .record k.subject true
  own : ∀ l ∈ payload.lessons,
    b.cell (classIdForLesson payload l, l.slot) = .text "" ∨
    b.cell (classIdForLesson payload l, l.slot) =
      .text (env.resolveSubject (classIdForLesson payload l) l.subject) ∨
    ∃ k ∈ data.fixedLessonLocks, k.classId = classIdForLesson payload l ∧ k.slot = l.slot ∧
      b.cell (classIdForLesson payload l, l.slot) = .record k.subject true
  counts : (∀ l ∈ payload.lessons, ∀ k ∈ data.fixedLessonLocks,
      k.classId = classIdForLesson payload l → k.slot = l.slot →
        env.lockMatches k (env.resolveSubject (classIdForLesson payload l) l.subject) = true) →
    ∀ classId subject, classId ≠ "" → jsTrim subject ≠ "" →
      env.lessonsIn b classId (env.canonicalKey subject) =
        max (env.lessonsOf payload classId (env.canonicalKey subject))
          (env.fixedOf data.fixedLessonLocks classId (env.canonicalKey subject))

/-- The lessons of each class occupy distinct slots of the table without an OFF lock. -/
structure WellPlaced (data : Incumbent) (payload : Payload) : Prop where
  range : ∀ l ∈ payload.lessons, l.slot ∈ env.slots
  distinct : (payload.lessons.map fun l => (classIdForLesson payload l, l.slot)).Nodup
  classOff : ∀ l ∈ payload.lessons, (classIdForLesson payload l, l.slot) ∉ data.offLocks
  teacherOff : ∀ l ∈ payload.lessons, env.teacherFixedOff (classIdForLesson payload l)
    (env.resolveSubject (classIdForLesson payload l) l.subject) l = false

/-- Class ids fit into the keys, the fixed cells lie in the fresh table, and no subject of the payload
is the OFF mark. -/
structure Regular (data : Incumbent) (payload : Payload) : Prop where
  lessonClass : ∀ l ∈ payload.lessons, splits (classIdForLesson payload l) = true
  lockClass : ∀ k ∈ data.fixedLessonLocks, k.classId ≠ "" ∧ splits k.classId = true
  lockRange : ∀ k ∈ data.fixedLessonLocks, k.slot ∈ env.slots
  subject : ∀ l ∈ payload.lessons, env.resolveSubject (classIdForLesson payload l) l.subject ≠ "OFF"

end Bridge

/-! ### Fixed lessons of the incumbent -/

theorem mem_fixedLessonLocks {data : Incumbent} {k : FixedLock} (h : k ∈ data.fixedLessonLocks) :
    k.subject ≠ "" ∧ k.subject ≠ "OFF" ∧ jsTrim k.subject = k.subject := by
  simp only [Incumbent.fixedLessonLocks, List.mem_flatMap, List.mem_filterMap] at h
  obtain ⟨_, _, _, _, ⟨c, i⟩, _, hk⟩ := h
  by_cases hc : (isScheduledCell c && c.isFixed) = true
  · rw [if_pos hc] at hk
    cases hk
    obtain ⟨hs, _⟩ := Bool.and_eq_true_iff.mp hc
    simp only [isScheduledCell, Bool.and_eq_true, decide_eq_true_eq] at hs
    refine ⟨hs.1, hs.2, ?_⟩
    exact jsTrim_cellSubjectText c
  · rw [if_neg hc] at hk
    cases hk

/-- The cells of the incumbent are distinct. -/
theorem Incumbent.nodup_fixedLessonLocks (data : Incumbent) :
    (data.fixedLessonLocks.map fun k => (k.classId, k.slot)).Nodup := by
  have hlock : ∀ {id : String} {session : String × String} {cell : Cell × Nat} {k : FixedLock},
      (if isScheduledCell cell.1 && cell.1.isFixed then
        some (⟨id, (session.1, session.2, (cell.2 : Int)), cellSubjectText cell.1⟩ : FixedLock)
      else none) = some k → k.classId = id ∧ k.slot = (session.1, session.2, (cell.2 : Int)) := by
    intro id session cell k hk
    split at hk
    · cases hk
      exact ⟨rfl, rfl⟩
    · cases hk
  apply nodup_flatMap_of_tag _ Prod.fst Prod.fst data.nodup
  · intro e _
    have hweek : (weekSessions.map id).Nodup := by decide
    apply nodup_flatMap_of_tag _ id (fun p : String × SlotKey => (p.2.1, p.2.2.1)) hweek
    · intro session _
      have hindex : ((e.2 session).zipIdx.map fun cell => (cell.2 : Int)).Nodup := by
        have hnat : ((e.2 session).zipIdx.map Prod.snd).Nodup := by
          rw [List.zipIdx_map_snd]
          exact List.nodup_range'
        have hcast := hnat.map (f := fun n : Nat => (n : Int)) fun a b h => Int.ofNat.inj h
        rwa [List.map_map] at hcast
      rw [List.filterMap_eq_flatMap_toList]
      apply nodup_flatMap_of_tag _ _ (fun p : String × SlotKey => p.2.2.2) hindex
      · intro cell _
        cases hk : (if isScheduledCell cell.1 && cell.1.isFixed then
            some (⟨e.1, (session.1, session.2, (cell.2 : Int)), cellSubjectText cell.1⟩ : FixedLock)
          else none) with
        | none => exact List.nodup_nil
        | some k => exact List.nodup_singleton _
      · intro cell _ k hk
        rw [(hlock (Option.mem_toList.mp hk)).2]
    · intro session _ k hk
      obtain ⟨cell, _, hk⟩ := List.mem_filterMap.mp hk
      rw [(hlock hk).2]
      rfl
  · intro e _ k hk
    obtain ⟨session, _, hk⟩ := List.mem_flatMap.mp hk
    obtain ⟨cell, _, hk⟩ := List.mem_filterMap.mp hk
    exact (hlock hk).1

namespace Bridge
variable {env : Bridge} {locks : List FixedLock}

theorem mem_of_lockAt {classId : String} {slot : SlotKey} {k : FixedLock}
    (h : lockAt locks classId slot = some k) : k ∈ locks ∧ k.classId = classId ∧ k.slot = slot := by
  have hmem := List.mem_of_find?_eq_some h
  have hkey := List.find?_some h
  exact ⟨hmem, of_decide_eq_true hkey⟩

theorem lockAt_eq_some_iff (hnodup : (locks.map fun k => (k.classId, k.slot)).Nodup) {classId : String}
    {slot : SlotKey} {k : FixedLock} :
    lockAt locks classId slot = some k ↔ k ∈ locks ∧ k.classId = classId ∧ k.slot = slot := by
  constructor
  · exact mem_of_lockAt
  · intro h
    obtain ⟨hmem, rfl, rfl⟩ := h
    cases hfound : lockAt locks k.classId k.slot with
    | none =>
      have hnone := List.find?_eq_none.mp hfound k hmem
      simp at hnone
    | some k' =>
      obtain ⟨hmem', hkey⟩ := mem_of_lockAt hfound
      have heq : (fun k : FixedLock => (k.classId, k.slot)) k' = (k.classId, k.slot) :=
        Prod.ext hkey.1 hkey.2
      rw [List.inj_on_of_nodup_map hnodup hmem' hmem heq]

theorem lockAt_eq_none_iff {classId : String} {slot : SlotKey} :
    lockAt locks classId slot = none ↔ ∀ k ∈ locks, ¬ (k.classId = classId ∧ k.slot = slot) := by
  rw [lockAt, List.find?_eq_none]
  simp only [decide_eq_true_eq]

/-- Class ids without the separator are read off the keys. -/
theorem countKey_inj {c c' key key' : String} (hc : splits c = true) (hc' : splits c' = true) :
    countKey c key = countKey c' key' ↔ c = c' ∧ key = key' := by
  constructor
  · intro h
    have hlist : c.toList ++ '|' :: key.toList = c'.toList ++ '|' :: key'.toList := by
      have hchars := congrArg String.toList h
      simpa [countKey, String.toList_append] using hchars
    have hrev := congrArg List.reverse hlist
    rw [List.reverse_append, List.reverse_append, List.reverse_cons, List.reverse_cons,
      List.append_assoc, List.append_assoc, List.singleton_append, List.singleton_append] at hrev
    have hout : '|' ∉ c.toList.reverse := fun hm => of_decide_eq_true hc (List.mem_reverse.mp hm)
    have hout' : '|' ∉ c'.toList.reverse := fun hm => of_decide_eq_true hc' (List.mem_reverse.mp hm)
    obtain ⟨hkey, hid⟩ := Words.append_sep_inj hout hout' hrev
    exact ⟨String.toList_inj.mp (List.reverse_inj.mp hid),
      String.toList_inj.mp (List.reverse_inj.mp hkey)⟩
  · intro h
    rw [h.1, h.2]

theorem applyPayload_eq_some {data : Incumbent} {payload : Payload}
    (h : env.rejected data payload = false) :
    env.applyPayload data payload = some (env.nextTkb data payload) := by
  rw [applyPayload, h]
  rfl

/-! ### The loop over the lessons -/

def placeAll (env : Bridge) (locks : List FixedLock) (b : Rebuild) (es : List Entry) : Rebuild :=
  es.foldl (fun b e => env.placeLesson locks b e.classId e.subject e.slot) b

def Entry.pos (e : Entry) : String × SlotKey := (e.classId, e.slot)

def Entry.countKey (env : Bridge) (e : Entry) : String :=
  Bridge.countKey e.classId (env.canonicalKey e.subject)

@[simp] theorem ensureClass_cell (b : Rebuild) (classId : String) :
    (ensureClass b classId).cell = b.cell := rfl

@[simp] theorem ensureClass_remain (b : Rebuild) (classId : String) :
    (ensureClass b classId).remain = b.remain := rfl

@[simp] theorem consume_cell (b : Rebuild) (classId subject : String) :
    (env.consume b classId subject).cell = b.cell := by
  unfold consume
  dsimp only
  split <;> rfl

@[simp] theorem writeCell_remain (b : Rebuild) (classId : String) (slot : SlotKey) (v : Cell) :
    (env.writeCell b classId slot v).remain = b.remain := by
  unfold writeCell
  split <;> rfl

@[simp] theorem writeCell_classes (b : Rebuild) (classId : String) (slot : SlotKey) (v : Cell) :
    (env.writeCell b classId slot v).classes = b.classes := by
  unfold writeCell
  split <;> rfl

theorem mem_ensureClass {b : Rebuild} {c classId : String} (h : c ∈ b.classes) :
    c ∈ (ensureClass b classId).classes := by
  unfold ensureClass
  dsimp only
  split
  · exact h
  · exact List.mem_append_left _ h

theorem self_mem_ensureClass (b : Rebuild) (classId : String) :
    classId ∈ (ensureClass b classId).classes := by
  unfold ensureClass
  dsimp only
  split
  · assumption
  · exact List.mem_append_right _ List.mem_cons_self

/-- Spending a credit, or leaving zero credits at zero. -/
theorem consume_remain (b : Rebuild) {classId subject : String} (h : env.canonicalKey subject ≠ "") :
    (env.consume b classId subject).remain =
      Function.update b.remain (countKey classId (env.canonicalKey subject))
        (b.remain (countKey classId (env.canonicalKey subject)) - 1) := by
  unfold consume hasCredit
  dsimp only
  by_cases hpos : 0 < b.remain (countKey classId (env.canonicalKey subject))
  · rw [if_pos (by simp [h, hpos])]
  · rw [if_neg (by simp [hpos])]
    have hzero : b.remain (countKey classId (env.canonicalKey subject)) - 1 =
        b.remain (countKey classId (env.canonicalKey subject)) := by omega
    rw [hzero, Function.update_eq_self]

theorem lockMatches_iff {lock : FixedLock} {subject : String} : env.lockMatches lock subject = true ↔
    env.canonicalKey lock.subject ≠ "" ∧ env.canonicalKey subject ≠ "" ∧
      env.canonicalKey lock.subject = env.canonicalKey subject := by
  simp only [lockMatches, Bool.and_eq_true, decide_eq_true_eq, and_assoc]

/-- The lessons at fixed cells of their subject spend one credit each and write nowhere else. -/
theorem place_atFixed {es : List Entry}
    (hfixed : ∀ e ∈ es, env.atFixedCell locks e.classId e.subject e.slot = true)
    (hrange : ∀ e ∈ es, e.slot ∈ env.slots) (b : Rebuild) :
    (∀ p, (∀ e ∈ es, e.pos ≠ p) → (placeAll env locks b es).cell p = b.cell p) ∧
    ∀ key, (placeAll env locks b es).remain key =
      b.remain key - (es.filter fun e => decide (e.countKey env = key)).length := by
  induction es generalizing b with
  | nil => exact ⟨fun _ _ => rfl, fun _ => rfl⟩
  | cons e es ih =>
    have he := hfixed e List.mem_cons_self
    unfold atFixedCell at he
    obtain ⟨hclass, hlock⟩ := Bool.and_eq_true_iff.mp he
    have hclass : ¬ e.classId = "" := of_decide_eq_true hclass
    cases hk : lockAt locks e.classId e.slot with
    | none =>
      rw [hk] at hlock
      cases hlock
    | some k =>
      rw [hk, Option.any_some] at hlock
      have hstep : env.placeLesson locks b e.classId e.subject e.slot =
          env.writeCell (env.consume (ensureClass b e.classId) e.classId e.subject) e.classId e.slot
            (.record (if k.subject ≠ "" then k.subject else e.subject) true) := by
        simp only [placeLesson, if_neg hclass, hk, hlock, if_true,
          if_pos (hrange e List.mem_cons_self)]
      have hkey : env.canonicalKey e.subject ≠ "" := (lockMatches_iff.mp hlock).2.1
      obtain ⟨hcell, hremain⟩ := ih (fun e' he' => hfixed e' (List.mem_cons_of_mem _ he'))
        (fun e' he' => hrange e' (List.mem_cons_of_mem _ he'))
        (env.placeLesson locks b e.classId e.subject e.slot)
      constructor
      · intro p hp
        have hne : p ≠ (e.classId, e.slot) := fun h => hp e List.mem_cons_self h.symm
        have htail := hcell p fun e' he' => hp e' (List.mem_cons_of_mem _ he')
        have hwritten : (env.placeLesson locks b e.classId e.subject e.slot).cell p = b.cell p := by
          rw [hstep, writeCell, if_pos (hrange e List.mem_cons_self)]
          dsimp only
          rw [Function.update_of_ne hne, consume_cell, ensureClass_cell]
        exact htail.trans hwritten
      · intro key
        have htail := hremain key
        rw [hstep, writeCell_remain, consume_remain _ hkey, ensureClass_remain] at htail
        have hcons : (placeAll env locks b (e :: es)).remain key = (placeAll env locks
            (env.placeLesson locks b e.classId e.subject e.slot) es).remain key := rfl
        rw [hcons, hstep, htail]
        by_cases heq : e.countKey env = key
        · subst heq
          simp only [Entry.countKey, Function.update_self, List.filter_cons, decide_true, if_true,
            List.length_cons]
          omega
        · have hne : key ≠ countKey e.classId (env.canonicalKey e.subject) := fun h => heq h.symm
          rw [Function.update_of_ne hne, List.filter_cons_of_neg (by simpa using heq)]

theorem consume_remain_le (env : Bridge) (b : Rebuild) (classId subject key : String) :
    (env.consume b classId subject).remain key ≤ b.remain key := by
  unfold consume
  dsimp only
  split
  · dsimp only
    by_cases hkey : key = countKey classId (env.canonicalKey subject)
    · subst hkey
      rw [Function.update_self]
      exact Nat.sub_le _ _
    · rw [Function.update_of_ne hkey]
  · exact Nat.le_refl _

theorem placeLesson_remain_le (b : Rebuild) (e : Entry) (key : String) :
    (env.placeLesson locks b e.classId e.subject e.slot).remain key ≤ b.remain key := by
  unfold placeLesson
  split
  · exact Nat.le_refl _
  · have hconsume := consume_remain_le env (ensureClass b e.classId) e.classId e.subject key
    dsimp only
    cases lockAt locks e.classId e.slot with
    | none =>
      dsimp only
      split
      · exact hconsume
      · rw [writeCell_remain]
        exact Nat.le_refl _
    | some lock =>
      dsimp only
      split
      · split
        · rw [writeCell_remain]
          exact hconsume
        · exact Nat.le_refl _
      · exact Nat.le_refl _

/-- The lessons that may be written: their class has a table and their cell is not fixed. -/
def Entry.free (locks : List FixedLock) (e : Entry) : Bool :=
  decide (e.classId ≠ "") && (lockAt locks e.classId e.slot).isNone

/-- The lessons that are written after the fixed cells, beyond the credits of their subjects. -/
def written (env : Bridge) (locks : List FixedLock) (credit : String → Nat) (es : List Entry) :
    List Entry :=
  beyond (Entry.countKey env) credit (es.filter (Entry.free locks))

/-- The other lessons write their subject beyond the credits that are left. -/
theorem place_others {es : List Entry}
    (hfixed : ∀ e ∈ es, env.atFixedCell locks e.classId e.subject e.slot = false)
    (hrange : ∀ e ∈ es, e.slot ∈ env.slots) (b : Rebuild)
    (hkey : ∀ e ∈ es, env.canonicalKey e.subject = "" → b.remain (e.countKey env) = 0) :
    (placeAll env locks b es).cell =
      Placing.place Entry.pos (fun e => Cell.text e.subject) b.cell (written env locks b.remain es) := by
  induction es generalizing b with
  | nil => rfl
  | cons e es ih =>
    have hspend : ∀ key, (env.placeLesson locks b e.classId e.subject e.slot).remain key ≤
        b.remain key := placeLesson_remain_le b e
    have htail := ih (fun e' he' => hfixed e' (List.mem_cons_of_mem _ he'))
      (fun e' he' => hrange e' (List.mem_cons_of_mem _ he'))
      (env.placeLesson locks b e.classId e.subject e.slot)
      (fun e' he' hempty => Nat.le_zero.mp
        (hkey e' (List.mem_cons_of_mem _ he') hempty ▸ hspend (e'.countKey env)))
    have hcons : (placeAll env locks b (e :: es)).cell = (placeAll env locks
        (env.placeLesson locks b e.classId e.subject e.slot) es).cell := rfl
    rw [hcons, htail]
    by_cases hclass : e.classId = ""
    · -- a lesson without a class
      have hstep : env.placeLesson locks b e.classId e.subject e.slot = b := by
        rw [placeLesson, if_pos hclass]
      have hfree : Entry.free locks e = false := by simp [Entry.free, hclass]
      rw [hstep, written, written, List.filter_cons_of_neg (by simp [hfree])]
    · cases hk : lockAt locks e.classId e.slot with
      | some k =>
        -- a cell that is fixed for another subject
        have hno : env.lockMatches k e.subject = false := by
          have he := hfixed e List.mem_cons_self
          simpa [atFixedCell, hclass, hk] using he
        have hstep : env.placeLesson locks b e.classId e.subject e.slot = ensureClass b e.classId := by
          simp [placeLesson, hclass, hk, hno]
        have hfree : Entry.free locks e = false := by simp [Entry.free, hk]
        rw [hstep, written, written, List.filter_cons_of_neg (by simp [hfree]), ensureClass_cell,
          ensureClass_remain]
      | none =>
        have hfree : Entry.free locks e = true := by simp [Entry.free, hclass, hk]
        rw [written, written, List.filter_cons_of_pos hfree, beyond]
        by_cases hcredit : 0 < b.remain (e.countKey env)
        · -- the lesson stands for a fixed one
          have hne : env.canonicalKey e.subject ≠ "" := fun hempty =>
            absurd (hkey e List.mem_cons_self hempty) (Nat.ne_of_gt hcredit)
          have hhas : env.hasCredit (ensureClass b e.classId) e.classId e.subject = true := by
            rw [hasCredit, ensureClass_remain]
            exact Bool.and_eq_true_iff.mpr ⟨decide_eq_true hne, decide_eq_true hcredit⟩
          have hstep : env.placeLesson locks b e.classId e.subject e.slot =
              env.consume (ensureClass b e.classId) e.classId e.subject := by
            simp only [placeLesson, if_neg hclass, hk, hhas, if_true]
          rw [hstep, if_pos hcredit, consume_cell, ensureClass_cell,
            consume_remain _ hne, ensureClass_remain]
          rfl
        · have hhas : env.hasCredit (ensureClass b e.classId) e.classId e.subject = false := by
            rw [hasCredit, ensureClass_remain]
            exact Bool.and_eq_false_iff.mpr (Or.inr (decide_eq_false hcredit))
          have hstep : env.placeLesson locks b e.classId e.subject e.slot =
              env.writeCell (ensureClass b e.classId) e.classId e.slot (.text e.subject) := by
            simp only [placeLesson, if_neg hclass, hk, hhas, Bool.false_eq_true, if_false]
          rw [hstep, if_neg hcredit, writeCell_remain, ensureClass_remain, writeCell,
            if_pos (hrange e List.mem_cons_self), ensureClass_cell]
          rfl

/-! ### The locks put back -/

theorem applyOffLocks_cell (b : Rebuild) (offLocks : List (String × SlotKey)) (p : String × SlotKey) :
    (env.applyOffLocks b offLocks).cell p =
      if p ∈ offLocks ∧ p.2 ∈ env.slots then .off else b.cell p := by
  induction offLocks generalizing b with
  | nil => simp [applyOffLocks]
  | cons e offLocks ih =>
    have hcons : env.applyOffLocks b (e :: offLocks) =
        env.applyOffLocks (env.writeCell (ensureClass b e.1) e.1 e.2 .off) offLocks := rfl
    rw [hcons, ih]
    by_cases hrest : p ∈ offLocks ∧ p.2 ∈ env.slots
    · rw [if_pos hrest, if_pos ⟨List.mem_cons_of_mem _ hrest.1, hrest.2⟩]
    · rw [if_neg hrest, writeCell]
      by_cases hslot : e.2 ∈ env.slots
      · rw [if_pos hslot]
        dsimp only
        by_cases hp : p = e
        · subst hp
          rw [if_pos ⟨List.mem_cons_self, hslot⟩]
          exact Function.update_self _ _ _
        · have hne : p ≠ (e.1, e.2) := hp
          rw [Function.update_of_ne hne, if_neg, ensureClass_cell]
          intro h
          exact hrest ⟨(List.mem_cons.mp h.1).resolve_left hp, h.2⟩
      · rw [if_neg hslot, if_neg, ensureClass_cell]
        intro h
        cases List.mem_cons.mp h.1 with
        | inl hp => exact hslot (hp ▸ h.2)
        | inr hmem => exact hrest ⟨hmem, h.2⟩

/-- The fixed lessons stand at their cells, and no other cell changes. -/
theorem applyFixedLocks_cell (hclass : ∀ k ∈ locks, k.classId ≠ "" ∧ splits k.classId = true)
    (hsubject : ∀ k ∈ locks, k.subject ≠ "") (hrange : ∀ k ∈ locks, k.slot ∈ env.slots) (b : Rebuild) :
    (env.applyFixedLessonLocks b locks).cell =
      Placing.place (fun k : FixedLock => (k.classId, k.slot))
        (fun k => Cell.record k.subject true) b.cell locks := by
  induction locks generalizing b with
  | nil => rfl
  | cons k locks ih =>
    obtain ⟨hid, hsplit⟩ := hclass k List.mem_cons_self
    have hcond : (splits k.classId && decide (k.classId ≠ "") && decide (k.subject ≠ "")) = true := by
      simp [hid, hsplit, hsubject k List.mem_cons_self]
    have hcons : env.applyFixedLessonLocks b (k :: locks) = env.applyFixedLessonLocks
        (env.writeCell (ensureClass b k.classId) k.classId k.slot (.record k.subject true)) locks := by
      rw [applyFixedLessonLocks, List.foldl_cons, if_pos hcond]
      rfl
    rw [hcons, ih (fun k' hk' => hclass k' (List.mem_cons_of_mem _ hk'))
      (fun k' hk' => hsubject k' (List.mem_cons_of_mem _ hk'))
      (fun k' hk' => hrange k' (List.mem_cons_of_mem _ hk')), writeCell,
      if_pos (hrange k List.mem_cons_self)]
    rfl

/-- Every fixed lesson has the table of its class. -/
theorem applyFixedLocks_classes (hclass : ∀ k ∈ locks, k.classId ≠ "" ∧ splits k.classId = true)
    (hsubject : ∀ k ∈ locks, k.subject ≠ "") (b : Rebuild) :
    (∀ c ∈ b.classes, c ∈ (env.applyFixedLessonLocks b locks).classes) ∧
    ∀ k ∈ locks, k.classId ∈ (env.applyFixedLessonLocks b locks).classes := by
  induction locks generalizing b with
  | nil => exact ⟨fun _ h => h, fun k hk => nomatch hk⟩
  | cons k locks ih =>
    have hcond : (splits k.classId && decide (k.classId ≠ "") && decide (k.subject ≠ "")) = true := by
      simp [hclass k List.mem_cons_self, hsubject k List.mem_cons_self]
    have hcons : env.applyFixedLessonLocks b (k :: locks) = env.applyFixedLessonLocks
        (env.writeCell (ensureClass b k.classId) k.classId k.slot (.record k.subject true)) locks := by
      rw [applyFixedLessonLocks, List.foldl_cons, if_pos hcond]
      rfl
    obtain ⟨hgrow, hlocks⟩ := ih (fun k' hk' => hclass k' (List.mem_cons_of_mem _ hk'))
      (fun k' hk' => hsubject k' (List.mem_cons_of_mem _ hk'))
      (env.writeCell (ensureClass b k.classId) k.classId k.slot (.record k.subject true))
    rw [writeCell_classes] at hgrow
    rw [hcons]
    constructor
    · intro c hc
      exact hgrow c (mem_ensureClass hc)
    · intro k' hk'
      cases List.mem_cons.mp hk' with
      | inl heq => exact hgrow k'.classId (heq ▸ self_mem_ensureClass b k.classId)
      | inr hmem => exact hlocks k' hmem

end Bridge

end TkbCherry.Browser
