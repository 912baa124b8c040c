import TkbCherry.Native.Moves

/-!
# Permuting lessons of one class

The move lists of the cycle searches give the lessons of a class one another's slots.
`cycle_resource_precheck` looks at the occupants of the target slots and
`teacher_annealing_subject_shape_ok` at the moved subjects; together they decide the hard check of
the schedule after the moves, as long as no name has an empty normal form.
-/

namespace TkbCherry.Native
open Text Grouping AssocList

set_option autoImplicit false

/-- `moves: &[(usize, Slot)]`. -/
abbrev MoveList := List (Nat × Slot)

/-- `set_lesson_slot` for every move. -/
def applyMoves (lessons : List Lesson) (moves : MoveList) : List Lesson :=
  moves.foldl (fun lessons move => moveLesson lessons move.1 move.2) lessons

/-- The last target of an index. -/
def targetOf (moves : MoveList) (index : Nat) : Option Slot := moves.reverse.lookup index

section Check
variable (u : Unicode)

/-- `teacher_occupants` and `room_occupants`: the last lesson that books a key. -/
def occupants (resource : Lesson → String) (lessons : List Lesson) (key : String) : Option Nat :=
  (lessons.zipIdx.filter fun e => decide (resource e.1 ≠ "") &&
    (lessonSlot e.1).any fun slot => decide (resourceSlotKey u (resource e.1) slot = key)).getLast?.map
      Prod.snd

/-- One resource of one move: its target key may be neither taken twice nor held by a lesson that
stays. -/
def bookTarget (occupant : String → Option Nat) (moving : List Nat) (targets : List String)
    (resource : String) (slot : Slot) : Option (List String) :=
  if resource = "" then some targets
  else
    let key := resourceSlotKey u resource slot
    if key ∈ targets ∨ (occupant key).any (fun o => decide (o ∉ moving)) = true then none
    else some (key :: targets)

/-- The loop body of `cycle_resource_precheck`; `none` is `return false`. -/
def bookMove (lessons : List Lesson) (teacherOccupant roomOccupant : String → Option Nat)
    (moving : List Nat) (targets : List String × List String) (move : Nat × Slot) :
    Option (List String × List String) :=
  (lessons[move.1]?).bind fun lesson =>
    (bookTarget u teacherOccupant moving targets.1 (trim lesson.teacher) move.2).bind fun teachers =>
      (bookTarget u roomOccupant moving targets.2 (lessonRoom lesson) move.2).map fun rooms =>
        (teachers, rooms)

/-- `cycle_resource_precheck` with the occupants of `teacher_annealing_index`. -/
def cycleResourcePrecheck (lessons : List Lesson) (moves : MoveList) : Bool :=
  (moves.foldlM (bookMove u lessons (occupants u (lessonTeacherKey u) lessons)
    (occupants u (lessonRoomKey u) lessons) (moves.map Prod.fst)) ([], [])).isSome

/-- `affected`: the classes and subjects of the moved lessons. -/
def affectedSubjects (lessons : List Lesson) (moves : MoveList) : List (String × String) :=
  (moves.filterMap fun move => (lessons[move.1]?).bind fun lesson =>
    if lessonClassId lesson ≠ "" ∧ norm u (lessonSubject lesson) ≠ "" then
      some (lessonClassId lesson, norm u (lessonSubject lesson))
    else none).dedup

/-- The slot of a lesson after the moves. -/
def slotAfter (moves : MoveList) (e : Lesson × Nat) : Option Slot :=
  (targetOf moves e.2).or (lessonSlot e.1)

variable (subjectLimits : SubjectLimitMap)

/-- The check of one class and subject in `teacher_annealing_subject_shape_ok`. -/
def subjectShapeOk (lessons : List Lesson) (moves : MoveList) (classId subject : String) : Bool :=
  let taught := lessons.zipIdx.filter fun e =>
    decide (lessonClassId e.1 = classId) && decide (norm u (lessonSubject e.1) = subject)
  let slots := taught.filterMap (slotAfter moves)
  let positions := grouped (slots.map fun slot =>
    ((slot.day, slot.sessionKey), (slot.periodIndex.val : Int)))
  (taught.all fun e => (slotAfter moves e).isSome) &&
    (positions.all fun e => sessionOk subjectLimits classId subject e.2) &&
    ((subjectLimits classId subject).all fun rule =>
      rule.perDay.all fun e => decide ((slots.countP fun slot => decide (slot.day = e.1) : Int) ≤ e.2))

/-- `teacher_annealing_subject_shape_ok`. -/
def teacherAnnealingSubjectShapeOk (lessons : List Lesson) (moves : MoveList) : Bool :=
  (affectedSubjects u lessons moves).all fun e => subjectShapeOk u subjectLimits lessons moves e.1 e.2

end Check

/-- The moves give some free lessons of a class one another's slots. -/
structure ClassCycle (lessons : List Lesson) (classId : String) (moves : MoveList) : Prop where
  nodup : (moves.map Prod.fst).Nodup
  free : ∀ move ∈ moves, ∃ lesson, lessons[move.1]? = some lesson ∧ lessonClassId lesson = classId ∧
    lesson.fixed = false
  slots : (moves.map fun move => some move.2).Perm
    (moves.map fun move => (lessons[move.1]?).bind lessonSlot)

/-- No name of the schedule has an empty normal form. -/
structure Named (u : Unicode) (lessons : List Lesson) : Prop where
  teacher : ∀ lesson ∈ lessons, trim lesson.teacher ≠ "" → lessonTeacherKey u lesson ≠ ""
  room : ∀ lesson ∈ lessons, lessonRoom lesson ≠ "" → lessonRoomKey u lesson ≠ ""

/-! ### The moved schedule -/

/-- A lesson at its place after the moves. -/
def moved (moves : MoveList) (e : Lesson × Nat) : Lesson :=
  (targetOf moves e.2).elim e.1 (setLessonSlot e.1)

theorem targetOf_append (moves : MoveList) (move : Nat × Slot) (index : Nat) :
    targetOf (moves ++ [move]) index = if index = move.1 then some move.2 else targetOf moves index := by
  rw [targetOf, List.reverse_append, List.reverse_cons, List.reverse_nil, List.nil_append,
    List.singleton_append, List.lookup_cons]
  by_cases h : index = move.1
  · rw [if_pos h, beq_iff_eq.mpr h]
  · rw [if_neg h, beq_eq_false_iff_ne.mpr h]
    rfl

theorem applyMoves_append (lessons : List Lesson) (moves : MoveList) (move : Nat × Slot) :
    applyMoves lessons (moves ++ [move]) = moveLesson (applyMoves lessons moves) move.1 move.2 := by
  rw [applyMoves, List.foldl_append]
  rfl

theorem applyMoves_getElem? (lessons : List Lesson) (moves : MoveList) (index : Nat) :
    (applyMoves lessons moves)[index]? =
      (lessons[index]?).map fun lesson => moved moves (lesson, index) := by
  induction moves using List.reverseRecOn with
  | nil => simp [applyMoves, moved, targetOf]
  | append_singleton moves move ih =>
    rw [applyMoves_append, moveLesson, List.getElem?_modify, ih, Option.map_eq_map]
    cases lessons[index]? with
    | none => rfl
    | some lesson =>
      simp only [Option.map_some, moved, targetOf_append]
      by_cases h : move.1 = index
      · rw [if_pos h, if_pos h.symm, Option.elim_some]
        cases targetOf moves index <;> rfl
      · rw [if_neg h, if_neg fun heq => h heq.symm]

theorem applyMoves_eq (lessons : List Lesson) (moves : MoveList) :
    applyMoves lessons moves = lessons.zipIdx.map (moved moves) := by
  apply List.ext_getElem?
  intro index
  rw [applyMoves_getElem?, List.getElem?_map, List.getElem?_zipIdx, Nat.zero_add, Option.map_map]
  rfl

section Moved
variable (u : Unicode) (moves : MoveList) (e : Lesson × Nat)

@[simp] theorem lessonSlot_moved : lessonSlot (moved moves e) = slotAfter moves e := by
  unfold moved slotAfter
  cases targetOf moves e.2 with
  | none => rfl
  | some slot => exact lessonSlot_setLessonSlot e.1 slot

@[simp] theorem lessonClassId_moved : lessonClassId (moved moves e) = lessonClassId e.1 := by
  unfold moved
  cases targetOf moves e.2 <;> rfl
@[simp] theorem lessonSubject_moved : lessonSubject (moved moves e) = lessonSubject e.1 := by
  unfold moved
  cases targetOf moves e.2 <;> rfl
@[simp] theorem lessonTeacherKey_moved : lessonTeacherKey u (moved moves e) = lessonTeacherKey u e.1 := by
  unfold moved
  cases targetOf moves e.2 <;> rfl
@[simp] theorem lessonRoomKey_moved : lessonRoomKey u (moved moves e) = lessonRoomKey u e.1 := by
  unfold moved
  cases targetOf moves e.2 <;> rfl

end Moved

theorem targetOf_eq_none_iff {moves : MoveList} {index : Nat} :
    targetOf moves index = none ↔ index ∉ moves.map Prod.fst := by
  rw [targetOf, AssocList.lookup_eq_none_iff, List.map_reverse, List.mem_reverse]

theorem mem_of_targetOf {moves : MoveList} {index : Nat} {slot : Slot}
    (h : targetOf moves index = some slot) : (index, slot) ∈ moves :=
  List.mem_reverse.mp (mem_of_lookup h)

theorem targetOf_of_mem {moves : MoveList} (hnodup : (moves.map Prod.fst).Nodup) {move : Nat × Slot}
    (h : move ∈ moves) : targetOf moves move.1 = some move.2 := by
  cases hget : targetOf moves move.1 with
  | none => exact absurd (List.mem_map_of_mem h) (targetOf_eq_none_iff.mp hget)
  | some slot =>
    have hmem := mem_of_targetOf hget
    have heq := List.inj_on_of_nodup_map hnodup hmem h rfl
    exact congrArg some (congrArg Prod.snd heq)

/-! ### Slots of the class -/

section Slots
variable {u : Unicode} {offSlots : List String} {subjectLimits : SubjectLimitMap}
  {lessons : List Lesson} {classId : String} {moves : MoveList}

theorem HardOk.apart_getElem? (h : HardOk u offSlots subjectLimits lessons) {i j : Nat} {a b : Lesson}
    (hne : i ≠ j) (ha : lessons[i]? = some a) (hb : lessons[j]? = some b) : ¬ Clash u a b :=
  (Indexed.pairwise_iff_getElem? fun hn hc => hn (hc.symm u)).mp h.apart i j a b hne ha hb

theorem HardOk.class_apart (h : HardOk u offSlots subjectLimits lessons) {i j : Nat} {a b : Lesson}
    (hne : i ≠ j) (ha : lessons[i]? = some a) (hb : lessons[j]? = some b)
    (hclass : lessonClassId a = lessonClassId b) {slot : Slot} (hslot : lessonSlot a = some slot) :
    lessonSlot b ≠ some slot :=
  fun heq => h.apart_getElem? hne ha hb ⟨slot, hslot, heq, Or.inl hclass⟩

theorem HardOk.slot (h : HardOk u offSlots subjectLimits lessons) {i : Nat} {a : Lesson}
    (ha : lessons[i]? = some a) : ∃ slot, lessonSlot a = some slot := by
  obtain ⟨slot, hslot, _⟩ := h.fits a (List.mem_of_getElem? ha)
  exact ⟨slot, hslot⟩

/-- The targets of a cycle are distinct. -/
theorem ClassCycle.nodup_targets (hc : ClassCycle lessons classId moves)
    (h : HardOk u offSlots subjectLimits lessons) : (moves.map Prod.snd).Nodup := by
  have hsources : (moves.map fun move => (lessons[move.1]?).bind lessonSlot).Nodup := by
    apply List.Nodup.map_on _ (List.Nodup.of_map _ hc.nodup)
    intro m hm m' hm' heq
    obtain ⟨a, ha, hclass, _⟩ := hc.free m hm
    obtain ⟨b, hb, hclass', _⟩ := hc.free m' hm'
    rw [ha, hb, Option.bind_some, Option.bind_some] at heq
    obtain ⟨slot, hslot⟩ := h.slot ha
    by_cases hindex : m.1 = m'.1
    · exact List.inj_on_of_nodup_map hc.nodup hm hm' hindex
    · exact absurd (heq ▸ hslot) (h.class_apart hindex ha hb (hclass.trans hclass'.symm) hslot)
  have htargets := hc.slots.nodup_iff.mpr hsources
  have hmap : (moves.map fun move => some move.2) = (moves.map Prod.snd).map some := by
    rw [List.map_map]
    rfl
  rw [hmap] at htargets
  exact List.Nodup.of_map _ htargets

/-- Every target is the slot of a moved lesson. -/
theorem ClassCycle.source (hc : ClassCycle lessons classId moves) {move : Nat × Slot}
    (hmove : move ∈ moves) : ∃ other ∈ moves, ∃ lesson, lessons[other.1]? = some lesson ∧
      lessonClassId lesson = classId ∧ lessonSlot lesson = some move.2 := by
  have hmem : some move.2 ∈ moves.map fun move => some move.2 := List.mem_map_of_mem hmove
  obtain ⟨other, hother, heq⟩ := List.mem_map.mp (hc.slots.mem_iff.mp hmem)
  obtain ⟨lesson, hlesson, hclass, _⟩ := hc.free other hother
  rw [hlesson, Option.bind_some] at heq
  exact ⟨other, hother, lesson, hlesson, hclass, heq⟩

/-- A lesson that stays is not at a target of its class. -/
theorem ClassCycle.stays_apart (hc : ClassCycle lessons classId moves)
    (h : HardOk u offSlots subjectLimits lessons) {move : Nat × Slot} (hmove : move ∈ moves) {j : Nat}
    {b : Lesson} (hb : lessons[j]? = some b) (hclass : lessonClassId b = classId)
    (hstay : j ∉ moves.map Prod.fst) : lessonSlot b ≠ some move.2 := by
  obtain ⟨other, hother, lesson, hlesson, hclass', hslot⟩ := hc.source hmove
  apply h.class_apart _ hlesson hb (hclass'.trans hclass.symm) hslot
  intro heq
  exact hstay (heq ▸ List.mem_map_of_mem hother)

theorem ClassCycle.class_of_target (hc : ClassCycle lessons classId moves) {i : Nat} {a : Lesson}
    (ha : lessons[i]? = some a) {slot : Slot} (htarget : targetOf moves i = some slot) :
    lessonClassId a = classId := by
  obtain ⟨lesson, hlesson, hclass, _⟩ := hc.free _ (mem_of_targetOf htarget)
  rw [ha] at hlesson
  cases hlesson
  exact hclass

/-- After the moves the lessons of a class are still at distinct slots. -/
theorem ClassCycle.class_apart (hc : ClassCycle lessons classId moves)
    (h : HardOk u offSlots subjectLimits lessons) {i j : Nat} {a b : Lesson} (hne : i ≠ j)
    (ha : lessons[i]? = some a) (hb : lessons[j]? = some b) (hclass : lessonClassId a = lessonClassId b)
    {slot : Slot} (hslot : slotAfter moves (a, i) = some slot) : slotAfter moves (b, j) ≠ some slot := by
  unfold slotAfter at hslot ⊢
  simp only at hslot ⊢
  cases hi : targetOf moves i with
  | none =>
    rw [hi, Option.none_or] at hslot
    cases hj : targetOf moves j with
    | none =>
      rw [Option.none_or]
      exact h.class_apart hne ha hb hclass hslot
    | some target =>
      rw [Option.some_or]
      intro heq
      cases heq
      have hb' := hc.class_of_target hb hj
      exact hc.stays_apart h (mem_of_targetOf hj) ha (hclass.trans hb') (targetOf_eq_none_iff.mp hi) hslot
  | some target =>
    rw [hi, Option.some_or] at hslot
    cases hslot
    cases hj : targetOf moves j with
    | none =>
      rw [Option.none_or]
      have ha' := hc.class_of_target ha hi
      exact hc.stays_apart h (mem_of_targetOf hi) hb (hclass.symm.trans ha') (targetOf_eq_none_iff.mp hj)
    | some target' =>
      rw [Option.some_or]
      intro heq
      cases heq
      have hpair := List.inj_on_of_nodup_map (hc.nodup_targets h) (mem_of_targetOf hi)
        (mem_of_targetOf hj) rfl
      exact hne (congrArg Prod.fst hpair)

/-- The moved lessons fit their slots. -/
theorem ClassCycle.fits (hc : ClassCycle lessons classId moves)
    (h : HardOk u offSlots subjectLimits lessons) :
    ∀ lesson ∈ applyMoves lessons moves, Fits offSlots lesson := by
  intro lesson hlesson
  rw [applyMoves_eq] at hlesson
  obtain ⟨e, he, rfl⟩ := List.mem_map.mp hlesson
  obtain ⟨a, i⟩ := e
  have ha := List.mk_mem_zipIdx_iff_getElem?.mp he
  obtain ⟨source, hsource, hname, hsubject, hoff⟩ := h.fits a (List.mem_of_getElem? ha)
  unfold Fits
  rw [lessonSlot_moved, lessonClassId_moved, lessonSubject_moved, slotAfter]
  cases htarget : targetOf moves i with
  | none =>
    rw [Option.none_or]
    exact ⟨source, hsource, hname, hsubject, hoff⟩
  | some target =>
    rw [Option.some_or]
    refine ⟨target, rfl, hname, hsubject, ?_⟩
    obtain ⟨other, _, b, hb, hclass, hslot⟩ := hc.source (mem_of_targetOf htarget)
    obtain ⟨slot, hslot', _, _, hoff'⟩ := h.fits b (List.mem_of_getElem? hb)
    have hclassA := hc.class_of_target ha htarget
    rw [hslot] at hslot'
    cases hslot'
    rwa [hclass, ← hclassA] at hoff'

end Slots

/-! ### The precheck -/

/-- No lesson that stays holds the target of a resource. -/
def TargetFree (u : Unicode) (occupant : String → Option Nat) (moving : List Nat) (resource : String)
    (slot : Slot) : Prop :=
  resource = "" ∨ (occupant (resourceSlotKey u resource slot)).any (fun o => decide (o ∉ moving)) = false

section Precheck
variable {u : Unicode}

theorem bookTarget_isSome_iff {occupant : String → Option Nat} {moving : List Nat}
    {targets : List String} {resource : String} {slot : Slot}
    (hfresh : resourceSlotKey u resource slot ∉ targets) :
    (∃ next, bookTarget u occupant moving targets resource slot = some next) ↔
      TargetFree u occupant moving resource slot := by
  unfold bookTarget TargetFree
  by_cases hempty : resource = ""
  · simp [hempty]
  · simp only [hempty, if_false, false_or, hfresh]
    cases (occupant (resourceSlotKey u resource slot)).any fun o => decide (o ∉ moving) <;> simp

theorem mem_bookTarget {occupant : String → Option Nat} {moving : List Nat}
    {targets next : List String} {resource : String} {slot : Slot}
    (h : bookTarget u occupant moving targets resource slot = some next) {key : String}
    (hkey : key ∈ next) : key ∈ targets ∨ key = resourceSlotKey u resource slot := by
  unfold bookTarget at h
  split at h
  · cases h
    exact Or.inl hkey
  · dsimp only at h
    split at h
    · cases h
    · cases h
      cases List.mem_cons.mp hkey with
      | inl heq => exact Or.inr heq
      | inr hin => exact Or.inl hin

/-- With distinct targets, only the occupants matter. -/
theorem foldlM_bookMove {lessons : List Lesson} {teacherOccupant roomOccupant : String → Option Nat}
    {moving : List Nat} (moves : MoveList) (targets : List String × List String)
    (hlessons : ∀ move ∈ moves, ∃ lesson, lessons[move.1]? = some lesson)
    (hfresh : ∀ move ∈ moves, ∀ r, resourceSlotKey u r move.2 ∉ targets.1 ∧
      resourceSlotKey u r move.2 ∉ targets.2) (hnodup : (moves.map Prod.snd).Nodup) :
    (moves.foldlM (bookMove u lessons teacherOccupant roomOccupant moving) targets).isSome = true ↔
      ∀ move ∈ moves, ∀ lesson, lessons[move.1]? = some lesson →
        TargetFree u teacherOccupant moving (trim lesson.teacher) move.2 ∧
          TargetFree u roomOccupant moving (lessonRoom lesson) move.2 := by
  induction moves generalizing targets with
  | nil =>
    constructor
    · intro _ move hmove
      exact absurd hmove List.not_mem_nil
    · intro _
      rfl
  | cons move moves ih =>
    rw [List.map_cons, List.nodup_cons] at hnodup
    obtain ⟨lesson, hlesson⟩ := hlessons move List.mem_cons_self
    have hfresh₀ := hfresh move List.mem_cons_self
    have hteacher := @bookTarget_isSome_iff u teacherOccupant moving _ _ _
      (hfresh₀ (trim lesson.teacher)).1
    have hroom := @bookTarget_isSome_iff u roomOccupant moving _ _ _ (hfresh₀ (lessonRoom lesson)).2
    rw [List.foldlM_cons, List.forall_mem_cons]
    have hhead : (∀ l, lessons[move.1]? = some l →
        TargetFree u teacherOccupant moving (trim l.teacher) move.2 ∧
          TargetFree u roomOccupant moving (lessonRoom l) move.2) ↔
        TargetFree u teacherOccupant moving (trim lesson.teacher) move.2 ∧
          TargetFree u roomOccupant moving (lessonRoom lesson) move.2 := by
      rw [hlesson]
      simp only [Option.some.injEq, forall_eq']
    rw [hhead, ← hteacher, ← hroom]
    unfold bookMove
    rw [hlesson, Option.bind_some]
    cases hT : bookTarget u teacherOccupant moving targets.1 (trim lesson.teacher) move.2 with
    | none =>
      constructor
      · intro h
        cases h
      · intro h
        obtain ⟨⟨⟨_, hcontra⟩, _⟩, _⟩ := h
        cases hcontra
    | some teachers =>
      cases hR : bookTarget u roomOccupant moving targets.2 (lessonRoom lesson) move.2 with
      | none =>
        constructor
        · intro h
          cases h
        · intro h
          obtain ⟨⟨_, ⟨_, hcontra⟩⟩, _⟩ := h
          cases hcontra
      | some rooms =>
        have hnext := ih (teachers, rooms) (fun m hm => hlessons m (List.mem_cons_of_mem _ hm)) (by
          intro m hm r
          obtain ⟨hout₁, hout₂⟩ := hfresh m (List.mem_cons_of_mem _ hm) r
          have hslot : ∀ r', resourceSlotKey u r m.2 ≠ resourceSlotKey u r' move.2 := by
            intro r' heq
            exact hnodup.1 (((resourceSlotKey_eq_iff u).mp heq).2 ▸ List.mem_map_of_mem hm)
          constructor
          · intro hin
            cases mem_bookTarget hT hin with
            | inl hin => exact hout₁ hin
            | inr heq => exact hslot _ heq
          · intro hin
            cases mem_bookTarget hR hin with
            | inl hin => exact hout₂ hin
            | inr heq => exact hslot _ heq) hnodup.2
        refine hnext.trans ⟨fun h => ⟨⟨⟨teachers, rfl⟩, ⟨rooms, rfl⟩⟩, h⟩, fun h => h.2⟩

/-- A target is free when no staying lesson has the resource there. -/
theorem targetFree_iff {lessons : List Lesson} {resource : Lesson → String} {moving : List Nat}
    {name : String} {slot : Slot} (hname : name ≠ "" → norm u name ≠ "")
    (hnorm : ∀ l, norm u (resource l) = resource l)
    (hone : ∀ {i j : Nat} {a b : Lesson}, i ≠ j → lessons[i]? = some a → lessons[j]? = some b →
      resource a ≠ "" → resource a = resource b → lessonSlot a = some slot → lessonSlot b ≠ some slot) :
    TargetFree u (occupants u resource lessons) moving name slot ↔
      ∀ (j : Nat) (other : Lesson), j ∉ moving → lessons[j]? = some other → norm u name ≠ "" →
        norm u name = resource other → lessonSlot other ≠ some slot := by
  have hmem : ∀ e : Lesson × Nat, (e ∈ lessons.zipIdx.filter fun e => decide (resource e.1 ≠ "") &&
      (lessonSlot e.1).any fun s => decide (resourceSlotKey u (resource e.1) s =
        resourceSlotKey u name slot)) ↔ lessons[e.2]? = some e.1 ∧ resource e.1 ≠ "" ∧
          norm u name = resource e.1 ∧ lessonSlot e.1 = some slot := by
    intro e
    obtain ⟨l, i⟩ := e
    rw [List.mem_filter, Bool.and_eq_true, decide_eq_true_eq, List.mk_mem_zipIdx_iff_getElem?,
      Option.any_eq_true]
    simp only [decide_eq_true_eq, resourceSlotKey_eq_iff, hnorm]
    constructor
    · intro h
      obtain ⟨hl, hne, s, hs, heq, rfl⟩ := h
      exact ⟨hl, hne, heq.symm, hs⟩
    · intro h
      exact ⟨h.1, h.2.1, slot, h.2.2.2, h.2.2.1.symm, rfl⟩
  by_cases hempty : name = ""
  · constructor
    · intro _ j other _ _ hne _ _
      subst hempty
      exact absurd (norm_empty u) hne
    · intro _
      exact Or.inl hempty
  · have hne := hname hempty
    unfold TargetFree occupants
    constructor
    · intro h j other hstay hother _ hshare hslot
      have hfree := h.resolve_left hempty
      have hin := (hmem (other, j)).mpr ⟨hother, hshare ▸ hne, hshare, hslot⟩
      cases hlast : (lessons.zipIdx.filter fun e => decide (resource e.1 ≠ "") &&
          (lessonSlot e.1).any fun s => decide (resourceSlotKey u (resource e.1) s =
            resourceSlotKey u name slot)).getLast? with
      | none =>
        rw [List.getLast?_eq_none_iff] at hlast
        rw [hlast] at hin
        exact absurd hin List.not_mem_nil
      | some e =>
        obtain ⟨hl, hres, heq, hs⟩ := (hmem e).mp (List.mem_of_getLast? hlast)
        have hindex : e.2 = j := by
          by_contra hdiff
          exact hone hdiff hl hother hres (heq.symm.trans hshare) hs hslot
        rw [hlast, Option.map_some, Option.any_some, hindex, decide_eq_false_iff_not] at hfree
        exact hfree hstay
    · intro h
      right
      cases hlast : (lessons.zipIdx.filter fun e => decide (resource e.1 ≠ "") &&
          (lessonSlot e.1).any fun s => decide (resourceSlotKey u (resource e.1) s =
            resourceSlotKey u name slot)).getLast? with
      | none => rfl
      | some e =>
        obtain ⟨hl, hres, heq, hs⟩ := (hmem e).mp (List.mem_of_getLast? hlast)
        rw [Option.map_some, Option.any_some, decide_eq_false_iff_not]
        exact fun hstay => h e.2 e.1 hstay hl hne heq hs

end Precheck

/-! ### The shape of the subjects -/

section Shape
variable {u : Unicode} {subjectLimits : SubjectLimitMap} {lessons : List Lesson} {moves : MoveList}

theorem periodsOf_applyMoves (key : String × String × Int × SessionKey) :
    periodsOf u (applyMoves lessons moves) key = lessons.zipIdx.filterMap fun e =>
      (slotAfter moves e).bind fun slot =>
        if (lessonClassId e.1, norm u (lessonSubject e.1), slot.day, slot.sessionKey) = key then
          some (slot.periodIndex.val : Int)
        else none := by
  rw [periodsOf, valuesAt_filterMap, applyMoves_eq, List.filterMap_map]
  apply List.filterMap_congr
  intro e _
  simp only [Function.comp, sessionPosition, lessonSlot_moved, lessonClassId_moved, lessonSubject_moved]
  cases slotAfter moves e <;> rfl

theorem countOn_applyMoves (key : String × String × Int) :
    countOn u (applyMoves lessons moves) key = lessons.zipIdx.countP fun e =>
      (slotAfter moves e).any fun slot =>
        decide ((lessonClassId e.1, norm u (lessonSubject e.1), slot.day) = key) := by
  rw [countOn, valuesAt_filterMap, applyMoves_eq, List.filterMap_map, List.length_filterMap_eq_countP]
  apply List.countP_congr
  intro e _
  simp only [Function.comp, dayPosition, lessonSlot_moved, lessonClassId_moved, lessonSubject_moved]
  cases slotAfter moves e with
  | none => simp
  | some slot =>
    by_cases h : (lessonClassId e.1, norm u (lessonSubject e.1), slot.day) = key <;> simp [h]

theorem applyMoves_nil : applyMoves lessons [] = lessons := rfl

theorem slotAfter_nil (e : Lesson × Nat) : slotAfter [] e = lessonSlot e.1 := rfl

/-- A key of no moved lesson sees the schedule as it was. -/
theorem periodsOf_unaffected {key : String × String × Int × SessionKey}
    (h : ∀ move ∈ moves, ∀ lesson, lessons[move.1]? = some lesson →
      (lessonClassId lesson, norm u (lessonSubject lesson)) ≠ (key.1, key.2.1)) :
    periodsOf u (applyMoves lessons moves) key = periodsOf u lessons key := by
  have hnil := @periodsOf_applyMoves u lessons [] key
  rw [applyMoves_nil] at hnil
  rw [hnil, periodsOf_applyMoves]
  apply List.filterMap_congr
  intro e he
  obtain ⟨a, i⟩ := e
  cases htarget : targetOf moves i with
  | none =>
    have hslot : slotAfter moves (a, i) = slotAfter [] (a, i) := by
      rw [slotAfter, htarget]
      rfl
    rw [hslot]
  | some target =>
    have hne := h _ (mem_of_targetOf htarget) a (List.mk_mem_zipIdx_iff_getElem?.mp he)
    have hkey : ∀ slot : Slot,
        (lessonClassId a, norm u (lessonSubject a), slot.day, slot.sessionKey) ≠ key := by
      intro slot heq
      apply hne
      rw [← heq]
    simp only [if_neg (hkey _)]
    cases slotAfter moves (a, i) <;> cases slotAfter [] (a, i) <;> rfl

theorem countOn_unaffected {key : String × String × Int}
    (h : ∀ move ∈ moves, ∀ lesson, lessons[move.1]? = some lesson →
      (lessonClassId lesson, norm u (lessonSubject lesson)) ≠ (key.1, key.2.1)) :
    countOn u (applyMoves lessons moves) key = countOn u lessons key := by
  have hnil := @countOn_applyMoves u lessons [] key
  rw [applyMoves_nil] at hnil
  rw [hnil, countOn_applyMoves]
  apply List.countP_congr
  intro e he
  obtain ⟨a, i⟩ := e
  cases htarget : targetOf moves i with
  | none =>
    have hslot : slotAfter moves (a, i) = slotAfter [] (a, i) := by
      rw [slotAfter, htarget]
      rfl
    rw [hslot]
  | some target =>
    have hne := h _ (mem_of_targetOf htarget) a (List.mk_mem_zipIdx_iff_getElem?.mp he)
    have hkey : ∀ slot : Slot, (lessonClassId a, norm u (lessonSubject a), slot.day) ≠ key := by
      intro slot heq
      apply hne
      rw [← heq]
    simp only [decide_eq_false (hkey _)]
    cases slotAfter moves (a, i) <;> cases slotAfter [] (a, i) <;> simp

theorem perDay_all_iff {rule : SubjectLimit} {count : Int → Nat} :
    (rule.perDay.all fun e => decide ((count e.1 : Int) ≤ e.2)) = true ↔
      ∀ day limit, rule.perDay.lookup day = some limit → (count day : Int) ≤ limit := by
  rw [List.all_eq_true]
  constructor
  · intro h day limit hlookup
    exact of_decide_eq_true (h _ (mem_of_lookup hlookup))
  · intro h e he
    apply decide_eq_true
    apply h e.1 e.2
    cases hlookup : rule.perDay.lookup e.1 with
    | none => exact absurd (List.mem_map_of_mem he) (AssocList.lookup_eq_none_iff.mp hlookup)
    | some limit =>
      have hpair := List.inj_on_of_nodup_map rule.nodup (mem_of_lookup hlookup) he rfl
      exact congrArg some (congrArg Prod.snd hpair)

theorem dayOk_iff {classId subject : String} {day : Int} {count : Nat} :
    dayOk subjectLimits classId subject day count = true ↔ ∀ rule, subjectLimits classId subject = some rule →
      ∀ limit, rule.perDay.lookup day = some limit → (count : Int) ≤ limit := by
  rw [dayOk, Bool.not_eq_true', Option.any_eq_false]
  constructor
  · intro h rule hrule limit hlimit
    have hle := h limit (by rw [hrule, Option.bind_some, hlimit])
    simpa using hle
  · intro h limit hlimit
    obtain ⟨rule, hrule, hday⟩ := Option.bind_eq_some_iff.mp hlimit
    simpa using h rule hrule limit hday

theorem subjectShapeOk_iff (hslots : ∀ e ∈ lessons.zipIdx, (slotAfter moves e).isSome = true)
    (classId subject : String) :
    subjectShapeOk u subjectLimits lessons moves classId subject = true ↔
      (∀ day session, sessionOk subjectLimits classId subject
        (periodsOf u (applyMoves lessons moves) (classId, subject, day, session)) = true) ∧
      ∀ day, dayOk subjectLimits classId subject day
        (countOn u (applyMoves lessons moves) (classId, subject, day)) = true := by
  have hperiods : ∀ k : Int × SessionKey,
      valuesAt k (((lessons.zipIdx.filter fun e => decide (lessonClassId e.1 = classId) &&
        decide (norm u (lessonSubject e.1) = subject)).filterMap (slotAfter moves)).map fun slot =>
          ((slot.day, slot.sessionKey), (slot.periodIndex.val : Int))) =
        periodsOf u (applyMoves lessons moves) (classId, subject, k) := by
    intro k
    rw [periodsOf_applyMoves, ← List.filterMap_eq_map, valuesAt_filterMap, List.filterMap_filterMap,
      List.filterMap_filter]
    apply List.filterMap_congr
    intro e _
    cases slotAfter moves e with
    | none => simp
    | some slot =>
      by_cases hclass : lessonClassId e.1 = classId
      · by_cases hsubject : norm u (lessonSubject e.1) = subject <;> simp [hclass, hsubject]
      · simp [hclass]
  have hcount : ∀ day : Int, (((lessons.zipIdx.filter fun e => decide (lessonClassId e.1 = classId) &&
      decide (norm u (lessonSubject e.1) = subject)).filterMap (slotAfter moves)).countP fun slot =>
        decide (slot.day = day)) = countOn u (applyMoves lessons moves) (classId, subject, day) := by
    intro day
    rw [countOn_applyMoves, List.filterMap_filter, List.countP_filterMap]
    apply List.countP_congr
    intro e _
    cases slotAfter moves e with
    | none => simp
    | some slot =>
      by_cases hclass : lessonClassId e.1 = classId
      · by_cases hsubject : norm u (lessonSubject e.1) = subject <;> simp [hclass, hsubject]
      · simp [hclass]
  have hall : (lessons.zipIdx.filter fun e => decide (lessonClassId e.1 = classId) &&
      decide (norm u (lessonSubject e.1) = subject)).all (fun e => (slotAfter moves e).isSome) = true := by
    rw [List.all_eq_true]
    exact fun e he => hslots e (List.mem_filter.mp he).1
  rw [subjectShapeOk, hall, Bool.true_and, Bool.and_eq_true,
    grouped_all_iff fun _ => sessionOk_nil subjectLimits classId subject]
  simp only [hperiods, hcount, Prod.forall, dayOk_iff]
  apply and_congr Iff.rfl
  cases subjectLimits classId subject with
  | none => simp
  | some rule =>
    rw [Option.all_some]
    refine (@perDay_all_iff rule fun day =>
      countOn u (applyMoves lessons moves) (classId, subject, day)).trans ?_
    simp only [Option.some.injEq, forall_eq']

theorem mem_affectedSubjects {e : String × String} :
    e ∈ affectedSubjects u lessons moves ↔ ∃ move ∈ moves, ∃ lesson, lessons[move.1]? = some lesson ∧
      lessonClassId lesson ≠ "" ∧ norm u (lessonSubject lesson) ≠ "" ∧
        e = (lessonClassId lesson, norm u (lessonSubject lesson)) := by
  rw [affectedSubjects, List.mem_dedup, List.mem_filterMap]
  constructor
  · intro h
    obtain ⟨move, hmove, heq⟩ := h
    obtain ⟨lesson, hlesson, hkey⟩ := Option.bind_eq_some_iff.mp heq
    split at hkey
    · rename_i hnames
      cases hkey
      exact ⟨move, hmove, lesson, hlesson, hnames.1, hnames.2, rfl⟩
    · cases hkey
  · intro h
    obtain ⟨move, hmove, lesson, hlesson, hclass, hsubject, rfl⟩ := h
    refine ⟨move, hmove, ?_⟩
    rw [hlesson, Option.bind_some, if_pos ⟨hclass, hsubject⟩]

end Shape

/-! ### The two checks together -/

section Accept
variable {u : Unicode} {offSlots : List String} {subjectLimits : SubjectLimitMap}
  {lessons : List Lesson} {classId : String} {moves : MoveList}

theorem HardOk.resource_apart (h : HardOk u offSlots subjectLimits lessons) {resource : Lesson → String}
    (hclash : ∀ {a b : Lesson} {slot : Slot}, lessonSlot a = some slot → lessonSlot b = some slot →
      resource a ≠ "" → resource a = resource b → Clash u a b) {i j : Nat} {a b : Lesson} (hne : i ≠ j)
    (ha : lessons[i]? = some a) (hb : lessons[j]? = some b) (hres : resource a ≠ "")
    (heq : resource a = resource b) {slot : Slot} (hslot : lessonSlot a = some slot) :
    lessonSlot b ≠ some slot :=
  fun hs => h.apart_getElem? hne ha hb (hclash hslot hs hres heq)

theorem clash_of_teacher {a b : Lesson} {slot : Slot} (ha : lessonSlot a = some slot)
    (hb : lessonSlot b = some slot) (hne : lessonTeacherKey u a ≠ "")
    (heq : lessonTeacherKey u a = lessonTeacherKey u b) : Clash u a b :=
  ⟨slot, ha, hb, Or.inr (Or.inl ⟨hne, heq⟩)⟩

theorem clash_of_room {a b : Lesson} {slot : Slot} (ha : lessonSlot a = some slot)
    (hb : lessonSlot b = some slot) (hne : lessonRoomKey u a ≠ "")
    (heq : lessonRoomKey u a = lessonRoomKey u b) : Clash u a b :=
  ⟨slot, ha, hb, Or.inr (Or.inr ⟨hne, heq⟩)⟩

/-- The precheck finds the clashes of a moved lesson with a lesson that stays. -/
theorem cycleResourcePrecheck_iff (h : HardOk u offSlots subjectLimits lessons) (hn : Named u lessons)
    (hc : ClassCycle lessons classId moves) :
    cycleResourcePrecheck u lessons moves = true ↔
      ∀ move ∈ moves, ∀ lesson, lessons[move.1]? = some lesson → ∀ (j : Nat) (other : Lesson),
        j ∉ moves.map Prod.fst → lessons[j]? = some other → lessonSlot other = some move.2 →
          ¬ (lessonTeacherKey u lesson ≠ "" ∧ lessonTeacherKey u lesson = lessonTeacherKey u other) ∧
          ¬ (lessonRoomKey u lesson ≠ "" ∧ lessonRoomKey u lesson = lessonRoomKey u other) := by
  rw [cycleResourcePrecheck, foldlM_bookMove moves ([], [])
    (fun move hmove => (hc.free move hmove).imp fun _ hl => hl.1)
    (fun _ _ _ => ⟨List.not_mem_nil, List.not_mem_nil⟩) (hc.nodup_targets h)]
  have hteacher : ∀ lesson ∈ lessons, ∀ slot : Slot, TargetFree u (occupants u (lessonTeacherKey u) lessons)
      (moves.map Prod.fst) (trim lesson.teacher) slot ↔ ∀ (j : Nat) (other : Lesson),
        j ∉ moves.map Prod.fst → lessons[j]? = some other → lessonTeacherKey u lesson ≠ "" →
          lessonTeacherKey u lesson = lessonTeacherKey u other → lessonSlot other ≠ some slot := by
    intro lesson hlesson slot
    exact targetFree_iff (hn.teacher lesson hlesson) (fun l => norm_norm u _)
      fun hne ha hb hres heq hs => h.resource_apart clash_of_teacher hne ha hb hres heq hs
  have hroom : ∀ lesson ∈ lessons, ∀ slot : Slot, TargetFree u (occupants u (lessonRoomKey u) lessons)
      (moves.map Prod.fst) (lessonRoom lesson) slot ↔ ∀ (j : Nat) (other : Lesson),
        j ∉ moves.map Prod.fst → lessons[j]? = some other → lessonRoomKey u lesson ≠ "" →
          lessonRoomKey u lesson = lessonRoomKey u other → lessonSlot other ≠ some slot := by
    intro lesson hlesson slot
    exact targetFree_iff (hn.room lesson hlesson) (fun l => norm_norm u _)
      fun hne ha hb hres heq hs => h.resource_apart clash_of_room hne ha hb hres heq hs
  constructor
  · intro hall move hmove lesson hlesson j other hstay hother hslot
    obtain ⟨hfreeT, hfreeR⟩ := hall move hmove lesson hlesson
    have hmem := List.mem_of_getElem? hlesson
    constructor
    · intro hshare
      exact (hteacher lesson hmem move.2).mp hfreeT j other hstay hother hshare.1 hshare.2 hslot
    · intro hshare
      exact (hroom lesson hmem move.2).mp hfreeR j other hstay hother hshare.1 hshare.2 hslot
  · intro hall move hmove lesson hlesson
    have hmem := List.mem_of_getElem? hlesson
    constructor
    · apply (hteacher lesson hmem move.2).mpr
      intro j other hstay hother hne heq hslot
      exact (hall move hmove lesson hlesson j other hstay hother hslot).1 ⟨hne, heq⟩
    · apply (hroom lesson hmem move.2).mpr
      intro j other hstay hother hne heq hslot
      exact (hall move hmove lesson hlesson j other hstay hother hslot).2 ⟨hne, heq⟩

/-- A cycle that passes the precheck makes no clash. -/
theorem apart_applyMoves_iff (h : HardOk u offSlots subjectLimits lessons) (hn : Named u lessons)
    (hc : ClassCycle lessons classId moves) :
    cycleResourcePrecheck u lessons moves = true ↔
      (applyMoves lessons moves).Pairwise fun a b => ¬ Clash u a b := by
  rw [cycleResourcePrecheck_iff h hn hc, Indexed.pairwise_iff_getElem? fun hn hc => hn (hc.symm u)]
  -- after the moves, a clash is one of a moved lesson with a lesson that stays
  have hclash : ∀ (i j : Nat) (a b : Lesson), lessons[i]? = some a → lessons[j]? = some b → i ≠ j →
      (∀ move ∈ moves, ∀ lesson, lessons[move.1]? = some lesson → ∀ (j : Nat) (other : Lesson),
        j ∉ moves.map Prod.fst → lessons[j]? = some other → lessonSlot other = some move.2 →
          ¬ (lessonTeacherKey u lesson ≠ "" ∧ lessonTeacherKey u lesson = lessonTeacherKey u other) ∧
          ¬ (lessonRoomKey u lesson ≠ "" ∧ lessonRoomKey u lesson = lessonRoomKey u other)) →
      ∀ slot, targetOf moves i = some slot → slotAfter moves (b, j) = some slot →
        ¬ ((lessonTeacherKey u a ≠ "" ∧ lessonTeacherKey u a = lessonTeacherKey u b) ∨
          (lessonRoomKey u a ≠ "" ∧ lessonRoomKey u a = lessonRoomKey u b)) := by
    intro i j a b ha hb hne hall slot hi hb' hshare
    cases hj : targetOf moves j with
    | none =>
      rw [slotAfter, hj, Option.none_or] at hb'
      obtain ⟨hT, hR⟩ := hall _ (mem_of_targetOf hi) a ha j b (targetOf_eq_none_iff.mp hj) hb hb'
      exact hshare.elim hT hR
    | some target =>
      rw [slotAfter, hj, Option.some_or] at hb'
      cases hb'
      have hpair := List.inj_on_of_nodup_map (hc.nodup_targets h) (mem_of_targetOf hi)
        (mem_of_targetOf hj) rfl
      exact hne (congrArg Prod.fst hpair)
  constructor
  · intro hall i j a b hne ha hb hcl
    rw [applyMoves_getElem?] at ha hb
    obtain ⟨a, hla, rfl⟩ := Option.map_eq_some_iff.mp ha
    obtain ⟨b, hlb, rfl⟩ := Option.map_eq_some_iff.mp hb
    obtain ⟨slot, hsa, hsb, hshare⟩ := hcl
    rw [lessonSlot_moved] at hsa hsb
    rw [lessonClassId_moved, lessonClassId_moved, lessonTeacherKey_moved, lessonTeacherKey_moved,
      lessonRoomKey_moved, lessonRoomKey_moved] at hshare
    cases hshare with
    | inl hclass => exact hc.class_apart h hne hla hlb hclass hsa hsb
    | inr hshare =>
      cases hi : targetOf moves i with
      | some target =>
        have hsa' := hsa
        rw [slotAfter, hi, Option.some_or] at hsa'
        cases hsa'
        exact hclash i j a b hla hlb hne hall _ hi hsb hshare
      | none =>
        cases hj : targetOf moves j with
        | some target =>
          have hsb' := hsb
          rw [slotAfter, hj, Option.some_or] at hsb'
          cases hsb'
          apply hclash j i b a hlb hla (Ne.symm hne) hall _ hj hsa
          rcases hshare with ⟨hres, heq⟩ | ⟨hres, heq⟩
          · exact Or.inl ⟨heq ▸ hres, heq.symm⟩
          · exact Or.inr ⟨heq ▸ hres, heq.symm⟩
        | none =>
          rw [slotAfter, hi, Option.none_or] at hsa
          rw [slotAfter, hj, Option.none_or] at hsb
          exact h.apart_getElem? hne hla hlb ⟨slot, hsa, hsb, Or.inr hshare⟩
  · intro hpair move hmove lesson hlesson j other hstay hother hslot
    have htarget := targetOf_of_mem hc.nodup hmove
    have hne : move.1 ≠ j := fun heq => hstay (heq ▸ List.mem_map_of_mem hmove)
    have hnot := hpair move.1 j (moved moves (lesson, move.1)) (moved moves (other, j)) hne
      (by rw [applyMoves_getElem?, hlesson, Option.map_some])
      (by rw [applyMoves_getElem?, hother, Option.map_some])
    have hsa : lessonSlot (moved moves (lesson, move.1)) = some move.2 := by
      rw [lessonSlot_moved, slotAfter, htarget, Option.some_or]
    have hsb : lessonSlot (moved moves (other, j)) = some move.2 := by
      rw [lessonSlot_moved, slotAfter, targetOf_eq_none_iff.mpr hstay, Option.none_or, hslot]
    have hshare : ¬ ((lessonTeacherKey u lesson ≠ "" ∧ lessonTeacherKey u lesson = lessonTeacherKey u other) ∨
        (lessonRoomKey u lesson ≠ "" ∧ lessonRoomKey u lesson = lessonRoomKey u other)) := by
      intro hs
      apply hnot
      refine ⟨move.2, hsa, hsb, Or.inr ?_⟩
      rw [lessonTeacherKey_moved, lessonTeacherKey_moved, lessonRoomKey_moved, lessonRoomKey_moved]
      exact hs
    exact not_or.mp hshare

theorem subjectShape_applyMoves_iff (h : HardOk u offSlots subjectLimits lessons)
    (hsubject : ∀ move ∈ moves, ∀ lesson, lessons[move.1]? = some lesson →
      norm u (lessonSubject lesson) ≠ "") :
    teacherAnnealingSubjectShapeOk u subjectLimits lessons moves = true ↔
      (∀ key, sessionOk subjectLimits key.1 key.2.1
        (periodsOf u (applyMoves lessons moves) key) = true) ∧
      ∀ key, dayOk subjectLimits key.1 key.2.1 key.2.2
        (countOn u (applyMoves lessons moves) key) = true := by
  have hslots : ∀ e ∈ lessons.zipIdx, (slotAfter moves e).isSome = true := by
    intro e he
    obtain ⟨slot, hslot⟩ := h.slot (List.mk_mem_zipIdx_iff_getElem?.mp he)
    rw [slotAfter]
    cases targetOf moves e.2 with
    | none => rw [Option.none_or, hslot, Option.isSome_some]
    | some target => rfl
  rw [teacherAnnealingSubjectShapeOk, List.all_eq_true]
  simp only [subjectShapeOk_iff hslots]
  -- a class and subject without a moved lesson keeps its limits
  have hrest : ∀ classId subject, (classId, subject) ∉ affectedSubjects u lessons moves →
      ∀ move ∈ moves, ∀ lesson, lessons[move.1]? = some lesson →
        (lessonClassId lesson, norm u (lessonSubject lesson)) ≠ (classId, subject) := by
    intro classId subject hout move hmove lesson hlesson heq
    obtain ⟨_, _, hclass, _⟩ := h.fits lesson (List.mem_of_getElem? hlesson)
    exact hout (heq ▸ mem_affectedSubjects.mpr
      ⟨move, hmove, lesson, hlesson, hclass, hsubject move hmove lesson hlesson, rfl⟩)
  constructor
  · intro hall
    constructor
    · intro key
      obtain ⟨classId, subject, day, session⟩ := key
      by_cases hin : (classId, subject) ∈ affectedSubjects u lessons moves
      · exact (hall _ hin).1 day session
      · rw [periodsOf_unaffected (hrest classId subject hin)]
        exact h.sessions _
    · intro key
      obtain ⟨classId, subject, day⟩ := key
      by_cases hin : (classId, subject) ∈ affectedSubjects u lessons moves
      · exact (hall _ hin).2 day
      · rw [countOn_unaffected (hrest classId subject hin)]
        exact h.days _
  · intro hall e _
    exact ⟨fun day session => hall.1 (e.1, e.2, day, session), fun day => hall.2 (e.1, e.2, day)⟩

/-- The two checks accept a cycle exactly when the moved schedule passes the hard check. -/
theorem cycle_accepted_iff (h : HardOk u offSlots subjectLimits lessons) (hn : Named u lessons)
    (hc : ClassCycle lessons classId moves)
    (hsubject : ∀ move ∈ moves, ∀ lesson, lessons[move.1]? = some lesson →
      norm u (lessonSubject lesson) ≠ "") :
    (cycleResourcePrecheck u lessons moves && teacherAnnealingSubjectShapeOk u subjectLimits lessons moves)
      = true ↔ HardOk u offSlots subjectLimits (applyMoves lessons moves) := by
  rw [Bool.and_eq_true, apart_applyMoves_iff h hn hc, subjectShape_applyMoves_iff h hsubject]
  exact ⟨fun hm => ⟨hc.fits h, hm.1, hm.2.1, hm.2.2⟩, fun hm => ⟨hm.apart, hm.sessions, hm.days⟩⟩

end Accept

end TkbCherry.Native
