import TkbCherry.Engine.Hard

/-!
# Runs of checked changes

`apply` with its checks and `undo` from a valid state. The run stays valid exactly as long
as every accepted change list fits; a teacher who may teach in the mornings only shows an
accepted one that does not.
-/

namespace TkbCherry.Engine

set_option autoImplicit false

/-- A checked change list, or the undo of the newest accepted one. -/
inductive Move (P : Problem) where
  | apply (changes : List (Change P))
  | undo

def Move.edit {P : Problem} : Move P → Edit P
  | .apply changes => .apply changes true
  | .undo => .undo

namespace Desk
variable {P : Problem}

/-- `full_recheck` passes and no teacher stands in two classes at one slot. -/
def HardValid (k : Desk P) : Prop := k.state.fullRecheck = true ∧ P.Exclusive k.state.grid

/-- The property holds at every desk of the run. -/
def Along (p : Desk P → Prop) : Desk P → List (Move P) → Prop
  | k, [] => p k
  | k, m :: rest => p k ∧ Along p (k.step m.edit) rest

/-- The change list fits if `apply` accepts it. -/
def FitsIfAccepted (k : Desk P) : Move P → Prop
  | .apply changes => (k.state.apply changes true).2.isSome = true → Fits k.state changes
  | .undo => True

/-- Every accepted change list of the run fits at its desk. -/
def AllFit : Desk P → List (Move P) → Prop
  | _, [] => True
  | k, m :: rest => k.FitsIfAccepted m ∧ AllFit (k.step m.edit) rest

/-- The journals lead from one valid grid to the next. -/
inductive HardHistory (deferMin : Bool) : List (List (Entry P)) → Cells P → Prop where
  | nil {k : Cells P} : HardHistory deferMin [] k
  | cons {journal : List (Entry P)} {rest : List (List (Entry P))} {k₀ k : Cells P} :
      k₀.Sound → P.Hard deferMin k₀.grid → HardHistory deferMin rest k₀ →
      Cells.Trail k₀ journal k → HardHistory deferMin (journal :: rest) k

/-- A valid desk whose journals lead back through valid grids. -/
structure HardInv (k : Desk P) : Prop where
  consistent : Consistent k.state
  hard : P.Hard k.state.deferMin k.state.grid
  history : HardHistory k.state.deferMin k.journals k.state.toCells

theorem HardInv.hardValid {k : Desk P} (h : HardInv k) : k.HardValid :=
  ⟨(State.fullRecheck_iff h.consistent).mpr h.hard, h.consistent.recount.exclusive⟩

theorem hardInv_undo {k : Desk P} (h : HardInv k) : HardInv (k.step .undo) := by
  obtain ⟨s, journals⟩ := k
  cases journals with
  | nil => exact h
  | cons journal rest =>
    have hist := h.history
    cases hist with
    | @cons _ _ k₀ _ hk hhard hrest htrail =>
      obtain ⟨hcells, hs⟩ := State.undo_consistent h.consistent hk htrail
      have hdefer : (s.undo journal).deferMin = s.deferMin := by simp [State.undo]
      refine ⟨hs, ?_, ?_⟩
      · show P.Hard (s.undo journal).deferMin (s.undo journal).grid
        rw [hdefer, hcells]
        exact hhard
      · show HardHistory (s.undo journal).deferMin rest (s.undo journal).toCells
        rw [hdefer, hcells]
        exact hrest

/-- A checked change list keeps the invariant exactly when it is refused or fits. -/
theorem hardInv_apply_iff {k : Desk P} (h : HardInv k) (changes : List (Change P)) :
    (HardInv (k.step (.apply changes true)) ↔ k.FitsIfAccepted (.apply changes)) ∧
    ((k.step (.apply changes true)).HardValid → k.FitsIfAccepted (.apply changes)) := by
  rcases State.apply_cases h.consistent changes true with
    ⟨reason, happ⟩ | ⟨s', journal, happ, _, hdefer, htrail, hs'⟩
  · simp only [step, FitsIfAccepted, happ]
    refine ⟨iff_of_true ⟨h.consistent.of_eq rfl rfl rfl rfl, h.hard, h.history⟩ ?_, ?_⟩ <;> simp
  · have hiff := State.hard_apply_iff h.consistent h.hard happ
    simp only [step, FitsIfAccepted, happ, Option.isSome_some, forall_const]
    refine ⟨⟨fun hnew => hiff.mp hnew.hard, fun hfit => ⟨hs', hiff.mpr hfit, ?_⟩⟩, fun hv => ?_⟩
    · show HardHistory s'.deferMin (journal :: k.journals) s'.toCells
      rw [hdefer]
      exact .cons h.consistent.sound h.hard h.history htrail
    · exact hiff.mp ((State.fullRecheck_iff hs').mp hv.1)

theorem along_hardValid_iff {k : Desk P} (h : HardInv k) (moves : List (Move P)) :
    Along HardValid k moves ↔ AllFit k moves := by
  induction moves generalizing k with
  | nil => exact iff_of_true h.hardValid trivial
  | cons m rest ih =>
    cases m with
    | undo =>
      have hiff := ih (hardInv_undo h)
      exact ⟨fun ha => ⟨trivial, hiff.mp ha.2⟩, fun ha => ⟨h.hardValid, hiff.mpr ha.2⟩⟩
    | apply changes =>
      obtain ⟨hinv, hvalid⟩ := hardInv_apply_iff h changes
      constructor
      · intro ha
        -- the next desk is valid, as the rest of the run begins there
        have hnext : (k.step (Move.apply changes).edit).HardValid := by
          cases rest with
          | nil => exact ha.2
          | cons m' rest' => exact ha.2.1
        have hfit := hvalid hnext
        exact ⟨hfit, (ih (hinv.mpr hfit)).mp ha.2⟩
      · intro ha
        exact ⟨h.hardValid, (ih (hinv.mpr ha.1)).mpr ha.2⟩

/-- From a valid state, every state of a run of checked changes and undos is valid exactly
when every accepted change list fits. -/
theorem hardValid_iff_allFit (P : Problem) (deferMin : Bool) (setup : List (Edit P))
    (hvalid : (setup.foldl step (init P deferMin)).state.fullRecheck = true)
    (moves : List (Move P)) :
    Along HardValid ⟨(setup.foldl step (init P deferMin)).state, []⟩ moves ↔
      AllFit ⟨(setup.foldl step (init P deferMin)).state, []⟩ moves := by
  have hinv := inv_run (Transition.Run.ofFn_foldl step _ setup) (inv_init P deferMin)
  exact along_hardValid_iff (k := ⟨_, []⟩)
    ⟨hinv.consistent, (State.fullRecheck_iff hinv.consistent).mp hvalid, .nil⟩ moves

end Desk

/-- One class with one lesson, whose teacher may teach in the mornings only. -/
def morningTeacher : Problem where
  numClasses := 1
  numTeachers := 1
  numSubjects := 1
  numAssignments := 1
  className := fun _ => "6A"
  teacherName := fun _ => "GV1"
  subjectName := fun _ => "Toan"
  aClass := fun _ => 0
  aSubject := fun _ => 0
  aTeacher := fun _ => some 0
  aTeachers := fun _ => [0]
  aRoom := fun _ => ""
  aPeriods := fun _ => 1
  aCap := fun _ => 1
  aAllowed := fun _ _ => true
  aRule := fun _ => none
  aLoc := fun _ => none
  teacherRules := fun _ => some { sessionMode := fun _ => .morning }
  teacherMust := fun _ => []
  teacherLocRules := fun _ => false
  noSameSession := fun _ => []
  noSameDay := fun _ => []
  fixedCells := []
  fixedMask := fun _ _ => false
  timeLimitRules := []
  subjectGroups := fun _ => []
  groupRuleKeys := fun _ _ => none
  rawGroups := fun _ _ => []

/-- The lesson at the first period of a session of the first day. -/
def morningTeacher.lessonIn (part : Fin 2) : Change morningTeacher :=
  ((0 : Fin 1), slotAt ⟨part.val, by omega⟩ 0, some (0 : Fin 1))

theorem morningTeacher_runs : (State.init morningTeacher false).fullRecheck = true ∧
    (Desk.Along Desk.HardValid ⟨State.init morningTeacher false, []⟩ [.apply [morningTeacher.lessonIn 0]] ↔
      Desk.AllFit ⟨State.init morningTeacher false, []⟩ [.apply [morningTeacher.lessonIn 0]]) := by
  have h : (State.init morningTeacher false).fullRecheck = true := by decide
  exact ⟨h, Desk.hardValid_iff_allFit morningTeacher false [] h [.apply [morningTeacher.lessonIn 0]]⟩

/-- A lesson in the afternoon of the first day is accepted on the counts before it. -/
theorem morningTeacher_afternoon : (State.init morningTeacher false).fullRecheck = true ∧
    ((State.init morningTeacher false).apply [morningTeacher.lessonIn 1] true).2.isSome = true ∧
    ((State.init morningTeacher false).apply [morningTeacher.lessonIn 1] true).1.fullRecheck = false := by
  decide

end TkbCherry.Engine
