import TkbCherry.Engine.OptimizeState

/-!
# Runs of the optimizer

Every operator either leaves the schedule as it was or improves the objective, and keeps what the
search is measured by. A class must not have one subject with two teams of teachers: only then can a
run of lessons at the border of a session lie apart from the teacher's holes.
-/

namespace TkbCherry.Engine

set_option autoImplicit false

open Program

/-- The assignments of a class and a subject have the same teachers. -/
def Problem.OneTeam (P : Problem) : Prop :=
  ∀ ai bi, P.aClass ai = P.aClass bi → P.aSubject ai = P.aSubject bi →
    ∀ t, t ∈ P.aTeachers ai → t ∈ P.aTeachers bi

theorem mem_sortBy {α : Type} {key : α → List Int} {xs : List α} {x : α} :
    x ∈ sortBy key xs ↔ x ∈ xs := List.mem_mergeSort

theorem Unchanged.symm {P : Problem} {o o' : Optimizer P} (h : Unchanged o o') : Unchanged o' o := by
  refine ⟨?_, h.bestSnap.symm, h.bestTuple.symm⟩
  rw [h.state]

section Reading
variable {P : Problem} {s : State P} {t : P.Tch} {ses : Session}

theorem blocksFrom_inSession (s : State P) (t : P.Tch) (ses : Session) (left p : Nat) :
    ∀ block ∈ s.blocksFrom t ses left p, InSession ses block.2 := by
  induction left generalizing p with
  | zero =>
    intro block hb
    exact absurd hb List.not_mem_nil
  | succ left ih =>
    intro block hb
    unfold State.blocksFrom at hb
    split at hb
    · exact absurd hb List.not_mem_nil
    · split at hb
      · exact ih _ block hb
      · rcases List.mem_cons.mp hb with heq | hrest
        · rename_i q _ _ ai _
          have h := runOf_inSession s (P.aClass ai) (slotAt ses q)
          rw [sessionOfSlot_slotAt] at h
          rw [heq]
          exact h
        · exact ih _ block hrest

theorem edgeRun_inSession {edge : Period} {c : P.Cls} {run : List Slot}
    (h : Optimizer.edgeRun s t ses edge = some (c, run)) : InSession ses run := by
  obtain ⟨ai, -, heq⟩ := Option.map_eq_some_iff.mp h
  cases heq
  have hrun := runOf_inSession s (P.aClass ai) (slotAt ses edge)
  rw [sessionOfSlot_slotAt] at hrun
  exact hrun

theorem loneRun_inSession {c : P.Cls} {run : List Slot}
    (h : Optimizer.loneRun s t ses = some (c, run)) : InSession ses run := by
  obtain ⟨p, -, hp⟩ := Option.bind_eq_some_iff.mp h
  exact edgeRun_inSession hp

/-- The lesson of a teacher stands in its class. -/
theorem Consistent.lesson_of_teacherSlot (h : Consistent s) {slot : Slot} {ai : P.Asg}
    (hai : s.teacherSlot t slot = some ai) :
    s.grid (P.aClass ai) slot = some ai ∧ t ∈ P.aTeachers ai := (h.sound.owner t slot ai).mp hai

/-- The periods from a hole on, as far as the teacher is free. -/
theorem free_of_holeRunLen {hole : Period} {off : Nat} (h : off < s.holeRunLen t ses hole)
    {q : Period} (hq : q.val = hole.val + off) : s.teacherSlot t (slotAt ses q) = none := by
  unfold State.holeRunLen at h
  have hmem := List.getElem_mem h
  have hfree := List.mem_takeWhile_imp hmem
  have hprefix := List.takeWhile_prefix (l := allPeriods.drop hole.val)
    fun p => (s.teacherSlot t (slotAt ses p)).isNone
  have hat := hprefix.getElem h
  rw [hat, List.getElem_drop] at hfree
  have hbound : hole.val + off < allPeriods.length := by
    have hlen := hprefix.length_le
    rw [List.length_drop] at hlen
    omega
  have hperiod : allPeriods[hole.val + off] = q := by
    apply Fin.ext
    rw [hq]
    simp [allPeriods]
  rw [hperiod] at hfree
  exact Option.isNone_iff_eq_none.mp hfree

theorem mem_windowAt {start length : Nat} {x : Slot} (h : x ∈ windowAt ses start length) :
    ∃ off q, off < length ∧ (q : Period).val = start + off ∧ x = slotAt ses q := by
  unfold windowAt at h
  obtain ⟨off, hoff, hx⟩ := List.mem_filterMap.mp h
  obtain ⟨q, hq, rfl⟩ := Option.map_eq_some_iff.mp hx
  have hval := periodAt?_eq_some hq
  exact ⟨off, q, List.mem_range.mp hoff, by omega, rfl⟩

/-- The run at the border is the teacher's own, so no window of holes meets it. -/
theorem edgeRun_apart (hteam : P.OneTeam) (h : Consistent s) {edge hole : Period} {c : P.Cls}
    {run : List Slot} (hrun : Optimizer.edgeRun s t ses edge = some (c, run))
    (hlen : run.length ≤ s.holeRunLen t ses hole) :
    CellsApart run (windowAt ses hole.val run.length) := by
  refine ⟨(edgeRun_inSession hrun).nodup, (windowAt_inSession ses _ _).nodup, ?_⟩
  intro x hx hw
  obtain ⟨off, q, hoff, hq, rfl⟩ := mem_windowAt hw
  have hfree := free_of_holeRunLen (Nat.lt_of_lt_of_le hoff hlen) hq
  obtain ⟨ai, hai, heq⟩ := Option.map_eq_some_iff.mp hrun
  cases heq
  obtain ⟨hgrid, ht⟩ := h.lesson_of_teacherSlot hai
  obtain ⟨bi, hbi, hsub⟩ := subject_of_mem_runOf hgrid hx
  have hclass := (h.sound.cells _ _ _ hbi).1
  have hteacher := hteam ai bi hclass.symm hsub.symm t ht
  have hslot : s.teacherSlot t (slotAt ses q) = some bi := by
    apply (h.sound.owner t _ bi).mpr
    rw [hclass]
    exact ⟨hbi, hteacher⟩
  rw [hfree] at hslot
  cases hslot

end Reading

section Operators
variable {P : Problem} {A : Aim P} {ticks : Nat} {o : Optimizer P}

/-! ### Relocation -/

theorem candidateStarts_spec (prefer : Option (P.Tch × Session)) (length : Nat)
    (h : A.Inv ticks o) : Returns (Optimizer.candidateStarts prefer length) o fun starts o' =>
      A.Inv ticks o' ∧ Unchanged o o' ∧ ∀ start ∈ starts, start ∈ List.range (6 - length) := by
  unfold Optimizer.candidateStarts
  apply Returns.read
  cases prefer with
  | none => exact shuffle_spec _ h
  | some e =>
    apply Returns.pure
    exact ⟨h, .refl o, fun start hs => mem_sortBy.mp hs⟩

theorem swapBlockIntoSession_spec {c : P.Cls} {run : List Slot} {ses s2 : Session}
    (h : A.Inv ticks o) (hrun : InSession ses run) (hne : s2 ≠ ses)
    (prefer : Option (P.Tch × Session)) (allowEqual : Bool) :
    Returns (Optimizer.swapBlockIntoSession c run s2 prefer allowEqual) o
      (A.Outcome ticks (!allowEqual) o) := by
  unfold Optimizer.swapBlockIntoSession
  apply Returns.bind (candidateStarts_spec prefer run.length h)
  rintro starts o₁ ⟨h₁, hsame, hrange⟩
  apply Returns.mono
  · apply anyM_spec (!allowEqual) h₁
    intro start hstart o₂ h₂ _
    apply Returns.read
    apply attemptSome_spec h₂
    have hfit : start + run.length ≤ 5 := by
      have hlt := List.mem_range.mp (hrange start hstart)
      omega
    apply intoWindow_rearranged
    · exact hrun.apart (windowAt_inSession s2 start run.length) hne
    · exact (length_windowAt hfit).symm
  · intro hit o₂ h₂
    exact h₂.since hsame

theorem cycleThrough_spec {c : P.Cls} {src dst : Slot} {aSrc aDst : Option P.Asg} {mids : List Slot}
    (hmids : ∀ mid ∈ mids, mid ≠ src ∧ mid ≠ dst) (allowEqual : Bool) (tried : Nat)
    (h : A.Inv ticks o) (hsrc : o.state.grid c src = aSrc) (hdst : o.state.grid c dst = aDst) :
    Returns (Optimizer.cycleThrough c src dst aSrc aDst allowEqual tried mids) o
      (A.Outcome ticks (!allowEqual) o) := by
  induction mids generalizing o tried with
  | nil =>
    apply Returns.pure
    exact Aim.Outcome.miss h (.refl o)
  | cons mid rest ih =>
    have hrest : ∀ m ∈ rest, m ≠ src ∧ m ≠ dst := fun m hm => hmids m (List.mem_cons_of_mem _ hm)
    unfold Optimizer.cycleThrough
    apply Returns.read
    split
    · exact ih hrest tried h hsrc hdst
    · split
      · apply Returns.pure
        exact Aim.Outcome.miss h (.refl o)
      · obtain ⟨hmsrc, hmdst⟩ := hmids mid List.mem_cons_self
        have hmove := cycle_rearranged (s := o.state) (c := c) hmsrc hmdst
        rw [hsrc, hdst] at hmove
        apply Returns.bind (attempt_spec h hmove allowEqual)
        intro hit o₁ h₁
        cases hit with
        | true => exact Returns.pure h₁
        | false =>
          have hcells := h₁.2.cells
          rw [if_neg Bool.false_ne_true]
          apply (ih hrest (tried + 1) h₁.1 (by rw [hcells]; exact hsrc)
            (by rw [hcells]; exact hdst)).mono
          intro hit o₂ h₂
          exact h₂.since h₁.2

theorem cycle3Place_spec (c : P.Cls) (src dst : Slot) (allowEqual : Bool) (h : A.Inv ticks o) :
    Returns (Optimizer.cycle3Place c src dst allowEqual) o (A.Outcome ticks (!allowEqual) o) := by
  unfold Optimizer.cycle3Place
  apply Returns.read
  dsimp only
  split
  · exact Returns.pure (Aim.Outcome.miss h (.refl o))
  · split
    · exact Returns.pure (Aim.Outcome.miss h (.refl o))
    · split
      · exact Returns.pure (Aim.Outcome.miss h (.refl o))
      · apply Returns.bind (shuffle_spec _ h)
        rintro mids o₁ ⟨h₁, hsame, hmids⟩
        have hapart : ∀ mid ∈ mids, mid ≠ src ∧ mid ≠ dst := by
          intro mid hmid
          exact of_decide_eq_true (List.mem_filter.mp (hmids mid hmid)).2
        have hcells := hsame.cells
        apply (cycleThrough_spec hapart allowEqual 0 h₁ (by rw [hcells]) (by rw [hcells])).mono
        intro hit o₂ h₂
        exact h₂.since hsame

theorem bringFriend_spec (t : P.Tch) (ses : Session) (h : A.Inv ticks o) :
    Returns (Optimizer.bringFriend t ses) o (A.Outcome ticks true o) := by
  unfold Optimizer.bringFriend
  apply Returns.read
  split
  · exact Returns.pure (Aim.Outcome.miss h (.refl o))
  · apply anyM_spec true h
    intro s2 hs2 o₂ h₂ _
    have hne : s2 ≠ ses := (of_decide_eq_true (List.mem_filter.mp (mem_sortBy.mp hs2)).2).1
    apply Returns.read
    apply anyM_spec true h₂
    intro edge _ o₃ h₃ _
    apply Returns.read
    split
    · exact Returns.pure (Aim.Outcome.miss h₃ (.refl o₃))
    · rename_i ai hai
      dsimp only
      split
      · exact Returns.pure (Aim.Outcome.miss h₃ (.refl o₃))
      · apply anyM_spec true h₃
        intro p _ o₄ h₄ hsame
        apply Returns.read
        apply attemptSome_spec h₄ ?_ false
        have hlesson := (h₃.consistent.lesson_of_teacherSlot hai).1
        rw [← hsame.cells] at hlesson
        apply friendChanges_rearranged hlesson
        rw [sessionOfSlot_slotAt, sessionOfSlot_slotAt]
        exact hne.symm

theorem vacateBlocks_spec {t : P.Tch} {ses : Session} {blocks : List (P.Cls × List Slot)}
    (hblocks : ∀ block ∈ blocks, InSession ses block.2) (h : A.Inv ticks o) :
    Returns (Optimizer.vacateBlocks t ses blocks) o fun _ o' => A.Inv ticks o' := by
  unfold Optimizer.vacateBlocks
  apply Returns.mono
  · apply Returns.allM (I := A.Inv ticks) (J := A.Inv ticks) h
    intro block hb o₁ h₁
    apply Returns.read
    apply Returns.mono
    · apply anyM_spec false h₁
      intro s2 _ o₂ h₂ _
      apply Returns.read
      split
      · exact Returns.pure (Aim.Outcome.miss h₂ (.refl o₂))
      · rename_i hcond
        rw [not_or] at hcond
        exact swapBlockIntoSession_spec h₂ (hblocks block hb) hcond.1 _ true
    · intro hit o₂ h₂
      cases hit with
      | true => exact h₂.inv
      | false => exact h₂.inv
  · intro hit o₁ h₁
    cases hit with
    | true => exact h₁
    | false => exact h₁

theorem vacateSession_spec (t : P.Tch) (ses : Session) (h : A.Inv ticks o) :
    Returns (Optimizer.vacateSession t ses) o (A.Outcome ticks true o) := by
  unfold Optimizer.vacateSession
  apply Returns.read
  dsimp only
  split
  · exact Returns.pure (Aim.Outcome.miss h (.refl o))
  · apply Returns.bind (vacateBlocks_spec (blocksFrom_inSession o.state t ses 5 0) h)
    intro moved o₁ h₁
    apply Returns.read
    split
    · rename_i hbetter
      apply Returns.write
      apply Returns.pure
      refine ⟨h₁.noteBest, ?_, ?_⟩
      · rw [noteBest_state]
        exact hbetter.2.le
      · intro _
        rw [noteBest_state]
        exact hbetter.2
    · apply (goBack_spec h h₁).mono
      rintro hit o₂ ⟨rfl, h₂, hsame⟩
      exact Aim.Outcome.miss h₂ hsame

theorem kempeSwap_spec (order : List P.Cls → List P.Cls) (c : P.Cls) (ses : Session)
    (p1 p2 : Period) (h : A.Inv ticks o) :
    Returns (Optimizer.kempeSwap order c ses p1 p2) o (A.Outcome ticks true o) := by
  unfold Optimizer.kempeSwap
  apply Returns.read
  split
  · exact Returns.pure (Aim.Outcome.miss h (.refl o))
  · rename_i changes hchanges
    exact attempt_spec h (kempeColumnSwap_rearranged hchanges) false

/-! ### Lone lessons -/

theorem mergeLone_spec (t : P.Tch) {ses : Session} (c : P.Cls) {run : List Slot}
    (hrun : InSession ses run) (h : A.Inv ticks o) :
    Returns (Optimizer.mergeLone t ses c run) o (A.Outcome ticks true o) := by
  unfold Optimizer.mergeLone
  apply Returns.read
  split
  · exact Returns.pure (Aim.Outcome.miss h (.refl o))
  · apply anyM_spec true h
    intro s2 _ o₂ h₂ _
    apply Returns.read
    split
    · rename_i hroom
      exact swapBlockIntoSession_spec h₂ hrun (of_decide_eq_true hroom).1 _ false
    · exact Returns.pure (Aim.Outcome.miss h₂ (.refl o₂))

theorem cycleLone_spec (t : P.Tch) (ses : Session) (c : P.Cls) (run : List Slot)
    (h : A.Inv ticks o) :
    Returns (Optimizer.cycleLone t ses c run) o (A.Outcome ticks true o) := by
  unfold Optimizer.cycleLone
  apply Returns.read
  split
  · split
    · exact Returns.pure (Aim.Outcome.miss h (.refl o))
    · apply anyM_spec true h
      intro s2 _ o₂ h₂ _
      apply Returns.read
      split
      · apply anyM_spec true h₂
        intro q _ o₃ h₃ _
        exact cycle3Place_spec c _ _ false h₃
      · exact Returns.pure (Aim.Outcome.miss h₂ (.refl o₂))
  · exact Returns.pure (Aim.Outcome.miss h (.refl o))

/-- One attempt after another that has changed nothing. -/
theorem orElse_spec {m m' : Search P Bool} (hm : Returns m o (A.Outcome ticks true o))
    (hm' : ∀ o₁, A.Inv ticks o₁ → Unchanged o o₁ → Returns m' o₁ (A.Outcome ticks true o₁)) :
    Returns (do let hit ← m; if hit = true then pure true else m') o (A.Outcome ticks true o) := by
  apply Returns.bind hm
  intro hit o₁ h₁
  cases hit with
  | true => exact Returns.pure h₁
  | false =>
    rw [if_neg Bool.false_ne_true]
    apply (hm' o₁ h₁.1 h₁.2).mono
    intro hit o₂ h₂
    exact h₂.since h₁.2

theorem directFixes_spec (t : P.Tch) {ses : Session} (c : P.Cls) {run : List Slot}
    (hrun : InSession ses run) (h : A.Inv ticks o) :
    Returns (Optimizer.directFixes t ses c run) o (A.Outcome ticks true o) := by
  unfold Optimizer.directFixes
  apply orElse_spec (mergeLone_spec t c hrun h)
  intro o₁ h₁ _
  apply orElse_spec (bringFriend_spec t ses h₁)
  intro o₂ h₂ _
  exact cycleLone_spec t ses c run h₂

theorem fixSingletonDirect_spec (t : P.Tch) (ses : Session) (h : A.Inv ticks o) :
    Returns (Optimizer.fixSingletonDirect t ses) o (A.Outcome ticks true o) := by
  unfold Optimizer.fixSingletonDirect
  apply Returns.read
  split
  · exact Returns.pure (Aim.Outcome.miss h (.refl o))
  · rename_i c run hlone
    exact directFixes_spec t c (loneRun_inSession hlone) h

theorem fixMoved_spec (t : P.Tch) (s3 : Session) (h : A.Inv ticks o) :
    Returns (Optimizer.fixMoved t s3) o (A.Outcome ticks true o) := by
  unfold Optimizer.fixMoved
  apply Returns.read
  split
  · exact fixSingletonDirect_spec t s3 h
  · exact Returns.pure (Aim.Outcome.miss h (.refl o))

theorem chainLone_spec (t : P.Tch) {ses : Session} (c : P.Cls) {run : List Slot}
    (hrun : InSession ses run) (h : A.Inv ticks o) :
    Returns (Optimizer.chainLone t ses c run) o (A.Outcome ticks true o) := by
  unfold Optimizer.chainLone
  apply Returns.read
  split
  · apply Returns.bind (shuffle_spec _ h)
    rintro empties o₁ ⟨h₁, hsame, hfrom⟩
    apply Returns.mono
    · apply anyM_spec true h₁
      intro s3 hs3 o₂ h₂ hsame₂
      have hne : s3 ≠ ses := by
        have hmem := List.mem_filter.mp (hfrom s3 (List.mem_of_mem_take hs3))
        exact (of_decide_eq_true hmem.2).2
      apply Returns.bind (swapBlockIntoSession_spec h₂ hrun hne none true)
      intro moved o₃ h₃
      cases moved with
      | false =>
        rw [if_neg Bool.false_ne_true]
        exact Returns.pure h₃
      | true =>
        obtain ⟨hinv₃, hle, -⟩ := h₃
        rw [if_pos rfl]
        apply Returns.bind (fixMoved_spec t s3 hinv₃)
        intro fixed o₄ h₄
        cases fixed with
        | true =>
          rw [if_pos rfl]
          apply Returns.pure
          obtain ⟨hinv₄, -, hlt⟩ := h₄
          have hbetter := lt_of_lt_of_le (hlt rfl) hle
          exact ⟨hinv₄, hbetter.le, fun _ => hbetter⟩
        | false =>
          rw [if_neg Bool.false_ne_true]
          apply (goBack_spec h h₄.1).mono
          rintro hit o₅ ⟨rfl, h₅, hback⟩
          exact Aim.Outcome.miss h₅ ((hsame.trans hsame₂).symm.trans hback)
    · intro hit o₂ h₂
      exact h₂.since hsame
  · exact Returns.pure (Aim.Outcome.miss h (.refl o))

theorem fixSingleton_spec (t : P.Tch) (ses : Session) (h : A.Inv ticks o) :
    Returns (Optimizer.fixSingleton t ses) o (A.Outcome ticks true o) := by
  unfold Optimizer.fixSingleton
  apply Returns.read
  split
  · exact Returns.pure (Aim.Outcome.miss h (.refl o))
  · rename_i c run hlone
    have hrun := loneRun_inSession hlone
    apply orElse_spec (directFixes_spec t c hrun h)
    intro o₁ h₁ _
    exact chainLone_spec t c hrun h₁

/-! ### Gaps -/

theorem slideIntoHole_spec (hteam : P.OneTeam) (t : P.Tch) (ses : Session) (holes : List Period)
    (h : A.Inv ticks o) :
    Returns (Optimizer.slideIntoHole t ses holes) o (A.Outcome ticks true o) := by
  unfold Optimizer.slideIntoHole
  apply Returns.read
  apply anyM_spec true h
  intro edge _ o₂ h₂ _
  apply Returns.read
  split
  · exact Returns.pure (Aim.Outcome.miss h₂ (.refl o₂))
  · rename_i c run hrun
    split
    · exact Returns.pure (Aim.Outcome.miss h₂ (.refl o₂))
    · apply anyM_spec true h₂
      intro hole _ o₃ h₃ hsame
      apply Returns.read
      dsimp only
      split
      · exact Returns.pure (Aim.Outcome.miss h₃ (.refl o₃))
      · rename_i hcond
        rw [not_or] at hcond
        apply attemptSome_spec h₃ ?_ false
        apply getD_swapRunsChanges_rearranged
        have hlen : run.length ≤ o₂.state.holeRunLen t ses hole := by
          have hge := Nat.le_of_not_lt hcond.1
          unfold State.holeRunLen at hge ⊢
          rw [hsame.cells] at hge
          exact hge
        exact edgeRun_apart hteam h₂.consistent hrun hlen

theorem pullIntoHole_spec (t : P.Tch) (ses : Session) (holes : List Period) (h : A.Inv ticks o) :
    Returns (Optimizer.pullIntoHole t ses holes) o (A.Outcome ticks true o) := by
  unfold Optimizer.pullIntoHole
  apply anyM_spec true h
  intro hole _ o₁ h₁ _
  apply Returns.read
  dsimp only
  apply anyM_spec true h₁
  intro s2 _ o₂ h₂ _
  apply Returns.read
  split
  · exact Returns.pure (Aim.Outcome.miss h₂ (.refl o₂))
  · rename_i hne
    apply anyM_spec true h₂
    intro block hb o₃ h₃ _
    apply Returns.read
    split
    · exact Returns.pure (Aim.Outcome.miss h₃ (.refl o₃))
    · apply attemptSome_spec h₃ ?_ false
      apply getD_swapRunsChanges_rearranged
      have hblock := blocksFrom_inSession o₂.state t s2 5 0 block hb
      exact hblock.apart (windowAt_inSession ses _ _) fun heq => hne heq.symm

theorem swapHoleColumn_spec (order : List P.Cls → List P.Cls) (t : P.Tch) (ses : Session)
    (holes : List Period) (h : A.Inv ticks o) :
    Returns (Optimizer.swapHoleColumn order t ses holes) o (A.Outcome ticks true o) := by
  unfold Optimizer.swapHoleColumn
  apply anyM_spec true h
  intro hole _ o₁ h₁ _
  apply Returns.read
  apply anyM_spec true h₁
  intro edge _ o₂ h₂ _
  apply Returns.read
  split
  · exact Returns.pure (Aim.Outcome.miss h₂ (.refl o₂))
  · exact kempeSwap_spec order _ ses edge hole h₂

theorem cycleIntoHole_spec (t : P.Tch) (ses : Session) (holes : List Period) (h : A.Inv ticks o) :
    Returns (Optimizer.cycleIntoHole t ses holes) o (A.Outcome ticks true o) := by
  unfold Optimizer.cycleIntoHole
  apply Returns.read
  apply orElse_spec
  · apply anyM_spec true h
    intro edge _ o₂ h₂ _
    apply Returns.read
    split
    · exact Returns.pure (Aim.Outcome.miss h₂ (.refl o₂))
    · split
      · exact Returns.pure (Aim.Outcome.miss h₂ (.refl o₂))
      · apply anyM_spec true h₂
        intro hole _ o₃ h₃ _
        exact cycle3Place_spec _ _ _ false h₃
  · intro o₁ h₁ _
    apply anyM_spec true h₁
    intro hole _ o₂ h₂ _
    apply Returns.read
    apply anyM_spec true h₂
    intro s2 _ o₃ h₃ _
    apply Returns.read
    split
    · exact Returns.pure (Aim.Outcome.miss h₃ (.refl o₃))
    · apply anyM_spec true h₃
      intro block _ o₄ h₄ _
      split
      · exact cycle3Place_spec _ _ _ false h₄
      · exact Returns.pure (Aim.Outcome.miss h₄ (.refl o₄))

theorem moveBorderOut_spec (t : P.Tch) (ses : Session) (h : A.Inv ticks o) :
    Returns (Optimizer.moveBorderOut t ses) o (A.Outcome ticks true o) := by
  unfold Optimizer.moveBorderOut
  apply Returns.read
  apply anyM_spec true h
  intro edge _ o₂ h₂ _
  apply Returns.read
  split
  · exact Returns.pure (Aim.Outcome.miss h₂ (.refl o₂))
  · rename_i c run hrun
    split
    · exact Returns.pure (Aim.Outcome.miss h₂ (.refl o₂))
    · apply anyM_spec true h₂
      intro s2 _ o₃ h₃ _
      apply Returns.read
      split
      · exact Returns.pure (Aim.Outcome.miss h₃ (.refl o₃))
      · rename_i hcond
        rw [not_or] at hcond
        exact swapBlockIntoSession_spec h₃ (edgeRun_inSession hrun) hcond.1 _ false

theorem firstOf_spec {ms : List (Search P Bool)}
    (hms : ∀ m ∈ ms, ∀ o₁, A.Inv ticks o₁ → Returns m o₁ (A.Outcome ticks true o₁))
    (h : A.Inv ticks o) : Returns (Optimizer.firstOf ms) o (A.Outcome ticks true o) := by
  induction ms generalizing o with
  | nil => exact Returns.pure (Aim.Outcome.miss h (.refl o))
  | cons m rest ih =>
    unfold Optimizer.firstOf
    apply orElse_spec (hms m List.mem_cons_self o h)
    intro o₁ h₁ _
    apply ih
    · intro m' hm'
      exact hms m' (List.mem_cons_of_mem _ hm')
    · exact h₁

theorem fixGapSession_spec (hteam : P.OneTeam) (order : List P.Cls → List P.Cls) (t : P.Tch)
    (ses : Session) (h : A.Inv ticks o) :
    Returns (Optimizer.fixGapSession order t ses) o (A.Outcome ticks true o) := by
  unfold Optimizer.fixGapSession
  apply Returns.read
  dsimp only
  split
  · exact Returns.pure (Aim.Outcome.miss h (.refl o))
  · apply firstOf_spec ?_ h
    intro m hm o₁ h₁
    simp only [List.mem_cons, List.not_mem_nil, or_false] at hm
    rcases hm with rfl | rfl | rfl | rfl | rfl | rfl
    · exact slideIntoHole_spec hteam t ses _ h₁
    · exact pullIntoHole_spec t ses _ h₁
    · exact swapHoleColumn_spec order t ses _ h₁
    · exact cycleIntoHole_spec t ses _ h₁
    · exact moveBorderOut_spec t ses h₁
    · exact vacateSession_spec t ses h₁

end Operators

end TkbCherry.Engine
