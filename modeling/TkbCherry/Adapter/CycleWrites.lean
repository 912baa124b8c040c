import TkbCherry.Adapter.QualityCycles
import TkbCherry.Lib.Indexed

/-!
# What a cycle of blocks writes

The blocks of a timetable are runs of lessons of one teacher, in ascending periods and off the fixed
places. A cycle of blocks of different teachers thus writes every lesson it reads, and the timetable
after it is the timetable before it with the contents of some lessons of a class permuted.
-/

namespace TkbCherry.Adapter

set_option autoImplicit false

open Engine Grouping Reindex Indexed

/-- The period of an index, the key of `sortedIndices`. -/
def periodAt (lessons : List Lesson) (i : Nat) : Nat := (lessons[i]?).elim 0 Lesson.period

/-- A block is a run of lessons of the timetable. -/
structure Block.Of (b : Block) (lessons : List Lesson) (fixed : List PlaceKey) : Prop where
  lesson : ∀ i ∈ b.indices, ∃ l, lessons[i]? = some l ∧ l.className = b.className ∧
    l.teacher = b.teacher ∧ placeOf l ∉ fixed
  ascending : b.indices.Pairwise fun i j => periodAt lessons i < periodAt lessons j
  slots : ∀ s, s ∈ b.slots ↔ ∃ i ∈ b.indices, ∃ l, lessons[i]? = some l ∧ slotOf l = s
  length : b.length = b.indices.length
  named : b.teacher ≠ ""

section Rows
variable {lessons : List Lesson} {fixed : List PlaceKey}

theorem mem_sessionRows {row : List Entry} (h : row ∈ sessionRows lessons) :
    ∃ key : String × Nat × Part, ∀ e ∈ row,
      lessons[e.2]? = some e.1 ∧ (e.1.className, e.1.day, e.1.session) = key := by
  rw [sessionRows, List.mem_map] at h
  obtain ⟨entry, hentry, rfl⟩ := h
  refine ⟨entry.1, ?_⟩
  intro e he
  have hgroup := mem_grouped.mp (List.mem_mergeSort.mp hentry)
  rw [List.mem_mergeSort, hgroup.2, mem_valuesAt] at he
  obtain ⟨e', he', heq⟩ := List.mem_map.mp he
  obtain ⟨hkey, rfl⟩ := Prod.mk.inj heq
  exact ⟨List.mem_zipIdx_iff_getElem?.mp he', hkey⟩

/-- Along a run the periods ascend and the teacher stays. -/
theorem continues_pairwise {run : List Entry} (h : run.IsChain fun a b => continues a b = true) :
    run.Pairwise fun a b => a.1.period < b.1.period ∧ a.1.teacher = b.1.teacher := by
  have hchain : run.IsChain fun a b => a.1.period < b.1.period ∧ a.1.teacher = b.1.teacher := by
    apply h.imp
    intro a b hab
    simp only [continues, Bool.and_eq_true, decide_eq_true_eq] at hab
    exact ⟨by omega, hab.2.symm⟩
  have : IsTrans Entry fun a b => a.1.period < b.1.period ∧ a.1.teacher = b.1.teacher :=
    ⟨fun a b c hab hbc => ⟨hab.1.trans hbc.1, hab.2.trans hbc.2⟩⟩
  exact List.isChain_iff_pairwise.mp hchain

theorem Block.of_run {key : String × Nat × Part} {run : List Entry} {b : Block}
    (hrun : ∀ e ∈ run, lessons[e.2]? = some e.1 ∧ (e.1.className, e.1.day, e.1.session) = key)
    (hascending : run.Pairwise fun a b => a.1.period < b.1.period ∧ a.1.teacher = b.1.teacher)
    (h : blockOf fixed run = some b) : b.Of lessons fixed := by
  cases run with
  | nil => cases h
  | cons first rest =>
    rw [blockOf] at h
    split at h
    · cases h
    · rename_i hfixed
      split at h
      · cases h
      · rename_i hnamed
        cases h
        obtain ⟨hhead, _⟩ := List.pairwise_cons.mp hascending
        have hteacher : ∀ e ∈ first :: rest, e.1.teacher = first.1.teacher := by
          intro e he
          cases List.mem_cons.mp he with
          | inl he => rw [he]
          | inr he => exact (hhead e he).2.symm
        have hclass : ∀ e ∈ first :: rest, e.1.className = first.1.className := by
          intro e he
          have hkey := (hrun e he).2.trans (hrun first List.mem_cons_self).2.symm
          exact congrArg Prod.fst hkey
        refine ⟨?_, ?_, ?_, ?_, hnamed⟩
        · intro i hi
          obtain ⟨e, he, rfl⟩ := List.mem_map.mp hi
          refine ⟨e.1, (hrun e he).1, hclass e he, hteacher e he, ?_⟩
          intro hmem
          exact hfixed (List.any_eq_true.mpr ⟨e, he, decide_eq_true hmem⟩)
        · rw [List.pairwise_map]
          apply hascending.imp_of_mem
          intro a b ha hb hab
          rw [periodAt, periodAt, (hrun a ha).1, (hrun b hb).1]
          exact hab.1
        · intro s
          rw [List.mem_toFinset, List.mem_map]
          constructor
          · intro hs
            obtain ⟨e, he, rfl⟩ := hs
            exact ⟨e.2, List.mem_map_of_mem he, e.1, (hrun e he).1, rfl⟩
          · intro hs
            obtain ⟨i, hi, l, hl, rfl⟩ := hs
            obtain ⟨e, he, rfl⟩ := List.mem_map.mp hi
            rw [(hrun e he).1] at hl
            cases hl
            exact ⟨e, he, rfl⟩
        · exact (List.length_map Prod.snd).symm

theorem Block.of_mem {b : Block} (h : b ∈ blocks lessons fixed) : b.Of lessons fixed := by
  rw [blocks, List.mem_flatMap] at h
  obtain ⟨row, hrow, hb⟩ := h
  obtain ⟨run, hrun, hb⟩ := List.mem_filterMap.mp hb
  obtain ⟨key, hkey⟩ := mem_sessionRows hrow
  have hsub : ∀ e ∈ run, e ∈ row := by
    intro e he
    rw [← List.flatten_splitBy continues row]
    exact List.mem_flatten.mpr ⟨run, hrun, he⟩
  exact Block.of_run (fun e he => hkey e (hsub e he))
    (continues_pairwise (List.isChain_of_mem_splitBy hrun)) hb

variable {b : Block}

theorem Block.Of.nodup (h : b.Of lessons fixed) : b.indices.Nodup := by
  apply h.ascending.imp
  intro i j hij heq
  subst heq
  exact Nat.lt_irrefl _ hij

theorem Block.Of.sortedIndices (h : b.Of lessons fixed) : sortedIndices lessons b = b.indices := by
  apply List.mergeSort_of_pairwise
  apply h.ascending.imp
  intro i j hij
  exact decide_eq_true hij.le

end Rows

/-! ### Cycles -/

/-- Two or more blocks of one class and one length with different teachers. -/
structure IsCycle (lessons : List Lesson) (fixed : List PlaceKey) (cycle : List Block) : Prop where
  block : ∀ b ∈ cycle, b.Of lessons fixed
  alike : ∀ b ∈ cycle, ∀ b' ∈ cycle, b.className = b'.className ∧ b.length = b'.length
  teachers : (cycle.map Block.teacher).Nodup

namespace IsCycle
variable {lessons : List Lesson} {fixed : List PlaceKey} {cycle : List Block}

/-- The block of an index is the one of its teacher. -/
theorem block_eq (h : IsCycle lessons fixed cycle) {b b' : Block} (hb : b ∈ cycle) (hb' : b' ∈ cycle)
    {i : Nat} (hi : i ∈ b.indices) (hi' : i ∈ b'.indices) : b = b' := by
  obtain ⟨l, hl, _, ht, _⟩ := (h.block b hb).lesson i hi
  obtain ⟨l', hl', _, ht', _⟩ := (h.block b' hb').lesson i hi'
  rw [hl] at hl'
  cases hl'
  exact List.inj_on_of_nodup_map h.teachers hb hb' (ht.symm.trans ht')

theorem nodup_indices (h : IsCycle lessons fixed cycle) : (cycle.flatMap Block.indices).Nodup := by
  rw [List.nodup_flatMap]
  refine ⟨fun b hb => (h.block b hb).nodup, ?_⟩
  have hnodup : cycle.Nodup := List.Nodup.of_map _ h.teachers
  apply hnodup.imp_of_mem
  intro b b' hb hb' hne i hi hi'
  exact hne (h.block_eq hb hb' hi hi')

theorem mem_successors {e : Block × Block} (he : e ∈ successors cycle) : e.1 ∈ cycle ∧ e.2 ∈ cycle := by
  constructor
  · rw [← successors_fst cycle]
    exact List.mem_map_of_mem he
  · have hmem : e.2 ∈ cycle.rotate 1 := by
      rw [← successors_snd cycle]
      exact List.mem_map_of_mem he
    exact List.mem_rotate.mp hmem

theorem length_eq (h : IsCycle lessons fixed cycle) {e : Block × Block} (he : e ∈ successors cycle) :
    e.2.indices.length = e.1.indices.length := by
  obtain ⟨h1, h2⟩ := mem_successors he
  rw [← (h.block _ h1).length, ← (h.block _ h2).length]
  exact (h.alike _ h2 _ h1).2

theorem cycleWrites_eq (h : IsCycle lessons fixed cycle) :
    cycleWrites lessons cycle = matched Block.indices (successors cycle) := by
  unfold cycleWrites matched
  apply List.flatMap_congr
  intro e he
  obtain ⟨h1, h2⟩ := mem_successors he
  rw [(h.block _ h1).sortedIndices, (h.block _ h2).sortedIndices]

theorem writes_fst (h : IsCycle lessons fixed cycle) :
    (cycleWrites lessons cycle).map Prod.fst = (cycle.rotate 1).flatMap Block.indices := by
  rw [h.cycleWrites_eq, matched_fst fun e he => h.length_eq he, successors_snd]

theorem writes_snd (h : IsCycle lessons fixed cycle) :
    (cycleWrites lessons cycle).map Prod.snd = cycle.flatMap Block.indices := by
  rw [h.cycleWrites_eq, matched_snd fun e he => h.length_eq he, successors_fst]

theorem writes_perm (h : IsCycle lessons fixed cycle) :
    ((cycleWrites lessons cycle).map Prod.snd).Perm ((cycleWrites lessons cycle).map Prod.fst) := by
  rw [h.writes_snd, h.writes_fst]
  exact (List.rotate_perm cycle 1).symm.flatMap_right Block.indices

theorem writes_nodup (h : IsCycle lessons fixed cycle) :
    ((cycleWrites lessons cycle).map Prod.fst).Nodup :=
  (h.writes_perm.nodup_iff).mp (h.writes_snd ▸ h.nodup_indices)

/-- A write goes from a block to its successor. -/
theorem mem_writes (h : IsCycle lessons fixed cycle) {w : Nat × Nat} (hw : w ∈ cycleWrites lessons cycle) :
    ∃ e ∈ successors cycle, w.1 ∈ e.2.indices ∧ w.2 ∈ e.1.indices := by
  rw [h.cycleWrites_eq, matched, List.mem_flatMap] at hw
  obtain ⟨e, he, hw⟩ := hw
  exact ⟨e, he, (List.of_mem_zip hw).1, (List.of_mem_zip hw).2⟩

end IsCycle

/-! ### The timetable after a cycle -/

theorem length_writeLesson (lessons candidate : List Lesson) (e : Nat × Nat) :
    (writeLesson lessons candidate e).length = candidate.length := by
  unfold writeLesson
  split
  · exact List.length_set
  · rfl

theorem length_foldl_writeLesson (lessons : List Lesson) (writes : List (Nat × Nat))
    (candidate : List Lesson) :
    (writes.foldl (writeLesson lessons) candidate).length = candidate.length := by
  induction writes generalizing candidate with
  | nil => rfl
  | cons e writes ih =>
    rw [List.foldl_cons, ih, length_writeLesson]

/-- A written index receives from its source, another stays. -/
theorem foldl_writeLesson_getElem? {lessons : List Lesson} {writes : List (Nat × Nat)}
    (hnodup : (writes.map Prod.fst).Nodup)
    (hmem : ∀ w ∈ writes, w.1 < lessons.length ∧ w.2 < lessons.length)
    {candidate : List Lesson} (hlength : candidate.length = lessons.length) (i : Nat) :
    (writes.foldl (writeLesson lessons) candidate)[i]? =
      if i ∈ writes.map Prod.fst then
        (lessons[i]?).bind fun target => (lessons[source writes i]?).map (receive target)
      else candidate[i]? := by
  induction writes generalizing candidate with
  | nil => rfl
  | cons w writes ih =>
    obtain ⟨hw, hrest⟩ := List.nodup_cons.mp hnodup
    obtain ⟨htarget, hsource⟩ := hmem w List.mem_cons_self
    have hwrite : writeLesson lessons candidate w = candidate.set w.1
        (receive lessons[w.1] lessons[w.2]) := by
      rw [writeLesson, List.getElem?_eq_getElem htarget, List.getElem?_eq_getElem hsource]
    rw [List.foldl_cons, ih hrest (fun w' hw' => hmem w' (List.mem_cons_of_mem _ hw'))
      ((length_writeLesson lessons candidate w).trans hlength), List.map_cons]
    by_cases hi : i ∈ writes.map Prod.fst
    · have hne : i ≠ w.1 := fun heq => hw (heq ▸ hi)
      have hsame : source (w :: writes) i = source writes i := by
        rw [source, source, List.lookup_cons, beq_eq_false_iff_ne.mpr hne]
      rw [if_pos hi, if_pos (List.mem_cons_of_mem _ hi), hsame]
    · rw [if_neg hi]
      by_cases heq : i = w.1
      · subst heq
        have hfirst : source (w :: writes) w.1 = w.2 := source_of_mem hnodup List.mem_cons_self
        rw [if_pos List.mem_cons_self, hfirst, hwrite,
          List.getElem?_set_self (by rw [hlength]; exact htarget), List.getElem?_eq_getElem htarget,
          List.getElem?_eq_getElem hsource]
        rfl
      · have hout : i ∉ w.1 :: writes.map Prod.fst := by
          intro hmem'
          cases List.mem_cons.mp hmem' with
          | inl h => exact heq h
          | inr h => exact hi h
        rw [if_neg hout, hwrite, List.getElem?_set_ne (Ne.symm heq)]

/-- The content of every lesson comes from a lesson of its class, at a fixed place from itself. -/
def Retaught (fixed : List PlaceKey) (before after : List Lesson) : Prop :=
  after.length = before.length ∧ ∃ σ : Equiv.Perm Nat, ∀ i target, before[i]? = some target →
    ∃ source, before[σ i]? = some source ∧ after[i]? = some (receive target source) ∧
      source.className = target.className ∧ (placeOf target ∈ fixed → σ i = i)

namespace Retaught
variable {fixed : List PlaceKey} {a b c : List Lesson}

theorem refl (fixed : List PlaceKey) (a : List Lesson) : Retaught fixed a a := by
  refine ⟨rfl, Equiv.refl Nat, ?_⟩
  intro i target htarget
  exact ⟨target, htarget, htarget, rfl, fun _ => rfl⟩

theorem trans (h : Retaught fixed a b) (h' : Retaught fixed b c) : Retaught fixed a c := by
  obtain ⟨hlength, σ, hσ⟩ := h
  obtain ⟨hlength', τ, hτ⟩ := h'
  refine ⟨hlength'.trans hlength, τ.trans σ, ?_⟩
  intro i target htarget
  obtain ⟨s, hs, hb, hclass, hfixed⟩ := hσ i target htarget
  obtain ⟨s', hs', hc, hclass', hfixed'⟩ := hτ i _ hb
  have hlt : τ i < a.length := hlength ▸ (List.getElem?_eq_some_iff.mp hs').1
  obtain ⟨u, hu, hb', hclassu, _⟩ := hσ (τ i) _ (List.getElem?_eq_getElem hlt)
  rw [hb'] at hs'
  cases hs'
  refine ⟨u, hu, hc, ?_, ?_⟩
  · rw [hclassu]
    exact hclass'
  · intro hplace
    have hi := hfixed' hplace
    rw [Equiv.trans_apply, hi]
    exact hfixed hplace

/-- Every class keeps what it is taught. -/
theorem perm (h : Retaught fixed a b) :
    (b.map fun l => (l.className, l.subject, l.teacher, l.room)).Perm
      (a.map fun l => (l.className, l.subject, l.teacher, l.room)) := by
  obtain ⟨hlength, σ, hσ⟩ := h
  apply perm_of_reindex _ σ hlength
  intro i hi
  obtain ⟨s, hs, hb, hclass, _⟩ := hσ i _ (List.getElem?_eq_getElem hi)
  refine ⟨_, s, hb, hs, ?_⟩
  rw [hclass]
  rfl

/-- Every lesson keeps its place. -/
theorem places (h : Retaught fixed a b) : b.map placeOf = a.map placeOf := by
  obtain ⟨hlength, σ, hσ⟩ := h
  apply List.ext_getElem?
  intro i
  rw [List.getElem?_map, List.getElem?_map]
  by_cases hi : i < a.length
  · obtain ⟨s, _, hb, _⟩ := hσ i _ (List.getElem?_eq_getElem hi)
    rw [hb, List.getElem?_eq_getElem hi]
    rfl
  · rw [List.getElem?_eq_none (by omega), List.getElem?_eq_none (by omega)]

end Retaught

namespace IsCycle
variable {lessons : List Lesson} {fixed : List PlaceKey} {cycle : List Block}

theorem lt_length (h : IsCycle lessons fixed cycle) {w : Nat × Nat}
    (hw : w ∈ cycleWrites lessons cycle) : w.1 < lessons.length ∧ w.2 < lessons.length := by
  obtain ⟨e, he, h1, h2⟩ := h.mem_writes hw
  obtain ⟨hb1, hb2⟩ := mem_successors he
  obtain ⟨l, hl, _⟩ := (h.block _ hb2).lesson _ h1
  obtain ⟨l', hl', _⟩ := (h.block _ hb1).lesson _ h2
  exact ⟨(List.getElem?_eq_some_iff.mp hl).1, (List.getElem?_eq_some_iff.mp hl').1⟩

theorem applyCycle_getElem? (h : IsCycle lessons fixed cycle) (i : Nat) :
    (applyCycle lessons cycle)[i]? = if i ∈ (cycleWrites lessons cycle).map Prod.fst then
        (lessons[i]?).bind fun target =>
          (lessons[source (cycleWrites lessons cycle) i]?).map (receive target)
      else lessons[i]? :=
  foldl_writeLesson_getElem? h.writes_nodup (fun _ hw => h.lt_length hw) rfl i

theorem retaught (h : IsCycle lessons fixed cycle) :
    Retaught fixed lessons (applyCycle lessons cycle) := by
  refine ⟨length_foldl_writeLesson _ _ _,
    Equiv.ofBijective _ (bijective_source h.writes_nodup h.writes_perm), ?_⟩
  intro i target htarget
  rw [h.applyCycle_getElem?]
  by_cases hi : i ∈ (cycleWrites lessons cycle).map Prod.fst
  · have hw := mem_source h.writes_nodup hi
    obtain ⟨e, he, h1, h2⟩ := h.mem_writes hw
    obtain ⟨hb1, hb2⟩ := mem_successors he
    obtain ⟨l, hl, hclass, _, hfree⟩ := (h.block _ hb2).lesson _ h1
    obtain ⟨l', hl', hclass', _⟩ := (h.block _ hb1).lesson _ h2
    have hsame : l = target := by
      rw [htarget] at hl
      cases hl
      rfl
    refine ⟨l', hl', ?_, ?_, ?_⟩
    · rw [if_pos hi, htarget]
      exact congrArg (Option.map (receive target)) hl'
    · rw [hclass', ← hsame, hclass]
      exact (h.alike _ hb1 _ hb2).1
    · intro hplace
      exact absurd (hsame ▸ hplace) hfree
  · have hself : source (cycleWrites lessons cycle) i = i := source_of_notMem hi
    refine ⟨target, ?_, ?_, rfl, fun _ => hself⟩
    · rw [Equiv.ofBijective_apply, hself]
      exact htarget
    · rw [if_neg hi]
      exact htarget

end IsCycle

end TkbCherry.Adapter
