import TkbCherry.Engine.Places
import TkbCherry.Engine.Stats

/-!
# Names and places of a compiled problem

The members of an exported label are those of its assignment, an index of the problem stands for
one name, and two assignments have one place index when they have one place text.
-/

namespace TkbCherry.Engine

set_option autoImplicit false

variable {py : Python}

/-! ### Text -/

theorem collapse_ofList_pieces {ws : List (List Char)} (h : ∀ w ∈ ws, Words.Clean isSpace w) :
    collapse (String.ofList (Words.joined ' ' ws)) = String.ofList (Words.joined ' ' ws) := by
  have hblank : isSpace ' ' = true := by decide
  rw [collapse, String.toList_ofList, Words.pieces_joined hblank h]

theorem collapse_collapse (s : String) : collapse (collapse s) = collapse s :=
  collapse_ofList_pieces fun _ hw => Words.mem_pieces hw

theorem normLocation_strip (s : String) : normLocation py (strip s) = normLocation py s := by
  obtain ⟨a, b, hs, ha, hb⟩ := Words.exists_trimmed isSpace s.toList
  obtain ⟨a', b', hnfc, ha', hb'⟩ := py.nfc_blanks a (Words.trimmed isSpace s.toList) b ha hb
  rw [← hs, String.ofList_toList] at hnfc
  rw [normLocation, normLocation, collapse, collapse, hnfc, Words.pieces_sep_append ha',
    Words.pieces_append_seps hb', strip]

theorem mem_distinctBy {key : String → String} {x : String} {l seen : List String}
    (h : x ∈ distinctBy key seen l) : x ∈ l := by
  induction l generalizing seen with
  | nil => exact h
  | cons y l ih =>
    by_cases hy : key y ∈ seen
    · rw [distinctBy, if_pos hy] at h
      exact List.mem_cons_of_mem _ (ih h)
    · rw [distinctBy, if_neg hy, List.mem_cons] at h
      rcases h with rfl | h
      · exact List.mem_cons_self
      · exact List.mem_cons_of_mem _ (ih h)

/-- A member is a label of its own. -/
theorem teacherMembers_member {label m : String} (h : m ∈ teacherMembers py label) :
    teacherMembers py m = [m] := by
  obtain ⟨hmem, hne⟩ := List.mem_filter.mp (mem_distinctBy h)
  obtain ⟨part, hpart, rfl⟩ := List.mem_map.mp hmem
  have hne := of_decide_eq_true hne
  have hclean : Words.Clean isMemberSep (collapse (String.ofList part)).toList := by
    constructor
    · intro hnil
      apply hne
      rw [← String.toList_inj, hnil]
      rfl
    · intro c hc
      rw [collapse, String.toList_ofList, String.toList_ofList] at hc
      rcases Words.mem_joined hc with rfl | hw
      · decide
      · obtain ⟨w, hw, hc⟩ := hw
        exact (Words.mem_pieces hpart).2 c (Words.mem_of_mem_pieces hw hc)
  rw [teacherMembers, Words.pieces_clean hclean]
  simp only [List.map_cons, List.map_nil, String.ofList_toList, collapse_collapse]
  have hkeep : [collapse (String.ofList part)].filter (fun item => decide (item ≠ "")) =
      [collapse (String.ofList part)] := List.filter_cons_of_pos (decide_eq_true hne)
  rw [hkeep]
  rfl

/-! ### Indices -/

theorem get_of_indexOf {names : List String} {name : String} {i : Fin names.length}
    (h : indexOf names name = some i) : names.get i = name := by
  have hfound := List.find?_some (p := fun j => decide (names.get j = name)) h
  exact of_decide_eq_true hfound

theorem indexOf_eq_some_iff {names : List String} (hn : names.Nodup) {name : String}
    {i : Fin names.length} : indexOf names name = some i ↔ names.get i = name := by
  constructor
  · exact get_of_indexOf
  · intro h
    obtain ⟨j, hj⟩ := Option.isSome_iff_exists.mp (indexOf_isSome (h ▸ List.get_mem names i))
    have hget := (get_of_indexOf hj).trans h.symm
    rw [hj, List.nodup_iff_injective_get.mp hn hget]

theorem nodup_foldl_appendNew {names : List String} (h : names.Nodup) (l : List String) :
    (l.foldl appendNew names).Nodup := by
  induction l generalizing names with
  | nil => exact h
  | cons y l ih =>
    apply ih
    by_cases hy : y ∈ names
    · rwa [appendNew, if_pos hy]
    · rw [appendNew, if_neg hy, List.nodup_append]
      refine ⟨h, List.nodup_singleton y, ?_⟩
      rintro a ha b hb rfl
      exact hy (List.mem_singleton.mp hb ▸ ha)

theorem nodup_sortedSet (names : List String) : (sortedSet names).Nodup :=
  (List.mergeSort_perm _ _).nodup_iff.mpr (List.nodup_dedup names)

namespace SchoolData
variable (d : SchoolData)

theorem nodup_teacherNames (fixed : List Lesson) : (d.teacherNames py fixed).Nodup :=
  nodup_foldl_appendNew (nodup_sortedSet _) _

theorem member_mem_teacherNames (fixed : List Lesson) {a : Assignment} (h : a ∈ d.assignments)
    {m : String} (hm : m ∈ teacherMembers py a.teacher) : m ∈ d.teacherNames py fixed := by
  rw [teacherNames, mem_foldl_appendNew]
  refine Or.inl (List.mem_mergeSort.mpr (List.mem_dedup.mpr ?_))
  exact List.mem_flatMap.mpr ⟨a, h, hm⟩

theorem className_classIndex (a : Assignment) (h : a ∈ d.assignments) :
    d.classNames.get (d.classIndex a h) = a.className :=
  get_of_indexOf (Option.some_get _).symm

theorem mem_placeNames {a : Assignment} (h : a ∈ d.assignments) (hne : d.placeText py a ≠ "") :
    d.placeText py a ∈ d.placeNames py := by
  rw [placeNames, mem_foldl_appendNew]
  refine Or.inr (List.mem_filter.mpr ⟨List.mem_map_of_mem h, decide_eq_true hne⟩)

/-- The text of a place index. -/
def placeName (i : Nat) : String := (d.placeNames py).getD i ""

theorem placeOf_eq_some_iff {a : Assignment} (h : a ∈ d.assignments) {i : Nat}
    (hi : d.placeOf py a = some i) : d.placeText py a ≠ "" ∧ @placeName py d i = d.placeText py a := by
  by_cases hne : d.placeText py a = ""
  · rw [placeOf, if_pos hne] at hi
    cases hi
  · rw [placeOf, if_neg hne] at hi
    refine ⟨hne, ?_⟩
    cases hi
    have hlt := List.idxOf_lt_length_of_mem (d.mem_placeNames h hne)
    rw [placeName, List.getD_eq_getElem _ _ hlt, List.getElem_idxOf hlt]

/-- One place text, one index. -/
theorem placeOf_eq_of_name {a b : Assignment} (ha : a ∈ d.assignments) (hb : b ∈ d.assignments)
    {i j : Nat} (hi : d.placeOf py a = some i) (hj : d.placeOf py b = some j)
    (h : @placeName py d i = @placeName py d j) : i = j := by
  obtain ⟨hna, hia⟩ := d.placeOf_eq_some_iff ha hi
  obtain ⟨hnb, hjb⟩ := d.placeOf_eq_some_iff hb hj
  rw [placeOf, if_neg hna] at hi
  rw [placeOf, if_neg hnb, ← hjb, ← h, hia] at hj
  exact Option.some.inj (hi.symm.trans hj)

end SchoolData

/-! ### Labels -/

namespace Input
variable (x : Input py)

theorem mem_teachersOf (ai : x.problem.Asg) (t : x.problem.Tch) :
    t ∈ x.problem.aTeachers ai ↔ x.problem.teacherName t ∈ teacherMembers py (x.asg ai).teacher := by
  have hn : (x.data.teacherNames py x.fixed).Nodup := x.data.nodup_teacherNames x.fixed
  constructor
  · intro h
    obtain ⟨m, hm, hidx⟩ := List.mem_filterMap.mp h
    have hget : x.problem.teacherName t = m := get_of_indexOf hidx
    rwa [hget]
  · intro h
    exact List.mem_filterMap.mpr ⟨_, h, (indexOf_eq_some_iff hn).mpr rfl⟩

theorem exists_teacher {ai : x.problem.Asg} {m : String}
    (h : m ∈ teacherMembers py (x.asg ai).teacher) :
    ∃ t ∈ x.problem.aTeachers ai, x.problem.teacherName t = m := by
  have hmem := x.data.member_mem_teacherNames x.fixed (x.asg_mem ai) h
  obtain ⟨t, ht⟩ := Option.isSome_iff_exists.mp (indexOf_isSome hmem)
  exact ⟨t, List.mem_filterMap.mpr ⟨m, h, ht⟩, get_of_indexOf ht⟩

theorem teachersOf_map_name (ai : x.problem.Asg) :
    (x.teachersOf ai).map (x.data.teacherNames py x.fixed).get =
      teacherMembers py (x.asg ai).teacher := by
  have hall : ∀ ms : List String, (∀ m ∈ ms, m ∈ x.data.teacherNames py x.fixed) →
      (ms.filterMap (indexOf (x.data.teacherNames py x.fixed))).map
        (x.data.teacherNames py x.fixed).get = ms := by
    intro ms hms
    induction ms with
    | nil => rfl
    | cons m rest ih =>
      obtain ⟨i, hi⟩ := Option.isSome_iff_exists.mp (indexOf_isSome (hms m List.mem_cons_self))
      rw [List.filterMap_cons_some hi, List.map_cons,
        ih fun m' hm' => hms m' (List.mem_cons_of_mem _ hm')]
      exact congrArg (· :: rest) (get_of_indexOf hi)
  exact hall _ fun m hm => x.data.member_mem_teacherNames x.fixed (x.asg_mem ai) hm

/-- The exported label names the teachers of the assignment. -/
theorem teacherMembers_label (ai : x.problem.Asg) :
    teacherMembers py (x.teacherLabel ai) = teacherMembers py (x.asg ai).teacher := by
  have hmap := x.teachersOf_map_name ai
  unfold teacherLabel
  by_cases hlen : 1 < (x.teachersOf ai).length
  · rw [if_pos hlen]
  · rw [if_neg hlen, ← hmap]
    cases hts : x.teachersOf ai with
    | nil => rfl
    | cons t rest =>
      rw [hts, List.length_cons] at hlen
      have hnil : rest = [] := List.eq_nil_of_length_eq_zero (by omega)
      rw [hnil]
      have hmem : (x.data.teacherNames py x.fixed).get t ∈ teacherMembers py (x.asg ai).teacher := by
        rw [← hmap, hts]
        exact List.mem_cons_self
      exact teacherMembers_member hmem

/-- The place the validator reads off an exported lesson is the place text of its assignment. -/
theorem effectiveLocation_lessonAt {ai : x.problem.Asg} {c : x.problem.Cls}
    (hc : x.problem.aClass ai = c) (slot : Slot) :
    effectiveLocation py (fun name => normLocation py (x.data.classLocation name))
      (x.lessonAt c slot ai) = x.data.placeText py (x.asg ai) := by
  have hname : (x.lessonAt c slot ai).className = (x.asg ai).className := by
    rw [← hc]
    exact x.data.className_classIndex _ (x.asg_mem ai)
  have hroom : (x.lessonAt c slot ai).room = (x.asg ai).room := rfl
  unfold effectiveLocation SchoolData.placeText
  rw [hname, hroom]
  by_cases hr : strip (x.asg ai).room ≠ ""
  · rw [if_pos hr, if_pos hr]
  · rw [if_neg hr, if_neg hr, normLocation_strip]

end Input

end TkbCherry.Engine
