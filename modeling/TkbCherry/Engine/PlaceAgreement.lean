import TkbCherry.Engine.PlaceDebt

/-!
# When the place debts agree

For a table of teacher rules the engine and the validator count the same sessions in every school
and every timetable exactly when they read the place flags of each teacher alike.
-/

namespace TkbCherry.Engine

set_option autoImplicit false

variable {py : Python}

theorem lookup_eq_some_iff {entries : List (String × Json)} (h : (entries.map Prod.fst).Nodup)
    {name : String} {raw : Json} : entries.lookup name = some raw ↔ (name, raw) ∈ entries := by
  constructor
  · exact AssocList.mem_of_lookup
  · intro hmem
    induction entries with
    | nil => cases hmem
    | cons e rest ih =>
      obtain ⟨key, v⟩ := e
      rw [List.map_cons, List.nodup_cons] at h
      rw [AssocList.lookup_cons_eq]
      rcases List.mem_cons.mp hmem with heq | hrest
      · cases heq
        rw [if_pos rfl]
      · rw [if_neg, ih h.2 hrest]
        rintro rfl
        exact h.1 (List.mem_map.mpr ⟨_, hrest, rfl⟩)

namespace Input
variable (x : Input py) {k : Constraints}

theorem rawRule_eq_some_iff (hk : x.constraints = some k) {name : String} {raw : Json} :
    x.rawRule name = some raw ↔ (name, raw) ∈ k.teacher := by
  rw [rawRule, hk, Option.bind_some, lookup_eq_some_iff k.nodup]

/-- The verdict of the validator on one visit. -/
def verdict (s : State x.problem) (v : Json × SessionOf) : Option Bool :=
  (validatorFlags py v.1 v.2.2.1 v.2.2.2).map fun f =>
    placesBroken f (withPlaces py (fun name => normLocation py (x.data.classLocation name))
      (sessionItems py (x.lessons s.grid) v.2))

theorem debtSessions_eq (s : State x.problem) (ha : k.active = true) :
    locationDebtSessions py x.data k (x.lessons s.grid) =
      (keepM (x.verdict s) (visits py k (x.lessons s.grid))).map fun kept => kept.map Prod.snd := by
  rw [locationDebtSessions, if_pos ha]
  rfl

/-- The validator counts a teacher session. -/
def Counted (k : Constraints) (s : State x.problem) (t : x.problem.Tch) (ses : Session) : Prop :=
  ∃ raw f, (x.problem.teacherName t, raw) ∈ k.teacher ∧ isMapping raw = true ∧
    validatorFlags py raw ((dayOf ses).val + 2) (partName (partOf ses)) = some f ∧
    placesBroken f (x.validatorPlaces s t ses) = true

/-- The validator reads every flag that it meets. -/
def Reads (k : Constraints) (s : State x.problem) : Prop :=
  ∀ v ∈ visits py k (x.lessons s.grid), (x.verdict s v).isSome = true

theorem places_ne_nil {f : PlaceFlags} {l : List (Nat × String)} (h : placesBroken f l = true) :
    l ≠ [] := by
  rintro rfl
  cases h

/-- The result of the validator. -/
theorem debtSessions_spec (s : State x.problem) (ha : k.active = true) (hr : x.Reads k s) :
    ∃ sessions, locationDebtSessions py x.data k (x.lessons s.grid) = some sessions ∧
      ∀ key, key ∈ sessions ↔ ∃ t ses, key = x.sessionName t ses ∧ x.Counted k s t ses := by
  refine ⟨_, by rw [x.debtSessions_eq s ha, keepM_eq_some hr, Option.map_some], ?_⟩
  intro key
  rw [List.mem_map]
  constructor
  · rintro ⟨⟨raw, key'⟩, hkept, rfl⟩
    obtain ⟨hvisit, hverdict⟩ := List.mem_filter.mp hkept
    obtain ⟨hraw, hm, hkey⟩ := mem_visits.mp hvisit
    obtain ⟨⟨t, ses, rfl⟩, _⟩ := x.exists_session hkey
    obtain ⟨f, hf, hb⟩ := Option.map_eq_some_iff.mp (of_decide_eq_true hverdict)
    exact ⟨t, ses, rfl, raw, f, hraw, hm, hf, hb⟩
  · rintro ⟨t, ses, rfl, raw, f, hraw, hm, hf, hb⟩
    refine ⟨(raw, x.sessionName t ses), List.mem_filter.mpr ⟨mem_visits.mpr ⟨hraw, hm, ?_⟩, ?_⟩, rfl⟩
    · exact x.mem_sessionKeys (places_ne_nil hb)
    · apply decide_eq_true
      exact Option.map_eq_some_iff.mpr ⟨f, hf, hb⟩

/-- The number of sessions the engine counts. -/
theorem length_judged {s : State x.problem} {sessions : List SessionOf}
    (h : ∀ key, key ∈ sessions ↔ ∃ t ses, key = x.sessionName t ses ∧ x.judged s (t, ses) = true) :
    (sessions.dedup.length : Int) = s.locationRuleDebtSessions := by
  have hnodup : (((x.problem.allTeachers.product allSessions).filter (x.judged s)).map fun e =>
      x.sessionName e.1 e.2).Nodup := by
    apply List.Nodup.map_on
    · rintro ⟨t, ses⟩ _ ⟨t', ses'⟩ _ heq
      obtain ⟨ht, hses⟩ := x.sessionName_injective heq
      exact Prod.ext ht hses
    · exact ((List.nodup_finRange _).product (List.nodup_finRange _)).filter _
  have hperm : sessions.dedup.Perm (((x.problem.allTeachers.product allSessions).filter
      (x.judged s)).map fun e => x.sessionName e.1 e.2) := by
    rw [List.perm_ext_iff_of_nodup (List.nodup_dedup _) hnodup]
    intro key
    rw [List.mem_dedup, h, List.mem_map]
    constructor
    · rintro ⟨t, ses, rfl, hj⟩
      refine ⟨(t, ses), List.mem_filter.mpr ⟨List.mem_product.mpr ⟨?_, ?_⟩, hj⟩, rfl⟩
      · exact List.mem_finRange t
      · exact List.mem_finRange ses
    · rintro ⟨e, he, rfl⟩
      exact ⟨e.1, e.2, rfl, (List.mem_filter.mp he).2⟩
  rw [x.locationRuleDebtSessions_eq, hperm.length_eq, List.length_map]

end Input

/-- The two truth tests read the place flags of every teacher alike: no flag is a container, and no
session tells the two readings apart. -/
def ReadAlike (py : Python) (constraints : Option Constraints) : Prop :=
  ∀ k, constraints = some k → ∀ e ∈ k.teacher, isMapping e.2 = true →
    teacherMembers py e.1 = [e.1] → ∀ ses : Session,
      ∃ f, validatorFlags py e.2 ((dayOf ses).val + 2) (partName (partOf ses)) = some f ∧
        (engineFlags py e.2 ses).SameVerdict f

/-- Both sides count the same number of sessions. -/
def DebtsAgree (x : Input py) (s : State x.problem) : Prop :=
  (teacherLocationRuleDebt py x.data x.constraints (x.lessons s.grid)).map (fun n : Nat => (n : Int)) =
    some s.locationRuleDebtSessions

theorem debtsAgree_of_readAlike (x : Input py) (h : ReadAlike py x.constraints)
    {s : State x.problem} (hs : s.toCells.Sound) : DebtsAgree x s := by
  cases hk : x.constraints with
  | none =>
    have hnone := @Input.length_judged py x s [] (by
      intro key
      constructor
      · intro hin
        cases hin
      · rintro ⟨t, ses, rfl, hj⟩
        obtain ⟨raw, hraw, _⟩ := (x.judged_iff hs t ses).mp hj
        rw [Input.rawRule, hk] at hraw
        cases hraw)
    rw [DebtsAgree, hk, ← hnone]
    rfl
  | some k =>
    have halike := h k hk
    have hcounted : ∀ t ses, x.Counted k s t ses ↔ x.judged s (t, ses) = true := by
      intro t ses
      rw [x.judged_iff hs]
      constructor
      · rintro ⟨raw, f, hraw, hm, hf, hb⟩
        refine ⟨raw, (x.rawRule_eq_some_iff hk).mpr hraw, hm, ?_⟩
        have hmember := (x.exists_session (x.mem_sessionKeys (Input.places_ne_nil hb))).2
        obtain ⟨g, hg, hsame⟩ := halike _ hraw hm hmember ses
        rw [hf] at hg
        cases hg
        rw [hsame.broken, hb]
      · rintro ⟨raw, hraw, hm, hb⟩
        have hraw := (x.rawRule_eq_some_iff hk).mp hraw
        have hmember := (x.exists_session (x.mem_sessionKeys (Input.places_ne_nil hb))).2
        obtain ⟨g, hg, hsame⟩ := halike _ hraw hm hmember ses
        exact ⟨raw, g, hraw, hm, hg, hsame.broken _ ▸ hb⟩
    by_cases ha : k.active = true
    · have hr : x.Reads k s := by
        rintro ⟨raw, key⟩ hv
        obtain ⟨hraw, hm, hkey⟩ := mem_visits.mp hv
        obtain ⟨⟨t, ses, rfl⟩, hmember⟩ := x.exists_session hkey
        obtain ⟨g, hg, _⟩ := halike _ hraw hm hmember ses
        have hg' : validatorFlags py raw (x.sessionName t ses).2.1 (x.sessionName t ses).2.2 =
          some g := hg
        rw [Input.verdict, hg']
        rfl
      obtain ⟨sessions, hsome, hmem⟩ := x.debtSessions_spec s ha hr
      have hlen := @Input.length_judged py x s sessions (by
        intro key
        rw [hmem]
        simp only [hcounted])
      rw [DebtsAgree, hk, teacherLocationRuleDebt, Option.elim_some, hsome, ← hlen]
      rfl
    · have hempty : k.teacher = [] := by
        unfold Constraints.active at ha
        simp only [Bool.or_eq_true, not_or, Bool.not_eq_true, Bool.not_eq_false',
          List.isEmpty_iff] at ha
        exact ha.1
      have hnone := @Input.length_judged py x s [] (by
        intro key
        constructor
        · intro hin
          cases hin
        · rintro ⟨t, ses, rfl, hj⟩
          obtain ⟨raw, f, hraw, _⟩ := (hcounted t ses).mpr hj
          rw [hempty] at hraw
          cases hraw)
      rw [DebtsAgree, hk, teacherLocationRuleDebt, Option.elim_some, locationDebtSessions, if_neg ha,
        ← hnone]
      rfl

/-! ### A school that tells two readings apart -/

/-- Two classes at two places, with one teacher. -/
def probeData (t : String) : SchoolData where
  classes := [⟨"a", "a"⟩, ⟨"b", "b"⟩]
  assignments := [⟨"a", "s", t, 5, ""⟩, ⟨"b", "s", t, 5, ""⟩]
  known := by simp

def probeInput (py : Python) (k : Constraints) (t : String) : Input py where
  data := probeData t
  constraints := some k
  fixed := []
  other :=
    { aCap := fun _ => 5
      aAllowed := fun _ _ => true
      aRule := fun _ => none
      teacherRule := fun _ _ => {}
      freedModes := fun _ modes => modes
      teacherMust := fun _ => []
      noSameSession := fun _ => []
      noSameDay := fun _ => []
      fixedCells := []
      fixedMask := fun _ _ => false
      timeLimitRules := []
      subjectGroups := fun _ => []
      groupRuleKeys := fun _ _ => none
      rawGroups := fun _ _ => [] }

section Probe
variable {k : Constraints} {t : String}

/-- The assignment of one of the two classes. -/
def probeAsg (py : Python) (k : Constraints) (t : String) (b : Bool) : (probeInput py k t).problem.Asg :=
  if b then ⟨1, Nat.lt_add_one 1⟩ else ⟨0, Nat.zero_lt_two⟩

/-- The lessons of one session, by period. -/
def probeGrid (py : Python) (k : Constraints) (t : String) (ses : Session)
    (pattern : Period → Option Bool) : (probeInput py k t).problem.Grid :=
  fun c slot => if sessionOfSlot slot = ses then
    ((pattern (periodOfSlot slot)).map (probeAsg py k t)).filter fun ai =>
      decide ((probeInput py k t).problem.aClass ai = c) else none

theorem probeGrid_eq_some {ses : Session} {pattern : Period → Option Bool}
    {c : (probeInput py k t).problem.Cls} {slot : Slot} {ai : (probeInput py k t).problem.Asg} :
    probeGrid py k t ses pattern c slot = some ai ↔ sessionOfSlot slot = ses ∧
      (pattern (periodOfSlot slot)).map (probeAsg py k t) = some ai ∧
      (probeInput py k t).problem.aClass ai = c := by
  unfold probeGrid
  by_cases hses : sessionOfSlot slot = ses
  · rw [if_pos hses, Option.filter_eq_some_iff, decide_eq_true_eq]
    simp [hses]
  · rw [if_neg hses]
    simp [hses]

theorem probe_loadable (ses : Session) (pattern : Period → Option Bool) :
    (probeInput py k t).problem.Loadable (probeGrid py k t ses pattern) := by
  constructor
  · intro c slot ai h
    exact ⟨(probeGrid_eq_some.mp h).2.2, rfl⟩
  · intro c d slot t' hc hd
    have hof : ∀ e, t' ∈ (probeInput py k t).problem.members (probeGrid py k t ses pattern e slot) →
        ∃ ai, probeGrid py k t ses pattern e slot = some ai := by
      intro e he
      cases hcell : probeGrid py k t ses pattern e slot with
      | none =>
        rw [hcell] at he
        cases he
      | some ai => exact ⟨ai, rfl⟩
    obtain ⟨ai, hai⟩ := hof c hc
    obtain ⟨bi, hbi⟩ := hof d hd
    obtain ⟨_, h1, hca⟩ := probeGrid_eq_some.mp hai
    obtain ⟨_, h2, hdb⟩ := probeGrid_eq_some.mp hbi
    rw [h1] at h2
    cases h2
    exact hca.symm.trans hdb

theorem ascii_singleton {s : String} {c : Char} (hs : s.toList = [c]) (h : c.toNat < 128) :
    Ascii s := by
  intro c' hc
  rw [hs, List.mem_singleton] at hc
  rwa [hc]

theorem probe_placeText (b : Bool) : (probeData t).placeText py
    ((probeInput py k t).asg (probeAsg py k t b)) = if b then "b" else "a" := by
  have hfold : ∀ s ∈ (["a", "b"] : List String), normLocation py s = s := by
    intro s hs
    have hascii : Ascii s ∧ collapse s = s ∧ Text.toAsciiLowercase s = s := by
      simp only [List.mem_cons, List.not_mem_nil, or_false] at hs
      rcases hs with rfl | rfl
      · have hlist : "a".toList = ['a'] := by decide
        exact ⟨ascii_singleton hlist (by decide), by decide +kernel, by decide +kernel⟩
      · have hlist : "b".toList = ['b'] := by decide
        exact ⟨ascii_singleton hlist (by decide), by decide +kernel, by decide +kernel⟩
    rw [normLocation, py.nfc_ascii s hascii.1, hascii.2.1, py.casefold_ascii s hascii.1, hascii.2.2]
  have hempty : strip "" = "" := by decide +kernel
  cases b with
  | false =>
    have hplace : strip ((probeData t).classLocation "a") = "a" := by
      have hclass : (probeData t).classLocation "a" = "a" := rfl
      rw [hclass]
      decide +kernel
    have hunfold : (probeData t).placeText py ((probeInput py k t).asg (probeAsg py k t false)) =
        normLocation py (if strip "" ≠ "" then strip "" else
          strip ((probeData t).classLocation "a")) := rfl
    rw [hunfold, if_neg (not_not.mpr hempty), hplace]
    exact hfold "a" (by simp)
  | true =>
    have hplace : strip ((probeData t).classLocation "b") = "b" := by
      have hclass : (probeData t).classLocation "b" = "b" := rfl
      rw [hclass]
      decide +kernel
    have hunfold : (probeData t).placeText py ((probeInput py k t).asg (probeAsg py k t true)) =
        normLocation py (if strip "" ≠ "" then strip "" else
          strip ((probeData t).classLocation "b")) := rfl
    rw [hunfold, if_neg (not_not.mpr hempty), hplace]
    exact hfold "b" (by simp)

theorem probe_teacher (ht : teacherMembers py t = [t]) (b : Bool)
    (u : (probeInput py k t).problem.Tch) :
    u ∈ (probeInput py k t).problem.aTeachers (probeAsg py k t b) ↔
      (probeInput py k t).problem.teacherName u = t := by
  have hlabel : ((probeInput py k t).asg (probeAsg py k t b)).teacher = t := by
    cases b with
    | false => rfl
    | true => rfl
  rw [(probeInput py k t).mem_teachersOf, hlabel, ht, List.mem_singleton]

/-- The state of a probe holds its pattern in one session and nothing elsewhere. -/
theorem probe_row (ht : teacherMembers py t = [t]) {ses : Session} {pattern : Period → Option Bool}
    {s : State (probeInput py k t).problem} (hs : s.toCells.Sound)
    (hgrid : s.grid = probeGrid py k t ses pattern) (u : (probeInput py k t).problem.Tch)
    (slot : Slot) : s.teacherSlot u slot =
      if (probeInput py k t).problem.teacherName u = t ∧ sessionOfSlot slot = ses
      then (pattern (periodOfSlot slot)).map (probeAsg py k t) else none := by
  apply Option.ext
  intro ai
  rw [hs.owner, hgrid, probeGrid_eq_some]
  constructor
  · rintro ⟨⟨hses, hpat, _⟩, hu⟩
    obtain ⟨b, _, rfl⟩ := Option.map_eq_some_iff.mp hpat
    rw [if_pos ⟨(probe_teacher ht b u).mp hu, hses⟩]
    exact hpat
  · intro h
    by_cases hin : (probeInput py k t).problem.teacherName u = t ∧ sessionOfSlot slot = ses
    · rw [if_pos hin] at h
      obtain ⟨b, _, rfl⟩ := Option.map_eq_some_iff.mp h
      exact ⟨⟨hin.2, h, rfl⟩, (probe_teacher ht b u).mpr hin.1⟩
    · rw [if_neg hin] at h
      cases h

/-- The places of a pattern. -/
def probePlaces (pattern : Period → Option Bool) : List (Nat × String) :=
  allPeriods.filterMap fun p => (pattern p).map fun b => (p.val + 1, if b then "b" else "a")

theorem probe_places (ht : teacherMembers py t = [t]) {ses : Session}
    {pattern : Period → Option Bool} {s : State (probeInput py k t).problem} (hs : s.toCells.Sound)
    (hgrid : s.grid = probeGrid py k t ses pattern) (u : (probeInput py k t).problem.Tch)
    (ses' : Session) : (probeInput py k t).validatorPlaces s u ses' =
      if (probeInput py k t).problem.teacherName u = t ∧ ses' = ses then probePlaces pattern
      else [] := by
  rw [(probeInput py k t).validatorPlaces_eq hs]
  simp only [probe_row ht hs hgrid, sessionOfSlot_slotAt, periodOfSlot_slotAt]
  by_cases hin : (probeInput py k t).problem.teacherName u = t ∧ ses' = ses
  · simp only [if_pos hin]
    apply List.filterMap_congr
    intro p _
    cases pattern p with
    | none => rfl
    | some b =>
      have htext := @probe_placeText py k t b
      have hne : (if b then "b" else "a") ≠ "" := by
        cases b <;> decide
      rw [Option.map_some, Option.bind_some, Option.map_some, Input.placeEntry]
      rw [← htext] at hne ⊢
      exact if_pos hne
  · simp only [if_neg hin, Option.bind_none]
    exact List.filterMap_none _

theorem probePlaces_probes : ∀ l ∈ probes, ∃ pattern, probePlaces pattern = l := by
  intro l hl
  simp only [probes, List.mem_cons, List.not_mem_nil, or_false] at hl
  rcases hl with rfl | rfl | rfl | rfl | rfl
  · exact ⟨![some false, none, some true, none, none], by decide⟩
  · exact ⟨![some false, none, some true, none, some false], by decide⟩
  · exact ⟨![some false, some true, none, none, none], by decide⟩
  · exact ⟨![none, some false, some true, none, none], by decide⟩
  · exact ⟨![none, none, some false, some true, none], by decide⟩

/-- The probe timetable, loaded. -/
def probeState (py : Python) (k : Constraints) (t : String) (ses : Session)
    (pattern : Period → Option Bool) : State (probeInput py k t).problem :=
  (State.load (probeInput py k t).problem false (probeGrid py k t ses pattern)).1

theorem probeState_consistent (py : Python) (k : Constraints) (t : String) (ses : Session)
    (pattern : Period → Option Bool) : Consistent (probeState py k t ses pattern) :=
  State.load_consistent _ false _

theorem probeState_grid (py : Python) (k : Constraints) (t : String) (ses : Session)
    (pattern : Period → Option Bool) :
    (probeState py k t ses pattern).grid = probeGrid py k t ses pattern := by
  obtain ⟨s, hload, hgrid⟩ := State.load_eq _ false (@probe_loadable py k t ses pattern)
  rw [probeState, hload]
  exact hgrid

/-- Agreement on a probe forces a common verdict on its places. -/
theorem probe_alike {e : String × Json} (he : e ∈ k.teacher) (hm : isMapping e.2 = true)
    (ht : teacherMembers py e.1 = [e.1]) (ses : Session) (pattern : Period → Option Bool)
    (hagree : DebtsAgree (probeInput py k e.1) (probeState py k e.1 ses pattern))
    (hne : probePlaces pattern ≠ []) :
    ∃ f, validatorFlags py e.2 ((dayOf ses).val + 2) (partName (partOf ses)) = some f ∧
      placesBroken (engineFlags py e.2 ses) (probePlaces pattern) =
        placesBroken f (probePlaces pattern) := by
  obtain ⟨t, raw⟩ := e
  have hs := (probeState_consistent py k t ses pattern).sound
  have hgrid := probeState_grid py k t ses pattern
  generalize probeState py k t ses pattern = s at hs hgrid hagree
  have hk : (probeInput py k t).constraints = some k := rfl
  have ha : k.active = true := by
    rw [Constraints.active, Bool.or_eq_true]
    left
    cases hteach : k.teacher with
    | nil =>
      rw [hteach] at he
      cases he
    | cons _ _ => rfl
  obtain ⟨u, _, hu⟩ := @Input.exists_teacher py (probeInput py k t) (probeAsg py k t false) t (by
      have hlabel : ((probeInput py k t).asg (probeAsg py k t false)).teacher = t := rfl
      rw [hlabel, ht]
      exact List.mem_singleton_self t)
  have hplaces := probe_places ht hs hgrid
  have hhere : (probeInput py k t).validatorPlaces s u ses = probePlaces pattern := by
    rw [hplaces, if_pos ⟨hu, rfl⟩]
  -- only this teacher and this session can be counted
  have honly : ∀ {f : PlaceFlags} {u' ses'},
      placesBroken f ((probeInput py k t).validatorPlaces s u' ses') = true → u' = u ∧ ses' = ses := by
    intro f u' ses' hb
    rw [hplaces] at hb
    by_cases hin : (probeInput py k t).problem.teacherName u' = t ∧ ses' = ses
    · refine ⟨?_, hin.2⟩
      exact List.nodup_iff_injective_get.mp ((probeData t).nodup_teacherNames [])
        (hin.1.trans hu.symm)
    · rw [if_neg hin] at hb
      cases hb
  have hraw : ∀ {raw'}, ((probeInput py k t).problem.teacherName u, raw') ∈ k.teacher → raw' = raw := by
    intro raw' hraw'
    rw [hu] at hraw'
    have h1 := (lookup_eq_some_iff k.nodup).mpr hraw'
    rw [(lookup_eq_some_iff k.nodup).mpr he] at h1
    exact (Option.some.inj h1).symm
  -- the validator returns, so it reads every flag it meets
  unfold DebtsAgree at hagree
  obtain ⟨n, hn, hcount⟩ := Option.map_eq_some_iff.mp hagree
  have hn : teacherLocationRuleDebt py (probeData t) (some k)
      ((probeInput py k t).lessons s.grid) = some n := hn
  rw [teacherLocationRuleDebt, Option.elim_some] at hn
  obtain ⟨sessions, hsessions, hlen⟩ := Option.map_eq_some_iff.mp hn
  have hr : (probeInput py k t).Reads k s := by
    have hsome : (locationDebtSessions py (probeInput py k t).data k
        ((probeInput py k t).lessons s.grid)).isSome = true := by
      have heq : locationDebtSessions py (probeInput py k t).data k
        ((probeInput py k t).lessons s.grid) = some sessions := hsessions
      rw [heq]
      rfl
    rw [(probeInput py k t).debtSessions_eq s ha, Option.isSome_map] at hsome
    exact isSome_of_keepM hsome
  have hvisit : (raw, (probeInput py k t).sessionName u ses) ∈
      visits py k ((probeInput py k t).lessons s.grid) := by
    refine mem_visits.mpr ⟨?_, hm, (probeInput py k t).mem_sessionKeys (hhere ▸ hne)⟩
    have hname : ((probeInput py k t).sessionName u ses).1 = t := hu
    rwa [hname]
  obtain ⟨f, hf⟩ := Option.isSome_iff_exists.mp (Option.isSome_map ▸ hr _ hvisit)
  have hf : validatorFlags py raw ((dayOf ses).val + 2) (partName (partOf ses)) = some f := hf
  refine ⟨f, hf, ?_⟩
  obtain ⟨sessions', hsessions', hmem⟩ := (probeInput py k t).debtSessions_spec s ha hr
  have hsame : sessions' = sessions := Option.some.inj (hsessions'.symm.trans hsessions)
  rw [hsame] at hmem
  rw [Bool.eq_iff_iff]
  have hcounted : ∀ key, key ∈ sessions ↔
      key = (probeInput py k t).sessionName u ses ∧ placesBroken f (probePlaces pattern) = true := by
    intro key
    rw [hmem]
    constructor
    · rintro ⟨u', ses', rfl, raw', f', hraw', hm', hf', hb⟩
      obtain ⟨rfl, rfl⟩ := honly hb
      obtain rfl := hraw hraw'
      obtain rfl := Option.some.inj (hf.symm.trans hf')
      exact ⟨rfl, hhere ▸ hb⟩
    · rintro ⟨rfl, hb⟩
      exact ⟨u, ses, rfl, raw, f, hu.symm ▸ he, hm, hf, hhere.symm ▸ hb⟩
  have hjudged : ∀ e, (probeInput py k t).judged s e = true ↔
      e = (u, ses) ∧ placesBroken (engineFlags py raw ses) (probePlaces pattern) = true := by
    rintro ⟨u', ses'⟩
    rw [(probeInput py k t).judged_iff hs]
    constructor
    · rintro ⟨raw', hraw', hm', hb⟩
      obtain ⟨rfl, rfl⟩ := honly hb
      obtain rfl := hraw (((probeInput py k t).rawRule_eq_some_iff hk).mp hraw')
      exact ⟨rfl, hhere ▸ hb⟩
    · rintro ⟨heq, hb⟩
      cases heq
      exact ⟨raw, ((probeInput py k t).rawRule_eq_some_iff hk).mpr (hu.symm ▸ he), hm,
        hhere.symm ▸ hb⟩
  rw [(probeInput py k t).locationRuleDebtSessions_eq s] at hcount
  constructor
  · intro hb
    have hin : (u, ses) ∈ ((probeInput py k t).problem.allTeachers.product allSessions).filter
        ((probeInput py k t).judged s) := by
      refine List.mem_filter.mpr ⟨List.mem_product.mpr ⟨List.mem_finRange u, List.mem_finRange ses⟩, ?_⟩
      exact (hjudged _).mpr ⟨rfl, hb⟩
    have hpos := List.length_pos_of_mem hin
    obtain ⟨key, hkey⟩ := List.exists_mem_of_length_pos (l := sessions.dedup) (by omega)
    exact ((hcounted key).mp (List.mem_dedup.mp hkey)).2
  · intro hb
    have hin := List.mem_dedup.mpr ((hcounted _).mpr ⟨rfl, hb⟩)
    have hpos := List.length_pos_of_mem hin
    obtain ⟨e, he⟩ := List.exists_mem_of_length_pos (l := ((probeInput py k
      t).problem.allTeachers.product allSessions).filter ((probeInput py k t).judged s)) (by omega)
    exact ((hjudged e).mp (List.mem_filter.mp he).2).2

end Probe

/-- For a table of rules both sides count the same sessions in every school and every state of the
schedule exactly when they read its place flags alike. -/
theorem location_debt_agrees_iff (py : Python) (constraints : Option Constraints) :
    (∀ x : Input py, x.constraints = constraints → ∀ s : State x.problem, Consistent s →
      DebtsAgree x s) ↔ ReadAlike py constraints := by
  constructor
  · rintro h k rfl e he hm ht ses
    have halike := fun pattern => probe_alike he hm ht ses pattern
      (h (probeInput py k e.1) rfl _ (probeState_consistent py k e.1 ses pattern))
    have hprobe : ∀ l ∈ probes, ∃ f,
        validatorFlags py e.2 ((dayOf ses).val + 2) (partName (partOf ses)) = some f ∧
          placesBroken (engineFlags py e.2 ses) l = placesBroken f l := by
      intro l hl
      obtain ⟨pattern, rfl⟩ := probePlaces_probes l hl
      apply halike
      rintro hnil
      rw [hnil] at hl
      revert hl
      decide
    obtain ⟨f, hf, _⟩ := hprobe [(1, "a"), (3, "b")] (by decide)
    refine ⟨f, hf, sameVerdict_of_probes fun l hl => ?_⟩
    obtain ⟨g, hg, heq⟩ := hprobe l hl
    rw [hf] at hg
    cases hg
    exact heq
  · rintro h x rfl s hs
    exact debtsAgree_of_readAlike x h hs.sound

/-- Tables for texts of ASCII characters. -/
def asciiTables : Python where
  nfc := id
  casefold := Text.toAsciiLowercase
  floatIsOne := fun text => decide (text = "1.0")
  nfc_ascii := fun _ _ => rfl
  casefold_ascii := fun _ _ => rfl
  nfc_blanks := fun a m b ha hb => ⟨a, b, by simp, ha, hb⟩

/-- One place a session on Monday mornings, entered as `On`. -/
def capitalFlag : Constraints where
  teacher := [("GV1", .obj [("oneLocationPerSession", .obj [("sang", .obj [("thu2", .str "On")])])])]
  nodup := List.nodup_singleton _
  otherActive := false

/-- Two lessons at two places: the engine counts the session, the validator does not. -/
theorem capitalFlag_disagrees : ¬ DebtsAgree (probeInput asciiTables capitalFlag "GV1")
    (probeState asciiTables capitalFlag "GV1" 0 ![some false, none, some true, none, none]) := by
  intro hagree
  have hmember : teacherMembers asciiTables "GV1" = ["GV1"] := by decide +kernel
  obtain ⟨f, hf, heq⟩ := probe_alike (e := ("GV1", _)) List.mem_cons_self rfl hmember 0 _ hagree
    (by decide +kernel)
  have hoff : validatorFlags asciiTables (.obj [("oneLocationPerSession",
      .obj [("sang", .obj [("thu2", .str "On")])])]) ((dayOf 0).val + 2) (partName (partOf 0)) =
      some ⟨false, false, false, false, false⟩ := by decide +kernel
  have hon : engineFlags asciiTables (.obj [("oneLocationPerSession",
      .obj [("sang", .obj [("thu2", .str "On")])])]) 0 = ⟨true, false, false, false, false⟩ := by
    decide +kernel
  obtain rfl := Option.some.inj (hoff.symm.trans hf)
  have hon' : placesBroken ⟨true, false, false, false, false⟩
      (probePlaces ![some false, none, some true, none, none]) =
      placesBroken ⟨false, false, false, false, false⟩
        (probePlaces ![some false, none, some true, none, none]) := hon ▸ heq
  revert hon'
  decide +kernel

end TkbCherry.Engine
