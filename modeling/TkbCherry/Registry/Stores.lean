import TkbCherry.Registry.Accounts

/-!
# Timetable stores

`can_access_school_store` and `registry_school_for_store`. Store ids and the ids of the registry
are compared by their letters and digits in lower case; a short id also stands for every store
id that starts with it.
-/

namespace TkbCherry.Registry

set_option autoImplicit false

open Text

/-- `sanitize_store_id`, which is `canonical_store_identity` as well. -/
def sanitizeStoreId (raw : String) : String :=
  String.ofList ((raw.toList.filter isAsciiAlphanumeric).map Char.toLower)

/-- The sanitized short id of a school, unless it is empty. -/
def shortIdOf (school : Json) : Option String :=
  ((strAt school "shortId").map sanitizeStoreId).filter fun short => decide (short ≠ "")

/-- The sanitized ids of the schedules. -/
def scheduleIdsOf (school : Json) : List String :=
  (((school.get? "schedules").bind Json.asArray).getD []).filterMap fun item =>
    (strAt item "sid").map sanitizeStoreId

def canAccessSchoolStore (session : Json) (storeId : String) (reg : Json) : Bool :=
  if (strAt session "role").getD "" = "superadmin" then true
  else
    let userSchool := (strAt session "schoolId").getD ""
    if userSchool = "" then false
    else
      let target := sanitizeStoreId storeId
      if target = "" then false
      else if sanitizeStoreId userSchool = target then true
      else
        match (objectAt reg "schools").bind (List.lookup userSchool) with
        | none => false
        | some school =>
          (shortIdOf school).any (startsWith · target) ||
            (scheduleIdsOf school).any (fun sid => decide (sid = target)) ||
            decide (sanitizeStoreId userSchool = target)

def registrySchoolById (registry : Json) (schoolId : String) : Option Json :=
  if trim schoolId = "" then none
  else (((objectAt registry "schools").getD []).find? fun e =>
    eqIgnoreAsciiCase e.1 (trim schoolId) ||
      eqIgnoreAsciiCase ((strAt e.2 "id").getD "") (trim schoolId)).map Prod.snd

/-- The school has the sanitized id, as its key, its recorded id or one of its schedules. -/
def namedExactly (target : String) (e : String × Json) : Bool :=
  decide (sanitizeStoreId e.1 = target) ||
    decide (sanitizeStoreId ((strAt e.2 "id").getD "") = target) ||
    (scheduleIdsOf e.2).any fun sid => decide (sid = target)

def registrySchoolForStore (registry session : Json) (storeId : String) : Option Json :=
  if toAsciiLowercase (trimmedAt session "role") ≠ "superadmin" then
    (strAt session "schoolId").bind (registrySchoolById registry)
  else
    let target := sanitizeStoreId storeId
    if target = "" then none
    else
      let schools := (objectAt registry "schools").getD []
      match schools.find? (namedExactly target) with
      | some e => some e.2
      | none => (schools.find? fun e => (shortIdOf e.2).any (startsWith · target)).map Prod.snd

/-- For the super administrator an exact id comes before every short id. -/
theorem registrySchoolForStore_exact {registry session : Json} {storeId : String}
    (hrole : toAsciiLowercase (trimmedAt session "role") = "superadmin")
    (htarget : sanitizeStoreId storeId ≠ "")
    (h : ∃ e ∈ (objectAt registry "schools").getD [], namedExactly (sanitizeStoreId storeId) e = true) :
    ∃ e ∈ (objectAt registry "schools").getD [],
      registrySchoolForStore registry session storeId = some e.2 ∧
        namedExactly (sanitizeStoreId storeId) e = true := by
  obtain ⟨e, he, hnamed⟩ := h
  unfold registrySchoolForStore
  rw [if_neg (not_not.mpr hrole)]
  dsimp only
  rw [if_neg htarget]
  cases hfind : List.find? (namedExactly (sanitizeStoreId storeId))
      ((objectAt registry "schools").getD []) with
  | some first => exact ⟨first, List.mem_of_find?_eq_some hfind, rfl, List.find?_some hfind⟩
  | none => exact absurd hnamed (List.find?_eq_none.mp hfind e he)

/-! ### The store ids of a school -/

/-- The store ids that name the school exactly. -/
def exactIds (reg : Json) (schoolId : String) : List String :=
  if schoolId = "" then []
  else (sanitizeStoreId schoolId ::
    (((objectAt reg "schools").bind (List.lookup schoolId)).map scheduleIdsOf).getD []).filter
      fun id => decide (id ≠ "")

/-- The start of every other store id of the school. -/
def shortIdAt (reg : Json) (schoolId : String) : Option String :=
  if schoolId = "" then none
  else ((objectAt reg "schools").bind (List.lookup schoolId)).bind shortIdOf

/-- No id of one school is an id of the other, and no short id starts an id of the other. -/
structure StoresApart (reg : Json) (school other : String) : Prop where
  exact : ∀ id ∈ exactIds reg school, id ∉ exactIds reg other
  short : ∀ start, shortIdAt reg school = some start → ∀ id ∈ exactIds reg other,
    startsWith start id = false
  shortOther : ∀ start, shortIdAt reg other = some start → ∀ id ∈ exactIds reg school,
    startsWith start id = false
  shorts : ∀ start start', shortIdAt reg school = some start → shortIdAt reg other = some start' →
    startsWith start start' = false ∧ startsWith start' start = false

section Ids
variable {reg session : Json} {schoolId storeId id : String}

theorem alphanumeric_toLower {c : Char} (h : isAsciiAlphanumeric c = true) :
    isAsciiAlphanumeric c.toLower = true := by
  unfold isAsciiAlphanumeric Char.isAlphanum at h ⊢
  rcases Bool.or_eq_true_iff.mp h with halpha | hdigit
  · rw [Char.isAlpha_toLower_eq_isAlpha, halpha, Bool.true_or]
  · by_cases hupper : c.isUpper = true
    · rw [Char.isAlpha_toLower_eq_isAlpha, Char.isAlpha, hupper, Bool.true_or, Bool.true_or]
    · rw [Char.toLower_eq_of_not_isUpper hupper]
      exact h

/-- A sanitized id is its own sanitized form. -/
theorem sanitizeStoreId_sanitizeStoreId (raw : String) :
    sanitizeStoreId (sanitizeStoreId raw) = sanitizeStoreId raw := by
  unfold sanitizeStoreId
  rw [String.toList_ofList, List.filter_eq_self.mpr, List.map_map]
  · exact congrArg String.ofList (List.map_congr_left fun c _ => Char.toLower_toLower_eq_toLower c)
  · intro c hc
    obtain ⟨d, hd, rfl⟩ := List.mem_map.mp hc
    exact alphanumeric_toLower (List.mem_filter.mp hd).2

theorem exactIds_sanitized (h : id ∈ exactIds reg schoolId) : sanitizeStoreId id = id := by
  unfold exactIds at h
  split at h
  · exact absurd h List.not_mem_nil
  rcases List.mem_cons.mp (List.mem_filter.mp h).1 with rfl | hin
  · exact sanitizeStoreId_sanitizeStoreId _
  · generalize (objectAt reg "schools").bind (List.lookup schoolId) = school at hin
    cases school with
    | none => exact absurd hin List.not_mem_nil
    | some school =>
      obtain ⟨item, _, hsid⟩ := List.mem_filterMap.mp hin
      obtain ⟨sid, _, rfl⟩ := Option.map_eq_some_iff.mp hsid
      exact sanitizeStoreId_sanitizeStoreId _

theorem exactIds_ne (h : id ∈ exactIds reg schoolId) : id ≠ "" := by
  unfold exactIds at h
  split at h
  · exact absurd h List.not_mem_nil
  · exact of_decide_eq_true (List.mem_filter.mp h).2

theorem shortIdAt_eq {start : String} (h : shortIdAt reg schoolId = some start) :
    sanitizeStoreId start = start ∧ start ≠ "" := by
  unfold shortIdAt at h
  split at h
  · exact absurd h (by simp)
  obtain ⟨school, _, hshort⟩ := Option.bind_eq_some_iff.mp h
  obtain ⟨hmap, hne⟩ := Option.filter_eq_some_iff.mp hshort
  obtain ⟨raw, _, rfl⟩ := Option.map_eq_some_iff.mp hmap
  exact ⟨sanitizeStoreId_sanitizeStoreId raw, of_decide_eq_true hne⟩

theorem startsWith_iff {start s : String} : startsWith start s = true ↔ start.toList <+: s.toList :=
  List.isPrefixOf_iff_prefix

theorem startsWith_self (s : String) : startsWith s s = true :=
  startsWith_iff.mpr (List.prefix_refl _)

/-- What a session that is no super administrator may access. -/
theorem canAccess_iff (hrole : (strAt session "role").getD "" ≠ "superadmin") :
    canAccessSchoolStore session storeId reg = true ↔
      sanitizeStoreId storeId ∈ exactIds reg ((strAt session "schoolId").getD "") ∨
        ∃ start, shortIdAt reg ((strAt session "schoolId").getD "") = some start ∧
          startsWith start (sanitizeStoreId storeId) = true := by
  unfold canAccessSchoolStore exactIds shortIdAt
  rw [if_neg hrole]
  dsimp only
  generalize (strAt session "schoolId").getD "" = userSchool
  by_cases hschool : userSchool = ""
  · simp [hschool]
  rw [if_neg hschool, if_neg hschool, if_neg hschool]
  generalize (objectAt reg "schools").bind (List.lookup userSchool) = school
  by_cases htarget : sanitizeStoreId storeId = ""
  · rw [if_pos htarget, htarget]
    constructor
    · intro h
      exact absurd h (by simp)
    · rintro (hexact | ⟨start, hstart, hprefix⟩)
      · exact absurd (List.mem_filter.mp hexact).2 (by simp)
      · obtain ⟨school, rfl, hshort⟩ := Option.bind_eq_some_iff.mp hstart
        have hne := of_decide_eq_true (Option.filter_eq_some_iff.mp hshort).2
        have hnil := List.prefix_nil.mp (startsWith_iff.mp hprefix)
        exact absurd (String.toList_eq_nil_iff.mp hnil) hne
  rw [if_neg htarget]
  by_cases hself : sanitizeStoreId userSchool = sanitizeStoreId storeId
  · rw [if_pos hself, hself]
    exact ⟨fun _ => Or.inl (List.mem_filter.mpr ⟨List.mem_cons_self, by simpa using htarget⟩),
      fun _ => rfl⟩
  rw [if_neg hself]
  have hne : sanitizeStoreId storeId ≠ sanitizeStoreId userSchool := fun h => hself h.symm
  cases school with
  | none => simp [hne]
  | some school =>
    simp only [Option.map_some, Option.getD_some, Option.bind_some, List.mem_filter, List.mem_cons,
      hne, hself, false_or, decide_false, Bool.or_false, Bool.or_eq_true, Option.any_eq_true,
      List.any_eq_true, decide_eq_true_eq, exists_eq_right, htarget, not_false_eq_true, and_true,
      ne_eq]
    exact or_comm

/-- Two sessions have no store in common exactly when the ids of their schools are apart. -/
theorem no_common_store_iff {other : Json}
    (hrole : (strAt session "role").getD "" ≠ "superadmin")
    (hother : (strAt other "role").getD "" ≠ "superadmin") :
    (¬ ∃ storeId, canAccessSchoolStore session storeId reg = true ∧
        canAccessSchoolStore other storeId reg = true) ↔
      StoresApart reg ((strAt session "schoolId").getD "") ((strAt other "schoolId").getD "") := by
  simp only [canAccess_iff hrole, canAccess_iff hother]
  generalize (strAt session "schoolId").getD "" = school
  generalize (strAt other "schoolId").getD "" = school'
  constructor
  · intro h
    constructor
    · intro id hid hid'
      have hsan := exactIds_sanitized hid
      exact h ⟨id, Or.inl (hsan.symm ▸ hid), Or.inl (hsan.symm ▸ hid')⟩
    · intro start hstart id hid
      by_contra hstarts
      rw [Bool.not_eq_false] at hstarts
      have hsan := exactIds_sanitized hid
      exact h ⟨id, Or.inr ⟨start, hstart, hsan.symm ▸ hstarts⟩, Or.inl (hsan.symm ▸ hid)⟩
    · intro start hstart id hid
      by_contra hstarts
      rw [Bool.not_eq_false] at hstarts
      have hsan := exactIds_sanitized hid
      exact h ⟨id, Or.inl (hsan.symm ▸ hid), Or.inr ⟨start, hstart, hsan.symm ▸ hstarts⟩⟩
    · intro start start' hstart hstart'
      obtain ⟨hsan, _⟩ := shortIdAt_eq hstart
      obtain ⟨hsan', _⟩ := shortIdAt_eq hstart'
      constructor
      · by_contra hstarts
        rw [Bool.not_eq_false] at hstarts
        exact h ⟨start', Or.inr ⟨start, hstart, hsan'.symm ▸ hstarts⟩,
          Or.inr ⟨start', hstart', hsan'.symm ▸ startsWith_self start'⟩⟩
      · by_contra hstarts
        rw [Bool.not_eq_false] at hstarts
        exact h ⟨start, Or.inr ⟨start, hstart, hsan.symm ▸ startsWith_self start⟩,
          Or.inr ⟨start', hstart', hsan.symm ▸ hstarts⟩⟩
  · rintro h ⟨storeId, hmine | ⟨start, hstart, hstarts⟩, htheirs | ⟨start', hstart', hstarts'⟩⟩
    · exact h.exact _ hmine htheirs
    · exact absurd hstarts' (by rw [h.shortOther start' hstart' _ hmine]; exact Bool.false_ne_true)
    · exact absurd hstarts (by rw [h.short start hstart _ htheirs]; exact Bool.false_ne_true)
    · obtain ⟨hmine, htheirs⟩ := h.shorts start start' hstart hstart'
      -- two starts of one id start each other
      rcases List.prefix_or_prefix_of_prefix (startsWith_iff.mp hstarts)
        (startsWith_iff.mp hstarts') with hpre | hpre
      · exact absurd (startsWith_iff.mpr hpre) (by rw [hmine]; exact Bool.false_ne_true)
      · exact absurd (startsWith_iff.mpr hpre) (by rw [htheirs]; exact Bool.false_ne_true)

end Ids

section Overlap

/-- The short id of `s1` starts the id of the other school. -/
def overlappingSchools : Json :=
  .obj [("schools", .obj [("aab", .obj [("shortId", .str "q7")]), ("s1", .obj [("shortId", .str "aa")])])]

def userOf (schoolId : String) : Json :=
  .obj [("role", .str "school_user"), ("schoolId", .str schoolId)]

theorem no_common_store_iff_overlapping :
    (¬ ∃ storeId, canAccessSchoolStore (userOf "s1") storeId overlappingSchools = true ∧
        canAccessSchoolStore (userOf "s2") storeId overlappingSchools = true) ↔
      StoresApart overlappingSchools "s1" "s2" :=
  no_common_store_iff (by decide) (by decide)

/-- Sessions of both schools may access the store `aab`, which is the second school's for the
super administrator. -/
theorem short_id_reaches_other_school :
    "s1" ≠ "aab" ∧ canAccessSchoolStore (userOf "s1") "aab" overlappingSchools = true ∧
      canAccessSchoolStore (userOf "aab") "aab" overlappingSchools = true ∧
      registrySchoolForStore overlappingSchools (.obj [("role", .str "superadmin")]) "aab" =
        some (.obj [("shortId", .str "q7")]) :=
  ⟨by decide, by decide, by decide, rfl⟩

end Overlap

end TkbCherry.Registry
