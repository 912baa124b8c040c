import TkbCherry.Registry.MergeSections

/-!
# What a second merge and a tombstone change

The merge is compared with itself: additive or not, posted once or twice, with the tombstoned
records or without them. Two merges agree when every section does.
-/

namespace TkbCherry.Registry

set_option autoImplicit false

open AssocList

/-! ### The result is a document -/

theorem unsetAll_ordered {entries : Fields} (h : Json.Ordered entries) (ids : List String) :
    Json.Ordered (ids.foldl (fun out id => AssocList.unset id out) entries) := by
  induction ids generalizing entries with
  | nil => exact h
  | cons id rest ih => exact ih (h.unset id)

theorem lookup_unsetAll (ids : List String) (entries : Fields) (id : String) :
    List.lookup id (ids.foldl (fun out id => AssocList.unset id out) entries) =
      if id ∈ ids then none else List.lookup id entries := by
  induction ids generalizing entries with
  | nil => rfl
  | cons key rest ih =>
    rw [List.foldl_cons, ih]
    by_cases hid : id = key
    · subst hid
      rw [lookup_unset_self, ite_self, if_pos List.mem_cons_self]
    · rw [lookup_unset_ne hid]
      simp only [List.mem_cons, hid, false_or]

section Ordered
variable {current next : Json} (hc : current.ordered = true) (hn : next.ordered = true)
include hc

theorem mergeUnionObject_ordered {merged : Json} (hm : merged.ordered = true) (key : String) :
    (mergeUnionObject current key merged).ordered = true :=
  onObject_ordered (fun _ hf => hf.assign key
    ((Json.ordered_obj _).mpr (unionEntries_ordered hc hm key))) merged hm

theorem mergeEntityObject_ordered {merged : Json} (hm : merged.ordered = true) (key : String)
    (deleted : List String) (additive : Bool) :
    (mergeEntityObject current key deleted additive merged).ordered = true :=
  onObject_ordered (fun _ hf => hf.assign key ((Json.ordered_obj _).mpr (unsetAll_ordered
    (overlay_ordered (fieldsAt_ordered hc key) (fieldsAt_ordered hm key) additive) _))) merged hm

theorem mergeUsersObject_ordered {merged : Json} (hm : merged.ordered = true)
    (deletedUsers deletedSchools : List String) (additive : Bool) :
    (mergeUsersObject current deletedUsers deletedSchools additive merged).ordered = true :=
  onObject_ordered (fun _ hf => hf.assign "users" ((Json.ordered_obj _).mpr
    ((overlay_ordered (fieldsAt_ordered hc "users") (fieldsAt_ordered hm "users") additive).filter
      _))) merged hm

omit hc in
theorem preserveMonotonicVerification_ordered (current : Json) {merged : Json}
    (hm : merged.ordered = true) : (preserveMonotonicVerification current merged).ordered = true :=
  Json.ordered_update (Json.ordered_update hm "users" (onObject_ordered fun _ hf =>
    keepFlag_ordered hf _ _)) "schools" (onObject_ordered fun _ hf =>
      keepFlag_ordered (keepFlag_ordered hf _ _) _ _)

omit hc in
theorem pruneDeletedSchoolIpBlocks_ordered {merged : Json} (hm : merged.ordered = true)
    (deletedSchools : List String) :
    (pruneDeletedSchoolIpBlocks deletedSchools merged).ordered = true := by
  unfold pruneDeletedSchoolIpBlocks
  split
  · exact hm
  · exact Json.ordered_update hm "blockedIps" (onObject_ordered fun _ hf => hf.filter _)

include hn

theorem mergeClassified_ordered (additive : Bool) :
    (mergeClassified additive current next).ordered = true := by
  have hroot : (if next.asObject.isSome then next else Json.obj []).ordered = true := by
    split
    · exact hn
    · rfl
  have hjoined : (joined current next).ordered = true :=
    mergeUnionObject_ordered hc (mergeUnionObject_ordered hc
      (mergeUnionObject_ordered hc hroot _) _) _
  have hrecords : (mergedRecords additive current next).ordered = true :=
    preserveMonotonicVerification_ordered current
      (mergeUsersObject_ordered hc (mergeEntityObject_ordered hc hjoined _ _ _) _ _ _)
  apply pruneDeletedSchoolIpBlocks_ordered
  cases additive with
  | true => exact mergeUnionObject_ordered hc (mergeUnionObject_ordered hc hrecords _) _
  | false => exact hrecords

/-! ### What a section holds under an id -/

theorem schoolEntries_ordered (additive : Bool) :
    Json.Ordered (schoolEntries additive current next) :=
  keepFlag_ordered (keepFlag_ordered (unsetAll_ordered (overlay_ordered
    (fieldsAt_ordered hc _) (fieldsAt_ordered hn _) additive) _) _ _) _ _

theorem lookup_schoolEntries (additive : Bool) (id : String) :
    (schoolEntries additive current next).lookup id =
      if id ∈ joinedTombstones current next "deletedSchools" then none
      else (overlaid additive ((fieldsAt current "schools").lookup id)
        ((fieldsAt next "schools").lookup id)).map
          (raiseSchool ((fieldsAt current "schools").lookup id)) := by
  have hstored := (fieldsAt_ordered hc "schools").sorted
  unfold schoolEntries
  rw [lookup_keepFlag hstored, lookup_keepFlag hstored, lookup_unsetAll,
    lookup_overlay (fieldsAt_ordered hn "schools").sorted, Option.map_map]
  split
  · rfl
  · rfl

theorem userEntries_ordered (additive : Bool) :
    Json.Ordered (userEntries additive current next) :=
  keepFlag_ordered ((overlay_ordered (fieldsAt_ordered hc _) (fieldsAt_ordered hn _)
    additive).filter _) _ _

theorem lookup_userEntries (additive : Bool) (id : String) :
    (userEntries additive current next).lookup id =
      ((overlaid additive ((fieldsAt current "users").lookup id)
        ((fieldsAt next "users").lookup id)).filter fun v =>
          keepsUser (joinedTombstones current next "deletedUsers")
            (joinedTombstones current next "deletedSchools") (id, v)).map
        (raise "emailVerified" ((fieldsAt current "users").lookup id)) := by
  have hstored := (fieldsAt_ordered hc "users").sorted
  have hoverlay := overlay_ordered (fieldsAt_ordered hc "users") (fieldsAt_ordered hn "users") additive
  unfold userEntries
  rw [lookup_keepFlag hstored, hoverlay.sorted.lookup_filter,
    lookup_overlay (fieldsAt_ordered hn "users").sorted]

end Ordered

/-- Two merges that agree in every section. -/
structure SameSections (additive : Bool) (current next : Json) (additive' : Bool)
    (current' next' : Json) : Prop where
  union : ∀ key ∈ ["deletedSchools", "deletedUsers", "registeredIps"],
    unionEntries current next key = unionEntries current' next' key
  schools : schoolEntries additive current next = schoolEntries additive' current' next'
  users : userEntries additive current next = userEntries additive' current' next'
  otpPending : joinedIf additive current next "otpPending" = joinedIf additive' current' next' "otpPending"
  blockedIps :
    (joinedIf additive current next "blockedIps").map (onObject (List.filter
      (keepsBlock (joinedTombstones current next "deletedSchools")))) =
    (joinedIf additive' current' next' "blockedIps").map (onObject (List.filter
      (keepsBlock (joinedTombstones current' next' "deletedSchools"))))
  other : ∀ key, key ∉ ["deletedSchools", "deletedUsers", "registeredIps", "schools", "users",
    "otpPending", "blockedIps"] → next.get? key = next'.get? key

theorem mergedSection_other (additive : Bool) (current next : Json) {key : String}
    (h : key ∉ ["deletedSchools", "deletedUsers", "registeredIps", "schools", "users",
      "otpPending", "blockedIps"]) : mergedSection additive current next key = next.get? key := by
  simp only [List.mem_cons, List.not_mem_nil, or_false, not_or] at h
  unfold mergedSection
  simp only [List.mem_cons, List.not_mem_nil, h, or_self, if_false]

theorem mergeClassified_eq_iff {current next current' next' : Json} (hc : current.ordered = true)
    (hn : next.ordered = true) (hc' : current'.ordered = true) (hn' : next'.ordered = true)
    (additive additive' : Bool) :
    mergeClassified additive current next = mergeClassified additive' current' next' ↔
      SameSections additive current next additive' current' next' := by
  constructor
  · intro h
    have hkey : ∀ key, mergedSection additive current next key =
        mergedSection additive' current' next' key := by
      intro key
      rw [← get?_mergeClassified, ← get?_mergeClassified, h]
    refine ⟨?_, ?_, ?_, hkey "otpPending", hkey "blockedIps", ?_⟩
    · intro key hmem
      have hunion := hkey key
      unfold mergedSection at hunion
      rw [if_pos hmem, if_pos hmem] at hunion
      exact Json.obj.inj (Option.some.inj hunion)
    · exact Json.obj.inj (Option.some.inj (hkey "schools"))
    · exact Json.obj.inj (Option.some.inj (hkey "users"))
    · intro key hmem
      rw [← mergedSection_other additive current next hmem,
        ← mergedSection_other additive' current' next' hmem]
      exact hkey key
  · intro h
    apply Json.ordered_ext (mergeClassified_ordered hc hn additive)
      (mergeClassified_ordered hc' hn' additive') (mergeClassified_isSome _ _ _)
      (mergeClassified_isSome _ _ _)
    intro key
    rw [get?_mergeClassified, get?_mergeClassified]
    by_cases hmem : key ∈ ["deletedSchools", "deletedUsers", "registeredIps", "schools", "users",
      "otpPending", "blockedIps"]
    · simp only [List.mem_cons, List.not_mem_nil, or_false] at hmem
      rcases hmem with rfl | rfl | rfl | rfl | rfl | rfl | rfl
      · exact congrArg (some ∘ Json.obj) (h.union _ (by decide))
      · exact congrArg (some ∘ Json.obj) (h.union _ (by decide))
      · exact congrArg (some ∘ Json.obj) (h.union _ (by decide))
      · exact congrArg (some ∘ Json.obj) h.schools
      · exact congrArg (some ∘ Json.obj) h.users
      · exact h.otpPending
      · exact h.blockedIps
    · rw [mergedSection_other _ _ _ hmem, mergedSection_other _ _ _ hmem, h.other key hmem]

/-! ### One record -/

section Records
variable {u v w : Json} {stored posted : Option Json}

theorem keepsUser_raise (deletedUsers deletedSchools : List String) (id : String)
    (stored : Option Json) (v : Json) :
    keepsUser deletedUsers deletedSchools (id, raise "emailVerified" stored v) =
      keepsUser deletedUsers deletedSchools (id, v) := by
  unfold keepsUser strAt
  rw [get?_raise_ne (by decide)]

/-- Whether an additive post keeps the record a plain one would write. -/
theorem school_agrees_iff (hs : ∀ u, stored = some u → u.ordered = true) :
    (overlaid true stored posted).map (raiseSchool stored) =
        (overlaid false stored posted).map (raiseSchool stored) ↔
      ∀ u v, stored = some u → posted = some v → raiseSchool (some u) v = u := by
  cases stored with
  | none => simp [overlaid]
  | some u =>
    cases posted with
    | none => simp [overlaid]
    | some v =>
      have hself := raiseSchool_self (hs u rfl)
      constructor
      · intro h u' v' hu hv
        cases hu
        cases hv
        exact (Option.some.inj h).symm.trans hself
      · intro h
        exact congrArg some (hself.trans (h u v rfl rfl).symm)

theorem user_agrees_iff {keeps : Json → Bool} (hs : ∀ u, stored = some u → u.ordered = true)
    (hkeeps : ∀ stored v, keeps (raise "emailVerified" stored v) = keeps v) :
    ((overlaid true stored posted).filter keeps).map (raise "emailVerified" stored) =
        ((overlaid false stored posted).filter keeps).map (raise "emailVerified" stored) ↔
      ∀ u v, stored = some u → posted = some v → (keeps u = true ∨ keeps v = true) →
        raise "emailVerified" (some u) v = u := by
  cases stored with
  | none => simp [overlaid]
  | some u =>
    cases posted with
    | none => simp [overlaid]
    | some v =>
      have hself := raise_self (hs u rfl) "emailVerified"
      have hkept := hkeeps (some u) v
      have hpoint : ((overlaid true (some u) (some v)).filter keeps).map
            (raise "emailVerified" (some u)) =
          ((overlaid false (some u) (some v)).filter keeps).map (raise "emailVerified" (some u)) ↔
            ((keeps u = true ∨ keeps v = true) → raise "emailVerified" (some u) v = u) := by
        unfold overlaid
        rw [if_pos rfl, if_neg Bool.false_ne_true, Option.some_or, Option.some_or,
          Option.filter_some, Option.filter_some]
        -- a record that agrees with the stored one is kept with it
        have hsame : raise "emailVerified" (some u) v = u → keeps u = keeps v := by
          intro h
          rw [← hkept, h]
        cases hu : keeps u with
        | true =>
          cases hv : keeps v with
          | true =>
            rw [if_pos rfl, if_pos rfl, Option.map_some, Option.map_some, hself]
            exact ⟨fun h _ => (Option.some.inj h).symm, fun h => congrArg some (h (Or.inl rfl)).symm⟩
          | false =>
            rw [if_pos rfl, if_neg Bool.false_ne_true]
            refine ⟨fun h => absurd h (by simp), fun h => ?_⟩
            exact absurd (hsame (h (Or.inl rfl))) (by simp [hu, hv])
        | false =>
          cases hv : keeps v with
          | true =>
            rw [if_neg Bool.false_ne_true, if_pos rfl]
            refine ⟨fun h => absurd h (by simp), fun h => ?_⟩
            exact absurd (hsame (h (Or.inr rfl))) (by simp [hu, hv])
          | false => simp
      rw [hpoint]
      constructor
      · intro h u' v' hu hv
        cases hu
        cases hv
        exact h
      · intro h
        exact h u v rfl rfl

end Records

/-! ### When the classification does not matter -/

/-- The posted copies agree with what the store has: writing them or keeping the stored ones is
the same. -/
structure PostAgrees (current next : Json) : Prop where
  schools : ∀ id u v, id ∉ joinedTombstones current next "deletedSchools" →
    (fieldsAt current "schools").lookup id = some u →
    (fieldsAt next "schools").lookup id = some v → raiseSchool (some u) v = u
  users : ∀ id u v, (fieldsAt current "users").lookup id = some u →
    (fieldsAt next "users").lookup id = some v →
    (keepsUser (joinedTombstones current next "deletedUsers")
        (joinedTombstones current next "deletedSchools") (id, u) = true ∨
      keepsUser (joinedTombstones current next "deletedUsers")
        (joinedTombstones current next "deletedSchools") (id, v) = true) →
    raise "emailVerified" (some u) v = u
  otpPending : (objectAt next "otpPending").isSome = true ∧
    ∀ id ∈ objectKeySet current "otpPending", id ∈ objectKeySet next "otpPending"
  blockedIps : (objectAt next "blockedIps").isSome = true ∧
    ∀ e ∈ fieldsAt current "blockedIps",
      keepsBlock (joinedTombstones current next "deletedSchools") e = true →
      e.1 ∈ objectKeySet next "blockedIps"

section Classified
variable {current next : Json} (hc : current.ordered = true) (hn : next.ordered = true)
include hc hn

theorem schoolEntries_agree_iff :
    schoolEntries true current next = schoolEntries false current next ↔
      ∀ id u v, id ∉ joinedTombstones current next "deletedSchools" →
        (fieldsAt current "schools").lookup id = some u →
        (fieldsAt next "schools").lookup id = some v → raiseSchool (some u) v = u := by
  have hstored : ∀ id u, (fieldsAt current "schools").lookup id = some u → u.ordered = true :=
    fun id u hu => (fieldsAt_ordered hc "schools").lookup hu
  constructor
  · intro h id u v hid
    have hlookup := congrArg (List.lookup id) h
    rw [lookup_schoolEntries hc hn, lookup_schoolEntries hc hn, if_neg hid, if_neg hid] at hlookup
    exact (school_agrees_iff (hstored id)).mp hlookup u v
  · intro h
    apply (schoolEntries_ordered hc hn true).sorted.ext (schoolEntries_ordered hc hn false).sorted
    intro id
    rw [lookup_schoolEntries hc hn, lookup_schoolEntries hc hn]
    split
    · rfl
    · rename_i hid
      exact (school_agrees_iff (hstored id)).mpr fun u v => h id u v hid

theorem userEntries_agree_iff :
    userEntries true current next = userEntries false current next ↔
      ∀ id u v, (fieldsAt current "users").lookup id = some u →
        (fieldsAt next "users").lookup id = some v →
        (keepsUser (joinedTombstones current next "deletedUsers")
            (joinedTombstones current next "deletedSchools") (id, u) = true ∨
          keepsUser (joinedTombstones current next "deletedUsers")
            (joinedTombstones current next "deletedSchools") (id, v) = true) →
        raise "emailVerified" (some u) v = u := by
  have hstored : ∀ id u, (fieldsAt current "users").lookup id = some u → u.ordered = true :=
    fun id u hu => (fieldsAt_ordered hc "users").lookup hu
  constructor
  · intro h id
    have hlookup := congrArg (List.lookup id) h
    rw [lookup_userEntries hc hn, lookup_userEntries hc hn] at hlookup
    exact (user_agrees_iff (hstored id) (keepsUser_raise _ _ id)).mp hlookup
  · intro h
    apply (userEntries_ordered hc hn true).sorted.ext (userEntries_ordered hc hn false).sorted
    intro id
    rw [lookup_userEntries hc hn, lookup_userEntries hc hn]
    exact (user_agrees_iff (hstored id) (keepsUser_raise _ _ id)).mpr (h id)

omit hc hn in
theorem posted_object {key : String} (h : (objectAt next key).isSome = true) :
    next.get? key = some (.obj (fieldsAt next key)) := by
  unfold fieldsAt
  obtain ⟨fields, hfields⟩ := Option.isSome_iff_exists.mp h
  rw [hfields]
  obtain ⟨v, hv, hobj⟩ := Option.bind_eq_some_iff.mp hfields
  cases v with
  | obj _ =>
    cases hobj
    exact hv
  | _ => simp [Json.asObject] at hobj

/-- Joining changes nothing but the entries that a filter drops. -/
theorem filter_union_iff (key : String) (p : String × Json → Bool) :
    (unionEntries current next key).filter p = (fieldsAt next key).filter p ↔
      ∀ e ∈ fieldsAt current key, p e = true → e.1 ∈ objectKeySet next key := by
  have hunion := unionEntries_ordered hc hn key
  have hnext := fieldsAt_ordered hn key
  have hcurrent := fieldsAt_ordered hc key
  have hlookup : ∀ id, List.lookup id ((unionEntries current next key).filter p) =
      (((fieldsAt next key).lookup id).or ((fieldsAt current key).lookup id)).filter
        fun v => p (id, v) := by
    intro id
    rw [hunion.sorted.lookup_filter, lookup_unionEntries hn]
  constructor
  · intro h e he hp
    have hid := hlookup e.1
    rw [h, hnext.sorted.lookup_filter, hcurrent.sorted.lookup_of_mem he] at hid
    rw [mem_objectKeySet]
    cases hposted : List.lookup e.1 (fieldsAt next key) with
    | some v => rfl
    | none =>
      rw [hposted, Option.filter_none, Option.none_or, Option.filter_some, if_pos hp] at hid
      exact absurd hid (by simp)
  · intro h
    apply (hunion.filter p).sorted.ext (hnext.filter p).sorted
    intro id
    rw [hlookup, hnext.sorted.lookup_filter]
    cases hposted : List.lookup id (fieldsAt next key) with
    | some v => rfl
    | none =>
      cases hstored : List.lookup id (fieldsAt current key) with
      | none => rfl
      | some w =>
        rw [Option.none_or, Option.filter_none, Option.filter_some]
        apply if_neg
        intro hp
        have hmem := h (id, w) (mem_of_lookup hstored) hp
        exact lookup_eq_none_iff.mp hposted hmem

/-- An additive merge and a plain one agree exactly when the copies do. -/
theorem mergeClassified_agree_iff :
    mergeClassified true current next = mergeClassified false current next ↔
      PostAgrees current next := by
  rw [mergeClassified_eq_iff hc hn hc hn]
  constructor
  · intro h
    refine ⟨(schoolEntries_agree_iff hc hn).mp h.schools, (userEntries_agree_iff hc hn).mp h.users,
      ?_, ?_⟩
    · have hotp : some (.obj (unionEntries current next "otpPending")) =
          next.get? "otpPending" := h.otpPending
      have hobj : objectAt next "otpPending" = some (unionEntries current next "otpPending") := by
        unfold objectAt
        rw [← hotp]
        rfl
      refine ⟨by rw [hobj]; rfl, ?_⟩
      intro id hid
      have hfields : fieldsAt next "otpPending" = unionEntries current next "otpPending" :=
        fieldsAt_obj hotp.symm
      rw [mem_objectKeySet] at hid ⊢
      rw [hfields, lookup_unionEntries hn, Option.isSome_or, hid, Bool.or_true]
    · have hblocked := h.blockedIps
      unfold joinedIf at hblocked
      rw [if_pos rfl, if_neg Bool.false_ne_true] at hblocked
      obtain ⟨v, hv, hvf⟩ := Option.map_eq_some_iff.mp hblocked.symm
      cases v with
      | obj fields =>
        have hobj : (objectAt next "blockedIps").isSome = true := by
          unfold objectAt
          rw [hv]
          rfl
        refine ⟨hobj, (filter_union_iff hc hn _ _).mp ?_⟩
        rw [fieldsAt_obj hv]
        exact (Json.obj.inj hvf).symm
      | _ => simp [onObject] at hvf
  · intro h
    refine ⟨fun _ _ => rfl, (schoolEntries_agree_iff hc hn).mpr h.schools,
      (userEntries_agree_iff hc hn).mpr h.users, ?_, ?_, fun _ _ => rfl⟩
    · unfold joinedIf
      rw [if_pos rfl, if_neg Bool.false_ne_true, posted_object h.otpPending.1]
      have hfilter := (filter_union_iff hc hn "otpPending" fun _ => true).mpr fun e he _ =>
        h.otpPending.2 e.1 (List.mem_map_of_mem he)
      rw [List.filter_true, List.filter_true] at hfilter
      rw [hfilter]
    · unfold joinedIf
      rw [if_pos rfl, if_neg Bool.false_ne_true, posted_object h.blockedIps.1, Option.map_some,
        Option.map_some]
      exact congrArg (some ∘ Json.obj) ((filter_union_iff hc hn _ _).mpr h.blockedIps.2)

end Classified

/-! ### When a post is additive -/

/-- The post has an id in a section that the store lacks. -/
def AddsId (current next : Json) (key : String) : Prop :=
  ∃ id ∈ objectKeySet next key, id ∉ objectKeySet current key

theorem countNewKeys_pos_iff (current next : Json) (key : String) :
    countNewKeys current next key > 0 ↔ AddsId current next key := by
  unfold countNewKeys AddsId objectKeySet
  dsimp only
  rw [gt_iff_lt, List.length_pos_iff_exists_mem]
  constructor
  · rintro ⟨e, he⟩
    obtain ⟨hmem, hnone⟩ := List.mem_filter.mp he
    exact ⟨e.1, List.mem_map_of_mem hmem, lookup_eq_none_iff.mp (Option.isNone_iff_eq_none.mp hnone)⟩
  · rintro ⟨id, hid, hnot⟩
    obtain ⟨e, he, rfl⟩ := List.mem_map.mp hid
    exact ⟨e, List.mem_filter.mpr ⟨he, Option.isNone_iff_eq_none.mpr (lookup_eq_none_iff.mpr hnot)⟩⟩

theorem additivePost_iff (current next : Json) :
    additivePost current next = true ↔
      AddsId current next "schools" ∨ AddsId current next "users" := by
  have hkeys : ∀ key, key ∉ ["deletedSchools", "deletedUsers", "registeredIps"] →
      objectKeySet (joined current next) key = objectKeySet next key :=
    fun key hkey => congrArg (List.map Prod.fst) (fieldsAt_joined current next hkey)
  unfold additivePost
  rw [Bool.or_eq_true, decide_eq_true_eq, decide_eq_true_eq, countNewKeys_pos_iff,
    countNewKeys_pos_iff]
  unfold AddsId
  rw [hkeys "schools" (by decide), hkeys "users" (by decide)]

end TkbCherry.Registry
