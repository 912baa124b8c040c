import TkbCherry.Registry.MergeLaws

/-!
# Posting the same registry again

A client that does not see the reply sends its document once more. The stored registry is then
the merged one, so the post is classified anew: it is additive again only if it contains a
record that the merge removes.
-/

namespace TkbCherry.Registry

set_option autoImplicit false

open AssocList

/-- `retain` on the accounts, with the tombstones of both sides. -/
def keepsMerged (current next : Json) (id : String) (v : Json) : Bool :=
  keepsUser (joinedTombstones current next "deletedUsers")
    (joinedTombstones current next "deletedSchools") (id, v)

/-- The account that the merge writes under an id, if it is kept. -/
def winningUser (current next : Json) (id : String) : Option Json :=
  overlaid (additivePost current next) ((fieldsAt current "users").lookup id)
    ((fieldsAt next "users").lookup id)

/-- The post contains a record that the merge removes: a tombstoned school, or an account that
is tombstoned or belongs to a tombstoned school. -/
def CarriesRemoved (current next : Json) : Prop :=
  (∃ id ∈ objectKeySet next "schools", id ∈ joinedTombstones current next "deletedSchools") ∨
    ∃ id ∈ objectKeySet next "users",
      (winningUser current next id).any (keepsMerged current next id) = false

/-- No stored account that goes with its school is posted under another school. -/
def NoUserReturns (current next : Json) : Prop :=
  ∀ id u v, (fieldsAt current "users").lookup id = some u →
    (fieldsAt next "users").lookup id = some v →
    keepsMerged current next id v = true → keepsMerged current next id u = true

/-! ### One record, twice -/

section Records
variable {stored posted : Option Json} {keeps : Json → Bool}

theorem overlaid_ordered (hs : ∀ u, stored = some u → u.ordered = true)
    (hp : ∀ v, posted = some v → v.ordered = true) {additive : Bool} {w : Json}
    (h : overlaid additive stored posted = some w) : w.ordered = true := by
  unfold overlaid at h
  split at h
  · rcases Option.or_eq_some_iff.mp h with h | ⟨_, h⟩
    · exact hs w h
    · exact hp w h
  · rcases Option.or_eq_some_iff.mp h with h | ⟨_, h⟩
    · exact hp w h
    · exact hs w h

/-- A plain post overwrites whatever the first one left. -/
theorem school_plain_again (hs : ∀ u, stored = some u → u.ordered = true)
    (hp : ∀ v, posted = some v → v.ordered = true) (additive : Bool) :
    (overlaid false ((overlaid additive stored posted).map (raiseSchool stored)) posted).map
        (raiseSchool ((overlaid additive stored posted).map (raiseSchool stored))) =
      (overlaid false stored posted).map (raiseSchool stored) := by
  cases posted with
  | none =>
    have hfirst : (overlaid additive stored none).map (raiseSchool stored) = stored := by
      cases stored with
      | none => cases additive <;> rfl
      | some u => cases additive <;> exact congrArg some (raiseSchool_self (hs u rfl))
    rw [hfirst]
  | some v =>
    have hv := hp v rfl
    apply congrArg some
    cases additive with
    | false => exact raiseSchool_raiseSchool hv stored
    | true =>
      cases stored with
      | none => exact raiseSchool_self hv
      | some u => exact congrArg (fun w => raiseSchool (some w) v) (raiseSchool_self (hs u rfl))

theorem school_additive_again (hs : ∀ u, stored = some u → u.ordered = true)
    (hp : ∀ v, posted = some v → v.ordered = true) (additive : Bool) :
    (overlaid true ((overlaid additive stored posted).map (raiseSchool stored)) posted).map
        (raiseSchool ((overlaid additive stored posted).map (raiseSchool stored))) =
      (overlaid additive stored posted).map (raiseSchool stored) := by
  cases hover : overlaid additive stored posted with
  | none =>
    have hposted : posted = none := by
      unfold overlaid at hover
      cases additive with
      | true => exact (Option.or_eq_none_iff.mp hover).2
      | false => exact (Option.or_eq_none_iff.mp hover).1
    rw [hposted]
    rfl
  | some w =>
    have hw := overlaid_ordered hs hp hover
    exact congrArg some (raiseSchool_self (raiseSchool_ordered hw stored))

theorem user_plain_again (hs : ∀ u, stored = some u → u.ordered = true)
    (hp : ∀ v, posted = some v → v.ordered = true)
    {additive : Bool}
    (hkept : additive = true → ∀ u v, stored = some u → posted = some v → keeps u = true) :
    ((overlaid false (((overlaid additive stored posted).filter keeps).map
        (raise "emailVerified" stored)) posted).filter keeps).map (raise "emailVerified"
          (((overlaid additive stored posted).filter keeps).map (raise "emailVerified" stored))) =
      ((overlaid false stored posted).filter keeps).map (raise "emailVerified" stored) := by
  cases posted with
  | none =>
    have hfirst : ((overlaid additive stored none).filter keeps).map (raise "emailVerified" stored) =
        stored.filter keeps := by
      cases stored with
      | none => cases additive <;> rfl
      | some u =>
        have hover : overlaid additive (some u) none = some u := by cases additive <;> rfl
        rw [hover, Option.filter_some]
        split
        · exact congrArg some (raise_self (hs u rfl) _)
        · rfl
    have hplain : ∀ x : Option Json, overlaid false x none = x := fun _ => rfl
    rw [hfirst, hplain, hplain]
    cases stored with
    | none => rfl
    | some u =>
      have hself := raise_self (hs u rfl) "emailVerified"
      rw [Option.filter_some]
      split
      · rename_i hk
        rw [Option.filter_some, if_pos hk]
      · rfl
  | some v =>
    have hv := hp v rfl
    have hplain : ∀ x : Option Json, overlaid false x (some v) = some v := fun _ => rfl
    rw [hplain, hplain, Option.filter_some]
    split
    · rename_i hk
      apply congrArg some
      cases additive with
      | false =>
        rw [hplain, Option.filter_some, if_pos hk]
        exact raise_raise hv _ _
      | true =>
        cases stored with
        | none =>
          have hfirst : overlaid true none (some v) = some v := rfl
          rw [hfirst, Option.filter_some, if_pos hk]
          exact raise_self hv _
        | some u =>
          have hfirst : overlaid true (some u) (some v) = some u := rfl
          rw [hfirst, Option.filter_some, if_pos (hkept rfl u v rfl rfl), Option.map_some,
            raise_self (hs u rfl)]
    · rfl

/-- An additive post keeps what the first one left, and finds nothing new but what goes. -/
theorem user_additive_again (hs : ∀ u, stored = some u → u.ordered = true)
    (hp : ∀ v, posted = some v → v.ordered = true)
    (hkeeps : ∀ stored v, keeps (raise "emailVerified" stored v) = keeps v) {additive : Bool}
    (hreturn : additive = true → ∀ u v, stored = some u → posted = some v → keeps v = true →
      keeps u = true) :
    ((overlaid true (((overlaid additive stored posted).filter keeps).map
        (raise "emailVerified" stored)) posted).filter keeps).map (raise "emailVerified"
          (((overlaid additive stored posted).filter keeps).map (raise "emailVerified" stored))) =
      ((overlaid additive stored posted).filter keeps).map (raise "emailVerified" stored) := by
  cases hx : (overlaid additive stored posted).filter keeps with
  | some w =>
    obtain ⟨hw, hk⟩ := Option.filter_eq_some_iff.mp hx
    have hraised : keeps (raise "emailVerified" stored w) = true := (hkeeps stored w).trans hk
    have hover : overlaid true (some (raise "emailVerified" stored w)) posted =
        some (raise "emailVerified" stored w) := rfl
    rw [Option.map_some, hover, Option.filter_some, if_pos hraised, Option.map_some,
      raise_self (raise_ordered (overlaid_ordered hs hp hw) _ _)]
  | none =>
    cases posted with
    | none => rfl
    | some v =>
      have hover : overlaid true none (some v) = some v := rfl
      rw [Option.map_none, hover, Option.filter_some, if_neg]
      · rfl
      intro hv
      have hwinner : ∀ w, overlaid additive stored (some v) = some w → keeps w = true → False := by
        intro w hw hk
        rw [hw, Option.filter_some, if_pos hk] at hx
        exact absurd hx (by simp)
      cases additive with
      | false => exact hwinner v rfl hv
      | true =>
        cases stored with
        | none => exact hwinner v rfl hv
        | some u => exact hwinner u rfl (hreturn rfl u v rfl rfl hv)

end Records

section Again
variable {current next : Json} (hc : current.ordered = true) (hn : next.ordered = true)
include hc hn

/-- The joined sections are joined already. -/
theorem union_again (additive : Bool) {key : String}
    (h : key ∈ ["deletedSchools", "deletedUsers", "registeredIps"]) :
    unionEntries (mergeClassified additive current next) next key = unionEntries current next key := by
  have hm := mergeClassified_ordered hc hn additive
  have hfields : fieldsAt (mergeClassified additive current next) key =
      unionEntries current next key :=
    fieldsAt_obj ((get?_mergeClassified _ _ _ _).trans (if_pos h))
  apply (unionEntries_ordered hm hn key).sorted.ext (unionEntries_ordered hc hn key).sorted
  intro id
  rw [lookup_unionEntries hn, hfields, lookup_unionEntries hn]
  cases (fieldsAt next key).lookup id <;> rfl

theorem tombstones_again (additive : Bool) {key : String}
    (h : key ∈ ["deletedSchools", "deletedUsers", "registeredIps"]) :
    joinedTombstones (mergeClassified additive current next) next key =
      joinedTombstones current next key :=
  congrArg (List.map Prod.fst) (union_again hc hn additive h)

omit hc hn in
theorem schools_merged (additive : Bool) : fieldsAt (mergeClassified additive current next) "schools" =
    schoolEntries additive current next := fieldsAt_obj (get?_mergeClassified _ _ _ _)

omit hc hn in
theorem users_merged (additive : Bool) : fieldsAt (mergeClassified additive current next) "users" =
    userEntries additive current next := fieldsAt_obj (get?_mergeClassified _ _ _ _)

theorem lookup_schools_again (additive again : Bool) (id : String) :
    (schoolEntries again (mergeClassified additive current next) next).lookup id =
      if id ∈ joinedTombstones current next "deletedSchools" then none
      else (overlaid again ((schoolEntries additive current next).lookup id)
        ((fieldsAt next "schools").lookup id)).map
          (raiseSchool ((schoolEntries additive current next).lookup id)) := by
  rw [lookup_schoolEntries (mergeClassified_ordered hc hn additive) hn,
    tombstones_again hc hn additive (by decide), schools_merged]

theorem lookup_users_again (additive again : Bool) (id : String) :
    (userEntries again (mergeClassified additive current next) next).lookup id =
      ((overlaid again ((userEntries additive current next).lookup id)
        ((fieldsAt next "users").lookup id)).filter (keepsMerged current next id)).map
          (raise "emailVerified" ((userEntries additive current next).lookup id)) := by
  rw [lookup_userEntries (mergeClassified_ordered hc hn additive) hn,
    tombstones_again hc hn additive (by decide), tombstones_again hc hn additive (by decide),
    users_merged]
  rfl

omit hc in
theorem union_absorbs (current : Json) (key id : String) :
    ((fieldsAt next key).lookup id).or ((unionEntries current next key).lookup id) =
      (unionEntries current next key).lookup id := by
  rw [lookup_unionEntries hn]
  cases (fieldsAt next key).lookup id <;> rfl

omit hc in
/-- Entries that were joined and filtered are joined and filtered already. -/
theorem filter_union_again {merged : Json} (hm : merged.ordered = true) {key : String}
    {p : String × Json → Bool} {base : Fields} (hbase : Json.Ordered base)
    (hposted : ∀ id, ((fieldsAt next key).lookup id).or (base.lookup id) = base.lookup id)
    (h : fieldsAt merged key = base.filter p) :
    (unionEntries merged next key).filter p = base.filter p := by
  have hunion := unionEntries_ordered hm hn key
  apply (hunion.filter p).sorted.ext (hbase.filter p).sorted
  intro id
  rw [hunion.sorted.lookup_filter, lookup_unionEntries hn, h, hbase.sorted.lookup_filter]
  have hid := hposted id
  cases hnext : List.lookup id (fieldsAt next key) with
  | some v =>
    rw [hnext] at hid
    rw [← hid]
    rfl
  | none =>
    rw [Option.none_or, Option.filter_filter]
    congr 1
    funext v
    exact Bool.and_self _

/-- A second post that is not additive writes what a plain first one would have written. -/
theorem retry_plain {additive : Bool}
    (hkept : additive = true → ∀ id u v, (fieldsAt current "users").lookup id = some u →
      (fieldsAt next "users").lookup id = some v → keepsMerged current next id u = true) :
    mergeClassified false (mergeClassified additive current next) next =
      mergeClassified false current next := by
  have hm := mergeClassified_ordered hc hn additive
  apply (mergeClassified_eq_iff hm hn hc hn false false).mpr
  refine ⟨fun _ hkey => union_again hc hn additive hkey, ?_, ?_, rfl, ?_, fun _ _ => rfl⟩
  · apply (schoolEntries_ordered hm hn false).sorted.ext (schoolEntries_ordered hc hn false).sorted
    intro id
    rw [lookup_schools_again hc hn, lookup_schoolEntries hc hn, lookup_schoolEntries hc hn]
    split
    · rfl
    · exact school_plain_again (fun _ => (fieldsAt_ordered hc _).lookup)
        (fun _ => (fieldsAt_ordered hn _).lookup) additive
  · apply (userEntries_ordered hm hn false).sorted.ext (userEntries_ordered hc hn false).sorted
    intro id
    rw [lookup_users_again hc hn, lookup_userEntries hc hn, lookup_userEntries hc hn]
    exact user_plain_again (fun _ => (fieldsAt_ordered hc _).lookup)
      (fun _ => (fieldsAt_ordered hn _).lookup) fun hadd u v => hkept hadd id u v
  · rw [tombstones_again hc hn additive (by decide)]
    rfl

/-- A second post that is additive leaves the merged registry as it is. -/
theorem retry_additive {additive : Bool} (hreturn : additive = true → NoUserReturns current next)
    (hobjects : additive = false → (objectAt next "otpPending").isSome = true ∧
      (objectAt next "blockedIps").isSome = true) :
    mergeClassified true (mergeClassified additive current next) next =
      mergeClassified additive current next := by
  have hm := mergeClassified_ordered hc hn additive
  apply (mergeClassified_eq_iff hm hn hc hn true additive).mpr
  refine ⟨fun _ hkey => union_again hc hn additive hkey, ?_, ?_, ?_, ?_, fun _ _ => rfl⟩
  · apply (schoolEntries_ordered hm hn true).sorted.ext (schoolEntries_ordered hc hn additive).sorted
    intro id
    rw [lookup_schools_again hc hn, lookup_schoolEntries hc hn]
    split
    · rfl
    · exact school_additive_again (fun _ => (fieldsAt_ordered hc _).lookup)
        (fun _ => (fieldsAt_ordered hn _).lookup) additive
  · apply (userEntries_ordered hm hn true).sorted.ext (userEntries_ordered hc hn additive).sorted
    intro id
    rw [lookup_users_again hc hn, lookup_userEntries hc hn]
    exact user_additive_again (fun _ => (fieldsAt_ordered hc _).lookup)
      (fun _ => (fieldsAt_ordered hn _).lookup) (keepsUser_raise _ _ id)
      fun hadd u v => hreturn hadd id u v
  · have hagain : ∀ base, Json.Ordered base →
        (∀ id, ((fieldsAt next "otpPending").lookup id).or (base.lookup id) = base.lookup id) →
        fieldsAt (mergeClassified additive current next) "otpPending" = base →
        unionEntries (mergeClassified additive current next) next "otpPending" = base := by
      intro base hbase hposted hfields
      have hfilter := filter_union_again hn hm hbase hposted
        (hfields.trans (List.filter_true base).symm)
      rwa [List.filter_true, List.filter_true] at hfilter
    have hget : (mergeClassified additive current next).get? "otpPending" =
        joinedIf additive current next "otpPending" := get?_mergeClassified _ _ _ _
    cases additive with
    | true =>
      exact congrArg (some ∘ Json.obj) (hagain _ (unionEntries_ordered hc hn _)
        (union_absorbs hn current _) (fieldsAt_obj hget))
    | false =>
      have hobj := posted_object (hobjects rfl).1
      refine Eq.trans ?_ hobj.symm
      exact congrArg (some ∘ Json.obj) (hagain _ (fieldsAt_ordered hn _)
        (fun id => Option.or_self) (fieldsAt_eq hget))
  · have hget : (mergeClassified additive current next).get? "blockedIps" =
        (joinedIf additive current next "blockedIps").map (onObject (List.filter
          (keepsBlock (joinedTombstones current next "deletedSchools")))) :=
      get?_mergeClassified _ _ _ _
    rw [tombstones_again hc hn additive (by decide)]
    cases additive with
    | true =>
      exact congrArg (some ∘ Json.obj) (filter_union_again hn hm (unionEntries_ordered hc hn _)
        (union_absorbs hn current _) (fieldsAt_obj hget))
    | false =>
      have hobj := posted_object (hobjects rfl).2
      have hplain : joinedIf false current next "blockedIps" =
        some (.obj (fieldsAt next "blockedIps")) := hobj
      rw [hplain] at hget ⊢
      exact congrArg (some ∘ Json.obj) (filter_union_again hn hm (fieldsAt_ordered hn _)
        (fun id => Option.or_self) (fieldsAt_obj hget))

theorem mem_schools_merged (additive : Bool) (id : String) :
    id ∈ objectKeySet (mergeClassified additive current next) "schools" ↔
      id ∉ joinedTombstones current next "deletedSchools" ∧
        (id ∈ objectKeySet current "schools" ∨ id ∈ objectKeySet next "schools") := by
  rw [mem_objectKeySet, mem_objectKeySet, mem_objectKeySet, schools_merged,
    lookup_schoolEntries hc hn]
  split
  · rename_i hid
    simp [hid]
  · rename_i hid
    rw [Option.isSome_map]
    unfold overlaid
    split
    · rw [Option.isSome_or, Bool.or_eq_true]
      exact ⟨fun h => ⟨hid, h⟩, fun h => h.2⟩
    · rw [Option.isSome_or, Bool.or_eq_true, or_comm]
      exact ⟨fun h => ⟨hid, h⟩, fun h => h.2⟩

theorem mem_users_merged (id : String) :
    id ∈ objectKeySet (mergeAuthRegistry current next) "users" ↔
      (winningUser current next id).any (keepsMerged current next id) = true := by
  rw [mem_objectKeySet, mergeAuthRegistry_eq, users_merged, lookup_userEntries hc hn,
    Option.isSome_map, Option.isSome_filter]
  rfl

/-- The second post is additive exactly when it contains a record that the merge removes. -/
theorem additivePost_again_iff :
    additivePost (mergeAuthRegistry current next) next = true ↔ CarriesRemoved current next := by
  rw [additivePost_iff]
  apply or_congr
  · apply exists_congr
    intro id
    apply and_congr_right
    intro hid
    rw [mergeAuthRegistry_eq, mem_schools_merged hc hn]
    simp [hid]
  · apply exists_congr
    intro id
    apply and_congr_right
    intro hid
    rw [mem_users_merged hc hn, Bool.not_eq_true]

end Again

/-- Posting once more. A post without removed records settles exactly when it adds nothing or
its copies agree with the stored ones; one with removed records settles unless it brings a user
back or lacks a section that only the second merge joins. -/
theorem retry_settles (c n : Json.Document) :
    (¬ CarriesRemoved c n →
      (mergeAuthRegistry (mergeAuthRegistry c n) n = mergeAuthRegistry c n ↔
        (additivePost c n = true → PostAgrees c n))) ∧
    (CarriesRemoved c n → (additivePost c n = true → NoUserReturns c n) →
      (additivePost c n = false → (objectAt n "otpPending").isSome = true ∧
        (objectAt n "blockedIps").isSome = true) →
      mergeAuthRegistry (mergeAuthRegistry c n) n = mergeAuthRegistry c n) := by
  obtain ⟨c, hc⟩ := c
  obtain ⟨n, hn⟩ := n
  have hagain := additivePost_again_iff hc hn
  dsimp only
  constructor
  · intro hcarries
    have hplain : additivePost (mergeAuthRegistry c n) n = false := by
      rw [← Bool.not_eq_true, hagain]
      exact hcarries
    have hkept : additivePost c n = true → ∀ id u v, (fieldsAt c "users").lookup id = some u →
        (fieldsAt n "users").lookup id = some v → keepsMerged c n id u = true := by
      intro hadd id u v hu hv
      by_contra hk
      refine hcarries (Or.inr ⟨id, mem_objectKeySet.mpr (by rw [hv]; rfl), ?_⟩)
      have hwinner : winningUser c n id = some u := by
        unfold winningUser
        rw [hadd, hu]
        rfl
      rw [hwinner]
      exact Bool.not_eq_true _ ▸ hk
    rw [mergeAuthRegistry_eq (mergeAuthRegistry c n) n, hplain, mergeAuthRegistry_eq,
      retry_plain hc hn hkept]
    cases hadd : additivePost c n with
    | false => simp
    | true =>
      rw [eq_comm, mergeClassified_agree_iff hc hn]
      exact ⟨fun h _ => h, fun h => h rfl⟩
  · intro hcarries hreturn hobjects
    rw [mergeAuthRegistry_eq (mergeAuthRegistry c n) n, hagain.mpr hcarries, mergeAuthRegistry_eq]
    exact retry_additive hc hn hreturn hobjects

/-- A post with an old copy of a school and a new school: the second time, the old copy wins. -/
theorem retry_restores_old_copy :
    let c := Json.obj [("schools", .obj [("a", .obj [("name", .str "new")])])]
    let n := Json.obj [("schools", .obj [("a", .obj [("name", .str "old")]), ("b", .obj [])])]
    mergeAuthRegistry (mergeAuthRegistry c n) n ≠ mergeAuthRegistry c n := by
  intro c n h
  have hname := congrArg (fun v : Json => (v.get? "schools").bind fun schools =>
    (schools.get? "a").bind (strAt · "name")) h
  exact absurd hname (by decide)

end TkbCherry.Registry
