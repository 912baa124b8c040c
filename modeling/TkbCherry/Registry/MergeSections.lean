import TkbCherry.Registry.AuthMerge

/-!
# The merged registry, section by section

`mergeClassified` is the merge once the post is classified. Every section of its result is an
ordered map, and what it holds under an id depends only on what the stored and the posted
section hold there.
-/

namespace TkbCherry.Registry

set_option autoImplicit false

open AssocList

/-- The entries of a section; none when it is no object. -/
def fieldsAt (registry : Json) (key : String) : Fields := (objectAt registry key).getD []

/-- The posted entries over the stored ones. -/
def unionEntries (current next : Json) (key : String) : Fields :=
  insertAll (fieldsAt current key) (fieldsAt next key)

/-- The tombstoned ids, stored or posted. -/
def joinedTombstones (current next : Json) (key : String) : List String :=
  (unionEntries current next key).map Prod.fst

/-- The posted document with the tombstones and the used addresses joined. -/
def joined (current next : Json) : Json :=
  mergeUnionObject current "registeredIps" (mergeUnionObject current "deletedUsers"
    (mergeUnionObject current "deletedSchools" (if next.asObject.isSome then next else .obj [])))

/-- `additive_post`. -/
def additivePost (current next : Json) : Bool :=
  decide (countNewKeys current (joined current next) "schools" > 0) ||
    decide (countNewKeys current (joined current next) "users" > 0)

/-- The rest of the merge. -/
def mergeClassified (additive : Bool) (current next : Json) : Json :=
  let merged := joined current next
  let deletedSchools := objectKeySet merged "deletedSchools"
  let deletedUsers := objectKeySet merged "deletedUsers"
  let merged := mergeEntityObject current "schools" deletedSchools additive merged
  let merged := mergeUsersObject current deletedUsers deletedSchools additive merged
  let merged := preserveMonotonicVerification current merged
  let merged := if additive
    then mergeUnionObject current "blockedIps" (mergeUnionObject current "otpPending" merged)
    else merged
  pruneDeletedSchoolIpBlocks deletedSchools merged

theorem mergeAuthRegistry_eq (current next : Json) :
    mergeAuthRegistry current next = mergeClassified (additivePost current next) current next := rfl

/-! ### Entries -/

theorem fieldsAt_eq {v w : Json} {key : String} (h : v.get? key = w.get? key) :
    fieldsAt v key = fieldsAt w key := by
  unfold fieldsAt objectAt
  rw [h]

theorem fieldsAt_obj {v : Json} {key : String} {fields : Fields}
    (h : v.get? key = some (.obj fields)) : fieldsAt v key = fields := by
  unfold fieldsAt objectAt
  rw [h]
  rfl

theorem fieldsAt_ordered {v : Json} (h : v.ordered = true) (key : String) :
    Json.Ordered (fieldsAt v key) := by
  unfold fieldsAt objectAt
  cases hg : v.get? key with
  | none => exact .nil
  | some w =>
    cases w with
    | obj fields => exact (Json.ordered_obj fields).mp (Json.ordered_get? h hg)
    | _ => exact .nil

theorem onObject_ordered {f : Fields → Fields} (hf : ∀ fields, Json.Ordered fields →
    Json.Ordered (f fields)) (v : Json) (hv : v.ordered = true) : (onObject f v).ordered = true := by
  cases v with
  | obj fields => exact (Json.ordered_obj _).mpr (hf fields ((Json.ordered_obj fields).mp hv))
  | _ => exact hv

theorem mem_objectKeySet {v : Json} {key id : String} :
    id ∈ objectKeySet v key ↔ ((fieldsAt v key).lookup id).isSome = true := lookup_isSome_iff.symm

/-- `insert` of every entry: the inserted ones win. -/
theorem lookup_insertAll {entries : Fields} (h : Sorted entries) (out : Fields) (id : String) :
    List.lookup id (insertAll out entries) = (List.lookup id entries).or (List.lookup id out) := by
  unfold insertAll
  induction entries generalizing out with
  | nil => rfl
  | cons e rest ih =>
    obtain ⟨key, v⟩ := e
    obtain ⟨hhead, hrest⟩ := List.pairwise_cons.mp h
    rw [List.foldl_cons, ih hrest, lookup_cons_eq]
    split
    · rename_i hid
      subst hid
      have hnone : List.lookup id rest = none := by
        rw [lookup_eq_none_iff]
        intro hin
        obtain ⟨x, hx, hxid⟩ := List.mem_map.mp hin
        exact lt_irrefl id (hxid ▸ hhead x hx)
      rw [hnone, lookup_assign_self]
      rfl
    · rename_i hid
      rw [lookup_assign_ne hid]

theorem insertAll_ordered {out entries : Fields} (ho : Json.Ordered out)
    (he : ∀ e ∈ entries, e.2.ordered = true) : Json.Ordered (insertAll out entries) := by
  unfold insertAll
  induction entries generalizing out with
  | nil => exact ho
  | cons e rest ih =>
    obtain ⟨hhead, hrest⟩ := List.forall_mem_cons.mp he
    exact ih (ho.assign e.1 hhead) hrest

theorem unionEntries_ordered {current next : Json} (hc : current.ordered = true)
    (hn : next.ordered = true) (key : String) : Json.Ordered (unionEntries current next key) :=
  insertAll_ordered (fieldsAt_ordered hc key) (fieldsAt_ordered hn key).values

theorem lookup_unionEntries {next : Json} (hn : next.ordered = true) (current : Json)
    (key id : String) : List.lookup id (unionEntries current next key) =
      ((fieldsAt next key).lookup id).or ((fieldsAt current key).lookup id) :=
  lookup_insertAll (fieldsAt_ordered hn key).sorted _ _

theorem mem_joinedTombstones {next : Json} (hn : next.ordered = true) (current : Json)
    (key id : String) : id ∈ joinedTombstones current next key ↔
      id ∈ objectKeySet next key ∨ id ∈ objectKeySet current key := by
  unfold joinedTombstones
  rw [← lookup_isSome_iff, lookup_unionEntries hn, Option.isSome_or, Bool.or_eq_true,
    lookup_isSome_iff, lookup_isSome_iff]
  rfl

/-! ### Which record wins -/

/-- The posted record over the stored one; an additive post only adds. -/
def overlaid (additive : Bool) (stored posted : Option Json) : Option Json :=
  if additive then stored.or posted else posted.or stored

theorem lookup_overlay {next : Fields} (hn : Sorted next) (current : Fields) (additive : Bool)
    (id : String) : List.lookup id (overlay current next additive) =
      overlaid additive (current.lookup id) (next.lookup id) := by
  unfold overlay
  rw [lookup_insertAll (hn.filter _), hn.lookup_filter]
  unfold overlaid
  cases additive with
  | false =>
    rw [if_neg Bool.false_ne_true]
    cases List.lookup id next <;> rfl
  | true =>
    rw [if_pos rfl]
    cases hcurrent : List.lookup id current with
    | none => cases List.lookup id next <;> simp [hcurrent]
    | some w => cases List.lookup id next <;> simp [hcurrent]

theorem overlay_ordered {current next : Fields} (hc : Json.Ordered current)
    (hn : Json.Ordered next) (additive : Bool) : Json.Ordered (overlay current next additive) :=
  insertAll_ordered hc (hn.filter _).values

/-! ### Flags that stay raised -/

/-- The record with the flag, when the stored record has it. -/
def raise (flag : String) (stored : Option Json) (v : Json) : Json :=
  if stored.bind (boolAt · flag) = some true then
    onObject (AssocList.assign flag (.bool true)) v
  else v

theorem raise_ordered {v : Json} (h : v.ordered = true) (flag : String) (stored : Option Json) :
    (raise flag stored v).ordered = true := by
  unfold raise
  split
  · exact onObject_ordered (fun _ hf => hf.assign flag rfl) v h
  · exact h

@[simp] theorem raise_none (flag : String) (v : Json) : raise flag none v = v := rfl

theorem get?_raise_ne {flag key : String} (h : key ≠ flag) (stored : Option Json) (v : Json) :
    (raise flag stored v).get? key = v.get? key := by
  unfold raise
  split
  · cases v with
    | obj fields => exact lookup_assign_ne h _ fields
    | _ => rfl
  · rfl

theorem boolAt_raise_ne {flag key : String} (h : key ≠ flag) (stored : Option Json) (v : Json) :
    boolAt (raise flag stored v) key = boolAt v key := by
  unfold boolAt
  rw [get?_raise_ne h]

/-- A record that has the flag keeps it as it is. -/
theorem raise_self {v : Json} (h : v.ordered = true) (flag : String) : raise flag (some v) v = v := by
  unfold raise
  split
  · rename_i hflag
    cases v with
    | obj fields =>
      obtain ⟨w, hw, hb⟩ := Option.bind_eq_some_iff.mp (show boolAt (.obj fields) flag = some true from hflag)
      cases w with
      | bool b =>
        cases hb
        exact congrArg Json.obj (((Json.ordered_obj fields).mp h).sorted.assign_eq_self hw)
      | _ => simp [Json.asBool] at hb
    | _ => rfl
  · rfl

theorem raise_raise {v : Json} (h : v.ordered = true) (flag : String) (stored : Option Json) :
    raise flag (some (raise flag stored v)) v = raise flag stored v := by
  by_cases hflag : stored.bind (boolAt · flag) = some true
  · have hraise : raise flag stored v = onObject (AssocList.assign flag (.bool true)) v := if_pos hflag
    rw [hraise]
    cases v with
    | obj fields =>
      apply if_pos
      show boolAt (.obj (AssocList.assign flag (.bool true) fields)) flag = some true
      unfold boolAt
      rw [Json.get?_obj, lookup_assign_self]
      rfl
    | _ => exact ite_self _
  · have hraise : raise flag stored v = v := if_neg hflag
    rw [hraise]
    exact raise_self h flag

/-- The flags of a school. -/
def raiseSchool (stored : Option Json) (v : Json) : Json :=
  raise "trialUsed" stored (raise "verified" stored v)

@[simp] theorem raiseSchool_none (v : Json) : raiseSchool none v = v := rfl

theorem raiseSchool_self {v : Json} (h : v.ordered = true) : raiseSchool (some v) v = v := by
  unfold raiseSchool
  rw [raise_self h, raise_self h]

theorem raise_congr {flag : String} {stored stored' : Option Json}
    (h : stored.bind (boolAt · flag) = stored'.bind (boolAt · flag)) (v : Json) :
    raise flag stored v = raise flag stored' v := by
  unfold raise
  rw [h]

theorem raiseSchool_raiseSchool {v : Json} (h : v.ordered = true) (stored : Option Json) :
    raiseSchool (some (raiseSchool stored v)) v = raiseSchool stored v := by
  have hverified : raise "verified" (some (raiseSchool stored v)) v = raise "verified" stored v := by
    have hflag : (some (raiseSchool stored v)).bind (boolAt · "verified") =
        (some (raise "verified" stored v)).bind (boolAt · "verified") :=
      boolAt_raise_ne (by decide) _ _
    calc raise "verified" (some (raiseSchool stored v)) v
        = raise "verified" (some (raise "verified" stored v)) v := raise_congr hflag v
      _ = raise "verified" stored v := raise_raise h _ _
  unfold raiseSchool at hverified ⊢
  rw [hverified]
  exact raise_raise (raise_ordered h _ _) _ _

theorem raiseSchool_ordered {v : Json} (h : v.ordered = true) (stored : Option Json) :
    (raiseSchool stored v).ordered = true := raise_ordered (raise_ordered h _ _) _ _

theorem lookup_keepFlag {stored : Fields} (hs : Sorted stored) (flag : String) (entries : Fields)
    (id : String) : List.lookup id (keepFlag flag stored entries) =
      (List.lookup id entries).map (raise flag (stored.lookup id)) := by
  unfold keepFlag
  induction stored generalizing entries with
  | nil => exact (Option.map_id' (x := List.lookup id entries)).symm
  | cons e rest ih =>
    obtain ⟨key, v⟩ := e
    obtain ⟨hhead, hrest⟩ := List.pairwise_cons.mp hs
    rw [List.foldl_cons, ih hrest, lookup_cons_eq]
    by_cases hid : id = key
    · subst hid
      have hnone : List.lookup id rest = none := by
        rw [lookup_eq_none_iff]
        intro hin
        obtain ⟨x, hx, hxid⟩ := List.mem_map.mp hin
        exact lt_irrefl id (hxid ▸ hhead x hx)
      rw [hnone, if_pos rfl]
      split
      · rename_i hflag
        rw [lookup_modify, if_pos rfl, Option.map_map]
        apply congrArg (Option.map · _)
        funext w
        exact (if_pos hflag).symm
      · rename_i hflag
        apply congrArg (Option.map · _)
        funext w
        exact (if_neg hflag).symm
    · rw [if_neg hid]
      split
      · rw [lookup_modify, if_neg hid]
      · rfl

theorem keepFlag_ordered {entries : Fields} (h : Json.Ordered entries) (flag : String)
    (stored : Fields) : Json.Ordered (keepFlag flag stored entries) := by
  unfold keepFlag
  induction stored generalizing entries with
  | nil => exact h
  | cons e rest ih =>
    rw [List.foldl_cons]
    apply ih
    split
    · exact h.modify e.1 (onObject_ordered fun _ hf => hf.assign flag rfl)
    · exact h

/-! ### Sections of the merged document -/

/-- `retain` on the accounts. -/
def keepsUser (deletedUsers deletedSchools : List String) (e : String × Json) : Bool :=
  !decide (e.1 ∈ deletedUsers) && !decide ((strAt e.2 "schoolId").getD "" ∈ deletedSchools)

/-- `retain` on the blocked addresses. -/
def keepsBlock (deletedSchools : List String) (e : String × Json) : Bool :=
  decide (schoolIdOf e.2 = "") ||
    !deletedSchools.any fun deletedId => eqIgnoreAsciiCase deletedId (schoolIdOf e.2)

def schoolEntries (additive : Bool) (current next : Json) : Fields :=
  let stored := fieldsAt current "schools"
  keepFlag "trialUsed" stored (keepFlag "verified" stored
    ((joinedTombstones current next "deletedSchools").foldl (fun out id => AssocList.unset id out)
      (overlay stored (fieldsAt next "schools") additive)))

def userEntries (additive : Bool) (current next : Json) : Fields :=
  let stored := fieldsAt current "users"
  keepFlag "emailVerified" stored
    ((overlay stored (fieldsAt next "users") additive).filter
      (keepsUser (joinedTombstones current next "deletedUsers") (joinedTombstones current next "deletedSchools")))

/-- A section that only an additive post joins. -/
def joinedIf (additive : Bool) (current next : Json) (key : String) : Option Json :=
  if additive then some (.obj (unionEntries current next key)) else next.get? key

/-- What the merge puts under a key of the registry. -/
def mergedSection (additive : Bool) (current next : Json) (key : String) : Option Json :=
  if key ∈ ["deletedSchools", "deletedUsers", "registeredIps"] then
    some (.obj (unionEntries current next key))
  else if key = "schools" then some (.obj (schoolEntries additive current next))
  else if key = "users" then some (.obj (userEntries additive current next))
  else if key = "otpPending" then joinedIf additive current next key
  else if key = "blockedIps" then
    (joinedIf additive current next key).map (onObject (List.filter
      (keepsBlock (joinedTombstones current next "deletedSchools"))))
  else next.get? key

section Root
variable {merged : Json}

theorem get?_onObject_assign (h : merged.asObject.isSome = true) (key : String) (v : Json)
    (other : String) : (onObject (AssocList.assign key v) merged).get? other =
      if other = key then some v else merged.get? other := by
  cases merged with
  | obj fields =>
    split
    · rename_i hother
      subst hother
      exact lookup_assign_self _ _ _
    · rename_i hother
      exact lookup_assign_ne hother _ _
  | _ => simp [Json.asObject] at h

theorem onObject_isSome (f : Fields → Fields) (v : Json) :
    (onObject f v).asObject.isSome = v.asObject.isSome := by
  cases v <;> rfl

theorem update_isSome (key : String) (f : Json → Json) (v : Json) :
    (v.update key f).asObject.isSome = v.asObject.isSome := by
  cases v <;> rfl

theorem get?_mergeUnionObject (h : merged.asObject.isSome = true) (current : Json)
    (key other : String) : (mergeUnionObject current key merged).get? other =
      if other = key then some (.obj (unionEntries current merged key)) else merged.get? other :=
  get?_onObject_assign h _ _ _

theorem mergeUnionObject_isSome (current : Json) (key : String) :
    (mergeUnionObject current key merged).asObject.isSome = merged.asObject.isSome :=
  onObject_isSome _ _

theorem unionEntries_congr {next next' : Json} {key : String} (h : next.get? key = next'.get? key)
    (current : Json) : unionEntries current next key = unionEntries current next' key := by
  unfold unionEntries
  rw [fieldsAt_eq h]

end Root

theorem joined_isSome (current next : Json) : (joined current next).asObject.isSome = true := by
  unfold joined
  rw [mergeUnionObject_isSome, mergeUnionObject_isSome, mergeUnionObject_isSome]
  split
  · assumption
  · rfl

theorem get?_joined (current next : Json) (key : String) :
    (joined current next).get? key =
      if key ∈ ["deletedSchools", "deletedUsers", "registeredIps"] then
        some (.obj (unionEntries current next key))
      else next.get? key := by
  have hroot : (if next.asObject.isSome then next else Json.obj []).asObject.isSome = true := by
    split
    · assumption
    · rfl
  have hget : ∀ key, (if next.asObject.isSome then next else Json.obj []).get? key =
      next.get? key := by
    intro key
    cases next <;> rfl
  unfold joined
  generalize (if next.asObject.isSome then next else Json.obj []) = root at hroot hget ⊢
  rw [get?_mergeUnionObject (by rw [mergeUnionObject_isSome, mergeUnionObject_isSome, hroot]),
    get?_mergeUnionObject (by rw [mergeUnionObject_isSome, hroot]), get?_mergeUnionObject hroot, hget]
  by_cases hips : key = "registeredIps"
  · subst hips
    rw [if_pos rfl, if_pos (by decide)]
    refine congrArg (some ∘ Json.obj) (unionEntries_congr ?_ current)
    rw [get?_mergeUnionObject (by rw [mergeUnionObject_isSome, hroot]),
      get?_mergeUnionObject hroot, if_neg (by decide), if_neg (by decide), hget]
  rw [if_neg hips]
  by_cases husers : key = "deletedUsers"
  · subst husers
    rw [if_pos rfl, if_pos (by decide)]
    refine congrArg (some ∘ Json.obj) (unionEntries_congr ?_ current)
    rw [get?_mergeUnionObject hroot, if_neg (by decide), hget]
  rw [if_neg husers]
  by_cases hschools : key = "deletedSchools"
  · subst hschools
    rw [if_pos rfl, if_pos (by decide)]
    exact congrArg (some ∘ Json.obj) (unionEntries_congr (hget _) current)
  rw [if_neg hschools, if_neg (by simp [hips, husers, hschools])]

theorem objectKeySet_joined (current next : Json) {key : String}
    (h : key ∈ ["deletedSchools", "deletedUsers", "registeredIps"]) :
    objectKeySet (joined current next) key = joinedTombstones current next key := by
  have hfields := fieldsAt_obj ((get?_joined current next key).trans (if_pos h))
  exact congrArg (List.map Prod.fst) hfields

theorem fieldsAt_joined (current next : Json) {key : String}
    (h : key ∉ ["deletedSchools", "deletedUsers", "registeredIps"]) :
    fieldsAt (joined current next) key = fieldsAt next key :=
  fieldsAt_eq ((get?_joined current next key).trans (if_neg h))

/-- Without tombstones every address stays. -/
theorem get?_pruneDeletedSchoolIpBlocks (deletedSchools : List String) (v : Json) (key : String) :
    (pruneDeletedSchoolIpBlocks deletedSchools v).get? key =
      if key = "blockedIps" then
        (v.get? key).map (onObject (List.filter (keepsBlock deletedSchools)))
      else v.get? key := by
  unfold pruneDeletedSchoolIpBlocks
  split
  · rename_i hempty
    obtain rfl := List.isEmpty_iff.mp hempty
    have hkeep : keepsBlock [] = fun _ => true := by
      funext e
      exact Bool.or_true _
    have hid : onObject (List.filter (keepsBlock [])) = id := by
      funext w
      cases w with
      | obj fields => exact congrArg Json.obj (by rw [hkeep, List.filter_true])
      | _ => rfl
    rw [hid, Option.map_id, id_eq, ite_self]
  · rw [Json.get?_update]
    split
    · rename_i hkey
      rw [hkey]
      rfl
    · rfl

theorem get?_preserveMonotonicVerification (current v : Json) (key : String) :
    (preserveMonotonicVerification current v).get? key =
      if key = "schools" then (v.get? key).map (onObject fun entries =>
        keepFlag "trialUsed" (fieldsAt current "schools")
          (keepFlag "verified" (fieldsAt current "schools") entries))
      else if key = "users" then
        (v.get? key).map (onObject (keepFlag "emailVerified" (fieldsAt current "users")))
      else v.get? key := by
  unfold preserveMonotonicVerification
  rw [Json.get?_update, Json.get?_update, Json.get?_update]
  by_cases hschools : key = "schools"
  · subst hschools
    rw [if_pos rfl, if_pos rfl, if_neg (by decide)]
    rfl
  rw [if_neg hschools, if_neg hschools]
  by_cases husers : key = "users"
  · subst husers
    rw [if_pos rfl, if_pos rfl]
    rfl
  · rw [if_neg husers, if_neg husers]

theorem get?_mergeEntityObject {merged : Json} (h : merged.asObject.isSome = true) (current : Json)
    (key : String) (deleted : List String) (additive : Bool) (other : String) :
    (mergeEntityObject current key deleted additive merged).get? other =
      if other = key then some (.obj (deleted.foldl (fun out id => AssocList.unset id out)
        (overlay (fieldsAt current key) (fieldsAt merged key) additive)))
      else merged.get? other := get?_onObject_assign h _ _ _

theorem get?_mergeUsersObject {merged : Json} (h : merged.asObject.isSome = true) (current : Json)
    (deletedUsers deletedSchools : List String) (additive : Bool) (other : String) :
    (mergeUsersObject current deletedUsers deletedSchools additive merged).get? other =
      if other = "users" then
        some (.obj ((overlay (fieldsAt current "users") (fieldsAt merged "users") additive).filter
          (keepsUser deletedUsers deletedSchools)))
      else merged.get? other := get?_onObject_assign h _ _ _

/-- The merge up to the sections that only an additive post joins. -/
def mergedRecords (additive : Bool) (current next : Json) : Json :=
  let merged := joined current next
  let deletedSchools := objectKeySet merged "deletedSchools"
  let deletedUsers := objectKeySet merged "deletedUsers"
  preserveMonotonicVerification current (mergeUsersObject current deletedUsers deletedSchools
    additive (mergeEntityObject current "schools" deletedSchools additive merged))

theorem mergedRecords_isSome (additive : Bool) (current next : Json) :
    (mergedRecords additive current next).asObject.isSome = true := by
  unfold mergedRecords preserveMonotonicVerification mergeUsersObject mergeEntityObject
  dsimp only
  rw [update_isSome, update_isSome, onObject_isSome, onObject_isSome, joined_isSome]

theorem get?_mergedRecords (additive : Bool) (current next : Json) (key : String) :
    (mergedRecords additive current next).get? key =
      if key = "schools" then some (.obj (schoolEntries additive current next))
      else if key = "users" then some (.obj (userEntries additive current next))
      else (joined current next).get? key := by
  have hschools : ∀ deleted, (mergeEntityObject current "schools" deleted additive
      (joined current next)).asObject.isSome = true := by
    intro deleted
    unfold mergeEntityObject
    exact (onObject_isSome _ _).trans (joined_isSome current next)
  have husersAt : ∀ deleted, fieldsAt (mergeEntityObject current "schools" deleted additive
      (joined current next)) "users" = fieldsAt next "users" := by
    intro deleted
    rw [← fieldsAt_joined current next (show "users" ∉ _ by decide)]
    apply fieldsAt_eq
    rw [get?_mergeEntityObject (joined_isSome current next), if_neg (by decide)]
  unfold mergedRecords
  dsimp only
  rw [get?_preserveMonotonicVerification, get?_mergeUsersObject (hschools _),
    get?_mergeEntityObject (joined_isSome current next), husersAt,
    fieldsAt_joined current next (show "schools" ∉ _ by decide),
    objectKeySet_joined _ _ (by decide), objectKeySet_joined _ _ (by decide)]
  by_cases hs : key = "schools"
  · subst hs
    rw [if_pos rfl, if_neg (by decide), if_pos rfl, if_pos rfl]
    rfl
  rw [if_neg hs, if_neg hs, if_neg hs]
  by_cases hu : key = "users"
  · subst hu
    rw [if_pos rfl, if_pos rfl, if_pos rfl]
    rfl
  rw [if_neg hu, if_neg hu, if_neg hu]

theorem mergeClassified_isSome (additive : Bool) (current next : Json) :
    (mergeClassified additive current next).asObject.isSome = true := by
  have hrecords := mergedRecords_isSome additive current next
  have hprune : ∀ deleted v, (pruneDeletedSchoolIpBlocks deleted v).asObject.isSome =
      v.asObject.isSome := by
    intro deleted v
    unfold pruneDeletedSchoolIpBlocks
    split
    · rfl
    · exact update_isSome _ _ _
  unfold mergeClassified
  refine (hprune _ _).trans ?_
  cases additive with
  | true =>
    rw [if_pos rfl, mergeUnionObject_isSome, mergeUnionObject_isSome]
    exact hrecords
  | false => exact hrecords

theorem get?_mergeClassified (additive : Bool) (current next : Json) (key : String) :
    (mergeClassified additive current next).get? key = mergedSection additive current next key := by
  have hrecords := get?_mergedRecords additive current next
  have hsome := mergedRecords_isSome additive current next
  have hjoined : mergeClassified additive current next = pruneDeletedSchoolIpBlocks
      (objectKeySet (joined current next) "deletedSchools")
      (if additive then mergeUnionObject current "blockedIps" (mergeUnionObject current "otpPending"
        (mergedRecords additive current next)) else mergedRecords additive current next) := rfl
  have hif : ∀ other, (if additive then mergeUnionObject current "blockedIps"
      (mergeUnionObject current "otpPending" (mergedRecords additive current next))
      else mergedRecords additive current next).get? other =
        if other ∈ ["otpPending", "blockedIps"] then joinedIf additive current next other
        else (mergedRecords additive current next).get? other := by
    intro other
    have hplain : other ∈ ["otpPending", "blockedIps"] →
        (mergedRecords additive current next).get? other = next.get? other := by
      intro hother
      rw [hrecords, get?_joined]
      rcases List.mem_pair.mp hother with rfl | rfl
      · rw [if_neg (by decide), if_neg (by decide), if_neg (by decide)]
      · rw [if_neg (by decide), if_neg (by decide), if_neg (by decide)]
    cases additive with
    | false =>
      rw [if_neg Bool.false_ne_true]
      split
      · rename_i hother
        exact hplain hother
      · rfl
    | true =>
      rw [if_pos rfl, get?_mergeUnionObject (by rw [mergeUnionObject_isSome, hsome]),
        get?_mergeUnionObject hsome]
      by_cases hblocked : other = "blockedIps"
      · subst hblocked
        rw [if_pos rfl, if_pos (by decide)]
        refine congrArg (some ∘ Json.obj) (unionEntries_congr ?_ current)
        rw [get?_mergeUnionObject hsome, if_neg (by decide), hplain (by decide)]
      rw [if_neg hblocked]
      by_cases hotp : other = "otpPending"
      · subst hotp
        rw [if_pos rfl, if_pos (by decide)]
        exact congrArg (some ∘ Json.obj) (unionEntries_congr (hplain (by decide)) current)
      rw [if_neg hotp, if_neg (by simp [hblocked, hotp])]
  rw [hjoined, get?_pruneDeletedSchoolIpBlocks, objectKeySet_joined _ _ (by decide), hif, hrecords,
    get?_joined]
  unfold mergedSection
  by_cases hblocked : key = "blockedIps"
  · subst hblocked
    simp only [↓reduceIte, List.mem_cons, String.reduceEq, List.not_mem_nil, or_true, or_false, or_self]
  by_cases hotp : key = "otpPending"
  · subst hotp
    simp
  rw [if_neg hblocked, if_neg (by simp [hblocked, hotp]), if_neg hotp, if_neg hblocked]
  by_cases hs : key = "schools"
  · subst hs
    simp
  by_cases hu : key = "users"
  · subst hu
    simp
  rw [if_neg hs, if_neg hu, if_neg hs, if_neg hu]

end TkbCherry.Registry
