import TkbCherry.Registry.MergeFrame

/-!
# The frame of the merge on the whole registry

The three sections of the registry put together, and the consequence for two posts: the rest of
the registry is the same after either of them.
-/

namespace TkbCherry.Registry

set_option autoImplicit false

open Json

def schoolAt (doc : Json) (id : String) : Option Json := (doc.get? "schools").bind (·.get? id)

def accountAt (doc : Json) (id : String) : Option Json := (doc.get? "users").bind (·.get? id)

def tombstones (doc : Json) : Json := (doc.get? "deletedUsers").getD (.obj [])

def subusers (doc : Json) (schoolId : String) : Nat :=
  subuserCount schoolId ((objectAt doc "users").getD [])

/-- The three sections a post may reach. -/
def sections : List String := ["schools", "users", "deletedUsers"]

/-! ### The school section -/

section Schools
variable {schoolId : String} {doc doc' doc'' : Json}

/-- The schools differ in the own school only, and that in its listed fields. -/
structure SchoolFrame (schoolId : String) (doc doc' : Json) : Prop where
  others : Option.Rel (SameOutside [schoolId]) (doc.get? "schools") (doc'.get? "schools")
  own : Option.Rel (SameOutside schoolWhitelist) (schoolAt doc schoolId) (schoolAt doc' schoolId)

theorem optionRel_refl (keys : List String) (v : Option Json) :
    Option.Rel (SameOutside keys) v v := by
  cases v with
  | none => exact .none
  | some v => exact .some (.refl keys v)

theorem optionRel_trans {keys : List String} {v v' v'' : Option Json}
    (h : Option.Rel (SameOutside keys) v v') (h' : Option.Rel (SameOutside keys) v' v'') :
    Option.Rel (SameOutside keys) v v'' := by
  cases h with
  | none => exact h'
  | some hfirst =>
    cases h' with
    | some hsecond => exact .some (hfirst.trans hsecond)

theorem optionRel_symm {keys : List String} {v v' : Option Json}
    (h : Option.Rel (SameOutside keys) v v') : Option.Rel (SameOutside keys) v' v := by
  cases h with
  | none => exact .none
  | some h => exact .some h.symm

theorem optionRel_map {keys : List String} {f : Json → Json} (hf : ∀ v, SameOutside keys v (f v))
    (v : Option Json) : Option.Rel (SameOutside keys) v (v.map f) := by
  cases v with
  | none => exact .none
  | some v => exact .some (hf v)

namespace SchoolFrame

theorem of_eq (h : doc'.get? "schools" = doc.get? "schools") : SchoolFrame schoolId doc doc' := by
  refine ⟨h ▸ optionRel_refl _ _, ?_⟩
  unfold schoolAt
  rw [h]
  exact optionRel_refl _ _

theorem trans (h : SchoolFrame schoolId doc doc') (h' : SchoolFrame schoolId doc' doc'') :
    SchoolFrame schoolId doc doc'' :=
  ⟨optionRel_trans h.others h'.others, optionRel_trans h.own h'.own⟩

theorem update {f : Json → Json} (hf : ∀ school, SameOutside schoolWhitelist school (f school)) :
    SchoolFrame schoolId doc
      (doc.update "schools" fun schools => schools.update schoolId f) := by
  constructor
  · rw [get?_update_self]
    exact optionRel_map (fun schools => .update schoolId f schools) _
  · unfold schoolAt
    rw [get?_update_self]
    cases doc.get? "schools" with
    | none => exact .none
    | some schools =>
      simp only [Option.map_some, Option.bind_some, get?_update_self]
      exact optionRel_map hf _

end SchoolFrame

end Schools

/-! ### The frame -/

/-- Everything the merge leaves as it was. -/
structure MergeFrame (schoolId sessionUserId : String) (current merged : Json) : Prop
    extends SchoolFrame schoolId current merged where
  root : SameOutside sections current merged
  accounts : ∀ id, AccountChange schoolId sessionUserId id (accountAt current id)
    (accountAt merged id)
  identity : ∀ id user user', accountAt current id = some user → accountAt merged id = some user' →
    ∀ key ∈ ["role", "schoolId", "plan"], user'.get? key = user.get? key
  limit : ∀ id, accountAt current id = none → accountAt merged id ≠ none →
    subusers merged schoolId ≤ 5
  deleted : ∃ gone : List String, (∀ id ∈ gone, (∃ user, accountAt current id = some user ∧
      isSubuser schoolId user = true) ∧ accountAt merged id = none) ∧
    SameOutside gone (tombstones current) (tombstones merged)

theorem AccountEdit.identity {schoolId sessionUserId id : String} {user user' : Json}
    (h : AccountEdit schoolId sessionUserId id user user') {key : String}
    (hk : key ∈ ["role", "schoolId", "plan"]) : user'.get? key = user.get? key := by
  have hsub : key ∉ subuserWhitelist := by
    revert key
    decide
  have hadmin : key ∉ adminWhitelist := by
    revert key
    decide
  cases h with
  | same => rfl
  | subuser _ h => exact h.get key hsub
  | admin _ h => exact h.get key hadmin

theorem AccountChange.identity {schoolId sessionUserId id : String} {before after : Option Json}
    (h : AccountChange schoolId sessionUserId id before after) {user user' : Json}
    (hb : before = some user) (ha : after = some user') {key : String}
    (hk : key ∈ ["role", "schoolId", "plan"]) : user'.get? key = user.get? key := by
  cases h with
  | absent => simp at hb
  | kept hedit =>
    obtain rfl := Option.some.inj hb
    obtain rfl := Option.some.inj ha
    exact hedit.identity hk
  | removed => simp at ha
  | added => simp at hb

theorem get?_withDeletedUsers {key : String} (h : key ≠ "deletedUsers") (doc : Json) :
    (withDeletedUsers doc).get? key = doc.get? key := by
  cases doc with
  | obj root =>
    simp only [withDeletedUsers, onObject, get?_obj]
    split
    · rfl
    · exact AssocList.lookup_assign_ne h _ _
  | _ => rfl

theorem withDeletedUsers_outside (doc : Json) :
    SameOutside sections doc (withDeletedUsers doc) := by
  refine FieldsOutside.onObject (fun root => ?_) doc
  split
  · exact .refl
  · exact .assign (by decide) _ _

/-- The section is there afterwards, empty if it was not there before. -/
theorem get?_deletedUsers {doc : Json} (h : doc.asObject ≠ none) :
    (withDeletedUsers doc).get? "deletedUsers" = some (tombstones doc) := by
  cases doc with
  | obj root =>
    simp only [withDeletedUsers, onObject, tombstones, get?_obj]
    cases hl : root.lookup "deletedUsers" with
    | none => simp
    | some items => simp [hl]
  | _ => simp [asObject] at h

theorem addTombstones_outside (tombstoneMillis : String → Nat) (ids : List String) (v : Json) :
    SameOutside ids v (addTombstones tombstoneMillis ids v) := by
  refine FieldsOutside.onObject (fun items => ?_) v
  have hfold : ∀ (rest : List String) (items : Fields), rest ⊆ ids →
      FieldsOutside ids items (rest.foldl (fun items id =>
        AssocList.assign id (.int (tombstoneMillis id)) items) items) := by
    intro rest
    induction rest with
    | nil => exact fun _ _ => .refl
    | cons id rest ih =>
      intro items hsub
      obtain ⟨hid, hrest⟩ := List.cons_subset.mp hsub
      exact (FieldsOutside.assign hid _ items).trans (ih _ hrest)
  exact hfold ids items (List.Subset.refl ids)

/-- The stored registry with the posted changes of the own school. -/
def withSchool (current : Json) (schoolId : String) (incomingSchool : Option Json) : Json :=
  match incomingSchool with
  | some school => current.update "schools" fun schools =>
      schools.update schoolId (updateSchoolAdminSchool school)
  | none => current

/-- And the merged accounts and the tombstones. -/
def withAccounts (merged : Json) (users : Fields) (gone : List String)
    (tombstoneMillis : String → Nat) : Json :=
  (withDeletedUsers (merged.update "users" fun _ => .obj users)).update "deletedUsers"
    (addTombstones tombstoneMillis gone)

/-- The merge in its four parts. -/
theorem merge_eq_some {current incoming session merged : Json} {nowMillis : Nat}
    {tombstoneMillis : String → Nat}
    (h : mergeSchoolAdminRegistry current incoming session nowMillis tombstoneMillis = some merged) :
    ∃ rawSchool rawUser users, strAt session "schoolId" = some rawSchool ∧
      strAt session "userId" = some rawUser ∧
      let schoolId := Text.trim rawSchool
      let sessionUserId := Text.trim rawUser
      let incomingSchool := (objectAt incoming "schools").bind (List.lookup schoolId)
      let merges := mergeUsers schoolId sessionUserId incoming users
      let accounts := withAccounts (withSchool current schoolId incomingSchool) merges.1 merges.2.1
        tombstoneMillis
      objectAt (withSchool current schoolId incomingSchool) "users" = some users ∧
      merged = if merges.2.2 then accounts.update "schools" fun schools =>
        schools.update schoolId (grantVerified incomingSchool nowMillis) else accounts := by
  unfold mergeSchoolAdminRegistry at h
  obtain ⟨rawSchool, hschool, h⟩ := Option.bind_eq_some_iff.mp h
  obtain ⟨rawUser, huser, h⟩ := Option.bind_eq_some_iff.mp h
  refine ⟨rawSchool, rawUser, ?_⟩
  simp only at h
  split at h
  · simp at h
  · obtain ⟨users, husers, h⟩ := Option.bind_eq_some_iff.mp h
    exact ⟨users, hschool, huser, husers, (Option.some.inj h).symm⟩

theorem get?_of_objectAt {doc : Json} {key : String} {fields : Fields}
    (h : objectAt doc key = some fields) : doc.get? key = some (.obj fields) := by
  obtain ⟨v, hv, hobject⟩ := Option.bind_eq_some_iff.mp h
  cases v with
  | obj fields' => exact hv.trans (congrArg (fun f => some (Json.obj f)) (Option.some.inj hobject))
  | _ => simp [asObject] at hobject

theorem asObject_of_get? {doc v : Json} {key : String} (h : doc.get? key = some v) :
    doc.asObject ≠ none := by
  intro hnone
  rw [get?, hnone] at h
  simp at h

section Parts
variable {merged : Json} {users : Fields} {gone : List String} {tombstoneMillis : String → Nat}

theorem withSchool_outside (current : Json) (schoolId : String) (incomingSchool : Option Json) :
    SameOutside ["schools"] current (withSchool current schoolId incomingSchool) := by
  cases incomingSchool with
  | none => exact .refl _ _
  | some school => exact .update _ _ _

theorem withSchool_frame (current : Json) (schoolId : String) (incomingSchool : Option Json) :
    SchoolFrame schoolId current (withSchool current schoolId incomingSchool) := by
  cases incomingSchool with
  | none => exact .of_eq rfl
  | some school => exact .update (updateSchoolAdminSchool_outside school)

theorem withAccounts_outside : SameOutside sections merged
    (withAccounts merged users gone tombstoneMillis) := by
  refine .trans ?_ ((SameOutside.update "deletedUsers" _ _).mono (by decide))
  exact ((SameOutside.update "users" _ _).mono (by decide)).trans (withDeletedUsers_outside _)

theorem withAccounts_schools : (withAccounts merged users gone tombstoneMillis).get? "schools" =
    merged.get? "schools" := by
  rw [withAccounts, get?_update_ne (by decide), get?_withDeletedUsers (by decide),
    get?_update_ne (by decide)]

theorem withAccounts_users {before : Json} (h : merged.get? "users" = some before) :
    (withAccounts merged users gone tombstoneMillis).get? "users" = some (.obj users) := by
  rw [withAccounts, get?_update_ne (by decide), get?_withDeletedUsers (by decide),
    get?_update_self, h]
  rfl

theorem withAccounts_tombstones {before : Json} (h : merged.get? "users" = some before) :
    SameOutside gone (tombstones merged)
      (tombstones (withAccounts merged users gone tombstoneMillis)) := by
  have hobject : (merged.update "users" fun _ => .obj users).asObject ≠ none :=
    asObject_of_get? (by rw [get?_update_self, h]; rfl)
  have hsection : tombstones (merged.update "users" fun _ => .obj users) = tombstones merged := by
    unfold tombstones
    rw [get?_update_ne (by decide)]
  have hget : (withAccounts merged users gone tombstoneMillis).get? "deletedUsers" =
      some (addTombstones tombstoneMillis gone (tombstones merged)) := by
    rw [withAccounts, get?_update_self, get?_deletedUsers hobject, hsection]
    rfl
  have hafter : tombstones (withAccounts merged users gone tombstoneMillis) =
      addTombstones tombstoneMillis gone (tombstones merged) := congrArg (·.getD (.obj [])) hget
  rw [hafter]
  exact addTombstones_outside tombstoneMillis gone _

end Parts

theorem accountAt_of_get? {doc : Json} {users : Fields}
    (h : doc.get? "users" = some (.obj users)) (id : String) :
    accountAt doc id = users.lookup id := by
  rw [accountAt, h]
  rfl

theorem mergeFrame_of_eq_some {current incoming session merged : Json} {nowMillis : Nat}
    {tombstoneMillis : String → Nat}
    (h : mergeSchoolAdminRegistry current incoming session nowMillis tombstoneMillis = some merged) :
    ∃ rawSchool rawUser, strAt session "schoolId" = some rawSchool ∧
      strAt session "userId" = some rawUser ∧
      MergeFrame (Text.trim rawSchool) (Text.trim rawUser) current merged := by
  obtain ⟨rawSchool, rawUser, users, hschool, huser, husers, hmerged⟩ := merge_eq_some h
  refine ⟨rawSchool, rawUser, hschool, huser, ?_⟩
  generalize Text.trim rawSchool = schoolId at husers hmerged ⊢
  generalize Text.trim rawUser = sessionUserId at husers hmerged ⊢
  generalize (objectAt incoming "schools").bind (List.lookup schoolId) = incomingSchool at husers hmerged
  have hstored := get?_of_objectAt husers
  have hbefore : current.get? "users" = some (.obj users) :=
    ((withSchool_outside ..).get "users" (by decide)).symm.trans hstored
  -- the last change reaches the own school only
  have hlast : ∃ accounts, accounts = withAccounts (withSchool current schoolId incomingSchool)
        (mergeUsers schoolId sessionUserId incoming users).1
        (mergeUsers schoolId sessionUserId incoming users).2.1 tombstoneMillis ∧
      SchoolFrame schoolId accounts merged ∧ SameOutside ["schools"] accounts merged := by
    refine ⟨_, rfl, ?_⟩
    rw [hmerged]
    split
    · exact ⟨.update (grantVerified_outside incomingSchool nowMillis), .update _ _ _⟩
    · exact ⟨.of_eq rfl, .refl _ _⟩
  obtain ⟨accounts, haccounts, hframe, houtside⟩ := hlast
  have hafter : merged.get? "users" =
      some (.obj (mergeUsers schoolId sessionUserId incoming users).1) := by
    rw [houtside.get "users" (by decide), haccounts]
    exact withAccounts_users hstored
  have hchange : ∀ id, AccountChange schoolId sessionUserId id (accountAt current id)
      (accountAt merged id) := by
    intro id
    rw [accountAt_of_get? hbefore, accountAt_of_get? hafter]
    exact mergeUsers_change schoolId sessionUserId incoming users id
  refine ⟨?_, ?_, hchange, fun id user user' hb ha key hk => (hchange id).identity hb ha hk, ?_, ?_⟩
  · refine ((withSchool_frame current schoolId incomingSchool).trans (.of_eq ?_)).trans hframe
    rw [haccounts]
    exact withAccounts_schools
  · refine (((withSchool_outside current schoolId incomingSchool).mono (by decide)).trans ?_).trans
      (houtside.mono (by decide))
    rw [haccounts]
    exact withAccounts_outside
  · intro id hfresh hadded
    rw [accountAt_of_get? hbefore] at hfresh
    rw [accountAt_of_get? hafter] at hadded
    have hcount : subusers merged schoolId =
        subuserCount schoolId (mergeUsers schoolId sessionUserId incoming users).1 := by
      rw [subusers, objectAt, hafter]
      rfl
    rw [hcount]
    exact mergeUsers_limit schoolId sessionUserId incoming users hfresh hadded
  · refine ⟨(mergeUsers schoolId sessionUserId incoming users).2.1, fun id hin => ?_, ?_⟩
    · rw [accountAt_of_get? hbefore, accountAt_of_get? hafter]
      exact mergeUsers_deleted schoolId sessionUserId incoming users hin
    · have hsame : tombstones (withSchool current schoolId incomingSchool) = tombstones current := by
        rw [tombstones, (withSchool_outside ..).get "deletedUsers" (by decide), tombstones]
      have hkept : tombstones merged = tombstones accounts := by
        rw [tombstones, houtside.get "deletedUsers" (by decide), tombstones]
      rw [hkept, haccounts, ← hsame]
      exact withAccounts_tombstones hstored

/-! ### Two posts -/

/-- An account that is neither a sub-user of the school nor the session's own. -/
def foreignAt (schoolId sessionUserId : String) (doc : Json) (id : String) : Option Json :=
  (accountAt doc id).filter fun user =>
    !isSubuser schoolId user && !isOwnAdmin schoolId sessionUserId id user

/-- Two registries agree outside what a session of the school may change. -/
structure SameRest (schoolId sessionUserId : String) (doc doc' : Json) : Prop
    extends SchoolFrame schoolId doc doc' where
  root : SameOutside sections doc doc'
  foreign : ∀ id, foreignAt schoolId sessionUserId doc' id = foreignAt schoolId sessionUserId doc id

theorem AccountChange.foreign {schoolId sessionUserId id : String} {before after : Option Json}
    (h : AccountChange schoolId sessionUserId id before after) :
    (after.filter fun user =>
        !isSubuser schoolId user && !isOwnAdmin schoolId sessionUserId id user) =
      before.filter fun user =>
        !isSubuser schoolId user && !isOwnAdmin schoolId sessionUserId id user := by
  cases h with
  | absent => rfl
  | kept hedit =>
    have hsub := hedit.isSubuser_eq
    have hadmin := hedit.isOwnAdmin_eq
    cases hedit with
    | same => rfl
    | subuser hs _ => simp [Option.filter, hsub, hs]
    | admin hs _ => simp [Option.filter, hadmin, hs]
  | removed hs => simp [Option.filter, hs]
  | added hs => simp [Option.filter, hs]

theorem MergeFrame.sameRest {schoolId sessionUserId : String} {current merged : Json}
    (h : MergeFrame schoolId sessionUserId current merged) :
    SameRest schoolId sessionUserId current merged :=
  ⟨h.toSchoolFrame, h.root, fun id => (h.accounts id).foreign⟩

theorem SameRest.of_common {schoolId sessionUserId : String} {doc doc' doc'' : Json}
    (h : SameRest schoolId sessionUserId doc doc') (h' : SameRest schoolId sessionUserId doc doc'') :
    SameRest schoolId sessionUserId doc' doc'' where
  others := optionRel_trans (optionRel_symm h.others) h'.others
  own := optionRel_trans (optionRel_symm h.own) h'.own
  root := h.root.symm.trans h'.root
  foreign := fun id => (h'.foreign id).trans (h.foreign id).symm

/-- The merge keeps to the frame of the session, and after any other post of the same session the
rest of the registry is the same. -/
theorem merge_frame {current incoming session merged : Json} {nowMillis : Nat}
    {tombstoneMillis : String → Nat}
    (h : mergeSchoolAdminRegistry current incoming session nowMillis tombstoneMillis = some merged) :
    ∃ rawSchool rawUser, strAt session "schoolId" = some rawSchool ∧
      strAt session "userId" = some rawUser ∧
      MergeFrame (Text.trim rawSchool) (Text.trim rawUser) current merged ∧
      ∀ incoming' nowMillis' tombstoneMillis' merged',
        mergeSchoolAdminRegistry current incoming' session nowMillis' tombstoneMillis' =
          some merged' →
        SameRest (Text.trim rawSchool) (Text.trim rawUser) merged merged' := by
  obtain ⟨rawSchool, rawUser, hschool, huser, hframe⟩ := mergeFrame_of_eq_some h
  refine ⟨rawSchool, rawUser, hschool, huser, hframe, fun _ _ _ merged' h' => ?_⟩
  obtain ⟨rawSchool', rawUser', hschool', huser', hframe'⟩ := mergeFrame_of_eq_some h'
  obtain rfl := Option.some.inj (hschool.symm.trans hschool')
  obtain rfl := Option.some.inj (huser.symm.trans huser')
  exact hframe.sameRest.of_common hframe'.sameRest

section Takeover

def storedRegistry : Json :=
  .obj [("schools", .obj [("s1", .obj [("plan", .str "free")]), ("s2", .obj [("plan", .str "ultra")])]),
    ("users", .obj [
      ("head1", .obj [("role", .str "school_admin"), ("schoolId", .str "s1")]),
      ("user2", .obj [("role", .str "school_user"), ("schoolId", .str "s2")])])]

/-- A post that claims an account of another school and deletes it. -/
def takeoverPost : Json :=
  .obj [("deletedUsers", .obj [("USER2", .int 1)]),
    ("schools", .obj [("s2", .obj [("plan", .str "free")])]),
    ("users", .obj [("user2", .obj [("role", .str "school_user"), ("schoolId", .str "s1")])])]

theorem merge_frame_takeover : ∃ merged,
    mergeSchoolAdminRegistry storedRegistry takeoverPost
      (.obj [("schoolId", .str "s1"), ("userId", .str "head1")]) 0 (fun _ => 0) = some merged ∧
    SameOutside ["s1"] (.obj [("s1", .obj [("plan", .str "free")]), ("s2", .obj [("plan", .str "ultra")])])
      ((merged.get? "schools").getD .null) := by
  obtain ⟨merged, h⟩ := Option.isSome_iff_exists.mp (show (mergeSchoolAdminRegistry storedRegistry
    takeoverPost (.obj [("schoolId", .str "s1"), ("userId", .str "head1")]) 0
    (fun _ => 0)).isSome = true from rfl)
  obtain ⟨rawSchool, rawUser, hschool, _, hframe, _⟩ := merge_frame h
  obtain rfl : "s1" = rawSchool := Option.some.inj hschool
  refine ⟨merged, h, ?_⟩
  have hothers := hframe.others
  generalize merged.get? "schools" = after at hothers
  cases hothers with
  | some hsame => exact hsame

end Takeover

end TkbCherry.Registry
