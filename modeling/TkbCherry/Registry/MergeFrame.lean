import TkbCherry.Registry.SchoolAdminMerge

/-!
# What a school administrator can change

The frame of the merge: outside the session's own school, its sub-users, the session's own
account and the tombstones of deleted sub-users, the registry is the stored one, whatever
document was posted.
-/

namespace TkbCherry.Registry

set_option autoImplicit false

open Json

/-- The fields of the own school that a post may change; the last five come with the plan that
a verified owner is granted. -/
def schoolWhitelist : List String :=
  schoolKeys ++ ["schedules", "activeSchedule"] ++
    ["verified", "trialUsed", "maxPlanPricingTier", "plan", "expiresAt"]

def subuserWhitelist : List String := userKeys ++ ["passwordHash", "active"]

def adminWhitelist : List String := userKeys ++ ["passwordHash", "emailVerified"]

/-! ### Fields -/

/-- Only the listed fields differ. -/
def FieldsOutside (keys : List String) (fields fields' : Fields) : Prop :=
  ∀ key, key ∉ keys → List.lookup key fields' = List.lookup key fields

namespace FieldsOutside
variable {keys : List String} {fields fields' fields'' : Fields}

theorem refl : FieldsOutside keys fields fields := fun _ _ => rfl

theorem trans (h : FieldsOutside keys fields fields') (h' : FieldsOutside keys fields' fields'') :
    FieldsOutside keys fields fields'' := fun key hk => (h' key hk).trans (h key hk)

theorem assign {key : String} (hk : key ∈ keys) (v : Json) (fields : Fields) :
    FieldsOutside keys fields (AssocList.assign key v fields) :=
  fun _ hother => AssocList.lookup_assign_ne (ne_of_mem_of_not_mem hk hother).symm v fields

theorem insertSome {key : String} {value : Option Json} (hk : value.isSome = true → key ∈ keys)
    (fields : Fields) : FieldsOutside keys fields (insertSome key value fields) := by
  cases value with
  | none => exact .refl
  | some v => exact assign (hk rfl) v fields

theorem copyStringField (source : Json) {key : String} (hk : key ∈ keys) (maxLen : Nat)
    (fields : Fields) : FieldsOutside keys fields (copyStringField source fields key maxLen) :=
  insertSome (fun _ => hk) fields

theorem copyStringFields (source : Json) {copied : List String} (hk : copied ⊆ keys)
    (fields : Fields) : FieldsOutside keys fields (copyStringFields source copied fields) := by
  unfold Registry.copyStringFields
  induction copied generalizing fields with
  | nil => exact .refl
  | cons key rest ih =>
    obtain ⟨hkey, hrest⟩ := List.cons_subset.mp hk
    exact (copyStringField source hkey 512 fields).trans (ih hrest _)

theorem onObject {f : Fields → Fields} (h : ∀ fields, FieldsOutside keys fields (f fields))
    (v : Json) : SameOutside keys v (onObject f v) := by
  cases v with
  | obj fields => exact .of_fields (h fields)
  | _ => exact .refl _ _

end FieldsOutside

/-- The fields of the own school that a post carries itself. -/
def postedSchoolKeys : List String := schoolKeys ++ ["schedules", "activeSchedule"]

theorem updateSchoolAdminSchool_posted (incoming school : Json) :
    SameOutside postedSchoolKeys school (updateSchoolAdminSchool incoming school) := by
  refine FieldsOutside.onObject (fun target => ?_) school
  have hcopied : FieldsOutside postedSchoolKeys target (copyStringFields incoming schoolKeys target) :=
    .copyStringFields incoming (by simp [postedSchoolKeys]) target
  exact (hcopied.trans (.insertSome (fun _ => by decide) _)).trans
    (.insertSome (fun _ => by decide) _)

theorem updateSchoolAdminSchool_outside (incoming school : Json) :
    SameOutside schoolWhitelist school (updateSchoolAdminSchool incoming school) :=
  (updateSchoolAdminSchool_posted incoming school).mono (by decide)

theorem grantVerified_outside (incoming : Option Json) (now : Nat) (school : Json) :
    SameOutside schoolWhitelist school (grantVerified incoming now school) := by
  refine FieldsOutside.onObject (fun fields => ?_) school
  have hverified : FieldsOutside schoolWhitelist fields
      (AssocList.assign "verified" (.bool true) fields) := .assign (by decide) _ _
  simp only
  split
  · exact hverified.trans (.assign (by decide) _ _)
  · split
    · split
      · exact hverified
      · refine (hverified.trans ?_).trans (((FieldsOutside.assign (by decide) _ _).trans
          (.assign (by decide) _ _)).trans (.assign (by decide) _ _))
        split
        · exact .assign (by decide) _ _
        · exact .refl
    · exact hverified

theorem updateSchoolUserRecord_outside {keys : List String} (incoming user : Json)
    {allowActive allowEmailVerification : Bool} (huser : userKeys ⊆ keys)
    (hhash : "passwordHash" ∈ keys) (hactive : allowActive = true → "active" ∈ keys)
    (hverified : allowEmailVerification = true → "emailVerified" ∈ keys) :
    SameOutside keys user
      (updateSchoolUserRecord incoming allowActive allowEmailVerification user) := by
  refine FieldsOutside.onObject (fun target => ?_) user
  have hcopied : FieldsOutside keys target (copyStringFields incoming userKeys target) :=
    .copyStringFields incoming huser target
  refine ((hcopied.trans (.insertSome (fun _ => hhash) _)).trans (.insertSome ?_ _)).trans
    (.insertSome ?_ _)
  · intro h
    rw [Option.isSome_map, Option.isSome_filter, Option.any_eq_true] at h
    obtain ⟨_, _, hallow⟩ := h
    exact hactive hallow
  · intro h
    rw [Option.isSome_map, Option.isSome_filter, Option.any_eq_true] at h
    obtain ⟨_, _, hallow⟩ := h
    exact hverified (Bool.and_eq_true_iff.mp hallow).1

/-! ### Accounts -/

section Accounts
variable {schoolId sessionUserId id : String} {user user' user'' : Json} {keys : List String}

/-- The session's own account. -/
def isOwnAdmin (schoolId sessionUserId id : String) (user : Json) : Bool :=
  decide (strAt user "schoolId" = some schoolId) &&
    decide (strAt user "role" = some "school_admin") && decide (id = sessionUserId)

/-- How an account that stays may differ after the merge. -/
inductive AccountEdit (schoolId sessionUserId id : String) (user : Json) : Json → Prop where
  | same : AccountEdit schoolId sessionUserId id user user
  | subuser {user' : Json} : isSubuser schoolId user = true →
      SameOutside subuserWhitelist user user' → AccountEdit schoolId sessionUserId id user user'
  | admin {user' : Json} : isOwnAdmin schoolId sessionUserId id user = true →
      SameOutside adminWhitelist user user' → AccountEdit schoolId sessionUserId id user user'

/-- What may happen to the account under an id. -/
inductive AccountChange (schoolId sessionUserId id : String) : Option Json → Option Json → Prop where
  | absent : AccountChange schoolId sessionUserId id none none
  | kept {user user' : Json} : AccountEdit schoolId sessionUserId id user user' →
      AccountChange schoolId sessionUserId id (some user) (some user')
  | removed {user : Json} : isSubuser schoolId user = true →
      AccountChange schoolId sessionUserId id (some user) none
  | added {user : Json} : isSubuser schoolId user = true →
      AccountChange schoolId sessionUserId id none (some user)

theorem strAt_eq {key : String} (h : SameOutside keys user user') (hk : key ∉ keys) :
    strAt user' key = strAt user key := by
  unfold strAt
  rw [h.get key hk]

theorem isSubuser_eq (h : SameOutside keys user user') (hs : "schoolId" ∉ keys)
    (hr : "role" ∉ keys) : isSubuser schoolId user' = isSubuser schoolId user := by
  unfold isSubuser
  rw [strAt_eq h hs, strAt_eq h hr]

theorem isOwnAdmin_eq (h : SameOutside keys user user') (hs : "schoolId" ∉ keys)
    (hr : "role" ∉ keys) :
    isOwnAdmin schoolId sessionUserId id user' = isOwnAdmin schoolId sessionUserId id user := by
  unfold isOwnAdmin
  rw [strAt_eq h hs, strAt_eq h hr]

/-- An account is a sub-user or the administrator, not both. -/
theorem not_isOwnAdmin_of_isSubuser (h : isSubuser schoolId user = true) :
    isOwnAdmin schoolId sessionUserId id user = false := by
  simp only [isSubuser, Bool.and_eq_true, decide_eq_true_eq] at h
  simp [isOwnAdmin, h.2]

namespace AccountEdit

theorem isSubuser_eq (h : AccountEdit schoolId sessionUserId id user user') :
    isSubuser schoolId user' = isSubuser schoolId user := by
  cases h with
  | same => rfl
  | subuser _ h => exact Registry.isSubuser_eq h (by decide) (by decide)
  | admin _ h => exact Registry.isSubuser_eq h (by decide) (by decide)

theorem isOwnAdmin_eq (h : AccountEdit schoolId sessionUserId id user user') :
    isOwnAdmin schoolId sessionUserId id user' = isOwnAdmin schoolId sessionUserId id user := by
  cases h with
  | same => rfl
  | subuser _ h => exact Registry.isOwnAdmin_eq h (by decide) (by decide)
  | admin _ h => exact Registry.isOwnAdmin_eq h (by decide) (by decide)

theorem trans (h : AccountEdit schoolId sessionUserId id user user')
    (h' : AccountEdit schoolId sessionUserId id user' user'') :
    AccountEdit schoolId sessionUserId id user user'' := by
  have hsub := h.isSubuser_eq
  have hadmin := h.isOwnAdmin_eq
  cases h with
  | same => exact h'
  | subuser hs hfields =>
    cases h' with
    | same => exact .subuser hs hfields
    | subuser _ hfields' => exact .subuser hs (hfields.trans hfields')
    | admin hs' _ =>
      rw [hadmin, not_isOwnAdmin_of_isSubuser hs] at hs'
      exact absurd hs' (by simp)
  | admin hs hfields =>
    cases h' with
    | same => exact .admin hs hfields
    | subuser hs' _ =>
      rw [hsub] at hs'
      rw [not_isOwnAdmin_of_isSubuser hs'] at hs
      exact absurd hs (by simp)
    | admin _ hfields' => exact .admin hs (hfields.trans hfields')

end AccountEdit

theorem rel_refl (account : Option Json) :
    Option.Rel (AccountEdit schoolId sessionUserId id) account account := by
  cases account with
  | none => exact .none
  | some user => exact .some .same

theorem rel_none {after : Option Json}
    (h : Option.Rel (AccountEdit schoolId sessionUserId id) none after) : after = none := by
  cases h
  rfl

theorem rel_trans {first middle last : Option Json}
    (h : Option.Rel (AccountEdit schoolId sessionUserId id) first middle)
    (h' : Option.Rel (AccountEdit schoolId sessionUserId id) middle last) :
    Option.Rel (AccountEdit schoolId sessionUserId id) first last := by
  cases h with
  | none => exact h'
  | some hfirst =>
    cases h' with
    | some hsecond => exact .some (hfirst.trans hsecond)

theorem strAt_of_getD {v : Json} {key value : String} (h : (strAt v key).getD "" = value)
    (hne : value ≠ "") : strAt v key = some value := by
  cases hv : strAt v key with
  | none =>
    rw [hv] at h
    exact absurd h.symm hne
  | some s =>
    rw [hv] at h
    exact congrArg some h

/-- The edit of one posted account. -/
theorem editUser_edit (schoolId sessionUserId : String) (acc : Fields × Bool)
    (incoming : String × Json) (id : String) :
    Option.Rel (AccountEdit schoolId sessionUserId id) (acc.1.lookup id)
      ((editUser schoolId sessionUserId acc incoming).1.lookup id) := by
  unfold editUser
  split
  · exact rel_refl _
  · rename_i existing hl
    split
    · exact rel_refl _
    · rename_i hschool
      have hschool : strAt existing "schoolId" = some schoolId := not_not.mp hschool
      simp only
      split
      · rename_i hmay
        rw [AssocList.lookup_modify]
        split
        · rename_i hid
          subst hid
          rw [hl, Option.map_some]
          refine .some ?_
          rw [Bool.or_eq_true, Bool.and_eq_true, decide_eq_true_eq, decide_eq_true_eq,
            decide_eq_true_eq] at hmay
          rcases hmay with hrole | ⟨hrole, hown⟩
          · have hs := strAt_of_getD hrole (by decide)
            refine .subuser (by simp [isSubuser, hschool, hs]) ?_
            refine updateSchoolUserRecord_outside _ _ (by simp [subuserWhitelist]) (by decide)
              (fun _ => by decide) fun h => ?_
            rw [hrole] at h
            simp at h
          · have hs := strAt_of_getD hrole (by decide)
            refine .admin (by simp [isOwnAdmin, hschool, hs, hown]) ?_
            refine updateSchoolUserRecord_outside _ _ (by simp [adminWhitelist]) (by decide)
              (fun h => ?_) fun _ => by decide
            rw [hrole] at h
            simp at h
        · exact rel_refl _
      · exact rel_refl _

theorem editUsers_edit (schoolId sessionUserId : String) (incoming : Fields) (acc : Fields × Bool)
    (id : String) : Option.Rel (AccountEdit schoolId sessionUserId id) (acc.1.lookup id)
      ((incoming.foldl (editUser schoolId sessionUserId) acc).1.lookup id) := by
  induction incoming generalizing acc with
  | nil => exact rel_refl _
  | cons entry rest ih =>
    exact rel_trans (editUser_edit schoolId sessionUserId acc entry id)
      (ih (editUser schoolId sessionUserId acc entry))

/-! ### Deleted and new accounts -/

/-- What the first pass has done: the authorized ids were sub-users, and are gone. -/
structure Deleted (schoolId : String) (users : Fields) (acc : Fields × List String) : Prop where
  lookup : ∀ id, acc.1.lookup id = if id ∈ acc.2 then none else users.lookup id
  authorized : ∀ id ∈ acc.2, ∃ user, users.lookup id = some user ∧ isSubuser schoolId user = true

theorem Deleted.deleteUser {users : Fields} {acc : Fields × List String}
    (h : Deleted schoolId users acc) (id : String) :
    Deleted schoolId users (deleteUser schoolId acc id) := by
  unfold Registry.deleteUser
  split
  · rename_i hany
    obtain ⟨user, hl, hs⟩ := (Option.any_eq_true _ _).mp hany
    have hbefore := h.lookup id
    rw [hl] at hbefore
    refine ⟨fun other => ?_, fun other hin => ?_⟩
    · rcases eq_or_ne other id with rfl | hne
      · rw [AssocList.lookup_unset_self, if_pos List.mem_cons_self]
      · rw [AssocList.lookup_unset_ne hne, h.lookup other]
        simp only [List.mem_cons, hne, false_or]
    · rcases List.mem_cons.mp hin with rfl | hin
      · split at hbefore
        · exact absurd hbefore (by simp)
        · exact ⟨user, hbefore.symm, hs⟩
      · exact h.authorized other hin
  · exact h

theorem deleteUsers_deleted (schoolId : String) (users : Fields) (ids : List String) :
    Deleted schoolId users (ids.foldl (deleteUser schoolId) (users, [])) := by
  have hfold : ∀ acc, Deleted schoolId users acc →
      Deleted schoolId users (ids.foldl (deleteUser schoolId) acc) := by
    induction ids with
    | nil => exact fun _ h => h
    | cons id rest ih => exact fun acc h => ih _ (h.deleteUser id)
  exact hfold _ ⟨fun id => by simp, fun id hin => absurd hin List.not_mem_nil⟩

theorem newSchoolUserRecord_isSubuser {id : String} {incoming user : Json}
    (h : newSchoolUserRecord id schoolId incoming = some user) :
    isSubuser schoolId user = true := by
  unfold newSchoolUserRecord at h
  split at h
  · simp at h
  · obtain ⟨hash, _, h⟩ := Option.bind_eq_some_iff.mp h
    split at h
    · obtain rfl := Option.some.inj h
      have hrest : ∀ (base : Fields) (active : Json), FieldsOutside
          ("passwordHash" :: "active" :: "emailVerified" :: newUserKeys) base
          (AssocList.assign "emailVerified" (.bool true) (AssocList.assign "active" active
            (copyStringFields incoming newUserKeys
              (AssocList.assign "passwordHash" (.str (Text.trim hash)) base)))) :=
        fun base active => (((FieldsOutside.assign (by decide) _ base).trans
          (.copyStringFields incoming (by decide) _)).trans (.assign (by decide) _ _)).trans
          (.assign (by decide) _ _)
      rw [isSubuser_eq (.of_fields (hrest _ _)) (by decide) (by decide)]
      simp [isSubuser, strAt, AssocList.lookup_assign_ne, asStr]
    · simp at h

theorem subuserCount_assign {users : Fields} {id : String} {user : Json}
    (hfresh : users.lookup id = none) (hs : isSubuser schoolId user = true) :
    subuserCount schoolId (AssocList.assign id user users) = subuserCount schoolId users + 1 := by
  have hperm := (AssocList.assign_perm hfresh user).filter fun e => isSubuser schoolId e.2
  unfold subuserCount
  rw [hperm.length_eq, List.filter_cons, if_pos hs, List.length_cons]

/-- The third pass only adds, and stops at five sub-users. -/
theorem addUsers_spec (schoolId : String) (authorized : List String) (users incoming : Fields) :
    (∀ id, (addUsers schoolId authorized (subuserCount schoolId users) users incoming).lookup id =
        users.lookup id ∨ (users.lookup id = none ∧ id ∉ authorized ∧ ∃ user,
      (addUsers schoolId authorized (subuserCount schoolId users) users incoming).lookup id =
        some user ∧ isSubuser schoolId user = true)) ∧
    (addUsers schoolId authorized (subuserCount schoolId users) users incoming = users ∨
      subuserCount schoolId
        (addUsers schoolId authorized (subuserCount schoolId users) users incoming) ≤ 5) := by
  induction incoming generalizing users with
  | nil => exact ⟨fun id => .inl rfl, .inl rfl⟩
  | cons entry rest ih =>
    obtain ⟨rawId, incomingUser⟩ := entry
    unfold addUsers
    split
    · exact ⟨fun id => .inl rfl, .inl rfl⟩
    · rename_i hcount
      split
      · exact ih users
      · rename_i id _
        split
        · exact ih users
        · rename_i hknown
          simp only [Bool.or_eq_true, decide_eq_true_eq, not_or, Option.not_isSome_iff_eq_none]
            at hknown
          obtain ⟨hfresh, hnot⟩ := hknown
          split
          · exact ih users
          · rename_i user hnew
            have hs := newSchoolUserRecord_isSubuser hnew
            have hadd := subuserCount_assign hfresh hs
            rw [← hadd]
            obtain ⟨hlookup, hlimit⟩ := ih (AssocList.assign id user users)
            refine ⟨fun other => ?_, ?_⟩
            · rcases eq_or_ne other id with rfl | hne
              · have h := hlookup other
                rw [AssocList.lookup_assign_self] at h
                rcases h with h | ⟨h, _⟩
                · exact .inr ⟨hfresh, hnot, user, h, hs⟩
                · exact absurd h (by simp)
              · have h := hlookup other
                rwa [AssocList.lookup_assign_ne hne] at h
            · rcases hlimit with heq | hle
              · right
                rw [heq, hadd]
                omega
              · exact .inr hle

/-- One account through the three passes: deleted or left, edited, added. -/
theorem AccountChange.of_passes {before deleted edited after : Option Json} {gone : Prop}
    (hdeleted : (gone ∧ deleted = none ∧ ∃ user, before = some user ∧
      isSubuser schoolId user = true) ∨ (¬ gone ∧ deleted = before))
    (hedited : Option.Rel (AccountEdit schoolId sessionUserId id) deleted edited)
    (hadded : after = edited ∨ (edited = none ∧ ¬ gone ∧ ∃ user, after = some user ∧
      isSubuser schoolId user = true)) :
    AccountChange schoolId sessionUserId id before after := by
  rcases hdeleted with ⟨hgone, rfl, user, rfl, hs⟩ | ⟨_, rfl⟩
  · cases hedited
    rcases hadded with rfl | ⟨_, hnot, _⟩
    · exact .removed hs
    · exact absurd hgone hnot
  · cases hedited with
    | none =>
      rcases hadded with rfl | ⟨_, _, user, rfl, hs⟩
      · exact .absent
      · exact .added hs
    | some hedit =>
      rcases hadded with rfl | ⟨hnone, _⟩
      · exact .kept hedit
      · exact absurd hnone (by simp)

section Passes
variable (schoolId sessionUserId : String) (incoming : Json) (users : Fields)

/-- The three passes, account by account. -/
theorem mergeUsers_change (id : String) :
    AccountChange schoolId sessionUserId id (users.lookup id)
      ((mergeUsers schoolId sessionUserId incoming users).1.lookup id) := by
  have hdeleted := deleteUsers_deleted schoolId users (deletedIds incoming)
  have hpass : (id ∈ ((deletedIds incoming).foldl (deleteUser schoolId) (users, [])).2 ∧
        ((deletedIds incoming).foldl (deleteUser schoolId) (users, [])).1.lookup id = none ∧
        ∃ user, users.lookup id = some user ∧ isSubuser schoolId user = true) ∨
      (id ∉ ((deletedIds incoming).foldl (deleteUser schoolId) (users, [])).2 ∧
        ((deletedIds incoming).foldl (deleteUser schoolId) (users, [])).1.lookup id =
          users.lookup id) := by
    have hlookup := hdeleted.lookup id
    split at hlookup
    · rename_i hin
      exact .inl ⟨hin, hlookup, hdeleted.authorized id hin⟩
    · rename_i hnot
      exact .inr ⟨hnot, hlookup⟩
  have hedited := editUsers_edit schoolId sessionUserId ((objectAt incoming "users").getD [])
    (((deletedIds incoming).foldl (deleteUser schoolId) (users, [])).1, false) id
  exact .of_passes hpass hedited ((addUsers_spec schoolId _ _ _).1 id)

theorem mergeUsers_deleted {id : String}
    (hin : id ∈ (mergeUsers schoolId sessionUserId incoming users).2.1) :
    (∃ user, users.lookup id = some user ∧ isSubuser schoolId user = true) ∧
      (mergeUsers schoolId sessionUserId incoming users).1.lookup id = none := by
  have hdeleted := deleteUsers_deleted schoolId users (deletedIds incoming)
  refine ⟨hdeleted.authorized id hin, ?_⟩
  have hgone := (hdeleted.lookup id).trans (if_pos hin)
  have hedited := editUsers_edit schoolId sessionUserId ((objectAt incoming "users").getD [])
    (((deletedIds incoming).foldl (deleteUser schoolId) (users, [])).1, false) id
  simp only [hgone] at hedited
  rcases (addUsers_spec schoolId _ _ ((objectAt incoming "users").getD [])).1 id with
    hkept | ⟨_, hnot, _⟩
  · exact hkept.trans (rel_none hedited)
  · exact absurd hin hnot

/-- An account is only added while the school has less than five sub-users. -/
theorem mergeUsers_limit {id : String} (hfresh : users.lookup id = none)
    (hadded : (mergeUsers schoolId sessionUserId incoming users).1.lookup id ≠ none) :
    subuserCount schoolId (mergeUsers schoolId sessionUserId incoming users).1 ≤ 5 := by
  have hdeleted := deleteUsers_deleted schoolId users (deletedIds incoming)
  have hgone := hdeleted.lookup id
  rw [hfresh, ite_self] at hgone
  have hedited := editUsers_edit schoolId sessionUserId ((objectAt incoming "users").getD [])
    (((deletedIds incoming).foldl (deleteUser schoolId) (users, [])).1, false) id
  simp only [hgone] at hedited
  rcases (addUsers_spec schoolId _ _ ((objectAt incoming "users").getD [])).2 with heq | hle
  · exact absurd ((congrArg (List.lookup id) heq).trans (rel_none hedited)) hadded
  · exact hle

end Passes

end Accounts

end TkbCherry.Registry
