import TkbCherry.Registry.RegistryFrame
import TkbCherry.Registry.Accounts
import TkbCherry.Lib.Transition

/-!
# The plan that a school administrator can get

A post may move a school from the free plan to a trial plan once: `trialUsed` is raised with the
move and nothing a post does lowers it.
-/

namespace TkbCherry.Registry

set_option autoImplicit false

open Text Json

/-- The fields that say which plan a school has. -/
def planKeys : List String := ["plan", "expiresAt", "trialUsed"]

/-- The plan by its name; a school without one is free. -/
def planName (school : Json) : String :=
  toAsciiLowercase (trim ((strAt school "plan").getD "free"))

/-! ### One school -/

/-- A move to a trial plan, with an expiry that the clock of the post allows. -/
structure Granted (now : Nat) (school school' : Json) : Prop where
  free : planName school = "free"
  unused : boolAt school "trialUsed" ≠ some true
  plan : strAt school' "plan" = some "max2" ∨ strAt school' "plan" = some "trial"
  expiry : ∃ raw millis, strAt school' "expiresAt" = some raw ∧ planExpiryMillis raw = some millis ∧
    now < millis ∧ millis ≤ now + 366 * 24 * 60 * 60 * 1000
  used : boolAt school' "trialUsed" = some true

/-- What a post can do to the plan of the own school. -/
inductive PlanChange (now : Nat) (school school' : Json) : Prop where
  | kept : (∀ key ∈ planKeys, school'.get? key = school.get? key) → PlanChange now school school'
  | marked : planName school = "trial" → (∀ key ∈ ["plan", "expiresAt"],
      school'.get? key = school.get? key) → school'.get? "trialUsed" = some (.bool true) →
      PlanChange now school school'
  | granted : Granted now school school' → PlanChange now school school'

theorem requestedGrant_spec {incoming : Option Json} {now : Nat} {plan raw : String}
    (h : requestedGrant incoming now = some (plan, raw)) :
    (plan = "max2" ∨ plan = "trial") ∧ ∃ millis, planExpiryMillis raw = some millis ∧
      now < millis ∧ millis ≤ now + 366 * 24 * 60 * 60 * 1000 := by
  unfold requestedGrant at h
  obtain ⟨value, _, h⟩ := Option.bind_eq_some_iff.mp h
  obtain ⟨rawPlan, _, h⟩ := Option.bind_eq_some_iff.mp h
  dsimp only at h
  generalize toAsciiLowercase (trim rawPlan) = name at h
  by_cases hplan : name ≠ "max2" ∧ name ≠ "trial"
  · rw [if_pos hplan] at h
    exact absurd h (by simp)
  rw [if_neg hplan] at h
  obtain ⟨rawExpiry, _, h⟩ := Option.bind_eq_some_iff.mp h
  obtain ⟨millis, hmillis, h⟩ := Option.bind_eq_some_iff.mp h
  by_cases hbound : millis > now ∧ millis ≤ min (now + maxGrantMs) (2 ^ 64 - 1)
  · rw [if_pos hbound] at h
    obtain ⟨rfl, rfl⟩ := Prod.mk.inj (Option.some.inj h)
    refine ⟨?_, millis, hmillis, hbound.1, le_trans hbound.2 (min_le_left _ _)⟩
    by_contra hneither
    exact hplan (not_or.mp hneither)
  · rw [if_neg hbound] at h
    exact absurd h (by simp)

theorem get?_assign_ne {key other : String} (h : other ≠ key) (v : Json) (fields : Fields) :
    (Json.obj (AssocList.assign key v fields)).get? other = (Json.obj fields).get? other :=
  AssocList.lookup_assign_ne h v fields

theorem get?_assign_self (key : String) (v : Json) (fields : Fields) :
    (Json.obj (AssocList.assign key v fields)).get? key = some v :=
  AssocList.lookup_assign_self key v fields

theorem strAt_congr {v w : Json} {key : String} (h : v.get? key = w.get? key) :
    strAt v key = strAt w key := by
  unfold strAt
  rw [h]

theorem boolAt_congr {v w : Json} {key : String} (h : v.get? key = w.get? key) :
    boolAt v key = boolAt w key := by
  unfold boolAt
  rw [h]

/-- The grant, branch by branch. -/
theorem grantVerified_change (incoming : Option Json) (now : Nat) (school : Json) :
    PlanChange now school (grantVerified incoming now school) := by
  cases school with
  | obj fields =>
    have hverified : ∀ key ∈ planKeys,
        (Json.obj (AssocList.assign "verified" (.bool true) fields)).get? key =
          (Json.obj fields).get? key := by
      intro key hkey
      apply get?_assign_ne
      rintro rfl
      exact absurd hkey (by decide)
    unfold grantVerified onObject
    dsimp only
    generalize hbase : AssocList.assign "verified" (.bool true) fields = base at hverified ⊢
    have hname : toAsciiLowercase (trim ((strAt (.obj base) "plan").getD "free")) =
        planName (.obj fields) := by
      unfold planName
      rw [strAt_congr (hverified "plan" (by decide))]
    rw [hname, boolAt_congr (hverified "trialUsed" (by decide))]
    by_cases htrial : planName (.obj fields) = "trial"
    · rw [if_pos htrial]
      refine .marked htrial ?_ (get?_assign_self _ _ _)
      intro key hkey
      rw [get?_assign_ne, hverified key]
      · exact List.mem_append_left ["trialUsed"] hkey
      · rintro rfl
        exact absurd hkey (by decide)
    rw [if_neg htrial]
    by_cases hfree : planName (.obj fields) = "free" ∧ boolAt (.obj fields) "trialUsed" ≠ some true
    · rw [if_pos hfree]
      cases hgrant : requestedGrant incoming now with
      | none => exact .kept hverified
      | some grant =>
        obtain ⟨plan, raw⟩ := grant
        obtain ⟨hplan, millis, hmillis, hbound⟩ := requestedGrant_spec hgrant
        refine .granted ⟨hfree.1, hfree.2, ?_, ⟨raw, millis, ?_, hmillis, hbound⟩, ?_⟩
        · have hget : strAt (.obj (AssocList.assign "trialUsed" (.bool true) (AssocList.assign
              "expiresAt" (.str raw) (AssocList.assign "plan" (.str plan) (if plan = "max2"
                then AssocList.assign "maxPlanPricingTier" (.str "from-40-classes") base
                else base))))) "plan" = some plan := by
            unfold strAt
            rw [get?_assign_ne (by decide), get?_assign_ne (by decide), get?_assign_self]
            rfl
          dsimp only
          rw [hget]
          exact hplan.imp (congrArg some) (congrArg some)
        · unfold strAt
          dsimp only
          rw [get?_assign_ne (by decide), get?_assign_self]
          rfl
        · unfold boolAt
          dsimp only
          rw [get?_assign_self]
          rfl
    · rw [if_neg hfree]
      exact .kept hverified
  | _ => exact .kept fun _ _ => rfl

/-- The posted fields leave the plan alone, before and after. -/
theorem PlanChange.of_posted {now : Nat} {school posted school' : Json}
    (h : SameOutside postedSchoolKeys school posted) (hc : PlanChange now posted school') :
    PlanChange now school school' := by
  have hsame : ∀ key ∈ planKeys, posted.get? key = school.get? key := by
    intro key hkey
    apply h.get
    revert key
    decide
  have hname : planName posted = planName school := by
    unfold planName
    rw [strAt_congr (hsame "plan" (by decide))]
  have hused := boolAt_congr (hsame "trialUsed" (by decide))
  cases hc with
  | kept hkept => exact .kept fun key hkey => (hkept key hkey).trans (hsame key hkey)
  | marked htrial hkept hmarked =>
    exact .marked (hname ▸ htrial) (fun key hkey => (hkept key hkey).trans
      (hsame key (List.mem_append_left ["trialUsed"] hkey))) hmarked
  | granted hgrant =>
    exact .granted ⟨hname ▸ hgrant.free, hused ▸ hgrant.unused, hgrant.plan, hgrant.expiry,
      hgrant.used⟩

/-! ### The session's own account -/

/-- An administrator of the school whose e-mail is verified. -/
structure VerifiedAdmin (schoolId : String) (user : Json) : Prop where
  school : strAt user "schoolId" = some schoolId
  role : strAt user "role" = some "school_admin"
  verified : boolAt user "emailVerified" = some true

section Owner
variable {schoolId sessionUserId : String}

theorem editUser_owner {acc : Fields × Bool} (incoming : String × Json)
    (h : acc.2 = true → ∃ user, acc.1.lookup sessionUserId = some user ∧
      VerifiedAdmin schoolId user) :
    (editUser schoolId sessionUserId acc incoming).2 = true →
      ∃ user, (editUser schoolId sessionUserId acc incoming).1.lookup sessionUserId = some user ∧
        VerifiedAdmin schoolId user := by
  unfold editUser
  split
  · exact h
  · rename_i existing hexisting
    split
    · exact h
    · rename_i hschool
      have hschool : strAt existing "schoolId" = some schoolId := not_not.mp hschool
      dsimp only
      split
      · rename_i hmay
        by_cases hown : incoming.1 = sessionUserId
        · subst hown
          by_cases hrole : (strAt existing "role").getD "" = "school_admin"
          · simp only [hrole, decide_true, Bool.and_self, if_true, decide_eq_true_eq]
            intro hverified
            refine ⟨_, by rw [AssocList.lookup_modify, if_pos rfl, hexisting]; rfl, ?_⟩
            have houtside : SameOutside adminWhitelist existing
                (updateSchoolUserRecord incoming.2 (decide ("school_admin" = "school_user")) true
                  existing) :=
              updateSchoolUserRecord_outside _ _ (by simp [adminWhitelist]) (by decide)
                (fun hno => absurd hno (by decide)) fun _ => by decide
            refine ⟨(strAt_eq houtside (by decide)).trans hschool, ?_, hverified⟩
            exact (strAt_eq houtside (by decide)).trans (strAt_of_getD hrole (by decide))
          · -- a sub-user's record under the session's own id: no administrator was found there
            simp only [hrole, decide_false, Bool.false_and, Bool.false_eq_true, if_false]
            intro hflag
            obtain ⟨user, huser, hadmin⟩ := h hflag
            obtain rfl := Option.some.inj (hexisting.symm.trans huser)
            exact absurd (by rw [hadmin.role]; rfl) hrole
        · simp only [hown, decide_false, Bool.and_false, Bool.false_eq_true, if_false]
          rw [AssocList.lookup_modify, if_neg (Ne.symm hown)]
          exact h
      · exact h

/-- The flag says that the session's own account is verified, in the merged registry. -/
theorem mergeUsers_owner (incoming : Json) (users : Fields)
    (h : (mergeUsers schoolId sessionUserId incoming users).2.2 = true) :
    ∃ user, (mergeUsers schoolId sessionUserId incoming users).1.lookup sessionUserId = some user ∧
      VerifiedAdmin schoolId user := by
  have hfold : ∀ (posted : Fields) (acc : Fields × Bool),
      (acc.2 = true → ∃ user, acc.1.lookup sessionUserId = some user ∧
        VerifiedAdmin schoolId user) →
      (posted.foldl (editUser schoolId sessionUserId) acc).2 = true →
        ∃ user, (posted.foldl (editUser schoolId sessionUserId) acc).1.lookup sessionUserId =
          some user ∧ VerifiedAdmin schoolId user := by
    intro posted
    induction posted with
    | nil => exact fun _ h => h
    | cons entry rest ih => exact fun acc h => ih _ (editUser_owner entry h)
  obtain ⟨user, huser, hadmin⟩ := hfold ((objectAt incoming "users").getD [])
    (((deletedIds incoming).foldl (deleteUser schoolId) (users, [])).1, false)
    (fun hno => absurd hno (by simp)) h
  refine ⟨user, ?_, hadmin⟩
  rcases (addUsers_spec schoolId _ _ ((objectAt incoming "users").getD [])).1 sessionUserId with
    hkept | ⟨hnone, _⟩
  · exact hkept.trans huser
  · exact absurd (huser.symm.trans hnone) (by simp)

end Owner

/-! ### One post -/

/-- The plan is the same, with everything that belongs to it. -/
def SamePlan (school school' : Json) : Prop := ∀ key ∈ planKeys, school'.get? key = school.get? key

theorem samePlan_refl (school : Option Json) : Option.Rel SamePlan school school := by
  cases school with
  | none => exact .none
  | some school => exact .some fun _ _ => rfl

section Merge
variable {current incoming session merged : Json} {nowMillis : Nat} {tombstoneMillis : String → Nat}

theorem schoolAt_update_self (doc : Json) (schoolId : String) (f : Json → Json) :
    schoolAt (doc.update "schools" fun schools => schools.update schoolId f) schoolId =
      (schoolAt doc schoolId).map f := by
  unfold schoolAt
  rw [get?_update_self]
  cases doc.get? "schools" with
  | none => rfl
  | some schools => exact get?_update_self schoolId f schools

theorem schoolAt_update_ne {schoolId other : String} (h : other ≠ schoolId) (doc : Json)
    (f : Json → Json) :
    schoolAt (doc.update "schools" fun schools => schools.update schoolId f) other =
      schoolAt doc other := by
  unfold schoolAt
  rw [get?_update_self]
  cases doc.get? "schools" with
  | none => rfl
  | some schools => exact get?_update_ne h f schools

theorem schoolAt_congr {doc doc' : Json} (h : doc'.get? "schools" = doc.get? "schools")
    (schoolId : String) : schoolAt doc' schoolId = schoolAt doc schoolId := by
  unfold schoolAt
  rw [h]

/-- A school that is not the session's own keeps its record. -/
theorem schoolAt_withSchool_ne {schoolId other : String} (h : other ≠ schoolId) (current : Json)
    (incomingSchool : Option Json) :
    schoolAt (withSchool current schoolId incomingSchool) other = schoolAt current other := by
  cases incomingSchool with
  | none => rfl
  | some school => exact schoolAt_update_ne h current _

theorem schoolAt_withSchool (current : Json) (schoolId : String) (incomingSchool : Option Json) :
    Option.Rel (SameOutside postedSchoolKeys) (schoolAt current schoolId)
      (schoolAt (withSchool current schoolId incomingSchool) schoolId) := by
  cases incomingSchool with
  | none => exact optionRel_refl _ _
  | some school =>
    have hupdate : schoolAt (withSchool current schoolId (some school)) schoolId =
        (schoolAt current schoolId).map (updateSchoolAdminSchool school) :=
      schoolAt_update_self current schoolId _
    rw [hupdate]
    exact optionRel_map (updateSchoolAdminSchool_posted school) _

/-- A merge leaves the plan of a school alone, or grants the session's own school what its
verified administrator may have. -/
theorem merge_plan
    (h : mergeSchoolAdminRegistry current incoming session nowMillis tombstoneMillis = some merged)
    (schoolId : String) :
    Option.Rel SamePlan (schoolAt current schoolId) (schoolAt merged schoolId) ∨
      (schoolId = trimmedAt session "schoolId" ∧
        (∃ user, accountAt merged (trimmedAt session "userId") = some user ∧
          VerifiedAdmin schoolId user) ∧
        Option.Rel (PlanChange nowMillis) (schoolAt current schoolId) (schoolAt merged schoolId)) := by
  obtain ⟨rawSchool, rawUser, users, hschool, huser, husers, hmerged⟩ := merge_eq_some h
  have hschoolAt : trimmedAt session "schoolId" = trim rawSchool := by
    unfold trimmedAt
    rw [hschool]
    rfl
  have huserAt : trimmedAt session "userId" = trim rawUser := by
    unfold trimmedAt
    rw [huser]
    rfl
  rw [hschoolAt, huserAt]
  generalize trim rawSchool = own at husers hmerged ⊢
  generalize trim rawUser = sessionUserId at husers hmerged ⊢
  generalize (objectAt incoming "schools").bind (List.lookup own) = incomingSchool at husers hmerged
  have haccounts : schoolAt (withAccounts (withSchool current own incomingSchool)
      (mergeUsers own sessionUserId incoming users).1
      (mergeUsers own sessionUserId incoming users).2.1 tombstoneMillis) schoolId =
        schoolAt (withSchool current own incomingSchool) schoolId :=
    schoolAt_congr withAccounts_schools schoolId
  by_cases hown : schoolId = own
  · subst hown
    have hposted := schoolAt_withSchool current schoolId incomingSchool
    cases hflag : (mergeUsers schoolId sessionUserId incoming users).2.2 with
    | false =>
      left
      rw [hflag, if_neg Bool.false_ne_true] at hmerged
      rw [hmerged, haccounts]
      generalize schoolAt (withSchool current schoolId incomingSchool) schoolId = after at hposted ⊢
      generalize schoolAt current schoolId = before at hposted ⊢
      cases hposted with
      | none => exact .none
      | some hsame =>
        refine .some fun key hkey => hsame.get key ?_
        revert key
        decide
    | true =>
      right
      rw [hflag, if_pos rfl] at hmerged
      refine ⟨rfl, ?_, ?_⟩
      · obtain ⟨user, hlookup, hadmin⟩ := mergeUsers_owner incoming users hflag
        refine ⟨user, ?_, hadmin⟩
        have hget : merged.get? "users" =
            some (.obj (mergeUsers schoolId sessionUserId incoming users).1) := by
          rw [hmerged, get?_update_ne (by decide), withAccounts_users (get?_of_objectAt husers)]
        exact (accountAt_of_get? hget sessionUserId).trans hlookup
      · rw [hmerged, schoolAt_update_self, haccounts]
        generalize schoolAt (withSchool current schoolId incomingSchool) schoolId = after at hposted ⊢
        generalize schoolAt current schoolId = before at hposted ⊢
        cases hposted with
        | none => exact .none
        | some hsame => exact .some ((grantVerified_change incomingSchool nowMillis _).of_posted hsame)
  · left
    have hsame : schoolAt merged schoolId = schoolAt current schoolId := by
      rw [hmerged]
      split
      · rw [schoolAt_update_ne hown, haccounts, schoolAt_withSchool_ne hown]
      · rw [haccounts, schoolAt_withSchool_ne hown]
    rw [hsame]
    exact samePlan_refl _

end Merge

/-! ### Posts one after the other -/

/-- A registry posted in a session of a school administrator. -/
structure SchoolAdminPost where
  session : Json
  body : Option Json
  clock : PostClock
  admin : strAt session "role" = some "school_admin"

/-- The registry after the post. -/
def postStep (reg : Json) (p : SchoolAdminPost) : Json :=
  match authRegistryPostJson (some p.session) p.body p.clock reg with
  | .save merged _ _ => merged
  | _ => reg

/-- The plan does not move; at most a trial that runs is marked as used. -/
def Unmoved (schoolId : String) (reg reg' : Json) : Prop :=
  Option.Rel (fun school school' => (∀ key ∈ ["plan", "expiresAt"],
      school'.get? key = school.get? key) ∧
    (school'.get? "trialUsed" = school.get? "trialUsed" ∨
      (planName school = "trial" ∧ boolAt school' "trialUsed" = some true)))
    (schoolAt reg schoolId) (schoolAt reg' schoolId)

/-- Plan, expiry and the mark stay as they are. -/
def Settled (schoolId : String) (reg reg' : Json) : Prop :=
  Option.Rel SamePlan (schoolAt reg schoolId) (schoolAt reg' schoolId)

/-- The post moves the school from the free plan to a trial plan, in the session of an
administrator of the school whose e-mail is verified. -/
structure Moved (schoolId : String) (reg : Json) (p : SchoolAdminPost) (reg' : Json) : Prop where
  own : schoolId = trimmedAt p.session "schoolId"
  verified : ∃ user, accountAt reg' (trimmedAt p.session "userId") = some user ∧
    VerifiedAdmin schoolId user
  granted : ∃ school school', schoolAt reg schoolId = some school ∧
    schoolAt reg' schoolId = some school' ∧ Granted p.clock.nowMillis school school'

/-- The trial has been used. -/
def TrialUsed (schoolId : String) (reg : Json) : Prop :=
  ∃ school, schoolAt reg schoolId = some school ∧ boolAt school "trialUsed" = some true

section Posts
variable {schoolId : String} {reg reg' : Json} {p : SchoolAdminPost}

theorem restoreUserPasswordHashes_schools (current merged : Json) :
    (restoreUserPasswordHashes current merged).get? "schools" = merged.get? "schools" :=
  get?_update_ne (by decide) _ _

theorem restoreHash_outside (currentUsers : Fields) (id : String) (user : Json) :
    SameOutside ["passwordHash"] user (restoreHash currentUsers id user) := by
  unfold restoreHash
  split
  · exact .refl _ _
  · split
    · exact .refl _ _
    · split
      · exact .refl _ _
      · exact FieldsOutside.onObject (fun fields => .assign (by decide) _ fields) user

theorem accountAt_restored (current merged : Json) (id : String) :
    Option.Rel (SameOutside ["passwordHash"]) (accountAt merged id)
      (accountAt (restoreUserPasswordHashes current merged) id) := by
  unfold accountAt restoreUserPasswordHashes
  rw [get?_update_self]
  cases merged.get? "users" with
  | none => exact .none
  | some users =>
    cases users with
    | obj fields =>
      have hlookup : List.lookup id (fields.map fun e =>
          (e.1, restoreHash ((objectAt current "users").getD []) e.1 e.2)) =
            (List.lookup id fields).map (restoreHash ((objectAt current "users").getD []) id) := by
        induction fields with
        | nil => rfl
        | cons e rest ih =>
          obtain ⟨key, user⟩ := e
          rw [List.map_cons, AssocList.lookup_cons_eq, AssocList.lookup_cons_eq, ih]
          split
          · rename_i hid
            rw [hid]
            rfl
          · rfl
      show Option.Rel _ (List.lookup id fields) (List.lookup id (fields.map fun e =>
        (e.1, restoreHash ((objectAt current "users").getD []) e.1 e.2)))
      rw [hlookup]
      exact optionRel_map (restoreHash_outside _ id) _
    | _ => exact .none

/-- What a saved post has merged. -/
theorem postStep_cases (reg : Json) (p : SchoolAdminPost) : postStep reg p = reg ∨
    ∃ value merged, mergeSchoolAdminRegistry reg value p.session p.clock.nowMillis
        p.clock.tombstoneMillis = some merged ∧
      postStep reg p = restoreUserPasswordHashes reg merged := by
  have hmerged : ∀ value, mergedPost p.session p.clock reg value =
      mergeSchoolAdminRegistry reg value p.session p.clock.nowMillis p.clock.tombstoneMillis := by
    intro value
    unfold mergedPost
    rw [p.admin]
    rfl
  unfold postStep authRegistryPostJson
  dsimp only
  cases canWriteRegistry p.session with
  | false => exact .inl rfl
  | true =>
    cases p.body with
    | none => exact .inl rfl
    | some value =>
      dsimp only
      cases duplicateRegistrationIp reg value with
      | some ip => exact .inl rfl
      | none =>
        dsimp only
        rw [hmerged]
        cases hm : mergeSchoolAdminRegistry reg value p.session p.clock.nowMillis
          p.clock.tombstoneMillis with
        | none => exact .inl rfl
        | some merged => exact .inr ⟨value, merged, hm, rfl⟩

theorem post_plan (schoolId : String) (reg : Json) (p : SchoolAdminPost) :
    Settled schoolId reg (postStep reg p) ∨
      (schoolId = trimmedAt p.session "schoolId" ∧
        (∃ user, accountAt (postStep reg p) (trimmedAt p.session "userId") = some user ∧
          VerifiedAdmin schoolId user) ∧
        Option.Rel (PlanChange p.clock.nowMillis) (schoolAt reg schoolId)
          (schoolAt (postStep reg p) schoolId)) := by
  rcases postStep_cases reg p with hsame | ⟨value, merged, hm, hstep⟩
  · rw [hsame]
    exact .inl (samePlan_refl _)
  have hschools := schoolAt_congr (restoreUserPasswordHashes_schools reg merged) schoolId
  unfold Settled
  rw [hstep, hschools]
  refine (merge_plan hm schoolId).imp id ?_
  rintro ⟨hown, ⟨user, huser, hadmin⟩, hchange⟩
  refine ⟨hown, ?_, hchange⟩
  have hrestored := accountAt_restored reg merged (trimmedAt p.session "userId")
  rw [huser] at hrestored
  generalize accountAt (restoreUserPasswordHashes reg merged) (trimmedAt p.session "userId") =
    restored at hrestored ⊢
  cases hrestored with
  | some hsame =>
    exact ⟨_, rfl, (strAt_eq hsame (by decide)).trans hadmin.school,
      (strAt_eq hsame (by decide)).trans hadmin.role,
      (boolAt_congr (hsame.get "emailVerified" (by decide))).trans hadmin.verified⟩

/-- One post: the plan stays, or it moves as it may. -/
theorem post_unmoved_or_moved (schoolId : String) (reg : Json) (p : SchoolAdminPost) :
    Unmoved schoolId reg (postStep reg p) ∨ Moved schoolId reg p (postStep reg p) := by
  rcases post_plan schoolId reg p with hsettled | ⟨hown, hverified, hchange⟩
  · left
    unfold Settled at hsettled
    unfold Unmoved
    generalize schoolAt reg schoolId = before at hsettled ⊢
    generalize schoolAt (postStep reg p) schoolId = after at hsettled ⊢
    cases hsettled with
    | none => exact .none
    | some hsame =>
      exact .some ⟨fun key hkey => hsame key (List.mem_append_left ["trialUsed"] hkey),
        .inl (hsame "trialUsed" (by decide))⟩
  · unfold Unmoved
    cases hbefore : schoolAt reg schoolId with
    | none =>
      rw [hbefore] at hchange
      left
      generalize schoolAt (postStep reg p) schoolId = after at hchange ⊢
      cases hchange
      exact .none
    | some school =>
      cases hafter : schoolAt (postStep reg p) schoolId with
      | none =>
        rw [hbefore, hafter] at hchange
        cases hchange
      | some school' =>
        rw [hbefore, hafter] at hchange
        cases hchange with
        | some hchange =>
          cases hchange with
          | kept hkept =>
            exact .inl (.some ⟨fun key hkey => hkept key (List.mem_append_left ["trialUsed"] hkey),
              .inl (hkept "trialUsed" (by decide))⟩)
          | marked htrial hkept hmarked =>
            refine .inl (.some ⟨hkept, .inr ⟨htrial, ?_⟩⟩)
            unfold boolAt
            rw [hmarked]
            rfl
          | granted hgrant =>
            exact .inr ⟨hown, hverified, school, school', hbefore, hafter, hgrant⟩

/-- After the trial no post changes the plan. -/
theorem post_settled (h : TrialUsed schoolId reg) :
    TrialUsed schoolId (postStep reg p) ∧ Settled schoolId reg (postStep reg p) := by
  obtain ⟨school, hschool, hused⟩ := h
  have hget : school.get? "trialUsed" = some (.bool true) := by
    obtain ⟨v, hv, hb⟩ := Option.bind_eq_some_iff.mp hused
    cases v with
    | bool b =>
      cases hb
      exact hv
    | _ => simp [asBool] at hb
  have hsettled : Settled schoolId reg (postStep reg p) := by
    rcases post_plan schoolId reg p with hsettled | ⟨_, _, hchange⟩
    · exact hsettled
    · unfold Settled
      rw [hschool] at hchange ⊢
      generalize schoolAt (postStep reg p) schoolId = after at hchange ⊢
      cases hchange with
      | some hchange =>
        cases hchange with
        | kept hkept => exact .some hkept
        | marked _ hkept hmarked =>
          refine .some fun key hkey => ?_
          simp only [planKeys, List.mem_cons, List.not_mem_nil, or_false] at hkey
          rcases hkey with rfl | rfl | rfl
          · exact hkept _ (by decide)
          · exact hkept _ (by decide)
          · exact hmarked.trans hget.symm
        | granted hgrant => exact absurd hused hgrant.unused
  refine ⟨?_, hsettled⟩
  unfold Settled at hsettled
  rw [hschool] at hsettled
  unfold TrialUsed
  generalize schoolAt (postStep reg p) schoolId = after at hsettled ⊢
  cases hsettled with
  | some hsame => exact ⟨_, rfl, (boolAt_congr (hsame "trialUsed" (by decide))).trans hused⟩

end Posts

/-- Along any posts of school administrators, by any clock, the plan of a school does not move, or
it moves once, from free to a trial plan, and stays settled from then on. -/
theorem plan_moves_once (schoolId : String) (reg : Json) (posts : List SchoolAdminPost) :
    Transition.Run (fun r p r' => Transition.ofFn postStep r p r' ∧ Unmoved schoolId r r') reg posts
        (posts.foldl postStep reg) ∨
      ∃ before p after m m', posts = before ++ p :: after ∧
        Transition.Run (fun r p r' => Transition.ofFn postStep r p r' ∧ Unmoved schoolId r r')
          reg before m ∧
        (Transition.ofFn postStep m p m' ∧ Moved schoolId m p m') ∧
        Transition.Run (fun r p r' => Transition.ofFn postStep r p r' ∧ Settled schoolId r r')
          m' after (posts.foldl postStep reg) := by
  rcases Transition.Run.quiet_or_first (fun r _ r' => Unmoved schoolId r r')
    (Transition.Run.ofFn_foldl postStep reg posts) with hquiet | ⟨before, p, after, m, m', hposts,
      hbefore, hstep, hloud, hafter⟩
  · exact .inl hquiet
  · right
    have hmoved : Moved schoolId m p m' := by
      rw [← hstep]
      refine (post_unmoved_or_moved schoolId m p).resolve_left fun hunmoved => hloud ?_
      rw [← hstep]
      exact hunmoved
    obtain ⟨_, school', _, hschool', hgrant⟩ := hmoved.granted
    refine ⟨before, p, after, m, m', hposts, hbefore, ⟨hstep, hmoved⟩, ?_⟩
    apply Transition.Run.strengthen (I := TrialUsed schoolId) ?_ hafter
      ⟨school', hschool', hgrant.used⟩
    intro r q r' hused hpost
    rw [← hpost]
    exact post_settled hused

end TkbCherry.Registry
