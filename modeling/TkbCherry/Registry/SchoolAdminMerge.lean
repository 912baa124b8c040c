import TkbCherry.Lib.Json
import TkbCherry.Registry.PlanExpiry
import Mathlib.Data.List.Dedup

/-!
# The registry a school administrator posts

`merge_school_admin_registry`: the stored registry, changed where the session may change it.
The posted document is any JSON. Every reading of the clock is an argument.
-/

namespace TkbCherry.Registry

set_option autoImplicit false

open Text

abbrev Fields := List (String × Json)

/-- `value.get(key).and_then(Value::as_str)`. -/
def strAt (v : Json) (key : String) : Option String := (v.get? key).bind Json.asStr

def boolAt (v : Json) (key : String) : Option Bool := (v.get? key).bind Json.asBool

def u64At (v : Json) (key : String) : Option Nat := (v.get? key).bind Json.asU64

def objectAt (v : Json) (key : String) : Option Fields := (v.get? key).bind Json.asObject

/-- `Value::as_object_mut` and a change of the map. -/
def onObject (f : Fields → Fields) : Json → Json
  | .obj fields => .obj (f fields)
  | v => v

/-- `if let Some(v) = value { target.insert(key, v) }`. -/
def insertSome (key : String) (value : Option Json) (target : Fields) : Fields :=
  match value with
  | some v => AssocList.assign key v target
  | none => target

def copyStringField (source : Json) (target : Fields) (key : String) (maxLen : Nat) : Fields :=
  let value := ((strAt source key).map trim).filter fun value =>
    decide (value.utf8ByteSize ≤ maxLen)
  insertSome key (value.map .str) target

def copyStringFields (source : Json) (keys : List String) (target : Fields) : Fields :=
  keys.foldl (fun target key => copyStringField source target key 512) target

def validPasswordHash (value : String) : Bool :=
  let value := trim value
  ("$argon2id$".toList.isPrefixOf value.toList && decide (value.utf8ByteSize ≤ 512)) ||
    (decide (value.utf8ByteSize = 64) && (bytes value).all isAsciiHexdigit)

/-! ### The school -/

def sanitizedSchedule (shortId : String) (number : Nat) (entry : Json) : Json :=
  let safe : Fields := AssocList.assign "number" (.int number) []
  let safe := AssocList.assign "sid" (.str (shortId ++ toString number)) safe
  let safe := copyStringField entry safe "effectiveDate" 64
  let safe := copyStringField entry safe "label" 128
  let safe := copyStringField entry safe "createdAt" 64
  .obj (insertSome "original" ((boolAt entry "original").map .bool) safe)

/-- The loop over the posted schedules; `seen` holds the numbers so far. -/
def sanitizeSchedules (shortId : String) : List Nat → List Json → Option (List Json)
  | _, [] => some []
  | seen, entry :: rest =>
    match u64At entry "number" with
    | none => none
    | some number =>
      if number = 0 ∨ number > 999 ∨ number ∈ seen then none
      else (sanitizeSchedules shortId (number :: seen) rest).map fun sanitized =>
        sanitizedSchedule shortId number entry :: sanitized

def sanitizedSchoolSchedules (currentSchool incomingSchool : Json) : Option Json :=
  let shortId := trim ((strAt currentSchool "shortId").getD "")
  if shortId = "" then none
  else
    match (incomingSchool.get? "schedules").bind Json.asArray with
    | none => none
    | some incoming =>
      if incoming.isEmpty || decide (incoming.length > 100) then none
      else (sanitizeSchedules shortId [] incoming).map .arr

def schoolKeys : List String :=
  ["name", "ownerEmail", "ownerPhone", "scheduleNumber", "effectiveDate", "updatedAt"]

def updateSchoolAdminSchool (incomingSchool currentSchool : Json) : Json :=
  let schedules := sanitizedSchoolSchedules currentSchool incomingSchool
  onObject (fun target =>
    let target := copyStringFields incomingSchool schoolKeys target
    let target := insertSome "schedules" schedules target
    let listed (active : Nat) : Bool :=
      ((Json.obj target).get? "schedules" |>.bind Json.asArray).any fun items =>
        items.any fun item => decide (u64At item "number" = some active)
    let active := (u64At incomingSchool "activeSchedule").filter listed
    insertSome "activeSchedule" (active.map fun active => .int active) target) currentSchool

/-! ### Accounts -/

def userKeys : List String := ["displayName", "email", "phone", "updatedAt"]

def updateSchoolUserRecord (incomingUser : Json) (allowActive allowEmailVerification : Bool) :
    Json → Json :=
  onObject fun target =>
    let target := copyStringFields incomingUser userKeys target
    let hash := (strAt incomingUser "passwordHash").filter validPasswordHash
    let target := insertSome "passwordHash" (hash.map fun hash => .str (trim hash)) target
    let active := (boolAt incomingUser "active").filter fun _ => allowActive
    let target := insertSome "active" (active.map .bool) target
    let verified := (boolAt incomingUser "emailVerified").filter fun verified =>
      allowEmailVerification && verified
    insertSome "emailVerified" (verified.map .bool) target

def validNewSchoolUserId (raw : String) : Option String :=
  let id := toAsciiLowercase (trim raw)
  if 3 ≤ id.utf8ByteSize ∧ id.utf8ByteSize ≤ 64 ∧ id.toList.all isAsciiAlphanumeric = true
  then some id else none

def newUserKeys : List String := ["displayName", "email", "phone", "createdAt", "updatedAt"]

def newSchoolUserRecord (id schoolId : String) (incoming : Json) : Option Json :=
  if strAt incoming "role" ≠ some "school_user" ∨ strAt incoming "schoolId" ≠ some schoolId then
    none
  else
    (strAt incoming "passwordHash").bind fun hash =>
      if validPasswordHash hash then
        let user : Fields := AssocList.assign "id" (.str id) []
        let user := AssocList.assign "role" (.str "school_user") user
        let user := AssocList.assign "schoolId" (.str schoolId) user
        let user := AssocList.assign "passwordHash" (.str (trim hash)) user
        let user := copyStringFields incoming newUserKeys user
        let user := AssocList.assign "active" (.bool ((boolAt incoming "active").getD true)) user
        some (.obj (AssocList.assign "emailVerified" (.bool true) user))
      else none

/-- A sub-user of the school. -/
def isSubuser (schoolId : String) (user : Json) : Bool :=
  decide (strAt user "schoolId" = some schoolId) && decide (strAt user "role" = some "school_user")

/-- The first pass: listed sub-users of the school go, and are remembered. -/
def deleteUser (schoolId : String) (acc : Fields × List String) (id : String) :
    Fields × List String :=
  if (acc.1.lookup id).any (isSubuser schoolId) then (AssocList.unset id acc.1, id :: acc.2) else acc

/-- The second pass: sub-users of the school and the session's own account are edited. -/
def editUser (schoolId sessionUserId : String) (acc : Fields × Bool) (incoming : String × Json) :
    Fields × Bool :=
  match acc.1.lookup incoming.1 with
  | none => acc
  | some existing =>
    if strAt existing "schoolId" ≠ some schoolId then acc
    else
      let role := (strAt existing "role").getD ""
      let ownsAdminRecord := decide (role = "school_admin") && decide (incoming.1 = sessionUserId)
      let mayEdit := decide (role = "school_user") || ownsAdminRecord
      if mayEdit then
        let edit := updateSchoolUserRecord incoming.2 (decide (role = "school_user")) ownsAdminRecord
        (AssocList.modify incoming.1 edit acc.1,
          if ownsAdminRecord then decide (boolAt (edit existing) "emailVerified" = some true)
          else acc.2)
      else acc

/-- The third pass: new sub-users, as long as the school has less than five. -/
def addUsers (schoolId : String) (authorizedDeletedUsers : List String) :
    Nat → Fields → Fields → Fields
  | _, users, [] => users
  | subuserCount, users, (rawId, incomingUser) :: rest =>
    if subuserCount ≥ 5 then users
    else
      match validNewSchoolUserId rawId with
      | none => addUsers schoolId authorizedDeletedUsers subuserCount users rest
      | some id =>
        if (users.lookup id).isSome || decide (id ∈ authorizedDeletedUsers) then
          addUsers schoolId authorizedDeletedUsers subuserCount users rest
        else
          match newSchoolUserRecord id schoolId incomingUser with
          | none => addUsers schoolId authorizedDeletedUsers subuserCount users rest
          | some user => addUsers schoolId authorizedDeletedUsers (subuserCount + 1)
              (AssocList.assign id user users) rest

/-! ### The plan a verified owner is granted -/

def maxGrantMs : Nat := 366 * 24 * 60 * 60 * 1000

def requestedGrant (incomingSchool : Option Json) (now : Nat) : Option (String × String) :=
  incomingSchool.bind fun value => do
    let plan := toAsciiLowercase (trim (← strAt value "plan"))
    if plan ≠ "max2" ∧ plan ≠ "trial" then none
    else do
      let raw ← strAt value "expiresAt"
      let expiry ← planExpiryMillis raw
      if expiry > now ∧ expiry ≤ min (now + maxGrantMs) (2 ^ 64 - 1) then some (plan, raw) else none

/-- What the school gets when the session's own account is verified. -/
def grantVerified (incomingSchool : Option Json) (now : Nat) : Json → Json :=
  onObject fun school =>
    let school := AssocList.assign "verified" (.bool true) school
    let currentPlan := toAsciiLowercase (trim ((strAt (.obj school) "plan").getD "free"))
    if currentPlan = "trial" then AssocList.assign "trialUsed" (.bool true) school
    else if currentPlan = "free" ∧ boolAt (.obj school) "trialUsed" ≠ some true then
      match requestedGrant incomingSchool now with
      | none => school
      | some (plan, rawExpiry) =>
        let school := if plan = "max2"
          then AssocList.assign "maxPlanPricingTier" (.str "from-40-classes") school else school
        let school := AssocList.assign "plan" (.str plan) school
        let school := AssocList.assign "expiresAt" (.str rawExpiry) school
        AssocList.assign "trialUsed" (.bool true) school
    else school

/-! ### The merge -/

def subuserCount (schoolId : String) (users : Fields) : Nat :=
  (users.filter fun e => isSubuser schoolId e.2).length

def addTombstones (tombstoneMillis : String → Nat) (ids : List String) : Json → Json :=
  onObject fun items => ids.foldl (fun items id =>
    AssocList.assign id (.int (tombstoneMillis id)) items) items

/-- `entry("deletedUsers").or_insert_with(|| json!({}))`. -/
def withDeletedUsers : Json → Json :=
  onObject fun root =>
    if (root.lookup "deletedUsers").isSome then root
    else AssocList.assign "deletedUsers" (.obj []) root

def deletedIds (incoming : Json) : List String :=
  (((objectAt incoming "deletedUsers").getD []).map fun item => toAsciiLowercase item.1).dedup

/-- The three passes over the accounts: the accounts, the deleted ids, and whether the
session's own account is verified. -/
def mergeUsers (schoolId sessionUserId : String) (incoming : Json) (users : Fields) :
    Fields × List String × Bool :=
  let incomingUsers := (objectAt incoming "users").getD []
  let deleted := (deletedIds incoming).foldl (deleteUser schoolId) (users, [])
  let edited := incomingUsers.foldl (editUser schoolId sessionUserId) (deleted.1, false)
  (addUsers schoolId deleted.2 (subuserCount schoolId edited.1) edited.1 incomingUsers,
    deleted.2, edited.2)

def mergeSchoolAdminRegistry (current incoming session : Json) (nowMillis : Nat)
    (tombstoneMillis : String → Nat) : Option Json := do
  let schoolId := trim (← strAt session "schoolId")
  let sessionUserId := trim (← strAt session "userId")
  if schoolId = "" ∨ sessionUserId = "" then none
  else do
    let incomingSchool := (objectAt incoming "schools").bind (List.lookup schoolId)
    let merged := match incomingSchool with
      | some school => current.update "schools" fun schools =>
          schools.update schoolId (updateSchoolAdminSchool school)
      | none => current
    let users ← objectAt merged "users"
    let (users, authorizedDeletedUsers, ownerEmailVerified) :=
      mergeUsers schoolId sessionUserId incoming users
    let merged := merged.update "users" fun _ => .obj users
    let merged := (withDeletedUsers merged).update "deletedUsers"
      (addTombstones tombstoneMillis authorizedDeletedUsers)
    some (if ownerEmailVerified then merged.update "schools" fun schools =>
        schools.update schoolId (grantVerified incomingSchool nowMillis)
      else merged)

end TkbCherry.Registry
