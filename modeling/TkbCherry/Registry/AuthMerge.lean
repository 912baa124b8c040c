import TkbCherry.Registry.SchoolAdminMerge

/-!
# The registry a super administrator posts

`merge_auth_registry`, `duplicate_registration_ip` and `restore_user_password_hashes`. A set of
texts is a list; only membership is read. `jsonObject` is an object literal, kept in key order.
-/

namespace TkbCherry.Registry

set_option autoImplicit false

open Text

/-- `json!({…})`. -/
def jsonObject (fields : Fields) : Json :=
  .obj (fields.foldl (fun acc e => AssocList.assign e.1 e.2 acc) [])

/-- `str::eq_ignore_ascii_case`. -/
def eqIgnoreAsciiCase (a b : String) : Bool := decide (toAsciiLowercase a = toAsciiLowercase b)

/-- `out.insert` for every entry of a map. -/
def insertAll (out entries : Fields) : Fields :=
  entries.foldl (fun out e => AssocList.assign e.1 e.2 out) out

/-- The value under `schoolId`, trimmed; empty when there is none. -/
def schoolIdOf (entry : Json) : String := trim ((strAt entry "schoolId").getD "")

/-! ### The merge -/

def mergeUnionObject (current : Json) (key : String) (merged : Json) : Json :=
  let out := insertAll ((objectAt current key).getD []) ((objectAt merged key).getD [])
  onObject (AssocList.assign key (.obj out)) merged

def countNewKeys (current next : Json) (key : String) : Nat :=
  let currentObj := (objectAt current key).getD []
  (((objectAt next key).getD []).filter fun e => (currentObj.lookup e.1).isNone).length

def objectKeySet (registry : Json) (key : String) : List String :=
  ((objectAt registry key).getD []).map Prod.fst

/-- The stored entries with the posted ones over them; an additive post only adds. -/
def overlay (currentObj nextObj : Fields) (additivePost : Bool) : Fields :=
  insertAll currentObj (nextObj.filter fun e =>
    !(additivePost && (currentObj.lookup e.1).isSome))

def mergeEntityObject (current : Json) (key : String) (deleted : List String)
    (additivePost : Bool) (merged : Json) : Json :=
  let out := overlay ((objectAt current key).getD []) ((objectAt merged key).getD []) additivePost
  let out := deleted.foldl (fun out id => AssocList.unset id out) out
  onObject (AssocList.assign key (.obj out)) merged

def mergeUsersObject (current : Json) (deletedUsers deletedSchools : List String)
    (additivePost : Bool) (merged : Json) : Json :=
  let out := overlay ((objectAt current "users").getD []) ((objectAt merged "users").getD [])
    additivePost
  let out := out.filter fun e =>
    !decide (e.1 ∈ deletedUsers) &&
      !decide ((strAt e.2 "schoolId").getD "" ∈ deletedSchools)
  onObject (AssocList.assign "users" (.obj out)) merged

/-- `obj.insert(flag, true)` on every entry whose stored value has the flag. -/
def keepFlag (flag : String) (stored entries : Fields) : Fields :=
  stored.foldl (fun entries e =>
    if boolAt e.2 flag = some true
    then AssocList.modify e.1 (onObject (AssocList.assign flag (.bool true))) entries
    else entries) entries

def preserveMonotonicVerification (current merged : Json) : Json :=
  let users := (objectAt current "users").getD []
  let schools := (objectAt current "schools").getD []
  let merged := merged.update "users" (onObject (keepFlag "emailVerified" users))
  merged.update "schools" (onObject fun entries =>
    keepFlag "trialUsed" schools (keepFlag "verified" schools entries))

def pruneDeletedSchoolIpBlocks (deletedSchools : List String) (registry : Json) : Json :=
  if deletedSchools.isEmpty then registry
  else registry.update "blockedIps" (onObject fun blockedIps =>
    blockedIps.filter fun e =>
      decide (schoolIdOf e.2 = "") ||
        !deletedSchools.any fun deletedId => eqIgnoreAsciiCase deletedId (schoolIdOf e.2))

def mergeAuthRegistry (current next : Json) : Json :=
  let merged := if next.asObject.isSome then next else .obj []
  let merged := mergeUnionObject current "deletedSchools" merged
  let merged := mergeUnionObject current "deletedUsers" merged
  let merged := mergeUnionObject current "registeredIps" merged
  let newSchoolCount := countNewKeys current merged "schools"
  let newUserCount := countNewKeys current merged "users"
  let additivePost := decide (newSchoolCount > 0) || decide (newUserCount > 0)
  let deletedSchools := objectKeySet merged "deletedSchools"
  let deletedUsers := objectKeySet merged "deletedUsers"
  let merged := mergeEntityObject current "schools" deletedSchools additivePost merged
  let merged := mergeUsersObject current deletedUsers deletedSchools additivePost merged
  let merged := preserveMonotonicVerification current merged
  let merged := if additivePost
    then mergeUnionObject current "blockedIps" (mergeUnionObject current "otpPending" merged)
    else merged
  pruneDeletedSchoolIpBlocks deletedSchools merged

/-! ### Registration addresses -/

def firstIp (school : Json) : String :=
  trim ((((school.get? "ips").bind Json.asArray).bind List.head?).bind Json.asStr |>.getD "")

def registrationIpFromSchool (school : Json) : Option String :=
  if (school.get? "trialUsed").isNone then none
  else if firstIp school = "" then none else some (firstIp school)

/-- `entry.get("userId").or_else(|| entry.get("loginId"))`, as a trimmed text. -/
def ownerIdOf (entry : Json) : String :=
  trim ((((entry.get? "userId").or (entry.get? "loginId")).bind Json.asStr).getD "")

def schoolExists (registry : Json) (schoolId : String) : Bool :=
  decide (schoolId ≠ "") &&
    (((objectAt registry "schools").getD []).lookup schoolId).isSome

def registrationIpOwnerExists (registry entry : Json) : Bool :=
  let userId := ownerIdOf entry
  let userExists := decide (userId ≠ "") &&
    ((objectAt registry "users").getD []).any fun e =>
      eqIgnoreAsciiCase e.1 userId ||
        (strAt e.2 "id").any fun id => eqIgnoreAsciiCase id userId
  schoolExists registry (schoolIdOf entry) || userExists

def registrationIpsFromRegistry (registry : Json) : List String :=
  ((((objectAt registry "registeredIps").getD []).filter fun e =>
      decide (trim e.1 ≠ "") && registrationIpOwnerExists registry e.2).map fun e => trim e.1) ++
    ((objectAt registry "schools").getD []).filterMap fun e => registrationIpFromSchool e.2

/-- The loop over the posted schools; `usedIps` and `newIps` hold the addresses so far. -/
def duplicateIpAmong (currentSchools : Option Fields) :
    List String → List String → Fields → Option String
  | _, _, [] => none
  | usedIps, newIps, (schoolId, school) :: rest =>
    if (currentSchools.bind (List.lookup schoolId)).isSome then
      duplicateIpAmong currentSchools usedIps newIps rest
    else
      match registrationIpFromSchool school with
      | none => duplicateIpAmong currentSchools usedIps newIps rest
      | some ip =>
        if ip ∈ usedIps ∨ ip ∈ newIps then some ip
        else duplicateIpAmong currentSchools (ip :: usedIps) (ip :: newIps) rest

def duplicateRegistrationIp (current next : Json) : Option String :=
  (objectAt next "schools").bind fun nextSchools =>
    duplicateIpAmong (objectAt current "schools") (registrationIpsFromRegistry current) [] nextSchools

/-! ### Password hashes -/

/-- An account posted without a hash keeps the stored one. -/
def restoreHash (currentUsers : Fields) (id : String) (user : Json) : Json :=
  if trim ((strAt user "passwordHash").getD "") ≠ "" then user
  else
    match (currentUsers.lookup id).bind fun prev => strAt prev "passwordHash" with
    | none => user
    | some prevHash =>
      if prevHash = "" then user
      else onObject (AssocList.assign "passwordHash" (.str prevHash)) user

def restoreUserPasswordHashes (current merged : Json) : Json :=
  merged.update "users" (onObject fun nextUsers =>
    nextUsers.map fun e => (e.1, restoreHash ((objectAt current "users").getD []) e.1 e.2))

end TkbCherry.Registry
