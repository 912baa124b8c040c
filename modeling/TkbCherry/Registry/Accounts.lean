import TkbCherry.Registry.AuthMerge
import TkbCherry.Lib.Rewrite

/-!
# Requests on the registry

`register_json`, the part of `login_json` that touches the registry, and
`auth_registry_post_json`, each as what it decides on the registry it has read. Hashing, the
random tokens, the clock and what the session rows answer are arguments.
-/

namespace TkbCherry.Registry

set_option autoImplicit false

open Text Rewrite

/-- A response: its status and its JSON body. -/
structure Answer where
  status : Nat
  body : Json

def Answer.ok (a : Answer) : Bool := decide (a.status = 200)

def refuse (status : Nat) (message : String) : Answer :=
  ⟨status, jsonObject [("ok", .bool false), ("message", .str message)]⟩

/-- `refuse`, with an error code. -/
def refuseAs (status : Nat) (error message : String) : Answer :=
  ⟨status, jsonObject [("ok", .bool false), ("error", .str error), ("message", .str message)]⟩

def unauthorizedResponse : Answer := refuseAs 401 "auth_required" "Yêu cầu đăng nhập."

def forbiddenResponse : Answer := refuseAs 403 "forbidden" "Không có quyền truy cập."

/-- `value.get(key).and_then(Value::as_str).unwrap_or("").trim()`. -/
def trimmedAt (v : Json) (key : String) : String := trim ((strAt v key).getD "")

/-! ### Lookups -/

/-- The account a login name stands for: its key in lower case, its key as typed, or its `id`. -/
def findUser (reg : Json) (loginId : String) : Option (String × Json) :=
  let raw := trim loginId
  if raw = "" then none
  else
    (objectAt reg "users").bind fun users =>
      let canonical := toAsciiLowercase raw
      match users.lookup canonical with
      | some user => some (canonical, user)
      | none =>
        match users.lookup raw with
        | some user => some (raw, user)
        | none => users.find? fun e => eqIgnoreAsciiCase ((strAt e.2 "id").getD "") raw

def isIpBlocked (reg : Json) (ip : String) : Bool :=
  decide (trim ip ≠ "") && ((objectAt reg "blockedIps").bind (List.lookup (trim ip))).isSome

def emailInUse (reg : Json) (email : String) : Bool :=
  ((objectAt reg "users").getD []).any fun e =>
    eqIgnoreAsciiCase (trimmedAt e.2 "email") (toAsciiLowercase (trim email))

def ipRegistered (reg : Json) (ip : String) : Bool :=
  let ip := trim ip
  if ip = "" then false
  else
    let registeredOwnerStillExists :=
      ((objectAt reg "registeredIps").bind (List.lookup ip)).any fun entry =>
        schoolExists reg (schoolIdOf entry) ||
          (decide (ownerIdOf entry ≠ "") && (findUser reg (ownerIdOf entry)).isSome)
    registeredOwnerStillExists ||
      ((objectAt reg "schools").getD []).any fun e => decide (firstIp e.2 = ip)

/-! ### Identifiers -/

/-- The alphanumerical start of a random token. -/
def randomShortId (token : String) (len : Nat) : String :=
  String.ofList ((token.toList.filter isAsciiAlphanumeric).take (max len 6))

/-- The first of `tries` drawn identifiers that is free, else the last draw. -/
def freshId (tries : Nat) (draw : Nat → String) (taken : String → Bool) (last : String) : String :=
  (((List.range tries).map draw).find? fun id => !taken id).getD last

def generateSchoolId (reg : Json) (tokens : Nat → String) : String :=
  freshId 40 (fun n => "sch" ++ randomShortId (tokens n) 10)
    (fun id => (((objectAt reg "schools").getD []).lookup id).isSome)
    ("sch" ++ randomShortId (tokens 40) 12)

def generateShortId (reg : Json) (tokens : Nat → String) : String :=
  freshId 30 (fun n => randomShortId (tokens n) 10)
    (fun id => ((objectAt reg "schools").getD []).any fun e =>
      decide ((strAt e.2 "shortId").getD "" = id))
    (randomShortId (tokens 30) 12)

/-- A character of `loginId.to_lowercase()` may stand in a login name. The Kelvin sign is the only
character outside ASCII with an ASCII lower case. -/
def isLoginChar (ch : Char) : Bool :=
  isAsciiAlphanumeric ch || ch == '.' || ch == '_' || ch == '-' || decide (ch.toNat = 8490)

def isValidLoginId (loginId : String) : Bool :=
  let id := (trim loginId).toList
  decide (3 ≤ id.length) && id.all isLoginChar

def isEmail (value : String) : Bool :=
  let v := (trim value).toList
  v.contains '@' && v.contains '.' && !v.contains ' '

def isPhone (value : String) : Bool :=
  let digits := (value.toList.filter Char.isDigit).length
  decide (9 ≤ digits ∧ digits ≤ 11)

/-- `str::parse::<u64>`. -/
def parseU64 (s : String) : Option Nat :=
  let digits := match s.toList with
    | '+' :: rest => rest
    | all => all
  if digits.isEmpty || !digits.all Char.isDigit then none
  else
    let value := digits.foldl (fun n c => n * 10 + (c.toNat - 48)) 0
    if value < 2 ^ 64 then some value else none

/-! ### Registration -/

/-- The fields of a registration that has passed its checks. -/
structure Registration where
  loginId : String
  password : String
  email : String
  phone : String
  schoolName : String
  scheduleNumber : Nat
  effectiveDate : String
  clientIp : String

/-- What a registration draws while it holds the guard. -/
structure RegisterDraws where
  schoolTokens : Nat → String
  shortTokens : Nat → String
  nowSecs : Nat
  hashPassword : String → String

/-- The checks a registration passes before it takes the guard. -/
def registration (body : Option Json) (requestIp : String) : Except Answer Registration :=
  match body with
  | none => .error (refuse 400 "Dữ liệu đăng ký không hợp lệ.")
  | some payload =>
    let loginId := toAsciiLowercase (trimmedAt payload "loginId")
    let password := (strAt payload "password").getD ""
    let email := toAsciiLowercase (trimmedAt payload "email")
    let phone := (strAt payload "phone").getD ""
    let schoolName := trimmedAt payload "schoolName"
    let scheduleNumber := ((u64At payload "scheduleNumber").or
      ((strAt payload "scheduleNumber").bind parseU64)).getD 1
    let effectiveDate := trimmedAt payload "effectiveDate"
    if !isValidLoginId loginId then
      .error (refuse 400 "Tên đăng nhập tối thiểu 3 ký tự, chỉ chữ/số.")
    else if !isEmail email then .error (refuse 400 "Email không hợp lệ.")
    else if !isPhone phone then .error (refuse 400 "Số điện thoại không hợp lệ.")
    else if password.utf8ByteSize < 6 then .error (refuse 400 "Mật khẩu tối thiểu 6 ký tự.")
    else if schoolName = "" then .error (refuse 400 "Nhập tên trường.")
    else if effectiveDate = "" then .error (refuse 400 "Chọn ngày áp dụng TKB.")
    else .ok ⟨loginId, password, email, phone, schoolName, scheduleNumber, effectiveDate,
      trim requestIp⟩

namespace Registration
variable (r : Registration)

def ips : Json := if r.clientIp = "" then .arr [] else .arr [.str r.clientIp]

def scheduleSid (shortId : String) : String := shortId ++ toString r.scheduleNumber

def school (schoolId shortId ts : String) : Json := jsonObject [
  ("id", .str schoolId), ("shortId", .str shortId), ("name", .str r.schoolName),
  ("ownerEmail", .str r.email), ("ownerPhone", .str r.phone), ("ownerLoginId", .str r.loginId),
  ("plan", .str "free"), ("active", .bool true), ("verified", .bool false),
  ("scheduleNumber", .str (toString r.scheduleNumber)), ("effectiveDate", .str r.effectiveDate),
  ("expiresAt", .str ""), ("trialUsed", .bool false), ("ips", r.ips), ("lastIp", .str r.clientIp),
  ("createdAt", .str ts), ("updatedAt", .str ts), ("activeSchedule", .int r.scheduleNumber),
  ("schedules", .arr [jsonObject [("number", .int r.scheduleNumber),
    ("effectiveDate", .str r.effectiveDate), ("sid", .str (r.scheduleSid shortId)),
    ("original", .bool true), ("createdAt", .str ts)]])]

def user (schoolId hash ts : String) : Json := jsonObject [
  ("id", .str r.loginId), ("passwordHash", .str hash), ("role", .str "school_admin"),
  ("schoolId", .str schoolId), ("displayName", .str r.schoolName), ("email", .str r.email),
  ("phone", .str r.phone), ("active", .bool true), ("emailVerified", .bool false),
  ("ips", r.ips), ("lastIp", .str r.clientIp), ("createdAt", .str ts), ("updatedAt", .str ts)]

end Registration

/-- `root.entry(key).or_insert({}).as_object_mut().unwrap().insert(id, value)`; `none` is the
panic of a value that is no object. -/
def insertUnder (key id : String) (value : Json) (root : Fields) : Option Fields :=
  match (root.lookup key).getD (.obj []) with
  | .obj entries => some (AssocList.assign key (.obj (AssocList.assign id value entries)) root)
  | _ => none

/-- The registry with the new account; `none` when a table of it is no object. -/
def registered (r : Registration) (schoolId : String) (school user : Json) (ts : String)
    (root : Fields) : Option Fields := do
  let root := AssocList.modify "deletedUsers" (onObject fun deletedUsers =>
    deletedUsers.filter fun e => !eqIgnoreAsciiCase e.1 r.loginId) root
  let root ← insertUnder "users" r.loginId user root
  let root ← insertUnder "schools" schoolId school root
  if r.clientIp = "" then some root
  else insertUnder "registeredIps" r.clientIp (jsonObject [("schoolId", .str schoolId),
    ("loginId", .str r.loginId), ("at", .str ts)]) root

def registerJson (r : Registration) (draws : RegisterDraws) (reg : Json) :
    Decision Json Answer :=
  if isIpBlocked reg r.clientIp then
    .answer (refuse 403 "IP của bạn đã bị khóa. Liên hệ quản trị.")
  else if ipRegistered reg r.clientIp then
    .answer (refuse 409 "IP này đã được dùng để đăng ký. Mỗi IP chỉ đăng ký 1 lần.")
  else
    match objectAt reg "users" with
    | none => .answer (refuse 500 "Registry lỗi.")
    | some users =>
      if (users.lookup r.loginId).isSome then .answer (refuse 409 "Tên đăng nhập đã tồn tại.")
      else if emailInUse reg r.email then .answer (refuse 409 "Email đã được đăng ký.")
      else
        let schoolId := generateSchoolId reg draws.schoolTokens
        let shortId := generateShortId reg draws.shortTokens
        let ts := toString draws.nowSecs
        let school := r.school schoolId shortId ts
        let user := r.user schoolId (draws.hashPassword r.password) ts
        match registered r schoolId school user ts (reg.asObject.getD []) with
        | none => .crash
        | some root => .save (.obj root)
          ⟨200, jsonObject [("ok", .bool true), ("loginId", .str r.loginId),
            ("schoolId", .str schoolId), ("scheduleSid", .str (r.scheduleSid shortId)),
            ("message", .str "Đăng ký thành công. Đăng nhập bằng tên đăng nhập.")]⟩
          (refuse 500 "Không lưu được đăng ký.")

/-! ### Login -/

/-- Hashing as the server does it. -/
structure Hashing where
  argon2Verify : String → String → Bool
  legacySha256Password : String → String

def startsWith (start s : String) : Bool := start.toList.isPrefixOf s.toList

def verifyPassword (h : Hashing) (password storedHash : String) : Bool :=
  let storedHash := trim storedHash
  if startsWith "$argon2" storedHash then h.argon2Verify password storedHash
  else decide (storedHash ≠ "") && decide (storedHash = h.legacySha256Password password)

def passwordHashNeedsUpgrade (storedHash : String) : Bool :=
  !startsWith "$argon2id$" (trim storedHash)

/-- What a login finds besides the registry: whether its address is blocked for now, the hash it
draws, and the session it gets. -/
structure LoginDraws where
  loginBlocked : Bool
  hashPassword : String → String
  session : Option String

/-- The end of a login, after its password. -/
def loginAnswer (draws : LoginDraws) (reg : Json) (userKey : String) (user : Json) : Answer :=
  let role := (strAt user "role").getD ""
  let schoolId := (strAt user "schoolId").getD ""
  let school := (reg.get? "schools").bind fun schools => schools.get? schoolId
  if role ≠ "superadmin" ∧ school.any (fun school => decide (boolAt school "active" = some false)) then
    refuse 403 "Trường đã bị khóa. Liên hệ quản trị."
  else
    match draws.session with
    | none => refuse 500 "Không tạo được phiên đăng nhập."
    | some token => ⟨200, jsonObject [("ok", .bool true), ("sessionToken", .str token),
        ("role", .str role), ("schoolId", .str schoolId),
        ("user", jsonObject [("id", .str userKey), ("role", .str role), ("schoolId", .str schoolId),
          ("displayName", (user.get? "displayName").getD (.str userKey))])]⟩

/-- The registry with the new hash; `none` when the account is no object under `users`. -/
def upgradedRegistry (reg : Json) (userKey hash : String) : Option Json :=
  match (objectAt reg "users").bind (List.lookup userKey) with
  | some (.obj _) => some (reg.update "users" fun users =>
      users.update userKey (onObject (AssocList.assign "passwordHash" (.str hash))))
  | _ => none

def loginJson (h : Hashing) (body : Option Json) (requestIp : String) (draws : LoginDraws)
    (reg : Json) : Decision Json Answer :=
  match body with
  | none => .answer (refuse 400 "Dữ liệu đăng nhập không hợp lệ.")
  | some parsed =>
    let loginId := trimmedAt parsed "loginId"
    let password := (strAt parsed "password").getD ""
    if loginId = "" ∨ password = "" then
      .answer (refuse 400 "Nhập đầy đủ tài khoản và mật khẩu.")
    else if draws.loginBlocked then
      .answer (refuse 429 "Quá nhiều lần đăng nhập sai. Thử lại sau.")
    else if isIpBlocked reg requestIp then
      .answer (refuse 403 "IP của bạn đã bị khóa. Liên hệ quản trị.")
    else
      match findUser reg loginId with
      | none => .answer (refuse 401 "Tài khoản không tồn tại.")
      | some (userKey, user) =>
        if boolAt user "active" = some false then
          .answer (refuse 403 "Tài khoản đã bị khóa. Liên hệ quản trị.")
        else
          let storedHash := (strAt user "passwordHash").getD ""
          if !verifyPassword h password storedHash then
            .answer (refuse 401 "Mật khẩu không đúng.")
          else
            let answer := loginAnswer draws reg userKey user
            let upgraded := if passwordHashNeedsUpgrade storedHash
              then upgradedRegistry reg userKey (draws.hashPassword password) else none
            match upgraded with
            | none => .answer answer
            | some reg => .save reg answer answer

/-! ### A posted registry -/

def canWriteRegistry (session : Json) : Bool :=
  decide (strAt session "role" = some "superadmin") ||
    decide (strAt session "role" = some "school_admin")

/-- What a posted registry reads of the clock. -/
structure PostClock where
  nowMillis : Nat
  tombstoneMillis : String → Nat

def mergedPost (session : Json) (clock : PostClock) (current value : Json) : Option Json :=
  let role := (strAt session "role").getD ""
  if role = "superadmin" then some (mergeAuthRegistry current value)
  else if role = "school_admin" then
    mergeSchoolAdminRegistry current value session clock.nowMillis clock.tombstoneMillis
  else none

/-- `session` is what `require_session` answers; `body` is the posted JSON, if it is any. -/
def authRegistryPostJson (session body : Option Json) (clock : PostClock) (current : Json) :
    Decision Json Answer :=
  match session with
  | none => .answer unauthorizedResponse
  | some session =>
    if !canWriteRegistry session then .answer forbiddenResponse
    else
      match body with
      | none => .answer ⟨400, jsonObject [("ok", .bool false), ("error", .str "invalid_json")]⟩
      | some value =>
        match duplicateRegistrationIp current value with
        | some ip => .answer ⟨409, jsonObject [("ok", .bool false),
            ("error", .str "duplicate_registration_ip"),
            ("message", .str "IP này đã được dùng để đăng ký tài khoản trường. Mỗi IP chỉ được đăng ký 1 lần."),
            ("ip", .str ip)]⟩
        | none =>
          match mergedPost session clock current value with
          | none => .answer forbiddenResponse
          | some merged =>
            let merged := restoreUserPasswordHashes current merged
            .save merged ⟨200, jsonObject [("ok", .bool true)]⟩ ⟨200, jsonObject [("ok", .bool true)]⟩

end TkbCherry.Registry
