import TkbCherry.Registry.AuthMerge
import TkbCherry.Lib.Transition

/-!
# Login sessions

`require_session`, `session_json`, `logout_json` and the part of `login_json` that runs under
`SESSION_LOGIN_GUARD`, one storage call a step. A phase says where a request stands and what it
has read; a label chooses the request that moves, whether the storage serves its call, the
clock, and the token a login draws. The guard is taken in the step of the first call made
under it.
-/

namespace TkbCherry.Session

set_option autoImplicit false

open Text Registry

def superId : String := "suadmin"
def sessionTtlSecs : Nat := 86400

/-! ### Session documents -/

def userOf (session : Json) : String := (strAt session "userId").getD ""

/-- The account whose active session a document is checked against. -/
def account (session : Json) : String := trim (userOf session)

def isSuperadminSession (session : Json) : Bool := decide (strAt session "userId" = some superId)

def sessionHasExpired (session : Json) (now : UInt64) : Bool :=
  match u64At session "expiresAt" with
  | none => true
  | some expires => decide (expires = 0) || decide (now.toNat ≥ expires)

def isReplaced (session : Json) : Bool := (u64At session "replacedAt").isSome

def expiresAt (now : UInt64) : Nat := min (now.toNat + sessionTtlSecs) (2 ^ 64 - 1)

def payload (userKey : String) (user : Json) (now : UInt64) : Json := jsonObject [
  ("userId", .str userKey),
  ("role", (user.get? "role").getD (.str "")),
  ("schoolId", (user.get? "schoolId").getD (.str "")),
  ("displayName", (user.get? "displayName").getD (.str userKey)),
  ("expiresAt", .int (expiresAt now))]

/-- The document with its replacement noted; `none` when it is no object. -/
def marked (session : Json) (now : UInt64) : Option Json :=
  session.asObject.map fun fields => .obj (AssocList.assign "replacedAt" (.int now.toNat) fields)

/-! ### The two kinds of row -/

inductive Row where
  | absent
  /-- A text that is not JSON; logging out leaves the empty one. -/
  | text
  | doc (session : Json)

/-- The rows `auth_session:…` and `auth_active_session:…`; an absent active row reads as an empty
one. -/
structure Db where
  session : String → Row
  active : String → String

def Row.doc? : Row → Option Json
  | .doc session => some session
  | _ => none

/-- SQLite's `trim(v) = ''`. -/
def sqlBlank (v : String) : Bool := v.toList.all fun c => c == ' '

namespace Db
variable (db : Db)

def setSession (token : String) (row : Row) : Db :=
  { db with session := Function.update db.session token row }

def setActive (userKey value : String) : Db :=
  { db with active := Function.update db.active userKey value }

/-- `clear_active_session_if_matches`. -/
def clearActive (userKey token : String) : Db :=
  if trim userKey ≠ "" ∧ db.active userKey = token then db.setActive userKey "" else db

@[simp] theorem setSession_active (token : String) (row : Row) :
    (db.setSession token row).active = db.active := rfl

@[simp] theorem setSession_self (token : String) (row : Row) :
    (db.setSession token row).session token = row := Function.update_self ..

theorem setSession_ne {token other : String} (h : other ≠ token) (row : Row) :
    (db.setSession token row).session other = db.session other := Function.update_of_ne h ..

@[simp] theorem setActive_session (userKey value : String) :
    (db.setActive userKey value).session = db.session := rfl

@[simp] theorem setActive_self (userKey value : String) :
    (db.setActive userKey value).active userKey = value := Function.update_self ..

theorem setActive_ne {userKey other : String} (h : other ≠ userKey) (value : String) :
    (db.setActive userKey value).active other = db.active other := Function.update_of_ne h ..

@[simp] theorem clearActive_session (userKey token : String) :
    (db.clearActive userKey token).session = db.session := by
  unfold clearActive
  split <;> rfl

/-- An active row is emptied or stays; it is emptied only where it names the token. -/
theorem clearActive_active (userKey token other : String) :
    (db.clearActive userKey token).active other = db.active other ∨
      ((db.clearActive userKey token).active other = "" ∧ db.active other = token) := by
  unfold clearActive
  split
  · rename_i h
    rcases eq_or_ne other userKey with rfl | hne
    · exact .inr ⟨setActive_self .., h.2⟩
    · exact .inl (setActive_ne db hne _)
  · exact .inl rfl

end Db

/-! ### Requests -/

inductive Request where
  | require (authToken : Option String)
  | session (token : String)
  | logout (authToken bodyToken : Option String)
  /-- A login whose password has been accepted. -/
  | login (userKey : String) (user : Json)

inductive Answer where
  | accepted (token : String) (session : Json)
  | rejected
  | error (code : String)
  | issued (token : String)
  | failed
  | done

inductive Phase where
  | waiting
  | expiring (token : String) (session : Json)
  | expired (token : String) (session : Json)
  | checked (token : String) (session : Json)
  | comparing (token : String) (session : Json)
  | rejecting (token : String)
  | leaving (token : String) (session : Option Json)
  | left (token : String) (session : Json)
  | issued (token : String)
  | replacing (token previous : String)
  | undoing (token : String)
  | replaced (token previous : String)
  | marking (token previous : String) (session : Json)
  | emptying (token previous : String)
  | ended (answer : Answer)

structure Label where
  thread : Nat
  ok : Bool := true
  now : UInt64 := 0
  token : String := ""

namespace Phase

/-- The phases in which a request holds `SESSION_LOGIN_GUARD`. -/
def holds : Phase → Bool
  | .comparing _ _ | .issued _ | .replacing _ _ | .undoing _ | .replaced _ _ | .marking _ _ _
  | .emptying _ _ => true
  | _ => false

/-- The phases whose next step takes the guard. -/
def takesGuard (req : Request) : Phase → Bool
  | .waiting => match req with
    | .login _ _ => true
    | _ => false
  | .checked _ _ => true
  | _ => false

end Phase

/-- The end of a check that fails, with the error `session_json` reports. -/
def reject (req : Request) (code : String) : Phase :=
  match req with
  | .session _ => .ended (.error code)
  | _ => .ended .rejected

/-- `session_is_active` has answered no; `session_json` empties the row. -/
def notActive (req : Request) (token : String) : Phase :=
  match req with
  | .session _ => .rejecting token
  | _ => .ended .rejected

/-- The session row is read; the checks that need no other row. -/
def checkRow (db : Db) (req : Request) (l : Label) (token : String) : Phase :=
  match (if l.ok then (db.session token).doc? else none) with
  | none => reject req "invalid_session"
  | some session =>
    if sessionHasExpired session l.now then .expiring token session
    else if isSuperadminSession session then .ended (.accepted token session)
    else if isReplaced session || decide (account session = "") then notActive req token
    else .checked token session

/-- The token a logout names: the header's, else the body's. -/
def logoutToken (authToken bodyToken : Option String) : Option String :=
  ((authToken.map trim).filter fun t => t ≠ "").or
    ((bodyToken.map trim).filter fun t => t ≠ "")

/-- A token as the random generator draws it: no row has ever been written under it. -/
def Fresh (db : Db) (token : String) : Prop :=
  (match db.session token with | .absent => True | _ => False) ∧ trim token = token ∧ token ≠ ""

instance (db : Db) (token : String) : Decidable (Fresh db token) := by
  unfold Fresh
  cases db.session token <;> infer_instance

/-- The first storage call of a request. -/
def start (db : Db) (req : Request) (l : Label) : Option (Db × Phase) :=
  match req with
  | .require authToken =>
    match (authToken.map trim).filter fun t => t ≠ "" with
    | none => some (db, .ended .rejected)
    | some token => some (db, checkRow db req l token)
  | .session token =>
    if trim token = "" then some (db, .ended (.error "missing_token"))
    else some (db, checkRow db req l (trim token))
  | .logout authToken bodyToken =>
    match logoutToken authToken bodyToken with
    | none => some (db, .ended .done)
    | some token =>
      some (db, .leaving token (if l.ok then (db.session token).doc? else none))
  | .login userKey user =>
    if Fresh db l.token then
      if l.ok then
        some (db.setSession l.token (.doc (payload userKey user l.now)),
          if userKey = superId then .ended (.issued l.token) else .issued l.token)
      else some (db, .ended .failed)
    else none

/-- The account a login is for. -/
def Request.userKey : Request → String
  | .login userKey _ => userKey
  | _ => ""

/-- One storage call of a request. -/
def act (db : Db) (req : Request) (l : Label) : Phase → Option (Db × Phase)
  | .waiting => start db req l
  | .expiring token session =>
    some (if l.ok then db.setSession token .text else db, .expired token session)
  | .expired token session =>
    some (if l.ok then db.clearActive (userOf session) token else db, reject req "session_expired")
  | .checked token session =>
    if l.ok && sqlBlank (db.active (account session)) then
      some (db.setActive (account session) token, .ended (.accepted token session))
    else some (db, .comparing token session)
  | .comparing token session =>
    some (db, if l.ok && decide (trim (db.active (account session)) = token)
      then .ended (.accepted token session) else notActive req token)
  | .rejecting token =>
    some (if l.ok then db.setSession token .text else db, .ended (.error "session_replaced"))
  | .leaving token session =>
    some (if l.ok then db.setSession token .text else db,
      match session.filter fun session => !isSuperadminSession session with
      | none => .ended .done
      | some session => .left token session)
  | .left token session =>
    some (if l.ok then db.clearActive (userOf session) token else db, .ended .done)
  | .issued token =>
    some (db, .replacing token (if l.ok then db.active req.userKey else ""))
  | .replacing token previous =>
    if l.ok then
      some (db.setActive req.userKey token,
        if trim previous ≠ "" ∧ trim previous ≠ token then .replaced token (trim previous)
        else .ended (.issued token))
    else some (db, .undoing token)
  | .undoing token => some (if l.ok then db.setSession token .text else db, .ended .failed)
  | .replaced token previous =>
    match (if l.ok then (db.session previous).doc? else none).bind (marked · l.now) with
    | some session => some (db, .marking token previous session)
    | none => some (db, .emptying token previous)
  | .marking token previous session =>
    if l.ok then some (db.setSession previous (.doc session), .ended (.issued token))
    else some (db, .emptying token previous)
  | .emptying token previous =>
    some (if l.ok then db.setSession previous .text else db, .ended (.issued token))
  | .ended _ => none

/-- `logins` is history: account and token of every login that has written the active row, the
last one first. -/
structure State where
  db : Db
  guard : Option Nat := none
  phase : Nat → Phase := fun _ => .waiting
  logins : List (String × String) := []

/-- The history after a step from a phase. -/
def noteLogin (req : Request) (ok : Bool) (logins : List (String × String)) :
    Phase → List (String × String)
  | .replacing token _ => if ok then (req.userKey, token) :: logins else logins
  | _ => logins

/-- The token of the account's last login. -/
def latest (logins : List (String × String)) (u : String) : Option String := logins.lookup u

variable (reqs : Nat → Request)

def step (s : State) (l : Label) : Option State :=
  let phase := s.phase l.thread
  if phase.takesGuard (reqs l.thread) && s.guard.isSome then none
  else
    (act s.db (reqs l.thread) l phase).map fun (db, next) =>
      { db := db
        guard := if next.holds then some l.thread
          else if phase.holds then none else s.guard
        phase := Function.update s.phase l.thread next
        logins := noteLogin (reqs l.thread) l.ok s.logins phase }

def Step (s : State) (l : Label) (t : State) : Prop := step reqs s l = some t

/-- `require_session` with nothing else in between, and every call served. -/
def requireSession (db : Db) (now : UInt64) (authToken : Option String) : Option Json :=
  ((authToken.map trim).filter fun t => t ≠ "").bind fun token =>
    (db.session token).doc?.bind fun session =>
      if sessionHasExpired session now then none
      else if isSuperadminSession session then some session
      else if isReplaced session || decide (account session = "") then none
      else if sqlBlank (db.active (account session)) ||
        decide (trim (db.active (account session)) = token) then some session
      else none

end TkbCherry.Session
