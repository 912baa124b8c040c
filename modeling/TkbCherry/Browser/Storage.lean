import TkbCherry.Lib.Json
import TkbCherry.Lib.Transition

/-!
# The school store of a page

The loads and saves of `storage.js` and the guard in front of the saves. A load or a save is
in two parts, since the page goes on while a request is under way: the server may take a save at any
time after it was sent, and replies arrive in any order or not at all. A synchronous load is a load
whose reply is read by `safeParseJSON`.
-/

namespace TkbCherry.Browser

set_option autoImplicit false

/-! ### Content -/

/-- The characters that `String.prototype.trim` takes off. -/
def isJsSpace (c : Char) : Bool :=
  let n := c.toNat
  decide (9 ≤ n ∧ n ≤ 13) || decide (n = 32) || decide (n = 160) || decide (n = 5760) ||
    decide (8192 ≤ n ∧ n ≤ 8202) || decide (n = 8232) || decide (n = 8233) || decide (n = 8239) ||
    decide (n = 8287) || decide (n = 12288) || decide (n = 65279)

def isBlank (s : String) : Bool := s.toList.all isJsSpace

mutual

def hasDeepContent : Json → Bool
  | .arr items => !items.isEmpty
  | .obj fields => someDeepContent fields
  | .null => false
  | .str s => !isBlank s
  | .bool _ | .int _ | .float _ => true

def someDeepContent : List (String × Json) → Bool
  | [] => false
  | (_, value) :: rest => hasDeepContent value || someDeepContent rest

end

def hasMeaningfulConstraints (constraints : Json) : Bool :=
  match constraints with
  | .obj fields =>
    fields.any fun (key, value) => key != "meta" && key != "__normalizedBy" && hasDeepContent value
  | _ => false

def hasObjectEntries (obj : Json) : Bool :=
  match obj with
  | .obj fields => !fields.isEmpty
  | _ => false

def hasItems (list : Json) : Bool :=
  match list with
  | .arr items => !items.isEmpty
  | _ => false

def hasMeaningfulData (data : Json) : Bool :=
  let under (test : Json → Bool) (key : String) : Bool := (data.get? key).any test
  ["khoi", "lop", "giaovien", "monhoc", "mon"].any (under hasItems) ||
    ["pccmMatrix", "pccmTietMatrix", "pccmGioihanMatrix", "tkb", "tkbUserOff"].any
      (under hasObjectEntries) ||
    under hasMeaningfulConstraints "tkbConstraints"

/-! ### The guard -/

inductive LoadState where
  | ok
  | okEmpty
  | failed
deriving DecidableEq, Repr

/-- What the scripts of the page share. -/
structure Page where
  remoteLoadState : String → Option LoadState
  remoteAuthRequired : Bool

/-- `typeof data === "object"` for a value that is not null. -/
def isObject : Json → Bool
  | .obj _ | .arr _ => true
  | _ => false

def loadStateOf (data : Option Json) : LoadState :=
  match data with
  | some value =>
    if isObject value then if hasMeaningfulData value then .ok else .okEmpty else .failed
  | none => .failed

def noteRemoteLoad (page : Page) (id : String) (data : Option Json) : Page :=
  { page with remoteLoadState := Function.update page.remoteLoadState id (some (loadStateOf data)) }

/-- `JSON.parse` of a text as `safeParseJSON` hands it on: an empty object when it is no JSON,
since `null ?? {}` is one. -/
def safeParseJSON (parsed : Option Json) : Json := parsed.getD (.obj [])

structure Refusal where
  kind : String
  message : String
deriving DecidableEq, Repr

def remoteLoadFailedGuard : Refusal where
  kind := "remote_load_failed_guard"
  message := "Lúc mở trang KHÔNG nạp được dữ liệu trường từ máy chủ (mạng/máy chủ lỗi hoặc hết phiên " ++
    "đăng nhập), nên trang này không lưu để tránh ghi đè kho bằng bản trống/cũ. Hãy tải lại trang rồi " ++
    "thao tác lại."

def emptyPayloadGuard (state : Option LoadState) : Refusal where
  kind := "empty_payload_guard"
  message :=
    if state = some .ok then
      "Bản đang giữ trên trang trống rỗng trong khi kho trên máy chủ đang có dữ liệu — không lưu để " ++
        "tránh xoá sạch trường. Hãy tải lại trang; nếu thật sự muốn xoá trường, dùng mục Quản lý."
    else
      "Trang chưa nạp được kho trường từ máy chủ mà lại định lưu bản trống — không lưu để tránh xoá " ++
        "sạch. Hãy tải lại trang."

/-- `none` lets the save pass. -/
def remoteSaveGuard (page : Page) (id : String) (dataJson : Option Json) : Option Refusal :=
  let state := page.remoteLoadState id
  let meaningful := hasMeaningfulData (safeParseJSON dataJson)
  if state = some .failed then some remoteLoadFailedGuard
  else if !meaningful && state ≠ some .okEmpty then some (emptyPayloadGuard state)
  else none

/-! ### Requests -/

/-- The reply to a load: a body with status 2xx, as JSON when it is JSON; 401 or 403; anything
else. -/
inductive LoadReply where
  | answered (body : Option Json)
  | denied
  | failed

inductive SaveReply where
  | accepted
  | denied
  | failed

/-- What a load goes on with after its reply: nothing, or the rest of a load with fallback. -/
inductive Continuation where
  | done
  | direct (target : String)
  | related (target : String) (rest : List String)

structure LoadRequest where
  id : String
  sync : Bool
  after : Continuation

/-- A save stays under way until it is accepted: the server may take it after the page has given
the reply up. `answered` says that the page has. -/
structure SaveRequest where
  id : String
  dataJson : Option Json
  committed : Bool
  answered : Bool

/-- What held when a save was sent. -/
structure SentSave where
  id : String
  meaningful : Bool
  storeMeaningful : Bool
  lastLoadFailed : Bool
deriving DecidableEq, Repr

/-- The page, the server and the requests between them, with the saves sent and whether the last
load of each school failed. -/
structure World where
  page : Page
  store : String → Json
  loads : List LoadRequest
  saves : List SaveRequest
  lastLoadFailed : String → Bool
  sent : List SentSave

/-- The value a load works with. -/
def received (sync : Bool) : LoadReply → Option Json
  | .answered body => if sync then some (safeParseJSON body) else body
  | .denied | .failed => none

/-- A load fails when it gets no JSON object: an error, a lost reply or a broken body. -/
def loadFails : LoadReply → Bool
  | .answered (some value) => !isObject value
  | .answered none | .denied | .failed => true

def LoadReply.denies : LoadReply → Bool
  | .denied => true
  | _ => false

namespace World

section

variable (cleanSchoolId : String → String)

/-- A load has its outcome. -/
def noteLoad (w : World) (id : String) (data : Option Json) (fails : Bool) : World :=
  { w with
    page := noteRemoteLoad w.page id data
    lastLoadFailed := Function.update w.lastLoadFailed id fails }

/-- `loadRemoteSchoolData` and `loadRemoteSchoolDataSync` up to the request. -/
def startLoad (w : World) (sync : Bool) (schoolId : String) (after : Continuation) : World :=
  if w.page.remoteAuthRequired then w.noteLoad (cleanSchoolId schoolId) none true
  else { w with loads := w.loads ++ [⟨cleanSchoolId schoolId, sync, after⟩] }

/-- `loadRemoteSchoolDataWithFallback` and its synchronous form up to the first request. -/
def startLoadWithFallback (w : World) (sync : Bool) (schoolId : String) : World :=
  let target := cleanSchoolId schoolId
  w.startLoad cleanSchoolId sync target (.direct target)

/-- `saveRemoteSchoolData` up to the request. -/
def saveRemoteSchoolData (w : World) (schoolId : String) (dataJson : Option Json) : World :=
  let id := cleanSchoolId schoolId
  if w.page.remoteAuthRequired then w
  else
    match remoteSaveGuard w.page id dataJson with
    | some _ => w
    | none =>
      { w with
        saves := w.saves ++ [⟨id, dataJson, false, false⟩]
        sent := w.sent ++ [⟨id, hasMeaningfulData (safeParseJSON dataJson),
          hasMeaningfulData (w.store id), w.lastLoadFailed id⟩] }

/-- The loop of a load with fallback over the related stores. -/
def tryRelated (w : World) (sync : Bool) (target : String) (ids : List String) : World :=
  match ids with
  | [] => w
  | id :: rest =>
    if w.page.remoteAuthRequired then w
    else w.startLoad cleanSchoolId sync id (.related target rest)

/-- What follows a load; `related` is what `relatedStoreIds` gives for the target. -/
def continueLoad (w : World) (request : LoadRequest) (data : Option Json) (related : List String) :
    World :=
  let meaningful := data.any hasMeaningfulData
  match request.after with
  | .done => w
  | .direct target =>
    if w.page.remoteAuthRequired || meaningful then w
    else w.tryRelated cleanSchoolId request.sync target (related.filter (· ≠ target))
  | .related target rest =>
    if meaningful then w.saveRemoteSchoolData cleanSchoolId target data
    else w.tryRelated cleanSchoolId request.sync target rest

/-- `reportRemoteAuthRequired`. -/
def latch (w : World) (denied : Bool) : World :=
  { w with page := { w.page with remoteAuthRequired := w.page.remoteAuthRequired || denied } }

/-- A load's reply arrives. -/
def loadReply (w : World) (i : Nat) (reply : LoadReply) (related : List String) : World :=
  match w.loads[i]? with
  | none => w
  | some request =>
    let data := received request.sync reply
    let w := { w with loads := w.loads.eraseIdx i }
    let w := (w.latch reply.denies).noteLoad request.id data (loadFails reply)
    w.continueLoad cleanSchoolId request data related

/-- The server takes a save. It refuses what is no JSON. -/
def commit (w : World) (i : Nat) : World :=
  match w.saves[i]? with
  | some ⟨id, some data, _, answered⟩ =>
    { w with
      store := Function.update w.store id data
      saves := w.saves.set i ⟨id, some data, true, answered⟩ }
  | _ => w

/-- A save's reply arrives, or the page gives it up. -/
def saveReply (w : World) (i : Nat) (reply : SaveReply) : World :=
  match w.saves[i]? with
  | none => w
  | some request =>
    if request.answered then w
    else
      let given := { w with saves := w.saves.set i { request with answered := true } }
      match reply with
      | .denied => given.latch true
      | .failed => given
      | .accepted =>
        { w with
          saves := w.saves.eraseIdx i
          page := { w.page with
            remoteLoadState := Function.update w.page.remoteLoadState request.id
              (some (if hasMeaningfulData (safeParseJSON request.dataJson) then .ok else .okEmpty)) } }

end

end World

inductive Event where
  | load (sync : Bool) (schoolId : String)
  | loadWithFallback (sync : Bool) (schoolId : String)
  | loadReply (i : Nat) (reply : LoadReply) (related : List String)
  | save (schoolId : String) (dataJson : Option Json)
  | commit (i : Nat)
  | saveReply (i : Nat) (reply : SaveReply)
  | authReady

def step (cleanSchoolId : String → String) (w : World) : Event → World
  | .load sync schoolId => w.startLoad cleanSchoolId sync schoolId .done
  | .loadWithFallback sync schoolId => w.startLoadWithFallback cleanSchoolId sync schoolId
  | .loadReply i reply related => w.loadReply cleanSchoolId i reply related
  | .save schoolId dataJson => w.saveRemoteSchoolData cleanSchoolId schoolId dataJson
  | .commit i => w.commit i
  | .saveReply i reply => w.saveReply i reply
  | .authReady => { w with page := { w.page with remoteAuthRequired := false } }

/-- A page just opened, on a server with these stores. -/
def opened (store : String → Json) : World where
  page := ⟨fun _ => none, false⟩
  store := store
  loads := []
  saves := []
  lastLoadFailed := fun _ => false
  sent := []

end TkbCherry.Browser
