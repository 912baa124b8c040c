import TkbCherry.Agent.Model

/-!
# Pairing a device

`agent_helper.rs`: a device starts a pairing and polls under its device code; an owner types the
user code, begins an approval, and completes it under the ticket of the approval, or aborts it.
Pairings are kept under the hash of the device code. The codes and secrets that a call draws are
arguments.
-/

namespace TkbCherry.Agent

set_option autoImplicit false

open Table TkbCherry.Pool

def agentPairTtlMs : Nat := 5 * 60 * 1000
def agentPairPollMs : Nat := 1500
def maxAgentPairings : Nat := 256
def maxWorkerNameBytes : Nat := 120

inductive AgentPairError where
  | invalidRequest
  | capacity
  | notFound
  | expired
  | alreadyApproved
  | approvalMismatch
deriving DecidableEq, Repr

inductive AgentPairState where
  | pending
  | approving (owner : SolverOwner) (approvalTokenHash : String)
  | approved (owner : SolverOwner) (agentToken : String) (agentTokenExpiresAt : Nat)
deriving DecidableEq, Repr

structure AgentPairing where
  userCode : String
  agentId : String
  agentName : String
  expiresAtMs : Nat
  state : AgentPairState
deriving DecidableEq, Repr

abbrev AgentPairings := Entries String AgentPairing

structure AgentPairStart where
  deviceCode : String
  userCode : String
  agentId : String
  agentName : String
  expiresAtMs : Nat
  pollEveryMs : Nat
deriving DecidableEq, Repr

structure AgentPairApprovalTicket where
  pairingKey : String
  approvalToken : String
  agentId : String
  agentName : String
  expiresAtMs : Nat
deriving DecidableEq, Repr

inductive AgentPairStatus where
  | pending (expiresAtMs pollEveryMs : Nat)
  | approved (agentToken : String) (agentTokenExpiresAt expiresAtMs : Nat)
deriving DecidableEq, Repr

/-! ### Codes and names -/

/-- `char::is_control`. -/
def isControl (c : Char) : Bool := decide (c.toNat ≤ 31) || decide (127 ≤ c.toNat ∧ c.toNat ≤ 159)

/-- The longest beginning of at most so many bytes. -/
def takeBytes (maxBytes : Nat) : List Char → List Char
  | [] => []
  | c :: cs => if c.utf8Size > maxBytes then [] else c :: takeBytes (maxBytes - c.utf8Size) cs

def normalizeWorkerName (value fallback : String) : String :=
  let shown := (Text.trim value).toList.filter fun c => !isControl c
  let cleaned := Text.trim (String.ofList (takeBytes maxWorkerNameBytes shown))
  if cleaned = "" then fallback else cleaned

/-- The letters and digits of a user code. -/
def userCodeAlphabet : List Char := "ABCDEFGHJKLMNPQRSTUVWXYZ23456789".toList

/-- `u8::is_ascii_whitespace`, and the hyphen. -/
def isUserCodeSeparator (c : Char) : Bool := decide (c ∈ [' ', '\t', '\n', '\x0c', '\r', '-'])

/-- A byte outside ASCII is in no alphabet, so this reads characters. -/
def normalizeUserCode (value : String) : Option String :=
  let compact := (value.toList.filter fun c => !isUserCodeSeparator c).map Char.toUpper
  if compact.length = 8 ∧ compact.all (fun c => decide (c ∈ userCodeAlphabet)) = true then
    some (String.ofList (compact.take 4) ++ "-" ++ String.ofList (compact.drop 4))
  else none

def normalizeDeviceCode (value : String) : Option String :=
  let value := Text.trim value
  if value.utf8ByteSize = 69 ∧ "tkbp_".toList.isPrefixOf value.toList = true ∧
      ((Text.bytes value).drop 5).all Text.isAsciiHexdigit = true
  then some value else none

/-! ### The calls -/

variable (env : Env)

/-- What pruning does to the pairings. -/
def prunePairings (pairings : AgentPairings) (nowMs : Nat) : AgentPairings :=
  retain (fun _ pairing => decide (pairing.expiresAtMs > nowMs)) pairings

def deviceCodeOf (secret : String) : String := "tkbp_" ++ secret

/-- The key or the user code is in use. -/
def pairingTaken (pairings : AgentPairings) (draw : String × String) : Bool :=
  (pairings.lookup (env.secretHash (deviceCodeOf draw.1))).isSome ||
    (toList pairings).any fun e => decide (e.2.userCode = draw.2)

/-- `draws` are the secrets and user codes of the tries, one after the other. -/
def startPairing (pairings : AgentPairings) (agentId agentName : String)
    (draws : Nat → String × String) (nowMs : Nat) :
    AgentPairings × Except AgentPairError AgentPairStart :=
  match normalizeWorkerId agentId with
  | none => (pairings, .error .invalidRequest)
  | some agentId =>
    let agentName := normalizeWorkerName agentName agentId
    let pairings := prunePairings pairings nowMs
    if size pairings ≥ maxAgentPairings then (pairings, .error .capacity)
    else
      match (List.range 32).find? fun i => !pairingTaken env pairings (draws i) with
      | none => (pairings, .error .capacity)
      | some i =>
        let deviceCode := deviceCodeOf (draws i).1
        let userCode := (draws i).2
        let expiresAtMs := after nowMs agentPairTtlMs
        (pairings.insert (env.secretHash deviceCode)
            ⟨userCode, agentId, agentName, expiresAtMs, .pending⟩,
          .ok ⟨deviceCode, userCode, agentId, agentName, expiresAtMs, agentPairPollMs⟩)

def setPairState (pairings : AgentPairings) (pairingKey : String) (state : AgentPairState) :
    AgentPairings :=
  modify pairingKey (fun pairing => { pairing with state }) pairings

def beginPairApproval (pairings : AgentPairings) (userCode : String) (owner : SolverOwner)
    (approvalToken : String) (nowMs : Nat) :
    AgentPairings × Except AgentPairError AgentPairApprovalTicket :=
  match normalizeUserCode userCode with
  | none => (pairings, .error .invalidRequest)
  | some userCode =>
    match (toList pairings).find? fun e => decide (e.2.userCode = userCode) with
    | none => (pairings, .error .notFound)
    | some (pairingKey, pairing) =>
      if pairing.expiresAtMs ≤ nowMs then (pairings.erase pairingKey, .error .expired)
      else
        match pairing.state with
        | .pending =>
          (setPairState pairings pairingKey (.approving owner (env.secretHash approvalToken)),
            .ok ⟨pairingKey, approvalToken, pairing.agentId, pairing.agentName, pairing.expiresAtMs⟩)
        | .approving _ _ => (pairings, .error .alreadyApproved)
        | .approved _ _ _ => (pairings, .error .alreadyApproved)

/-- The approval is going on under this ticket of this owner. -/
def AgentPairApprovalTicket.matches (ticket : AgentPairApprovalTicket) (owner : SolverOwner)
    (state : AgentPairState) : Bool :=
  decide (state = .approving owner (env.secretHash ticket.approvalToken))

def completePairApproval (pairings : AgentPairings) (ticket : AgentPairApprovalTicket)
    (owner : SolverOwner) (agentToken : String) (agentTokenExpiresAt nowMs : Nat) :
    AgentPairings × Except AgentPairError Unit :=
  let agentToken := Text.trim agentToken
  if "tkba_".toList.isPrefixOf agentToken.toList = false ∨ 512 < agentToken.utf8ByteSize ∨
      agentTokenExpiresAt = 0 then (pairings, .error .invalidRequest)
  else
    match pairings.lookup ticket.pairingKey with
    | none => (pairings, .error .notFound)
    | some pairing =>
      if pairing.expiresAtMs ≤ nowMs then (pairings.erase ticket.pairingKey, .error .expired)
      else if ticket.matches env owner pairing.state then
        (setPairState pairings ticket.pairingKey (.approved owner agentToken agentTokenExpiresAt),
          .ok ())
      else (pairings, .error .approvalMismatch)

def abortPairApproval (pairings : AgentPairings) (ticket : AgentPairApprovalTicket)
    (owner : SolverOwner) (nowMs : Nat) : AgentPairings :=
  match pairings.lookup ticket.pairingKey with
  | none => pairings
  | some pairing =>
    if pairing.expiresAtMs ≤ nowMs then pairings.erase ticket.pairingKey
    else if ticket.matches env owner pairing.state then
      setPairState pairings ticket.pairingKey .pending
    else pairings

def pairingStatus (pairings : AgentPairings) (deviceCode : String) (nowMs : Nat) :
    AgentPairings × Except AgentPairError AgentPairStatus :=
  match normalizeDeviceCode deviceCode with
  | none => (pairings, .error .invalidRequest)
  | some deviceCode =>
    let pairingKey := env.secretHash deviceCode
    match pairings.lookup pairingKey with
    | none => (pairings, .error .notFound)
    | some pairing =>
      if pairing.expiresAtMs ≤ nowMs then (pairings.erase pairingKey, .error .expired)
      else
        match pairing.state with
        | .approved _ agentToken agentTokenExpiresAt =>
          (pairings, .ok (.approved agentToken agentTokenExpiresAt pairing.expiresAtMs))
        | _ => (pairings, .ok (.pending pairing.expiresAtMs agentPairPollMs))

/-! ### Runs -/

inductive PairOp where
  | start (agentId agentName : String) (draws : Nat → String × String) (nowMs : Nat)
  | beginApproval (userCode : String) (owner : SolverOwner) (approvalToken : String) (nowMs : Nat)
  | complete (ticket : AgentPairApprovalTicket) (owner : SolverOwner) (agentToken : String)
      (agentTokenExpiresAt nowMs : Nat)
  | abort (ticket : AgentPairApprovalTicket) (owner : SolverOwner) (nowMs : Nat)
  | poll (deviceCode : String) (nowMs : Nat)
  /-- Any other call of the coordinator that prunes. -/
  | prune (nowMs : Nat)

def PairOp.nowMs : PairOp → Nat
  | .start _ _ _ nowMs => nowMs
  | .beginApproval _ _ _ nowMs => nowMs
  | .complete _ _ _ _ nowMs => nowMs
  | .abort _ _ nowMs => nowMs
  | .poll _ nowMs => nowMs
  | .prune nowMs => nowMs

/-- A call that succeeded. -/
inductive PairEvent where
  | started (deviceCode : String)
  | began (owner : SolverOwner) (approvalToken : String)
  | completed (owner : SolverOwner) (approvalToken agentToken : String) (agentTokenExpiresAt : Nat)

def PairEvent.isCompleted : PairEvent → Bool
  | .completed _ _ _ _ => true
  | _ => false

/-- The pairings, and under each key what succeeded since its pairing started, newest first. -/
structure PairWorld where
  pairings : AgentPairings
  history : String → List PairEvent

namespace PairWorld

def empty : PairWorld := ⟨∅, fun _ => []⟩

/-- The history with that of one key replaced. -/
def record (history : String → List PairEvent) (key : String) (events : List PairEvent) :
    String → List PairEvent :=
  fun k => if k = key then events else history k

def apply (w : PairWorld) : PairOp → PairWorld
  | .start agentId agentName draws nowMs =>
    let (pairings, answer) := startPairing env w.pairings agentId agentName draws nowMs
    match answer with
    | .ok started =>
      ⟨pairings, record w.history (env.secretHash started.deviceCode) [.started started.deviceCode]⟩
    | .error _ => ⟨pairings, w.history⟩
  | .beginApproval userCode owner approvalToken nowMs =>
    let (pairings, answer) := beginPairApproval env w.pairings userCode owner approvalToken nowMs
    match answer with
    | .ok ticket =>
      ⟨pairings, record w.history ticket.pairingKey
        (.began owner ticket.approvalToken :: w.history ticket.pairingKey)⟩
    | .error _ => ⟨pairings, w.history⟩
  | .complete ticket owner agentToken agentTokenExpiresAt nowMs =>
    let (pairings, answer) := completePairApproval env w.pairings ticket owner agentToken
      agentTokenExpiresAt nowMs
    match answer with
    | .ok _ =>
      ⟨pairings, record w.history ticket.pairingKey
        (.completed owner ticket.approvalToken agentToken agentTokenExpiresAt ::
          w.history ticket.pairingKey)⟩
    | .error _ => ⟨pairings, w.history⟩
  | .abort ticket owner nowMs => ⟨abortPairApproval env w.pairings ticket owner nowMs, w.history⟩
  | .poll deviceCode nowMs => ⟨(pairingStatus env w.pairings deviceCode nowMs).1, w.history⟩
  | .prune nowMs => ⟨prunePairings w.pairings nowMs, w.history⟩

def run (w : PairWorld) (ops : List PairOp) : PairWorld := ops.foldl (apply env) w

end PairWorld

end TkbCherry.Agent
