import TkbCherry.Lib.Json
import TkbCherry.Pool.Model

/-!
# The agent coordinator

`agent_helper.rs`: workers under the hash of their token, jobs cut into seeded tasks, and the
leases on the tasks. Every call takes the lock once and prunes what is due before it looks at
anything. Pairings and the replay cache of the external solver are left out.

The secrets a call draws are arguments; `serial` is the registration an `AgentJob` belongs to.
-/

namespace TkbCherry.Agent

set_option autoImplicit false

open Table TkbCherry.Pool

def agentWorkerTtlMs : Nat := 90000
def agentPresenceTtlMs : Nat := 15000
def agentWorkLeaseMs : Nat := 30000
def agentJobTtlMs : Nat := 6 * 60 * 60 * 1000
def maxAgentWorkers : Nat := 128
def maxAgentWorkersPerOwner : Nat := 16
def maxTrustedHandoffRequests : Nat := 1024
def maxAgentParallelPerWorker : Nat := 8
def maxAgentSeedsPerJob : Nat := 16
def maxWorkerIdBytes : Nat := 80
def maxJobScopeBytes : Nat := 256
def u32Max : Nat := 4294967295

/-- What the file calls outside the repository: the salted SHA-256 of a token, the JSON parser,
and the SHA-256 seed of a job's task. -/
structure Env where
  secretHash : String → String
  fromSlice : List UInt8 → Option Json
  seedFor : String → Nat → Nat

/-- `now_ms.saturating_add(ttl)`. -/
def after (nowMs ttl : Nat) : Nat := min (nowMs + ttl) u64Max

inductive AgentHelperError where
  | invalidWorker
  | invalidLeaseRequest
  | unauthorizedWorker
  | workerCapacity
  | jobNotFound
  | noWork
  | workerAtCapacity
  | leaseNotFound
  | leaseExpired
  | workAlreadyCompleted
deriving DecidableEq, Repr

structure ResourceTelemetry where
  systemCpuTenths : Option Nat
  systemRamTenths : Option Nat
  sampledAtMs : Nat
deriving DecidableEq, Repr

/-- The fields of a registration that no call changes. -/
structure WorkerHeader where
  owner : SolverOwner
  trustedGlobal : Bool
  sessionBinding : String
  workerId : String
  jobScope : Option String
  eligible : Bool
  explicitlyPaused : Bool
  maxParallel : Nat
deriving DecidableEq, Repr

structure AgentWorker extends WorkerHeader where
  lastSeenMs : Nat
  expiresAtMs : Nat
  resourceTelemetry : Option ResourceTelemetry
deriving DecidableEq, Repr

structure TaskLease where
  workerTokenHash : String
  leaseTokenHash : String
  leaseToken : String
  leaseRequestId : String
  expiresAtMs : Nat
deriving DecidableEq, Repr

inductive AgentTaskState where
  | queued
  | leased (lease : TaskLease)
  | completed
deriving DecidableEq, Repr

structure AgentTask where
  workId : String
  seed : Nat
  attempt : Nat
  state : AgentTaskState
deriving DecidableEq, Repr

/-- The quality is compared from its first entry on. -/
structure AgentCandidate where
  workId : String
  workerId : String
  seed : Nat
  payload : Json
  quality : List Int

/-- The fields of a job that no call changes. -/
structure JobHeader where
  jobId : String
  owner : SolverOwner
  trustedGlobalEligible : Bool
  browserAgentRequired : Bool
  nativeAgentId : Option String
  createdAtMs : Nat
  requestBody : List UInt8
  serial : Nat

structure JobCandidates where
  bestCandidate : Option AgentCandidate
  checkpointCandidate : Option AgentCandidate
  resumeCheckpointCandidate : Option AgentCandidate

structure AgentJob extends JobHeader, JobCandidates where
  tasks : List AgentTask

structure TrustedHandoffRequest where
  workerTokenHash : String
  expiresAtMs : Nat
  jobId : Option String
  capacityReserved : Bool

abbrev Workers := Entries String AgentWorker
abbrev AgentJobs := Entries String AgentJob

structure AgentHelperState where
  workers : Workers
  jobs : AgentJobs
  trustedHandoffRequests : Entries String TrustedHandoffRequest
  trustedHandoffCapacityReleases : List String
  nextSerial : Nat

def AgentHelperState.empty : AgentHelperState := ⟨∅, ∅, ∅, [], 0⟩

/-! ### Candidates -/

def mobileLocalQualityTerminalMarker (payload : Json) : Bool :=
  let marker := "mobile_local_quality_terminal"
  ((payload.get? marker).bind Json.asBool).getD false ||
    ((((payload.get? "solver").bind (·.get? "runtime_settings")).bind (·.get? marker)).bind
      Json.asBool).getD false

def agentCandidateStrictlyPreferred (candidate current : AgentCandidate) : Bool :=
  decide (candidate.quality < current.quality) ||
    (decide (candidate.quality = current.quality) &&
      mobileLocalQualityTerminalMarker candidate.payload &&
      !mobileLocalQualityTerminalMarker current.payload)

def betterAgentCandidate (left right : Option AgentCandidate) : Option AgentCandidate :=
  match left, right with
  | some left, some right =>
    some (if agentCandidateStrictlyPreferred right left then right else left)
  | some candidate, none => some candidate
  | none, right => right

/-! ### Names -/

/-- The characters both normalizations allow, and the ones only one of them does. -/
def normalizeText (minBytes maxBytes : Nat) (extra : List Char) (value : String) : Option String :=
  let value := Text.trim value
  if minBytes ≤ value.utf8ByteSize ∧ value.utf8ByteSize ≤ maxBytes ∧
      (value.toList.all fun c => Text.isAsciiAlphanumeric c || decide (c ∈ extra)) = true
  then some value else none

def normalizeWorkerId (value : String) : Option String :=
  (normalizeText 1 maxWorkerIdBytes ['.', '_', '-'] value).map Text.toAsciiLowercase

def normalizeLeaseRequestId (value : String) : Option String :=
  normalizeText 8 128 ['.', '_', '-', ':'] value

/-- `{:02}`. -/
def twoDigits (n : Nat) : String := if n < 10 then "0" ++ toString n else toString n

def workIdFor (jobId : String) (index : Nat) : String := jobId ++ ":seed:" ++ twoDigits (index + 1)

def workerCanAccessJob (worker : AgentWorker) (job : AgentJob) : Bool :=
  if job.browserAgentRequired && decide (worker.jobScope ≠ some job.jobId) then false
  else if job.nativeAgentId.any fun required =>
      worker.trustedGlobal || worker.jobScope.isSome || decide (worker.workerId ≠ required) then
    false
  else
    let ownerAllowed :=
      if worker.trustedGlobal then job.trustedGlobalEligible else decide (job.owner = worker.owner)
    ownerAllowed && worker.jobScope.all fun scope => decide (scope = job.jobId)

/-- Give back the leases that a test picks. -/
def requeue (release : TaskLease → Bool) (task : AgentTask) : AgentTask :=
  match task.state with
  | .leased lease => if release lease then { task with state := .queued } else task
  | _ => task

/-! ### Trusted handoffs -/

variable (env : Env)

def trustedHandoffMarker (workerTokenHash leaseRequestId : String) : String :=
  env.secretHash ("trusted-handoff\x00" ++ workerTokenHash ++ "\x00" ++ leaseRequestId)

namespace AgentHelperState
variable (s : AgentHelperState)

/-- A reservation that has no job yet. -/
def reserving : Bool :=
  (toList s.trustedHandoffRequests).any fun e => e.2.jobId.isNone && e.2.capacityReserved

def releaseTrustedHandoffCapacityForJob (jobId : String) : AgentHelperState :=
  let s := { s with
    trustedHandoffRequests := mapValues (fun request =>
      if request.jobId = some jobId then { request with capacityReserved := false } else request)
      s.trustedHandoffRequests }
  if s.reserving && decide (jobId ∉ s.trustedHandoffCapacityReleases) then
    let released := s.trustedHandoffCapacityReleases ++ [jobId]
    { s with trustedHandoffCapacityReleases :=
      released.drop (released.length - maxTrustedHandoffRequests) }
  else s

def clearOrphanedTrustedHandoffCapacityReleases : AgentHelperState :=
  if s.reserving then s else { s with trustedHandoffCapacityReleases := [] }

def takeTrustedHandoffCapacityRelease (jobId : String) : AgentHelperState × Bool :=
  if jobId ∈ s.trustedHandoffCapacityReleases then
    ({ s with trustedHandoffCapacityReleases := s.trustedHandoffCapacityReleases.erase jobId }, true)
  else (s, false)

/-! ### Pruning and release -/

/-- The same change of every task. -/
def mapTasks (f : AgentTask → AgentTask) : AgentHelperState :=
  { s with jobs := mapValues (fun job => { job with tasks := job.tasks.map f }) s.jobs }

def pruneState (nowMs : Nat) : AgentHelperState :=
  let expired (tokenHash : String) : Bool :=
    (s.workers.lookup tokenHash).any fun worker => decide (worker.expiresAtMs ≤ nowMs)
  let requests := retain (fun _ request => decide (request.expiresAtMs > nowMs) &&
    !expired request.workerTokenHash) s.trustedHandoffRequests
  let s := { s with
    workers := retain (fun _ worker => !decide (worker.expiresAtMs ≤ nowMs)) s.workers
    trustedHandoffRequests := requests }
  let s := s.clearOrphanedTrustedHandoffCapacityReleases
  let s := s.mapTasks (requeue fun lease =>
    decide (lease.expiresAtMs ≤ nowMs) || expired lease.workerTokenHash)
  { s with jobs := retain (fun _ job => decide (nowMs - job.createdAtMs ≤ agentJobTtlMs)) s.jobs }

def releaseWorkerLeases (tokenHashes : List String) : AgentHelperState :=
  s.mapTasks (requeue fun lease => decide (lease.workerTokenHash ∈ tokenHashes))

def removeWorkers (tokenHashes : List String) : AgentHelperState :=
  { s with workers := retain (fun tokenHash _ => decide (tokenHash ∉ tokenHashes)) s.workers }

end AgentHelperState

end TkbCherry.Agent
