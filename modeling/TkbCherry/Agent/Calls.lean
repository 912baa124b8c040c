import TkbCherry.Agent.Model
import Mathlib.Data.List.Sort

/-!
# The calls on the agent coordinator

Registration, heartbeat, claim and everything a worker does under a lease, revocation, and
what the solver's side does with a job. A call returns the state it leaves and its result.
-/

namespace TkbCherry.Agent

set_option autoImplicit false

open Table TkbCherry.Pool

/-- What every authenticated call carries. -/
structure Caller where
  owner : SolverOwner
  sessionBinding : String
  workerToken : String

structure AgentWorkLease where
  workId : String
  jobId : String
  jobOwner : SolverOwner
  leaseToken : String
  leaseExpiresAtMs : Nat
  seed : Nat
  attempt : Nat
  requestBody : List UInt8
deriving DecidableEq

structure AgentSubmissionTicket where
  workId : String
  jobId : String
  jobOwner : SolverOwner
  workerId : String
  seed : Nat
  requestBody : List UInt8
deriving DecidableEq

structure AgentLeaseHeartbeat where
  workId : String
  leaseToken : String

structure AgentHeartbeatResult where
  renewedWorkIds : List String
  lostWorkIds : List String
  workerExpiresAtMs : Nat
deriving DecidableEq

structure AgentResourceTelemetry where
  systemCpuTenths : Option Nat
  systemRamTenths : Option Nat

structure AgentWorkerRegistration where
  workerToken : String
  workerId : String
  workerExpiresAtMs : Nat
deriving DecidableEq

/-- A task where it was found. -/
structure Found where
  jobId : String
  job : AgentJob
  index : Nat
  task : AgentTask

variable (env : Env)

/-- The hash of a token that a client sent. -/
def presented (token : String) : String := env.secretHash (Text.trim token)

def WorkerHeader.registrationTtl (worker : WorkerHeader) : Nat :=
  if worker.explicitlyPaused then agentPresenceTtlMs else agentWorkerTtlMs

/-- The lease is of this worker, under this token, and not over. -/
def TaskLease.valid (lease : TaskLease) (workerTokenHash leaseTokenHash : String) (nowMs : Nat) :
    Bool :=
  decide (lease.workerTokenHash = workerTokenHash) &&
    decide (lease.leaseTokenHash = leaseTokenHash) && decide (lease.expiresAtMs > nowMs)

def AgentTask.leasedBy (task : AgentTask) (workerTokenHash : String) : Bool :=
  match task.state with
  | .leased lease => decide (lease.workerTokenHash = workerTokenHash)
  | _ => false

/-- Why a task without a valid lease is refused, in all calls but one. -/
def leaseRefusal (nowMs : Nat) : AgentTaskState → AgentHelperError
  | .completed => .workAlreadyCompleted
  | .leased lease => if lease.expiresAtMs ≤ nowMs then .leaseExpired else .leaseNotFound
  | .queued => .leaseNotFound

namespace AgentHelperState
variable (s : AgentHelperState)

def authenticatedWorker (caller : Caller) (nowMs : Nat) :
    Except AgentHelperError (String × AgentWorker) :=
  let workerTokenHash := presented env caller.workerToken
  match s.workers.lookup workerTokenHash with
  | some worker =>
    if worker.owner = caller.owner ∧ worker.sessionBinding = caller.sessionBinding ∧
        worker.expiresAtMs > nowMs
    then .ok (workerTokenHash, worker) else .error .unauthorizedWorker
  | none => .error .unauthorizedWorker

/-- The leases of a worker, also the ones that are over but not pruned yet. -/
def activeLeases (workerTokenHash : String) : Nat :=
  total (fun job => job.tasks.countP fun task => task.leasedBy workerTokenHash) s.jobs

/-- The first task with the work id in the first job that the worker can access and that
has one. -/
def findTask (worker : AgentWorker) (workId : String) : Option Found :=
  (toList s.jobs).findSome? fun e =>
    if workerCanAccessJob worker e.2 then
      (e.2.tasks.findIdx? fun task => decide (task.workId = workId)).bind fun index =>
        (e.2.tasks[index]?).map fun task => ⟨e.1, e.2, index, task⟩
    else none

def putTask (jobId : String) (index : Nat) (task : AgentTask) : AgentHelperState :=
  { s with jobs := modify jobId (fun job => { job with tasks := job.tasks.set index task }) s.jobs }

/-! ### Workers -/

structure WorkerRequest where
  owner : SolverOwner
  sessionBinding : String
  workerId : String
  maxParallel : Nat
  eligible : Bool
  explicitlyPaused : Bool
  trustedGlobal : Bool
  jobScope : Option String

/-- The registrations of one workstation in one session. -/
def registrations (owner : SolverOwner) (sessionBinding workerId : String) : List String :=
  ((toList s.workers).filter fun e => decide (e.2.owner = owner ∧
    e.2.sessionBinding = sessionBinding ∧ e.2.workerId = workerId)).map Prod.fst

/-- The registration that a request asks for. -/
def WorkerRequest.worker (r : WorkerRequest) (sessionBinding workerId : String) (nowMs : Nat) :
    AgentWorker :=
  let header : WorkerHeader := ⟨r.owner, r.trustedGlobal, sessionBinding, workerId,
    r.jobScope.map Text.trim, r.eligible, r.explicitlyPaused,
    max 1 (min r.maxParallel maxAgentParallelPerWorker)⟩
  ⟨header, nowMs, after nowMs header.registrationTtl, none⟩

def registerWorkerWithEligibility (r : WorkerRequest) (secret : String) (nowMs : Nat) :
    AgentHelperState × Except AgentHelperError AgentWorkerRegistration :=
  match normalizeWorkerId r.workerId with
  | none => (s, .error .invalidWorker)
  | some workerId =>
    let sessionBinding := Text.trim r.sessionBinding
    if sessionBinding = "" then (s, .error .unauthorizedWorker)
    else if (r.jobScope.map Text.trim).any fun scope =>
        decide (scope = "" ∨ maxJobScopeBytes < scope.utf8ByteSize) then
      (s, .error .invalidWorker)
    else
      let s := s.pruneState nowMs
      let replaced := s.registrations r.owner sessionBinding workerId
      let s := (s.removeWorkers replaced).releaseWorkerLeases replaced
      if size s.workers ≥ maxAgentWorkers ∨
          count (fun worker => decide (worker.owner = r.owner)) s.workers ≥ maxAgentWorkersPerOwner
      then (s, .error .workerCapacity)
      else
        let worker := r.worker sessionBinding workerId nowMs
        ({ s with workers := s.workers.insert (env.secretHash secret) worker },
          .ok ⟨secret, workerId, worker.expiresAtMs⟩)

def revokeWorkers (tokenHashes : List String) : AgentHelperState :=
  let s := s.removeWorkers tokenHashes
  let s := { s with
    trustedHandoffRequests := retain (fun _ request =>
      decide (request.workerTokenHash ∉ tokenHashes)) s.trustedHandoffRequests }
  s.clearOrphanedTrustedHandoffCapacityReleases.releaseWorkerLeases tokenHashes

def revokeWorkerIdentity (owner : SolverOwner) (sessionBinding workerId : String) (nowMs : Nat) :
    AgentHelperState × Bool :=
  match normalizeWorkerId workerId with
  | none => (s, false)
  | some workerId =>
    let sessionBinding := Text.trim sessionBinding
    if sessionBinding = "" then (s, false)
    else
      let s := s.pruneState nowMs
      let revoked := s.registrations owner sessionBinding workerId
      (s.revokeWorkers revoked, !revoked.isEmpty)

def revokeWorkerToken (caller : Caller) (nowMs : Nat) : AgentHelperState × Bool :=
  let tokenHash := presented env caller.workerToken
  let s := s.pruneState nowMs
  let owned := (s.workers.lookup tokenHash).any fun worker => decide (worker.owner = caller.owner ∧
    worker.sessionBinding = Text.trim caller.sessionBinding)
  if owned then (s.revokeWorkers [tokenHash], true) else (s, false)

/-! ### Heartbeat -/

def touchWorker (workerTokenHash : String) (expiresAtMs : Nat)
    (telemetry : Option AgentResourceTelemetry) (nowMs : Nat) : AgentHelperState :=
  { s with workers := modify workerTokenHash (fun stored =>
      let stored := { stored with lastSeenMs := nowMs, expiresAtMs := expiresAtMs }
      if !stored.trustedGlobal && stored.jobScope.isNone && stored.eligible then
        match telemetry.filter fun t => t.systemCpuTenths.isSome || t.systemRamTenths.isSome with
        | some t => { stored with
            resourceTelemetry := some ⟨t.systemCpuTenths, t.systemRamTenths, nowMs⟩ }
        | none => stored
      else stored) s.workers }

/-- One round of the heartbeat's loop. -/
def renewLease (workerTokenHash : String) (worker : AgentWorker) (nowMs : Nat)
    (acc : AgentHelperState × AgentHeartbeatResult) (lease : AgentLeaseHeartbeat) :
    AgentHelperState × AgentHeartbeatResult :=
  let lost := (acc.1, { acc.2 with lostWorkIds := acc.2.lostWorkIds ++ [lease.workId] })
  match acc.1.findTask worker lease.workId with
  | none => lost
  | some found =>
    match found.task.state with
    | .leased held =>
      if held.valid workerTokenHash (presented env lease.leaseToken) nowMs then
        let renewed := { held with expiresAtMs := after nowMs agentWorkLeaseMs }
        (acc.1.putTask found.jobId found.index { found.task with state := .leased renewed },
          { acc.2 with renewedWorkIds := acc.2.renewedWorkIds ++ [lease.workId] })
      else lost
    | _ => lost

def heartbeatWithTelemetry (caller : Caller) (leases : List AgentLeaseHeartbeat)
    (telemetry : Option AgentResourceTelemetry) (nowMs : Nat) :
    AgentHelperState × Except AgentHelperError AgentHeartbeatResult :=
  let s := s.pruneState nowMs
  match s.authenticatedWorker env caller nowMs with
  | .error e => (s, .error e)
  | .ok (workerTokenHash, worker) =>
    let expiresAtMs := after nowMs worker.registrationTtl
    let (s, result) := (leases.take maxAgentParallelPerWorker).foldl
      (renewLease env workerTokenHash worker nowMs)
      (s.touchWorker workerTokenHash expiresAtMs telemetry nowMs, ⟨[], [], expiresAtMs⟩)
    (s, .ok result)

/-! ### Claim -/

/-- The lease of a task as the claim returns it. -/
def workLease (jobId : String) (job : AgentJob) (task : AgentTask) (lease : TaskLease) :
    AgentWorkLease :=
  ⟨task.workId, jobId, job.owner, lease.leaseToken, lease.expiresAtMs, task.seed, task.attempt,
    job.requestBody⟩

/-- The live lease that a worker got under a request id, if there is one. -/
def replay (workerTokenHash : String) (worker : AgentWorker) (leaseRequestId : String)
    (nowMs : Nat) : Option AgentWorkLease :=
  (toList s.jobs).findSome? fun e =>
    if workerCanAccessJob worker e.2 then
      e.2.tasks.findSome? fun task =>
        match task.state with
        | .leased lease =>
          if lease.workerTokenHash = workerTokenHash ∧ lease.leaseRequestId = leaseRequestId ∧
              lease.expiresAtMs > nowMs
          then some (workLease e.1 e.2 task lease) else none
        | _ => none
    else none

/-- The sort key of a queued task: the job's age and name, then the task's place. -/
abbrev Slot := Nat × String × Nat × String

def slotLe (a b : Slot) : Bool :=
  decide (a.1 < b.1) || decide (a.1 = b.1) && (decide (a.2.1 < b.2.1) || decide (a.2.1 = b.2.1) &&
    (decide (a.2.2.1 < b.2.2.1) || decide (a.2.2.1 = b.2.2.1) && decide (a.2.2.2 ≤ b.2.2.2)))

def available (worker : AgentWorker) (trustedJobScope : Option String) : List Slot :=
  (toList s.jobs).flatMap fun e =>
    if workerCanAccessJob worker e.2 && trustedJobScope.all fun jobId => decide (jobId = e.1) then
      e.2.tasks.zipIdx.filterMap fun (task, index) =>
        if task.state = .queued then some (e.2.createdAtMs, e.1, index, task.workId) else none
    else []

/-- Lease the task in a slot. -/
def grant (workerTokenHash leaseRequestId secret : String) (slot : Slot) (nowMs : Nat) :
    AgentHelperState × Except AgentHelperError AgentWorkLease :=
  let jobId := slot.2.1
  match s.jobs.lookup jobId with
  | none => (s, .error .jobNotFound)
  | some job =>
    match job.tasks[slot.2.2.1]? with
    | none => (s, .error .jobNotFound)
    | some task =>
      let lease : TaskLease := ⟨workerTokenHash, env.secretHash secret, secret, leaseRequestId,
        after nowMs agentWorkLeaseMs⟩
      let task := { task with attempt := min (task.attempt + 1) u32Max, state := .leased lease }
      ((s.putTask jobId slot.2.2.1 task).releaseTrustedHandoffCapacityForJob jobId,
        .ok (workLease jobId job task lease))

/-- The handoff that a trusted worker began under a request id. -/
def handoffRequest (workerTokenHash : String) (worker : AgentWorker) (leaseRequestId : String) :
    Option TrustedHandoffRequest :=
  if worker.trustedGlobal then
    s.trustedHandoffRequests.lookup (trustedHandoffMarker env workerTokenHash leaseRequestId)
  else none

def claimWorkWithRequestId (caller : Caller) (leaseRequestId secret : String) (nowMs : Nat) :
    AgentHelperState × Except AgentHelperError AgentWorkLease :=
  match normalizeLeaseRequestId leaseRequestId with
  | none => (s, .error .invalidLeaseRequest)
  | some leaseRequestId =>
    let s := s.pruneState nowMs
    match s.authenticatedWorker env caller nowMs with
    | .error e => (s, .error e)
    | .ok (workerTokenHash, worker) =>
      if !worker.eligible then (s, .error .noWork)
      else
        match s.replay workerTokenHash worker leaseRequestId nowMs with
        | some lease => (s, .ok lease)
        | none =>
          let request := s.handoffRequest env workerTokenHash worker leaseRequestId
          -- a handoff that has no job yet waits for the request that began it
          if request.any fun r => r.jobId.isNone then (s, .error .noWork)
          else if s.activeLeases workerTokenHash ≥ worker.maxParallel then
            (s, .error .workerAtCapacity)
          else
            let slots := s.available worker (request.bind (·.jobId))
            match (slots.insertionSort fun a b => slotLe a b).head? with
            | none => (s, .error .noWork)
            | some slot => s.grant env workerTokenHash leaseRequestId secret slot nowMs

/-! ### Under a lease -/

def workIdForLease (caller : Caller) (leaseToken : String) (nowMs : Nat) :
    AgentHelperState × Except AgentHelperError String :=
  let s := s.pruneState nowMs
  match s.authenticatedWorker env caller nowMs with
  | .error e => (s, .error e)
  | .ok (workerTokenHash, worker) =>
    let found := ((toList s.jobs).filter fun e => workerCanAccessJob worker e.2).findSome? fun e =>
      e.2.tasks.findSome? fun task =>
        match task.state with
        | .leased lease =>
          if lease.valid workerTokenHash (presented env leaseToken) nowMs then some task.workId
          else none
        | _ => none
    (s, (found.map Except.ok).getD (.error .leaseNotFound))

/-- A call on the task of a lease: refuse it, or give the job its new candidates and the task
its new state. -/
def underLease {α : Type} (refusal : AgentTaskState → AgentHelperError)
    (use : AgentWorker → Found → JobCandidates × α) (next : TaskLease → AgentTaskState)
    (caller : Caller) (workId leaseToken : String) (nowMs : Nat) :
    AgentHelperState × Except AgentHelperError α :=
  let s := s.pruneState nowMs
  match s.authenticatedWorker env caller nowMs with
  | .error e => (s, .error e)
  | .ok (workerTokenHash, worker) =>
    match s.findTask worker workId with
    | none => (s, .error .leaseNotFound)
    | some found =>
      match found.task.state with
      | .leased lease =>
        if lease.valid workerTokenHash (presented env leaseToken) nowMs then
          let (candidates, result) := use worker found
          let tasks := found.job.tasks.set found.index { found.task with state := next lease }
          ({ s with jobs := modify found.jobId (fun job =>
              { job with toJobCandidates := candidates, tasks }) s.jobs }, .ok result)
        else (s, .error (refusal found.task.state))
      | _ => (s, .error (refusal found.task.state))

def candidateOf (worker : AgentWorker) (found : Found) (payload : Json) (quality : List Int) :
    AgentCandidate :=
  ⟨found.task.workId, worker.workerId, found.task.seed, payload, quality⟩

/-- The best of what the job has, and whether a candidate beats it. -/
def rank (candidate : AgentCandidate) (job : JobCandidates) : Option AgentCandidate × Bool :=
  let currentBest := betterAgentCandidate job.bestCandidate job.checkpointCandidate
  (currentBest, (currentBest.map (agentCandidateStrictlyPreferred candidate)).getD true)

def beginSubmission (caller : Caller) (workId leaseToken : String) (nowMs : Nat) :
    AgentHelperState × Except AgentHelperError AgentSubmissionTicket :=
  s.underLease env (leaseRefusal nowMs)
    (fun worker found => (found.job.toJobCandidates, ⟨found.task.workId, found.jobId,
      found.job.owner, worker.workerId, found.task.seed, found.job.requestBody⟩))
    .leased caller workId leaseToken nowMs

def acceptSubmission (caller : Caller) (workId leaseToken : String) (payload : Json)
    (quality : List Int) (nowMs : Nat) : AgentHelperState × Except AgentHelperError Bool :=
  s.underLease env (leaseRefusal nowMs)
    (fun worker found =>
      let candidate := candidateOf worker found payload quality
      let (currentBest, becameBest) := rank candidate found.job.toJobCandidates
      (⟨if becameBest then some candidate else currentBest, none, none⟩, becameBest))
    (fun _ => .completed) caller workId leaseToken nowMs

def acceptCheckpoint (caller : Caller) (workId leaseToken : String) (payload : Json)
    (quality : List Int) (nowMs : Nat) : AgentHelperState × Except AgentHelperError Bool :=
  s.underLease env (leaseRefusal nowMs)
    (fun worker found =>
      let candidate := candidateOf worker found payload quality
      let becameBest := (rank candidate found.job.toJobCandidates).2
      let kept := if becameBest then some candidate else found.job.checkpointCandidate
      ({ found.job.toJobCandidates with checkpointCandidate := kept }, becameBest))
    .leased caller workId leaseToken nowMs

def acceptResumeCheckpoint (caller : Caller) (workId leaseToken : String) (payload : Json)
    (quality : List Int) (nowMs : Nat) : AgentHelperState × Except AgentHelperError Bool :=
  s.underLease env (leaseRefusal nowMs)
    (fun worker found =>
      let candidate := candidateOf worker found payload quality
      let becameBest := (found.job.resumeCheckpointCandidate.map fun current =>
        decide (candidate.quality < current.quality)).getD true
      let kept := if becameBest then some candidate else found.job.resumeCheckpointCandidate
      ({ found.job.toJobCandidates with resumeCheckpointCandidate := kept }, becameBest))
    .leased caller workId leaseToken nowMs

def acceptStructuredOutcome (caller : Caller) (workId leaseToken : String) (nowMs : Nat) :
    AgentHelperState × Except AgentHelperError Unit :=
  s.underLease env (leaseRefusal nowMs) (fun _ found => (found.job.toJobCandidates, ()))
    (fun _ => .completed) caller workId leaseToken nowMs

/-- The one call that tells nothing about a task it refuses. -/
def rejectSubmission (caller : Caller) (workId leaseToken : String) (nowMs : Nat) :
    AgentHelperState × Except AgentHelperError Unit :=
  s.underLease env (fun _ => .leaseNotFound) (fun _ found => (found.job.toJobCandidates, ()))
    (fun _ => .queued) caller workId leaseToken nowMs

def rejectSubmissionAndDiscardCheckpoints (caller : Caller) (workId leaseToken : String)
    (nowMs : Nat) : AgentHelperState × Except AgentHelperError Unit :=
  s.underLease env (leaseRefusal nowMs)
    (fun _ found => (⟨found.job.bestCandidate, none, none⟩, ()))
    (fun _ => .queued) caller workId leaseToken nowMs

/-! ### Jobs -/

structure JobRequest where
  jobId : String
  owner : SolverOwner
  requestBody : List UInt8
  seedCount : Nat
  trustedGlobalEligible : Bool
  browserAgentRequired : Bool

def nativeAgentId (requestBody : List UInt8) : Option String :=
  (((env.fromSlice requestBody).bind (·.get? "settings")).bind
    (·.get? "ui_native_agent_id")).bind fun value => value.asStr.bind normalizeWorkerId

/-- The job that a request opens. -/
def JobRequest.job (r : JobRequest) (jobId : String) (serial nowMs : Nat) : AgentJob where
  jobId := jobId
  owner := r.owner
  trustedGlobalEligible := r.trustedGlobalEligible
  browserAgentRequired := r.browserAgentRequired
  nativeAgentId := nativeAgentId env r.requestBody
  createdAtMs := nowMs
  requestBody := r.requestBody
  serial := serial
  bestCandidate := none
  checkpointCandidate := none
  resumeCheckpointCandidate := none
  tasks := (List.range (max 1 (min r.seedCount maxAgentSeedsPerJob))).map fun index =>
    ⟨workIdFor jobId index, env.seedFor jobId index, 0, .queued⟩

def registerJobWithExecutionPolicy (r : JobRequest) (nowMs : Nat) : AgentHelperState × Bool :=
  let jobId := Text.trim r.jobId
  if jobId = "" ∨ r.requestBody = [] then (s, false)
  else
    let s := s.pruneState nowMs
    match s.jobs.lookup jobId with
    | some existing =>
      if existing.owner = r.owner then (s.releaseTrustedHandoffCapacityForJob jobId, true)
      else (s, false)
    | none =>
      let s := { s with
        jobs := s.jobs.insert jobId (r.job env jobId s.nextSerial nowMs)
        nextSerial := s.nextSerial + 1 }
      (s.releaseTrustedHandoffCapacityForJob jobId, true)

/-- The job, if it is of this owner. -/
def ownedJob (jobId : String) (owner : SolverOwner) : Option AgentJob :=
  (s.jobs.lookup jobId).filter fun job => decide (job.owner = owner)

/-- Remove the job if it is there, and what was reserved for it. -/
def closeJob (jobId : String) : AgentHelperState :=
  { s with jobs := s.jobs.erase jobId }.releaseTrustedHandoffCapacityForJob jobId

def finishJob (jobId : String) (owner : SolverOwner) : AgentHelperState × Bool :=
  match s.ownedJob jobId owner with
  | some _ => (s.closeJob jobId, true)
  | none => (s.releaseTrustedHandoffCapacityForJob jobId, false)

def takeCandidateAndFinishJob (jobId : String) (owner : SolverOwner) :
    AgentHelperState × Option AgentCandidate :=
  match s.ownedJob jobId owner with
  | some job => (s.closeJob jobId, betterAgentCandidate job.bestCandidate job.checkpointCandidate)
  | none => (s.releaseTrustedHandoffCapacityForJob jobId, none)

inductive AgentStopTakeover where
  | terminal (candidate : AgentCandidate)
  | resume (candidate : AgentCandidate)
  | empty

def takeForBestEffortStop (jobId : String) (owner : SolverOwner) :
    AgentHelperState × AgentStopTakeover :=
  match s.ownedJob jobId owner with
  | some job =>
    (s.closeJob jobId,
      match betterAgentCandidate job.bestCandidate job.checkpointCandidate with
      | some candidate => .terminal candidate
      | none =>
        match job.resumeCheckpointCandidate with
        | some candidate => .resume candidate
        | none => .empty)
  | none => (s.releaseTrustedHandoffCapacityForJob jobId, .empty)

inductive AgentVpsTakeover where
  | retry
  | taken (checkpoint : Option AgentCandidate)

def takeOverForVpsWithCheckpoint (jobId : String) (owner : SolverOwner) (nowMs : Nat) :
    AgentHelperState × AgentVpsTakeover :=
  let s := s.pruneState nowMs
  match s.ownedJob jobId owner with
  | none => (s.releaseTrustedHandoffCapacityForJob jobId, .taken none)
  | some job =>
    let leased := job.tasks.any fun task =>
      match task.state with
      | .leased _ => true
      | _ => false
    if job.bestCandidate.isSome || leased then (s, .retry)
    else (s.closeJob jobId, .taken (job.checkpointCandidate <|> job.resumeCheckpointCandidate))

/-! ### What the coordinator shows of a job -/

def bestCandidate (jobId : String) (owner : SolverOwner) : Option AgentCandidate :=
  (s.ownedJob jobId owner).bind fun job =>
    betterAgentCandidate job.bestCandidate job.checkpointCandidate

inductive AgentJobExecution where
  | queued
  | leased (expiresAtMs : Nat)
  | checkpoint (candidate : AgentCandidate)
  | completed (candidate : Option AgentCandidate)

/-- The end of the first lease among the tasks. -/
def leaseEnd (tasks : List AgentTask) : Option Nat :=
  tasks.findSome? fun task =>
    match task.state with
    | .leased lease => some lease.expiresAtMs
    | _ => none

def jobExecution (jobId : String) (owner : SolverOwner) (nowMs : Nat) :
    AgentHelperState × Option AgentJobExecution :=
  let s := s.pruneState nowMs
  match s.ownedJob jobId owner with
  | none => (s, none)
  | some job =>
    (s, some <|
      match job.bestCandidate with
      | some candidate => .completed (some candidate)
      | none =>
        match leaseEnd job.tasks with
        | some expiresAtMs => .leased expiresAtMs
        | none =>
          match job.checkpointCandidate <|> job.resumeCheckpointCandidate with
          | some candidate => .checkpoint candidate
          | none =>
            if job.tasks.all fun task => decide (task.state = .completed) then .completed none
            else .queued)

/-! ### Handoffs of the trusted workers -/

/-- What the three handoff calls begin with. -/
def trustedCall (caller : Caller) (leaseRequestId : String) (nowMs : Nat)
    (act : AgentHelperState → String → AgentWorker → String →
      AgentHelperState × Except AgentHelperError Bool) :
    AgentHelperState × Except AgentHelperError Bool :=
  match normalizeLeaseRequestId leaseRequestId with
  | none => (s, .error .invalidLeaseRequest)
  | some leaseRequestId =>
    let s := s.pruneState nowMs
    match s.authenticatedWorker env caller nowMs with
    | .error e => (s, .error e)
    | .ok (workerTokenHash, worker) =>
      if !worker.eligible || !worker.trustedGlobal then (s, .ok false)
      else act s workerTokenHash worker (trustedHandoffMarker env workerTokenHash leaseRequestId)

def beginTrustedHandoffRequest (caller : Caller) (leaseRequestId : String) (nowMs : Nat) :
    AgentHelperState × Except AgentHelperError Bool :=
  s.trustedCall env caller leaseRequestId nowMs fun s workerTokenHash worker marker =>
    if (s.trustedHandoffRequests.lookup marker).isSome then (s, .ok false)
    else if s.activeLeases workerTokenHash + count (fun request =>
        decide (request.workerTokenHash = workerTokenHash) && request.capacityReserved)
        s.trustedHandoffRequests ≥ worker.maxParallel then
      (s, .error .workerAtCapacity)
    else if size s.trustedHandoffRequests ≥ maxTrustedHandoffRequests then
      (s, .error .workerCapacity)
    else
      let request := ⟨workerTokenHash, after nowMs agentWorkerTtlMs, none, true⟩
      ({ s with trustedHandoffRequests := s.trustedHandoffRequests.insert marker request }, .ok true)

def commitTrustedHandoffRequest (caller : Caller) (leaseRequestId jobId : String) (nowMs : Nat) :
    AgentHelperState × Except AgentHelperError Bool :=
  if (normalizeLeaseRequestId leaseRequestId).isNone then (s, .error .invalidLeaseRequest)
  else
    let jobId := Text.trim jobId
    if jobId = "" ∨ 256 < jobId.utf8ByteSize then (s, .error .jobNotFound)
    else s.trustedCall env caller leaseRequestId nowMs fun s _ _ marker =>
      match s.trustedHandoffRequests.lookup marker with
      | none => (s, .ok false)
      | some existing =>
        match existing.jobId with
        | some existingJobId => (s, .ok (decide (existingJobId = jobId)))
        | none =>
          let registered := (s.jobs.lookup jobId).isSome
          let (s, transitioned) := s.takeTrustedHandoffCapacityRelease jobId
          let s := { s with
            trustedHandoffRequests := modify marker (fun request => { request with
              jobId := some jobId, capacityReserved := !(registered || transitioned) })
              s.trustedHandoffRequests }
          (s.clearOrphanedTrustedHandoffCapacityReleases, .ok true)

def releaseTrustedHandoffRequest (caller : Caller) (leaseRequestId : String) (nowMs : Nat) :
    AgentHelperState × Except AgentHelperError Bool :=
  s.trustedCall env caller leaseRequestId nowMs fun s _ _ marker =>
    if (s.trustedHandoffRequests.lookup marker).any fun request => request.jobId.isNone then
      let s := { s with trustedHandoffRequests := s.trustedHandoffRequests.erase marker }
      (s.clearOrphanedTrustedHandoffCapacityReleases, .ok true)
    else (s, .ok false)

end AgentHelperState

end TkbCherry.Agent
