import TkbCherry.Lib.Table
import TkbCherry.Lib.Text

/-!
# The solver pool

`solver_pool.rs`: running jobs with their worker tokens, the admission queue, and the
server-owned jobs with their executor generations. Every operation takes the lock once, so
it is one function on the state; the clock is an argument. Progress frames are left out.

Two numbers stand for identities the program has without a name: `serial` is the allocation
an `Arc<SolverJob>` points to, `claim` the claim that created a server job.
-/

namespace TkbCherry.Pool

set_option autoImplicit false

open Table

def queueLeaseMs : Nat := 120000
def queueRetryAfterMs : Nat := 700
def serverResultTtlMs : Nat := 7 * 24 * 60 * 60 * 1000
def maxServerResults : Nat := 64
def maxScheduleFingerprintBytes : Nat := 128
def maxScheduleScopeBytes : Nat := 128
def maxProgressBudgetSeconds : Nat := 600
def maxProgressRunIndex : Nat := 999
def maxUnresolvedServerJobs : Nat := 32
def maxUnresolvedServerJobsPerOwner : Nat := 2
def maxServerWatchdogMs : Nat := 1800000

/-- `u64::MAX`. -/
def u64Max : Nat := 2 ^ 64 - 1

/-- `generation.saturating_add(1)`. -/
def bump (generation : Nat) : Nat := min (generation + 1) u64Max

structure SolverOwner where
  schoolId : String
  loginId : String
deriving DecidableEq, Repr

structure SolverJob where
  jobId : String
  allocatedWorkers : Nat
  cancelRequested : Bool
  bestEffortStopRequested : Bool
  startedMs : Nat
  owner : SolverOwner
  serial : Nat
deriving DecidableEq, Repr

structure QueuedSolverJob where
  jobId : String
  queuedMs : Nat
  lastSeenMs : Nat
  desiredWorkers : Nat
  owner : SolverOwner
deriving DecidableEq, Repr

inductive ServerExecutor where
  | vps
  | agent
  | serverless
deriving DecidableEq, Repr

inductive ServerExecutionPhase where
  | pending
  | serverlessQueued
  | serverlessRunning
  | vpsQueued
  | vpsRunning
  | handoffToAgent
  | agentWaiting
  | agentRunning
  | cancelling
  | completed
deriving DecidableEq, Repr

def ServerExecutionPhase.executor : ServerExecutionPhase → Option ServerExecutor
  | .serverlessQueued => some .serverless
  | .serverlessRunning => some .serverless
  | .vpsQueued => some .vps
  | .vpsRunning => some .vps
  | .agentWaiting => some .agent
  | .agentRunning => some .agent
  | _ => none

structure ServerExecutionFence where
  generation : Nat
  executor : ServerExecutor
deriving DecidableEq, Repr

structure ServerOwnedSolverJob where
  owner : SolverOwner
  trustedWorkerEligible : Bool
  browserWasmEligible : Bool
  browserCpSatEligible : Bool
  agentPreferenceEnabled : Bool
  nativeAgentRequired : Bool
  browserAgentRequired : Bool
  scheduleScope : Option String
  createdMs : Nat
  scheduleFingerprint : Option String
  progressBudgetSeconds : Option Nat
  progressRunIndex : Option Nat
  watchdogBudgetMs : Option Nat
  watchdogStartedMs : Option Nat
  noCheckpointVpsRescueRequested : Bool
  noCheckpointVpsRescueGranted : Bool
  cancelRequested : Bool
  bestEffortStopRequested : Bool
  executionPhase : ServerExecutionPhase
  executionGeneration : Nat
  completedMs : Option Nat
  response : Option (List UInt8)
  claim : Nat
deriving DecidableEq, Repr

structure Config where
  maxConcurrent : Nat
  totalWorkerTokens : Nat
  minWorkersPerJob : Nat
  maxWorkersPerJob : Nat

abbrev Jobs := Entries String SolverJob
abbrev ServerJobs := Entries String ServerOwnedSolverJob

/-- `SolverPoolState`, with the next unused `serial` and `claim`. -/
structure PoolState where
  jobs : Jobs
  queue : List QueuedSolverJob
  serverJobs : ServerJobs
  nextSerial : Nat
  nextClaim : Nat

def PoolState.empty : PoolState := ⟨∅, [], ∅, 0, 0⟩

/-! ### Helpers -/

def allocatedWorkers (jobs : Jobs) : Nat := total SolverJob.allocatedWorkers jobs

def pruneStaleQueue (s : PoolState) (nowMs : Nat) : PoolState :=
  { s with queue := s.queue.filter fun queued => decide (nowMs - queued.lastSeenMs ≤ queueLeaseMs) }

/-- Tuples of two times and an id in their derived order. -/
def tupleLe (a b : Nat × Nat × String) : Bool :=
  decide (a.1 < b.1) || (decide (a.1 = b.1) &&
    (decide (a.2.1 < b.2.1) || (decide (a.2.1 = b.2.1) && decide (a.2.2 ≤ b.2.2))))

/-- The completed jobs beyond `MAX_SERVER_RESULTS`, oldest first. -/
def surplusResults (jobs : ServerJobs) : List String :=
  let completed := (toList jobs).filterMap fun e =>
    e.2.completedMs.map fun completedMs => (completedMs, e.2.createdMs, e.1)
  ((completed.mergeSort tupleLe).take (completed.length - maxServerResults)).map fun e => e.2.2

def pruneCompletedServerJobs (s : PoolState) (nowMs : Nat) : PoolState :=
  let kept := retain (fun _ job =>
    (job.completedMs.map fun completedMs =>
      decide (nowMs - completedMs ≤ serverResultTtlMs)).getD true) s.serverJobs
  { s with serverJobs := retain (fun jobId _ => decide (jobId ∉ surplusResults kept)) kept }

/-- The shared shape of the two text normalizations. -/
def normalizeLabel (maxBytes : Nat) (extra : List Char) (value : Option String) : Option String :=
  (value.map Text.trim).filter fun text =>
    decide (text ≠ "") && decide (text.utf8ByteSize ≤ maxBytes) &&
      text.toList.all fun c => Text.isAsciiAlphanumeric c || decide (c ∈ extra)

def normalizeScheduleFingerprint : Option String → Option String :=
  normalizeLabel maxScheduleFingerprintBytes [':', '.', '_', '-']

def normalizeScheduleScope : Option String → Option String :=
  normalizeLabel maxScheduleScopeBytes [':', '.', '_', '-', '/']

def normalizeProgressBudgetSeconds (value : Option Nat) : Option Nat :=
  value.filter fun seconds => decide (seconds > 0) && decide (seconds ≤ maxProgressBudgetSeconds)

def normalizeProgressRunIndex (value : Option Nat) : Option Nat :=
  value.filter fun runIndex => decide (runIndex > 0) && decide (runIndex ≤ maxProgressRunIndex)

def normalizeServerWatchdogBudgetMs (value : Option Nat) : Option Nat :=
  (value.filter fun budgetMs => decide (budgetMs > 0)).map fun budgetMs => min budgetMs maxServerWatchdogMs

def startServerWatchdog (job : ServerOwnedSolverJob) (nowMs : Nat) : ServerOwnedSolverJob :=
  if job.watchdogBudgetMs.isSome && job.watchdogStartedMs.isNone
  then { job with watchdogStartedMs := some nowMs } else job

/-- `server_jobs.get(job_id).filter(..)` with a test that includes the owner. -/
def PoolState.ownedJob (s : PoolState) (jobId : String) (owner : SolverOwner) :
    Option ServerOwnedSolverJob :=
  (s.serverJobs.lookup jobId).filter fun job => decide (job.owner = owner)

def PoolState.updateJob (s : PoolState) (jobId : String)
    (f : ServerOwnedSolverJob → ServerOwnedSolverJob) : PoolState :=
  { s with serverJobs := modify jobId f s.serverJobs }

/-- `state.jobs.get(job_id)` and `cancel_requested.store(true)`. -/
def PoolState.signalCancel (s : PoolState) (jobId : String) : PoolState :=
  { s with jobs := modify jobId (fun job => { job with cancelRequested := true }) s.jobs }

def PoolState.dequeue (s : PoolState) (p : QueuedSolverJob → Bool) : PoolState :=
  { s with queue := s.queue.filter fun queued => !p queued }

/-! ### Claims -/

inductive ServerJobClaim where
  | claimed
  | existing
  | existingSchedule (jobId : String)
  | existingScope (jobId : String)
  | ownerMismatch
  | globalCapacity
  | ownerCapacity
deriving DecidableEq, Repr

/-- Running before queued before the rest. -/
def claimPriority (s : PoolState) (jobId : String) : Nat :=
  if (s.jobs.lookup jobId).isSome then 0
  else if s.queue.any fun queued => decide (queued.jobId = jobId) then 1
  else 2

/-- The least of the owner's live jobs that match, by priority, creation time and id. -/
def liveDuplicate (s : PoolState) (owner : SolverOwner)
    (same : ServerOwnedSolverJob → Bool) : Option String :=
  let found := (toList s.serverJobs).filterMap fun e =>
    if decide (e.2.owner = owner) && e.2.completedMs.isNone && !e.2.cancelRequested && same e.2
    then some (claimPriority s e.1, e.2.createdMs, e.1) else none
  match found with
  | [] => none
  | first :: rest =>
    some (rest.foldl (fun least e => if tupleLe least e then least else e) first).2.2

def newServerJob (owner : SolverOwner) (scope fingerprint : Option String)
    (budgetSeconds runIndex watchdogBudgetMs : Option Nat) (nowMs claim : Nat) :
    ServerOwnedSolverJob where
  owner := owner
  trustedWorkerEligible := false
  browserWasmEligible := false
  browserCpSatEligible := false
  agentPreferenceEnabled := true
  nativeAgentRequired := false
  browserAgentRequired := false
  scheduleScope := scope
  createdMs := nowMs
  scheduleFingerprint := fingerprint
  progressBudgetSeconds := budgetSeconds
  progressRunIndex := runIndex
  watchdogBudgetMs := watchdogBudgetMs
  watchdogStartedMs := none
  noCheckpointVpsRescueRequested := false
  noCheckpointVpsRescueGranted := false
  cancelRequested := false
  bestEffortStopRequested := false
  executionPhase := .pending
  executionGeneration := 0
  completedMs := none
  response := none
  claim := claim

structure ClaimRequest where
  scheduleScope : Option String := none
  scheduleFingerprint : Option String := none
  progressBudgetSeconds : Option Nat := none
  progressRunIndex : Option Nat := none
  watchdogBudgetMs : Option Nat := none

def unresolvedJobs (jobs : ServerJobs) (p : ServerOwnedSolverJob → Bool) : Nat :=
  count (fun job => job.completedMs.isNone && p job) jobs

/-- `claim_server_job_with_scope_progress_and_watchdog`. -/
def claimServerJob (s : PoolState) (jobId : String) (owner : SolverOwner) (request : ClaimRequest)
    (nowMs : Nat) : PoolState × ServerJobClaim :=
  let s := pruneCompletedServerJobs s nowMs
  match s.serverJobs.lookup jobId with
  | some existing => (s, if existing.owner = owner then .existing else .ownerMismatch)
  | none =>
    let scope := normalizeScheduleScope request.scheduleScope
    let fingerprint := normalizeScheduleFingerprint request.scheduleFingerprint
    let sameSchedule := fingerprint.bind fun text =>
      liveDuplicate s owner fun job => decide (job.scheduleFingerprint = some text)
    let sameScope := scope.bind fun text =>
      liveDuplicate s owner fun job => decide (job.scheduleScope = some text)
    match sameSchedule, sameScope with
    | some other, _ => (s, .existingSchedule other)
    | none, some other => (s, .existingScope other)
    | none, none =>
      if unresolvedJobs s.serverJobs (fun _ => true) ≥ maxUnresolvedServerJobs then
        (s, .globalCapacity)
      else if unresolvedJobs s.serverJobs (fun job => decide (job.owner = owner)) ≥
          maxUnresolvedServerJobsPerOwner then (s, .ownerCapacity)
      else
        ({ s with
            serverJobs := s.serverJobs.insert jobId (newServerJob owner scope fingerprint
              (normalizeProgressBudgetSeconds request.progressBudgetSeconds)
              (normalizeProgressRunIndex request.progressRunIndex)
              (normalizeServerWatchdogBudgetMs request.watchdogBudgetMs) nowMs s.nextClaim)
            nextClaim := s.nextClaim + 1 }, .claimed)

/-! ### Settings of a live job -/

/-- The shared shape of the setters: an owned job that is not completed, a test, an update. -/
def setLiveJob (s : PoolState) (jobId : String) (owner : SolverOwner)
    (ok : ServerOwnedSolverJob → Bool) (f : ServerOwnedSolverJob → ServerOwnedSolverJob) :
    PoolState × Bool :=
  match (s.ownedJob jobId owner).filter fun job => job.completedMs.isNone with
  | none => (s, false)
  | some job => if ok job then (s.updateJob jobId f, true) else (s, false)

def setServerJobBrowserWasmEligible (s : PoolState) (jobId : String) (owner : SolverOwner)
    (eligible : Bool) : PoolState × Bool :=
  setLiveJob s jobId owner (fun _ => true) fun job => { job with browserWasmEligible := eligible }

def setServerJobBrowserCpSatEligible (s : PoolState) (jobId : String) (owner : SolverOwner)
    (eligible : Bool) : PoolState × Bool :=
  setLiveJob s jobId owner (fun _ => true) fun job => { job with browserCpSatEligible := eligible }

def setServerJobAgentPreference (s : PoolState) (jobId : String) (owner : SolverOwner)
    (enabled : Bool) : PoolState × Bool :=
  setLiveJob s jobId owner
    (fun job => !(enabled &&
      (job.noCheckpointVpsRescueRequested || job.noCheckpointVpsRescueGranted)))
    fun job => { job with agentPreferenceEnabled := enabled }

/-- What both hard execution contracts reset when they are switched on. -/
def resetForAgent (job : ServerOwnedSolverJob) : ServerOwnedSolverJob :=
  { job with
    agentPreferenceEnabled := true
    trustedWorkerEligible := false
    noCheckpointVpsRescueRequested := false
    noCheckpointVpsRescueGranted := false }

def setServerJobNativeAgentRequired (s : PoolState) (jobId : String) (owner : SolverOwner)
    (required : Bool) : PoolState × Bool :=
  setLiveJob s jobId owner
    (fun job => !(required &&
      (decide (job.executionPhase.executor = some .vps) || job.browserAgentRequired)))
    fun job =>
      let job := { job with nativeAgentRequired := required }
      if required then resetForAgent job else job

def setServerJobBrowserAgentRequired (s : PoolState) (jobId : String) (owner : SolverOwner)
    (required : Bool) : PoolState × Bool :=
  setLiveJob s jobId owner
    (fun job => !(required &&
      (decide (job.executionPhase.executor = some .vps) || job.nativeAgentRequired)))
    fun job =>
      let job := { job with browserAgentRequired := required }
      if required then resetForAgent job else job

/-! ### Handoffs to an agent -/

/-- The conditions all three handoffs share. -/
def handoffAllowed (job : ServerOwnedSolverJob) : Bool :=
  job.completedMs.isNone && !job.cancelRequested && !job.bestEffortStopRequested &&
    job.agentPreferenceEnabled && !job.noCheckpointVpsRescueRequested &&
    !job.noCheckpointVpsRescueGranted

def handoffJob (trusted : Bool) (job : ServerOwnedSolverJob) : ServerOwnedSolverJob :=
  { job with
    executionGeneration := bump job.executionGeneration
    executionPhase := .handoffToAgent
    trustedWorkerEligible := trusted }

/-- Hand the listed jobs over, signal their running solves, and take them off the queue. -/
def handoffAll (s : PoolState) (jobIds : List String) (trusted : Bool) : PoolState :=
  (jobIds.foldl (fun s jobId => (s.updateJob jobId (handoffJob trusted)).signalCancel jobId) s).dequeue
    fun queued => decide (queued.jobId ∈ jobIds)

def ServerExecutionPhase.takenByAgent (phase : ServerExecutionPhase) : Bool :=
  decide (phase = .pending) || decide (phase = .vpsQueued) || decide (phase = .vpsRunning)

def requestAgentHandoffForOwner (s : PoolState) (owner : SolverOwner) :
    PoolState × List String :=
  let jobIds := ((toList s.serverJobs).filter fun e =>
    decide (e.2.owner = owner) && handoffAllowed e.2 && !e.2.browserAgentRequired &&
      e.2.executionPhase.takenByAgent).map Prod.fst
  (handoffAll s jobIds false, jobIds)

def requestAgentHandoffForJob (s : PoolState) (jobId : String) (owner : SolverOwner) :
    PoolState × Bool :=
  let jobId := Text.trim jobId
  if jobId = "" then (s, false)
  else if (s.ownedJob jobId owner).any fun job =>
      handoffAllowed job && job.executionPhase.takenByAgent then
    (handoffAll s [jobId] false, true)
  else (s, false)

def requestAgentHandoffForTrustedWorker (s : PoolState) (maxJobs nowMs : Nat) :
    PoolState × List String :=
  if maxJobs = 0 then (s, [])
  else
    let s := pruneStaleQueue s nowMs
    let jobIds := ((s.queue.filter fun queued =>
      (s.jobs.lookup queued.jobId).isNone && (s.serverJobs.lookup queued.jobId).any fun job =>
        handoffAllowed job && !job.browserAgentRequired &&
          decide (job.executionPhase = .vpsQueued)).take maxJobs).map QueuedSolverJob.jobId
    (handoffAll s jobIds true, jobIds)

/-! ### Executors -/

def prepareAgentExecution (s : PoolState) (jobId : String) (owner : SolverOwner) (nowMs : Nat) :
    PoolState × Option ServerExecutionFence :=
  match (s.ownedJob jobId owner).filter fun job =>
      !job.cancelRequested && job.completedMs.isNone && job.agentPreferenceEnabled &&
        !job.noCheckpointVpsRescueRequested && !job.noCheckpointVpsRescueGranted with
  | none => (s, none)
  | some job =>
    match job.executionPhase with
    | .pending =>
      (s.updateJob jobId fun job => startServerWatchdog { job with
          executionGeneration := bump job.executionGeneration
          executionPhase := .agentWaiting
          trustedWorkerEligible := false } nowMs,
        some ⟨bump job.executionGeneration, .agent⟩)
    | .handoffToAgent =>
      (s.updateJob jobId fun job => startServerWatchdog { job with
          executionPhase := .agentWaiting } nowMs, some ⟨job.executionGeneration, .agent⟩)
    | .agentWaiting =>
      (s.updateJob jobId fun job => startServerWatchdog job nowMs,
        some ⟨job.executionGeneration, .agent⟩)
    | _ => (s, none)

/-- `transition_execution`. -/
def transitionExecution (s : PoolState) (jobId : String) (owner : SolverOwner)
    (fence : ServerExecutionFence) (source target : ServerExecutionPhase) : PoolState × Bool :=
  match s.ownedJob jobId owner with
  | none => (s, false)
  | some job =>
    if job.executionGeneration ≠ fence.generation ∨ job.executionPhase ≠ source ∨
        job.cancelRequested = true ∨ job.completedMs.isSome = true then (s, false)
    else (s.updateJob jobId fun job => { job with executionPhase := target }, true)

def markAgentExecutionRunning (s : PoolState) (fence : ServerExecutionFence) (jobId : String)
    (owner : SolverOwner) : PoolState × Bool :=
  transitionExecution s jobId owner fence .agentWaiting .agentRunning

def markServerlessExecutionRunning (s : PoolState) (fence : ServerExecutionFence)
    (jobId : String) (owner : SolverOwner) : PoolState × Bool :=
  transitionExecution s jobId owner fence .serverlessQueued .serverlessRunning

def markVpsExecutionRunning (s : PoolState) (fence : ServerExecutionFence) (jobId : String)
    (owner : SolverOwner) : PoolState × Bool :=
  transitionExecution s jobId owner fence .vpsQueued .vpsRunning

/-- A live job of the owner that neither hard contract keeps from the servers. -/
def PoolState.serverEligible (s : PoolState) (jobId : String) (owner : SolverOwner) :
    Option ServerOwnedSolverJob :=
  (s.ownedJob jobId owner).filter fun job =>
    !job.cancelRequested && job.completedMs.isNone && !job.nativeAgentRequired &&
      !job.browserAgentRequired

def prepareServerlessExecution (s : PoolState) (jobId : String) (owner : SolverOwner)
    (nowMs : Nat) : PoolState × Option ServerExecutionFence :=
  match s.serverEligible jobId owner with
  | none => (s, none)
  | some job =>
    match job.executionPhase with
    | .pending =>
      (s.updateJob jobId fun job => startServerWatchdog { job with
          executionGeneration := bump job.executionGeneration
          executionPhase := .serverlessQueued
          trustedWorkerEligible := false
          agentPreferenceEnabled := false } nowMs,
        some ⟨bump job.executionGeneration, .serverless⟩)
    | .serverlessQueued =>
      (s.updateJob jobId fun job => startServerWatchdog job nowMs,
        some ⟨job.executionGeneration, .serverless⟩)
    | _ => (s, none)

def fallbackServerlessToVps (s : PoolState) (fence : ServerExecutionFence) (jobId : String)
    (owner : SolverOwner) : PoolState × Option ServerExecutionFence :=
  match s.serverEligible jobId owner with
  | none => (s, none)
  | some job =>
    if job.executionGeneration ≠ fence.generation ∨ fence.executor ≠ .serverless ∨
        job.executionPhase.executor ≠ some .serverless then (s, none)
    else
      (s.updateJob jobId fun job => { job with
          executionGeneration := bump job.executionGeneration
          executionPhase := .vpsQueued
          trustedWorkerEligible := false
          agentPreferenceEnabled := false },
        some ⟨bump job.executionGeneration, .vps⟩)

def prepareVpsExecution (s : PoolState) (jobId : String) (owner : SolverOwner) (nowMs : Nat) :
    PoolState × Option ServerExecutionFence :=
  match s.serverEligible jobId owner with
  | none => (s, none)
  | some job =>
    match job.executionPhase with
    | .pending =>
      (s.updateJob jobId fun job => startServerWatchdog { job with
          executionGeneration := bump job.executionGeneration
          executionPhase := .vpsQueued
          trustedWorkerEligible := false } nowMs,
        some ⟨bump job.executionGeneration, .vps⟩)
    | .vpsQueued =>
      (s.updateJob jobId fun job =>
        startServerWatchdog { job with trustedWorkerEligible := false } nowMs,
        some ⟨job.executionGeneration, .vps⟩)
    | _ => (s, none)

def requestNoCheckpointVpsRescue (s : PoolState) (jobId : String) (owner : SolverOwner) :
    PoolState × Bool :=
  match (s.ownedJob jobId owner).filter fun job =>
      !job.cancelRequested && !job.bestEffortStopRequested && job.completedMs.isNone &&
        job.watchdogBudgetMs.isSome && !job.nativeAgentRequired && !job.browserAgentRequired &&
        decide (job.executionPhase.executor = some .agent) with
  | none => (s, false)
  | some job =>
    if job.noCheckpointVpsRescueGranted then (s, false)
    else
      (s.updateJob jobId fun job => { job with
          noCheckpointVpsRescueRequested := true
          agentPreferenceEnabled := false }, true)

/-- The job after an agent gave way to the VPS; a requested rescue is granted once. -/
def fallbackAgentJob (nowMs : Nat) (job : ServerOwnedSolverJob) : ServerOwnedSolverJob :=
  let rescue := job.noCheckpointVpsRescueRequested && !job.noCheckpointVpsRescueGranted
  { job with
    executionGeneration := bump job.executionGeneration
    executionPhase := .vpsQueued
    trustedWorkerEligible := false
    watchdogStartedMs := if rescue then some nowMs else job.watchdogStartedMs
    noCheckpointVpsRescueGranted := if rescue then true else job.noCheckpointVpsRescueGranted
    agentPreferenceEnabled := if rescue then false else job.agentPreferenceEnabled
    noCheckpointVpsRescueRequested := false }

def fallbackAgentToVps (s : PoolState) (fence : ServerExecutionFence) (jobId : String)
    (owner : SolverOwner) (nowMs : Nat) : PoolState × Option ServerExecutionFence :=
  match s.serverEligible jobId owner with
  | none => (s, none)
  | some job =>
    if job.executionGeneration ≠ fence.generation ∨ fence.executor ≠ .agent ∨
        job.executionPhase.executor ≠ some .agent then (s, none)
    else
      (s.updateJob jobId (fallbackAgentJob nowMs), some ⟨bump job.executionGeneration, .vps⟩)

/-- A fence built from `server_execution_snapshot`. -/
def snapshotFence (s : PoolState) (jobId : String) (owner : SolverOwner) :
    Option ServerExecutionFence :=
  (s.ownedJob jobId owner).bind fun job =>
    job.executionPhase.executor.map fun executor => ⟨job.executionGeneration, executor⟩

def executionFenceCurrent (s : PoolState) (fence : ServerExecutionFence) (jobId : String)
    (owner : SolverOwner) : Bool :=
  (s.ownedJob jobId owner).any fun job =>
    decide (job.executionGeneration = fence.generation) &&
      decide (job.executionPhase.executor = some fence.executor) && !job.cancelRequested

/-! ### Completion and removal -/

def completeJob (response : List UInt8) (nowMs : Nat) (job : ServerOwnedSolverJob) :
    ServerOwnedSolverJob :=
  { job with
    response := some response
    completedMs := some nowMs
    executionPhase := .completed }

/-- The common end of both completions. -/
def commitResponse (s : PoolState) (jobId : String) (response : List UInt8) (nowMs : Nat) :
    PoolState :=
  pruneCompletedServerJobs ((s.updateJob jobId (completeJob response nowMs)).dequeue
    fun queued => decide (queued.jobId = jobId)) nowMs

def completeServerJobFenced (s : PoolState) (fence : ServerExecutionFence) (jobId : String)
    (owner : SolverOwner) (response : List UInt8) (nowMs : Nat) : PoolState × Bool :=
  match s.ownedJob jobId owner with
  | none => (s, false)
  | some job =>
    if job.cancelRequested = true ∨ job.completedMs.isSome = true ∨
        job.executionGeneration ≠ fence.generation ∨
        job.executionPhase.executor ≠ some fence.executor then (s, false)
    else (commitResponse s jobId response nowMs, true)

def completeServerJob (s : PoolState) (jobId : String) (owner : SolverOwner)
    (response : List UInt8) (nowMs : Nat) : PoolState × Bool :=
  match s.ownedJob jobId owner with
  | none => (s, false)
  | some job =>
    if job.cancelRequested then ({ s with serverJobs := s.serverJobs.erase jobId }, false)
    else if job.executionPhase ≠ .pending then (s, false)
    else (commitResponse s jobId response nowMs, true)

def abandonServerJob (s : PoolState) (jobId : String) (owner : SolverOwner) : PoolState × Bool :=
  if (s.ownedJob jobId owner).isSome then ({ s with serverJobs := s.serverJobs.erase jobId }, true)
  else (s, false)

def cancelServerJob (job : ServerOwnedSolverJob) : ServerOwnedSolverJob :=
  { job with
    cancelRequested := true
    executionGeneration := bump job.executionGeneration
    executionPhase := .cancelling }

/-- The server-job part of a cancellation: an answered job goes, another one is cancelled. -/
def PoolState.cancelRecord (s : PoolState) (jobId : String) :
    Option ServerOwnedSolverJob → PoolState
  | none => s
  | some job =>
    if job.response.isSome then { s with serverJobs := s.serverJobs.erase jobId }
    else s.updateJob jobId cancelServerJob

def cancelJob (s : PoolState) (jobId : String) : PoolState × Bool :=
  let record := s.serverJobs.lookup jobId
  let running := s.jobs.lookup jobId
  let s' := ((s.cancelRecord jobId record).signalCancel jobId).dequeue
    fun queued => decide (queued.jobId = jobId)
  (s', record.isSome || running.isSome || decide (s'.queue.length ≠ s.queue.length))

def cancelJobForOwner (s : PoolState) (jobId : String) (owner : SolverOwner) :
    PoolState × Bool :=
  let record := s.ownedJob jobId owner
  let running := (s.jobs.lookup jobId).filter fun job => decide (job.owner = owner)
  let s₁ := s.cancelRecord jobId record
  let s₂ := if running.isSome then s₁.signalCancel jobId else s₁
  let s' := s₂.dequeue fun queued => decide (queued.jobId = jobId) && decide (queued.owner = owner)
  (s', record.isSome || running.isSome || decide (s'.queue.length ≠ s.queue.length))

def requestBestEffortStopForOwner (s : PoolState) (jobId : String) (owner : SolverOwner) :
    PoolState × Bool :=
  match (s.ownedJob jobId owner).filter fun job =>
      job.completedMs.isNone && !job.cancelRequested with
  | none => (s, false)
  | some _ =>
    let s := s.updateJob jobId fun job => { job with bestEffortStopRequested := true }
    ({ s with jobs := modify jobId (fun job =>
        if job.owner = owner then { job with bestEffortStopRequested := true } else job) s.jobs },
      true)

/-! ### Admission -/

namespace Config
variable (config : Config)

/-- `desired_workers.clamp(min, max)`. -/
def normalizedWorkerDemand (desiredWorkers : Nat) : Nat :=
  max config.minWorkersPerJob (min desiredWorkers config.maxWorkersPerJob)

/-- A server job that some other executor holds, or a cancelled one, is not admitted. -/
def blockedByServerJob (s : PoolState) (jobId : String) (owner : SolverOwner) : Bool :=
  (s.ownedJob jobId owner).any fun job => job.cancelRequested || !job.executionPhase.takenByAgent

def availableWorkers (s : PoolState) : Nat := config.totalWorkerTokens - allocatedWorkers s.jobs

/-- `insert_job`: the new state and the job its guard points to. -/
def insertJob (s : PoolState) (jobId : String) (desiredWorkers : Nat) (owner : SolverOwner)
    (nowMs : Nat) : PoolState × SolverJob :=
  let job : SolverJob :=
    { jobId := jobId
      allocatedWorkers := config.normalizedWorkerDemand desiredWorkers
      cancelRequested := false
      bestEffortStopRequested :=
        (s.serverJobs.lookup jobId).any fun job => job.bestEffortStopRequested
      startedMs := nowMs
      owner := owner
      serial := s.nextSerial }
  ({ s with jobs := s.jobs.insert jobId job, nextSerial := s.nextSerial + 1 }, job)

inductive Admission where
  | acquired (job : SolverJob)
  | queued (position queuedMs retryAfterMs : Nat)
  | alreadyRunning
deriving DecidableEq, Repr

def tryAcquireForOwner (s : PoolState) (jobId : String) (desiredWorkers : Nat)
    (owner : SolverOwner) (nowMs : Nat) : PoolState × Option SolverJob :=
  let desiredWorkers := config.normalizedWorkerDemand desiredWorkers
  let s := pruneStaleQueue s nowMs
  if blockedByServerJob s jobId owner then (s, none)
  else if !s.queue.isEmpty || (s.jobs.lookup jobId).isSome ||
      decide (size s.jobs ≥ config.maxConcurrent) then (s, none)
  else if config.availableWorkers s < desiredWorkers then (s, none)
  else
    let (s, job) := config.insertJob s jobId desiredWorkers owner nowMs
    (s, some job)

/-- The end of `acquire_or_enqueue`: the front of the queue runs if it is this job and fits. -/
def admitFront (s : PoolState) (jobId : String) (nowMs : Nat) : PoolState × Admission :=
  match s.queue with
  | queued :: rest =>
    if queued.jobId = jobId ∧ size s.jobs < config.maxConcurrent ∧
        config.availableWorkers s ≥ queued.desiredWorkers then
      let (s, job) := config.insertJob { s with queue := rest } queued.jobId
        queued.desiredWorkers queued.owner nowMs
      (s, .acquired job)
    else
      match s.queue.findIdx? fun queued => decide (queued.jobId = jobId) with
      | some index =>
        (s, .queued (index + 1) ((s.queue[index]?).elim nowMs QueuedSolverJob.queuedMs)
          queueRetryAfterMs)
      | none => (s, .queued (s.queue.length + 1) nowMs queueRetryAfterMs)
  | [] => (s, .queued 1 nowMs queueRetryAfterMs)

def acquireOrEnqueueForOwner (s : PoolState) (jobId : String) (desiredWorkers : Nat)
    (owner : SolverOwner) (nowMs : Nat) : PoolState × Admission :=
  let desiredWorkers := config.normalizedWorkerDemand desiredWorkers
  let s := pruneStaleQueue s nowMs
  if blockedByServerJob s jobId owner then (s, .alreadyRunning)
  else if (s.jobs.lookup jobId).isSome then (s, .alreadyRunning)
  else
    match s.queue.findIdx? fun queued => decide (queued.jobId = jobId) with
    | some index =>
      if (s.queue[index]?).any fun queued => decide (queued.owner ≠ owner) then (s, .alreadyRunning)
      else
        config.admitFront { s with queue := s.queue.modify index fun queued =>
          { queued with lastSeenMs := nowMs } } jobId nowMs
    | none =>
      if s.queue.isEmpty && decide (size s.jobs < config.maxConcurrent) &&
          decide (config.availableWorkers s ≥ desiredWorkers) then
        let (s, job) := config.insertJob s jobId desiredWorkers owner nowMs
        (s, .acquired job)
      else
        config.admitFront { s with queue := s.queue ++
          [⟨jobId, nowMs, nowMs, desiredWorkers, owner⟩] } jobId nowMs

end Config

def touchQueuedJob (s : PoolState) (jobId : String) (owner : Option SolverOwner) (nowMs : Nat) :
    PoolState × Bool :=
  let s := pruneStaleQueue s nowMs
  let hit queued := decide (queued.jobId = jobId) && owner.all fun o => decide (queued.owner = o)
  match s.queue.findIdx? hit with
  | none => (s, false)
  | some index =>
    ({ s with queue := s.queue.modify index fun queued => { queued with lastSeenMs := nowMs } },
      true)

/-- `Drop for SolverJobGuard`: the slot goes only if it still holds the guard's own job. -/
def dropGuard (s : PoolState) (guard : SolverJob) : PoolState :=
  if (s.jobs.lookup guard.jobId).any fun current => decide (current.serial = guard.serial)
  then { s with jobs := s.jobs.erase guard.jobId } else s

end TkbCherry.Pool
