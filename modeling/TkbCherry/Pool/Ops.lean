import TkbCherry.Pool.Model
import TkbCherry.Lib.Transition

/-!
# Calls on the pool

Every public call as a label, and the step that runs it. The outcome keeps what later
arguments speak about: the fence the call hands out, the response it commits, the jobs it
gives to an executor, and the jobs it takes away from one.
-/

namespace TkbCherry.Pool

set_option autoImplicit false

inductive Op where
  | claim (jobId : String) (owner : SolverOwner) (request : ClaimRequest) (nowMs : Nat)
  | setBrowserWasmEligible (jobId : String) (owner : SolverOwner) (eligible : Bool)
  | setBrowserCpSatEligible (jobId : String) (owner : SolverOwner) (eligible : Bool)
  | setAgentPreference (jobId : String) (owner : SolverOwner) (enabled : Bool)
  | setNativeAgentRequired (jobId : String) (owner : SolverOwner) (required : Bool)
  | setBrowserAgentRequired (jobId : String) (owner : SolverOwner) (required : Bool)
  | handoffForOwner (owner : SolverOwner)
  | handoffForJob (jobId : String) (owner : SolverOwner)
  | handoffForTrustedWorker (maxJobs nowMs : Nat)
  | prepareAgent (jobId : String) (owner : SolverOwner) (nowMs : Nat)
  | markAgentRunning (fence : ServerExecutionFence) (jobId : String) (owner : SolverOwner)
  | prepareServerless (jobId : String) (owner : SolverOwner) (nowMs : Nat)
  | markServerlessRunning (fence : ServerExecutionFence) (jobId : String) (owner : SolverOwner)
  | fallbackServerless (fence : ServerExecutionFence) (jobId : String) (owner : SolverOwner)
  | prepareVps (jobId : String) (owner : SolverOwner) (nowMs : Nat)
  | markVpsRunning (fence : ServerExecutionFence) (jobId : String) (owner : SolverOwner)
  | requestRescue (jobId : String) (owner : SolverOwner)
  | fallbackAgent (fence : ServerExecutionFence) (jobId : String) (owner : SolverOwner)
      (nowMs : Nat)
  | snapshot (jobId : String) (owner : SolverOwner)
  | completeFenced (fence : ServerExecutionFence) (jobId : String) (owner : SolverOwner)
      (response : List UInt8) (nowMs : Nat)
  | complete (jobId : String) (owner : SolverOwner) (response : List UInt8) (nowMs : Nat)
  | abandon (jobId : String) (owner : SolverOwner)
  | cancel (jobId : String)
  | cancelForOwner (jobId : String) (owner : SolverOwner)
  | bestEffortStop (jobId : String) (owner : SolverOwner)
  | tryAcquire (jobId : String) (desiredWorkers : Nat) (owner : SolverOwner) (nowMs : Nat)
  | acquireOrEnqueue (jobId : String) (desiredWorkers : Nat) (owner : SolverOwner) (nowMs : Nat)
  | touch (jobId : String) (owner : Option SolverOwner) (nowMs : Nat)
  | pruneQueue (nowMs : Nat)
  | pruneCompleted (nowMs : Nat)
  | dropGuard (guard : SolverJob)

structure Outcome where
  fence : Option ServerExecutionFence := none
  committed : Bool := false
  assigned : List String := []
  displaced : List String := []

/-- The job a cancellation takes from its executor: one without a response. -/
def cancelledIds (jobId : String) (record : Option ServerOwnedSolverJob) : List String :=
  if record.any fun job => job.response.isNone then [jobId] else []

/-- The job a call names, if the call took effect. -/
def idIf (b : Bool) (jobId : String) : List String := if b then [jobId] else []

def step (config : Config) (s : PoolState) : Op → PoolState × Outcome
  | .claim jobId owner request nowMs => ((claimServerJob s jobId owner request nowMs).1, {})
  | .setBrowserWasmEligible jobId owner eligible =>
    ((setServerJobBrowserWasmEligible s jobId owner eligible).1, {})
  | .setBrowserCpSatEligible jobId owner eligible =>
    ((setServerJobBrowserCpSatEligible s jobId owner eligible).1, {})
  | .setAgentPreference jobId owner enabled =>
    ((setServerJobAgentPreference s jobId owner enabled).1, {})
  | .setNativeAgentRequired jobId owner required =>
    ((setServerJobNativeAgentRequired s jobId owner required).1, {})
  | .setBrowserAgentRequired jobId owner required =>
    ((setServerJobBrowserAgentRequired s jobId owner required).1, {})
  | .handoffForOwner owner =>
    let r := requestAgentHandoffForOwner s owner
    (r.1, { assigned := r.2, displaced := r.2 })
  | .handoffForJob jobId owner =>
    let r := requestAgentHandoffForJob s jobId owner
    (r.1, { assigned := idIf r.2 (Text.trim jobId), displaced := idIf r.2 (Text.trim jobId) })
  | .handoffForTrustedWorker maxJobs nowMs =>
    let r := requestAgentHandoffForTrustedWorker s maxJobs nowMs
    (r.1, { assigned := r.2, displaced := r.2 })
  | .prepareAgent jobId owner nowMs =>
    let r := prepareAgentExecution s jobId owner nowMs
    (r.1, { fence := r.2, assigned := idIf r.2.isSome jobId })
  | .markAgentRunning fence jobId owner => ((markAgentExecutionRunning s fence jobId owner).1, {})
  | .prepareServerless jobId owner nowMs =>
    let r := prepareServerlessExecution s jobId owner nowMs
    (r.1, { fence := r.2, assigned := idIf r.2.isSome jobId })
  | .markServerlessRunning fence jobId owner =>
    ((markServerlessExecutionRunning s fence jobId owner).1, {})
  | .fallbackServerless fence jobId owner =>
    let r := fallbackServerlessToVps s fence jobId owner
    (r.1, { fence := r.2, displaced := idIf r.2.isSome jobId })
  | .prepareVps jobId owner nowMs =>
    let r := prepareVpsExecution s jobId owner nowMs
    (r.1, { fence := r.2, assigned := idIf r.2.isSome jobId })
  | .markVpsRunning fence jobId owner => ((markVpsExecutionRunning s fence jobId owner).1, {})
  | .requestRescue jobId owner => ((requestNoCheckpointVpsRescue s jobId owner).1, {})
  | .fallbackAgent fence jobId owner nowMs =>
    let r := fallbackAgentToVps s fence jobId owner nowMs
    (r.1, { fence := r.2, displaced := idIf r.2.isSome jobId })
  | .snapshot jobId owner => (s, { fence := snapshotFence s jobId owner })
  | .completeFenced fence jobId owner response nowMs =>
    let r := completeServerJobFenced s fence jobId owner response nowMs
    (r.1, { committed := r.2 })
  | .complete jobId owner response nowMs =>
    let r := completeServerJob s jobId owner response nowMs
    (r.1, { committed := r.2 })
  | .abandon jobId owner => ((abandonServerJob s jobId owner).1, {})
  | .cancel jobId =>
    ((cancelJob s jobId).1, { displaced := cancelledIds jobId (s.serverJobs.lookup jobId) })
  | .cancelForOwner jobId owner =>
    ((cancelJobForOwner s jobId owner).1,
      { displaced := cancelledIds jobId (s.ownedJob jobId owner) })
  | .bestEffortStop jobId owner => ((requestBestEffortStopForOwner s jobId owner).1, {})
  | .tryAcquire jobId desiredWorkers owner nowMs =>
    ((config.tryAcquireForOwner s jobId desiredWorkers owner nowMs).1, {})
  | .acquireOrEnqueue jobId desiredWorkers owner nowMs =>
    ((config.acquireOrEnqueueForOwner s jobId desiredWorkers owner nowMs).1, {})
  | .touch jobId owner nowMs => ((touchQueuedJob s jobId owner nowMs).1, {})
  | .pruneQueue nowMs => (pruneStaleQueue s nowMs, {})
  | .pruneCompleted nowMs => (pruneCompletedServerJobs s nowMs, {})
  | .dropGuard guard => (dropGuard s guard, {})

/-- The job id a call names; the handoffs of an owner and of a trusted worker name none. -/
def Op.jobId : Op → Option String
  | .claim jobId _ _ _ => some jobId
  | .setBrowserWasmEligible jobId _ _ => some jobId
  | .setBrowserCpSatEligible jobId _ _ => some jobId
  | .setAgentPreference jobId _ _ => some jobId
  | .setNativeAgentRequired jobId _ _ => some jobId
  | .setBrowserAgentRequired jobId _ _ => some jobId
  | .handoffForJob jobId _ => some (Text.trim jobId)
  | .prepareAgent jobId _ _ => some jobId
  | .markAgentRunning _ jobId _ => some jobId
  | .prepareServerless jobId _ _ => some jobId
  | .markServerlessRunning _ jobId _ => some jobId
  | .fallbackServerless _ jobId _ => some jobId
  | .prepareVps jobId _ _ => some jobId
  | .markVpsRunning _ jobId _ => some jobId
  | .requestRescue jobId _ => some jobId
  | .fallbackAgent _ jobId _ _ => some jobId
  | .snapshot jobId _ => some jobId
  | .completeFenced _ jobId _ _ _ => some jobId
  | .complete jobId _ _ _ => some jobId
  | .abandon jobId _ => some jobId
  | .cancel jobId => some jobId
  | .cancelForOwner jobId _ => some jobId
  | .bestEffortStop jobId _ => some jobId
  | .tryAcquire jobId _ _ _ => some jobId
  | .acquireOrEnqueue jobId _ _ _ => some jobId
  | .touch jobId _ _ => some jobId
  | .dropGuard guard => some guard.jobId
  | _ => none

end TkbCherry.Pool
