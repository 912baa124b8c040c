import TkbCherry.Agent.Settles

/-!
# One call of the coordinator

The calls as one type, and what a call can do: settle what there is, register a worker under a
new token, open a job, or lease a queued task under a new token.
-/

namespace TkbCherry.Agent

set_option autoImplicit false

open Table TkbCherry.Pool AgentHelperState

inductive AgentOp where
  | registerWorker (r : WorkerRequest) (secret : String) (nowMs : Nat)
  | revokeWorkerIdentity (owner : SolverOwner) (sessionBinding workerId : String) (nowMs : Nat)
  | revokeWorkerToken (caller : Caller) (nowMs : Nat)
  | heartbeat (caller : Caller) (leases : List AgentLeaseHeartbeat)
      (telemetry : Option AgentResourceTelemetry) (nowMs : Nat)
  | claimWork (caller : Caller) (leaseRequestId secret : String) (nowMs : Nat)
  | workIdForLease (caller : Caller) (leaseToken : String) (nowMs : Nat)
  | beginSubmission (caller : Caller) (workId leaseToken : String) (nowMs : Nat)
  | acceptSubmission (caller : Caller) (workId leaseToken : String) (payload : Json)
      (quality : List Int) (nowMs : Nat)
  | acceptCheckpoint (caller : Caller) (workId leaseToken : String) (payload : Json)
      (quality : List Int) (nowMs : Nat)
  | acceptResumeCheckpoint (caller : Caller) (workId leaseToken : String) (payload : Json)
      (quality : List Int) (nowMs : Nat)
  | acceptStructuredOutcome (caller : Caller) (workId leaseToken : String) (nowMs : Nat)
  | rejectSubmission (caller : Caller) (workId leaseToken : String) (nowMs : Nat)
  | rejectSubmissionAndDiscardCheckpoints (caller : Caller) (workId leaseToken : String)
      (nowMs : Nat)
  | registerJob (r : JobRequest) (nowMs : Nat)
  | finishJob (jobId : String) (owner : SolverOwner)
  | takeCandidateAndFinishJob (jobId : String) (owner : SolverOwner)
  | takeForBestEffortStop (jobId : String) (owner : SolverOwner)
  | takeOverForVps (jobId : String) (owner : SolverOwner) (nowMs : Nat)
  | beginTrustedHandoff (caller : Caller) (leaseRequestId : String) (nowMs : Nat)
  | commitTrustedHandoff (caller : Caller) (leaseRequestId jobId : String) (nowMs : Nat)
  | releaseTrustedHandoff (caller : Caller) (leaseRequestId : String) (nowMs : Nat)
  /-- The status calls, which prune and then only read. -/
  | observe (nowMs : Nat)

namespace AgentOp
variable (env : Env)

def apply (s : AgentHelperState) : AgentOp → AgentHelperState
  | registerWorker r secret nowMs => (s.registerWorkerWithEligibility env r secret nowMs).1
  | revokeWorkerIdentity owner sessionBinding workerId nowMs =>
    (s.revokeWorkerIdentity owner sessionBinding workerId nowMs).1
  | revokeWorkerToken caller nowMs => (s.revokeWorkerToken env caller nowMs).1
  | heartbeat caller leases telemetry nowMs =>
    (s.heartbeatWithTelemetry env caller leases telemetry nowMs).1
  | claimWork caller leaseRequestId secret nowMs =>
    (s.claimWorkWithRequestId env caller leaseRequestId secret nowMs).1
  | workIdForLease caller leaseToken nowMs => (s.workIdForLease env caller leaseToken nowMs).1
  | beginSubmission caller workId leaseToken nowMs =>
    (s.beginSubmission env caller workId leaseToken nowMs).1
  | acceptSubmission caller workId leaseToken payload quality nowMs =>
    (s.acceptSubmission env caller workId leaseToken payload quality nowMs).1
  | acceptCheckpoint caller workId leaseToken payload quality nowMs =>
    (s.acceptCheckpoint env caller workId leaseToken payload quality nowMs).1
  | acceptResumeCheckpoint caller workId leaseToken payload quality nowMs =>
    (s.acceptResumeCheckpoint env caller workId leaseToken payload quality nowMs).1
  | acceptStructuredOutcome caller workId leaseToken nowMs =>
    (s.acceptStructuredOutcome env caller workId leaseToken nowMs).1
  | rejectSubmission caller workId leaseToken nowMs =>
    (s.rejectSubmission env caller workId leaseToken nowMs).1
  | rejectSubmissionAndDiscardCheckpoints caller workId leaseToken nowMs =>
    (s.rejectSubmissionAndDiscardCheckpoints env caller workId leaseToken nowMs).1
  | registerJob r nowMs => (s.registerJobWithExecutionPolicy env r nowMs).1
  | finishJob jobId owner => (s.finishJob jobId owner).1
  | takeCandidateAndFinishJob jobId owner => (s.takeCandidateAndFinishJob jobId owner).1
  | takeForBestEffortStop jobId owner => (s.takeForBestEffortStop jobId owner).1
  | takeOverForVps jobId owner nowMs => (s.takeOverForVpsWithCheckpoint jobId owner nowMs).1
  | beginTrustedHandoff caller leaseRequestId nowMs =>
    (s.beginTrustedHandoffRequest env caller leaseRequestId nowMs).1
  | commitTrustedHandoff caller leaseRequestId jobId nowMs =>
    (s.commitTrustedHandoffRequest env caller leaseRequestId jobId nowMs).1
  | releaseTrustedHandoff caller leaseRequestId nowMs =>
    (s.releaseTrustedHandoffRequest env caller leaseRequestId nowMs).1
  | observe nowMs => s.pruneState nowMs

/-- The secret that a call draws, should it need one. -/
def secret : AgentOp → Option String
  | registerWorker _ secret _ => some secret
  | claimWork _ _ secret _ => some secret
  | _ => none

end AgentOp

/-- The leased form of a task. -/
def leasedTask (env : Env) (workerTokenHash requestId secret : String) (nowMs : Nat)
    (task : AgentTask) : AgentTask :=
  { task with
    attempt := min (task.attempt + 1) u32Max
    state := .leased ⟨workerTokenHash, env.secretHash secret, secret, requestId,
      after nowMs agentWorkLeaseMs⟩ }

/-- A queued task that a worker gets, in the coordinator as pruned. -/
structure Grant (env : Env) (base : AgentHelperState) (h requestId : String) (nowMs : Nat) where
  worker : AgentWorker
  jobId : String
  index : Nat
  job : AgentJob
  task : AgentTask
  workerAt : base.workers.lookup h = some worker
  eligible : worker.eligible = true
  fresh : base.replay h worker requestId nowMs = none
  room : base.activeLeases h < worker.maxParallel
  jobAt : base.jobs.lookup jobId = some job
  access : workerCanAccessJob worker job = true
  taskAt : job.tasks[index]? = some task
  queued : task.state = .queued

/-- What a call can do. -/
inductive Effect (env : Env) (s : AgentHelperState) (secret : Option String) (s' : AgentHelperState) :
    Prop where
  | settles (h : Settles s s')
  | registers (base : AgentHelperState) (worker : AgentWorker) (token : String)
      (hbase : Settles s base) (hsecret : secret = some token)
      (hnew : ∀ h old, base.workers.lookup h = some old → ¬ (old.owner = worker.owner ∧
        old.sessionBinding = worker.sessionBinding ∧ old.workerId = worker.workerId))
      (hworkers : s'.workers = base.workers.insert (env.secretHash token) worker)
      (hjobs : s'.jobs = base.jobs) (hserial : s'.nextSerial = base.nextSerial)
  | opens (base : AgentHelperState) (job : AgentJob) (n : Nat) (hbase : Settles s base)
      (hnone : base.jobs.lookup job.jobId = none) (hn : n ≤ maxAgentSeedsPerJob)
      (hjob : job.serial = base.nextSerial)
      (htasks : job.tasks.map (·.workId) = (List.range n).map (workIdFor job.jobId))
      (hqueued : ∀ task ∈ job.tasks, task.state = .queued)
      (hworkers : s'.workers = base.workers) (hjobs : s'.jobs = base.jobs.insert job.jobId job)
      (hserial : s'.nextSerial = base.nextSerial + 1)
  | grants (nowMs : Nat) (h requestId token : String)
      (g : Grant env (s.pruneState nowMs) h requestId nowMs) (hsecret : secret = some token)
      (hworkers : s'.workers = (s.pruneState nowMs).workers)
      (hjobs : s'.jobs = ((s.pruneState nowMs).putTask g.jobId g.index
        (leasedTask env h requestId token nowMs g.task)).jobs)
      (hserial : s'.nextSerial = (s.pruneState nowMs).nextSerial)

namespace AgentHelperState
variable (env : Env) (s : AgentHelperState)

/-! ### Claim -/

theorem mem_available {worker : AgentWorker} {scope : Option String} {slot : Slot}
    (h : slot ∈ s.available worker scope) :
    ∃ job task, s.jobs.lookup slot.2.1 = some job ∧ workerCanAccessJob worker job = true ∧
      job.tasks[slot.2.2.1]? = some task ∧ task.state = .queued := by
  unfold available at h
  obtain ⟨⟨jobId, job⟩, hmem, hslot⟩ := List.mem_flatMap.mp h
  dsimp only at hslot
  split at hslot
  · rename_i hok
    obtain ⟨⟨task, index⟩, htask, hsome⟩ := List.mem_filterMap.mp hslot
    dsimp only at hsome
    split at hsome
    · rename_i hqueued
      rw [← Option.some.inj hsome]
      rw [Bool.and_eq_true] at hok
      exact ⟨job, task, mem_toList_iff.mp hmem, hok.1, List.mem_zipIdx_iff_getElem?.mp htask, hqueued⟩
    · exact absurd hsome (by simp)
  · exact absurd hslot (by simp)

/-- A claim is refused, or it is the replay of a live lease, or it leases a queued task. -/
theorem claimWork_cases {caller : Caller} {leaseRequestId secret : String} {nowMs : Nat}
    {t : AgentHelperState} {r : Except AgentHelperError AgentWorkLease}
    (hr : s.claimWorkWithRequestId env caller leaseRequestId secret nowMs = (t, r)) :
    ((∃ e, r = .error e) ∧ Settles s t) ∨
    (∃ requestId h worker lease, normalizeLeaseRequestId leaseRequestId = some requestId ∧
      (s.pruneState nowMs).authenticatedWorker env caller nowMs = .ok (h, worker) ∧
      (s.pruneState nowMs).replay h worker requestId nowMs = some lease ∧
      t = s.pruneState nowMs ∧ r = .ok lease) ∨
    (∃ (requestId h : String) (g : Grant env (s.pruneState nowMs) h requestId nowMs),
      normalizeLeaseRequestId leaseRequestId = some requestId ∧
      (s.pruneState nowMs).authenticatedWorker env caller nowMs = .ok (h, g.worker) ∧
      t = ((s.pruneState nowMs).putTask g.jobId g.index (leasedTask env h requestId secret nowMs
        g.task)).releaseTrustedHandoffCapacityForJob g.jobId ∧
      r = .ok (workLease g.jobId g.job (leasedTask env h requestId secret nowMs g.task)
        ⟨h, env.secretHash secret, secret, requestId, after nowMs agentWorkLeaseMs⟩)) := by
  have hprune := s.pruneState_settles nowMs
  unfold claimWorkWithRequestId at hr
  dsimp only at hr
  split at hr
  · cases hr
    exact .inl ⟨⟨_, rfl⟩, .refl s⟩
  · rename_i requestId hrequest
    split at hr
    · cases hr
      exact .inl ⟨⟨_, rfl⟩, hprune⟩
    · rename_i h worker hauth
      split at hr
      · cases hr
        exact .inl ⟨⟨_, rfl⟩, hprune⟩
      · rename_i heligible
        split at hr
        · rename_i lease hreplay
          cases hr
          exact .inr (.inl ⟨requestId, h, worker, lease, hrequest, hauth, hreplay, rfl, rfl⟩)
        · rename_i hreplay
          split at hr
          · cases hr
            exact .inl ⟨⟨_, rfl⟩, hprune⟩
          · split at hr
            · cases hr
              exact .inl ⟨⟨_, rfl⟩, hprune⟩
            · rename_i hroom
              split at hr
              · cases hr
                exact .inl ⟨⟨_, rfl⟩, hprune⟩
              · rename_i slot hslot
                have hmem := (List.mem_insertionSort _).mp (List.mem_of_mem_head? hslot)
                obtain ⟨job, task, hjob, haccess, htask, hqueued⟩ := mem_available _ hmem
                have hworker := (authenticatedWorker_ok env hauth).2.1
                simp only [grant, hjob, htask] at hr
                cases hr
                exact .inr (.inr ⟨requestId, h, ⟨worker, slot.2.1, slot.2.2.1, job, task, hworker,
                  by simpa using heligible, hreplay, Nat.lt_of_not_le hroom, hjob, haccess, htask,
                  hqueued⟩, hrequest, hauth, rfl, rfl⟩)

end AgentHelperState

namespace AgentOp
variable (env : Env)

theorem claimWork_effect (s : AgentHelperState) (caller : Caller) (leaseRequestId secret : String)
    (nowMs : Nat) : Effect env s (some secret)
      (s.claimWorkWithRequestId env caller leaseRequestId secret nowMs).1 := by
  generalize hr : s.claimWorkWithRequestId env caller leaseRequestId secret nowMs = result
  obtain ⟨t, r⟩ := result
  dsimp only
  rcases s.claimWork_cases env hr with
    ⟨-, h⟩ | ⟨_, _, _, _, -, -, -, ht, -⟩ | ⟨requestId, h, g, -, -, ht, -⟩
  · exact .settles h
  · rw [ht]
    exact .settles (s.pruneState_settles nowMs)
  · rw [ht]
    exact .grants nowMs h requestId secret g rfl (by simp [putTask]) (by simp) (by simp [putTask])

/-! ### Registration and jobs -/

theorem registrations_gone (s : AgentHelperState) {owner : SolverOwner}
    {sessionBinding workerId h : String} {worker : AgentWorker}
    (hw : ((s.removeWorkers (s.registrations owner sessionBinding workerId)).releaseWorkerLeases
      (s.registrations owner sessionBinding workerId)).workers.lookup h = some worker) :
    ¬ (worker.owner = owner ∧ worker.sessionBinding = sessionBinding ∧ worker.workerId = workerId) := by
  obtain ⟨hlookup, hkept⟩ := (lookup_retain_eq_some _).mp hw
  intro hsame
  refine absurd (of_decide_eq_true hkept) (not_not.mpr ?_)
  unfold registrations
  exact List.mem_map.mpr ⟨(h, worker), List.mem_filter.mpr ⟨mem_toList_iff.mpr hlookup,
    decide_eq_true hsame⟩, rfl⟩

/-- A registration settles what there is, or adds a worker under the new token. -/
theorem registerWorker_cases (s : AgentHelperState) (r : WorkerRequest) (secret : String)
    (nowMs : Nat) {s' : AgentHelperState}
    (hs : (s.registerWorkerWithEligibility env r secret nowMs).1 = s') :
    Settles s s' ∨ ∃ base worker, Settles s base ∧
      (∀ h old, base.workers.lookup h = some old → ¬ (old.owner = worker.owner ∧
        old.sessionBinding = worker.sessionBinding ∧ old.workerId = worker.workerId)) ∧
      s'.workers = base.workers.insert (env.secretHash secret) worker ∧ s'.jobs = base.jobs ∧
      s'.nextSerial = base.nextSerial := by
  unfold registerWorkerWithEligibility at hs
  split at hs
  · exact .inl (hs ▸ .refl s)
  · rename_i workerId _
    dsimp only at hs
    split at hs
    · exact .inl (hs ▸ .refl s)
    · split at hs
      · exact .inl (hs ▸ .refl s)
      · have hdrop := (s.pruneState_settles nowMs).trans (dropWorkers_settles _
          ((s.pruneState nowMs).registrations r.owner (Text.trim r.sessionBinding) workerId))
        split at hs
        · exact .inl (hs ▸ hdrop)
        · subst hs
          exact .inr ⟨_, r.worker (Text.trim r.sessionBinding) workerId nowMs, hdrop,
            fun h old hold => registrations_gone (s.pruneState nowMs) hold, rfl, rfl, rfl⟩

theorem registerWorker_effect (s : AgentHelperState) (r : WorkerRequest) (secret : String)
    (nowMs : Nat) :
    Effect env s (some secret) (s.registerWorkerWithEligibility env r secret nowMs).1 := by
  rcases registerWorker_cases env s r secret nowMs rfl with
    h | ⟨base, worker, hbase, hnew, hworkers, hjobs, hserial⟩
  · exact .settles h
  · exact .registers base worker secret hbase rfl hnew hworkers hjobs hserial

theorem registerJob_effect (s : AgentHelperState) (r : JobRequest) (nowMs : Nat) :
    Effect env s none (s.registerJobWithExecutionPolicy env r nowMs).1 := by
  have hprune := s.pruneState_settles nowMs
  unfold registerJobWithExecutionPolicy
  dsimp only
  split
  · exact .settles (.refl s)
  · split
    · split
      · exact .settles (hprune.trans (settles_releaseCapacity _ _))
      · exact .settles hprune
    · rename_i hnone
      have hn : max 1 (min r.seedCount maxAgentSeedsPerJob) ≤ maxAgentSeedsPerJob := by
        unfold maxAgentSeedsPerJob
        omega
      refine .opens _ (r.job env (Text.trim r.jobId) (s.pruneState nowMs).nextSerial nowMs) _ hprune
        hnone hn rfl (List.map_map ..) ?_ (by simp) (by simp [JobRequest.job]) (by simp)
      intro task htask
      obtain ⟨_, -, rfl⟩ := List.mem_map.mp htask
      rfl

theorem trustedCall_settles (s : AgentHelperState) (caller : Caller) (leaseRequestId : String)
    (nowMs : Nat) {act : AgentHelperState → String → AgentWorker → String →
      AgentHelperState × Except AgentHelperError Bool}
    (hact : ∀ t h worker marker, Settles t (act t h worker marker).1) :
    Settles s (s.trustedCall env caller leaseRequestId nowMs act).1 := by
  have hprune := s.pruneState_settles nowMs
  unfold trustedCall
  split
  · exact .refl s
  · dsimp only
    split
    · exact hprune
    · split
      · exact hprune
      · exact hprune.trans (hact _ _ _ _)

theorem beginTrustedHandoff_settles (s : AgentHelperState) (caller : Caller)
    (leaseRequestId : String) (nowMs : Nat) :
    Settles s (s.beginTrustedHandoffRequest env caller leaseRequestId nowMs).1 := by
  refine trustedCall_settles env s caller leaseRequestId nowMs fun t h worker marker => ?_
  split
  · exact .refl t
  · split
    · exact .refl t
    · split
      · exact .refl t
      · exact (Settles.refl t).congr rfl rfl rfl

theorem commitTrustedHandoff_settles (s : AgentHelperState) (caller : Caller)
    (leaseRequestId jobId : String) (nowMs : Nat) :
    Settles s (s.commitTrustedHandoffRequest env caller leaseRequestId jobId nowMs).1 := by
  unfold commitTrustedHandoffRequest
  split
  · exact .refl s
  · dsimp only
    split
    · exact .refl s
    · refine trustedCall_settles env s caller leaseRequestId nowMs fun t h worker marker => ?_
      split
      · exact .refl t
      · split
        · exact .refl t
        · unfold takeTrustedHandoffCapacityRelease
          split <;> exact (Settles.refl t).congr (by simp) (by simp) (by simp)

theorem releaseTrustedHandoff_settles (s : AgentHelperState) (caller : Caller)
    (leaseRequestId : String) (nowMs : Nat) :
    Settles s (s.releaseTrustedHandoffRequest env caller leaseRequestId nowMs).1 := by
  refine trustedCall_settles env s caller leaseRequestId nowMs fun t h worker marker => ?_
  split
  · exact (Settles.refl t).congr (by simp) (by simp) (by simp)
  · exact .refl t

theorem revokeWorkerIdentity_settles (s : AgentHelperState) (owner : SolverOwner)
    (sessionBinding workerId : String) (nowMs : Nat) :
    Settles s (s.revokeWorkerIdentity owner sessionBinding workerId nowMs).1 := by
  unfold AgentHelperState.revokeWorkerIdentity
  split
  · exact .refl s
  · dsimp only
    split
    · exact .refl s
    · exact (s.pruneState_settles nowMs).trans (revokeWorkers_settles _ _)

theorem revokeWorkerToken_settles (s : AgentHelperState) (caller : Caller) (nowMs : Nat) :
    Settles s (s.revokeWorkerToken env caller nowMs).1 := by
  unfold AgentHelperState.revokeWorkerToken
  dsimp only
  split
  · exact (s.pruneState_settles nowMs).trans (revokeWorkers_settles _ _)
  · exact s.pruneState_settles nowMs

theorem finishJob_settles (s : AgentHelperState) (jobId : String) (owner : SolverOwner) :
    Settles s (s.finishJob jobId owner).1 := by
  unfold AgentHelperState.finishJob
  split
  · exact s.closeJob_settles jobId
  · exact s.settles_releaseCapacity jobId

theorem takeCandidateAndFinishJob_settles (s : AgentHelperState) (jobId : String) (owner : SolverOwner) :
    Settles s (s.takeCandidateAndFinishJob jobId owner).1 := by
  unfold AgentHelperState.takeCandidateAndFinishJob
  split
  · exact s.closeJob_settles jobId
  · exact s.settles_releaseCapacity jobId

theorem takeForBestEffortStop_settles (s : AgentHelperState) (jobId : String) (owner : SolverOwner) :
    Settles s (s.takeForBestEffortStop jobId owner).1 := by
  unfold AgentHelperState.takeForBestEffortStop
  split
  · exact s.closeJob_settles jobId
  · exact s.settles_releaseCapacity jobId

theorem takeOver_settles (s : AgentHelperState) (jobId : String) (owner : SolverOwner)
    (nowMs : Nat) : Settles s (s.takeOverForVpsWithCheckpoint jobId owner nowMs).1 := by
  have hprune := s.pruneState_settles nowMs
  unfold takeOverForVpsWithCheckpoint
  dsimp only
  split
  · exact hprune.trans (settles_releaseCapacity _ _)
  · split
    · exact hprune
    · exact hprune.trans (closeJob_settles _ _)

theorem workIdForLease_state (s : AgentHelperState) (caller : Caller) (leaseToken : String)
    (nowMs : Nat) : (s.workIdForLease env caller leaseToken nowMs).1 = s.pruneState nowMs := by
  unfold AgentHelperState.workIdForLease
  dsimp only
  split <;> rfl

/-- What any call does. -/
theorem effect (s : AgentHelperState) (op : AgentOp) : Effect env s op.secret (op.apply env s) := by
  have hrefl : ∀ lease : TaskLease, StateSettles (.leased lease) (.leased lease) := fun _ => .refl _
  have hunder {nowMs : Nat} {t : AgentHelperState} (h : Settles (s.pruneState nowMs) t) :
      Effect env s none t := .settles ((s.pruneState_settles nowMs).trans h)
  cases op with
  | registerWorker r secret nowMs => exact registerWorker_effect env s r secret nowMs
  | revokeWorkerIdentity owner binding workerId nowMs =>
    exact .settles (revokeWorkerIdentity_settles s owner binding workerId nowMs)
  | revokeWorkerToken caller nowMs => exact .settles (revokeWorkerToken_settles env s caller nowMs)
  | heartbeat caller leases telemetry nowMs =>
    exact hunder (heartbeat_settles env s caller leases telemetry nowMs)
  | claimWork caller leaseRequestId secret nowMs =>
    exact claimWork_effect env s caller leaseRequestId secret nowMs
  | workIdForLease caller leaseToken nowMs =>
    refine .settles ?_
    rw [apply, workIdForLease_state]
    exact s.pruneState_settles nowMs
  | beginSubmission => exact hunder (underLease_settles env _ _ _ hrefl s _ _ _ _)
  | acceptSubmission => exact hunder (underLease_settles env _ _ _ .complete s _ _ _ _)
  | acceptCheckpoint => exact hunder (underLease_settles env _ _ _ hrefl s _ _ _ _)
  | acceptResumeCheckpoint => exact hunder (underLease_settles env _ _ _ hrefl s _ _ _ _)
  | acceptStructuredOutcome => exact hunder (underLease_settles env _ _ _ .complete s _ _ _ _)
  | rejectSubmission => exact hunder (underLease_settles env _ _ _ .release s _ _ _ _)
  | rejectSubmissionAndDiscardCheckpoints =>
    exact hunder (underLease_settles env _ _ _ .release s _ _ _ _)
  | registerJob r nowMs => exact registerJob_effect env s r nowMs
  | finishJob jobId owner => exact .settles (finishJob_settles s jobId owner)
  | takeCandidateAndFinishJob jobId owner => exact .settles (takeCandidateAndFinishJob_settles s jobId owner)
  | takeForBestEffortStop jobId owner => exact .settles (takeForBestEffortStop_settles s jobId owner)
  | takeOverForVps jobId owner nowMs => exact .settles (takeOver_settles s jobId owner nowMs)
  | beginTrustedHandoff caller leaseRequestId nowMs =>
    exact .settles (beginTrustedHandoff_settles env s caller leaseRequestId nowMs)
  | commitTrustedHandoff caller leaseRequestId jobId nowMs =>
    exact .settles (commitTrustedHandoff_settles env s caller leaseRequestId jobId nowMs)
  | releaseTrustedHandoff caller leaseRequestId nowMs =>
    exact .settles (releaseTrustedHandoff_settles env s caller leaseRequestId nowMs)
  | observe nowMs => exact .settles (s.pruneState_settles nowMs)

end AgentOp

end TkbCherry.Agent
