import TkbCherry.Agent.Ops

/-!
# What the calls leave alone

The candidates of a job change only when a task's call hands one in or discards them, and a
handoff is only ever reserved by the call that begins it. Everything else keeps the candidates of
the jobs that stay, and reserves nothing.
-/

namespace TkbCherry.Agent

set_option autoImplicit false

open Table TkbCherry.Pool AgentHelperState

/-- Every job that is there was there, with the candidates it has. -/
def KeepsCandidates (s s' : AgentHelperState) : Prop :=
  ∀ jobId job', s'.jobs.lookup jobId = some job' →
    ∃ job, s.jobs.lookup jobId = some job ∧ job'.toJobCandidates = job.toJobCandidates

/-- A handoff is for the same worker and job, reserved only if it was, and as it was while it
has no job. -/
structure HandoffKept (r r' : TrustedHandoffRequest) : Prop where
  worker : r'.workerTokenHash = r.workerTokenHash
  job : ∀ jobId, r.jobId = some jobId → r'.jobId = some jobId
  reserved : r'.capacityReserved = true → r.capacityReserved = true
  uncommitted : r'.jobId = none → r' = r

theorem HandoffKept.refl (r : TrustedHandoffRequest) : HandoffKept r r :=
  ⟨rfl, fun _ h => h, fun h => h, fun _ => rfl⟩

theorem HandoffKept.trans {a b c : TrustedHandoffRequest} (h : HandoffKept a b)
    (k : HandoffKept b c) : HandoffKept a c where
  worker := k.worker.trans h.worker
  job jobId hc := k.job jobId (h.job jobId hc)
  reserved hc := h.reserved (k.reserved hc)
  uncommitted hc := by
    have hcb := k.uncommitted hc
    rw [hcb] at hc ⊢
    exact h.uncommitted hc

/-- Every handoff that is there was there. -/
def KeepsHandoffs (s s' : AgentHelperState) : Prop :=
  ∀ marker r', s'.trustedHandoffRequests.lookup marker = some r' →
    ∃ r, s.trustedHandoffRequests.lookup marker = some r ∧ HandoffKept r r'

structure Retains (s s' : AgentHelperState) : Prop where
  candidates : KeepsCandidates s s'
  handoffs : KeepsHandoffs s s'

section Relations
variable {s s' t : AgentHelperState}

theorem KeepsCandidates.refl (s : AgentHelperState) : KeepsCandidates s s :=
  fun _ _ h => ⟨_, h, rfl⟩

theorem KeepsCandidates.trans (h : KeepsCandidates s s') (k : KeepsCandidates s' t) :
    KeepsCandidates s t := by
  intro jobId job'' hj
  obtain ⟨job', hj', hsame'⟩ := k jobId job'' hj
  obtain ⟨job, hjob, hsame⟩ := h jobId job' hj'
  exact ⟨job, hjob, hsame'.trans hsame⟩

theorem KeepsHandoffs.refl (s : AgentHelperState) : KeepsHandoffs s s :=
  fun _ _ h => ⟨_, h, .refl _⟩

theorem KeepsHandoffs.trans (h : KeepsHandoffs s s') (k : KeepsHandoffs s' t) :
    KeepsHandoffs s t := by
  intro marker r'' hr
  obtain ⟨r', hr', hkept'⟩ := k marker r'' hr
  obtain ⟨r, hr, hkept⟩ := h marker r' hr'
  exact ⟨r, hr, hkept.trans hkept'⟩

/-- The same jobs. -/
theorem KeepsCandidates.of_jobs (h : s'.jobs = s.jobs) : KeepsCandidates s s' := by
  intro jobId job hj
  rw [h] at hj
  exact ⟨job, hj, rfl⟩

/-- The same handoffs. -/
theorem KeepsHandoffs.of_requests (h : s'.trustedHandoffRequests = s.trustedHandoffRequests) :
    KeepsHandoffs s s' := by
  intro marker r hr
  rw [h] at hr
  exact ⟨r, hr, .refl r⟩

namespace Retains

theorem refl (s : AgentHelperState) : Retains s s := ⟨.refl s, .refl s⟩

theorem trans (h : Retains s s') (k : Retains s' t) : Retains s t :=
  ⟨h.candidates.trans k.candidates, h.handoffs.trans k.handoffs⟩

theorem of_tables (hjobs : s'.jobs = s.jobs)
    (hrequests : s'.trustedHandoffRequests = s.trustedHandoffRequests) : Retains s s' :=
  ⟨.of_jobs hjobs, .of_requests hrequests⟩

/-- A change of the tasks of one job. -/
theorem of_modify {jobId : String} {f : AgentJob → AgentJob}
    (hf : ∀ job, s.jobs.lookup jobId = some job → (f job).toJobCandidates = job.toJobCandidates) :
    Retains s { s with jobs := modify jobId f s.jobs } where
  handoffs := .of_requests rfl
  candidates := by
    intro k job' hj
    rcases eq_or_ne k jobId with hk | hk
    · subst hk
      obtain ⟨job, hjob, hfjob⟩ := Option.map_eq_some_iff.mp ((lookup_modify_self k f s.jobs) ▸ hj)
      exact ⟨job, hjob, hfjob ▸ hf job hjob⟩
    · exact ⟨job', lookup_modify_ne hk f s.jobs ▸ hj, rfl⟩

/-- A change of every task. -/
theorem of_mapTasks (f : AgentTask → AgentTask) : Retains s (s.mapTasks f) where
  handoffs := .of_requests rfl
  candidates := by
    intro k job' hj
    obtain ⟨job, hjob, rfl⟩ := Option.map_eq_some_iff.mp (lookup_mapValues _ s.jobs k ▸ hj)
    exact ⟨job, hjob, rfl⟩

/-- Some handoffs go. -/
theorem of_retain (keep : String → TrustedHandoffRequest → Bool) : Retains s
    { s with trustedHandoffRequests := retain keep s.trustedHandoffRequests } where
  candidates := .of_jobs rfl
  handoffs := by
    intro marker r hr
    exact ⟨r, ((lookup_retain_eq_some keep).mp hr).1, .refl r⟩

end Retains

end Relations

/-! ### Pruning, registrations and jobs that go -/

namespace AgentHelperState
variable (s : AgentHelperState) (jobId : String)

@[simp] theorem clearOrphaned_requests :
    s.clearOrphanedTrustedHandoffCapacityReleases.trustedHandoffRequests =
      s.trustedHandoffRequests := by
  unfold clearOrphanedTrustedHandoffCapacityReleases
  split <;> rfl

theorem clearOrphaned_retains : Retains s s.clearOrphanedTrustedHandoffCapacityReleases :=
  .of_tables (by simp) (by simp)

theorem releaseCapacity_requests :
    (s.releaseTrustedHandoffCapacityForJob jobId).trustedHandoffRequests =
      mapValues (fun request => if request.jobId = some jobId then
        { request with capacityReserved := false } else request) s.trustedHandoffRequests := by
  unfold releaseTrustedHandoffCapacityForJob
  dsimp only
  split <;> rfl

theorem releaseCapacity_retains : Retains s (s.releaseTrustedHandoffCapacityForJob jobId) where
  candidates := .of_jobs (by simp)
  handoffs := by
    intro marker r' hr
    rw [releaseCapacity_requests, lookup_mapValues] at hr
    obtain ⟨r, hlookup, rfl⟩ := Option.map_eq_some_iff.mp hr
    refine ⟨r, hlookup, ?_⟩
    split
    · rename_i hjob
      exact ⟨rfl, fun _ h => h, fun hres => absurd hres (by simp),
        fun hnone => absurd (hjob.symm.trans hnone) (by simp)⟩
    · exact .refl r

theorem pruneState_retains (nowMs : Nat) : Retains s (s.pruneState nowMs) where
  candidates := by
    intro k job' hj
    simp only [pruneState, mapTasks, clearOrphaned_jobs, lookup_retain_eq_some, lookup_mapValues,
      Option.map_eq_some_iff] at hj
    obtain ⟨⟨job, hjob, rfl⟩, -⟩ := hj
    exact ⟨job, hjob, rfl⟩
  handoffs := by
    intro marker r hr
    simp only [pruneState, mapTasks, clearOrphaned_requests, lookup_retain_eq_some] at hr
    exact ⟨r, hr.1, .refl r⟩

theorem dropWorkers_retains (tokenHashes : List String) :
    Retains s ((s.removeWorkers tokenHashes).releaseWorkerLeases tokenHashes) := by
  have hworkers : Retains s (s.removeWorkers tokenHashes) := .of_tables rfl rfl
  exact hworkers.trans (.of_mapTasks _)

theorem revokeWorkers_retains (tokenHashes : List String) :
    Retains s (s.revokeWorkers tokenHashes) := by
  have hworkers : Retains s (s.removeWorkers tokenHashes) := .of_tables rfl rfl
  have hrequests := hworkers.trans
    (.of_retain fun _ request => decide (request.workerTokenHash ∉ tokenHashes))
  exact (hrequests.trans (clearOrphaned_retains _)).trans (.of_mapTasks _)

theorem closeJob_retains : Retains s (s.closeJob jobId) := by
  have herase : Retains s { s with jobs := s.jobs.erase jobId } := by
    refine ⟨fun k job hj => ?_, .of_requests rfl⟩
    rcases eq_or_ne k jobId with he | he
    · subst he
      exact absurd ((AList.lookup_erase k s.jobs).symm.trans hj) (by simp)
    · exact ⟨job, (AList.lookup_erase_ne he).symm.trans hj, rfl⟩
  exact herase.trans (releaseCapacity_retains _ jobId)

theorem touchWorker_retains (h : String) (expiresAtMs : Nat)
    (telemetry : Option AgentResourceTelemetry) (nowMs : Nat) :
    Retains s (s.touchWorker h expiresAtMs telemetry nowMs) := .of_tables rfl rfl

theorem putTask_retains (index : Nat) (task : AgentTask) : Retains s (s.putTask jobId index task) :=
  .of_modify fun _ _ => rfl

variable (env : Env)

theorem renewLeases_retains (h : String) (worker : AgentWorker) (nowMs : Nat)
    (leases : List AgentLeaseHeartbeat) (acc : AgentHelperState × AgentHeartbeatResult) :
    Retains acc.1 (leases.foldl (renewLease env h worker nowMs) acc).1 := by
  induction leases generalizing acc with
  | nil => exact .refl _
  | cons lease leases ih =>
    have hone : Retains acc.1 (renewLease env h worker nowMs acc lease).1 := by
      unfold renewLease
      dsimp only
      split
      · exact .refl _
      · split
        · split
          · exact putTask_retains _ _ _ _
          · exact .refl _
        · exact .refl _
    exact hone.trans (ih _)

theorem heartbeat_retains (caller : Caller) (leases : List AgentLeaseHeartbeat)
    (telemetry : Option AgentResourceTelemetry) (nowMs : Nat) :
    Retains s (s.heartbeatWithTelemetry env caller leases telemetry nowMs).1 := by
  have hprune := s.pruneState_retains nowMs
  unfold heartbeatWithTelemetry
  dsimp only
  split
  · exact hprune
  · rename_i h worker _
    have htouch := hprune.trans (touchWorker_retains _ h (after nowMs worker.registrationTtl)
      telemetry nowMs)
    exact htouch.trans (renewLeases_retains env h worker nowMs
      (leases.take maxAgentParallelPerWorker) (_, ⟨[], [], after nowMs worker.registrationTtl⟩))

end AgentHelperState

/-! ### The calls -/

namespace AgentOp
variable (env : Env) (s : AgentHelperState)

theorem registerWorker_retains (r : WorkerRequest) (secret : String) (nowMs : Nat) :
    Retains s (s.registerWorkerWithEligibility env r secret nowMs).1 := by
  unfold registerWorkerWithEligibility
  split
  · exact .refl s
  · rename_i workerId _
    dsimp only
    split
    · exact .refl s
    · split
      · exact .refl s
      · have hdrop := (s.pruneState_retains nowMs).trans (dropWorkers_retains _
          ((s.pruneState nowMs).registrations r.owner (Text.trim r.sessionBinding) workerId))
        split
        · exact hdrop
        · exact hdrop.trans (.of_tables rfl rfl)

theorem claimWork_retains (caller : Caller) (leaseRequestId secret : String) (nowMs : Nat) :
    Retains s (s.claimWorkWithRequestId env caller leaseRequestId secret nowMs).1 := by
  have hprune := s.pruneState_retains nowMs
  unfold claimWorkWithRequestId
  split
  · exact .refl s
  · dsimp only
    split
    · exact hprune
    · split
      · exact hprune
      · split
        · exact hprune
        · split
          · exact hprune
          · split
            · exact hprune
            · split
              · exact hprune
              · unfold grant
                dsimp only
                split
                · exact hprune
                · split
                  · exact hprune
                  · exact (hprune.trans (putTask_retains _ _ _ _)).trans
                      (releaseCapacity_retains _ _)

theorem underLease_handoffs {α : Type} (refusal : AgentTaskState → AgentHelperError)
    (use : AgentWorker → Found → JobCandidates × α) (next : TaskLease → AgentTaskState)
    (caller : Caller) (workId leaseToken : String) (nowMs : Nat) :
    KeepsHandoffs s (s.underLease env refusal use next caller workId leaseToken nowMs).1 := by
  have hprune := (s.pruneState_retains nowMs).handoffs
  unfold underLease
  dsimp only
  split
  · exact hprune
  · split
    · exact hprune
    · split
      · split
        · exact hprune.trans (.of_requests rfl)
        · exact hprune
      · exact hprune

theorem trustedCall_retains (caller : Caller) (leaseRequestId : String) (nowMs : Nat)
    {act : AgentHelperState → String → AgentWorker → String →
      AgentHelperState × Except AgentHelperError Bool}
    (hact : ∀ t h worker marker, Retains t (act t h worker marker).1) :
    Retains s (s.trustedCall env caller leaseRequestId nowMs act).1 := by
  have hprune := s.pruneState_retains nowMs
  unfold trustedCall
  split
  · exact .refl s
  · dsimp only
    split
    · exact hprune
    · split
      · exact hprune
      · exact hprune.trans (hact _ _ _ _)

theorem takeRelease_tables (jobId : String) :
    (s.takeTrustedHandoffCapacityRelease jobId).1.jobs = s.jobs ∧
      (s.takeTrustedHandoffCapacityRelease jobId).1.trustedHandoffRequests =
        s.trustedHandoffRequests := by
  unfold takeTrustedHandoffCapacityRelease
  split
  · exact ⟨rfl, rfl⟩
  · exact ⟨rfl, rfl⟩

/-- A handoff that has no job yet is reserved. -/
def Reserving (s : AgentHelperState) : Prop :=
  ∀ marker r, s.trustedHandoffRequests.lookup marker = some r → r.jobId = none →
    r.capacityReserved = true

variable {s} in
theorem Reserving.keeps {s' : AgentHelperState} (h : Reserving s) (hk : KeepsHandoffs s s') :
    Reserving s' := by
  intro marker r' hr' hnone
  obtain ⟨r, hr, hkept⟩ := hk marker r' hr'
  obtain rfl := hkept.uncommitted hnone
  exact h marker r' hr hnone

variable {s} in
/-- A reserved handoff gets its job. -/
theorem retains_of_commit {marker : String} {existing : TrustedHandoffRequest}
    (hexisting : s.trustedHandoffRequests.lookup marker = some existing)
    (hopen : existing.jobId = none) (hreserved : existing.capacityReserved = true)
    (jobId : String) (reserved : Bool) :
    Retains s { (s.takeTrustedHandoffCapacityRelease jobId).1 with
      trustedHandoffRequests := modify marker (fun request => { request with
        jobId := some jobId, capacityReserved := reserved })
        (s.takeTrustedHandoffCapacityRelease jobId).1.trustedHandoffRequests } where
  candidates := .of_jobs (takeRelease_tables s jobId).1
  handoffs := by
    intro k r' hr'
    dsimp only at hr'
    rw [(takeRelease_tables s jobId).2] at hr'
    rcases eq_or_ne k marker with hk | hk
    · subst hk
      rw [lookup_modify_self, hexisting, Option.map_some, Option.some.injEq] at hr'
      subst hr'
      refine ⟨existing, hexisting, rfl, fun k hk => ?_, fun _ => hreserved, fun hnone => ?_⟩
      · exact absurd (hopen.symm.trans hk) (by simp)
      · exact absurd hnone (by simp)
    · rw [lookup_modify_ne hk] at hr'
      exact ⟨r', hr', .refl r'⟩

theorem commitTrustedHandoff_retains (hs : Reserving s) (caller : Caller)
    (leaseRequestId jobId : String) (nowMs : Nat) :
    Retains s (s.commitTrustedHandoffRequest env caller leaseRequestId jobId nowMs).1 := by
  have hprune := s.pruneState_retains nowMs
  unfold commitTrustedHandoffRequest
  split
  · exact .refl s
  · dsimp only
    split
    · exact .refl s
    · unfold trustedCall
      split
      · exact .refl s
      · dsimp only
        split
        · exact hprune
        · split
          · exact hprune
          · split
            · exact hprune
            · rename_i existing hexisting
              split
              · exact hprune
              · rename_i hnone
                have hreserved := hs.keeps hprune.handoffs _ existing hexisting hnone
                exact (hprune.trans (retains_of_commit hexisting hnone hreserved _ _)).trans
                  (clearOrphaned_retains _)

theorem releaseTrustedHandoff_retains (caller : Caller) (leaseRequestId : String) (nowMs : Nat) :
    Retains s (s.releaseTrustedHandoffRequest env caller leaseRequestId nowMs).1 := by
  refine trustedCall_retains env s caller leaseRequestId nowMs fun t h worker marker => ?_
  split
  · have herase : Retains t { t with
        trustedHandoffRequests := t.trustedHandoffRequests.erase marker } := by
      refine ⟨.of_jobs rfl, fun k r hr => ?_⟩
      rcases eq_or_ne k marker with he | he
      · subst he
        exact absurd ((AList.lookup_erase k t.trustedHandoffRequests).symm.trans hr) (by simp)
      · exact ⟨r, (AList.lookup_erase_ne he).symm.trans hr, .refl r⟩
    exact herase.trans (clearOrphaned_retains _)
  · exact .refl t

theorem registerJob_handoffs (r : JobRequest) (nowMs : Nat) :
    KeepsHandoffs s (s.registerJobWithExecutionPolicy env r nowMs).1 := by
  have hprune := s.pruneState_retains nowMs
  unfold registerJobWithExecutionPolicy
  dsimp only
  split
  · exact .refl s
  · split
    · split
      · exact (hprune.trans (releaseCapacity_retains _ _)).handoffs
      · exact hprune.handoffs
    · have hinsert : KeepsHandoffs (s.pruneState nowMs) { s.pruneState nowMs with
          jobs := (s.pruneState nowMs).jobs.insert (Text.trim r.jobId)
            (r.job env (Text.trim r.jobId) (s.pruneState nowMs).nextSerial nowMs)
          nextSerial := (s.pruneState nowMs).nextSerial + 1 } := .of_requests rfl
      exact (hprune.handoffs.trans hinsert).trans (releaseCapacity_retains _ _).handoffs

theorem revokeWorkerIdentity_retains (owner : SolverOwner) (sessionBinding workerId : String)
    (nowMs : Nat) :
    Retains s (s.revokeWorkerIdentity owner sessionBinding workerId nowMs).1 := by
  unfold AgentHelperState.revokeWorkerIdentity
  split
  · exact .refl s
  · dsimp only
    split
    · exact .refl s
    · exact (s.pruneState_retains nowMs).trans (revokeWorkers_retains _ _)

theorem revokeWorkerToken_retains (caller : Caller) (nowMs : Nat) :
    Retains s (s.revokeWorkerToken env caller nowMs).1 := by
  unfold AgentHelperState.revokeWorkerToken
  dsimp only
  split
  · exact (s.pruneState_retains nowMs).trans (revokeWorkers_retains _ _)
  · exact s.pruneState_retains nowMs

theorem finishJob_retains (jobId : String) (owner : SolverOwner) :
    Retains s (s.finishJob jobId owner).1 := by
  unfold AgentHelperState.finishJob
  split
  · exact s.closeJob_retains jobId
  · exact s.releaseCapacity_retains jobId

theorem takeCandidateAndFinishJob_retains (jobId : String) (owner : SolverOwner) :
    Retains s (s.takeCandidateAndFinishJob jobId owner).1 := by
  unfold AgentHelperState.takeCandidateAndFinishJob
  split
  · exact s.closeJob_retains jobId
  · exact s.releaseCapacity_retains jobId

theorem takeForBestEffortStop_retains (jobId : String) (owner : SolverOwner) :
    Retains s (s.takeForBestEffortStop jobId owner).1 := by
  unfold AgentHelperState.takeForBestEffortStop
  split
  · exact s.closeJob_retains jobId
  · exact s.releaseCapacity_retains jobId

theorem takeOver_retains (jobId : String) (owner : SolverOwner) (nowMs : Nat) :
    Retains s (s.takeOverForVpsWithCheckpoint jobId owner nowMs).1 := by
  have hprune := s.pruneState_retains nowMs
  unfold takeOverForVpsWithCheckpoint
  dsimp only
  split
  · exact hprune.trans (releaseCapacity_retains _ _)
  · split
    · exact hprune
    · exact hprune.trans (closeJob_retains _ _)

/-- Only the call that begins a handoff reserves one. -/
theorem apply_handoffs (hs : Reserving s) (op : AgentOp)
    (hop : ∀ caller requestId nowMs, op ≠ .beginTrustedHandoff caller requestId nowMs) :
    KeepsHandoffs s (op.apply env s) := by
  cases op with
  | registerWorker r secret nowMs => exact (registerWorker_retains env s r secret nowMs).handoffs
  | revokeWorkerIdentity owner binding workerId nowMs =>
    exact (revokeWorkerIdentity_retains s owner binding workerId nowMs).handoffs
  | revokeWorkerToken caller nowMs => exact (revokeWorkerToken_retains env s caller nowMs).handoffs
  | heartbeat caller leases telemetry nowMs =>
    exact (s.heartbeat_retains env caller leases telemetry nowMs).handoffs
  | claimWork caller requestId secret nowMs =>
    exact (claimWork_retains env s caller requestId secret nowMs).handoffs
  | workIdForLease caller leaseToken nowMs =>
    rw [apply, workIdForLease_state]
    exact (s.pruneState_retains nowMs).handoffs
  | beginSubmission => exact underLease_handoffs env s _ _ _ _ _ _ _
  | acceptSubmission => exact underLease_handoffs env s _ _ _ _ _ _ _
  | acceptCheckpoint => exact underLease_handoffs env s _ _ _ _ _ _ _
  | acceptResumeCheckpoint => exact underLease_handoffs env s _ _ _ _ _ _ _
  | acceptStructuredOutcome => exact underLease_handoffs env s _ _ _ _ _ _ _
  | rejectSubmission => exact underLease_handoffs env s _ _ _ _ _ _ _
  | rejectSubmissionAndDiscardCheckpoints => exact underLease_handoffs env s _ _ _ _ _ _ _
  | registerJob r nowMs => exact registerJob_handoffs env s r nowMs
  | finishJob jobId owner => exact (finishJob_retains s jobId owner).handoffs
  | takeCandidateAndFinishJob jobId owner =>
    exact (takeCandidateAndFinishJob_retains s jobId owner).handoffs
  | takeForBestEffortStop jobId owner => exact (takeForBestEffortStop_retains s jobId owner).handoffs
  | takeOverForVps jobId owner nowMs => exact (takeOver_retains s jobId owner nowMs).handoffs
  | beginTrustedHandoff caller requestId nowMs => exact absurd rfl (hop caller requestId nowMs)
  | commitTrustedHandoff caller requestId jobId nowMs =>
    exact (commitTrustedHandoff_retains env s hs caller requestId jobId nowMs).handoffs
  | releaseTrustedHandoff caller requestId nowMs =>
    exact (releaseTrustedHandoff_retains env s caller requestId nowMs).handoffs
  | observe nowMs => exact (s.pruneState_retains nowMs).handoffs

end AgentOp

end TkbCherry.Agent
