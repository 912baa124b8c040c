import TkbCherry.Agent.Leases
import TkbCherry.Agent.Retains
import TkbCherry.Lib.Incumbent

/-!
# The best candidate of a job

Beside the coordinator stands, for every job id, what its tasks handed in since the job was
opened or its checkpoints were last discarded: the submissions and checkpoints, oldest first,
after the submission that the discard left in place. The two candidates of a job are the best of
them; only the status call looks at one of the two alone.
-/

namespace TkbCherry.Agent

set_option autoImplicit false

open Table TkbCherry.Pool AgentHelperState Incumbent

/-! ### The preference -/

theorem betterAgentCandidate_eq (left right : Option AgentCandidate) :
    betterAgentCandidate left right = better agentCandidateStrictlyPreferred left right := by
  cases left <;> cases right <;> rfl

theorem preferred_iff (a b : AgentCandidate) : agentCandidateStrictlyPreferred a b = true ↔
    a.quality < b.quality ∨ (a.quality = b.quality ∧
      mobileLocalQualityTerminalMarker a.payload = true ∧
      mobileLocalQualityTerminalMarker b.payload = false) := by
  unfold agentCandidateStrictlyPreferred
  simp [and_assoc]

theorem preferred_strict : Strict agentCandidateStrictlyPreferred where
  irrefl := by
    intro a
    rw [← Bool.not_eq_true, preferred_iff]
    rintro (hlt | ⟨_, hyes, hno⟩)
    · exact absurd hlt (lt_irrefl _)
    · rw [hyes] at hno
      exact absurd hno (by simp)
  trans := by
    intro a b c hab hbc
    rw [preferred_iff] at hab hbc ⊢
    rcases hab with hab | ⟨hab, ha, hb⟩
    · rcases hbc with hbc | ⟨hbc, _, _⟩
      · exact Or.inl (lt_trans hab hbc)
      · exact Or.inl (hbc ▸ hab)
    · rcases hbc with hbc | ⟨_, hb', _⟩
      · exact Or.inl (hab ▸ hbc)
      · rw [hb'] at hb
        exact absurd hb (by simp)

/-! ### A call under a lease -/

variable (env : Env)

/-- The worker, the task and its lease, where a call under a lease is accepted. -/
def AgentHelperState.underTask (s : AgentHelperState) (caller : Caller) (workId leaseToken : String)
    (nowMs : Nat) : Option (AgentWorker × Found × TaskLease) :=
  let s := s.pruneState nowMs
  match s.authenticatedWorker env caller nowMs with
  | .error _ => none
  | .ok (workerTokenHash, worker) =>
    match s.findTask worker workId with
    | none => none
    | some found =>
      match found.task.state with
      | .leased lease =>
        if lease.valid workerTokenHash (presented env leaseToken) nowMs then
          some (worker, found, lease)
        else none
      | _ => none

section UnderLease
variable {α : Type} (refusal : AgentTaskState → AgentHelperError)
  (use : AgentWorker → Found → JobCandidates × α) (next : TaskLease → AgentTaskState)
  {s : AgentHelperState} {caller : Caller} {workId leaseToken : String} {nowMs : Nat}

/-- The call is refused, and only prunes. -/
theorem underLease_none (h : s.underTask env caller workId leaseToken nowMs = none) :
    ∃ e, s.underLease env refusal use next caller workId leaseToken nowMs =
      (s.pruneState nowMs, .error e) := by
  revert h
  unfold underTask underLease
  dsimp only
  cases hauth : (s.pruneState nowMs).authenticatedWorker env caller nowMs with
  | error e => exact fun _ => ⟨e, rfl⟩
  | ok presentedWorker =>
    dsimp only
    cases hfind : (s.pruneState nowMs).findTask presentedWorker.2 workId with
    | none => exact fun _ => ⟨_, rfl⟩
    | some found =>
      dsimp only
      cases hstate : found.task.state with
      | leased lease =>
        dsimp only
        cases hvalid : lease.valid presentedWorker.1 (presented env leaseToken) nowMs with
        | true => exact fun h => absurd h (by simp)
        | false => exact fun _ => ⟨_, rfl⟩
      | queued => exact fun _ => ⟨_, rfl⟩
      | completed => exact fun _ => ⟨_, rfl⟩

/-- The call is accepted, and gives one job its candidates and its tasks. -/
theorem underLease_some {worker : AgentWorker} {found : Found} {lease : TaskLease}
    (h : s.underTask env caller workId leaseToken nowMs = some (worker, found, lease)) :
    s.underLease env refusal use next caller workId leaseToken nowMs =
      ({ s.pruneState nowMs with jobs := modify found.jobId (fun job => { job with
          toJobCandidates := (use worker found).1, tasks := found.job.tasks.set found.index
            { found.task with state := next lease } }) (s.pruneState nowMs).jobs },
        .ok (use worker found).2) ∧
      (s.pruneState nowMs).jobs.lookup found.jobId = some found.job := by
  revert h
  unfold underTask underLease
  dsimp only
  cases hauth : (s.pruneState nowMs).authenticatedWorker env caller nowMs with
  | error e => exact fun h => absurd h (by simp)
  | ok presentedWorker =>
    dsimp only
    cases hfind : (s.pruneState nowMs).findTask presentedWorker.2 workId with
    | none => exact fun h => absurd h (by simp)
    | some found' =>
      dsimp only
      cases hstate : found'.task.state with
      | leased lease' =>
        dsimp only
        cases hvalid : lease'.valid presentedWorker.1 (presented env leaseToken) nowMs with
        | true =>
          intro h
          rw [if_pos rfl] at h
          cases h
          exact ⟨rfl, (findTask_some hfind).1⟩
        | false => exact fun h => absurd h (by simp)
      | queued => exact fun h => absurd h (by simp)
      | completed => exact fun h => absurd h (by simp)

end UnderLease

/-! ### What was handed in -/

abbrev HandedIn := String → List AgentCandidate

/-- The request is for a job that is not there. -/
def AgentHelperState.JobRequest.opens (r : JobRequest) (s : AgentHelperState) (nowMs : Nat) : Bool :=
  decide (Text.trim r.jobId ≠ "" ∧ r.requestBody ≠ []) &&
    ((s.pruneState nowMs).jobs.lookup (Text.trim r.jobId)).isNone

/-- What a call adds to what the jobs were handed. -/
def AgentOp.note (s : AgentHelperState) (seen : HandedIn) : AgentOp → HandedIn
  | .acceptSubmission caller workId leaseToken payload quality nowMs =>
    match s.underTask env caller workId leaseToken nowMs with
    | some (worker, found, _) => Function.update seen found.jobId
        (seen found.jobId ++ [candidateOf worker found payload quality])
    | none => seen
  | .acceptCheckpoint caller workId leaseToken payload quality nowMs =>
    match s.underTask env caller workId leaseToken nowMs with
    | some (worker, found, _) => Function.update seen found.jobId
        (seen found.jobId ++ [candidateOf worker found payload quality])
    | none => seen
  | .rejectSubmissionAndDiscardCheckpoints caller workId leaseToken nowMs =>
    match s.underTask env caller workId leaseToken nowMs with
    | some (_, found, _) =>
      Function.update seen found.jobId found.job.bestCandidate.toList
    | none => seen
  | .registerJob r nowMs =>
    if r.opens s nowMs then Function.update seen (Text.trim r.jobId) [] else seen
  | _ => seen

structure Board where
  state : AgentHelperState
  seen : HandedIn

def Board.init : Board := ⟨.empty, fun _ => []⟩

def Board.after (b : Board) (op : AgentOp) : Board :=
  ⟨op.apply env b.state, op.note env b.state b.seen⟩

def Board.run (ops : List AgentOp) : Board := ops.foldl (Board.after env) .init

/-- The two candidates of every job are the best of what it was handed. -/
def Ranked (s : AgentHelperState) (seen : HandedIn) : Prop :=
  ∀ jobId job, s.jobs.lookup jobId = some job →
    Slots agentCandidateStrictlyPreferred job.bestCandidate job.checkpointCandidate (seen jobId)

theorem Ranked.keeps {s s' : AgentHelperState} {seen : HandedIn} (h : Ranked s seen)
    (hk : KeepsCandidates s s') : Ranked s' seen := by
  intro jobId job' hj
  obtain ⟨job, hjob, hsame⟩ := hk jobId job' hj
  have hslots := h jobId job hjob
  rw [← congrArg JobCandidates.bestCandidate hsame,
    ← congrArg JobCandidates.checkpointCandidate hsame] at hslots
  exact hslots

section UnderLease
variable {α : Type} {refusal : AgentTaskState → AgentHelperError}
  {use : AgentWorker → Found → JobCandidates × α} {next : TaskLease → AgentTaskState}
  {s : AgentHelperState} {seen : HandedIn} {caller : Caller} {workId leaseToken : String}
  {nowMs : Nat}

/-- A call under a lease ranks the jobs if it ranks the job of its task. -/
theorem Ranked.underLease (h : Ranked s seen) {seen' : HandedIn}
    (hnone : s.underTask env caller workId leaseToken nowMs = none → seen' = seen)
    (hsome : ∀ worker found lease,
      s.underTask env caller workId leaseToken nowMs = some (worker, found, lease) →
      Slots agentCandidateStrictlyPreferred found.job.bestCandidate found.job.checkpointCandidate
        (seen found.jobId) →
      Slots agentCandidateStrictlyPreferred (use worker found).1.bestCandidate
        (use worker found).1.checkpointCandidate (seen' found.jobId) ∧
        ∀ k, k ≠ found.jobId → seen' k = seen k) :
    Ranked (s.underLease env refusal use next caller workId leaseToken nowMs).1 seen' := by
  have hpruned := h.keeps (s.pruneState_retains nowMs).candidates
  cases htask : s.underTask env caller workId leaseToken nowMs with
  | none =>
    obtain ⟨e, he⟩ := underLease_none env refusal use next htask
    rw [he, hnone htask]
    exact hpruned
  | some triple =>
    obtain ⟨worker, found, lease⟩ := triple
    obtain ⟨he, hjob⟩ := underLease_some env refusal use next htask
    obtain ⟨hslots, hothers⟩ := hsome worker found lease htask (hpruned _ _ hjob)
    rw [he]
    intro k job' hk
    dsimp only at hk
    rcases eq_or_ne k found.jobId with rfl | hne
    · rw [lookup_modify_self, hjob, Option.map_some, Option.some.injEq] at hk
      subst hk
      exact hslots
    · rw [lookup_modify_ne hne] at hk
      rw [hothers k hne]
      exact hpruned k job' hk

/-- A call under a lease that leaves the candidates of the job. -/
theorem Ranked.underLease_same (h : Ranked s seen)
    (hsame : ∀ worker found, (use worker found).1.bestCandidate = found.job.bestCandidate ∧
      (use worker found).1.checkpointCandidate = found.job.checkpointCandidate) :
    Ranked (s.underLease env refusal use next caller workId leaseToken nowMs).1 seen := by
  refine h.underLease env (fun _ => rfl) fun worker found _ _ hslots => ⟨?_, fun _ _ => rfl⟩
  rw [(hsame worker found).1, (hsame worker found).2]
  exact hslots

end UnderLease

/-! ### One call -/

section Step
variable {s : AgentHelperState} {seen : HandedIn}

theorem rank_eq (candidate : AgentCandidate) (job : JobCandidates) : rank candidate job =
    (better agentCandidateStrictlyPreferred job.bestCandidate job.checkpointCandidate,
      beats agentCandidateStrictlyPreferred candidate
        (better agentCandidateStrictlyPreferred job.bestCandidate job.checkpointCandidate)) := by
  unfold rank beats
  rw [betterAgentCandidate_eq]

theorem Ranked.acceptSubmission (h : Ranked s seen) (caller : Caller) (workId leaseToken : String)
    (payload : Json) (quality : List Int) (nowMs : Nat) :
    Ranked (s.acceptSubmission env caller workId leaseToken payload quality nowMs).1
      (AgentOp.note env s seen
        (.acceptSubmission caller workId leaseToken payload quality nowMs)) := by
  unfold AgentHelperState.acceptSubmission AgentOp.note
  dsimp only
  refine h.underLease env (fun hnone => by rw [hnone]) fun worker found lease htask hslots => ?_
  rw [htask]
  dsimp only
  rw [Function.update_self, rank_eq]
  exact ⟨hslots.settle preferred_strict, fun k hne => Function.update_of_ne hne _ _⟩

theorem Ranked.acceptCheckpoint (h : Ranked s seen) (caller : Caller) (workId leaseToken : String)
    (payload : Json) (quality : List Int) (nowMs : Nat) :
    Ranked (s.acceptCheckpoint env caller workId leaseToken payload quality nowMs).1
      (AgentOp.note env s seen
        (.acceptCheckpoint caller workId leaseToken payload quality nowMs)) := by
  unfold AgentHelperState.acceptCheckpoint AgentOp.note
  dsimp only
  refine h.underLease env (fun hnone => by rw [hnone]) fun worker found lease htask hslots => ?_
  rw [htask]
  dsimp only
  rw [Function.update_self, rank_eq]
  refine ⟨?_, fun k hne => Function.update_of_ne hne _ _⟩
  dsimp only
  split
  · rename_i hbeats
    exact hslots.improve preferred_strict hbeats
  · rename_i hnot
    exact hslots.keep (by simpa using hnot)

theorem Ranked.discard (h : Ranked s seen) (caller : Caller) (workId leaseToken : String)
    (nowMs : Nat) :
    Ranked (s.rejectSubmissionAndDiscardCheckpoints env caller workId leaseToken nowMs).1
      (AgentOp.note env s seen
        (.rejectSubmissionAndDiscardCheckpoints caller workId leaseToken nowMs)) := by
  unfold AgentHelperState.rejectSubmissionAndDiscardCheckpoints AgentOp.note
  dsimp only
  refine h.underLease env (fun hnone => by rw [hnone]) fun worker found lease htask _ => ?_
  rw [htask]
  dsimp only
  rw [Function.update_self]
  exact ⟨.single _ preferred_strict, fun k hne => Function.update_of_ne hne _ _⟩

theorem Ranked.registerJob (h : Ranked s seen) (r : JobRequest) (nowMs : Nat) :
    Ranked (s.registerJobWithExecutionPolicy env r nowMs).1
      (AgentOp.note env s seen (.registerJob r nowMs)) := by
  have hpruned := h.keeps (s.pruneState_retains nowMs).candidates
  unfold registerJobWithExecutionPolicy AgentOp.note JobRequest.opens
  dsimp only
  by_cases hblank : Text.trim r.jobId = "" ∨ r.requestBody = []
  · rw [if_pos hblank, if_neg (by simp; tauto)]
    exact h
  · rw [if_neg hblank]
    cases hjob : (s.pruneState nowMs).jobs.lookup (Text.trim r.jobId) with
    | some existing =>
      rw [if_neg (by simp)]
      dsimp only
      split
      · exact hpruned.keeps (releaseCapacity_retains _ _).candidates
      · exact hpruned
    | none =>
      rw [if_pos (by simpa [not_or] using hblank)]
      refine Ranked.keeps ?_ (releaseCapacity_retains _ _).candidates
      intro k job hk
      dsimp only at hk
      rcases eq_or_ne k (Text.trim r.jobId) with rfl | hne
      · rw [AList.lookup_insert, Option.some.injEq] at hk
        subst hk
        rw [Function.update_self]
        exact Slots.empty
      · rw [AList.lookup_insert_ne hne] at hk
        rw [Function.update_of_ne hne]
        exact hpruned k job hk

/-- The handoff calls do not look at the jobs' candidates. -/
theorem trustedCall_candidates (s : AgentHelperState) (caller : Caller) (leaseRequestId : String)
    (nowMs : Nat) {act : AgentHelperState → String → AgentWorker → String →
      AgentHelperState × Except AgentHelperError Bool}
    (hact : ∀ t h worker marker, (act t h worker marker).1.jobs = t.jobs) :
    KeepsCandidates s (s.trustedCall env caller leaseRequestId nowMs act).1 := by
  have hprune := (s.pruneState_retains nowMs).candidates
  unfold trustedCall
  split
  · exact .refl s
  · dsimp only
    split
    · exact hprune
    · split
      · exact hprune
      · exact hprune.trans (.of_jobs (hact _ _ _ _))

theorem beginTrustedHandoff_candidates (s : AgentHelperState) (caller : Caller)
    (leaseRequestId : String) (nowMs : Nat) :
    KeepsCandidates s (s.beginTrustedHandoffRequest env caller leaseRequestId nowMs).1 := by
  refine trustedCall_candidates env s caller leaseRequestId nowMs fun t h worker marker => ?_
  split
  · rfl
  · split
    · rfl
    · split
      · rfl
      · rfl

theorem commitTrustedHandoff_candidates (s : AgentHelperState) (caller : Caller)
    (leaseRequestId jobId : String) (nowMs : Nat) :
    KeepsCandidates s (s.commitTrustedHandoffRequest env caller leaseRequestId jobId nowMs).1 := by
  unfold commitTrustedHandoffRequest
  split
  · exact .refl s
  · dsimp only
    split
    · exact .refl s
    · refine trustedCall_candidates env s caller leaseRequestId nowMs fun t h worker marker => ?_
      split
      · rfl
      · split
        · rfl
        · rw [clearOrphaned_jobs]
          exact (AgentOp.takeRelease_tables t _).1

/-- The two candidates stay the best of what was handed in. -/
theorem Ranked.step (h : Ranked s seen) (op : AgentOp) :
    Ranked (op.apply env s) (op.note env s seen) := by
  cases op with
  | registerWorker r secret nowMs =>
    exact h.keeps (AgentOp.registerWorker_retains env s r secret nowMs).candidates
  | revokeWorkerIdentity owner binding workerId nowMs =>
    exact h.keeps (AgentOp.revokeWorkerIdentity_retains s owner binding workerId nowMs).candidates
  | revokeWorkerToken caller nowMs =>
    exact h.keeps (AgentOp.revokeWorkerToken_retains env s caller nowMs).candidates
  | heartbeat caller leases telemetry nowMs =>
    exact h.keeps (s.heartbeat_retains env caller leases telemetry nowMs).candidates
  | claimWork caller requestId secret nowMs =>
    exact h.keeps (AgentOp.claimWork_retains env s caller requestId secret nowMs).candidates
  | workIdForLease caller leaseToken nowMs =>
    rw [AgentOp.apply, AgentOp.workIdForLease_state]
    exact h.keeps (s.pruneState_retains nowMs).candidates
  | beginSubmission => exact h.underLease_same env fun _ _ => ⟨rfl, rfl⟩
  | acceptSubmission caller workId leaseToken payload quality nowMs =>
    exact h.acceptSubmission env caller workId leaseToken payload quality nowMs
  | acceptCheckpoint caller workId leaseToken payload quality nowMs =>
    exact h.acceptCheckpoint env caller workId leaseToken payload quality nowMs
  | acceptResumeCheckpoint => exact h.underLease_same env fun _ _ => ⟨rfl, rfl⟩
  | acceptStructuredOutcome => exact h.underLease_same env fun _ _ => ⟨rfl, rfl⟩
  | rejectSubmission => exact h.underLease_same env fun _ _ => ⟨rfl, rfl⟩
  | rejectSubmissionAndDiscardCheckpoints caller workId leaseToken nowMs =>
    exact h.discard env caller workId leaseToken nowMs
  | registerJob r nowMs => exact h.registerJob env r nowMs
  | finishJob jobId owner => exact h.keeps (AgentOp.finishJob_retains s jobId owner).candidates
  | takeCandidateAndFinishJob jobId owner =>
    exact h.keeps (AgentOp.takeCandidateAndFinishJob_retains s jobId owner).candidates
  | takeForBestEffortStop jobId owner =>
    exact h.keeps (AgentOp.takeForBestEffortStop_retains s jobId owner).candidates
  | takeOverForVps jobId owner nowMs =>
    exact h.keeps (AgentOp.takeOver_retains s jobId owner nowMs).candidates
  | beginTrustedHandoff caller requestId nowMs =>
    exact h.keeps (beginTrustedHandoff_candidates env s caller requestId nowMs)
  | commitTrustedHandoff caller requestId jobId nowMs =>
    exact h.keeps (commitTrustedHandoff_candidates env s caller requestId jobId nowMs)
  | releaseTrustedHandoff caller requestId nowMs =>
    exact h.keeps (AgentOp.releaseTrustedHandoff_retains env s caller requestId nowMs).candidates
  | observe nowMs => exact h.keeps (s.pruneState_retains nowMs).candidates

end Step

/-! ### Runs and views -/

theorem Board.ranked (ops : List AgentOp) :
    Ranked (Board.run env ops).state (Board.run env ops).seen := by
  unfold Board.run
  induction ops using List.reverseRecOn with
  | nil =>
    intro jobId job hjob
    exact absurd ((AList.lookup_empty jobId).symm.trans hjob) (by simp)
  | append_singleton ops op ih =>
    rw [List.foldl_append]
    exact ih.step env op

/-- What a call under a lease reports as accepted is noted, for the job of its task. -/
theorem underTask_of_ok {α : Type} {refusal : AgentTaskState → AgentHelperError}
    {use : AgentWorker → Found → JobCandidates × α} {next : TaskLease → AgentTaskState}
    {s : AgentHelperState} {caller : Caller} {workId leaseToken : String} {nowMs : Nat} {a : α}
    (h : (s.underLease env refusal use next caller workId leaseToken nowMs).2 = .ok a) :
    ∃ worker found lease,
      s.underTask env caller workId leaseToken nowMs = some (worker, found, lease) := by
  cases htask : s.underTask env caller workId leaseToken nowMs with
  | none =>
    obtain ⟨e, he⟩ := underLease_none env refusal use next htask
    rw [he] at h
    exact absurd h (by simp)
  | some triple => exact ⟨triple.1, triple.2.1, triple.2.2, rfl⟩

/-- The publishable candidate of a stop. -/
def AgentHelperState.AgentStopTakeover.terminal? : AgentStopTakeover → Option AgentCandidate
  | .terminal candidate => some candidate
  | _ => none

/-- Every terminal view of a job shows a minimal candidate of what was handed in, if anything
was. -/
structure TerminalViews (s : AgentHelperState) (jobId : String) (owner : SolverOwner)
    (seen : List AgentCandidate) : Prop where
  best : Best agentCandidateStrictlyPreferred (s.bestCandidate jobId owner) seen
  taken : Best agentCandidateStrictlyPreferred (s.takeCandidateAndFinishJob jobId owner).2 seen
  stopped : Best agentCandidateStrictlyPreferred (s.takeForBestEffortStop jobId owner).2.terminal?
    seen
  completed : ∀ nowMs candidate,
    (s.jobExecution jobId owner nowMs).2 = some (.completed candidate) →
    Best agentCandidateStrictlyPreferred candidate seen

section Views
variable {s : AgentHelperState} {seen : HandedIn} {jobId : String} {owner : SolverOwner}
  {job : AgentJob} {nowMs : Nat}

theorem ownedJob_lookup (h : s.ownedJob jobId owner = some job) :
    s.jobs.lookup jobId = some job ∧ job.owner = owner := by
  obtain ⟨hlookup, howner⟩ := Option.filter_eq_some_iff.mp h
  exact ⟨hlookup, of_decide_eq_true howner⟩

/-- What pruning leaves of an owned job has the candidates it had. -/
theorem pruneState_ownedJob {job' : AgentJob}
    (h : (s.pruneState nowMs).ownedJob jobId owner = some job') :
    ∃ job, s.ownedJob jobId owner = some job ∧ job'.toJobCandidates = job.toJobCandidates := by
  obtain ⟨hlookup, howner⟩ := ownedJob_lookup h
  obtain ⟨job, hjob, hsettles⟩ := (s.pruneState_settles nowMs).jobs hlookup
  obtain ⟨other, hother, hsame⟩ := (s.pruneState_retains nowMs).candidates jobId job' hlookup
  obtain rfl := Option.some.inj (hjob.symm.trans hother)
  have howner' : job.owner = owner := by
    rw [← howner]
    exact (congrArg JobHeader.owner hsettles.header).symm
  exact ⟨job, Option.filter_eq_some_iff.mpr ⟨hjob, decide_eq_true howner'⟩, hsame⟩

/-- A job whose time is not over is not pruned. -/
theorem pruneState_keepsJob (h : s.ownedJob jobId owner = some job)
    (hage : nowMs - job.createdAtMs ≤ agentJobTtlMs) :
    ∃ job', (s.pruneState nowMs).ownedJob jobId owner = some job' ∧
      job'.toJobCandidates = job.toJobCandidates := by
  obtain ⟨hlookup, howner⟩ := ownedJob_lookup h
  have hkept : ∃ job', (s.pruneState nowMs).jobs.lookup jobId = some job' ∧
      job'.toJobHeader = job.toJobHeader ∧ job'.toJobCandidates = job.toJobCandidates := by
    simp only [pruneState, mapTasks, clearOrphaned_jobs, lookup_retain_eq_some, lookup_mapValues]
    rw [hlookup]
    exact ⟨_, ⟨rfl, decide_eq_true hage⟩, rfl, rfl⟩
  obtain ⟨job', hjob', hheader, hcandidates⟩ := hkept
  have howner' : job'.owner = owner := (congrArg JobHeader.owner hheader).trans howner
  exact ⟨job', Option.filter_eq_some_iff.mpr ⟨hjob', decide_eq_true howner'⟩, hcandidates⟩

/-- What the status call shows of a job with a candidate in the first slot. -/
theorem jobExecution_best {candidate : AgentCandidate}
    (h : (s.pruneState nowMs).ownedJob jobId owner = some job)
    (hbest : job.bestCandidate = some candidate) :
    (s.jobExecution jobId owner nowMs).2 = some (.completed (some candidate)) := by
  unfold jobExecution
  dsimp only
  rw [h]
  dsimp only
  rw [hbest]

/-- A job without one is shown as completed only when it has no checkpoint either. -/
theorem jobExecution_none {candidate : Option AgentCandidate}
    (h : (s.pruneState nowMs).ownedJob jobId owner = some job) (hbest : job.bestCandidate = none)
    (hshown : (s.jobExecution jobId owner nowMs).2 = some (.completed candidate)) :
    candidate = none ∧ job.checkpointCandidate = none := by
  unfold jobExecution at hshown
  dsimp only at hshown
  rw [h] at hshown
  dsimp only at hshown
  rw [hbest] at hshown
  dsimp only at hshown
  cases hlease : leaseEnd job.tasks with
  | some expiresAtMs =>
    rw [hlease] at hshown
    exact absurd hshown (by simp)
  | none =>
    rw [hlease] at hshown
    dsimp only at hshown
    cases hcheckpoint : job.checkpointCandidate with
    | some checkpoint =>
      rw [hcheckpoint] at hshown
      exact absurd hshown (by simp)
    | none =>
      rw [hcheckpoint] at hshown
      refine ⟨?_, rfl⟩
      cases hresume : job.resumeCheckpointCandidate with
      | some resume =>
        rw [hresume] at hshown
        exact absurd hshown (by simp)
      | none =>
        rw [hresume] at hshown
        split at hshown
        · rename_i hnone
          exact absurd hnone (by simp)
        · split at hshown
          · exact (AgentJobExecution.completed.inj (Option.some.inj hshown)).symm
          · exact absurd hshown (by simp)

variable (h : Ranked s seen) (hjob : s.ownedJob jobId owner = some job)
include h hjob

theorem views_of_empty_slot (hslot : job.bestCandidate = none ∨ job.checkpointCandidate = none) :
    TerminalViews s jobId owner (seen jobId) := by
  have hslots := h jobId job (ownedJob_lookup hjob).1
  have hbest := hslots.best
  rw [← betterAgentCandidate_eq] at hbest
  refine ⟨?_, ?_, ?_, ?_⟩
  · unfold AgentHelperState.bestCandidate
    rw [hjob]
    exact hbest
  · unfold takeCandidateAndFinishJob
    rw [hjob]
    exact hbest
  · unfold takeForBestEffortStop
    rw [hjob]
    dsimp only
    cases hc : betterAgentCandidate job.bestCandidate job.checkpointCandidate with
    | some candidate =>
      rw [hc] at hbest
      exact hbest
    | none =>
      rw [hc] at hbest
      cases job.resumeCheckpointCandidate with
      | none => exact hbest
      | some resume => exact hbest
  · intro nowMs candidate hshown
    cases hpruned : (s.pruneState nowMs).ownedJob jobId owner with
    | none => simp [jobExecution, hpruned] at hshown
    | some job' =>
      obtain ⟨before, hbefore, hsame⟩ := pruneState_ownedJob hpruned
      obtain rfl := Option.some.inj (hjob.symm.trans hbefore)
      have hfirst := congrArg JobCandidates.bestCandidate hsame
      have hsecond := congrArg JobCandidates.checkpointCandidate hsame
      cases hc : job.bestCandidate with
      | none =>
        obtain ⟨rfl, hnone⟩ := jobExecution_none hpruned (hfirst.trans hc) hshown
        have hempty : job.checkpointCandidate = none := hsecond.symm.trans hnone
        rw [hc, hempty] at hbest
        exact hbest
      | some first =>
        have hempty : job.checkpointCandidate = none :=
          hslot.resolve_left (by rw [hc]; simp)
        rw [jobExecution_best hpruned (hfirst.trans hc)] at hshown
        cases hshown
        rw [hc, hempty] at hbest
        exact hbest

theorem not_views_of_both_slots {first second : AgentCandidate}
    (hfirst : job.bestCandidate = some first) (hsecond : job.checkpointCandidate = some second) :
    ¬ TerminalViews s jobId owner (seen jobId) := by
  intro hviews
  have hslots := h jobId job (ownedJob_lookup hjob).1
  obtain ⟨job', hjob', hsame⟩ := pruneState_keepsJob hjob
    ((Nat.sub_self job.createdAtMs).trans_le (Nat.zero_le _))
  have hbest : job'.bestCandidate = some first :=
    (congrArg JobCandidates.bestCandidate hsame).trans hfirst
  have hshown := hviews.completed job.createdAtMs (some first) (jobExecution_best hjob' hbest)
  rw [hfirst, hsecond] at hslots
  exact hslots.first_not_minimal hshown

end Views

/-- Along every run, the terminal views of a job show a minimal one of the candidates handed in
exactly while no checkpoint stands beside an accepted submission. -/
theorem best_candidate_wins (ops : List AgentOp) {jobId : String} {owner : SolverOwner}
    {job : AgentJob} (hjob : (Board.run env ops).state.ownedJob jobId owner = some job) :
    TerminalViews (Board.run env ops).state jobId owner ((Board.run env ops).seen jobId) ↔
      (job.bestCandidate = none ∨ job.checkpointCandidate = none) := by
  have hranked := Board.ranked env ops
  constructor
  · intro hviews
    by_contra hboth
    obtain ⟨hfirst, hsecond⟩ := not_or.mp hboth
    obtain ⟨first, hfirst⟩ := Option.ne_none_iff_exists'.mp hfirst
    obtain ⟨second, hsecond⟩ := Option.ne_none_iff_exists'.mp hsecond
    exact not_views_of_both_slots hranked hjob hfirst hsecond hviews
  · exact views_of_empty_slot hranked hjob

namespace Demo

def submission : AgentOp :=
  .acceptSubmission caller "job:seed:01" "lease-1" (.obj []) [0, 0, 0, 10] 10

def checkpoint : AgentOp :=
  .acceptCheckpoint caller "job:seed:02" "lease-2" (.obj []) [0, 0, 0, 5] 20

/-- Two seeds are leased, the first ends, and the second goes on to a better timetable. -/
def twoSeeds : List AgentOp :=
  [register, openJob, claim, .claimWork caller "request-2" "lease-2" 5, submission, checkpoint]

def qualities (s : AgentHelperState) : Option (Option (List Int) × Option (List Int)) :=
  (s.ownedJob "job" owner).map fun job =>
    (job.bestCandidate.map (·.quality), job.checkpointCandidate.map (·.quality))

/-- The job that some calls leave with the two slots filled so. -/
theorem job_of_qualities {s : AgentHelperState} {first second : Option (List Int)}
    (h : qualities s = some (first, second)) : ∃ job, s.ownedJob "job" owner = some job ∧
      job.bestCandidate.map (·.quality) = first ∧
      job.checkpointCandidate.map (·.quality) = second := by
  obtain ⟨job, hjob, hslots⟩ := Option.map_eq_some_iff.mp h
  obtain ⟨hfirst, hsecond⟩ := Prod.mk.inj hslots
  exact ⟨job, hjob, hfirst, hsecond⟩

end Demo

set_option maxRecDepth 8000 in
theorem best_candidate_wins_submission :
    TerminalViews (Board.run Demo.plain (Demo.twoSeeds.take 5)).state "job" Demo.owner
      ((Board.run Demo.plain (Demo.twoSeeds.take 5)).seen "job") := by
  have hslots : Demo.qualities (Board.run Demo.plain (Demo.twoSeeds.take 5)).state =
      some (some [0, 0, 0, 10], none) := by decide
  obtain ⟨job, hjob, _, hsecond⟩ := Demo.job_of_qualities hslots
  exact (best_candidate_wins Demo.plain (Demo.twoSeeds.take 5) hjob).mpr
    (Or.inr (Option.map_eq_none_iff.mp hsecond))

set_option maxRecDepth 8000 in
/-- The status call shows the submission as the result and misses the better checkpoint. -/
theorem overlooked_checkpoint :
    Demo.qualities (Board.run Demo.plain Demo.twoSeeds).state =
      some (some [0, 0, 0, 10], some [0, 0, 0, 5]) ∧
    ¬ TerminalViews (Board.run Demo.plain Demo.twoSeeds).state "job" Demo.owner
      ((Board.run Demo.plain Demo.twoSeeds).seen "job") := by
  have hslots : Demo.qualities (Board.run Demo.plain Demo.twoSeeds).state =
      some (some [0, 0, 0, 10], some [0, 0, 0, 5]) := by decide
  refine ⟨hslots, ?_⟩
  obtain ⟨job, hjob, hfirst, hsecond⟩ := Demo.job_of_qualities hslots
  obtain ⟨first, hfirst, _⟩ := Option.map_eq_some_iff.mp hfirst
  obtain ⟨second, hsecond, _⟩ := Option.map_eq_some_iff.mp hsecond
  exact not_views_of_both_slots (Board.ranked Demo.plain Demo.twoSeeds) hjob hfirst hsecond

end TkbCherry.Agent
