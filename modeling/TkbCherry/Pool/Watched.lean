import TkbCherry.Pool.Calls

/-!
# A watched pool

Every fence a call hands out is noted with the claim it was handed out under, and marked when
a handoff, a fallback or a cancellation takes the job away from its holder; every response
that is committed is noted too. The pool itself keeps neither list.
-/

namespace TkbCherry.Pool

set_option autoImplicit false

open Table ServerOwnedSolverJob

/-- A fence that was handed out. -/
structure Issue where
  jobId : String
  claim : Nat
  fence : ServerExecutionFence
  displaced : Bool
deriving DecidableEq, Repr

/-- The pool, the fences handed out so far, and the claims that got their response. -/
structure Watched where
  pool : PoolState
  issues : List Issue
  commits : List (String × Nat)

namespace Watched

def empty : Watched := ⟨.empty, [], []⟩

/-- The claim the record under an id was created by. -/
def claimOf (s : PoolState) (jobId : String) : Option Nat :=
  (s.serverJobs.lookup jobId).map ServerOwnedSolverJob.claim

/-- A fence of the current claim loses its job when the id is listed. -/
def mark (s : PoolState) (displaced : List String) (issue : Issue) : Issue :=
  if issue.jobId ∈ displaced ∧ claimOf s issue.jobId = some issue.claim
  then { issue with displaced := true } else issue

def issued (s : PoolState) (jobId : Option String) (fence : Option ServerExecutionFence) :
    List Issue :=
  match jobId, fence with
  | some jobId, some fence => ((claimOf s jobId).map fun claim => ⟨jobId, claim, fence, false⟩).toList
  | _, _ => []

def committed (s : PoolState) (jobId : Option String) (outcome : Outcome) :
    List (String × Nat) :=
  match jobId with
  | some jobId =>
    if outcome.committed then ((claimOf s jobId).map fun claim => (jobId, claim)).toList else []
  | none => []

/-- One call on the pool, and what an observer notes of it. -/
def step (config : Config) (w : Watched) (op : Op) : Watched :=
  let r := Pool.step config w.pool op
  { pool := r.1
    issues := issued r.1 op.jobId r.2.fence ++ w.issues.map (mark w.pool r.2.displaced)
    commits := committed w.pool op.jobId r.2 ++ w.commits }

def Steps (config : Config) : Watched → Op → Watched → Prop := Transition.ofFn (step config)

end Watched

/-! ### What the calls hand out and commit -/

/-- A fence that a record holds right now. -/
def Holds (s : PoolState) (jobId : String) (fence : ServerExecutionFence) : Prop :=
  ∃ job, s.serverJobs.lookup jobId = some job ∧ job.executionGeneration = fence.generation ∧
    job.executionPhase.executor = some fence.executor

section Issued
variable {s : PoolState} {jobId : String} {owner : SolverOwner} {fence fence' : ServerExecutionFence}
  {nowMs : Nat}

theorem updateJob_holds {job : ServerOwnedSolverJob}
    {f : ServerOwnedSolverJob → ServerOwnedSolverJob} (hl : s.serverJobs.lookup jobId = some job)
    (hg : (f job).executionGeneration = fence.generation)
    (he : (f job).executionPhase.executor = some fence.executor) :
    Holds (s.updateJob jobId f) jobId fence :=
  ⟨f job, (lookup_modify_self jobId f s.serverJobs).trans (by rw [hl]; rfl), hg, he⟩

theorem startServerWatchdog_generation (job : ServerOwnedSolverJob) :
    (startServerWatchdog job nowMs).executionGeneration = job.executionGeneration := by
  unfold startServerWatchdog
  split <;> rfl

theorem startServerWatchdog_phase (job : ServerOwnedSolverJob) :
    (startServerWatchdog job nowMs).executionPhase = job.executionPhase := by
  unfold startServerWatchdog
  split <;> rfl

/-- Preparing an executor: whatever phase the job is in, the fence is the new state of it. -/
theorem startServerWatchdog_holds {job : ServerOwnedSolverJob}
    {f : ServerOwnedSolverJob → ServerOwnedSolverJob} (hl : s.serverJobs.lookup jobId = some job)
    (hg : (f job).executionGeneration = fence.generation)
    (he : (f job).executionPhase.executor = some fence.executor) :
    Holds (s.updateJob jobId fun job => startServerWatchdog (f job) nowMs) jobId fence := by
  refine updateJob_holds hl ?_ ?_
  · rw [startServerWatchdog_generation, hg]
  · rw [startServerWatchdog_phase, he]

theorem prepareAgentExecution_holds
    (h : (prepareAgentExecution s jobId owner nowMs).2 = some fence) :
    Holds (prepareAgentExecution s jobId owner nowMs).1 jobId fence := by
  unfold prepareAgentExecution at h ⊢
  split at h
  · simp at h
  · rename_i job hjob
    have hl := (ownedJob_eq_some (Option.filter_eq_some_iff.mp hjob).1).1
    cases hphase : job.executionPhase with
    | pending | handoffToAgent | agentWaiting =>
      simp only [hphase] at h ⊢
      obtain rfl := Option.some.inj h
      exact startServerWatchdog_holds hl rfl (by simp [hphase, ServerExecutionPhase.executor])
    | _ => simp [hphase] at h

theorem prepareServerlessExecution_holds
    (h : (prepareServerlessExecution s jobId owner nowMs).2 = some fence) :
    Holds (prepareServerlessExecution s jobId owner nowMs).1 jobId fence := by
  unfold prepareServerlessExecution at h ⊢
  split at h
  · simp at h
  · rename_i job hjob
    have hl := (serverEligible_eq_some hjob).1
    cases hphase : job.executionPhase with
    | pending | serverlessQueued =>
      simp only [hphase] at h ⊢
      obtain rfl := Option.some.inj h
      exact startServerWatchdog_holds hl rfl (by simp [hphase, ServerExecutionPhase.executor])
    | _ => simp [hphase] at h

theorem prepareVpsExecution_holds
    (h : (prepareVpsExecution s jobId owner nowMs).2 = some fence) :
    Holds (prepareVpsExecution s jobId owner nowMs).1 jobId fence := by
  unfold prepareVpsExecution at h ⊢
  split at h
  · simp at h
  · rename_i job hjob
    have hl := (serverEligible_eq_some hjob).1
    cases hphase : job.executionPhase with
    | pending | vpsQueued =>
      simp only [hphase] at h ⊢
      obtain rfl := Option.some.inj h
      exact startServerWatchdog_holds hl rfl (by simp [hphase, ServerExecutionPhase.executor])
    | _ => simp [hphase] at h

theorem fallbackServerlessToVps_holds
    (h : (fallbackServerlessToVps s fence' jobId owner).2 = some fence) :
    Holds (fallbackServerlessToVps s fence' jobId owner).1 jobId fence := by
  unfold fallbackServerlessToVps at h ⊢
  split at h
  · simp at h
  · rename_i job hjob
    split at h
    · simp at h
    · rename_i hguard
      simp only [if_neg hguard]
      obtain rfl := Option.some.inj h
      exact updateJob_holds (serverEligible_eq_some hjob).1 rfl rfl

theorem fallbackAgentToVps_holds
    (h : (fallbackAgentToVps s fence' jobId owner nowMs).2 = some fence) :
    Holds (fallbackAgentToVps s fence' jobId owner nowMs).1 jobId fence := by
  unfold fallbackAgentToVps at h ⊢
  split at h
  · simp at h
  · rename_i job hjob
    split at h
    · simp at h
    · rename_i hguard
      simp only [if_neg hguard]
      obtain rfl := Option.some.inj h
      exact updateJob_holds (serverEligible_eq_some hjob).1 rfl rfl

theorem snapshotFence_holds (h : snapshotFence s jobId owner = some fence) :
    Holds s jobId fence := by
  obtain ⟨job, hown, hf⟩ := Option.bind_eq_some_iff.mp h
  obtain ⟨executor, he, rfl⟩ := Option.map_eq_some_iff.mp hf
  exact ⟨job, (ownedJob_eq_some hown).1, rfl, he⟩

/-- Every fence a call hands out is held by the record the call leaves. -/
theorem step_issues_held {config : Config} {op : Op}
    (h : (step config s op).2.fence = some fence) :
    ∃ jobId, op.jobId = some jobId ∧ Holds (step config s op).1 jobId fence := by
  cases op with
  | prepareAgent jobId owner nowMs => exact ⟨jobId, rfl, prepareAgentExecution_holds h⟩
  | prepareServerless jobId owner nowMs => exact ⟨jobId, rfl, prepareServerlessExecution_holds h⟩
  | prepareVps jobId owner nowMs => exact ⟨jobId, rfl, prepareVpsExecution_holds h⟩
  | fallbackServerless fence' jobId owner => exact ⟨jobId, rfl, fallbackServerlessToVps_holds h⟩
  | fallbackAgent fence' jobId owner nowMs => exact ⟨jobId, rfl, fallbackAgentToVps_holds h⟩
  | snapshot jobId owner => exact ⟨jobId, rfl, snapshotFence_holds h⟩
  | _ => simp [step] at h

end Issued

theorem completeServerJobFenced_accepts {s : PoolState} {fence : ServerExecutionFence}
    {jobId : String} {owner : SolverOwner} {response : List UInt8} {nowMs : Nat}
    (h : (completeServerJobFenced s fence jobId owner response nowMs).2 = true) :
    ∃ job, s.serverJobs.lookup jobId = some job ∧ job.owner = owner ∧ job.completedMs = none ∧
      job.executionGeneration = fence.generation ∧
      job.executionPhase.executor = some fence.executor ∧
      (completeServerJobFenced s fence jobId owner response nowMs).1 =
        commitResponse s jobId response nowMs := by
  unfold completeServerJobFenced at h ⊢
  split at h
  · simp at h
  · rename_i job hown
    obtain ⟨hl, ho⟩ := ownedJob_eq_some hown
    split at h
    · simp at h
    · rename_i hguard
      rw [if_neg hguard]
      simp only [not_or, Bool.not_eq_true, Option.isSome_eq_false_iff, Option.isNone_iff_eq_none,
        ne_eq, not_not] at hguard
      exact ⟨job, hl, ho, hguard.2.1, hguard.2.2.1, hguard.2.2.2, rfl⟩

theorem completeServerJob_accepts {s : PoolState} {jobId : String} {owner : SolverOwner}
    {response : List UInt8} {nowMs : Nat}
    (h : (completeServerJob s jobId owner response nowMs).2 = true) :
    ∃ job, s.serverJobs.lookup jobId = some job ∧ job.executionPhase = .pending ∧
      (completeServerJob s jobId owner response nowMs).1 =
        commitResponse s jobId response nowMs := by
  unfold completeServerJob at h ⊢
  split at h
  · simp at h
  · rename_i job hown
    split at h
    · simp at h
    · rename_i hcancel
      split at h
      · simp at h
      · rename_i hpending
        rw [if_neg hcancel, if_neg hpending]
        exact ⟨job, (ownedJob_eq_some hown).1, not_not.mp hpending, rfl⟩

theorem commitResponse_completed {s : PoolState} {jobId : String} {response : List UInt8}
    {nowMs : Nat} {job : ServerOwnedSolverJob}
    (h : (commitResponse s jobId response nowMs).serverJobs.lookup jobId = some job) :
    job.completedMs.isSome = true := by
  have hl := lookup_of_pruneCompleted _ h
  have hmap := lookup_modify_self jobId (completeJob response nowMs) s.serverJobs
  obtain ⟨old, _, rfl⟩ := Option.map_eq_some_iff.mp (hmap.symm.trans hl)
  rfl

/-- A commit finds an unanswered record and leaves an answered one, if it leaves one. -/
theorem step_commits {config : Config} {s : PoolState} {op : Op}
    (hw : ∀ id job, s.serverJobs.lookup id = some job → job.WellFormed)
    (h : (step config s op).2.committed = true) :
    ∃ jobId job, op.jobId = some jobId ∧ s.serverJobs.lookup jobId = some job ∧
      job.completedMs = none ∧ ∀ job', (step config s op).1.serverJobs.lookup jobId = some job' →
        job'.completedMs.isSome = true := by
  cases op with
  | completeFenced fence jobId owner response nowMs =>
    obtain ⟨job, hl, _, hnone, _, _, heq⟩ := completeServerJobFenced_accepts h
    refine ⟨jobId, job, rfl, hl, hnone, fun job' hl' => ?_⟩
    simp only [step, heq] at hl'
    exact commitResponse_completed hl'
  | complete jobId owner response nowMs =>
    obtain ⟨job, hl, hpending, heq⟩ := completeServerJob_accepts h
    have hnone : job.completedMs = none := by
      by_contra hsome
      have hphase := (hw jobId job hl).phase (Option.isSome_iff_ne_none.mpr hsome)
      rw [hpending] at hphase
      cases hphase
    refine ⟨jobId, job, rfl, hl, hnone, fun job' hl' => ?_⟩
    simp only [step, heq] at hl'
    exact commitResponse_completed hl'
  | _ => simp [step] at h

/-! ### What every call does to the records -/

/-- A record after a call is a later state of the one before, or it is of a new claim. -/
structure Passes (assigned displaced : List String) (s s' : PoolState) : Prop where
  records : ∀ jobId job', s'.serverJobs.lookup jobId = some job' →
    (∃ job, s.serverJobs.lookup jobId = some job ∧ (job.WellFormed →
      Follows job job' ∧ (jobId ∉ assigned → Stays job job') ∧
        (jobId ∈ displaced → Displaced job job'))) ∨
    (s.nextClaim ≤ job'.claim ∧ job'.claim < s'.nextClaim ∧ job'.WellFormed ∧
      job'.executionGeneration = 0)
  claims : s.nextClaim ≤ s'.nextClaim

theorem Serves.passes {assigned displaced : List String} {s s' : PoolState}
    (h : Serves assigned displaced s s') : Passes assigned displaced s s' :=
  ⟨fun jobId job' hl => .inl (h.server jobId job' hl), Nat.le_of_eq h.claims.symm⟩

theorem Passes.of_eq {s s' : PoolState} (hj : s'.serverJobs = s.serverJobs)
    (hn : s'.nextClaim = s.nextClaim) : Passes [] [] s s' := by
  refine ⟨fun jobId job' hl => .inl ⟨job', hj ▸ hl, fun hw => ⟨.refl hw, fun _ hz => .inl hz, ?_⟩⟩,
    Nat.le_of_eq hn.symm⟩
  exact fun hin => absurd hin List.not_mem_nil

/-- A granted claim is of a new number; any other answer only prunes. -/
theorem claimServerJob_passes (s : PoolState) (jobId : String) (owner : SolverOwner)
    (request : ClaimRequest) (nowMs : Nat) :
    Passes [] [] s (claimServerJob s jobId owner request nowMs).1 := by
  have hprune := (pruneCompleted_serves s nowMs).passes
  unfold claimServerJob
  simp only
  split
  · exact hprune
  · split
    · exact hprune
    · exact hprune
    · split
      · exact hprune
      · split
        · exact hprune
        · refine ⟨fun id job' hl => ?_, Nat.le_succ _⟩
          by_cases hid : id = jobId
          · subst hid
            rw [AList.lookup_insert] at hl
            obtain rfl := Option.some.inj hl
            refine .inr ⟨Nat.le_refl _, Nat.lt_succ_self _, ⟨Nat.zero_le _, rfl, fun h => ?_,
              fun _ => .inl rfl⟩, rfl⟩
            simp [newServerJob] at h
          · rw [AList.lookup_insert_ne hid] at hl
            exact .inl ((pruneCompleted_serves s nowMs).server id job' hl)

theorem admitFront_frame (config : Config) (s : PoolState) (jobId : String) (nowMs : Nat) :
    (config.admitFront s jobId nowMs).1.serverJobs = s.serverJobs ∧
      (config.admitFront s jobId nowMs).1.nextClaim = s.nextClaim := by
  unfold Config.admitFront
  split
  · split
    · exact ⟨rfl, rfl⟩
    · split <;> exact ⟨rfl, rfl⟩
  · exact ⟨rfl, rfl⟩

theorem tryAcquire_passes (config : Config) (s : PoolState) (jobId : String)
    (desiredWorkers : Nat) (owner : SolverOwner) (nowMs : Nat) :
    Passes [] [] s (config.tryAcquireForOwner s jobId desiredWorkers owner nowMs).1 := by
  unfold Config.tryAcquireForOwner
  simp only
  split
  · exact .of_eq rfl rfl
  · split
    · exact .of_eq rfl rfl
    · split <;> exact .of_eq rfl rfl

theorem acquireOrEnqueue_passes (config : Config) (s : PoolState) (jobId : String)
    (desiredWorkers : Nat) (owner : SolverOwner) (nowMs : Nat) :
    Passes [] [] s (config.acquireOrEnqueueForOwner s jobId desiredWorkers owner nowMs).1 := by
  unfold Config.acquireOrEnqueueForOwner
  simp only
  split
  · exact .of_eq rfl rfl
  · split
    · exact .of_eq rfl rfl
    · split
      · split
        · exact .of_eq rfl rfl
        · exact .of_eq (admitFront_frame config _ jobId nowMs).1 (admitFront_frame ..).2
      · split
        · exact .of_eq rfl rfl
        · exact .of_eq (admitFront_frame config _ jobId nowMs).1 (admitFront_frame ..).2

theorem step_passes (config : Config) (s : PoolState) (op : Op) :
    Passes (step config s op).2.assigned (step config s op).2.displaced s (step config s op).1 := by
  cases hop : op.adds with
  | false => exact (step_serves config s hop).passes
  | true =>
    cases op with
    | claim jobId owner request nowMs => exact claimServerJob_passes s jobId owner request nowMs
    | tryAcquire jobId desiredWorkers owner nowMs =>
      exact tryAcquire_passes config s jobId desiredWorkers owner nowMs
    | acquireOrEnqueue jobId desiredWorkers owner nowMs =>
      exact acquireOrEnqueue_passes config s jobId desiredWorkers owner nowMs
    | _ => simp [Op.adds] at hop

/-! ### Runs -/

namespace Watched

@[simp] theorem mark_jobId (s : PoolState) (displaced : List String) (issue : Issue) :
    (mark s displaced issue).jobId = issue.jobId := by
  unfold mark
  split <;> rfl

@[simp] theorem mark_claim (s : PoolState) (displaced : List String) (issue : Issue) :
    (mark s displaced issue).claim = issue.claim := by
  unfold mark
  split <;> rfl

@[simp] theorem mark_fence (s : PoolState) (displaced : List String) (issue : Issue) :
    (mark s displaced issue).fence = issue.fence := by
  unfold mark
  split <;> rfl

theorem of_mark_displaced {s : PoolState} {displaced : List String} {issue : Issue}
    (h : (mark s displaced issue).displaced = true) :
    issue.displaced = true ∨ issue.jobId ∈ displaced := by
  unfold mark at h
  split at h
  · rename_i hin
    exact .inr hin.1
  · exact .inl h

/-- What is noted of a claim agrees with the record of that claim, as long as there is one. -/
structure Inv (w : Watched) : Prop where
  records : ∀ jobId job, w.pool.serverJobs.lookup jobId = some job →
    job.WellFormed ∧ job.claim < w.pool.nextClaim
  claims : ∀ issue ∈ w.issues, issue.claim < w.pool.nextClaim
  issues : ∀ issue ∈ w.issues, ∀ job, w.pool.serverJobs.lookup issue.jobId = some job →
    job.claim = issue.claim → issue.fence.generation ≤ job.executionGeneration ∧
      (issue.displaced = true → job.executionGeneration < u64Max →
        issue.fence.generation < job.executionGeneration)
  answers : ∀ commit ∈ w.commits, commit.2 < w.pool.nextClaim
  commits : ∀ commit ∈ w.commits, ∀ job, w.pool.serverJobs.lookup commit.1 = some job →
    job.claim = commit.2 → job.completedMs.isSome = true
  once : w.commits.Nodup

theorem inv_empty : empty.Inv where
  records := fun _ _ h => by simp [empty, PoolState.empty] at h
  claims := fun _ h => by simp [empty] at h
  issues := fun _ h => by simp [empty] at h
  answers := fun _ h => by simp [empty] at h
  commits := fun _ h => by simp [empty] at h
  once := List.nodup_nil

section Step
variable {config : Config} {w : Watched} {op : Op}

theorem mem_committed {commit : String × Nat}
    (h : commit ∈ committed w.pool op.jobId (Pool.step config w.pool op).2) :
    (Pool.step config w.pool op).2.committed = true ∧ op.jobId = some commit.1 ∧
      claimOf w.pool commit.1 = some commit.2 := by
  unfold committed at h
  split at h
  · rename_i jobId hid
    split at h
    · rename_i hcommitted
      obtain ⟨claim, hclaim, rfl⟩ := Option.map_eq_some_iff.mp (Option.mem_toList.mp h)
      exact ⟨hcommitted, hid, hclaim⟩
    · exact absurd h List.not_mem_nil
  · exact absurd h List.not_mem_nil

theorem mem_issued {issue : Issue}
    (h : issue ∈ issued (Pool.step config w.pool op).1 op.jobId (Pool.step config w.pool op).2.fence) :
    claimOf (Pool.step config w.pool op).1 issue.jobId = some issue.claim ∧
      Holds (Pool.step config w.pool op).1 issue.jobId issue.fence ∧ issue.displaced = false := by
  unfold issued at h
  split at h
  · rename_i jobId fence hid hfence
    obtain ⟨claim, hclaim, rfl⟩ := Option.map_eq_some_iff.mp (Option.mem_toList.mp h)
    obtain ⟨jobId', hid', hholds⟩ := step_issues_held hfence
    obtain rfl := Option.some.inj (hid.symm.trans hid')
    exact ⟨hclaim, hholds, rfl⟩
  · exact absurd h List.not_mem_nil

/-- The record of an old claim after a call is a later state of the record before it. -/
theorem Inv.old_record (hi : w.Inv) {jobId : String} {job' : ServerOwnedSolverJob}
    (hl' : (Pool.step config w.pool op).1.serverJobs.lookup jobId = some job')
    (hclaim : job'.claim < w.pool.nextClaim) :
    ∃ job, w.pool.serverJobs.lookup jobId = some job ∧ Follows job job' ∧
      (jobId ∈ (Pool.step config w.pool op).2.displaced → Displaced job job') := by
  rcases (step_passes config w.pool op).records jobId job' hl' with ⟨job, hl, hf⟩ | ⟨hge, _⟩
  · obtain ⟨hfollows, _, hd⟩ := hf (hi.records jobId job hl).1
    exact ⟨job, hl, hfollows, hd⟩
  · exact absurd hclaim (Nat.not_lt.mpr hge)

theorem Inv.records_step (hi : w.Inv) {jobId : String} {job' : ServerOwnedSolverJob}
    (hl' : (Pool.step config w.pool op).1.serverJobs.lookup jobId = some job') :
    job'.WellFormed ∧ job'.claim < (Pool.step config w.pool op).1.nextClaim := by
  have hpasses := step_passes config w.pool op
  rcases hpasses.records jobId job' hl' with ⟨job, hl, hf⟩ | ⟨_, hlt, hw, _⟩
  · obtain ⟨hw, hclaim⟩ := hi.records jobId job hl
    obtain ⟨hfollows, _⟩ := hf hw
    exact ⟨hfollows.wellFormed, hfollows.claim ▸ Nat.lt_of_lt_of_le hclaim hpasses.claims⟩
  · exact ⟨hw, hlt⟩

theorem claim_of_claimOf {s : PoolState} {jobId : String} {claim : Nat}
    (h : claimOf s jobId = some claim) :
    ∃ job, s.serverJobs.lookup jobId = some job ∧ job.claim = claim := by
  obtain ⟨job, hl, hc⟩ := Option.map_eq_some_iff.mp h
  exact ⟨job, hl, hc⟩

theorem Inv.issues_step (hi : w.Inv) {issue : Issue} (hin : issue ∈ (w.step config op).issues) :
    issue.claim < (Pool.step config w.pool op).1.nextClaim ∧
    ∀ job', (Pool.step config w.pool op).1.serverJobs.lookup issue.jobId = some job' →
      job'.claim = issue.claim → issue.fence.generation ≤ job'.executionGeneration ∧
        (issue.displaced = true → job'.executionGeneration < u64Max →
          issue.fence.generation < job'.executionGeneration) := by
  rcases List.mem_append.mp hin with hnew | hold
  · obtain ⟨hclaim, ⟨held, hheld, hg, _⟩, hdisplaced⟩ := mem_issued hnew
    obtain ⟨job, hl, hjob⟩ := claim_of_claimOf hclaim
    refine ⟨hjob ▸ (hi.records_step hl).2, fun job' hl' _ => ⟨?_, ?_⟩⟩
    · rw [← Option.some.inj (hheld.symm.trans hl')]
      exact Nat.le_of_eq hg.symm
    · intro h
      rw [hdisplaced] at h
      exact absurd h (by simp)
  · obtain ⟨before, hbefore, rfl⟩ := List.mem_map.mp hold
    have hclaim := hi.claims before hbefore
    rw [mark_jobId, mark_claim, mark_fence]
    refine ⟨Nat.lt_of_lt_of_le hclaim (step_passes config w.pool op).claims, ?_⟩
    intro job' hl' hjob'
    obtain ⟨job, hl, hfollows, hd⟩ := hi.old_record hl' (hjob' ▸ hclaim)
    obtain ⟨hle, hlt⟩ := hi.issues before hbefore job hl (hfollows.claim.symm.trans hjob')
    have hmono := hfollows.generation
    refine ⟨hle.trans hmono, fun hmark hmax => ?_⟩
    rcases of_mark_displaced hmark with hbefore | hlisted
    · have := hlt hbefore (Nat.lt_of_le_of_lt hmono hmax)
      omega
    · have := hd hlisted (Nat.lt_of_le_of_lt hmono hmax)
      omega

theorem Inv.commits_step (hi : w.Inv) {commit : String × Nat}
    (hin : commit ∈ (w.step config op).commits) :
    commit.2 < (Pool.step config w.pool op).1.nextClaim ∧
    ∀ job', (Pool.step config w.pool op).1.serverJobs.lookup commit.1 = some job' →
      job'.claim = commit.2 → job'.completedMs.isSome = true := by
  have hmono := (step_passes config w.pool op).claims
  rcases List.mem_append.mp hin with hnew | hold
  · obtain ⟨hcommitted, hid, hclaim⟩ := mem_committed hnew
    obtain ⟨job, hl, hjob⟩ := claim_of_claimOf hclaim
    obtain ⟨jobId, _, hid', _, _, hdone⟩ := step_commits (fun id job h => (hi.records id job h).1) hcommitted
    obtain rfl := Option.some.inj (hid.symm.trans hid')
    exact ⟨Nat.lt_of_lt_of_le (hjob ▸ (hi.records _ job hl).2) hmono, fun job' hl' _ => hdone job' hl'⟩
  · have hclaim := hi.answers commit hold
    refine ⟨Nat.lt_of_lt_of_le hclaim hmono, fun job' hl' hjob' => ?_⟩
    obtain ⟨job, hl, hfollows, _⟩ := hi.old_record hl' (hjob' ▸ hclaim)
    exact hfollows.completed (hi.commits commit hold job hl (hfollows.claim.symm.trans hjob'))

/-- A second response for the same claim would need the record of it to be unanswered. -/
theorem Inv.once_step (hi : w.Inv) : (w.step config op).commits.Nodup := by
  refine List.nodup_append.mpr ⟨?_, hi.once, ?_⟩
  · unfold committed
    split
    · split
      · cases claimOf w.pool _ <;> simp
      · exact List.nodup_nil
    · exact List.nodup_nil
  · intro commit hnew other hold heq
    subst heq
    obtain ⟨hcommitted, hid, hclaim⟩ := mem_committed hnew
    obtain ⟨jobId, job, hid', hl, hnone, _⟩ :=
      step_commits (fun id job h => (hi.records id job h).1) hcommitted
    obtain rfl := Option.some.inj (hid.symm.trans hid')
    obtain ⟨job₁, hl₁, hjob⟩ := claim_of_claimOf hclaim
    obtain rfl := Option.some.inj (hl.symm.trans hl₁)
    have hsome := hi.commits commit hold job hl hjob
    rw [hnone] at hsome
    exact absurd hsome (by simp)

theorem Inv.step (hi : w.Inv) (config : Config) (op : Op) : (w.step config op).Inv where
  records := fun _ _ hl => hi.records_step hl
  claims := fun _ hin => (hi.issues_step hin).1
  issues := fun _ hin => (hi.issues_step hin).2
  answers := fun _ hin => (hi.commits_step hin).1
  commits := fun _ hin => (hi.commits_step hin).2
  once := hi.once_step

end Step

theorem Inv.of_run {config : Config} {w : Watched} {ops : List Op}
    (h : Transition.Run (Steps config) empty ops w) : w.Inv :=
  h.invariant (fun {w op w'} hi (hst : w.step config op = w') => hst ▸ hi.step config op) inv_empty

/-- Generations of one claim do not go back. -/
def Ordered (w w' : Watched) : Prop :=
  w.pool.nextClaim ≤ w'.pool.nextClaim ∧
  ∀ jobId job', w'.pool.serverJobs.lookup jobId = some job' → job'.claim < w.pool.nextClaim →
    ∃ job, w.pool.serverJobs.lookup jobId = some job ∧ job.claim = job'.claim ∧
      job.executionGeneration ≤ job'.executionGeneration

theorem Ordered.refl (w : Watched) : Ordered w w :=
  ⟨Nat.le_refl _, fun _ job hl _ => ⟨job, hl, rfl, Nat.le_refl _⟩⟩

theorem Ordered.trans {w w' w'' : Watched} (h : Ordered w w') (h' : Ordered w' w'') :
    Ordered w w'' := by
  refine ⟨h.1.trans h'.1, fun jobId job'' hl'' hclaim => ?_⟩
  obtain ⟨job', hl', hc', hg'⟩ := h'.2 jobId job'' hl'' (Nat.lt_of_lt_of_le hclaim h.1)
  obtain ⟨job, hl, hc, hg⟩ := h.2 jobId job' hl' (hc' ▸ hclaim)
  exact ⟨job, hl, hc.trans hc', hg.trans hg'⟩

theorem Inv.ordered_step {w : Watched} (hi : w.Inv) (config : Config) (op : Op) :
    Ordered w (w.step config op) := by
  refine ⟨(step_passes config w.pool op).claims, fun jobId job' hl' hclaim => ?_⟩
  obtain ⟨job, hl, hfollows, _⟩ := hi.old_record hl' hclaim
  exact ⟨job, hl, hfollows.claim.symm, hfollows.generation⟩

theorem Inv.ordered_run {config : Config} {w w' : Watched} {ops : List Op} (hi : w.Inv)
    (h : Transition.Run (Steps config) w ops w') : Ordered w w' :=
  h.related Ordered.refl Ordered.trans
    (fun {w op w'} hi (hst : w.step config op = w') => hst ▸ hi.step config op)
    (fun {w op w'} hi (hst : w.step config op = w') => hst ▸ hi.ordered_step config op) hi

end Watched

end TkbCherry.Pool
