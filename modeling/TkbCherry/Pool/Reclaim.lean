import TkbCherry.Pool.Watched

/-!
# Claiming an id again

A removed record takes its generation with it, and the next claim of the id starts at zero.
The fences of the old record stay out only as long as no executor is chosen for the new one.
-/

namespace TkbCherry.Pool

set_option autoImplicit false

open Table ServerOwnedSolverJob

/-- The checks of `update_server_job_progress_for_generation` on the record. -/
def progressOpen (s : PoolState) (jobId : String) (generation : Option Nat) : Bool :=
  (s.serverJobs.lookup jobId).any fun job =>
    job.completedMs.isNone && !job.cancelRequested &&
      generation.all fun generation => decide (generation = job.executionGeneration)

/-- Some call that carries the fence takes it. -/
def FenceAccepted (s : PoolState) (fence : ServerExecutionFence) (jobId : String)
    (owner : SolverOwner) : Prop :=
  executionFenceCurrent s fence jobId owner = true ∨
  (markVpsExecutionRunning s fence jobId owner).2 = true ∨
  (markAgentExecutionRunning s fence jobId owner).2 = true ∨
  (markServerlessExecutionRunning s fence jobId owner).2 = true ∨
  (fallbackServerlessToVps s fence jobId owner).2.isSome = true ∨
  (∃ nowMs, (fallbackAgentToVps s fence jobId owner nowMs).2.isSome = true) ∨
  (∃ response nowMs, (completeServerJobFenced s fence jobId owner response nowMs).2 = true) ∨
  progressOpen s jobId (some fence.generation) = true

/-- What every such call checks. -/
def Matches (s : PoolState) (fence : ServerExecutionFence) (jobId : String) : Prop :=
  ∃ job, s.serverJobs.lookup jobId = some job ∧ job.executionGeneration = fence.generation ∧
    job.cancelRequested = false

section Matches
variable {s : PoolState} {fence : ServerExecutionFence} {jobId : String} {owner : SolverOwner}

theorem transitionExecution_matches {source target : ServerExecutionPhase}
    (h : (transitionExecution s jobId owner fence source target).2 = true) :
    Matches s fence jobId := by
  unfold transitionExecution at h
  split at h
  · simp at h
  · rename_i job hown
    split at h
    · simp at h
    · rename_i hguard
      simp only [not_or, Bool.not_eq_true, ne_eq, not_not] at hguard
      exact ⟨job, (ownedJob_eq_some hown).1, hguard.1, hguard.2.2.1⟩

theorem serverEligible_not_cancelled {job : ServerOwnedSolverJob}
    (h : s.serverEligible jobId owner = some job) : job.cancelRequested = false := by
  have hp := (Option.filter_eq_some_iff.mp h).2
  simp only [Bool.and_eq_true, Bool.not_eq_true'] at hp
  exact hp.1.1.1

theorem fallbackServerlessToVps_matches
    (h : (fallbackServerlessToVps s fence jobId owner).2.isSome = true) :
    Matches s fence jobId := by
  unfold fallbackServerlessToVps at h
  split at h
  · simp at h
  · rename_i job hjob
    split at h
    · simp at h
    · rename_i hguard
      simp only [not_or, ne_eq, not_not] at hguard
      exact ⟨job, (serverEligible_eq_some hjob).1, hguard.1, serverEligible_not_cancelled hjob⟩

theorem fallbackAgentToVps_matches {nowMs : Nat}
    (h : (fallbackAgentToVps s fence jobId owner nowMs).2.isSome = true) :
    Matches s fence jobId := by
  unfold fallbackAgentToVps at h
  split at h
  · simp at h
  · rename_i job hjob
    split at h
    · simp at h
    · rename_i hguard
      simp only [not_or, ne_eq, not_not] at hguard
      exact ⟨job, (serverEligible_eq_some hjob).1, hguard.1, serverEligible_not_cancelled hjob⟩

theorem completeServerJobFenced_matches {response : List UInt8} {nowMs : Nat}
    (h : (completeServerJobFenced s fence jobId owner response nowMs).2 = true) :
    Matches s fence jobId := by
  unfold completeServerJobFenced at h
  split at h
  · simp at h
  · rename_i job hown
    split at h
    · simp at h
    · rename_i hguard
      simp only [not_or, Bool.not_eq_true, ne_eq, not_not] at hguard
      exact ⟨job, (ownedJob_eq_some hown).1, hguard.2.2.1, hguard.1⟩

theorem FenceAccepted.matches (h : FenceAccepted s fence jobId owner) : Matches s fence jobId := by
  rcases h with h | h | h | h | h | ⟨nowMs, h⟩ | ⟨response, nowMs, h⟩ | h
  · obtain ⟨job, hown, hp⟩ := (Option.any_eq_true _ _).mp h
    simp only [Bool.and_eq_true, decide_eq_true_eq, Bool.not_eq_true'] at hp
    exact ⟨job, (ownedJob_eq_some hown).1, hp.1.1, hp.2⟩
  · exact transitionExecution_matches h
  · exact transitionExecution_matches h
  · exact transitionExecution_matches h
  · exact fallbackServerlessToVps_matches h
  · exact fallbackAgentToVps_matches h
  · exact completeServerJobFenced_matches h
  · obtain ⟨job, hl, hp⟩ := (Option.any_eq_true _ _).mp h
    simp only [Option.all_some, Bool.and_eq_true, decide_eq_true_eq, Bool.not_eq_true'] at hp
    exact ⟨job, hl, hp.2.symm, hp.1.2⟩

end Matches

namespace Watched

/-- The id has a record now, and a fence was handed out for it under an earlier one. -/
def Reused (w : Watched) (jobId : String) : Prop :=
  ∃ issue ∈ w.issues, issue.jobId = jobId ∧
    ∃ job, w.pool.serverJobs.lookup jobId = some job ∧ job.claim ≠ issue.claim

/-- Steps that give no job of a reused id to an executor. -/
def CarefulSteps (config : Config) (w : Watched) (op : Op) (w' : Watched) : Prop :=
  (∀ jobId ∈ (Pool.step config w.pool op).2.assigned, ¬ w.Reused jobId) ∧ w.step config op = w'

/-- A record of a reused id is still at generation zero, or it is cancelled. -/
structure Idle (w : Watched) : Prop extends w.Inv where
  positive : ∀ issue ∈ w.issues, 0 < issue.fence.generation
  idle : ∀ issue ∈ w.issues, ∀ job, w.pool.serverJobs.lookup issue.jobId = some job →
    job.claim ≠ issue.claim → job.executionGeneration = 0 ∨ job.cancelRequested = true

theorem idle_empty : empty.Idle where
  toInv := inv_empty
  positive := fun _ h => by simp [empty] at h
  idle := fun _ h => by simp [empty] at h

theorem Holds.positive {s : PoolState} {jobId : String} {fence : ServerExecutionFence}
    (hw : ∀ id job, s.serverJobs.lookup id = some job → job.WellFormed)
    (h : Holds s jobId fence) : 0 < fence.generation := by
  obtain ⟨job, hl, hg, he⟩ := h
  rw [← hg]
  refine Nat.pos_of_ne_zero fun hz => ?_
  rcases (hw jobId job hl).started hz with hp | hp <;> simp [hp, ServerExecutionPhase.executor] at he

theorem Idle.step {config : Config} {w : Watched} {op : Op} (hi : w.Idle)
    (hc : ∀ jobId ∈ (Pool.step config w.pool op).2.assigned, ¬ w.Reused jobId) :
    (w.step config op).Idle where
  toInv := hi.toInv.step config op
  positive := by
    intro issue hin
    rcases List.mem_append.mp hin with hnew | hold
    · obtain ⟨_, hholds, _⟩ := mem_issued hnew
      exact Holds.positive (fun id job hl => (hi.records_step hl).1) hholds
    · obtain ⟨before, hbefore, rfl⟩ := List.mem_map.mp hold
      rw [mark_fence]
      exact hi.positive before hbefore
  idle := by
    intro issue hin job' hl' hne
    rcases List.mem_append.mp hin with hnew | hold
    · obtain ⟨hclaim, _, _⟩ := mem_issued hnew
      obtain ⟨job, hl, hjob⟩ := claim_of_claimOf hclaim
      obtain rfl := Option.some.inj (hl.symm.trans hl')
      exact absurd hjob hne
    · obtain ⟨before, hbefore, rfl⟩ := List.mem_map.mp hold
      rw [mark_jobId] at hl'
      rw [mark_claim] at hne
      rcases (step_passes config w.pool op).records before.jobId job' hl' with
        ⟨job, hl, hf⟩ | ⟨_, _, _, hzero⟩
      · obtain ⟨hfollows, hstays, _⟩ := hf (hi.records before.jobId job hl).1
        rw [hfollows.claim] at hne
        rcases hi.idle before hbefore job hl hne with hzero | hcancel
        · have hreused : w.Reused before.jobId := ⟨before, hbefore, rfl, job, hl, hne⟩
          exact hstays (fun hin => hc _ hin hreused) hzero
        · exact .inr (hfollows.cancelled hcancel)
      · exact .inl hzero

/-- As long as no job of a reused id is given to an executor, no fence of an earlier record is
accepted, by any call and for any owner. -/
theorem no_stale_fence (config : Config) (ops : List Op) (w : Watched)
    (h : Transition.Run (CarefulSteps config) empty ops w) :
    ∀ issue ∈ w.issues, ∀ job, w.pool.serverJobs.lookup issue.jobId = some job →
      job.claim ≠ issue.claim → ∀ owner,
        ¬ FenceAccepted w.pool issue.fence issue.jobId owner := by
  have hi : w.Idle := h.invariant
    (fun {w op w'} hi (hst : CarefulSteps config w op w') => hst.2 ▸ hi.step hst.1) idle_empty
  intro issue hin job hl hne owner haccept
  obtain ⟨job₁, hl₁, hg, hcancel⟩ := haccept.matches
  obtain rfl := Option.some.inj (hl.symm.trans hl₁)
  rcases hi.idle issue hin job hl hne with hzero | hcancelled
  · have hpos := hi.positive issue hin
    omega
  · rw [hcancel] at hcancelled
    exact absurd hcancelled (by simp)

section Abandoned

def admin : SolverOwner := ⟨"s1", "admin"⟩

/-- A job that gets a VPS fence, is abandoned, and is claimed again. -/
def abandoned : List Op :=
  [.claim "a" admin {} 0, .prepareVps "a" admin 1, .abandon "a" admin, .claim "a" admin {} 2]

/-- And waits for the VPS a second time. -/
def abandonedTwice : Watched :=
  (abandoned ++ [Op.prepareVps "a" admin 3]).foldl (step ⟨3, 8, 2, 6⟩) empty

theorem abandoned_careful (config : Config) :
    Transition.Run (CarefulSteps config) empty abandoned (abandoned.foldl (step config) empty) := by
  have hnone : ∀ jobId ∈ ([] : List String), ∀ w : Watched, ¬ w.Reused jobId := by simp
  refine .cons ⟨fun id hin => hnone id hin _, rfl⟩ (.cons ⟨fun id _ hreused => ?_, rfl⟩
    (.cons ⟨fun id hin => hnone id hin _, rfl⟩ (.single ⟨fun id hin => hnone id hin _, rfl⟩)))
  obtain ⟨issue, hin, _⟩ := hreused
  exact absurd hin List.not_mem_nil

theorem no_stale_fence_abandoned :
    ¬ FenceAccepted (abandoned.foldl (step ⟨3, 8, 2, 6⟩) empty).pool ⟨1, .vps⟩ "a" admin :=
  no_stale_fence ⟨3, 8, 2, 6⟩ abandoned _ (abandoned_careful _) ⟨"a", 0, ⟨1, .vps⟩, false⟩ (by decide)
    _ rfl (by decide) admin

/-- Once the second record waits for the VPS too, the answer of the first run is committed. -/
theorem abandoned_fence_accepted :
    ∃ issue ∈ abandonedTwice.issues, issue.claim = 0 ∧
      claimOf abandonedTwice.pool issue.jobId = some 1 ∧
      (completeServerJobFenced abandonedTwice.pool issue.fence issue.jobId admin [] 4).2 = true := by
  refine ⟨⟨"a", 0, ⟨1, .vps⟩, false⟩, ?_, rfl, rfl, rfl⟩
  decide

end Abandoned

end Watched

end TkbCherry.Pool
