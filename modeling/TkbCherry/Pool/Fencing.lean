import TkbCherry.Pool.Watched

/-!
# Executor fences

What an accepted completion says about the fences handed out under the same claim, and where
`saturating_add` ends the argument: at the last generation a handoff changes nothing.
-/

namespace TkbCherry.Pool

set_option autoImplicit false

open Table

namespace Watched

/-- A fenced completion is accepted. -/
def Accepts (w : Watched) (jobId : String) (fence : ServerExecutionFence) : Prop :=
  ∃ owner response nowMs, (completeServerJobFenced w.pool fence jobId owner response nowMs).2 = true

/-- In every reachable state: an accepted completion carries the generation and the executor
of the record, and below the last generation no fence of this claim that equals it has lost
the job; no claim has two responses; and from here on generations of a claim only grow. -/
theorem fence_exclusive (config : Config) (ops : List Op) (w : Watched)
    (h : Transition.Run (Steps config) empty ops w) :
    (∀ jobId fence, Accepts w jobId fence →
      ∃ job, w.pool.serverJobs.lookup jobId = some job ∧
        job.executionGeneration = fence.generation ∧
        job.executionPhase.executor = some fence.executor ∧
        (job.executionGeneration < u64Max → ∀ issue ∈ w.issues, issue.jobId = jobId →
          issue.claim = job.claim → issue.fence = fence → issue.displaced = false)) ∧
    w.commits.Nodup ∧
    ∀ ops' w', Transition.Run (Steps config) w ops' w' → ∀ jobId job job',
      w.pool.serverJobs.lookup jobId = some job → w'.pool.serverJobs.lookup jobId = some job' →
      job'.claim = job.claim → job.executionGeneration ≤ job'.executionGeneration := by
  have hi := Inv.of_run h
  refine ⟨fun jobId fence haccept => ?_, hi.once, fun ops' w' hrun jobId job job' hl hl' hclaim => ?_⟩
  · obtain ⟨owner, response, nowMs, haccept⟩ := haccept
    obtain ⟨job, hl, _, _, hg, he, _⟩ := completeServerJobFenced_accepts haccept
    refine ⟨job, hl, hg, he, fun hmax issue hin hid hclaim hfence => ?_⟩
    subst hid
    by_contra hdisplaced
    have hlt := (hi.issues issue hin job hl hclaim.symm).2 (by simpa using hdisplaced) hmax
    rw [hfence, hg] at hlt
    exact absurd hlt (Nat.lt_irrefl _)
  · obtain ⟨_, hmono⟩ := hi.ordered_run hrun
    obtain ⟨job₁, hl₁, _, hle⟩ := hmono jobId job' hl' (hclaim ▸ (hi.records jobId job hl).2)
    obtain rfl := Option.some.inj (hl.symm.trans hl₁)
    exact hle

/-- A claim that ran on the VPS and got its answer. -/
theorem fence_exclusive_vps :
    let owner : SolverOwner := ⟨"s1", "admin"⟩
    let ops : List Op := [.claim "a" owner {} 0, .prepareVps "a" owner 1,
      .completeFenced ⟨1, .vps⟩ "a" owner [] 2]
    (ops.foldl (step ⟨3, 8, 2, 6⟩) empty).commits.Nodup := by
  intro owner ops
  exact (fence_exclusive ⟨3, 8, 2, 6⟩ ops _ (Transition.Run.ofFn_foldl _ _ ops)).2.1

/-! ### The last generation -/

section Saturation

def ownerOne : SolverOwner := ⟨"s1", "admin"⟩

/-- The only job, in a phase of some executor, at a generation. -/
def loneJob (phase : ServerExecutionPhase) (generation : Nat) : PoolState :=
  { PoolState.empty with
    serverJobs := (∅ : ServerJobs).insert "a" { newServerJob ownerOne none none none none none 0 0 with
      executionGeneration := generation
      executionPhase := phase }
    nextClaim := 1 }

theorem step_handoff (config : Config) (generation : Nat) :
    Pool.step config (loneJob .vpsQueued generation) (.handoffForJob "a" ownerOne) =
      (loneJob .handoffToAgent (bump generation), { assigned := ["a"], displaced := ["a"] }) := rfl

theorem step_prepareAgent (config : Config) (generation : Nat) :
    Pool.step config (loneJob .handoffToAgent generation) (.prepareAgent "a" ownerOne 0) =
      (loneJob .agentWaiting generation,
        { fence := some ⟨generation, .agent⟩, assigned := ["a"] }) := rfl

theorem step_prepareVps (config : Config) (generation : Nat) :
    Pool.step config (loneJob .vpsQueued generation) (.prepareVps "a" ownerOne 0) =
      (loneJob .vpsQueued generation,
        { fence := some ⟨generation, .vps⟩, assigned := ["a"] }) := rfl

theorem step_fallbackAgent (config : Config) (generation : Nat) :
    Pool.step config (loneJob .agentWaiting generation)
        (.fallbackAgent ⟨generation, .agent⟩ "a" ownerOne 0) =
      (loneJob .vpsQueued (bump generation),
        { fence := some ⟨bump generation, .vps⟩, displaced := ["a"] }) := by
  have hfallback : fallbackAgentToVps (loneJob .agentWaiting generation) ⟨generation, .agent⟩ "a"
      ownerOne 0 = (loneJob .vpsQueued (bump generation), some ⟨bump generation, .vps⟩) := by
    obtain ⟨job, hjob, hg, he⟩ : ∃ job,
        (loneJob .agentWaiting generation).serverEligible "a" ownerOne = some job ∧
        job.executionGeneration = generation ∧ job.executionPhase = .agentWaiting :=
      ⟨_, rfl, rfl, rfl⟩
    simp only [fallbackAgentToVps, hjob, hg, he, ServerExecutionPhase.executor]
    rw [if_neg (by simp)]
    rfl
  simp only [Pool.step, hfallback]
  rfl

/-- Watching the pool alone. -/
theorem pool_of_run {config : Config} {w w' : Watched} {ops : List Op}
    (h : Transition.Run (Steps config) w ops w') :
    w'.pool = ops.foldl (fun s op => (Pool.step config s op).1) w.pool := by
  induction h with
  | nil => rfl
  | snoc _ hstep ih =>
    rw [List.foldl_append, ← ih, ← hstep]
    rfl

/-- To an agent and back, two generations later. -/
def loop (generation : Nat) : List Op :=
  [.handoffForJob "a" ownerOne, .prepareAgent "a" ownerOne 0,
    .fallbackAgent ⟨bump generation, .agent⟩ "a" ownerOne 0]

theorem loop_pool (config : Config) (generation : Nat) :
    (loop generation).foldl (fun s op => (Pool.step config s op).1) (loneJob .vpsQueued generation) =
      loneJob .vpsQueued (bump (bump generation)) := by
  simp only [loop, List.foldl_cons, List.foldl_nil, step_handoff, step_prepareAgent,
    step_fallbackAgent]

theorem bump_bump {generation : Nat} (h : generation + 2 ≤ u64Max) :
    bump (bump generation) = generation + 2 := by
  unfold bump
  omega

/-- Every odd generation is reached by a job that waits for the VPS. -/
theorem reaches_odd (config : Config) (k : Nat) (hk : 2 * k + 1 ≤ u64Max) :
    ∃ ops w, Transition.Run (Steps config) empty ops w ∧
      w.pool = loneJob .vpsQueued (2 * k + 1) := by
  induction k with
  | zero =>
    refine ⟨[.claim "a" ownerOne {} 0, .prepareVps "a" ownerOne 0], _,
      Transition.Run.ofFn_foldl _ _ _, ?_⟩
    rfl
  | succ k ih =>
    obtain ⟨ops, w, hrun, hw⟩ := ih (by omega)
    have hloop := Transition.Run.ofFn_foldl (step config) w (loop (2 * k + 1))
    refine ⟨_, _, hrun.trans hloop, ?_⟩
    rw [pool_of_run hloop, hw, loop_pool, bump_bump (by omega)]
    rfl

theorem mark_of_displaced {s : PoolState} {displaced : List String} {issue : Issue}
    (h : issue.displaced = true) : mark s displaced issue = issue := by
  obtain ⟨jobId, claim, fence, flag⟩ := issue
  obtain rfl : flag = true := h
  unfold mark
  split <;> rfl

theorem displaced_mem_step {config : Config} {w : Watched} {issue : Issue}
    (hin : issue ∈ w.issues) (h : issue.displaced = true) (op : Op) :
    issue ∈ (w.step config op).issues :=
  List.mem_append_right _ (List.mem_map.mpr ⟨issue, hin, mark_of_displaced h⟩)

/-- A fence noted before the job went to an agent and came back is noted as displaced. -/
theorem loop_displaces (config : Config) {w : Watched} {generation : Nat}
    {fence : ServerExecutionFence} (hpool : w.pool = loneJob .vpsQueued generation)
    (hin : ⟨"a", 0, fence, false⟩ ∈ w.issues) :
    ⟨"a", 0, fence, true⟩ ∈ ((loop generation).foldl (step config) w).issues := by
  have hmarked : ⟨"a", 0, fence, true⟩ ∈
      (w.step config (.handoffForJob "a" ownerOne)).issues := by
    simp only [step, hpool, step_handoff]
    exact List.mem_append_right _ (List.mem_map.mpr ⟨_, hin, rfl⟩)
  exact displaced_mem_step (displaced_mem_step hmarked rfl _) rfl _

/-- At the last generation a handoff leaves the generation as it is: the fence of the displaced
VPS run is accepted again after the agent has fallen back. -/
theorem saturated_fence_accepted : ∃ ops w, Transition.Run (Steps ⟨3, 8, 2, 6⟩) empty ops w ∧
    ∃ issue ∈ w.issues, issue.displaced = true ∧
      claimOf w.pool issue.jobId = some issue.claim ∧ Accepts w issue.jobId issue.fence := by
  obtain ⟨ops, w, hrun, hw⟩ := reaches_odd ⟨3, 8, 2, 6⟩ (2 ^ 63 - 1) (by decide)
  have hlast : w.pool = loneJob .vpsQueued u64Max := hw
  -- the VPS run takes its fence, then the job goes to an agent and comes back
  have hprepare : Steps ⟨3, 8, 2, 6⟩ w (.prepareVps "a" ownerOne 0)
      (w.step ⟨3, 8, 2, 6⟩ (.prepareVps "a" ownerOne 0)) := rfl
  have hpool : (w.step ⟨3, 8, 2, 6⟩ (.prepareVps "a" ownerOne 0)).pool =
      loneJob .vpsQueued u64Max := by
    simp only [step, hlast, step_prepareVps]
  have hissued : ⟨"a", 0, ⟨u64Max, .vps⟩, false⟩ ∈
      (w.step ⟨3, 8, 2, 6⟩ (.prepareVps "a" ownerOne 0)).issues := by
    simp only [step, hlast, step_prepareVps]
    exact List.mem_append_left _ (List.mem_singleton.mpr rfl)
  generalize w.step ⟨3, 8, 2, 6⟩ (.prepareVps "a" ownerOne 0) = w₁ at hprepare hpool hissued
  have hloop := Transition.Run.ofFn_foldl (step ⟨3, 8, 2, 6⟩) w₁ (loop u64Max)
  have hback : ((loop u64Max).foldl (step ⟨3, 8, 2, 6⟩) w₁).pool = loneJob .vpsQueued u64Max := by
    rw [pool_of_run hloop, hpool, loop_pool]
    rfl
  refine ⟨_, _, (hrun.snoc hprepare).trans hloop, ⟨"a", 0, ⟨u64Max, .vps⟩, true⟩,
    loop_displaces _ hpool hissued, rfl, ?_, ownerOne, [], 0, ?_⟩
  · rw [hback]
    rfl
  · rw [hback]
    rfl

end Saturation

end Watched

end TkbCherry.Pool
