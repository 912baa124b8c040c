import TkbCherry.Pool.Watched

/-!
# What a call does to a server job

`Edit op id job job'` lists the ways a record can change, each with the guards of the branch
of the source that makes the change. The contracts on a job's phase, flags and watchdog are
case analyses of this relation.
-/

namespace TkbCherry.Pool

set_option autoImplicit false

open Table

def Op.handsOff : Op → Bool
  | .handoffForOwner _ => true
  | .handoffForJob _ _ => true
  | .handoffForTrustedWorker _ _ => true
  | _ => false

/-- A job `prepare_agent_execution` looks at. -/
structure AgentReady (job : ServerOwnedSolverJob) : Prop where
  live : job.completedMs = none
  uncancelled : job.cancelRequested = false
  preference : job.agentPreferenceEnabled = true
  unrequested : job.noCheckpointVpsRescueRequested = false
  ungranted : job.noCheckpointVpsRescueGranted = false

/-- A job the servers may have. -/
structure ServerReady (job : ServerOwnedSolverJob) : Prop where
  live : job.completedMs = none
  uncancelled : job.cancelRequested = false
  native : job.nativeAgentRequired = false
  browser : job.browserAgentRequired = false

/-- A job whose agent may be asked to give way. -/
structure RescueReady (job : ServerOwnedSolverJob) : Prop extends ServerReady job where
  budget : job.watchdogBudgetMs.isSome = true
  agent : job.executionPhase.executor = some .agent
  ungranted : job.noCheckpointVpsRescueGranted = false

inductive Edit : Op → String → ServerOwnedSolverJob → ServerOwnedSolverJob → Prop
  | same (op : Op) (id : String) (job : ServerOwnedSolverJob) : Edit op id job job
  | browserWasm {id : String} {job : ServerOwnedSolverJob} (eligible : Bool)
      (live : job.completedMs = none) :
      Edit (.setBrowserWasmEligible id job.owner eligible) id job
        { job with browserWasmEligible := eligible }
  | browserCpSat {id : String} {job : ServerOwnedSolverJob} (eligible : Bool)
      (live : job.completedMs = none) :
      Edit (.setBrowserCpSatEligible id job.owner eligible) id job
        { job with browserCpSatEligible := eligible }
  | preference {id : String} {job : ServerOwnedSolverJob} (enabled : Bool)
      (live : job.completedMs = none)
      (rescue : enabled = true → job.noCheckpointVpsRescueRequested = false ∧
        job.noCheckpointVpsRescueGranted = false) :
      Edit (.setAgentPreference id job.owner enabled) id job
        { job with agentPreferenceEnabled := enabled }
  | nativeOff {id : String} {job : ServerOwnedSolverJob} (live : job.completedMs = none) :
      Edit (.setNativeAgentRequired id job.owner false) id job
        { job with nativeAgentRequired := false }
  | nativeOn {id : String} {job : ServerOwnedSolverJob} (live : job.completedMs = none)
      (vps : job.executionPhase.executor ≠ some .vps) (other : job.browserAgentRequired = false) :
      Edit (.setNativeAgentRequired id job.owner true) id job
        (resetForAgent { job with nativeAgentRequired := true })
  | browserOff {id : String} {job : ServerOwnedSolverJob} (live : job.completedMs = none) :
      Edit (.setBrowserAgentRequired id job.owner false) id job
        { job with browserAgentRequired := false }
  | browserOn {id : String} {job : ServerOwnedSolverJob} (live : job.completedMs = none)
      (vps : job.executionPhase.executor ≠ some .vps) (other : job.nativeAgentRequired = false) :
      Edit (.setBrowserAgentRequired id job.owner true) id job
        (resetForAgent { job with browserAgentRequired := true })
  /-- A queue may hold an id twice, and then the trusted worker's handoff bumps twice. -/
  | handoff {op : Op} {id : String} {job : ServerOwnedSolverJob} (trusted : Bool) (times : Nat)
      (hands : op.handsOff = true) (allowed : handoffAllowed job = true)
      (phase : job.executionPhase.takenByAgent = true) :
      Edit op id job { handoffJob trusted job with
        executionGeneration := bump^[times + 1] job.executionGeneration }
  | agentFromPending {id : String} {job : ServerOwnedSolverJob} (nowMs : Nat)
      (ready : AgentReady job) (phase : job.executionPhase = .pending) :
      Edit (.prepareAgent id job.owner nowMs) id job (startServerWatchdog { job with
        executionGeneration := bump job.executionGeneration
        executionPhase := .agentWaiting
        trustedWorkerEligible := false } nowMs)
  | agentFromHandoff {id : String} {job : ServerOwnedSolverJob} (nowMs : Nat)
      (ready : AgentReady job) (phase : job.executionPhase = .handoffToAgent) :
      Edit (.prepareAgent id job.owner nowMs) id job
        (startServerWatchdog { job with executionPhase := .agentWaiting } nowMs)
  | agentAgain {id : String} {job : ServerOwnedSolverJob} (nowMs : Nat)
      (ready : AgentReady job) (phase : job.executionPhase = .agentWaiting) :
      Edit (.prepareAgent id job.owner nowMs) id job (startServerWatchdog job nowMs)
  | agentRunning {id : String} {job : ServerOwnedSolverJob} (executor : ServerExecutor)
      (live : job.completedMs = none) (uncancelled : job.cancelRequested = false)
      (phase : job.executionPhase = .agentWaiting) :
      Edit (.markAgentRunning ⟨job.executionGeneration, executor⟩ id job.owner) id job
        { job with executionPhase := .agentRunning }
  | serverlessFromPending {id : String} {job : ServerOwnedSolverJob} (nowMs : Nat)
      (ready : ServerReady job) (phase : job.executionPhase = .pending) :
      Edit (.prepareServerless id job.owner nowMs) id job (startServerWatchdog { job with
        executionGeneration := bump job.executionGeneration
        executionPhase := .serverlessQueued
        trustedWorkerEligible := false
        agentPreferenceEnabled := false } nowMs)
  | serverlessAgain {id : String} {job : ServerOwnedSolverJob} (nowMs : Nat)
      (ready : ServerReady job) (phase : job.executionPhase = .serverlessQueued) :
      Edit (.prepareServerless id job.owner nowMs) id job (startServerWatchdog job nowMs)
  | serverlessRunning {id : String} {job : ServerOwnedSolverJob} (executor : ServerExecutor)
      (live : job.completedMs = none) (uncancelled : job.cancelRequested = false)
      (phase : job.executionPhase = .serverlessQueued) :
      Edit (.markServerlessRunning ⟨job.executionGeneration, executor⟩ id job.owner) id job
        { job with executionPhase := .serverlessRunning }
  | serverlessToVps {id : String} {job : ServerOwnedSolverJob} (ready : ServerReady job)
      (phase : job.executionPhase.executor = some .serverless) :
      Edit (.fallbackServerless ⟨job.executionGeneration, .serverless⟩ id job.owner) id job
        { job with
          executionGeneration := bump job.executionGeneration
          executionPhase := .vpsQueued
          trustedWorkerEligible := false
          agentPreferenceEnabled := false }
  | vpsFromPending {id : String} {job : ServerOwnedSolverJob} (nowMs : Nat)
      (ready : ServerReady job) (phase : job.executionPhase = .pending) :
      Edit (.prepareVps id job.owner nowMs) id job (startServerWatchdog { job with
        executionGeneration := bump job.executionGeneration
        executionPhase := .vpsQueued
        trustedWorkerEligible := false } nowMs)
  | vpsAgain {id : String} {job : ServerOwnedSolverJob} (nowMs : Nat)
      (ready : ServerReady job) (phase : job.executionPhase = .vpsQueued) :
      Edit (.prepareVps id job.owner nowMs) id job
        (startServerWatchdog { job with trustedWorkerEligible := false } nowMs)
  | vpsRunning {id : String} {job : ServerOwnedSolverJob} (executor : ServerExecutor)
      (live : job.completedMs = none) (uncancelled : job.cancelRequested = false)
      (phase : job.executionPhase = .vpsQueued) :
      Edit (.markVpsRunning ⟨job.executionGeneration, executor⟩ id job.owner) id job
        { job with executionPhase := .vpsRunning }
  | rescue {id : String} {job : ServerOwnedSolverJob} (ready : RescueReady job) :
      Edit (.requestRescue id job.owner) id job { job with
        noCheckpointVpsRescueRequested := true
        agentPreferenceEnabled := false }
  | agentToVps {id : String} {job : ServerOwnedSolverJob} (nowMs : Nat) (ready : ServerReady job)
      (phase : job.executionPhase.executor = some .agent) :
      Edit (.fallbackAgent ⟨job.executionGeneration, .agent⟩ id job.owner nowMs) id job
        (fallbackAgentJob nowMs job)
  | answeredFenced {id : String} {job : ServerOwnedSolverJob} (executor : ServerExecutor)
      (response : List UInt8) (nowMs : Nat) (live : job.completedMs = none)
      (uncancelled : job.cancelRequested = false)
      (phase : job.executionPhase.executor = some executor) :
      Edit (.completeFenced ⟨job.executionGeneration, executor⟩ id job.owner response nowMs) id job
        (completeJob response nowMs job)
  | answered {id : String} {job : ServerOwnedSolverJob} (response : List UInt8) (nowMs : Nat)
      (uncancelled : job.cancelRequested = false) (phase : job.executionPhase = .pending) :
      Edit (.complete id job.owner response nowMs) id job (completeJob response nowMs job)
  | cancelled {id : String} {job : ServerOwnedSolverJob} (unanswered : job.response = none) :
      Edit (.cancel id) id job (cancelServerJob job)
  | cancelledForOwner {id : String} {job : ServerOwnedSolverJob}
      (unanswered : job.response = none) :
      Edit (.cancelForOwner id job.owner) id job (cancelServerJob job)
  | bestEffort {id : String} {job : ServerOwnedSolverJob} (live : job.completedMs = none)
      (uncancelled : job.cancelRequested = false) :
      Edit (.bestEffortStop id job.owner) id job { job with bestEffortStopRequested := true }

/-- Every record a call keeps went through an edit of the call. -/
def Edits (op : Op) (s s' : PoolState) : Prop :=
  ∀ id job', s'.serverJobs.lookup id = some job' →
    ∃ job, s.serverJobs.lookup id = some job ∧ Edit op id job job'

namespace Edits
variable {op : Op} {s s' s'' : PoolState}

/-- The call only removes records. -/
theorem of_kept (h : ∀ id job, s'.serverJobs.lookup id = some job →
    s.serverJobs.lookup id = some job) : Edits op s s' :=
  fun id job hl => ⟨job, h id job hl, .same op id job⟩

theorem refl (op : Op) (s : PoolState) : Edits op s s := of_kept fun _ _ h => h

theorem andThen (h : Edits op s s') (hk : ∀ id job, s''.serverJobs.lookup id = some job →
    s'.serverJobs.lookup id = some job) : Edits op s s'' :=
  fun id job hl => h id job (hk id job hl)

/-- Records removed first, then the edits. -/
theorem after (hk : ∀ id job, s'.serverJobs.lookup id = some job →
    s.serverJobs.lookup id = some job) (h : Edits op s' s'') : Edits op s s'' := by
  intro id job' hl'
  obtain ⟨job, hl, he⟩ := h id job' hl'
  exact ⟨job, hk id job hl, he⟩

theorem update {jobId : String} {job : ServerOwnedSolverJob}
    {f : ServerOwnedSolverJob → ServerOwnedSolverJob} (hl : s.serverJobs.lookup jobId = some job)
    (he : Edit op jobId job (f job)) : Edits op s (s.updateJob jobId f) := by
  intro id job' hl'
  rcases eq_or_ne id jobId with hid | hid
  · subst hid
    have hmap : (s.updateJob id f).serverJobs.lookup id = some (f job) :=
      (lookup_modify_self id f s.serverJobs).trans (by rw [hl]; rfl)
    obtain rfl := Option.some.inj (hmap.symm.trans hl')
    exact ⟨job, hl, he⟩
  · exact ⟨job', (lookup_modify_ne hid f s.serverJobs).symm.trans hl', .same op id job'⟩

end Edits

/-! ### The calls -/

theorem lookup_erase_eq_some {jobs : ServerJobs} {jobId id : String} {job : ServerOwnedSolverJob}
    (h : (jobs.erase jobId).lookup id = some job) : jobs.lookup id = some job := by
  rcases eq_or_ne id jobId with hid | hid
  · subst hid
    rw [AList.lookup_erase] at h
    exact absurd h (by simp)
  · rwa [AList.lookup_erase_ne hid] at h

theorem serverEligible_ready {s : PoolState} {jobId : String} {owner : SolverOwner}
    {job : ServerOwnedSolverJob} (h : s.serverEligible jobId owner = some job) :
    s.serverJobs.lookup jobId = some job ∧ job.owner = owner ∧ ServerReady job := by
  obtain ⟨hown, hp⟩ := Option.filter_eq_some_iff.mp h
  obtain ⟨hl, howner⟩ := ownedJob_eq_some hown
  simp only [Bool.and_eq_true, Bool.not_eq_true', Option.isNone_iff_eq_none] at hp
  exact ⟨hl, howner, hp.1.1.2, hp.1.1.1, hp.1.2, hp.2⟩

section Calls
variable {s : PoolState} {jobId : String} {owner : SolverOwner} {op : Op}

theorem setLiveJob_edits {ok : ServerOwnedSolverJob → Bool}
    {f : ServerOwnedSolverJob → ServerOwnedSolverJob}
    (he : ∀ job, job.owner = owner → job.completedMs = none → ok job = true →
      Edit op jobId job (f job)) : Edits op s (setLiveJob s jobId owner ok f).1 := by
  unfold setLiveJob
  split
  · exact .refl op s
  · rename_i job hjob
    obtain ⟨hown, hlive⟩ := Option.filter_eq_some_iff.mp hjob
    obtain ⟨hl, howner⟩ := ownedJob_eq_some hown
    split
    · rename_i hok
      exact .update hl (he job howner (Option.isNone_iff_eq_none.mp hlive) hok)
    · exact .refl op s

theorem transitionExecution_edits {fence : ServerExecutionFence}
    {source target : ServerExecutionPhase}
    (he : ∀ job, job.owner = owner → job.completedMs = none → job.cancelRequested = false →
      job.executionPhase = source → job.executionGeneration = fence.generation →
        Edit op jobId job { job with executionPhase := target }) :
    Edits op s (transitionExecution s jobId owner fence source target).1 := by
  unfold transitionExecution
  split
  · exact .refl op s
  · rename_i job hown
    obtain ⟨hl, howner⟩ := ownedJob_eq_some hown
    split
    · exact .refl op s
    · rename_i hguard
      simp only [not_or, Bool.not_eq_true, Option.isSome_eq_false_iff, Option.isNone_iff_eq_none,
        ne_eq, not_not] at hguard
      obtain ⟨hgeneration, hphase, huncancelled, hlive⟩ := hguard
      exact .update hl (he job howner hlive huncancelled hphase hgeneration)

theorem iterate_handoffJob (trusted : Bool) (times : Nat) (job : ServerOwnedSolverJob) :
    (handoffJob trusted)^[times + 1] job = { handoffJob trusted job with
      executionGeneration := bump^[times + 1] job.executionGeneration } := by
  induction times with
  | zero => rfl
  | succ times ih =>
    have hbump := Function.iterate_succ_apply' bump (times + 1) job.executionGeneration
    rw [Function.iterate_succ_apply', ih, hbump]
    rfl

theorem lookup_handoffs (trusted : Bool) (jobIds : List String) (s : PoolState) (id : String) :
    (jobIds.foldl (fun s id => (s.updateJob id (handoffJob trusted)).signalCancel id)
      s).serverJobs.lookup id =
      (s.serverJobs.lookup id).map (handoffJob trusted)^[jobIds.count id] := by
  induction jobIds generalizing s with
  | nil => simp
  | cons first rest ih =>
    rw [List.foldl_cons, ih]
    have hlookup : ((s.updateJob first (handoffJob trusted)).signalCancel first).serverJobs.lookup
        id = if id = first then (s.serverJobs.lookup first).map (handoffJob trusted)
          else s.serverJobs.lookup id := lookup_modify first (handoffJob trusted) s.serverJobs id
    rw [hlookup]
    split
    · rename_i hid
      rw [hid, List.count_cons_self, Option.map_map, Function.iterate_succ]
    · rename_i hid
      rw [List.count_cons_of_ne (Ne.symm hid)]

theorem handoffAll_edits (hands : op.handsOff = true) {trusted : Bool} {jobIds : List String}
    (hmem : ∀ id ∈ jobIds, ∃ job, s.serverJobs.lookup id = some job ∧ handoffAllowed job = true ∧
      job.executionPhase.takenByAgent = true) : Edits op s (handoffAll s jobIds trusted) := by
  intro id job' hl'
  have hlookup := (lookup_handoffs trusted jobIds s id).symm.trans hl'
  obtain ⟨job, hl, rfl⟩ := Option.map_eq_some_iff.mp hlookup
  refine ⟨job, hl, ?_⟩
  cases hcount : jobIds.count id with
  | zero => exact .same op id job
  | succ times =>
    have hin : id ∈ jobIds := List.count_pos_iff.mp (by omega)
    obtain ⟨job₁, hl₁, hallowed, hphase⟩ := hmem id hin
    obtain rfl := Option.some.inj (hl.symm.trans hl₁)
    rw [iterate_handoffJob]
    exact .handoff trusted times hands hallowed hphase

theorem requestAgentHandoffForOwner_edits :
    Edits (.handoffForOwner owner) s (requestAgentHandoffForOwner s owner).1 := by
  refine handoffAll_edits rfl fun id hin => ?_
  obtain ⟨⟨id', job⟩, he, rfl⟩ := List.mem_map.mp hin
  obtain ⟨hmem, hp⟩ := List.mem_filter.mp he
  simp only [Bool.and_eq_true] at hp
  exact ⟨job, mem_toList_iff.mp hmem, hp.1.1.2, hp.2⟩

theorem requestAgentHandoffForJob_edits :
    Edits (.handoffForJob jobId owner) s (requestAgentHandoffForJob s jobId owner).1 := by
  unfold requestAgentHandoffForJob
  simp only
  split
  · exact .refl _ s
  · split
    · rename_i hany
      obtain ⟨job, hown, hp⟩ := (Option.any_eq_true _ _).mp hany
      simp only [Bool.and_eq_true] at hp
      refine handoffAll_edits rfl fun id hin => ?_
      obtain rfl := List.mem_singleton.mp hin
      exact ⟨job, (ownedJob_eq_some hown).1, hp.1, hp.2⟩
    · exact .refl _ s

theorem requestAgentHandoffForTrustedWorker_edits (maxJobs nowMs : Nat) :
    Edits (.handoffForTrustedWorker maxJobs nowMs) s
      (requestAgentHandoffForTrustedWorker s maxJobs nowMs).1 := by
  unfold requestAgentHandoffForTrustedWorker
  split
  · exact .refl _ s
  · refine .after (fun _ _ h => h) (handoffAll_edits (s := pruneStaleQueue s nowMs) rfl
      fun id hin => ?_)
    obtain ⟨queued, hq, rfl⟩ := List.mem_map.mp hin
    have hp := (List.mem_filter.mp (List.mem_of_mem_take hq)).2
    rw [Bool.and_eq_true] at hp
    obtain ⟨job, hl, hp⟩ := (Option.any_eq_true _ _).mp hp.2
    simp only [Bool.and_eq_true, decide_eq_true_eq] at hp
    exact ⟨job, hl, hp.1.1, by rw [hp.2]; rfl⟩

theorem prepareAgentExecution_edits (nowMs : Nat) :
    Edits (.prepareAgent jobId owner nowMs) s (prepareAgentExecution s jobId owner nowMs).1 := by
  unfold prepareAgentExecution
  split
  · exact .refl _ s
  · rename_i job hjob
    obtain ⟨hown, hp⟩ := Option.filter_eq_some_iff.mp hjob
    obtain ⟨hl, rfl⟩ := ownedJob_eq_some hown
    simp only [Bool.and_eq_true, Bool.not_eq_true', Option.isNone_iff_eq_none] at hp
    have hready : AgentReady job := ⟨hp.1.1.1.2, hp.1.1.1.1, hp.1.1.2, hp.1.2, hp.2⟩
    split
    · rename_i hphase
      exact .update hl (.agentFromPending nowMs hready hphase)
    · rename_i hphase
      exact .update hl (.agentFromHandoff nowMs hready hphase)
    · rename_i hphase
      exact .update hl (.agentAgain nowMs hready hphase)
    · exact .refl _ s

theorem prepareServerlessExecution_edits (nowMs : Nat) :
    Edits (.prepareServerless jobId owner nowMs) s
      (prepareServerlessExecution s jobId owner nowMs).1 := by
  unfold prepareServerlessExecution
  split
  · exact .refl _ s
  · rename_i job hjob
    obtain ⟨hl, rfl, hready⟩ := serverEligible_ready hjob
    split
    · rename_i hphase
      exact .update hl (.serverlessFromPending nowMs hready hphase)
    · rename_i hphase
      exact .update hl (.serverlessAgain nowMs hready hphase)
    · exact .refl _ s

theorem prepareVpsExecution_edits (nowMs : Nat) :
    Edits (.prepareVps jobId owner nowMs) s (prepareVpsExecution s jobId owner nowMs).1 := by
  unfold prepareVpsExecution
  split
  · exact .refl _ s
  · rename_i job hjob
    obtain ⟨hl, rfl, hready⟩ := serverEligible_ready hjob
    split
    · rename_i hphase
      exact .update hl (.vpsFromPending nowMs hready hphase)
    · rename_i hphase
      exact .update hl (.vpsAgain nowMs hready hphase)
    · exact .refl _ s

theorem fallbackServerlessToVps_edits (fence : ServerExecutionFence) :
    Edits (.fallbackServerless fence jobId owner) s
      (fallbackServerlessToVps s fence jobId owner).1 := by
  unfold fallbackServerlessToVps
  split
  · exact .refl _ s
  · rename_i job hjob
    obtain ⟨hl, rfl, hready⟩ := serverEligible_ready hjob
    split
    · exact .refl _ s
    · rename_i hguard
      simp only [not_or, ne_eq, not_not] at hguard
      obtain ⟨hgeneration, hexecutor, hphase⟩ := hguard
      obtain ⟨generation, executor⟩ := fence
      subst hgeneration hexecutor
      exact .update hl (.serverlessToVps hready hphase)

theorem fallbackAgentToVps_edits (fence : ServerExecutionFence) (nowMs : Nat) :
    Edits (.fallbackAgent fence jobId owner nowMs) s
      (fallbackAgentToVps s fence jobId owner nowMs).1 := by
  unfold fallbackAgentToVps
  split
  · exact .refl _ s
  · rename_i job hjob
    obtain ⟨hl, rfl, hready⟩ := serverEligible_ready hjob
    split
    · exact .refl _ s
    · rename_i hguard
      simp only [not_or, ne_eq, not_not] at hguard
      obtain ⟨hgeneration, hexecutor, hphase⟩ := hguard
      obtain ⟨generation, executor⟩ := fence
      subst hgeneration hexecutor
      exact .update hl (.agentToVps nowMs hready hphase)

theorem requestNoCheckpointVpsRescue_edits :
    Edits (.requestRescue jobId owner) s (requestNoCheckpointVpsRescue s jobId owner).1 := by
  unfold requestNoCheckpointVpsRescue
  split
  · exact .refl _ s
  · rename_i job hjob
    obtain ⟨hown, hp⟩ := Option.filter_eq_some_iff.mp hjob
    obtain ⟨hl, rfl⟩ := ownedJob_eq_some hown
    simp only [Bool.and_eq_true, Bool.not_eq_true', Option.isNone_iff_eq_none,
      decide_eq_true_eq] at hp
    obtain ⟨⟨⟨⟨⟨⟨huncancelled, _⟩, hlive⟩, hbudget⟩, hnative⟩, hbrowser⟩, hagent⟩ := hp
    split
    · exact .refl _ s
    · rename_i hungranted
      exact .update hl (.rescue ⟨⟨hlive, huncancelled, hnative, hbrowser⟩, hbudget, hagent,
        by simpa using hungranted⟩)

theorem commitResponse_edits {job : ServerOwnedSolverJob} {response : List UInt8} {nowMs : Nat}
    (hl : s.serverJobs.lookup jobId = some job)
    (he : Edit op jobId job (completeJob response nowMs job)) :
    Edits op s (commitResponse s jobId response nowMs) := by
  have hupdate : Edits op s (s.updateJob jobId (completeJob response nowMs)) := .update hl he
  exact hupdate.andThen fun id job' h => lookup_of_pruneCompleted _ h

theorem completeServerJobFenced_edits (fence : ServerExecutionFence) (response : List UInt8)
    (nowMs : Nat) : Edits (.completeFenced fence jobId owner response nowMs) s
      (completeServerJobFenced s fence jobId owner response nowMs).1 := by
  unfold completeServerJobFenced
  split
  · exact .refl _ s
  · rename_i job hown
    obtain ⟨hl, rfl⟩ := ownedJob_eq_some hown
    split
    · exact .refl _ s
    · rename_i hguard
      simp only [not_or, Bool.not_eq_true, Option.isSome_eq_false_iff, Option.isNone_iff_eq_none,
        ne_eq, not_not] at hguard
      obtain ⟨huncancelled, hlive, hgeneration, hexecutor⟩ := hguard
      obtain ⟨generation, executor⟩ := fence
      subst hgeneration
      exact commitResponse_edits hl (.answeredFenced executor response nowMs hlive huncancelled
        hexecutor)

theorem completeServerJob_edits (response : List UInt8) (nowMs : Nat) :
    Edits (.complete jobId owner response nowMs) s
      (completeServerJob s jobId owner response nowMs).1 := by
  unfold completeServerJob
  split
  · exact .refl _ s
  · rename_i job hown
    obtain ⟨hl, rfl⟩ := ownedJob_eq_some hown
    split
    · exact .of_kept fun _ _ h => lookup_erase_eq_some h
    · rename_i huncancelled
      split
      · exact .refl _ s
      · rename_i hphase
        exact commitResponse_edits hl (.answered response nowMs (by simpa using huncancelled)
          (by simpa using hphase))

theorem cancelRecord_edits {record : Option ServerOwnedSolverJob}
    (he : ∀ job, record = some job → s.serverJobs.lookup jobId = some job ∧
      (job.response = none → Edit op jobId job (cancelServerJob job))) :
    Edits op s (s.cancelRecord jobId record) := by
  cases record with
  | none => exact .refl op s
  | some job =>
    obtain ⟨hl, hedit⟩ := he job rfl
    simp only [PoolState.cancelRecord]
    split
    · exact .of_kept fun _ _ h => lookup_erase_eq_some h
    · rename_i hresponse
      exact .update hl (hedit (by simpa using hresponse))

theorem cancelJob_edits : Edits (.cancel jobId) s (cancelJob s jobId).1 := by
  have hrecord : Edits (.cancel jobId) s (s.cancelRecord jobId (s.serverJobs.lookup jobId)) :=
    cancelRecord_edits fun job hl => ⟨hl, .cancelled⟩
  exact hrecord.andThen fun _ _ h => h

theorem cancelJobForOwner_edits :
    Edits (.cancelForOwner jobId owner) s (cancelJobForOwner s jobId owner).1 := by
  have hrecord : Edits (.cancelForOwner jobId owner) s
      (s.cancelRecord jobId (s.ownedJob jobId owner)) := by
    refine cancelRecord_edits fun job hown => ?_
    obtain ⟨hl, rfl⟩ := ownedJob_eq_some hown
    exact ⟨hl, .cancelledForOwner⟩
  unfold cancelJobForOwner
  simp only
  split
  · exact hrecord.andThen fun _ _ h => h
  · exact hrecord.andThen fun _ _ h => h

theorem requestBestEffortStopForOwner_edits :
    Edits (.bestEffortStop jobId owner) s (requestBestEffortStopForOwner s jobId owner).1 := by
  unfold requestBestEffortStopForOwner
  split
  · exact .refl _ s
  · rename_i job hjob
    obtain ⟨hown, hp⟩ := Option.filter_eq_some_iff.mp hjob
    obtain ⟨hl, rfl⟩ := ownedJob_eq_some hown
    simp only [Bool.and_eq_true, Bool.not_eq_true', Option.isNone_iff_eq_none] at hp
    have hrecord : Edits (.bestEffortStop jobId job.owner) s (s.updateJob jobId fun job =>
        { job with bestEffortStopRequested := true }) := .update hl (.bestEffort hp.1 hp.2)
    exact hrecord.andThen fun _ _ h => h

end Calls

/-- A claim removes answered records and may add one, for an id that then has none. -/
theorem claimServerJob_edits (s : PoolState) (jobId : String) (owner : SolverOwner)
    (request : ClaimRequest) (nowMs : Nat) :
    Edits (.claim jobId owner request nowMs) s (claimServerJob s jobId owner request nowMs).1 ∨
      ∃ scope fingerprint budgetSeconds runIndex,
        (pruneCompletedServerJobs s nowMs).serverJobs.lookup jobId = none ∧
        (claimServerJob s jobId owner request nowMs).1.serverJobs =
          (pruneCompletedServerJobs s nowMs).serverJobs.insert jobId
            (newServerJob owner scope fingerprint budgetSeconds runIndex
              (normalizeServerWatchdogBudgetMs request.watchdogBudgetMs) nowMs s.nextClaim) ∧
        (claimServerJob s jobId owner request nowMs).1.nextClaim = s.nextClaim + 1 := by
  have hprune : Edits (.claim jobId owner request nowMs) s (pruneCompletedServerJobs s nowMs) :=
    .of_kept fun _ _ h => lookup_of_pruneCompleted s h
  unfold claimServerJob
  simp only
  split
  · exact .inl hprune
  · rename_i hnone
    split
    · exact .inl hprune
    · exact .inl hprune
    · split
      · exact .inl hprune
      · split
        · exact .inl hprune
        · exact .inr ⟨_, _, _, _, hnone, rfl, rfl⟩

section Admissions
variable (config : Config) (s : PoolState) (jobId : String) (desiredWorkers : Nat)
  (owner : SolverOwner) (nowMs : Nat)

theorem tryAcquire_serverJobs :
    (config.tryAcquireForOwner s jobId desiredWorkers owner nowMs).1.serverJobs = s.serverJobs := by
  unfold Config.tryAcquireForOwner
  simp only
  split
  · rfl
  · split
    · rfl
    · split <;> rfl

theorem acquireOrEnqueue_serverJobs :
    (config.acquireOrEnqueueForOwner s jobId desiredWorkers owner nowMs).1.serverJobs =
      s.serverJobs := by
  unfold Config.acquireOrEnqueueForOwner
  simp only
  split
  · rfl
  · split
    · rfl
    · split
      · split
        · rfl
        · exact (admitFront_frame config _ jobId nowMs).1
      · split
        · rfl
        · exact (admitFront_frame config _ jobId nowMs).1

end Admissions

/-- A record that a claim has just made, for an id that had none left. -/
def Fresh (s : PoolState) (op : Op) (id : String) (job : ServerOwnedSolverJob) : Prop :=
  ∃ owner request nowMs scope fingerprint budgetSeconds runIndex,
    op = .claim id owner request nowMs ∧
    (pruneCompletedServerJobs s nowMs).serverJobs.lookup id = none ∧
    job = newServerJob owner scope fingerprint budgetSeconds runIndex
      (normalizeServerWatchdogBudgetMs request.watchdogBudgetMs) nowMs s.nextClaim ∧
    (claimServerJob s id owner request nowMs).1.nextClaim = s.nextClaim + 1

/-- Every record after a call is an edited one or a fresh one. -/
theorem step_edits (config : Config) (s : PoolState) (op : Op) {id : String}
    {job' : ServerOwnedSolverJob} (h : (step config s op).1.serverJobs.lookup id = some job') :
    (∃ job, s.serverJobs.lookup id = some job ∧ Edit op id job job') ∨ Fresh s op id job' := by
  cases op with
  | claim jobId owner request nowMs =>
    rcases claimServerJob_edits s jobId owner request nowMs with hedits | ⟨scope, fingerprint,
      budgetSeconds, runIndex, hnone, hinsert, hnext⟩
    · exact .inl (hedits id job' h)
    · have hl : (claimServerJob s jobId owner request nowMs).1.serverJobs.lookup id = some job' := h
      rw [hinsert] at hl
      rcases eq_or_ne id jobId with hid | hid
      · subst hid
        rw [AList.lookup_insert] at hl
        exact .inr ⟨owner, request, nowMs, scope, fingerprint, budgetSeconds, runIndex, rfl, hnone,
          (Option.some.inj hl).symm, hnext⟩
      · rw [AList.lookup_insert_ne hid] at hl
        exact .inl ⟨job', lookup_of_pruneCompleted s hl, .same _ id job'⟩
  | setBrowserWasmEligible jobId owner eligible =>
    refine .inl (setLiveJob_edits (fun job ho hlive _ => ?_) id job' h)
    exact ho ▸ .browserWasm eligible hlive
  | setBrowserCpSatEligible jobId owner eligible =>
    refine .inl (setLiveJob_edits (fun job ho hlive _ => ?_) id job' h)
    exact ho ▸ .browserCpSat eligible hlive
  | setAgentPreference jobId owner enabled =>
    refine .inl (setLiveJob_edits (fun job ho hlive hok => ?_) id job' h)
    refine ho ▸ .preference enabled hlive fun he => ?_
    simpa [he] using hok
  | setNativeAgentRequired jobId owner required =>
    refine .inl (setLiveJob_edits (fun job ho hlive hok => ?_) id job' h)
    cases required with
    | false => exact ho ▸ .nativeOff hlive
    | true =>
      simp only [Bool.true_and, Bool.not_eq_true', Bool.or_eq_false_iff,
        decide_eq_false_iff_not] at hok
      exact ho ▸ .nativeOn hlive hok.1 hok.2
  | setBrowserAgentRequired jobId owner required =>
    refine .inl (setLiveJob_edits (fun job ho hlive hok => ?_) id job' h)
    cases required with
    | false => exact ho ▸ .browserOff hlive
    | true =>
      simp only [Bool.true_and, Bool.not_eq_true', Bool.or_eq_false_iff,
        decide_eq_false_iff_not] at hok
      exact ho ▸ .browserOn hlive hok.1 hok.2
  | handoffForOwner owner => exact .inl (requestAgentHandoffForOwner_edits id job' h)
  | handoffForJob jobId owner => exact .inl (requestAgentHandoffForJob_edits id job' h)
  | handoffForTrustedWorker maxJobs nowMs =>
    exact .inl (requestAgentHandoffForTrustedWorker_edits maxJobs nowMs id job' h)
  | prepareAgent jobId owner nowMs => exact .inl (prepareAgentExecution_edits nowMs id job' h)
  | markAgentRunning fence jobId owner =>
    refine .inl (transitionExecution_edits (fun job ho hlive hc hphase hgeneration => ?_) id job' h)
    obtain ⟨generation, executor⟩ := fence
    subst ho hgeneration
    exact .agentRunning executor hlive hc hphase
  | prepareServerless jobId owner nowMs =>
    exact .inl (prepareServerlessExecution_edits nowMs id job' h)
  | markServerlessRunning fence jobId owner =>
    refine .inl (transitionExecution_edits (fun job ho hlive hc hphase hgeneration => ?_) id job' h)
    obtain ⟨generation, executor⟩ := fence
    subst ho hgeneration
    exact .serverlessRunning executor hlive hc hphase
  | fallbackServerless fence jobId owner =>
    exact .inl (fallbackServerlessToVps_edits fence id job' h)
  | prepareVps jobId owner nowMs => exact .inl (prepareVpsExecution_edits nowMs id job' h)
  | markVpsRunning fence jobId owner =>
    refine .inl (transitionExecution_edits (fun job ho hlive hc hphase hgeneration => ?_) id job' h)
    obtain ⟨generation, executor⟩ := fence
    subst ho hgeneration
    exact .vpsRunning executor hlive hc hphase
  | requestRescue jobId owner => exact .inl (requestNoCheckpointVpsRescue_edits id job' h)
  | fallbackAgent fence jobId owner nowMs =>
    exact .inl (fallbackAgentToVps_edits fence nowMs id job' h)
  | snapshot jobId owner => exact .inl ⟨job', h, .same _ id job'⟩
  | completeFenced fence jobId owner response nowMs =>
    exact .inl (completeServerJobFenced_edits fence response nowMs id job' h)
  | complete jobId owner response nowMs =>
    exact .inl (completeServerJob_edits response nowMs id job' h)
  | abandon jobId owner =>
    have hkept : Edits (.abandon jobId owner) s (abandonServerJob s jobId owner).1 := by
      unfold abandonServerJob
      split
      · exact .of_kept fun _ _ hl => lookup_erase_eq_some hl
      · exact .refl _ s
    exact .inl (hkept id job' h)
  | cancel jobId => exact .inl (cancelJob_edits id job' h)
  | cancelForOwner jobId owner => exact .inl (cancelJobForOwner_edits id job' h)
  | bestEffortStop jobId owner => exact .inl (requestBestEffortStopForOwner_edits id job' h)
  | tryAcquire jobId desiredWorkers owner nowMs =>
    have hsame := tryAcquire_serverJobs config s jobId desiredWorkers owner nowMs
    exact .inl ⟨job', hsame ▸ h, .same _ id job'⟩
  | acquireOrEnqueue jobId desiredWorkers owner nowMs =>
    have hsame := acquireOrEnqueue_serverJobs config s jobId desiredWorkers owner nowMs
    exact .inl ⟨job', hsame ▸ h, .same _ id job'⟩
  | touch jobId caller nowMs =>
    have hkept : Edits (.touch jobId caller nowMs) s (touchQueuedJob s jobId caller nowMs).1 := by
      unfold touchQueuedJob
      simp only
      split
      · exact .of_kept fun _ _ hl => hl
      · exact .of_kept fun _ _ hl => hl
    exact .inl (hkept id job' h)
  | pruneQueue nowMs => exact .inl ⟨job', h, .same _ id job'⟩
  | pruneCompleted nowMs => exact .inl ⟨job', lookup_of_pruneCompleted s h, .same _ id job'⟩
  | dropGuard guard =>
    have hkept : Edits (.dropGuard guard) s (dropGuard s guard) := by
      unfold dropGuard
      split
      · exact .of_kept fun _ _ hl => hl
      · exact .refl _ s
    exact .inl (hkept id job' h)

/-- An edit leaves the claim, the owner and the watchdog's budget. -/
theorem Edit.keeps {op : Op} {id : String} {job job' : ServerOwnedSolverJob}
    (h : Edit op id job job') : job'.claim = job.claim ∧ job'.owner = job.owner ∧
      job'.watchdogBudgetMs = job.watchdogBudgetMs := by
  have hwatch : ∀ (before : ServerOwnedSolverJob) (nowMs : Nat),
      (startServerWatchdog before nowMs).claim = before.claim ∧
      (startServerWatchdog before nowMs).owner = before.owner ∧
      (startServerWatchdog before nowMs).watchdogBudgetMs = before.watchdogBudgetMs := by
    intro before nowMs
    unfold startServerWatchdog
    split <;> exact ⟨rfl, rfl, rfl⟩
  cases h with
  | agentFromPending | agentFromHandoff | agentAgain | serverlessFromPending | serverlessAgain
  | vpsFromPending | vpsAgain => exact hwatch _ _
  | _ => exact ⟨rfl, rfl, rfl⟩

/-- The records' claims are below the next one. -/
def Numbered (s : PoolState) : Prop :=
  ∀ id job, s.serverJobs.lookup id = some job → job.claim < s.nextClaim

theorem Numbered.step {s : PoolState} (h : Numbered s) (config : Config) (op : Op) :
    Numbered (step config s op).1 := by
  intro id job' hl'
  rcases step_edits config s op hl' with ⟨job, hl, he⟩ | ⟨_, _, _, _, _, _, _, rfl, _, rfl, hnext⟩
  · rw [he.keeps.1]
    exact Nat.lt_of_lt_of_le (h id job hl) (step_passes config s op).claims
  · exact Nat.lt_of_lt_of_eq (Nat.lt_succ_self s.nextClaim) hnext.symm

theorem numbered_empty : Numbered .empty := fun _ _ h => by simp [PoolState.empty] at h

/-- A property of all records is kept by every call that keeps it for the records it edits. -/
theorem step_records {P : String → ServerOwnedSolverJob → Prop} {config : Config} {s : PoolState}
    {op : Op} (hfresh : ∀ id job, Fresh s op id job → P id job)
    (hedit : ∀ id job job', s.serverJobs.lookup id = some job → Edit op id job job' →
      P id job → P id job')
    (hp : ∀ id job, s.serverJobs.lookup id = some job → P id job) :
    ∀ id job, (step config s op).1.serverJobs.lookup id = some job → P id job := by
  intro id job' hl'
  rcases step_edits config s op hl' with ⟨job, hl, he⟩ | hf
  · exact hedit id job job' hl he (hp id job hl)
  · exact hfresh id job' hf

end TkbCherry.Pool
