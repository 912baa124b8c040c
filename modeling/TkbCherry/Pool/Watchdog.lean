import TkbCherry.Pool.Edits
import TkbCherry.Pool.Admission

/-!
# The watchdog of a claim

The deadline of a job is a start and a budget. The budget stays; the start is set once and
moved at most once, by the fallback that grants a requested rescue. A job with a granted
rescue has left the agents for good: `Settled` is what every later call keeps.
-/

namespace TkbCherry.Pool

set_option autoImplicit false

open Table

/-- The phases in which a job is on its way to an agent or held by one. -/
def ServerExecutionPhase.ofAgent (phase : ServerExecutionPhase) : Bool :=
  decide (phase = .handoffToAgent) || decide (phase = .agentWaiting) ||
    decide (phase = .agentRunning)

/-- A started deadline is another one. -/
def DeadlineMoved (job job' : ServerOwnedSolverJob) : Prop :=
  job.watchdogStartedMs.isSome = true ∧
    ¬ (job'.watchdogStartedMs = job.watchdogStartedMs ∧
      job'.watchdogBudgetMs = job.watchdogBudgetMs)

instance (job job' : ServerOwnedSolverJob) : Decidable (DeadlineMoved job job') :=
  inferInstanceAs (Decidable (_ ∧ _))

/-- The job is cancelled, answered, or on the VPS after a granted rescue. -/
inductive Settled (job : ServerOwnedSolverJob) : Prop where
  | cancelled (requested : job.cancelRequested = true) (phase : job.executionPhase = .cancelling)
  | answered (done : job.completedMs.isSome = true) (phase : job.executionPhase = .completed)
  | granted (grant : job.noCheckpointVpsRescueGranted = true)
      (started : job.watchdogStartedMs.isSome = true)
      (phase : job.executionPhase.executor = some .vps)

theorem Settled.not_ofAgent {job : ServerOwnedSolverJob} (h : Settled job) :
    job.executionPhase.ofAgent = false := by
  cases h with
  | cancelled requested phase => rw [phase]; rfl
  | answered done phase => rw [phase]; rfl
  | granted grant started phase =>
    cases hp : job.executionPhase <;> simp [hp, ServerExecutionPhase.executor] at phase <;> rfl

/-- A started watchdog is not started again. -/
theorem startServerWatchdog_started {job : ServerOwnedSolverJob}
    (h : job.watchdogStartedMs.isSome = true) (nowMs : Nat) :
    (startServerWatchdog job nowMs).watchdogStartedMs = job.watchdogStartedMs := by
  unfold startServerWatchdog
  rw [if_neg]
  simp [Option.isNone_eq_false_iff.mpr h]

theorem startServerWatchdog_granted (job : ServerOwnedSolverJob) (nowMs : Nat) :
    (startServerWatchdog job nowMs).noCheckpointVpsRescueGranted =
      job.noCheckpointVpsRescueGranted := by
  unfold startServerWatchdog
  split <;> rfl

theorem startServerWatchdog_requested (job : ServerOwnedSolverJob) (nowMs : Nat) :
    (startServerWatchdog job nowMs).noCheckpointVpsRescueRequested =
      job.noCheckpointVpsRescueRequested := by
  unfold startServerWatchdog
  split <;> rfl

section Settled
variable {op : Op} {id : String} {job job' : ServerOwnedSolverJob}

/-- A cancelled job has no executor to come back to. -/
theorem Edit.of_cancelled (he : Edit op id job job') (hc : job.cancelRequested = true)
    (hp : job.executionPhase = .cancelling) :
    job'.cancelRequested = true ∧ job'.executionPhase = .cancelling ∧
      job'.watchdogStartedMs = job.watchdogStartedMs := by
  have hopen : job.cancelRequested ≠ false := by simp [hc]
  cases he with
  | same | browserWasm | browserCpSat | preference | nativeOff | nativeOn | browserOff | browserOn =>
    exact ⟨hc, hp, rfl⟩
  | handoff trusted times hands allowed phase =>
    simp [hp, ServerExecutionPhase.takenByAgent] at phase
  | agentFromPending _ ready | agentFromHandoff _ ready | agentAgain _ ready =>
    exact absurd ready.uncancelled hopen
  | serverlessFromPending _ ready | serverlessAgain _ ready | vpsFromPending _ ready
  | vpsAgain _ ready | agentToVps _ ready => exact absurd ready.uncancelled hopen
  | serverlessToVps ready => exact absurd ready.uncancelled hopen
  | rescue ready => exact absurd ready.uncancelled hopen
  | agentRunning _ _ uncancelled | serverlessRunning _ _ uncancelled | vpsRunning _ _ uncancelled =>
    exact absurd uncancelled hopen
  | answeredFenced _ _ _ _ uncancelled => exact absurd uncancelled hopen
  | answered _ _ uncancelled => exact absurd uncancelled hopen
  | cancelled | cancelledForOwner => exact ⟨rfl, rfl, rfl⟩
  | bestEffort _ uncancelled => exact absurd uncancelled hopen

/-- An answered job can only be cancelled. -/
theorem Edit.of_answered (he : Edit op id job job') (hd : job.completedMs.isSome = true)
    (hp : job.executionPhase = .completed) :
    Settled job' ∧ job'.watchdogStartedMs = job.watchdogStartedMs := by
  have hlive : job.completedMs ≠ none := by
    intro hnone
    simp [hnone] at hd
  cases he with
  | same => exact ⟨.answered hd hp, rfl⟩
  | browserWasm _ live | browserCpSat _ live | preference _ live | nativeOff live | nativeOn live
  | browserOff live | browserOn live | bestEffort live => exact absurd live hlive
  | handoff trusted times hands allowed phase =>
    simp [hp, ServerExecutionPhase.takenByAgent] at phase
  | agentFromPending _ ready | agentFromHandoff _ ready | agentAgain _ ready =>
    exact absurd ready.live hlive
  | serverlessFromPending _ ready | serverlessAgain _ ready | vpsFromPending _ ready
  | vpsAgain _ ready | agentToVps _ ready => exact absurd ready.live hlive
  | serverlessToVps ready => exact absurd ready.live hlive
  | rescue ready => exact absurd ready.live hlive
  | agentRunning _ live | serverlessRunning _ live | vpsRunning _ live => exact absurd live hlive
  | answeredFenced _ _ _ live => exact absurd live hlive
  | answered _ _ _ phase => simp [hp] at phase
  | cancelled | cancelledForOwner => exact ⟨.cancelled rfl rfl, rfl⟩

/-- A job with a granted rescue runs on the VPS until it is answered or cancelled. -/
theorem Edit.of_granted (he : Edit op id job job')
    (hg : job.noCheckpointVpsRescueGranted = true) (hs : job.watchdogStartedMs.isSome = true)
    (hp : job.executionPhase.executor = some .vps) :
    Settled job' ∧ job'.watchdogStartedMs = job.watchdogStartedMs := by
  have hungranted : job.noCheckpointVpsRescueGranted ≠ false := by simp [hg]
  cases he with
  | same | browserWasm | browserCpSat | preference | nativeOff | browserOff | bestEffort =>
    exact ⟨.granted hg hs hp, rfl⟩
  | nativeOn _ vps | browserOn _ vps => exact absurd hp vps
  | handoff trusted times hands allowed phase =>
    simp [handoffAllowed, hg] at allowed
  | agentFromPending _ ready | agentFromHandoff _ ready | agentAgain _ ready =>
    exact absurd ready.ungranted hungranted
  | serverlessFromPending _ _ phase | serverlessAgain _ _ phase | vpsFromPending _ _ phase =>
    simp [phase, ServerExecutionPhase.executor] at hp
  | vpsAgain nowMs ready phase =>
    have hsame : (startServerWatchdog { job with trustedWorkerEligible := false }
        nowMs).watchdogStartedMs = job.watchdogStartedMs := by
      apply startServerWatchdog_started
      exact hs
    refine ⟨.granted ?_ ?_ ?_, hsame⟩
    · rw [startServerWatchdog_granted]
      exact hg
    · rw [hsame]
      exact hs
    · rw [startServerWatchdog_phase]
      exact hp
  | serverlessToVps _ phase | agentToVps _ _ phase => simp [phase] at hp
  | rescue ready => exact absurd ready.ungranted hungranted
  | agentRunning _ _ _ phase | serverlessRunning _ _ _ phase =>
    simp [phase, ServerExecutionPhase.executor] at hp
  | vpsRunning => exact ⟨.granted hg hs rfl, rfl⟩
  | answeredFenced | answered => exact ⟨.answered rfl rfl, rfl⟩
  | cancelled | cancelledForOwner => exact ⟨.cancelled rfl rfl, rfl⟩

theorem Edit.settled (he : Edit op id job job') (h : Settled job) :
    Settled job' ∧ job'.watchdogStartedMs = job.watchdogStartedMs := by
  cases h with
  | cancelled requested phase =>
    obtain ⟨hc, hp, hs⟩ := he.of_cancelled requested phase
    exact ⟨.cancelled hc hp, hs⟩
  | answered done phase => exact he.of_answered done phase
  | granted grant started phase => exact he.of_granted grant started phase

/-- The one edit that moves a started deadline: the fallback of an agent with a rescue that
was requested and not yet granted. -/
structure Rescued (op : Op) (id : String) (job job' : ServerOwnedSolverJob) : Prop where
  requested : job.noCheckpointVpsRescueRequested = true
  ungranted : job.noCheckpointVpsRescueGranted = false
  call : ∃ fence nowMs, op = .fallbackAgent fence id job.owner nowMs ∧
    job'.watchdogStartedMs = some nowMs
  granted : job'.noCheckpointVpsRescueGranted = true
  settled : Settled job'

theorem Edit.rescued_of_grant (he : Edit op id job job')
    (hbefore : job.noCheckpointVpsRescueGranted = false)
    (hafter : job'.noCheckpointVpsRescueGranted = true) : Rescued op id job job' := by
  cases he with
  | agentToVps nowMs ready phase =>
    cases hr : job.noCheckpointVpsRescueRequested with
    | false => simp [fallbackAgentJob, hr, hbefore] at hafter
    | true =>
      have hstarted : (fallbackAgentJob nowMs job).watchdogStartedMs = some nowMs := by
        simp [fallbackAgentJob, hr, hbefore]
      refine ⟨hr, hbefore, ⟨_, nowMs, rfl, hstarted⟩, hafter, .granted hafter ?_ rfl⟩
      rw [hstarted]
      rfl
  | agentFromPending | agentFromHandoff | agentAgain | serverlessFromPending | serverlessAgain
  | vpsFromPending | vpsAgain =>
    rw [startServerWatchdog_granted] at hafter
    simp [hbefore] at hafter
  | _ => simp_all [handoffJob, resetForAgent, completeJob, cancelServerJob]

theorem Edit.rescued_of_moved (he : Edit op id job job') (hm : DeadlineMoved job job') :
    Rescued op id job job' := by
  obtain ⟨hsome, hmoved⟩ := hm
  have hbudget := he.keeps.2.2
  have hstarted : job'.watchdogStartedMs ≠ job.watchdogStartedMs := fun h => hmoved ⟨h, hbudget⟩
  cases he with
  | agentToVps nowMs ready phase =>
    have hboth : job.noCheckpointVpsRescueRequested = true ∧
        job.noCheckpointVpsRescueGranted = false := by
      by_contra hnot
      refine hstarted ?_
      simp only [fallbackAgentJob]
      rw [if_neg]
      simpa using hnot
    exact (Edit.agentToVps nowMs ready phase).rescued_of_grant hboth.2
      (by simp [fallbackAgentJob, hboth.1, hboth.2])
  | agentFromPending | agentFromHandoff | agentAgain | serverlessFromPending | serverlessAgain
  | vpsFromPending | vpsAgain =>
    refine absurd ?_ hstarted
    apply startServerWatchdog_started
    exact hsome
  | _ => exact absurd rfl hstarted

/-- A rescue is requested by its own call only. -/
theorem Edit.requested (he : Edit op id job job')
    (hbefore : job.noCheckpointVpsRescueRequested = false)
    (hafter : job'.noCheckpointVpsRescueRequested = true) : op = .requestRescue id job.owner := by
  cases he with
  | rescue => rfl
  | agentFromPending | agentFromHandoff | agentAgain | serverlessFromPending | serverlessAgain
  | vpsFromPending | vpsAgain =>
    rw [startServerWatchdog_requested] at hafter
    simp [hbefore] at hafter
  | agentToVps => simp [fallbackAgentJob] at hafter
  | _ => simp_all [handoffJob, resetForAgent, completeJob, cancelServerJob]

end Settled

/-! ### Runs -/

/-- The record of one claim, while it is there. -/
def recordOf (s : PoolState) (id : String) (claim : Nat) : Option ServerOwnedSolverJob :=
  (s.serverJobs.lookup id).filter fun job => decide (job.claim = claim)

theorem recordOf_eq_some {s : PoolState} {id : String} {claim : Nat} {job : ServerOwnedSolverJob} :
    recordOf s id claim = some job ↔ s.serverJobs.lookup id = some job ∧ job.claim = claim := by
  unfold recordOf
  rw [Option.filter_eq_some_iff, decide_eq_true_iff]

/-- A call moves the started deadline of a claim. -/
def moves (config : Config) (s : PoolState) (op : Op) (id : String) (claim : Nat) : Bool :=
  (recordOf s id claim).any fun job => (recordOf (step config s op).1 id claim).any fun job' =>
    decide (DeadlineMoved job job')

/-- How often a run moves the started deadline of a claim. -/
def deadlineMoves (config : Config) (id : String) (claim : Nat) : PoolState → List Op → Nat
  | _, [] => 0
  | s, op :: ops => (if moves config s op id claim then 1 else 0) +
      deadlineMoves config id claim (step config s op).1 ops

/-- The record that a call leaves under a claim is an edit of the claim's record before it. -/
theorem recordOf_step {config : Config} {s : PoolState} (op : Op) {id : String} {claim : Nat}
    (hclaim : claim < s.nextClaim) {job' : ServerOwnedSolverJob}
    (h : recordOf (step config s op).1 id claim = some job') :
    ∃ job, recordOf s id claim = some job ∧ Edit op id job job' := by
  obtain ⟨hl', hc⟩ := recordOf_eq_some.mp h
  rcases step_edits config s op hl' with ⟨job, hl, he⟩ | ⟨_, _, _, _, _, _, _, _, _, rfl, _⟩
  · exact ⟨job, recordOf_eq_some.mpr ⟨hl, he.keeps.1.symm.trans hc⟩, he⟩
  · have hnew : s.nextClaim = claim := hc
    omega

/-- The claim's record, if it is still there, is settled. -/
structure Spent (s : PoolState) (id : String) (claim : Nat) : Prop where
  claim_lt : claim < s.nextClaim
  settled : ∀ job, recordOf s id claim = some job → Settled job

theorem Spent.step {config : Config} {s : PoolState} {id : String} {claim : Nat}
    (h : Spent s id claim) (op : Op) : Spent (step config s op).1 id claim where
  claim_lt := Nat.lt_of_lt_of_le h.claim_lt (step_passes config s op).claims
  settled := by
    intro job' hr'
    obtain ⟨job, hr, he⟩ := recordOf_step op h.claim_lt hr'
    exact (he.settled (h.settled job hr)).1

theorem moves_iff {config : Config} {s : PoolState} {op : Op} {id : String} {claim : Nat} :
    moves config s op id claim = true ↔ ∃ job job', recordOf s id claim = some job ∧
      recordOf (step config s op).1 id claim = some job' ∧ DeadlineMoved job job' := by
  unfold moves
  simp only [Option.any_eq_true, decide_eq_true_eq]
  constructor
  · rintro ⟨job, hr, job', hr', hm⟩
    exact ⟨job, job', hr, hr', hm⟩
  · rintro ⟨job, job', hr, hr', hm⟩
    exact ⟨job, hr, job', hr', hm⟩

theorem Numbered.claim_lt {s : PoolState} (hn : Numbered s) {id : String} {claim : Nat}
    {job : ServerOwnedSolverJob} (h : recordOf s id claim = some job) : claim < s.nextClaim := by
  obtain ⟨hl, rfl⟩ := recordOf_eq_some.mp h
  exact hn id job hl

/-- A call that moves a deadline is a granted rescue. -/
theorem rescued_of_moves {config : Config} {s : PoolState} (hn : Numbered s) {op : Op}
    {id : String} {claim : Nat} {job job' : ServerOwnedSolverJob}
    (hr : recordOf s id claim = some job) (hr' : recordOf (step config s op).1 id claim = some job')
    (hm : DeadlineMoved job job') : Rescued op id job job' := by
  obtain ⟨job₁, hr₁, he⟩ := recordOf_step op (hn.claim_lt hr) hr'
  obtain rfl := Option.some.inj (hr.symm.trans hr₁)
  exact he.rescued_of_moved hm

theorem deadlineMoves_of_spent {config : Config} {id : String} {claim : Nat} (ops : List Op) :
    ∀ s : PoolState, Numbered s → Spent s id claim → deadlineMoves config id claim s ops = 0 := by
  induction ops with
  | nil => exact fun _ _ _ => rfl
  | cons op ops ih =>
    intro s hn hspent
    have hstay : moves config s op id claim = false := by
      rw [Bool.eq_false_iff]
      intro hmoves
      obtain ⟨job, job', hr, hr', hm⟩ := moves_iff.mp hmoves
      obtain ⟨job₁, hr₁, he⟩ := recordOf_step op hspent.claim_lt hr'
      obtain rfl := Option.some.inj (hr.symm.trans hr₁)
      have hsame := (he.settled (hspent.settled job hr)).2
      exact hm.2 ⟨hsame, he.keeps.2.2⟩
    rw [deadlineMoves, hstay, ih _ (hn.step config op) (hspent.step op)]
    rfl

/-- Before the first move at most one is left, after it none. -/
theorem deadlineMoves_le_one {config : Config} {id : String} {claim : Nat} (ops : List Op) :
    ∀ s : PoolState, Numbered s → deadlineMoves config id claim s ops ≤ 1 := by
  induction ops with
  | nil => exact fun _ _ => Nat.zero_le _
  | cons op ops ih =>
    intro s hn
    rw [deadlineMoves]
    cases hmoves : moves config s op id claim with
    | false =>
      have hrest := ih _ (hn.step config op)
      simpa using hrest
    | true =>
      obtain ⟨job, job', hr, hr', hm⟩ := moves_iff.mp hmoves
      have hspent : Spent (step config s op).1 id claim := by
        refine ⟨(hn.step config op).claim_lt hr', fun job'' hr'' => ?_⟩
        obtain rfl := Option.some.inj (hr'.symm.trans hr'')
        exact (rescued_of_moves hn hr hr' hm).settled
      rw [deadlineMoves_of_spent ops _ (hn.step config op) hspent]
      simp

/-- From a settled record on, the claim keeps its deadline and stays away from the agents. -/
theorem settled_run {config : Config} {s t : PoolState} {ops : List Op} {id : String}
    {job : ServerOwnedSolverJob} (hn : Numbered s)
    (h : Transition.Run config.Steps s ops t) (hl : s.serverJobs.lookup id = some job)
    (hsettled : Settled job) : ∀ job', t.serverJobs.lookup id = some job' → job'.claim = job.claim →
      Settled job' ∧ job'.watchdogStartedMs = job.watchdogStartedMs ∧
        job'.watchdogBudgetMs = job.watchdogBudgetMs := by
  have hboth : Numbered t ∧ job.claim < t.nextClaim ∧
      ∀ job', recordOf t id job.claim = some job' → Settled job' ∧
        job'.watchdogStartedMs = job.watchdogStartedMs ∧
          job'.watchdogBudgetMs = job.watchdogBudgetMs := by
    refine h.invariant (I := fun t => Numbered t ∧ job.claim < t.nextClaim ∧
      ∀ job', recordOf t id job.claim = some job' → Settled job' ∧
        job'.watchdogStartedMs = job.watchdogStartedMs ∧
          job'.watchdogBudgetMs = job.watchdogBudgetMs) ?_ ?_
    · rintro s op t ⟨hn, hlt, hrecord⟩ rfl
      refine ⟨hn.step config op, Nat.lt_of_lt_of_le hlt (step_passes config s op).claims,
        fun job'' hr'' => ?_⟩
      obtain ⟨job', hr', he⟩ := recordOf_step op hlt hr''
      obtain ⟨hs, hstarted, hbudget⟩ := hrecord job' hr'
      obtain ⟨hs', hstarted'⟩ := he.settled hs
      exact ⟨hs', hstarted'.trans hstarted, he.keeps.2.2.trans hbudget⟩
    · refine ⟨hn, hn id job hl, fun job' hr' => ?_⟩
      obtain rfl := Option.some.inj (hl.symm.trans (recordOf_eq_some.mp hr').1)
      exact ⟨hsettled, rfl, rfl⟩
  intro job' hl' hclaim
  exact hboth.2.2 job' (recordOf_eq_some.mpr ⟨hl', hclaim⟩)

/-- No record has a budget above the maximum. -/
def Budgeted (s : PoolState) : Prop := ∀ id job, s.serverJobs.lookup id = some job →
  ∀ budget, job.watchdogBudgetMs = some budget → budget ≤ maxServerWatchdogMs

theorem Budgeted.step {s : PoolState} (h : Budgeted s) (config : Config) (op : Op) :
    Budgeted (step config s op).1 := by
  refine step_records (P := fun _ job => ∀ budget, job.watchdogBudgetMs = some budget →
    budget ≤ maxServerWatchdogMs) ?_ ?_ h
  · rintro id job ⟨_, request, _, _, _, _, _, _, _, rfl, _⟩ budget hbudget
    have hmap : normalizeServerWatchdogBudgetMs request.watchdogBudgetMs = some budget := hbudget
    obtain ⟨asked, _, rfl⟩ := Option.map_eq_some_iff.mp hmap
    exact Nat.min_le_right _ _
  · intro id job job' _ he hjob budget hbudget
    exact hjob budget (he.keeps.2.2.symm.trans hbudget)

theorem numbered_run {config : Config} {ops : List Op} {s : PoolState}
    (h : Transition.Run config.Steps .empty ops s) : Numbered s :=
  h.invariant (fun {s op t} hs (hst : (step config s op).1 = t) => hst ▸ hs.step config op)
    numbered_empty

/-- In every run a claim's started deadline moves at most once; it is moved, and a rescue is
granted, only by the fallback of an agent whose rescue was requested; from then on the claim
keeps its deadline and is in no agent phase; and no budget is above the maximum. -/
theorem watchdog_once (config : Config) (ops : List Op) (s : PoolState)
    (h : Transition.Run config.Steps .empty ops s) :
    Budgeted s ∧ (∀ id claim, deadlineMoves config id claim .empty ops ≤ 1) ∧
    ∀ op id job job', s.serverJobs.lookup id = some job →
      (step config s op).1.serverJobs.lookup id = some job' → job'.claim = job.claim →
      (job.noCheckpointVpsRescueRequested = false → job'.noCheckpointVpsRescueRequested = true →
        op = .requestRescue id job.owner) ∧
      (DeadlineMoved job job' → Rescued op id job job') ∧
      (job.noCheckpointVpsRescueGranted = false → job'.noCheckpointVpsRescueGranted = true →
        Rescued op id job job' ∧ ∀ ops' t, Transition.Run config.Steps (step config s op).1 ops' t →
          ∀ later, t.serverJobs.lookup id = some later → later.claim = job.claim →
            later.watchdogStartedMs = job'.watchdogStartedMs ∧
            later.watchdogBudgetMs = job'.watchdogBudgetMs ∧
            later.executionPhase.ofAgent = false) := by
  have hn := numbered_run h
  have hbudgeted : Budgeted s := h.invariant
    (fun {s op t} hs (hst : (step config s op).1 = t) => hst ▸ Budgeted.step hs config op)
    fun _ _ hl => by simp [PoolState.empty] at hl
  refine ⟨hbudgeted, fun id claim => deadlineMoves_le_one ops _ numbered_empty, ?_⟩
  intro op id job job' hl hl' hclaim
  have hr' : recordOf (step config s op).1 id job.claim = some job' :=
    recordOf_eq_some.mpr ⟨hl', hclaim⟩
  obtain ⟨job₁, hr₁, he⟩ := recordOf_step op (hn id job hl) hr'
  obtain rfl := Option.some.inj (hl.symm.trans (recordOf_eq_some.mp hr₁).1)
  refine ⟨he.requested, he.rescued_of_moved, fun hbefore hafter => ?_⟩
  have hrescued := he.rescued_of_grant hbefore hafter
  refine ⟨hrescued, fun ops' t hrun later hlater hsame => ?_⟩
  obtain ⟨hsettled, hstarted, hbudget⟩ := settled_run (hn.step config op) hrun hl' hrescued.settled
    later hlater (hsame.trans hclaim.symm)
  exact ⟨hstarted, hbudget, hsettled.not_ofAgent⟩

/-- A job whose agent shows no checkpoint: the rescue moves its deadline, the second request and
the second fallback change nothing. -/
def rescueTwice : List Op :=
  let owner : SolverOwner := ⟨"s1", "admin"⟩
  [.claim "a" owner { watchdogBudgetMs := some 60000 } 0, .prepareAgent "a" owner 10,
    .requestRescue "a" owner, .fallbackAgent ⟨1, .agent⟩ "a" owner 500,
    .requestRescue "a" owner, .fallbackAgent ⟨1, .agent⟩ "a" owner 900]

theorem watchdog_once_rescueTwice : deadlineMoves ⟨3, 8, 2, 6⟩ "a" 0 .empty rescueTwice ≤ 1 :=
  (watchdog_once ⟨3, 8, 2, 6⟩ rescueTwice _ (Transition.Run.ofFn_foldl _ _ rescueTwice)).2.1 "a" 0

example : deadlineMoves ⟨3, 8, 2, 6⟩ "a" 0 .empty rescueTwice = 1 := by decide

end TkbCherry.Pool
