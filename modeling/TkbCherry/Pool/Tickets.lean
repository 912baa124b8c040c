import TkbCherry.Pool.Queue

/-!
# Tickets and their jobs

A ticket should wait only for a job that an acquisition can still admit. Handoffs, answers and
cancellations take the ticket away with the job; the preparations for an agent and for Cloud
Run do not.
-/

namespace TkbCherry.Pool

set_option autoImplicit false

open Table

/-- A job that an acquisition can still admit. -/
structure Admissible (job : ServerOwnedSolverJob) : Prop where
  uncancelled : job.cancelRequested = false
  unanswered : job.response = none
  phase : job.executionPhase.takenByAgent = true

/-- No ticket waits for a job of its owner that cannot be admitted. -/
def TicketsLive (s : PoolState) : Prop :=
  ∀ queued ∈ s.queue, ∀ job, s.serverJobs.lookup queued.jobId = some job →
    job.owner = queued.owner → Admissible job

/-- A pending job is given to an agent or to Cloud Run only while its owner has no ticket for it. -/
def SparesTickets (s : PoolState) : Op → Prop
  | .prepareAgent jobId owner _ => ∀ job, s.ownedJob jobId owner = some job → AgentReady job →
      job.executionPhase = .pending → ∀ queued ∈ s.queue, queued.jobId = jobId →
        queued.owner ≠ owner
  | .prepareServerless jobId owner _ => ∀ job, s.ownedJob jobId owner = some job →
      ServerReady job → job.executionPhase = .pending → ∀ queued ∈ s.queue,
        queued.jobId = jobId → queued.owner ≠ owner
  | _ => True

/-- Only a completed job has a response. -/
def Unanswered (s : PoolState) : Prop :=
  ∀ id job, s.serverJobs.lookup id = some job → job.executionPhase ≠ .completed →
    job.response = none

theorem startServerWatchdog_response (job : ServerOwnedSolverJob) (nowMs : Nat) :
    (startServerWatchdog job nowMs).response = job.response := by
  unfold startServerWatchdog
  split <;> rfl

theorem takenByAgent_ne_completed {phase : ServerExecutionPhase} (h : phase.takenByAgent = true) :
    phase ≠ .completed := by
  rintro rfl
  simp [ServerExecutionPhase.takenByAgent] at h

theorem executor_ne_completed {phase : ServerExecutionPhase} {executor : ServerExecutor}
    (h : phase.executor = some executor) : phase ≠ .completed := by
  rintro rfl
  simp [ServerExecutionPhase.executor] at h

theorem Edit.unanswered {op : Op} {id : String} {job job' : ServerOwnedSolverJob}
    (he : Edit op id job job') (h : job.executionPhase ≠ .completed → job.response = none)
    (hp : job'.executionPhase ≠ .completed) : job'.response = none := by
  cases he with
  | same | browserWasm | browserCpSat | preference | nativeOff | nativeOn | browserOff | browserOn
  | rescue | bestEffort => exact h hp
  | handoff _ _ _ _ phase => exact h (takenByAgent_ne_completed phase)
  | agentFromPending _ _ phase | agentFromHandoff _ _ phase | agentAgain _ _ phase
  | serverlessFromPending _ _ phase | serverlessAgain _ _ phase | vpsFromPending _ _ phase
  | vpsAgain _ _ phase =>
    rw [startServerWatchdog_response]
    exact h (by simp [phase])
  | agentRunning _ _ _ phase | serverlessRunning _ _ _ phase | vpsRunning _ _ _ phase =>
    exact h (by simp [phase])
  | serverlessToVps _ phase | agentToVps _ _ phase => exact h (executor_ne_completed phase)
  | answeredFenced | answered => exact absurd rfl hp
  | cancelled unanswered | cancelledForOwner unanswered => exact unanswered

theorem Unanswered.step {s : PoolState} (h : Unanswered s) (config : Config) (op : Op) :
    Unanswered (step config s op).1 := by
  refine step_records (P := fun _ job => job.executionPhase ≠ .completed → job.response = none)
    ?_ ?_ h
  · rintro id job ⟨_, _, _, _, _, _, _, _, _, rfl, _⟩ _
    rfl
  · intro id job job' _ he hjob hp
    exact he.unanswered hjob hp

/-- The calls that take a job's ticket along. -/
def Op.clears : Op → Bool
  | .handoffForOwner _ => true
  | .handoffForJob _ _ => true
  | .handoffForTrustedWorker _ _ => true
  | .completeFenced _ _ _ _ _ => true
  | .complete _ _ _ _ => true
  | .cancel _ => true
  | .cancelForOwner _ _ => true
  | _ => false

/-- An edit of an admissible job leaves it admissible, unless the call takes the ticket along or
a pending job goes to an agent or to Cloud Run. -/
theorem Edit.admissible {op : Op} {id : String} {job job' : ServerOwnedSolverJob}
    (he : Edit op id job job') (h : Admissible job) (hclears : op.clears = false) :
    Admissible job' ∨
      (job.executionPhase = .pending ∧ ∃ nowMs,
        (op = .prepareAgent id job.owner nowMs ∧ AgentReady job) ∨
        (op = .prepareServerless id job.owner nowMs ∧ ServerReady job)) := by
  have hphase := h.phase
  cases he with
  | same | browserWasm | browserCpSat | preference | nativeOff | nativeOn | browserOff | browserOn
  | bestEffort => exact .inl ⟨h.uncancelled, h.unanswered, h.phase⟩
  | handoff trusted times hands allowed phase =>
    cases op <;> simp_all [Op.handsOff, Op.clears]
  | agentFromPending nowMs ready phase => exact .inr ⟨phase, nowMs, .inl ⟨rfl, ready⟩⟩
  | serverlessFromPending nowMs ready phase => exact .inr ⟨phase, nowMs, .inr ⟨rfl, ready⟩⟩
  | agentFromHandoff _ _ phase | agentAgain _ _ phase | serverlessAgain _ _ phase =>
    simp [phase, ServerExecutionPhase.takenByAgent] at hphase
  | agentRunning _ _ _ phase | serverlessRunning _ _ _ phase =>
    simp [phase, ServerExecutionPhase.takenByAgent] at hphase
  | serverlessToVps _ phase | agentToVps _ _ phase =>
    cases hp : job.executionPhase <;>
      simp [hp, ServerExecutionPhase.executor, ServerExecutionPhase.takenByAgent] at phase hphase
  | rescue ready =>
    have hagent := ready.agent
    cases hp : job.executionPhase <;>
      simp [hp, ServerExecutionPhase.executor, ServerExecutionPhase.takenByAgent] at hagent hphase
  | vpsFromPending nowMs ready phase =>
    refine .inl ⟨?_, ?_, ?_⟩
    · unfold startServerWatchdog
      split <;> exact h.uncancelled
    · rw [startServerWatchdog_response]
      exact h.unanswered
    · rw [startServerWatchdog_phase]
      rfl
  | vpsAgain nowMs ready phase =>
    refine .inl ⟨?_, ?_, ?_⟩
    · unfold startServerWatchdog
      split <;> exact h.uncancelled
    · rw [startServerWatchdog_response]
      exact h.unanswered
    · rw [startServerWatchdog_phase]
      exact h.phase
  | vpsRunning => exact .inl ⟨h.uncancelled, h.unanswered, rfl⟩
  | answeredFenced | answered | cancelled | cancelledForOwner => simp [Op.clears] at hclears

/-! ### Tickets that are taken along -/

/-- A ticket that is left after the call is of another id, or its record is as it was. -/
def Cleared (s s' : PoolState) : Prop :=
  ∀ queued ∈ s'.queue, ∀ job, s'.serverJobs.lookup queued.jobId = some job →
    job.owner = queued.owner → s.serverJobs.lookup queued.jobId = some job

section Clears
variable {s : PoolState} {jobId : String} {owner : SolverOwner}

theorem Cleared.refl (s : PoolState) : Cleared s s := fun _ _ _ hl _ => hl

theorem handoffAll_cleared (jobIds : List String) (trusted : Bool) :
    Cleared s (handoffAll s jobIds trusted) := by
  intro queued hin job hl _
  have hout : queued.jobId ∉ jobIds := by simpa using (List.mem_filter.mp hin).2
  have hlookup := (lookup_handoffs trusted jobIds s queued.jobId).symm.trans hl
  rw [List.count_eq_zero.mpr hout] at hlookup
  simpa using hlookup

theorem commitResponse_cleared (response : List UInt8) (nowMs : Nat) :
    Cleared s (commitResponse s jobId response nowMs) := by
  intro queued hin job hl _
  have hne : queued.jobId ≠ jobId := by simpa using (List.mem_filter.mp hin).2
  exact (lookup_modify_ne hne _ s.serverJobs).symm.trans (lookup_of_pruneCompleted _ hl)

theorem cancelRecord_ne {record : Option ServerOwnedSolverJob} {id : String} (hne : id ≠ jobId)
    {job : ServerOwnedSolverJob}
    (hl : (s.cancelRecord jobId record).serverJobs.lookup id = some job) :
    s.serverJobs.lookup id = some job := by
  cases record with
  | none => exact hl
  | some before =>
    simp only [PoolState.cancelRecord] at hl
    split at hl
    · exact lookup_erase_eq_some hl
    · exact (lookup_modify_ne hne _ s.serverJobs).symm.trans hl

theorem cancelJob_cleared : Cleared s (cancelJob s jobId).1 := by
  intro queued hin job hl _
  have hne : queued.jobId ≠ jobId := by simpa using (List.mem_filter.mp hin).2
  exact cancelRecord_ne hne hl

/-- A ticket of another owner may stay, and the record is then not the caller's. -/
theorem cancelJobForOwner_cleared : Cleared s (cancelJobForOwner s jobId owner).1 := by
  intro queued hin job hl howner
  have hrecord : (s.cancelRecord jobId (s.ownedJob jobId owner)).serverJobs.lookup queued.jobId =
      some job := by
    unfold cancelJobForOwner at hl
    simp only at hl
    split at hl <;> exact hl
  have hkeep : ¬ (queued.jobId = jobId ∧ queued.owner = owner) := by
    have hp := (List.mem_filter.mp hin).2
    rintro ⟨hid, howned⟩
    simp [hid, howned] at hp
  rcases eq_or_ne queued.jobId jobId with hid | hne
  · cases hown : s.ownedJob jobId owner with
    | none =>
      rw [hown] at hrecord
      exact hrecord
    | some before =>
      obtain ⟨hbefore, hsame⟩ := ownedJob_eq_some hown
      rw [hown, PoolState.cancelRecord] at hrecord
      split at hrecord
      · exact lookup_erase_eq_some hrecord
      · have hmap := (lookup_modify_self jobId cancelServerJob s.serverJobs)
        rw [hbefore] at hmap
        rw [hid] at hrecord
        obtain rfl := Option.some.inj (hmap.symm.trans hrecord)
        exact absurd ⟨hid, howner.symm.trans hsame⟩ hkeep
  · exact cancelRecord_ne hne hrecord

end Clears

theorem step_cleared (config : Config) (s : PoolState) {op : Op} (h : op.clears = true) :
    Cleared s (step config s op).1 := by
  cases op with
  | handoffForOwner owner => exact handoffAll_cleared _ false
  | handoffForJob jobId owner =>
    simp only [step, requestAgentHandoffForJob]
    split
    · exact .refl s
    · split
      · exact handoffAll_cleared _ false
      · exact .refl s
  | handoffForTrustedWorker maxJobs nowMs =>
    simp only [step, requestAgentHandoffForTrustedWorker]
    split
    · exact .refl s
    · exact handoffAll_cleared (s := pruneStaleQueue s nowMs) _ true
  | completeFenced fence jobId owner response nowMs =>
    simp only [step, completeServerJobFenced]
    split
    · exact .refl s
    · split
      · exact .refl s
      · exact commitResponse_cleared response nowMs
  | complete jobId owner response nowMs =>
    simp only [step, completeServerJob]
    split
    · exact .refl s
    · split
      · exact fun queued _ job hl _ => lookup_erase_eq_some hl
      · split
        · exact .refl s
        · exact commitResponse_cleared response nowMs
  | cancel jobId => exact cancelJob_cleared
  | cancelForOwner jobId owner => exact cancelJobForOwner_cleared
  | _ => simp [Op.clears] at h

/-! ### Runs -/

theorem unblocked_of_admissible {s : PoolState} {jobId : String} {owner : SolverOwner}
    (h : ∀ job, s.serverJobs.lookup jobId = some job → job.owner = owner → Admissible job) :
    Config.blockedByServerJob s jobId owner = false := by
  unfold Config.blockedByServerJob
  rw [Bool.eq_false_iff]
  intro hany
  obtain ⟨job, hown, hp⟩ := (Option.any_eq_true _ _).mp hany
  obtain ⟨hl, howner⟩ := ownedJob_eq_some hown
  have hadmissible := h job hl howner
  simp [hadmissible.uncancelled, hadmissible.phase] at hp

theorem admissible_of_unblocked {s : PoolState} (hu : Unanswered s) {jobId : String}
    {owner : SolverOwner} (h : Config.blockedByServerJob s jobId owner = false)
    {job : ServerOwnedSolverJob} (hl : s.serverJobs.lookup jobId = some job)
    (howner : job.owner = owner) : Admissible job := by
  have hown : s.ownedJob jobId owner = some job := by
    simp [PoolState.ownedJob, hl, howner]
  simp only [Config.blockedByServerJob, hown, Option.any_some, Bool.or_eq_false_iff,
    Bool.not_eq_false'] at h
  exact ⟨h.1, hu jobId job hl (takenByAgent_ne_completed h.2), h.2⟩

theorem TicketsLive.step {config : Config} {s : PoolState} {op : Op} (hu : Unanswered s)
    (h : TicketsLive s) (hc : SparesTickets s op) : TicketsLive (step config s op).1 := by
  intro queued' hin job' hl' howner'
  rcases step_cases config s op with ⟨_, hshrinks⟩ | ⟨jobId, owner, nowMs, _, hacquire, hserver⟩
  · obtain ⟨queued, hq, hticket⟩ := hshrinks.mem_ticket hin
    obtain ⟨hid, howner⟩ := ticket_eq hticket
    have hbefore : ∀ job, s.serverJobs.lookup queued'.jobId = some job →
        job.owner = queued'.owner → Admissible job := by
      intro job hl ho
      exact h queued hq job (hid ▸ hl) (ho.trans howner.symm)
    cases hclears : op.clears with
    | true => exact hbefore job' (step_cleared config s hclears queued' hin job' hl' howner') howner'
    | false =>
      rcases step_edits config s op hl' with ⟨job, hl, he⟩ | ⟨_, _, _, _, _, _, _, _, _, rfl, _⟩
      · have ho : job.owner = queued'.owner := he.keeps.2.1.symm.trans howner'
        rcases he.admissible (hbefore job hl ho) hclears with hgood | ⟨hpending, nowMs, hprepare⟩
        · exact hgood
        · have hown : s.ownedJob queued'.jobId job.owner = some job := by
            simp [PoolState.ownedJob, hl]
          rcases hprepare with ⟨rfl, hready⟩ | ⟨rfl, hready⟩
          · exact absurd (howner.trans ho.symm) (hc job hown hready hpending queued hq hid)
          · exact absurd (howner.trans ho.symm) (hc job hown hready hpending queued hq hid)
      · exact ⟨rfl, rfl, rfl⟩
  · rw [hserver] at hl'
    rcases hacquire.queue_origin hin with ⟨queued, hq, hticket⟩ | ⟨hid, howner, hopen, _⟩
    · obtain ⟨hid, howner⟩ := ticket_eq hticket
      exact h queued (mem_of_pruneStaleQueue hq) job' (hid ▸ hl') (howner'.trans howner.symm)
    · rw [hid] at hl'
      exact admissible_of_unblocked (s := pruneStaleQueue s nowMs) hu hopen hl'
        (howner'.trans howner)

/-- As long as no pending job with a ticket is given to an agent or to Cloud Run, every ticket
waits for a job that an acquisition of its owner can still admit. -/
theorem tickets_live (config : Config) (ops : List Op) (s : PoolState)
    (h : Transition.Run (Transition.within SparesTickets config.Steps) .empty ops s) :
    TicketsLive s ∧ ∀ queued ∈ s.queue,
      Config.blockedByServerJob s queued.jobId queued.owner = false := by
  have hboth : Unanswered s ∧ TicketsLive s := h.invariant
    (I := fun s => Unanswered s ∧ TicketsLive s)
    (fun {s op t} hs hst => by
      obtain ⟨hc, rfl⟩ := hst
      exact ⟨hs.1.step config op, hs.2.step hs.1 hc⟩)
    ⟨fun _ _ hl => by simp [PoolState.empty] at hl, fun _ hin => absurd hin List.not_mem_nil⟩
  refine ⟨hboth.2, fun queued hin => unblocked_of_admissible fun job hl howner => ?_⟩
  exact hboth.2 queued hin job hl howner

section Stuck

def school : SolverOwner := ⟨"s1", "admin"⟩

/-- One slot, which a job holds; the next one waits. -/
def oneSlot : Config := ⟨1, 2, 1, 2⟩

def waiting : List Op :=
  [.tryAcquire "r" 2 school 0, .claim "x" school {} 1, .prepareVps "x" school 2,
    .acquireOrEnqueue "x" 2 school 3, .handoffForJob "x" school, .prepareAgent "x" school 4]

theorem tickets_live_waiting :
    TicketsLive (waiting.foldl (fun s op => (step oneSlot s op).1) .empty) := by
  refine (tickets_live oneSlot waiting _ ?_).1
  refine .cons ⟨trivial, rfl⟩ (.cons ⟨trivial, rfl⟩ (.cons ⟨trivial, rfl⟩ (.cons ⟨trivial, rfl⟩
    (.cons ⟨trivial, rfl⟩ (.single ⟨?_, rfl⟩)))))
  intro job hown _ _ queued hin
  exact absurd hin List.not_mem_nil

/-- A solve that waits in the queue is claimed as a server job and goes to an agent. -/
def stuck : List Op :=
  [.tryAcquire "r" 2 school 0, .acquireOrEnqueue "x" 2 school 1, .claim "x" school {} 2,
    .prepareAgent "x" school 3]

/-- Its ticket is still at the front, for a job that no acquisition admits. -/
theorem stuck_ticket :
    ¬ TicketsLive (stuck.foldl (fun s op => (step oneSlot s op).1) .empty) := by
  intro h
  have hdead := h ⟨"x", 1, 1, 2, school⟩ List.mem_cons_self _ rfl rfl
  exact absurd hdead.phase (by decide)

end Stuck

end TkbCherry.Pool
