import TkbCherry.Agent.Runs

/-!
# Lease exclusivity

In every state that the coordinator reaches a task is under at most one lease and no worker has
more of them than it asked for. A token that no longer names a lease is dead: every later call
that carries it only does what every call does first, to let go of what is over. A task is
completed once, and a claim that is sent again gets the lease it already has.
-/

namespace TkbCherry.Agent

set_option autoImplicit false

open Table TkbCherry.Pool AgentHelperState Transition

variable {env : Env}

/-! ### Calls under a lease -/

/-- The caller, what it says of its leases (work id and token), and the time. A lookup by token
alone says nothing of a task and changes none. -/
def AgentOp.carried : AgentOp → Option (Caller × List (String × String) × Nat)
  | heartbeat caller leases _ nowMs =>
    some (caller, leases.map fun lease => (lease.workId, lease.leaseToken), nowMs)
  | workIdForLease caller _ nowMs => some (caller, [], nowMs)
  | beginSubmission caller workId leaseToken nowMs => some (caller, [(workId, leaseToken)], nowMs)
  | acceptSubmission caller workId leaseToken _ _ nowMs =>
    some (caller, [(workId, leaseToken)], nowMs)
  | acceptCheckpoint caller workId leaseToken _ _ nowMs =>
    some (caller, [(workId, leaseToken)], nowMs)
  | acceptResumeCheckpoint caller workId leaseToken _ _ nowMs =>
    some (caller, [(workId, leaseToken)], nowMs)
  | acceptStructuredOutcome caller workId leaseToken nowMs =>
    some (caller, [(workId, leaseToken)], nowMs)
  | rejectSubmission caller workId leaseToken nowMs => some (caller, [(workId, leaseToken)], nowMs)
  | rejectSubmissionAndDiscardCheckpoints caller workId leaseToken nowMs =>
    some (caller, [(workId, leaseToken)], nowMs)
  | _ => none

/-- The token is that of a lease which this caller holds on this task and which is not over. -/
def Usable (env : Env) (s : AgentHelperState) (caller : Caller) (workId leaseToken : String)
    (nowMs : Nat) : Prop :=
  ∃ k i job task lease, Held s k i job task lease ∧ task.workId = workId ∧
    lease.valid (presented env caller.workerToken) (presented env leaseToken) nowMs = true

theorem usable_of_found {s : AgentHelperState} {caller : Caller} {worker : AgentWorker}
    {workId leaseToken : String} {nowMs : Nat} {found : Found} {lease : TaskLease}
    (hfound : s.findTask worker workId = some found) (hlease : found.task.state = .leased lease)
    (hvalid : lease.valid (presented env caller.workerToken) (presented env leaseToken) nowMs = true) :
    Usable env s caller workId leaseToken nowMs := by
  obtain ⟨hjob, -, htask, hwork⟩ := findTask_some hfound
  exact ⟨found.jobId, found.index, found.job, found.task, lease, ⟨hjob, htask, hlease⟩, hwork, hvalid⟩

theorem underLease_unusable {α : Type} (refusal : AgentTaskState → AgentHelperError)
    (use : AgentWorker → Found → JobCandidates × α) (next : TaskLease → AgentTaskState)
    {s : AgentHelperState} {caller : Caller} {workId leaseToken : String} {nowMs : Nat}
    (h : ¬ Usable env (s.pruneState nowMs) caller workId leaseToken nowMs) :
    (s.underLease env refusal use next caller workId leaseToken nowMs).1 = s.pruneState nowMs := by
  unfold underLease
  dsimp only
  split
  · rfl
  · rename_i workerHash worker hauth
    obtain ⟨rfl, -⟩ := authenticatedWorker_ok env hauth
    split
    · rfl
    · rename_i found hfound
      split
      · rename_i lease hlease
        split
        · rename_i hvalid
          exact absurd (usable_of_found hfound hlease hvalid) h
        · rfl
      · rfl

theorem renewLease_unusable {caller : Caller} {worker : AgentWorker} {nowMs : Nat}
    {acc : AgentHelperState × AgentHeartbeatResult} {lease : AgentLeaseHeartbeat}
    (h : ¬ Usable env acc.1 caller lease.workId lease.leaseToken nowMs) :
    (renewLease env (presented env caller.workerToken) worker nowMs acc lease).1 = acc.1 := by
  unfold renewLease
  dsimp only
  split
  · rfl
  · rename_i found hfound
    split
    · rename_i held hheld
      split
      · rename_i hvalid
        exact absurd (usable_of_found hfound hheld hvalid) h
      · rfl
    · rfl

/-- Settling makes no token usable, where nothing over is left. -/
theorem Usable.of_settles {s s' : AgentHelperState} (h : Settles s s') {nowMs : Nat}
    (hlive : ∀ {k i job task lease}, Held s k i job task lease → nowMs < lease.expiresAtMs)
    {caller : Caller} {workId leaseToken : String}
    (hu : Usable env s' caller workId leaseToken nowMs) :
    Usable env s caller workId leaseToken nowMs := by
  obtain ⟨k, i, job', task', lease', hh, hwork, hvalid⟩ := hu
  obtain ⟨job, task, lease, hheld, -, htask, hlease⟩ := h.held hh
  refine ⟨k, i, job, task, lease, hheld, htask.workId.symm.trans hwork, ?_⟩
  unfold TaskLease.valid at hvalid ⊢
  rw [congrArg TaskLease.workerTokenHash hlease, congrArg TaskLease.leaseTokenHash hlease,
    Bool.and_eq_true] at hvalid
  rw [Bool.and_eq_true]
  exact ⟨hvalid.1, decide_eq_true (hlive hheld)⟩

/-! ### Heartbeats -/

/-- What a round of the heartbeat does to the coordinator, without its report. -/
def renewState (env : Env) (h : String) (worker : AgentWorker) (nowMs : Nat)
    (s : AgentHelperState) (lease : AgentLeaseHeartbeat) : AgentHelperState :=
  (renewLease env h worker nowMs (s, ⟨[], [], 0⟩) lease).1

theorem renewLease_fst (h : String) (worker : AgentWorker) (nowMs : Nat)
    (acc : AgentHelperState × AgentHeartbeatResult) (lease : AgentLeaseHeartbeat) :
    (renewLease env h worker nowMs acc lease).1 = renewState env h worker nowMs acc.1 lease := by
  unfold renewState renewLease
  dsimp only
  cases acc.1.findTask worker lease.workId with
  | none => rfl
  | some found =>
    dsimp only
    cases found.task.state with
    | queued => rfl
    | completed => rfl
    | leased held =>
      dsimp only
      split <;> rfl

theorem renewLeases_fst (h : String) (worker : AgentWorker) (nowMs : Nat)
    (leases : List AgentLeaseHeartbeat) (acc : AgentHelperState × AgentHeartbeatResult) :
    (leases.foldl (renewLease env h worker nowMs) acc).1 =
      leases.foldl (renewState env h worker nowMs) acc.1 := by
  induction leases generalizing acc with
  | nil => rfl
  | cons lease leases ih => rw [List.foldl_cons, List.foldl_cons, ih, renewLease_fst]

theorem touchWorker_jobs (s : AgentHelperState) (h : String) (expiresAtMs : Nat)
    (telemetry : Option AgentResourceTelemetry) (nowMs : Nat) :
    (s.touchWorker h expiresAtMs telemetry nowMs).jobs = s.jobs := rfl

/-- The rounds with unusable tokens can be left out. -/
theorem renewLeases_filter {base s : AgentHelperState} {caller : Caller} {worker : AgentWorker}
    {nowMs : Nat} (hs : Settles base s)
    (hlive : ∀ {k i job task lease}, Held base k i job task lease → nowMs < lease.expiresAtMs)
    (p : AgentLeaseHeartbeat → Bool) (leases : List AgentLeaseHeartbeat)
    (hp : ∀ lease ∈ leases, p lease = false →
      ¬ Usable env base caller lease.workId lease.leaseToken nowMs) :
    leases.foldl (renewState env (presented env caller.workerToken) worker nowMs) s =
      (leases.filter p).foldl (renewState env (presented env caller.workerToken) worker nowMs) s := by
  induction leases generalizing s with
  | nil => rfl
  | cons lease leases ih =>
    have hrest : ∀ other ∈ leases, p other = false →
        ¬ Usable env base caller other.workId other.leaseToken nowMs :=
      fun other hother => hp other (List.mem_cons_of_mem _ hother)
    rw [List.foldl_cons]
    rcases Bool.eq_false_or_eq_true (p lease) with hkeep | hdrop
    · have hround := renewLease_settles env (presented env caller.workerToken) worker nowMs
        (s, ⟨[], [], 0⟩) lease
      rw [List.filter_cons_of_pos hkeep, List.foldl_cons]
      exact ih (hs.trans hround) hrest
    · have hsame : renewState env (presented env caller.workerToken) worker nowMs s lease = s :=
        renewLease_unusable fun hu => hp lease List.mem_cons_self hdrop (Usable.of_settles hs hlive hu)
      rw [hsame, List.filter_cons_of_neg (by rw [hdrop]; simp)]
      exact ih hs hrest

theorem heartbeat_filter (s : AgentHelperState) (caller : Caller)
    (leases : List AgentLeaseHeartbeat) (telemetry : Option AgentResourceTelemetry) (nowMs : Nat)
    (p : AgentLeaseHeartbeat → Bool)
    (hp : ∀ lease ∈ leases, p lease = false →
      ¬ Usable env (s.pruneState nowMs) caller lease.workId lease.leaseToken nowMs) :
    (s.heartbeatWithTelemetry env caller leases telemetry nowMs).1 =
      (s.heartbeatWithTelemetry env caller ((leases.take maxAgentParallelPerWorker).filter p)
        telemetry nowMs).1 := by
  unfold heartbeatWithTelemetry
  dsimp only
  split
  · rfl
  · rename_i h worker hauth
    obtain ⟨rfl, -⟩ := authenticatedWorker_ok env hauth
    have hshort : ((leases.take maxAgentParallelPerWorker).filter p).length ≤
        maxAgentParallelPerWorker :=
      (List.length_filter_le _ _).trans (List.length_take_le _ _)
    rw [List.take_of_length_le hshort, renewLeases_fst, renewLeases_fst]
    exact renewLeases_filter (touchWorker_settles _ _ _ telemetry nowMs)
      (fun hh => pruneState_held s hh) p _ fun lease hlease => hp lease (List.mem_of_mem_take hlease)

theorem heartbeat_nil_jobs (s : AgentHelperState) (caller : Caller)
    (telemetry : Option AgentResourceTelemetry) (nowMs : Nat) :
    (s.heartbeatWithTelemetry env caller [] telemetry nowMs).1.jobs = (s.pruneState nowMs).jobs := by
  unfold heartbeatWithTelemetry
  dsimp only
  split <;> rfl

/-- A call that carries no usable token does to the jobs what every call does first. -/
theorem carried_unusable {op : AgentOp} {caller : Caller} {entries : List (String × String)}
    {nowMs : Nat} (hop : op.carried = some (caller, entries, nowMs)) (s : AgentHelperState)
    (h : ∀ entry ∈ entries, ¬ Usable env (s.pruneState nowMs) caller entry.1 entry.2 nowMs) :
    (op.apply env s).jobs = (s.pruneState nowMs).jobs := by
  cases op with
  | heartbeat _ leases telemetry _ =>
    obtain ⟨rfl, rfl, rfl⟩ := hop
    have hall : ∀ lease ∈ leases, (fun _ => false) lease = false →
        ¬ Usable env (s.pruneState nowMs) caller lease.workId lease.leaseToken nowMs :=
      fun lease hlease _ => h _ (List.mem_map_of_mem hlease)
    rw [AgentOp.apply, heartbeat_filter s caller leases telemetry nowMs _ hall, List.filter_false]
    exact heartbeat_nil_jobs s caller telemetry nowMs
  | workIdForLease =>
    obtain ⟨rfl, rfl, rfl⟩ := hop
    rw [AgentOp.apply, AgentOp.workIdForLease_state]
  | beginSubmission =>
    obtain ⟨rfl, rfl, rfl⟩ := hop
    exact congrArg _ (underLease_unusable _ _ _ (h _ List.mem_cons_self))
  | acceptSubmission =>
    obtain ⟨rfl, rfl, rfl⟩ := hop
    exact congrArg _ (underLease_unusable _ _ _ (h _ List.mem_cons_self))
  | acceptCheckpoint =>
    obtain ⟨rfl, rfl, rfl⟩ := hop
    exact congrArg _ (underLease_unusable _ _ _ (h _ List.mem_cons_self))
  | acceptResumeCheckpoint =>
    obtain ⟨rfl, rfl, rfl⟩ := hop
    exact congrArg _ (underLease_unusable _ _ _ (h _ List.mem_cons_self))
  | acceptStructuredOutcome =>
    obtain ⟨rfl, rfl, rfl⟩ := hop
    exact congrArg _ (underLease_unusable _ _ _ (h _ List.mem_cons_self))
  | rejectSubmission =>
    obtain ⟨rfl, rfl, rfl⟩ := hop
    exact congrArg _ (underLease_unusable _ _ _ (h _ List.mem_cons_self))
  | rejectSubmissionAndDiscardCheckpoints =>
    obtain ⟨rfl, rfl, rfl⟩ := hop
    exact congrArg _ (underLease_unusable _ _ _ (h _ List.mem_cons_self))
  | _ => exact absurd hop (by simp [AgentOp.carried])

/-- Every call of a worker about its leases prunes first, and then settles. -/
theorem carried_settles {op : AgentOp} {caller : Caller} {entries : List (String × String)}
    {nowMs : Nat} (hop : op.carried = some (caller, entries, nowMs)) (s : AgentHelperState) :
    Settles (s.pruneState nowMs) (op.apply env s) := by
  have hrefl : ∀ lease : TaskLease, StateSettles (.leased lease) (.leased lease) := fun _ => .refl _
  cases op with
  | heartbeat _ leases telemetry _ =>
    obtain ⟨rfl, rfl, rfl⟩ := hop
    exact heartbeat_settles env s caller leases telemetry nowMs
  | workIdForLease =>
    obtain ⟨rfl, rfl, rfl⟩ := hop
    rw [AgentOp.apply, AgentOp.workIdForLease_state]
    exact .refl _
  | beginSubmission =>
    obtain ⟨rfl, rfl, rfl⟩ := hop
    exact underLease_settles env _ _ _ hrefl s _ _ _ _
  | acceptSubmission =>
    obtain ⟨rfl, rfl, rfl⟩ := hop
    exact underLease_settles env _ _ _ .complete s _ _ _ _
  | acceptCheckpoint =>
    obtain ⟨rfl, rfl, rfl⟩ := hop
    exact underLease_settles env _ _ _ hrefl s _ _ _ _
  | acceptResumeCheckpoint =>
    obtain ⟨rfl, rfl, rfl⟩ := hop
    exact underLease_settles env _ _ _ hrefl s _ _ _ _
  | acceptStructuredOutcome =>
    obtain ⟨rfl, rfl, rfl⟩ := hop
    exact underLease_settles env _ _ _ .complete s _ _ _ _
  | rejectSubmission =>
    obtain ⟨rfl, rfl, rfl⟩ := hop
    exact underLease_settles env _ _ _ .release s _ _ _ _
  | rejectSubmissionAndDiscardCheckpoints =>
    obtain ⟨rfl, rfl, rfl⟩ := hop
    exact underLease_settles env _ _ _ .release s _ _ _ _
  | _ => exact absurd hop (by simp [AgentOp.carried])

/-! ### Dead tokens -/

/-- The token was drawn and names no lease. -/
structure Retired (w : World) (token : String) : Prop where
  drawn : Text.trim token ∈ w.drawn
  unheld : ∀ {k i job task lease}, Held w.state k i job task lease →
    lease.leaseToken ≠ Text.trim token

theorem Retired.run (hinj : Function.Injective env.secretHash) {w w' : World} {token : String}
    {ops : List AgentOp} (h : Retired w token) (run : Run (Step env) w ops w') : Retired w' token := by
  have hcarries := Carries.of_run hinj run
  refine ⟨hcarries.drawn h.drawn, fun hh he => ?_⟩
  obtain ⟨_, _, lease, hheld, -, -, -, -, hlease⟩ := hcarries.held hh (he ▸ h.drawn)
  exact h.unheld hheld ((congrArg TaskLease.leaseToken hlease).symm.trans he)

/-- Nobody can use a dead token. -/
theorem Retired.not_usable (hinj : Function.Injective env.secretHash) {w : World} (hw : w.Inv env)
    {token : String} (h : Retired w token) (caller : Caller) (workId : String) (nowMs : Nat) :
    ¬ Usable env (w.state.pruneState nowMs) caller workId token nowMs := by
  rintro ⟨k, i, job', task', lease', hh, -, hvalid⟩
  obtain ⟨job, task, lease, hheld, -, -, hlease⟩ := (w.state.pruneState_settles nowMs).held hh
  unfold TaskLease.valid at hvalid
  rw [Bool.and_eq_true, Bool.and_eq_true] at hvalid
  have hhash := of_decide_eq_true hvalid.1.2
  rw [congrArg TaskLease.leaseTokenHash hlease, (hw.issued hheld).1] at hhash
  exact h.unheld hheld (hinj hhash)

/-- The call that finds every lease of a token over is the last one that could have used it. -/
theorem Retired.of_expired {w w' : World} {op : AgentOp} {caller : Caller}
    {entries : List (String × String)} {nowMs : Nat} {token : String}
    (hop : op.carried = some (caller, entries, nowMs)) (hstep : Step env w op w')
    (hdrawn : Text.trim token ∈ w.drawn)
    (hover : ∀ {k i job task lease}, Held w.state k i job task lease →
      lease.leaseToken = Text.trim token → lease.expiresAtMs ≤ nowMs) : Retired w' token := by
  obtain ⟨-, rfl⟩ := hstep
  refine ⟨List.mem_append_right _ hdrawn, fun hh he => ?_⟩
  obtain ⟨_, _, lease₁, hheld₁, -, -, hlease₁⟩ := (carried_settles hop w.state).held hh
  obtain ⟨hlive, _, hbefore⟩ := w.state.pruneState_before hheld₁
  have hsame := (congrArg TaskLease.leaseToken hlease₁).symm.trans he
  have hend := hover hbefore hsame
  omega

/-! ### Completion -/

/-- The task is completed, in the job registered under this serial number. -/
def Completed (s : AgentHelperState) (serial : Nat) (workId : String) : Prop :=
  ∃ (k : String) (job : AgentJob) (i : Nat) (task : AgentTask), s.jobs.lookup k = some job ∧
    job.serial = serial ∧ job.tasks[i]? = some task ∧ task.workId = workId ∧
    task.state = .completed

/-- The step completes the task. -/
def Completes (s s' : AgentHelperState) (serial : Nat) (workId : String) : Prop :=
  ¬ Completed s serial workId ∧ Completed s' serial workId

theorem Completed.carried {u v w : World} (hu : u.Inv env) (huv : Carries env u v) (hvw : Carries env v w) {serial : Nat}
    {workId : String} (hdone : Completed u.state serial workId)
    (hend : Completed w.state serial workId) : Completed v.state serial workId := by
  obtain ⟨k, job, i, task, hjob, rfl, htask, hwork, hcompleted⟩ := hdone
  obtain ⟨l, job₂, j, task₂, hjob₂, hserial₂, htask₂, hwork₂, -⟩ := hend
  have hlt := (hu.named hjob).2.1
  obtain ⟨job₁, hjob₁, hheader₁, htasks₁⟩ :=
    hvw.jobs hjob₂ (by rw [hserial₂]; exact Nat.lt_of_lt_of_le hlt huv.serial)
  have hserial₁ : job₁.serial = job.serial := by rw [← hserial₂, hheader₁]
  obtain ⟨job₀, hjob₀, hheader₀, htasks₀⟩ := huv.jobs hjob₁ (by rw [hserial₁]; exact hlt)
  have hserial₀ : job₀.serial = job.serial := by rw [← hserial₁, hheader₀]
  obtain rfl := hu.serials hjob₀ hjob hserial₀
  obtain rfl := Option.some.inj (hjob₀.symm.trans hjob)
  obtain ⟨task₁, htask₁, hcarries⟩ := Pointwise.getElem?_left htasks₀ htask
  exact ⟨l, job₁, i, task₁, hjob₁, hserial₁, htask₁, hcarries.workId.trans hwork,
    hcarries.completed hcompleted⟩

/-! ### Replay -/

/-- The lease that a successful claim returns is one that the coordinator then holds. -/
theorem claimWork_held {s t : AgentHelperState} {caller : Caller} {leaseRequestId secret : String}
    {nowMs : Nat} {lease : AgentWorkLease}
    (hr : s.claimWorkWithRequestId env caller leaseRequestId secret nowMs = (t, .ok lease)) :
    ∃ requestId worker k i job task held, normalizeLeaseRequestId leaseRequestId = some requestId ∧
      t.workers.lookup (presented env caller.workerToken) = some worker ∧
      worker.owner = caller.owner ∧ worker.sessionBinding = caller.sessionBinding ∧
      Held t k i job task held ∧ held.workerTokenHash = presented env caller.workerToken ∧
      held.leaseRequestId = requestId ∧ lease = workLease k job task held := by
  rcases s.claimWork_cases env hr with ⟨⟨e, he⟩, -⟩ |
    ⟨requestId, h, worker, found, hrequest, hauth, hreplay, ht, hlease⟩ |
    ⟨requestId, h, g, hrequest, hauth, ht, hlease⟩
  · exact absurd he (by simp)
  · obtain ⟨hh, hworker, howner, hbinding⟩ := authenticatedWorker_ok env hauth
    obtain ⟨k, i, job, task, held, hheld, hw, hreq, hfound⟩ := replay_some hreplay
    rw [hh] at hworker hw
    rw [ht]
    exact ⟨requestId, worker, k, i, job, task, held, hrequest, hworker, howner, hbinding, hheld, hw,
      hreq, (Except.ok.inj hlease).trans hfound⟩
  · obtain ⟨hh, hworker, howner, hbinding⟩ := authenticatedWorker_ok env hauth
    obtain ⟨job, hheld, hheader⟩ := g.heldAfter env secret
    rw [Except.ok.inj hlease, ht]
    refine ⟨requestId, g.worker, g.jobId, g.index, job,
      leasedTask env h requestId secret nowMs g.task,
      ⟨h, env.secretHash secret, secret, requestId, after nowMs agentWorkLeaseMs⟩, hrequest, ?_,
      howner, hbinding, ⟨?_, hheld.taskAt, hheld.leased⟩, hh, rfl, ?_⟩
    · rw [releaseTrustedHandoffCapacityForJob_workers, ← hh]
      exact hworker
    · rw [releaseTrustedHandoffCapacityForJob_jobs]
      exact hheld.jobAt
    · unfold workLease
      rw [hheader]

theorem authenticatedWorker_eq {s : AgentHelperState} {caller : Caller} {nowMs : Nat}
    {worker : AgentWorker}
    (hworker : s.workers.lookup (presented env caller.workerToken) = some worker)
    (howner : worker.owner = caller.owner) (hbinding : worker.sessionBinding = caller.sessionBinding)
    (hlive : nowMs < worker.expiresAtMs) :
    s.authenticatedWorker env caller nowMs = .ok (presented env caller.workerToken, worker) := by
  unfold authenticatedWorker
  dsimp only
  rw [hworker]
  exact if_pos ⟨howner, hbinding, hlive⟩

/-- A claim under the request id of a live lease returns that lease. -/
theorem claimWork_replays {s : AgentHelperState} {drawn : List String} {caller : Caller}
    {leaseRequestId requestId : String} {nowMs : Nat} {worker : AgentWorker} {k : String} {i : Nat}
    {job : AgentJob} {task : AgentTask} {held : TaskLease} (secret : String)
    (hinv : Inv env (s.pruneState nowMs) drawn)
    (hrequest : normalizeLeaseRequestId leaseRequestId = some requestId)
    (hworker : (s.pruneState nowMs).workers.lookup (presented env caller.workerToken) = some worker)
    (howner : worker.owner = caller.owner) (hbinding : worker.sessionBinding = caller.sessionBinding)
    (hheld : Held (s.pruneState nowMs) k i job task held)
    (hw : held.workerTokenHash = presented env caller.workerToken)
    (hr : held.leaseRequestId = requestId) :
    (s.claimWorkWithRequestId env caller leaseRequestId secret nowMs).2 =
      .ok (workLease k job task held) := by
  obtain ⟨-, -, registered, hregistered, heligible, haccess⟩ := hinv.issued hheld
  rw [hw] at hregistered
  obtain rfl := Option.some.inj (hworker.symm.trans hregistered)
  have hauth := authenticatedWorker_eq hworker howner hbinding (s.pruneState_workers hworker)
  have hsome := replay_isSome hheld haccess hw hr (pruneState_held s hheld)
  obtain ⟨lease, hlease⟩ := Option.isSome_iff_exists.mp hsome
  obtain ⟨l, j, job', task', held', hheld', hw', hr', heq⟩ := replay_some hlease
  obtain ⟨rfl, rfl⟩ := hinv.requests hheld hheld' (hw.trans hw'.symm) (hr.trans hr'.symm)
  obtain rfl := Option.some.inj (hheld.jobAt.symm.trans hheld'.jobAt)
  obtain rfl := Option.some.inj (hheld.taskAt.symm.trans hheld'.taskAt)
  obtain rfl := AgentTaskState.leased.inj (hheld.leased.symm.trans hheld'.leased)
  unfold claimWorkWithRequestId
  rw [hrequest]
  dsimp only
  rw [hauth]
  dsimp only
  rw [heligible, Bool.not_true, if_neg Bool.false_ne_true, hlease, heq]

/-! ### The contract -/

structure LeaseExclusive (env : Env) (w : World) : Prop where
  /-- A task, and a lease token, is at one place and under one lease. -/
  one : ∀ {k i job task lease l j job' task' lease'}, Held w.state k i job task lease →
    Held w.state l j job' task' lease' →
    task.workId = task'.workId ∨ lease.leaseToken = lease'.leaseToken →
    k = l ∧ i = j ∧ lease = lease'
  /-- A registration has no more leases than it asked for, and who is not registered has none. -/
  capacity : ∀ h, w.state.activeLeases h ≤
    ((w.state.workers.lookup h).map fun worker => worker.maxParallel).getD 0
  /-- A workstation has one registration in a session. -/
  registered : ∀ {h l worker worker'}, w.state.workers.lookup h = some worker →
    w.state.workers.lookup l = some worker' → worker.owner = worker'.owner →
    worker.sessionBinding = worker'.sessionBinding → worker.workerId = worker'.workerId → h = l
  /-- A call with tokens that are not of live leases of its caller only prunes. -/
  inert : ∀ {op caller entries nowMs}, AgentOp.carried op = some (caller, entries, nowMs) →
    (∀ entry ∈ entries, ¬ Usable env (w.state.pruneState nowMs) caller entry.1 entry.2 nowMs) →
    (op.apply env w.state).jobs = (w.state.pruneState nowMs).jobs
  /-- A heartbeat does what it would do without such tokens. -/
  heartbeat : ∀ (caller : Caller) (leases : List AgentLeaseHeartbeat)
    (telemetry : Option AgentResourceTelemetry) (nowMs : Nat) (p : AgentLeaseHeartbeat → Bool),
    (∀ lease ∈ leases, p lease = false →
      ¬ Usable env (w.state.pruneState nowMs) caller lease.workId lease.leaseToken nowMs) →
    (w.state.heartbeatWithTelemetry env caller leases telemetry nowMs).1 =
      (w.state.heartbeatWithTelemetry env caller
        ((leases.take maxAgentParallelPerWorker).filter p) telemetry nowMs).1
  /-- The first call of a worker that comes too late for a token retires it. -/
  expired : ∀ {op caller entries nowMs w' token},
    AgentOp.carried op = some (caller, entries, nowMs) → Step env w op w' →
    Text.trim token ∈ w.drawn →
    (∀ {k i job task lease}, Held w.state k i job task lease →
      lease.leaseToken = Text.trim token → lease.expiresAtMs ≤ nowMs) → Retired w' token
  /-- A retired token stays so, and whoever sends it only prunes. -/
  retired : ∀ {token ops w'}, Retired w token → Run (Step env) w ops w' → Retired w' token ∧
    ∀ {op caller entries nowMs}, AgentOp.carried op = some (caller, entries, nowMs) →
      (∀ entry ∈ entries, entry.2 = token) →
      (op.apply env w'.state).jobs = (w'.state.pruneState nowMs).jobs
  /-- A task of a registered job is completed by one step only. -/
  once : ∀ {op w₁ ops w₂ op' w₃ serial workId}, Step env w op w₁ → Run (Step env) w₁ ops w₂ →
    Step env w₂ op' w₃ → Completes w.state w₁.state serial workId →
    ¬ Completes w₂.state w₃.state serial workId
  /-- A claim sent again gets the same lease as long as that one is live. -/
  replay : ∀ {caller leaseRequestId secret nowMs w₁ lease ops w₂ nowMs' k i job task held},
    Step env w (.claimWork caller leaseRequestId secret nowMs) w₁ →
    (w.state.claimWorkWithRequestId env caller leaseRequestId secret nowMs).2 = .ok lease →
    Run (Step env) w₁ ops w₂ → Held (w₂.state.pruneState nowMs') k i job task held →
    held.leaseToken = lease.leaseToken → ∀ secret',
    (w₂.state.claimWorkWithRequestId env caller leaseRequestId secret' nowMs').2 =
      .ok { lease with leaseExpiresAtMs := held.expiresAtMs }

theorem held_unique {s : AgentHelperState} {drawn : List String} (hs : Inv env s drawn)
    {k l : String} {i j : Nat} {job job' : AgentJob} {task task' : AgentTask}
    {lease lease' : TaskLease} (hh : Held s k i job task lease) (hl : Held s l j job' task' lease')
    (hsame : task.workId = task'.workId ∨ lease.leaseToken = lease'.leaseToken) :
    k = l ∧ i = j ∧ lease = lease' := by
  have hplace : k = l ∧ i = j := by
    rcases hsame with hwork | htoken
    · obtain ⟨hi, hk⟩ := (hs.named hh.jobAt).2.2.workId hh.taskAt
      obtain ⟨hj, hl'⟩ := (hs.named hl.jobAt).2.2.workId hl.taskAt
      exact workIdFor_inj hi hj (hk.symm.trans (hwork.trans hl'))
    · exact hs.tokens hh hl htoken
  obtain ⟨rfl, rfl⟩ := hplace
  obtain rfl := Option.some.inj (hh.jobAt.symm.trans hl.jobAt)
  obtain rfl := Option.some.inj (hh.taskAt.symm.trans hl.taskAt)
  exact ⟨rfl, rfl, AgentTaskState.leased.inj (hh.leased.symm.trans hl.leased)⟩

theorem World.Inv.capacity {w : World} (hw : w.Inv env) (h : String) :
    w.state.activeLeases h ≤
      ((w.state.workers.lookup h).map fun worker => worker.maxParallel).getD 0 := by
  cases hl : w.state.workers.lookup h with
  | some worker => exact Agent.Inv.capacity hw hl
  | none =>
    rw [activeLeases_eq_zero]
    · exact Nat.zero_le _
    · intro k i job task lease hh he
      obtain ⟨-, -, worker, hworker, -⟩ := Agent.Inv.issued hw hh
      rw [he, hl] at hworker
      exact absurd hworker (by simp)

theorem World.after_claimWork (w : World) (caller : Caller) (leaseRequestId secret : String)
    (nowMs : Nat) : (w.after env (.claimWork caller leaseRequestId secret nowMs)).state =
      (w.state.claimWorkWithRequestId env caller leaseRequestId secret nowMs).1 := by
  simp only [World.after, AgentOp.apply]

theorem World.Inv.replay (hinj : Function.Injective env.secretHash) {w w₁ w₂ : World}
    (hw : w.Inv env) {caller : Caller} {leaseRequestId secret : String} {nowMs nowMs' : Nat}
    {lease : AgentWorkLease} {ops : List AgentOp} {k : String} {i : Nat} {job : AgentJob}
    {task : AgentTask} {held : TaskLease}
    (hstep : Step env w (.claimWork caller leaseRequestId secret nowMs) w₁)
    (hok : (w.state.claimWorkWithRequestId env caller leaseRequestId secret nowMs).2 = .ok lease)
    (hrun : Run (Step env) w₁ ops w₂) (hheld : Held (w₂.state.pruneState nowMs') k i job task held)
    (htoken : held.leaseToken = lease.leaseToken) (secret' : String) :
    (w₂.state.claimWorkWithRequestId env caller leaseRequestId secret' nowMs').2 =
      .ok { lease with leaseExpiresAtMs := held.expiresAtMs } := by
  have hw₁ := World.Inv.step hinj hw hstep
  have hprune : Carries env w₂ ⟨w₂.state.pruneState nowMs', w₂.drawn⟩ :=
    Carries.of_settles (w₂.state.pruneState_settles nowMs') (List.Subset.refl _)
  have hcarries := (Carries.of_run hinj hrun).trans hprune
  have hinv : Agent.Inv env (w₂.state.pruneState nowMs') w₂.drawn :=
    Agent.Inv.settles (World.Inv.run hinj hw₁ hrun) (w₂.state.pruneState_settles nowMs')
      (List.Subset.refl _)
  have hr : w.state.claimWorkWithRequestId env caller leaseRequestId secret nowMs =
      (w₁.state, .ok lease) := by
    rw [hstep.2, World.after_claimWork, ← hok]
  obtain ⟨requestId, worker, l, j, job₁, task₁, held₁, hrequest, hworker, howner, hbinding, hheld₁,
    hworker₁, hrequest₁, hlease⟩ := claimWork_held hr
  obtain ⟨-, hdrawn, -⟩ := Agent.Inv.issued hw₁ hheld₁
  have hsame : held.leaseToken = held₁.leaseToken := by rw [htoken, hlease, workLease]
  obtain ⟨job₀, task₀, held₀, hheld₀, hheader, hwork, hseed, hattempt, hlease₀⟩ :=
    hcarries.held hheld (hsame ▸ hdrawn)
  have htoken₀ : held₀.leaseToken = held₁.leaseToken :=
    (congrArg TaskLease.leaseToken hlease₀).symm.trans hsame
  -- the lease there is now is the one that was claimed, at the same place
  obtain ⟨rfl, rfl⟩ := Agent.Inv.tokens hw₁ hheld₀ hheld₁ htoken₀
  obtain rfl := Option.some.inj (hheld₀.jobAt.symm.trans hheld₁.jobAt)
  obtain rfl := Option.some.inj (hheld₀.taskAt.symm.trans hheld₁.taskAt)
  obtain rfl := AgentTaskState.leased.inj (hheld₀.leased.symm.trans hheld₁.leased)
  have hworkerNow := (congrArg TaskLease.workerTokenHash hlease₀).trans hworker₁
  obtain ⟨-, -, registered, hregistered, -, -⟩ := hinv.issued hheld
  rw [hworkerNow] at hregistered
  obtain ⟨token, hdrawnWorker, hkey⟩ := Agent.Inv.keys hw₁ hworker
  obtain ⟨before, hbefore, hsameHeader⟩ := hcarries.workers hdrawnWorker (hkey ▸ hregistered)
  rw [← hkey] at hbefore
  obtain rfl := Option.some.inj (hworker.symm.trans hbefore)
  have hreplay := claimWork_replays secret' hinv hrequest hregistered
    (by rw [hsameHeader]; exact howner) (by rw [hsameHeader]; exact hbinding) hheld hworkerNow
    ((congrArg TaskLease.leaseRequestId hlease₀).trans hrequest₁)
  rw [hreplay, hlease]
  unfold workLease
  rw [hwork, hseed, hattempt, hheader, hsame]

/-- The contract holds in every state of every run, for secrets that are never drawn twice and a
hash without collisions. -/
theorem lease_exclusive (hinj : Function.Injective env.secretHash) {ops : List AgentOp} {w : World}
    (run : Run (Step env) World.init ops w) : LeaseExclusive env w where
  one := held_unique (World.Inv.run hinj World.inv_init run)
  capacity := World.Inv.capacity (World.Inv.run hinj World.inv_init run)
  registered := Inv.identities (World.Inv.run hinj World.inv_init run)
  inert hop h := carried_unusable hop w.state h
  heartbeat caller leases telemetry nowMs p hp :=
    heartbeat_filter w.state caller leases telemetry nowMs p hp
  expired := Retired.of_expired
  retired h hrun := by
    have hlater := h.run hinj hrun
    have hinv := World.Inv.run hinj (World.Inv.run hinj World.inv_init run) hrun
    refine ⟨hlater, fun hop hall => carried_unusable hop _ fun entry hentry => ?_⟩
    rw [hall entry hentry]
    exact hlater.not_usable hinj hinv _ _ _
  once hstep hrun hstep' hfirst hsecond := by
    have hw₁ := World.Inv.step hinj (World.Inv.run hinj World.inv_init run) hstep
    exact hsecond.1 (Completed.carried hw₁ (Carries.of_run hinj hrun) (Carries.of_step hinj hstep')
      hfirst.2 hsecond.2)
  replay := World.Inv.replay hinj (World.Inv.run hinj World.inv_init run)

/-! ### Two seeds, one worker -/

namespace Demo

def plain : Env := ⟨id, fun _ => none, fun _ index => index + 1⟩

def owner : SolverOwner := ⟨"school", "an"⟩

def caller : Caller := ⟨owner, "tab", "worker-token"⟩

def register : AgentOp :=
  .registerWorker ⟨owner, "tab", "pc-1", 2, true, false, false, none⟩ "worker-token" 0

def openJob : AgentOp := .registerJob ⟨"job", owner, [123, 125], 2, false, false⟩ 0

def claim : AgentOp := .claimWork caller "request-1" "lease-1" 0

def finish : AgentOp := .acceptStructuredOutcome caller "job:seed:01" "lease-1" 10

/-- The coordinator after some calls. -/
def after (ops : List AgentOp) : AgentHelperState :=
  ops.foldl (fun s op => op.apply plain s) .empty

def claimed (s : AgentHelperState) (secret : String) : Option (String × String) :=
  match (s.claimWorkWithRequestId plain caller "request-1" secret 10).2 with
  | .ok lease => some (lease.workId, lease.leaseToken)
  | .error _ => none

def taskStates (s : AgentHelperState) : Option (List AgentTaskState) :=
  (s.jobs.lookup "job").map fun job => job.tasks.map (·.state)

theorem run : Run (Step plain) World.init [register, openJob, claim]
    (((World.init.after plain register).after plain openJob).after plain claim) :=
  .snoc (.snoc (.snoc (.nil _) ⟨by decide, rfl⟩) ⟨by decide, rfl⟩) ⟨by decide, rfl⟩

end Demo

theorem lease_exclusive_demo : LeaseExclusive Demo.plain
    (((World.init.after Demo.plain Demo.register).after Demo.plain Demo.openJob).after Demo.plain
      Demo.claim) :=
  lease_exclusive (fun _ _ h => h) Demo.run

/-- A request id whose lease was completed gets another task, and a submission that comes after
the end of its lease still returns the task to the queue. -/
theorem replay_after_completion :
    Demo.claimed (Demo.after [Demo.register, Demo.openJob]) "lease-1" =
      some ("job:seed:01", "lease-1") ∧
    Demo.claimed (Demo.after [Demo.register, Demo.openJob, Demo.claim, Demo.finish]) "lease-2" =
      some ("job:seed:02", "lease-2") ∧
    Demo.taskStates (Demo.after [Demo.register, Demo.openJob, Demo.claim]) =
      some [.leased ⟨"worker-token", "lease-1", "lease-1", "request-1", 30000⟩, .queued] ∧
    Demo.taskStates (Demo.after [Demo.register, Demo.openJob, Demo.claim,
      .acceptStructuredOutcome Demo.caller "job:seed:01" "lease-1" 30000]) =
      some [.queued, .queued] := by
  refine ⟨by decide, by decide, by decide, by decide⟩

end TkbCherry.Agent
