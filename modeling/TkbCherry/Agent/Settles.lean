import TkbCherry.Agent.Calls
import TkbCherry.Lib.Pointwise

/-!
# What the calls do to the leases

All that any call but a registration and a granted claim does to the coordinator: workers and
jobs go, leases are released, completed or renewed. A lease never appears, and the worker of a
lease that stays is there as long as it was there before.
-/

namespace TkbCherry.Agent

set_option autoImplicit false

open Table TkbCherry.Pool

variable (env : Env)

inductive StateSettles : AgentTaskState → AgentTaskState → Prop where
  | refl (state : AgentTaskState) : StateSettles state state
  | release (lease : TaskLease) : StateSettles (.leased lease) .queued
  | complete (lease : TaskLease) : StateSettles (.leased lease) .completed
  | renew (lease : TaskLease) (expiresAtMs : Nat) :
      StateSettles (.leased lease) (.leased { lease with expiresAtMs })

theorem StateSettles.trans {a b c : AgentTaskState} (h : StateSettles a b) (k : StateSettles b c) :
    StateSettles a c := by
  cases h with
  | refl => exact k
  | release lease => cases k; exact .release lease
  | complete lease => cases k; exact .complete lease
  | renew lease e =>
    cases k with
    | refl => exact .renew lease e
    | release => exact .release lease
    | complete => exact .complete lease
    | renew _ e' => exact .renew lease e'

structure TaskSettles (task task' : AgentTask) : Prop where
  workId : task'.workId = task.workId
  seed : task'.seed = task.seed
  attempt : task'.attempt = task.attempt
  state : StateSettles task.state task'.state

theorem TaskSettles.refl (task : AgentTask) : TaskSettles task task := ⟨rfl, rfl, rfl, .refl _⟩

theorem TaskSettles.trans {a b c : AgentTask} (h : TaskSettles a b) (k : TaskSettles b c) :
    TaskSettles a c :=
  ⟨k.workId.trans h.workId, k.seed.trans h.seed, k.attempt.trans h.attempt, h.state.trans k.state⟩

theorem TaskSettles.of_state {task : AgentTask} {state : AgentTaskState}
    (h : StateSettles task.state state) : TaskSettles task { task with state } := ⟨rfl, rfl, rfl, h⟩

theorem TaskSettles.requeue (release : TaskLease → Bool) (task : AgentTask) :
    TaskSettles task (requeue release task) := by
  unfold Agent.requeue
  split
  · rename_i lease hstate
    split
    · exact .of_state (by rw [hstate]; exact .release lease)
    · exact .refl task
  · exact .refl task

theorem requeue_leased {release : TaskLease → Bool} {task : AgentTask} {lease : TaskLease}
    (h : (requeue release task).state = .leased lease) : release lease = false := by
  unfold requeue at h
  split at h
  · rename_i lease' hlease'
    split at h
    · exact absurd h (by simp)
    · rename_i hno
      rw [hlease'] at h
      rw [← AgentTaskState.leased.inj h]
      exact Bool.not_eq_true _ ▸ hno
  · rename_i hno
    exact absurd h (hno lease)

theorem requeue_leased_eq {release : TaskLease → Bool} {task : AgentTask} {lease : TaskLease}
    (h : (requeue release task).state = .leased lease) : requeue release task = task := by
  unfold requeue at h ⊢
  split at h
  · rename_i lease' hlease'
    split at h
    · exact absurd h (by simp)
    · rename_i hno
      rw [if_neg hno]
  · rfl

structure JobSettles (job job' : AgentJob) : Prop where
  header : job'.toJobHeader = job.toJobHeader
  tasks : List.Forall₂ TaskSettles job.tasks job'.tasks

theorem JobSettles.refl (job : AgentJob) : JobSettles job job :=
  ⟨rfl, List.forall₂_same.mpr fun task _ => .refl task⟩

theorem JobSettles.trans {a b c : AgentJob} (h : JobSettles a b) (k : JobSettles b c) :
    JobSettles a c :=
  ⟨k.header.trans h.header, Pointwise.trans (S := TaskSettles) TaskSettles.trans h.tasks k.tasks⟩

/-- A task at its place, with the lease it is under. -/
structure Held (s : AgentHelperState) (jobId : String) (index : Nat) (job : AgentJob)
    (task : AgentTask) (lease : TaskLease) : Prop where
  jobAt : s.jobs.lookup jobId = some job
  taskAt : job.tasks[index]? = some task
  leased : task.state = .leased lease

structure Settles (s s' : AgentHelperState) : Prop where
  workers : ∀ {h worker'}, s'.workers.lookup h = some worker' →
    ∃ worker, s.workers.lookup h = some worker ∧ worker'.toWorkerHeader = worker.toWorkerHeader
  jobs : ∀ {jobId job'}, s'.jobs.lookup jobId = some job' →
    ∃ job, s.jobs.lookup jobId = some job ∧ JobSettles job job'
  present : ∀ {jobId index job task lease}, Held s' jobId index job task lease →
    (s.workers.lookup lease.workerTokenHash).isSome →
    (s'.workers.lookup lease.workerTokenHash).isSome
  serial : s'.nextSerial = s.nextSerial

namespace Settles
variable {s s' t : AgentHelperState}

theorem refl (s : AgentHelperState) : Settles s s :=
  ⟨fun h => ⟨_, h, rfl⟩, fun h => ⟨_, h, .refl _⟩, fun _ h => h, rfl⟩

/-- Where a lease that is still there was before. -/
theorem held (h : Settles s s') {jobId : String} {index : Nat} {job' : AgentJob}
    {task' : AgentTask} {lease' : TaskLease} (hh : Held s' jobId index job' task' lease') :
    ∃ job task lease, Held s jobId index job task lease ∧ JobSettles job job' ∧
      TaskSettles task task' ∧ lease' = { lease with expiresAtMs := lease'.expiresAtMs } := by
  obtain ⟨job, hjob, hsettles⟩ := h.jobs hh.jobAt
  obtain ⟨task, htask, htasks⟩ := Pointwise.getElem? hsettles.tasks hh.taskAt
  have hstate := htasks.state
  rw [hh.leased] at hstate
  generalize hold : task.state = old at hstate
  cases hstate with
  | refl => exact ⟨job, task, lease', ⟨hjob, htask, hold⟩, hsettles, htasks, rfl⟩
  | renew lease e => exact ⟨job, task, lease, ⟨hjob, htask, hold⟩, hsettles, htasks, rfl⟩

theorem trans (h : Settles s s') (k : Settles s' t) : Settles s t where
  workers hw := by
    obtain ⟨worker', hw', hsame'⟩ := k.workers hw
    obtain ⟨worker, hw, hsame⟩ := h.workers hw'
    exact ⟨worker, hw, hsame'.trans hsame⟩
  jobs hj := by
    obtain ⟨job', hj', hjob'⟩ := k.jobs hj
    obtain ⟨job, hj, hjob⟩ := h.jobs hj'
    exact ⟨job, hj, hjob.trans hjob'⟩
  present hh hsome := by
    obtain ⟨job, task, lease, hheld, -, -, hlease⟩ := k.held hh
    refine k.present hh ?_
    rw [congrArg TaskLease.workerTokenHash hlease] at hsome ⊢
    have hworker := @h.present _ _ _ _ lease hheld
    exact hworker hsome
  serial := k.serial.trans h.serial

/-- The handoff tables do not matter. -/
theorem congr (h : Settles s s') (hworkers : t.workers = s'.workers) (hjobs : t.jobs = s'.jobs)
    (hserial : t.nextSerial = s'.nextSerial) : Settles s t where
  workers hw := h.workers (hworkers ▸ hw)
  jobs hj := h.jobs (hjobs ▸ hj)
  present hh hsome := by
    rw [hworkers]
    exact h.present ⟨hjobs ▸ hh.jobAt, hh.taskAt, hh.leased⟩ hsome
  serial := hserial.trans h.serial

/-- A change of one job. -/
theorem of_modify {jobId : String} {f : AgentJob → AgentJob}
    (hf : ∀ job, s.jobs.lookup jobId = some job → JobSettles job (f job)) :
    Settles s { s with jobs := modify jobId f s.jobs } where
  workers hw := ⟨_, hw, rfl⟩
  jobs {k job'} hj := by
    rcases eq_or_ne k jobId with hk | hk
    · subst hk
      obtain ⟨job, hjob, hfjob⟩ := Option.map_eq_some_iff.mp ((lookup_modify_self k f s.jobs) ▸ hj)
      exact ⟨job, hjob, hfjob ▸ hf job hjob⟩
    · exact ⟨job', lookup_modify_ne hk f s.jobs ▸ hj, .refl job'⟩
  present _ hsome := hsome
  serial := rfl

/-- Some jobs go. -/
theorem of_fewer {jobs : AgentJobs}
    (h : ∀ k job, jobs.lookup k = some job → s.jobs.lookup k = some job) :
    Settles s { s with jobs } :=
  ⟨fun hw => ⟨_, hw, rfl⟩, fun hj => ⟨_, h _ _ hj, .refl _⟩, fun _ hsome => hsome, rfl⟩

theorem of_erase (jobId : String) : Settles s { s with jobs := s.jobs.erase jobId } := by
  refine of_fewer fun k job hk => ?_
  rcases eq_or_ne k jobId with he | he
  · rw [he, AList.lookup_erase] at hk
    exact absurd hk (by simp)
  · rwa [AList.lookup_erase_ne he] at hk

/-- Some workers go, and their leases with them. -/
theorem of_drop (keep : String → AgentWorker → Bool) (release : TaskLease → Bool)
    (hrelease : ∀ lease worker, s.workers.lookup lease.workerTokenHash = some worker →
      keep lease.workerTokenHash worker = false → release lease = true) :
    Settles s ({ s with workers := retain keep s.workers }.mapTasks (requeue release)) where
  workers hw := ⟨_, ((lookup_retain_eq_some keep).mp hw).1, rfl⟩
  jobs {k job'} hj := by
    obtain ⟨job, hjob, hjob'⟩ := Option.map_eq_some_iff.mp (lookup_mapValues _ s.jobs k ▸ hj)
    refine ⟨job, hjob, hjob' ▸ ⟨rfl, ?_⟩⟩
    rw [List.forall₂_map_right_iff]
    exact List.forall₂_same.mpr fun task _ => .requeue release task
  present {k i job task lease} hh hsome := by
    obtain ⟨worker, hworker⟩ := Option.isSome_iff_exists.mp hsome
    obtain ⟨old, -, hold⟩ := Option.map_eq_some_iff.mp (lookup_mapValues _ s.jobs k ▸ hh.jobAt)
    have htask := hh.taskAt
    rw [← hold, List.getElem?_map] at htask
    obtain ⟨before, -, hbefore⟩ := Option.map_eq_some_iff.mp htask
    have hkept := requeue_leased (hbefore ▸ hh.leased)
    have hkeep : keep lease.workerTokenHash worker = true := by
      rcases Bool.eq_false_or_eq_true (keep lease.workerTokenHash worker) with hk | hk
      · exact hk
      · exact absurd (hrelease lease worker hworker hk) (by rw [hkept]; simp)
    have hlookup := (lookup_retain_eq_some keep).mpr ⟨hworker, hkeep⟩
    exact Option.isSome_iff_exists.mpr ⟨worker, hlookup⟩
  serial := rfl

end Settles

/-! ### The handoff tables -/

namespace AgentHelperState
variable (s : AgentHelperState) (jobId : String)

@[simp] theorem releaseTrustedHandoffCapacityForJob_jobs :
    (s.releaseTrustedHandoffCapacityForJob jobId).jobs = s.jobs := by
  unfold releaseTrustedHandoffCapacityForJob
  dsimp only
  split <;> rfl

@[simp] theorem releaseTrustedHandoffCapacityForJob_workers :
    (s.releaseTrustedHandoffCapacityForJob jobId).workers = s.workers := by
  unfold releaseTrustedHandoffCapacityForJob
  dsimp only
  split <;> rfl

@[simp] theorem releaseTrustedHandoffCapacityForJob_nextSerial :
    (s.releaseTrustedHandoffCapacityForJob jobId).nextSerial = s.nextSerial := by
  unfold releaseTrustedHandoffCapacityForJob
  dsimp only
  split <;> rfl

@[simp] theorem clearOrphaned_jobs :
    s.clearOrphanedTrustedHandoffCapacityReleases.jobs = s.jobs := by
  unfold clearOrphanedTrustedHandoffCapacityReleases
  split <;> rfl

@[simp] theorem clearOrphaned_workers :
    s.clearOrphanedTrustedHandoffCapacityReleases.workers = s.workers := by
  unfold clearOrphanedTrustedHandoffCapacityReleases
  split <;> rfl

@[simp] theorem clearOrphaned_nextSerial :
    s.clearOrphanedTrustedHandoffCapacityReleases.nextSerial = s.nextSerial := by
  unfold clearOrphanedTrustedHandoffCapacityReleases
  split <;> rfl

theorem settles_releaseCapacity : Settles s (s.releaseTrustedHandoffCapacityForJob jobId) :=
  (Settles.refl s).congr (by simp) (by simp) (by simp)

theorem settles_clearOrphaned : Settles s s.clearOrphanedTrustedHandoffCapacityReleases :=
  (Settles.refl s).congr (by simp) (by simp) (by simp)

/-! ### Pruning, registrations and jobs that go -/

theorem pruneState_settles (nowMs : Nat) : Settles s (s.pruneState nowMs) := by
  have hdrop := Settles.of_drop (s := s) (fun _ worker => !decide (worker.expiresAtMs ≤ nowMs))
    (fun lease => decide (lease.expiresAtMs ≤ nowMs) ||
      (s.workers.lookup lease.workerTokenHash).any fun worker => decide (worker.expiresAtMs ≤ nowMs))
    (by
      intro lease worker hworker hexpired
      have hover : decide (worker.expiresAtMs ≤ nowMs) = true := by simpa using hexpired
      rw [hworker, Option.any_some, hover, Bool.or_true])
  have hfewer := hdrop.trans (Settles.of_fewer fun k job hk =>
    ((lookup_retain_eq_some fun _ job => decide (nowMs - job.createdAtMs ≤ agentJobTtlMs)).mp hk).1)
  exact hfewer.congr (by simp [pruneState, mapTasks]) (by simp [pruneState, mapTasks])
    (by simp [pruneState, mapTasks])

/-- Whatever stays of the pruned coordinator is not over. -/
theorem pruneState_workers {nowMs : Nat} {h : String} {worker : AgentWorker}
    (hw : (s.pruneState nowMs).workers.lookup h = some worker) : nowMs < worker.expiresAtMs := by
  have hretain : (retain (fun _ worker => !decide (worker.expiresAtMs ≤ nowMs)) s.workers).lookup h =
      some worker := by
    simpa [pruneState, mapTasks] using hw
  have hp := ((lookup_retain_eq_some _).mp hretain).2
  simpa using hp

/-- A lease that pruning leaves is not over, and is as it was. -/
theorem pruneState_before {nowMs : Nat} {jobId : String} {index : Nat} {job : AgentJob}
    {task : AgentTask} {lease : TaskLease}
    (h : Held (s.pruneState nowMs) jobId index job task lease) :
    nowMs < lease.expiresAtMs ∧ ∃ before, Held s jobId index before task lease := by
  have hjob := h.jobAt
  simp only [pruneState, mapTasks, clearOrphaned_jobs, lookup_retain_eq_some, lookup_mapValues,
    Option.map_eq_some_iff] at hjob
  obtain ⟨⟨old, hold, hmapped⟩, -⟩ := hjob
  have htask := h.taskAt
  rw [← hmapped, List.getElem?_map] at htask
  obtain ⟨before, hget, hbefore⟩ := Option.map_eq_some_iff.mp htask
  have hleased := hbefore ▸ h.leased
  have hkept := requeue_leased hleased
  rw [Bool.or_eq_false_iff] at hkept
  have hsame := (requeue_leased_eq hleased).symm.trans hbefore
  exact ⟨by simpa using hkept.1, old, hold, hsame ▸ hget, h.leased⟩

theorem pruneState_held {nowMs : Nat} {jobId : String} {index : Nat} {job : AgentJob}
    {task : AgentTask} {lease : TaskLease}
    (h : Held (s.pruneState nowMs) jobId index job task lease) : nowMs < lease.expiresAtMs :=
  (s.pruneState_before h).1

theorem dropWorkers_settles (tokenHashes : List String) :
    Settles s ((s.removeWorkers tokenHashes).releaseWorkerLeases tokenHashes) := by
  refine Settles.of_drop _ _ fun lease worker _ hgone => ?_
  rw [decide_eq_false_iff_not, not_not] at hgone
  exact decide_eq_true hgone

theorem revokeWorkers_settles (tokenHashes : List String) :
    Settles s (s.revokeWorkers tokenHashes) :=
  (s.dropWorkers_settles tokenHashes).congr
    (by simp [revokeWorkers, releaseWorkerLeases, removeWorkers, mapTasks])
    (by simp [revokeWorkers, releaseWorkerLeases, removeWorkers, mapTasks])
    (by simp [revokeWorkers, releaseWorkerLeases, removeWorkers, mapTasks])

theorem closeJob_settles (jobId : String) : Settles s (s.closeJob jobId) :=
  (Settles.of_erase jobId).trans (settles_releaseCapacity _ jobId)

/-! ### Calls of an authenticated worker -/

variable {s jobId}

theorem authenticatedWorker_ok {caller : Caller} {nowMs : Nat} {h : String} {worker : AgentWorker}
    (ha : s.authenticatedWorker env caller nowMs = .ok (h, worker)) :
    h = presented env caller.workerToken ∧ s.workers.lookup h = some worker ∧
      worker.owner = caller.owner ∧ worker.sessionBinding = caller.sessionBinding := by
  unfold authenticatedWorker at ha
  dsimp only at ha
  split at ha
  · rename_i found hlookup
    split at ha
    · rename_i hok
      obtain ⟨rfl, rfl⟩ := Prod.mk.inj (Except.ok.inj ha)
      exact ⟨rfl, hlookup, hok.1, hok.2.1⟩
    · exact absurd ha (by simp)
  · exact absurd ha (by simp)

theorem findTask_some {worker : AgentWorker} {workId : String} {found : Found}
    (h : s.findTask worker workId = some found) :
    s.jobs.lookup found.jobId = some found.job ∧ workerCanAccessJob worker found.job = true ∧
      found.job.tasks[found.index]? = some found.task ∧ found.task.workId = workId := by
  obtain ⟨⟨k, job⟩, hmem, hfound⟩ := List.exists_of_findSome?_eq_some h
  split at hfound
  · rename_i haccess
    obtain ⟨index, hindex, htask⟩ := Option.bind_eq_some_iff.mp hfound
    obtain ⟨task, hget, hmk⟩ := Option.map_eq_some_iff.mp htask
    obtain ⟨hlt, hwork, -⟩ := List.findIdx?_eq_some_iff_getElem.mp hindex
    rw [List.getElem?_eq_getElem hlt, Option.some.injEq] at hget
    rw [← hmk, ← hget]
    exact ⟨mem_toList_iff.mp hmem, haccess, List.getElem?_eq_getElem hlt, of_decide_eq_true hwork⟩
  · exact absurd hfound (by simp)

theorem putTask_settles {job : AgentJob} {index : Nat} {task task' : AgentTask}
    (hjob : s.jobs.lookup jobId = some job) (htask : job.tasks[index]? = some task)
    (h : TaskSettles task task') : Settles s (s.putTask jobId index task') := by
  refine Settles.of_modify fun job' hjob' => ?_
  obtain rfl := Option.some.inj (hjob.symm.trans hjob')
  exact ⟨rfl, Pointwise.set TaskSettles.refl htask h⟩

theorem touchWorker_settles (s : AgentHelperState) (h : String) (expiresAtMs : Nat)
    (telemetry : Option AgentResourceTelemetry) (nowMs : Nat) :
    Settles s (s.touchWorker h expiresAtMs telemetry nowMs) where
  workers {k worker'} hw := by
    unfold touchWorker at hw
    rw [lookup_modify] at hw
    split at hw
    · rename_i hk
      obtain ⟨worker, hworker, hsame⟩ := Option.map_eq_some_iff.mp hw
      refine ⟨worker, hk ▸ hworker, ?_⟩
      rw [← hsame]
      dsimp only
      split
      · split <;> rfl
      · rfl
    · exact ⟨worker', hw, rfl⟩
  jobs hj := ⟨_, hj, .refl _⟩
  present {k i job task lease} _ hsome := by
    unfold touchWorker
    rw [lookup_modify]
    split
    · rename_i hk
      rw [Option.isSome_map, ← hk]
      exact hsome
    · exact hsome
  serial := rfl

theorem renewLease_settles (h : String) (worker : AgentWorker) (nowMs : Nat)
    (acc : AgentHelperState × AgentHeartbeatResult) (lease : AgentLeaseHeartbeat) :
    Settles acc.1 (renewLease env h worker nowMs acc lease).1 := by
  unfold renewLease
  dsimp only
  split
  · exact .refl _
  · rename_i found hfound
    obtain ⟨hjob, -, htask, -⟩ := findTask_some hfound
    split
    · rename_i held hheld
      split
      · exact putTask_settles hjob htask (.of_state (by rw [hheld]; exact .renew held _))
      · exact .refl _
    · exact .refl _

theorem renewLeases_settles (h : String) (worker : AgentWorker) (nowMs : Nat)
    (leases : List AgentLeaseHeartbeat) (acc : AgentHelperState × AgentHeartbeatResult) :
    Settles acc.1 (leases.foldl (renewLease env h worker nowMs) acc).1 := by
  induction leases generalizing acc with
  | nil => exact .refl _
  | cons lease leases ih => exact (renewLease_settles env h worker nowMs acc lease).trans (ih _)

theorem heartbeat_settles (s : AgentHelperState) (caller : Caller)
    (leases : List AgentLeaseHeartbeat) (telemetry : Option AgentResourceTelemetry) (nowMs : Nat) :
    Settles (s.pruneState nowMs)
      (s.heartbeatWithTelemetry env caller leases telemetry nowMs).1 := by
  unfold heartbeatWithTelemetry
  dsimp only
  split
  · exact .refl _
  · rename_i h worker _
    have htouch := touchWorker_settles (s.pruneState nowMs) h (after nowMs worker.registrationTtl)
      telemetry nowMs
    exact htouch.trans (renewLeases_settles env h worker nowMs
      (leases.take maxAgentParallelPerWorker) (_, ⟨[], [], after nowMs worker.registrationTtl⟩))

theorem underLease_settles {α : Type} (refusal : AgentTaskState → AgentHelperError)
    (use : AgentWorker → Found → JobCandidates × α) (next : TaskLease → AgentTaskState)
    (hnext : ∀ lease, StateSettles (.leased lease) (next lease)) (s : AgentHelperState)
    (caller : Caller) (workId leaseToken : String) (nowMs : Nat) :
    Settles (s.pruneState nowMs)
      (s.underLease env refusal use next caller workId leaseToken nowMs).1 := by
  unfold underLease
  dsimp only
  split
  · exact .refl _
  · split
    · exact .refl _
    · rename_i found hfound
      obtain ⟨hjob, -, htask, -⟩ := findTask_some hfound
      split
      · rename_i lease hlease
        split
        · refine Settles.of_modify fun job' hjob' => ?_
          obtain rfl := Option.some.inj (hjob.symm.trans hjob')
          have hstate : StateSettles found.task.state (next lease) := hlease ▸ hnext lease
          exact ⟨rfl, Pointwise.set TaskSettles.refl htask (.of_state hstate)⟩
        · exact .refl _
      · exact .refl _

end AgentHelperState

end TkbCherry.Agent
