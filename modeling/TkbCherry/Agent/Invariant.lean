import TkbCherry.Agent.Ops

/-!
# What holds between two calls

Work ids name tasks, a lease token or a request id of a worker names at most one lease, the
worker of a lease is registered, eligible and may work on the job, and no worker has more
leases than it asked for. The secrets drawn so far are kept beside the coordinator.
-/

namespace TkbCherry.Agent

set_option autoImplicit false

open Table TkbCherry.Pool AgentHelperState

/-! ### Work ids -/

theorem twoDigits_length {i : Nat} (hi : i < maxAgentSeedsPerJob) :
    (twoDigits (i + 1)).toList.length = 2 := by
  have hall : ∀ i < maxAgentSeedsPerJob, (twoDigits (i + 1)).toList.length = 2 := by decide
  exact hall i hi

theorem twoDigits_inj {i j : Nat} (hi : i < maxAgentSeedsPerJob) (hj : j < maxAgentSeedsPerJob)
    (h : twoDigits (i + 1) = twoDigits (j + 1)) : i = j := by
  have hall : ∀ i < maxAgentSeedsPerJob, ∀ j < maxAgentSeedsPerJob,
      twoDigits (i + 1) = twoDigits (j + 1) → i = j := by decide
  exact hall i hi j hj h

/-- The digits at the end have a fixed length, so a work id tells its job and its place. -/
theorem workIdFor_inj {k l : String} {i j : Nat} (hi : i < maxAgentSeedsPerJob)
    (hj : j < maxAgentSeedsPerJob) (h : workIdFor k i = workIdFor l j) : k = l ∧ i = j := by
  have hlist := congrArg String.toList h
  unfold workIdFor at hlist
  rw [String.toList_append, String.toList_append, String.toList_append, String.toList_append] at hlist
  obtain ⟨hhead, hdigits⟩ := List.append_inj' hlist
    (by rw [twoDigits_length hi, twoDigits_length hj])
  obtain ⟨hjob, -⟩ := List.append_inj' hhead rfl
  exact ⟨String.toList_inj.mp hjob, twoDigits_inj hi hj (String.toList_inj.mp hdigits)⟩

/-- The work ids of a job are those of its first tasks, in order. -/
def Named (jobId : String) (tasks : List AgentTask) : Prop :=
  ∃ n, n ≤ maxAgentSeedsPerJob ∧ tasks.map (·.workId) = (List.range n).map (workIdFor jobId)

theorem Named.workId {jobId : String} {tasks : List AgentTask} (h : Named jobId tasks) {i : Nat}
    {task : AgentTask} (ht : tasks[i]? = some task) :
    i < maxAgentSeedsPerJob ∧ task.workId = workIdFor jobId i := by
  obtain ⟨n, hn, hmap⟩ := h
  have hi := congrArg (fun ids : List String => ids[i]?) hmap
  rw [List.getElem?_map, List.getElem?_map, ht, Option.map_some] at hi
  obtain ⟨j, hj, hwork⟩ := Option.map_eq_some_iff.mp hi.symm
  obtain ⟨hlt, hji⟩ := List.getElem?_eq_some_iff.mp hj
  rw [List.getElem_range] at hji
  rw [List.length_range] at hlt
  exact ⟨by omega, by rw [← hwork, hji]⟩

/-! ### The invariant -/

structure Inv (env : Env) (s : AgentHelperState) (drawn : List String) : Prop where
  named : ∀ {k job}, s.jobs.lookup k = some job →
    job.jobId = k ∧ job.serial < s.nextSerial ∧ Named k job.tasks
  serials : ∀ {k l job job'}, s.jobs.lookup k = some job → s.jobs.lookup l = some job' →
    job.serial = job'.serial → k = l
  issued : ∀ {k i job task lease}, Held s k i job task lease →
    lease.leaseTokenHash = env.secretHash lease.leaseToken ∧ lease.leaseToken ∈ drawn ∧
      ∃ worker, s.workers.lookup lease.workerTokenHash = some worker ∧ worker.eligible = true ∧
        workerCanAccessJob worker job = true
  tokens : ∀ {k i job task lease l j job' task' lease'}, Held s k i job task lease →
    Held s l j job' task' lease' → lease.leaseToken = lease'.leaseToken → k = l ∧ i = j
  requests : ∀ {k i job task lease l j job' task' lease'}, Held s k i job task lease →
    Held s l j job' task' lease' → lease.workerTokenHash = lease'.workerTokenHash →
    lease.leaseRequestId = lease'.leaseRequestId → k = l ∧ i = j
  capacity : ∀ {h worker}, s.workers.lookup h = some worker → s.activeLeases h ≤ worker.maxParallel
  keys : ∀ {h worker}, s.workers.lookup h = some worker → ∃ token ∈ drawn, h = env.secretHash token
  identities : ∀ {h l worker worker'}, s.workers.lookup h = some worker →
    s.workers.lookup l = some worker' → worker.owner = worker'.owner →
    worker.sessionBinding = worker'.sessionBinding → worker.workerId = worker'.workerId → h = l

theorem workerCanAccessJob_congr {worker worker' : AgentWorker} {job job' : AgentJob}
    (hw : worker'.toWorkerHeader = worker.toWorkerHeader)
    (hj : job'.toJobHeader = job.toJobHeader) :
    workerCanAccessJob worker' job' = workerCanAccessJob worker job := by
  unfold workerCanAccessJob
  rw [hw, hj]

theorem leasedBy_iff {task : AgentTask} {h : String} :
    task.leasedBy h = true ↔ ∃ lease, task.state = .leased lease ∧ lease.workerTokenHash = h := by
  unfold AgentTask.leasedBy
  constructor
  · intro hb
    split at hb
    · rename_i lease hlease
      exact ⟨lease, hlease, of_decide_eq_true hb⟩
    · exact absurd hb (by simp)
  · rintro ⟨lease, hlease, hworker⟩
    rw [hlease]
    exact decide_eq_true hworker

theorem TaskSettles.leasedBy {task task' : AgentTask} {h : String} (hs : TaskSettles task task')
    (hb : task'.leasedBy h = true) : task.leasedBy h = true := by
  obtain ⟨lease', hlease', hworker⟩ := leasedBy_iff.mp hb
  have hstate := hs.state
  rw [hlease'] at hstate
  generalize hold : task.state = old at hstate
  cases hstate with
  | refl => exact leasedBy_iff.mpr ⟨lease', hold, hworker⟩
  | renew lease e => exact leasedBy_iff.mpr ⟨lease, hold, hworker⟩

section Settled
variable {env : Env} {s s' : AgentHelperState} {drawn drawn' : List String}

theorem Settles.activeLeases_le (h : Settles s s') (worker : String) :
    s'.activeLeases worker ≤ s.activeLeases worker := by
  refine total_le fun k job' hjob' => ?_
  obtain ⟨job, hjob, hsettles⟩ := h.jobs hjob'
  exact ⟨job, hjob, Pointwise.countP_le (fun _ _ ht hb => ht.leasedBy hb) hsettles.tasks⟩

theorem Inv.settles (hs : Inv env s drawn) (h : Settles s s') (hsub : drawn ⊆ drawn') :
    Inv env s' drawn' where
  named hj := by
    obtain ⟨job, hjob, hsettles⟩ := h.jobs hj
    obtain ⟨hid, hserial, n, hn, hmap⟩ := hs.named hjob
    have hworks := Pointwise.map_eq (f := fun t : AgentTask => t.workId) (g := fun t => t.workId)
      TaskSettles.workId hsettles.tasks
    rw [hsettles.header, h.serial]
    exact ⟨hid, hserial, n, hn, hworks.trans hmap⟩
  serials hj hl heq := by
    obtain ⟨job, hjob, hsettles⟩ := h.jobs hj
    obtain ⟨job', hjob', hsettles'⟩ := h.jobs hl
    rw [hsettles.header, hsettles'.header] at heq
    exact hs.serials hjob hjob' heq
  issued hh := by
    obtain ⟨job, task, lease, hheld, hsettles, -, hlease⟩ := h.held hh
    obtain ⟨hhash, hdrawn, worker, hworker, heligible, haccess⟩ := hs.issued hheld
    have hsame := congrArg TaskLease.workerTokenHash hlease
    have hpresent := h.present hh (by rw [hsame]; exact Option.isSome_iff_exists.mpr ⟨worker, hworker⟩)
    obtain ⟨worker', hworker'⟩ := Option.isSome_iff_exists.mp hpresent
    obtain ⟨old, hold, hheader⟩ := h.workers hworker'
    rw [hsame] at hold
    obtain rfl := Option.some.inj (hworker.symm.trans hold)
    rw [congrArg TaskLease.leaseTokenHash hlease, congrArg TaskLease.leaseToken hlease]
    refine ⟨hhash, hsub hdrawn, worker', hworker', ?_, ?_⟩
    · rw [hheader]
      exact heligible
    · rw [workerCanAccessJob_congr hheader hsettles.header]
      exact haccess
  tokens hh hl heq := by
    obtain ⟨_, _, lease, hheld, -, -, hlease⟩ := h.held hh
    obtain ⟨_, _, lease', hheld', -, -, hlease'⟩ := h.held hl
    rw [congrArg TaskLease.leaseToken hlease, congrArg TaskLease.leaseToken hlease'] at heq
    exact hs.tokens hheld hheld' heq
  requests hh hl hworker hrequest := by
    obtain ⟨_, _, lease, hheld, -, -, hlease⟩ := h.held hh
    obtain ⟨_, _, lease', hheld', -, -, hlease'⟩ := h.held hl
    rw [congrArg TaskLease.workerTokenHash hlease, congrArg TaskLease.workerTokenHash hlease'] at hworker
    rw [congrArg TaskLease.leaseRequestId hlease, congrArg TaskLease.leaseRequestId hlease'] at hrequest
    exact hs.requests hheld hheld' hworker hrequest
  capacity hw := by
    obtain ⟨worker, hworker, hheader⟩ := h.workers hw
    rw [hheader]
    exact (h.activeLeases_le _).trans (hs.capacity hworker)
  keys hw := by
    obtain ⟨worker, hworker, -⟩ := h.workers hw
    obtain ⟨token, htoken, hhash⟩ := hs.keys hworker
    exact ⟨token, hsub htoken, hhash⟩
  identities hw hw' := by
    obtain ⟨worker, hworker, hheader⟩ := h.workers hw
    obtain ⟨worker', hworker', hheader'⟩ := h.workers hw'
    rw [hheader, hheader']
    exact hs.identities hworker hworker'

end Settled

/-! ### New registrations, jobs and leases -/

theorem activeLeases_eq_zero {s : AgentHelperState} {h : String}
    (hnone : ∀ {k i job task lease}, Held s k i job task lease → lease.workerTokenHash ≠ h) :
    s.activeLeases h = 0 := by
  refine total_eq_zero _ fun k job hjob => ?_
  rw [List.countP_eq_zero]
  intro task htask hb
  obtain ⟨i, hi, hget⟩ := List.getElem_of_mem htask
  obtain ⟨lease, hlease, hworker⟩ := leasedBy_iff.mp hb
  exact hnone ⟨hjob, List.getElem?_eq_some_iff.mpr ⟨hi, hget⟩, hlease⟩ hworker

section New
variable {env : Env} {base s' : AgentHelperState} {drawn : List String} {token : String}

theorem Inv.key_fresh (hb : Inv env base drawn) (hinj : Function.Injective env.secretHash)
    (hfresh : token ∉ drawn) : base.workers.lookup (env.secretHash token) = none := by
  cases hl : base.workers.lookup (env.secretHash token) with
  | none => rfl
  | some worker =>
    obtain ⟨t, ht, hhash⟩ := hb.keys hl
    exact absurd (hinj hhash ▸ ht) hfresh

theorem Inv.registers (hb : Inv env base drawn) (hinj : Function.Injective env.secretHash)
    (hfresh : token ∉ drawn) {worker : AgentWorker}
    (hnew : ∀ h old, base.workers.lookup h = some old → ¬ (old.owner = worker.owner ∧
      old.sessionBinding = worker.sessionBinding ∧ old.workerId = worker.workerId))
    (hworkers : s'.workers = base.workers.insert (env.secretHash token) worker)
    (hjobs : s'.jobs = base.jobs) (hserial : s'.nextSerial = base.nextSerial) :
    Inv env s' (token :: drawn) := by
  have hkey := hb.key_fresh hinj hfresh
  have hheld {k i job task lease} (h : Held s' k i job task lease) : Held base k i job task lease :=
    ⟨hjobs ▸ h.jobAt, h.taskAt, h.leased⟩
  have hnone {k i job task lease} (h : Held s' k i job task lease) :
      lease.workerTokenHash ≠ env.secretHash token := by
    obtain ⟨-, -, old, hold, -⟩ := hb.issued (hheld h)
    intro he
    rw [he, hkey] at hold
    exact absurd hold (by simp)
  have hlookup {h w} (hw : s'.workers.lookup h = some w) :
      h = env.secretHash token ∧ w = worker ∨
        h ≠ env.secretHash token ∧ base.workers.lookup h = some w := by
    rw [hworkers] at hw
    rcases eq_or_ne h (env.secretHash token) with he | he
    · rw [he, AList.lookup_insert] at hw
      exact .inl ⟨he, (Option.some.inj hw).symm⟩
    · rw [AList.lookup_insert_ne he] at hw
      exact .inr ⟨he, hw⟩
  constructor
  · intro k job hj
    rw [hserial]
    exact hb.named (hjobs ▸ hj)
  · intro k l job job' hj hl heq
    exact hb.serials (hjobs ▸ hj) (hjobs ▸ hl) heq
  · intro k i job task lease h
    obtain ⟨hhash, hdrawn, old, hold, hrest⟩ := hb.issued (hheld h)
    refine ⟨hhash, List.mem_cons_of_mem _ hdrawn, old, ?_, hrest⟩
    rw [hworkers, AList.lookup_insert_ne (hnone h)]
    exact hold
  · intro k i job task lease l j job' task' lease' h h' heq
    exact hb.tokens (hheld h) (hheld h') heq
  · intro k i job task lease l j job' task' lease' h h' hw hr
    exact hb.requests (hheld h) (hheld h') hw hr
  · intro h w hw
    rcases hlookup hw with ⟨he, -⟩ | ⟨-, hold⟩
    · rw [activeLeases_eq_zero fun hh => he ▸ hnone hh]
      exact Nat.zero_le _
    · unfold activeLeases
      rw [hjobs]
      exact hb.capacity hold
  · intro h w hw
    rcases hlookup hw with ⟨he, -⟩ | ⟨-, hold⟩
    · exact ⟨token, List.mem_cons_self, he⟩
    · obtain ⟨t, ht, hhash⟩ := hb.keys hold
      exact ⟨t, List.mem_cons_of_mem _ ht, hhash⟩
  · intro h l w w' hw hw' ho hs hi
    rcases hlookup hw with ⟨he, rfl⟩ | ⟨-, hold⟩
    · rcases hlookup hw' with ⟨he', -⟩ | ⟨-, hold'⟩
      · exact he.trans he'.symm
      · exact absurd ⟨ho.symm, hs.symm, hi.symm⟩ (hnew l w' hold')
    · rcases hlookup hw' with ⟨-, rfl⟩ | ⟨-, hold'⟩
      · exact absurd ⟨ho, hs, hi⟩ (hnew h w hold)
      · exact hb.identities hold hold' ho hs hi

/-- A new job has no leases. -/
theorem held_open {job : AgentJob} (hqueued : ∀ task ∈ job.tasks, task.state = .queued)
    (hjobs : s'.jobs = base.jobs.insert job.jobId job) {k : String} {i : Nat} {old : AgentJob}
    {task : AgentTask} {lease : TaskLease} (h : Held s' k i old task lease) :
    Held base k i old task lease := by
  have hk := h.jobAt
  rw [hjobs] at hk
  rcases eq_or_ne k job.jobId with he | he
  · rw [he, AList.lookup_insert, Option.some.injEq] at hk
    subst hk
    have hstate := hqueued task (List.mem_of_getElem? h.taskAt)
    rw [h.leased] at hstate
    exact absurd hstate (by simp)
  · rw [AList.lookup_insert_ne he] at hk
    exact ⟨hk, h.taskAt, h.leased⟩

theorem activeLeases_open {job : AgentJob} (hnone : base.jobs.lookup job.jobId = none)
    (hqueued : ∀ task ∈ job.tasks, task.state = .queued)
    (hjobs : s'.jobs = base.jobs.insert job.jobId job) (h : String) :
    s'.activeLeases h = base.activeLeases h := by
  have hzero : job.tasks.countP (fun task => task.leasedBy h) = 0 := by
    rw [List.countP_eq_zero]
    intro task ht hb
    obtain ⟨lease, hlease, -⟩ := leasedBy_iff.mp hb
    rw [hqueued task ht] at hlease
    exact absurd hlease (by simp)
  unfold activeLeases
  rw [hjobs, total_insert _ _ hnone, hzero, Nat.zero_add]

theorem Inv.opens (hb : Inv env base drawn) {job : AgentJob} {n : Nat}
    (hnone : base.jobs.lookup job.jobId = none) (hn : n ≤ maxAgentSeedsPerJob)
    (hjob : job.serial = base.nextSerial)
    (htasks : job.tasks.map (·.workId) = (List.range n).map (workIdFor job.jobId))
    (hqueued : ∀ task ∈ job.tasks, task.state = .queued)
    (hworkers : s'.workers = base.workers) (hjobs : s'.jobs = base.jobs.insert job.jobId job)
    (hserial : s'.nextSerial = base.nextSerial + 1) : Inv env s' drawn := by
  have hlookup {k old} (hk : s'.jobs.lookup k = some old) :
      k = job.jobId ∧ old = job ∨ base.jobs.lookup k = some old := by
    rw [hjobs] at hk
    rcases eq_or_ne k job.jobId with he | he
    · rw [he, AList.lookup_insert] at hk
      exact .inl ⟨he, (Option.some.inj hk).symm⟩
    · rw [AList.lookup_insert_ne he] at hk
      exact .inr hk
  have hheld {k i old task lease} (h : Held s' k i old task lease) : Held base k i old task lease :=
    held_open hqueued hjobs h
  constructor
  · intro k old hk
    rw [hserial]
    rcases hlookup hk with ⟨rfl, rfl⟩ | hold
    · exact ⟨rfl, by omega, n, hn, htasks⟩
    · obtain ⟨hid, hlt, hnamed⟩ := hb.named hold
      exact ⟨hid, by omega, hnamed⟩
  · intro k l old old' hk hl heq
    rcases hlookup hk with ⟨rfl, rfl⟩ | hold
    · rcases hlookup hl with ⟨rfl, -⟩ | hold'
      · rfl
      · have hlt := (hb.named hold').2.1
        omega
    · rcases hlookup hl with ⟨-, rfl⟩ | hold'
      · have hlt := (hb.named hold).2.1
        omega
      · exact hb.serials hold hold' heq
  · intro k i old task lease h
    rw [hworkers]
    exact hb.issued (hheld h)
  · intro k i old task lease l j old' task' lease' h h' heq
    exact hb.tokens (hheld h) (hheld h') heq
  · intro k i old task lease l j old' task' lease' h h' hw hr
    exact hb.requests (hheld h) (hheld h') hw hr
  · intro h w hw
    rw [activeLeases_open hnone hqueued hjobs]
    exact hb.capacity (hworkers ▸ hw)
  · intro h w hw
    exact hb.keys (hworkers ▸ hw)
  · intro h l w w' hw hw'
    exact hb.identities (hworkers ▸ hw) (hworkers ▸ hw')

end New

/-! ### Grants -/

section Replay
variable {s : AgentHelperState} {h requestId : String} {worker : AgentWorker} {nowMs : Nat}

theorem replay_some {lease : AgentWorkLease} (hr : s.replay h worker requestId nowMs = some lease) :
    ∃ k i job task held, Held s k i job task held ∧ held.workerTokenHash = h ∧
      held.leaseRequestId = requestId ∧ lease = workLease k job task held := by
  obtain ⟨⟨k, job⟩, hmem, hjob⟩ := List.exists_of_findSome?_eq_some hr
  split at hjob
  · obtain ⟨task, htask, hfound⟩ := List.exists_of_findSome?_eq_some hjob
    split at hfound
    · rename_i held hheld
      split at hfound
      · rename_i hok
        obtain ⟨i, hi, hget⟩ := List.getElem_of_mem htask
        exact ⟨k, i, job, task, held, ⟨mem_toList_iff.mp hmem,
          List.getElem?_eq_some_iff.mpr ⟨hi, hget⟩, hheld⟩, hok.1, hok.2.1,
          (Option.some.inj hfound).symm⟩
      · exact absurd hfound (by simp)
    · exact absurd hfound (by simp)
  · exact absurd hjob (by simp)

/-- A live lease under a request id is found. -/
theorem replay_isSome {k : String} {i : Nat} {job : AgentJob} {task : AgentTask} {held : TaskLease}
    (hh : Held s k i job task held) (haccess : workerCanAccessJob worker job = true)
    (hw : held.workerTokenHash = h) (hr : held.leaseRequestId = requestId)
    (hlive : nowMs < held.expiresAtMs) : (s.replay h worker requestId nowMs).isSome := by
  refine List.findSome?_isSome_iff.mpr ⟨(k, job), mem_toList_iff.mpr hh.jobAt, ?_⟩
  rw [if_pos haccess]
  refine List.findSome?_isSome_iff.mpr ⟨task, List.mem_of_getElem? hh.taskAt, ?_⟩
  simp only [hh.leased]
  rw [if_pos ⟨hw, hr, hlive⟩]
  rfl

end Replay

section Grants
variable {env : Env} {base s' : AgentHelperState} {drawn : List String} {token h requestId : String}
  {nowMs : Nat}

/-- After a task is put, the leases elsewhere are as before. -/
theorem held_putTask {k l : String} {i j : Nat} {job job' : AgentJob} {old task task' : AgentTask}
    {lease : TaskLease} (hjob : base.jobs.lookup k = some job) (hold : job.tasks[i]? = some old)
    (hh : Held (base.putTask k i task) l j job' task' lease) :
    (l = k ∧ j = i ∧ task' = task ∧ job'.toJobHeader = job.toJobHeader) ∨
      ¬ (l = k ∧ j = i) ∧
        ∃ before, Held base l j before task' lease ∧ job'.toJobHeader = before.toJobHeader := by
  have hlookup := hh.jobAt
  unfold putTask at hlookup
  rw [lookup_modify] at hlookup
  have htask := hh.taskAt
  split at hlookup
  · rename_i hl
    subst hl
    rw [hjob, Option.map_some, Option.some.injEq] at hlookup
    subst hlookup
    rcases eq_or_ne i j with hj | hj
    · subst hj
      have hlt := (List.getElem?_eq_some_iff.mp hold).1
      rw [List.getElem?_set_self hlt, Option.some.injEq] at htask
      exact .inl ⟨rfl, rfl, htask.symm, rfl⟩
    · rw [List.getElem?_set_ne hj] at htask
      exact .inr ⟨fun hsame => hj hsame.2.symm, job, ⟨hjob, htask, hh.leased⟩, rfl⟩
  · rename_i hl
    exact .inr ⟨fun hsame => hl hsame.1, job', ⟨hlookup, htask, hh.leased⟩, rfl⟩

variable (env token) in
theorem Grant.activeLeases (g : Grant env base h requestId nowMs) (k : String) :
    (base.putTask g.jobId g.index (leasedTask env h requestId token nowMs g.task)).activeLeases k =
      base.activeLeases k + if h = k then 1 else 0 := by
  obtain ⟨hlt, hget⟩ := List.getElem?_eq_some_iff.mp g.taskAt
  have hbefore : g.task.leasedBy k = false := by
    unfold AgentTask.leasedBy
    rw [g.queued]
  have hafter : (leasedTask env h requestId token nowMs g.task).leasedBy k = decide (h = k) := rfl
  have hcount : (g.job.tasks.set g.index (leasedTask env h requestId token nowMs g.task)).countP
      (fun task => task.leasedBy k) =
      g.job.tasks.countP (fun task => task.leasedBy k) + if h = k then 1 else 0 := by
    rw [List.countP_set hlt, hget, hbefore, hafter]
    simp
  have htotal := total_modify_at (fun job : AgentJob => job.tasks.countP fun task => task.leasedBy k)
    g.jobAt fun job => { job with
      tasks := job.tasks.set g.index (leasedTask env h requestId token nowMs g.task) }
  dsimp only at htotal
  rw [hcount] at htotal
  unfold AgentHelperState.activeLeases putTask
  dsimp only
  omega

theorem Grant.held (g : Grant env base h requestId nowMs)
    (hjobs : s'.jobs = (base.putTask g.jobId g.index
      (leasedTask env h requestId token nowMs g.task)).jobs)
    {k : String} {i : Nat} {job : AgentJob} {task : AgentTask} {lease : TaskLease}
    (hh : Held s' k i job task lease) :
    (k = g.jobId ∧ i = g.index ∧ job.toJobHeader = g.job.toJobHeader ∧
      lease = ⟨h, env.secretHash token, token, requestId, after nowMs agentWorkLeaseMs⟩) ∨
    ¬ (k = g.jobId ∧ i = g.index) ∧
      ∃ before, Held base k i before task lease ∧ job.toJobHeader = before.toJobHeader := by
  have hput := held_putTask g.jobAt g.taskAt ⟨hjobs ▸ hh.jobAt, hh.taskAt, hh.leased⟩
  rcases hput with ⟨hk, hi, htask, hheader⟩ | hother
  · have hleased := hh.leased
    rw [htask] at hleased
    exact .inl ⟨hk, hi, hheader, (AgentTaskState.leased.inj hleased).symm⟩
  · exact .inr hother

variable (env token) in
/-- The new lease is held. -/
theorem Grant.heldAfter (g : Grant env base h requestId nowMs) :
    ∃ job, Held (base.putTask g.jobId g.index (leasedTask env h requestId token nowMs g.task))
      g.jobId g.index job (leasedTask env h requestId token nowMs g.task)
      ⟨h, env.secretHash token, token, requestId, after nowMs agentWorkLeaseMs⟩ ∧
      job.toJobHeader = g.job.toJobHeader := by
  have hlt := (List.getElem?_eq_some_iff.mp g.taskAt).1
  refine ⟨{ g.job with
    tasks := g.job.tasks.set g.index (leasedTask env h requestId token nowMs g.task) },
    ⟨?_, List.getElem?_set_self hlt, rfl⟩, rfl⟩
  rw [putTask, lookup_modify_self, g.jobAt, Option.map_some]

theorem Inv.grants (hb : Inv env base drawn) (hfresh : token ∉ drawn)
    (g : Grant env base h requestId nowMs)
    (hlive : ∀ {k i job task lease}, Held base k i job task lease → nowMs < lease.expiresAtMs)
    (hworkers : s'.workers = base.workers)
    (hjobs : s'.jobs = (base.putTask g.jobId g.index
      (leasedTask env h requestId token nowMs g.task)).jobs)
    (hserial : s'.nextSerial = base.nextSerial) : Inv env s' (token :: drawn) := by
  have hheld {k i job task lease} (hh : Held s' k i job task lease) := g.held hjobs hh
  -- the new token and the new request id name no other lease
  have htoken {k i job task lease} (hh : Held base k i job task lease) : lease.leaseToken ≠ token :=
    fun he => hfresh (he ▸ (hb.issued hh).2.1)
  have hrequest {k i job task lease} (hh : Held base k i job task lease)
      (hw : lease.workerTokenHash = h) : lease.leaseRequestId ≠ requestId := by
    intro hr
    obtain ⟨-, -, worker, hworker, -, haccess⟩ := hb.issued hh
    rw [hw] at hworker
    obtain rfl := Option.some.inj (g.workerAt.symm.trans hworker)
    have hsome := replay_isSome hh haccess hw hr (hlive hh)
    rw [g.fresh] at hsome
    exact absurd hsome (by simp)
  constructor
  · intro k job hk
    rw [hserial]
    rw [hjobs, putTask, lookup_modify] at hk
    split at hk
    · rename_i he
      rw [g.jobAt, Option.map_some, Option.some.injEq] at hk
      obtain ⟨hid, hlt, n, hn, hmap⟩ := hb.named g.jobAt
      subst he hk
      refine ⟨hid, hlt, n, hn, ?_⟩
      have hsame := Pointwise.set (S := fun (t t' : AgentTask) => t'.workId = t.workId) (fun _ => rfl)
        g.taskAt (b := leasedTask env h requestId token nowMs g.task) rfl
      have hworks := Pointwise.map_eq (f := fun t : AgentTask => t.workId)
        (g := fun t : AgentTask => t.workId) (fun ht => ht) hsame
      exact hworks.trans hmap
    · exact hb.named hk
  · intro k l job job' hk hl heq
    have hserialOf {k job} (hk : s'.jobs.lookup k = some job) :
        ∃ before, base.jobs.lookup k = some before ∧ job.serial = before.serial := by
      rw [hjobs, putTask, lookup_modify] at hk
      split at hk
      · rename_i he
        obtain ⟨before, hbefore, rfl⟩ := Option.map_eq_some_iff.mp hk
        exact ⟨before, he ▸ hbefore, rfl⟩
      · exact ⟨job, hk, rfl⟩
    obtain ⟨before, hbefore, hs⟩ := hserialOf hk
    obtain ⟨before', hbefore', hs'⟩ := hserialOf hl
    exact hb.serials hbefore hbefore' (hs.symm.trans (heq.trans hs'))
  · intro k i job task lease hh
    rw [hworkers]
    rcases hheld hh with ⟨-, -, hheader, rfl⟩ | ⟨-, before, hbefore, hheader⟩
    · refine ⟨rfl, List.mem_cons_self, g.worker, g.workerAt, g.eligible, ?_⟩
      rw [workerCanAccessJob_congr rfl hheader]
      exact g.access
    · obtain ⟨hhash, hdrawn, worker, hworker, heligible, haccess⟩ := hb.issued hbefore
      refine ⟨hhash, List.mem_cons_of_mem _ hdrawn, worker, hworker, heligible, ?_⟩
      rw [workerCanAccessJob_congr rfl hheader]
      exact haccess
  · intro k i job task lease l j job' task' lease' hh hl heq
    rcases hheld hh with ⟨rfl, rfl, -, rfl⟩ | ⟨-, before, hbefore, -⟩
    · rcases hheld hl with ⟨rfl, rfl, -, -⟩ | ⟨-, before', hbefore', -⟩
      · exact ⟨rfl, rfl⟩
      · exact absurd heq.symm (htoken hbefore')
    · rcases hheld hl with ⟨-, -, -, rfl⟩ | ⟨-, before', hbefore', -⟩
      · exact absurd heq (htoken hbefore)
      · exact hb.tokens hbefore hbefore' heq
  · intro k i job task lease l j job' task' lease' hh hl hw hr
    rcases hheld hh with ⟨rfl, rfl, -, rfl⟩ | ⟨-, before, hbefore, -⟩
    · rcases hheld hl with ⟨rfl, rfl, -, -⟩ | ⟨-, before', hbefore', -⟩
      · exact ⟨rfl, rfl⟩
      · exact absurd hr.symm (hrequest hbefore' hw.symm)
    · rcases hheld hl with ⟨-, -, -, rfl⟩ | ⟨-, before', hbefore', -⟩
      · exact absurd hr (hrequest hbefore hw)
      · exact hb.requests hbefore hbefore' hw hr
  · intro k worker hw
    rw [hworkers] at hw
    have hactive : s'.activeLeases k = base.activeLeases k + if h = k then 1 else 0 := by
      rw [← g.activeLeases env token k]
      unfold AgentHelperState.activeLeases
      rw [hjobs]
    rw [hactive]
    split
    · rename_i he
      subst he
      obtain rfl := Option.some.inj (g.workerAt.symm.trans hw)
      exact g.room
    · exact hb.capacity hw
  · intro k worker hw
    obtain ⟨t, ht, hhash⟩ := hb.keys (hworkers ▸ hw)
    exact ⟨t, List.mem_cons_of_mem _ ht, hhash⟩
  · intro k l worker worker' hw hw'
    exact hb.identities (hworkers ▸ hw) (hworkers ▸ hw')

end Grants

end TkbCherry.Agent
