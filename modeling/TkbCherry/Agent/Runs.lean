import TkbCherry.Agent.Invariant
import TkbCherry.Lib.Transition

/-!
# Runs of the coordinator

Calls in any order, by any number of workers, each drawing secrets that were not drawn before.
What a later state still has of an earlier one: leases under old tokens are old leases, and a
task once completed stays so as long as its job is there.
-/

namespace TkbCherry.Agent

set_option autoImplicit false

open Table TkbCherry.Pool AgentHelperState

/-- The coordinator and the secrets drawn so far. -/
structure World where
  state : AgentHelperState
  drawn : List String

def World.init : World := ⟨.empty, []⟩

def World.after (env : Env) (w : World) (op : AgentOp) : World :=
  ⟨op.apply env w.state, op.secret.toList ++ w.drawn⟩

/-- A call whose secret is a new one. -/
def Step (env : Env) (w : World) (op : AgentOp) (w' : World) : Prop :=
  (∀ token ∈ op.secret, token ∉ w.drawn) ∧ w' = w.after env op

variable {env : Env}

def World.Inv (env : Env) (w : World) : Prop := Agent.Inv env w.state w.drawn

theorem World.inv_init : World.init.Inv env := by
  have hjob {k job} (h : World.init.state.jobs.lookup k = some job) : False := by
    exact absurd ((AList.lookup_empty k).symm.trans h) (by simp)
  have hworker {h worker} (hw : World.init.state.workers.lookup h = some worker) : False := by
    exact absurd ((AList.lookup_empty h).symm.trans hw) (by simp)
  exact ⟨fun h => (hjob h).elim, fun h => (hjob h).elim, fun h => (hjob h.jobAt).elim,
    fun h => (hjob h.jobAt).elim, fun h => (hjob h.jobAt).elim, fun h => (hworker h).elim,
    fun h => (hworker h).elim, fun h => (hworker h).elim⟩

/-- The invariant is kept by every call with a new secret. -/
theorem World.Inv.step (hinj : Function.Injective env.secretHash) {w w' : World} {op : AgentOp}
    (hw : w.Inv env) (h : Step env w op w') : w'.Inv env := by
  obtain ⟨hfresh, rfl⟩ := h
  have hsub : w.drawn ⊆ op.secret.toList ++ w.drawn := List.subset_append_right _ _
  unfold World.Inv World.after
  cases op.effect env w.state with
  | settles h => exact Agent.Inv.settles hw h hsub
  | registers base worker token hbase hsecret hnew hworkers hjobs hserial =>
    rw [hsecret] at hfresh ⊢
    have hb := Agent.Inv.settles hw hbase (List.Subset.refl _)
    exact hb.registers hinj (hfresh token rfl) hnew hworkers hjobs hserial
  | opens base job n hbase hnone hn hjob htasks hqueued hworkers hjobs hserial =>
    have hb := Agent.Inv.settles hw hbase hsub
    exact hb.opens hnone hn hjob htasks hqueued hworkers hjobs hserial
  | grants nowMs h requestId token g hsecret hworkers hjobs hserial =>
    rw [hsecret] at hfresh ⊢
    have hb := Agent.Inv.settles hw (w.state.pruneState_settles nowMs) (List.Subset.refl _)
    exact hb.grants (hfresh token rfl) g (fun hh => pruneState_held w.state hh) hworkers hjobs hserial

theorem World.Inv.run (hinj : Function.Injective env.secretHash) {w w' : World}
    {ops : List AgentOp} (hw : w.Inv env) (h : Transition.Run (Step env) w ops w') : w'.Inv env :=
  Transition.Run.invariant (fun hi hs => World.Inv.step hinj hi hs) h hw

/-! ### What is carried along -/

structure TaskCarries (task task' : AgentTask) : Prop where
  workId : task'.workId = task.workId
  completed : task.state = .completed → task'.state = .completed

theorem TaskCarries.refl (task : AgentTask) : TaskCarries task task := ⟨rfl, fun h => h⟩

theorem TaskCarries.trans {a b c : AgentTask} (h : TaskCarries a b) (k : TaskCarries b c) :
    TaskCarries a c :=
  ⟨k.workId.trans h.workId, fun hc => k.completed (h.completed hc)⟩

theorem TaskSettles.carries {task task' : AgentTask} (h : TaskSettles task task') :
    TaskCarries task task' := by
  refine ⟨h.workId, fun hc => ?_⟩
  have hstate := h.state
  rw [hc] at hstate
  generalize task'.state = state at hstate ⊢
  cases hstate
  rfl

structure Carries (env : Env) (w w' : World) : Prop where
  drawn : w.drawn ⊆ w'.drawn
  serial : w.state.nextSerial ≤ w'.state.nextSerial
  workers : ∀ {token worker'}, token ∈ w.drawn →
    w'.state.workers.lookup (env.secretHash token) = some worker' →
    ∃ worker, w.state.workers.lookup (env.secretHash token) = some worker ∧
      worker'.toWorkerHeader = worker.toWorkerHeader
  jobs : ∀ {k job'}, w'.state.jobs.lookup k = some job' → job'.serial < w.state.nextSerial →
    ∃ job, w.state.jobs.lookup k = some job ∧ job'.toJobHeader = job.toJobHeader ∧
      List.Forall₂ TaskCarries job.tasks job'.tasks
  held : ∀ {k i job' task' lease'}, Held w'.state k i job' task' lease' →
    lease'.leaseToken ∈ w.drawn → ∃ job task lease, Held w.state k i job task lease ∧
      job'.toJobHeader = job.toJobHeader ∧ task'.workId = task.workId ∧ task'.seed = task.seed ∧
      task'.attempt = task.attempt ∧ lease' = { lease with expiresAtMs := lease'.expiresAtMs }

namespace Carries

theorem refl (w : World) : Carries env w w :=
  ⟨List.Subset.refl _, Nat.le_refl _, fun _ h => ⟨_, h, rfl⟩,
    fun h _ => ⟨_, h, rfl, List.forall₂_same.mpr fun task _ => .refl task⟩,
    fun h _ => ⟨_, _, _, h, rfl, rfl, rfl, rfl, rfl⟩⟩

theorem trans {u v w : World} (h : Carries env u v) (k : Carries env v w) : Carries env u w where
  drawn := List.Subset.trans h.drawn k.drawn
  serial := h.serial.trans k.serial
  workers ht hw := by
    obtain ⟨worker', hw', hsame'⟩ := k.workers (h.drawn ht) hw
    obtain ⟨worker, hw, hsame⟩ := h.workers ht hw'
    exact ⟨worker, hw, hsame'.trans hsame⟩
  jobs hj hlt := by
    obtain ⟨job', hj', hsame', htasks'⟩ := k.jobs hj (Nat.lt_of_lt_of_le hlt h.serial)
    obtain ⟨job, hj, hsame, htasks⟩ := h.jobs hj' (by rw [← hsame']; exact hlt)
    exact ⟨job, hj, hsame'.trans hsame,
      Pointwise.trans (S := TaskCarries) TaskCarries.trans htasks htasks'⟩
  held hh ht := by
    obtain ⟨job', task', lease', hh', hj', hw', hs', ha', hl'⟩ := k.held hh (h.drawn ht)
    rw [congrArg TaskLease.leaseToken hl'] at ht
    obtain ⟨job, task, lease, hh, hj, hw, hs, ha, hl⟩ := h.held hh' ht
    refine ⟨job, task, lease, hh, hj'.trans hj, hw'.trans hw, hs'.trans hs, ha'.trans ha, ?_⟩
    rw [hl', hl]

theorem of_settles {s s' : AgentHelperState} {drawn drawn' : List String} (h : Settles s s')
    (hsub : drawn ⊆ drawn') : Carries env ⟨s, drawn⟩ ⟨s', drawn'⟩ where
  drawn := hsub
  serial := h.serial.ge
  workers _ hw := h.workers hw
  jobs hj _ := by
    obtain ⟨job, hjob, hsettles⟩ := h.jobs hj
    exact ⟨job, hjob, hsettles.header, hsettles.tasks.imp fun _ _ ht => ht.carries⟩
  held hh _ := by
    obtain ⟨job, task, lease, hheld, hj, ht, hl⟩ := h.held hh
    exact ⟨job, task, lease, hheld, hj.header, ht.workId, ht.seed, ht.attempt, hl⟩

section New
variable {base s' : AgentHelperState} {drawn : List String} {token : String}

theorem of_registers (hinj : Function.Injective env.secretHash) (hfresh : token ∉ drawn)
    {worker : AgentWorker}
    (hworkers : s'.workers = base.workers.insert (env.secretHash token) worker)
    (hjobs : s'.jobs = base.jobs) (hserial : s'.nextSerial = base.nextSerial) :
    Carries env ⟨base, drawn⟩ ⟨s', token :: drawn⟩ where
  drawn := List.subset_cons_self _ _
  serial := hserial.ge
  workers {t worker'} ht hw := by
    have hne : env.secretHash t ≠ env.secretHash token := fun he => hfresh (hinj he ▸ ht)
    dsimp only at hw
    rw [hworkers, AList.lookup_insert_ne hne] at hw
    exact ⟨worker', hw, rfl⟩
  jobs {k job'} hj _ :=
    ⟨job', hjobs ▸ hj, rfl, List.forall₂_same.mpr fun task _ => .refl task⟩
  held {k i job' task' lease'} hh _ :=
    ⟨job', task', lease', ⟨hjobs ▸ hh.jobAt, hh.taskAt, hh.leased⟩, rfl, rfl, rfl, rfl, rfl⟩

theorem of_opens {job : AgentJob} (hjob : job.serial = base.nextSerial)
    (hqueued : ∀ task ∈ job.tasks, task.state = .queued) (hworkers : s'.workers = base.workers)
    (hjobs : s'.jobs = base.jobs.insert job.jobId job)
    (hserial : s'.nextSerial = base.nextSerial + 1) :
    Carries env ⟨base, drawn⟩ ⟨s', drawn⟩ where
  drawn := List.Subset.refl _
  serial := by
    dsimp only
    omega
  workers {t worker'} _ hw := ⟨worker', hworkers ▸ hw, rfl⟩
  jobs {k job'} hj hlt := by
    dsimp only at hj hlt
    rw [hjobs] at hj
    rcases eq_or_ne k job.jobId with he | he
    · rw [he, AList.lookup_insert, Option.some.injEq] at hj
      subst hj
      omega
    · rw [AList.lookup_insert_ne he] at hj
      exact ⟨job', hj, rfl, List.forall₂_same.mpr fun task _ => .refl task⟩
  held {k i job' task' lease'} hh _ :=
    ⟨job', task', lease', held_open hqueued hjobs hh, rfl, rfl, rfl, rfl, rfl⟩

theorem of_grants (hfresh : token ∉ drawn) {h requestId : String} {nowMs : Nat}
    (g : Grant env base h requestId nowMs) (hworkers : s'.workers = base.workers)
    (hjobs : s'.jobs = (base.putTask g.jobId g.index
      (leasedTask env h requestId token nowMs g.task)).jobs)
    (hserial : s'.nextSerial = base.nextSerial) :
    Carries env ⟨base, drawn⟩ ⟨s', token :: drawn⟩ where
  drawn := List.subset_cons_self _ _
  serial := hserial.ge
  workers {t worker'} _ hw := ⟨worker', hworkers ▸ hw, rfl⟩
  jobs {k job'} hj _ := by
    dsimp only at hj
    rw [hjobs, putTask, lookup_modify] at hj
    split at hj
    · rename_i he
      rw [g.jobAt, Option.map_some, Option.some.injEq] at hj
      subst he hj
      refine ⟨g.job, g.jobAt, rfl, Pointwise.set TaskCarries.refl g.taskAt ⟨rfl, fun hc => ?_⟩⟩
      rw [g.queued] at hc
      exact absurd hc (by simp)
    · exact ⟨job', hj, rfl, List.forall₂_same.mpr fun task _ => .refl task⟩
  held {k i job' task' lease'} hh ht := by
    rcases g.held hjobs hh with ⟨-, -, -, hlease⟩ | ⟨-, before, hbefore, hheader⟩
    · rw [hlease] at ht
      exact absurd ht hfresh
    · exact ⟨before, task', lease', hbefore, hheader, rfl, rfl, rfl, rfl⟩

end New

theorem of_step (hinj : Function.Injective env.secretHash) {w w' : World} {op : AgentOp}
    (h : Step env w op w') : Carries env w w' := by
  obtain ⟨hfresh, rfl⟩ := h
  have hsub : w.drawn ⊆ op.secret.toList ++ w.drawn := List.subset_append_right _ _
  unfold World.after
  cases op.effect env w.state with
  | settles h => exact of_settles h hsub
  | registers base worker token hbase hsecret hnew hworkers hjobs hserial =>
    rw [hsecret] at hfresh ⊢
    exact (of_settles hbase (List.Subset.refl _)).trans
      (of_registers hinj (hfresh token rfl) hworkers hjobs hserial)
  | opens base job n hbase hnone hn hjob htasks hqueued hworkers hjobs hserial =>
    exact (of_settles hbase hsub).trans (of_opens hjob hqueued hworkers hjobs hserial)
  | grants nowMs h requestId token g hsecret hworkers hjobs hserial =>
    rw [hsecret] at hfresh ⊢
    exact (of_settles (w.state.pruneState_settles nowMs) (List.Subset.refl _)).trans
      (of_grants (hfresh token rfl) g hworkers hjobs hserial)

theorem of_run (hinj : Function.Injective env.secretHash) {w w' : World} {ops : List AgentOp}
    (h : Transition.Run (Step env) w ops w') : Carries env w w' :=
  Transition.Run.related (I := fun _ => True) refl trans (fun _ _ => trivial)
    (fun _ hs => of_step hinj hs) h trivial

end Carries

end TkbCherry.Agent
