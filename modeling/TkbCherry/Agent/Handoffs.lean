import TkbCherry.Agent.Leases
import TkbCherry.Agent.Retains

/-!
# The capacity of a trusted worker

A trusted worker's leases and the handoffs reserved for it, together, against its limit. The
call that begins a handoff counts both; the claim counts the leases alone, and that is the one
way past the limit.
-/

namespace TkbCherry.Agent

set_option autoImplicit false

open Table TkbCherry.Pool AgentHelperState

/-- The handoffs reserved for a worker. -/
def AgentHelperState.reservedHandoffs (s : AgentHelperState) (workerTokenHash : String) : Nat :=
  count (fun request => decide (request.workerTokenHash = workerTokenHash) &&
    request.capacityReserved) s.trustedHandoffRequests

/-- Leases and reservations of a worker. -/
def AgentHelperState.load (s : AgentHelperState) (workerTokenHash : String) : Nat :=
  s.activeLeases workerTokenHash + s.reservedHandoffs workerTokenHash

section Counts
variable {s s' : AgentHelperState}

theorem KeepsHandoffs.reserved_le (h : KeepsHandoffs s s') (k : String) :
    s'.reservedHandoffs k ≤ s.reservedHandoffs k := by
  refine count_le fun marker r' hr' => ?_
  obtain ⟨r, hr, hkept⟩ := h marker r' hr'
  refine ⟨r, hr, fun hp => ?_⟩
  rw [Bool.and_eq_true, decide_eq_true_eq] at hp ⊢
  exact ⟨hkept.worker.symm.trans hp.1, hkept.reserved hp.2⟩

/-- A worker that no handoff names has none. -/
theorem reservedHandoffs_eq_zero {k : String}
    (hnone : ∀ marker r, s.trustedHandoffRequests.lookup marker = some r → r.workerTokenHash ≠ k) :
    s.reservedHandoffs k = 0 := by
  unfold reservedHandoffs count
  rw [List.length_eq_zero_iff, List.filter_eq_nil_iff]
  intro e he
  have hne := hnone e.1 e.2 (mem_entries_iff.mp he)
  simp [hne]

/-- A new reservation. -/
theorem reservedHandoffs_insert {marker : String} {r : TrustedHandoffRequest}
    (hnone : s.trustedHandoffRequests.lookup marker = none) (hreserved : r.capacityReserved = true)
    (k : String) :
    { s with trustedHandoffRequests := s.trustedHandoffRequests.insert marker r }.reservedHandoffs k
      = s.reservedHandoffs k + if r.workerTokenHash = k then 1 else 0 := by
  unfold reservedHandoffs
  dsimp only
  rw [count_insert hnone, hreserved, Bool.and_true, Nat.add_comm]
  simp

end Counts

/-! ### The claims that spare the reservations -/

variable (env : Env)

/-- The claim finds a queued task for its worker: it is no replay, its own handoff has its job,
and the worker has fewer leases than it may have. -/
structure TakesTask (s : AgentHelperState) (caller : Caller) (leaseRequestId : String) (nowMs : Nat)
    (workerTokenHash : String) (worker : AgentWorker) : Prop where
  auth : s.authenticatedWorker env caller nowMs = .ok (workerTokenHash, worker)
  eligible : worker.eligible = true
  room : s.activeLeases workerTokenHash < worker.maxParallel
  task : ∃ requestId, normalizeLeaseRequestId leaseRequestId = some requestId ∧
    s.replay workerTokenHash worker requestId nowMs = none ∧
    (∀ r, s.handoffRequest env workerTokenHash worker requestId = some r → r.jobId ≠ none) ∧
    s.available worker ((s.handoffRequest env workerTokenHash worker requestId).bind (·.jobId)) ≠ []

/-- The call is no claim that takes a task into a slot held for a handoff. -/
def AgentOp.Spares (s : AgentHelperState) : AgentOp → Prop
  | .claimWork caller leaseRequestId _ nowMs =>
    ∀ h worker, TakesTask env (s.pruneState nowMs) caller leaseRequestId nowMs h worker →
      worker.trustedGlobal = true → (s.pruneState nowMs).load h < worker.maxParallel
  | _ => True

variable {env}

/-- A claim that gets a new lease takes a task. -/
theorem takesTask_of_grant {s t : AgentHelperState} {caller : Caller}
    {leaseRequestId secret requestId h : String} {nowMs : Nat} {lease : AgentWorkLease}
    (g : Grant env (s.pruneState nowMs) h requestId nowMs)
    (hrequest : normalizeLeaseRequestId leaseRequestId = some requestId)
    (hauth : (s.pruneState nowMs).authenticatedWorker env caller nowMs = .ok (h, g.worker))
    (hr : s.claimWorkWithRequestId env caller leaseRequestId secret nowMs = (t, .ok lease)) :
    TakesTask env (s.pruneState nowMs) caller leaseRequestId nowMs h g.worker := by
  refine ⟨hauth, g.eligible, g.room, requestId, hrequest, g.fresh, ?_⟩
  unfold claimWorkWithRequestId at hr
  rw [hrequest] at hr
  dsimp only at hr
  rw [hauth] at hr
  dsimp only at hr
  rw [g.eligible, g.fresh] at hr
  simp only [Bool.not_true, Bool.false_eq_true, if_false] at hr
  split at hr
  · exact absurd (Prod.mk.inj hr).2 (by simp)
  · rename_i hwaiting
    refine ⟨fun r hsome hnone => hwaiting (by rw [hsome]; simp [hnone]), ?_⟩
    split at hr
    · exact absurd (Prod.mk.inj hr).2 (by simp)
    · intro hempty
      rw [hempty] at hr
      exact absurd (Prod.mk.inj hr).2 (by simp)

/-! ### The invariant -/

structure HandoffInv (env : Env) (s : AgentHelperState) (drawn : List String) : Prop where
  reserving : AgentOp.Reserving s
  drawnFor : ∀ marker r, s.trustedHandoffRequests.lookup marker = some r →
    ∃ token ∈ drawn, r.workerTokenHash = env.secretHash token
  capacity : ∀ h worker, s.workers.lookup h = some worker → worker.trustedGlobal = true →
    s.load h ≤ worker.maxParallel

section Steps
variable {s s' base : AgentHelperState} {drawn drawn' : List String}

theorem HandoffInv.drawnFor_keeps (hs : HandoffInv env s drawn) (hk : KeepsHandoffs s s')
    (hsub : drawn ⊆ drawn') {marker : String} {r' : TrustedHandoffRequest}
    (hr' : s'.trustedHandoffRequests.lookup marker = some r') :
    ∃ token ∈ drawn', r'.workerTokenHash = env.secretHash token := by
  obtain ⟨r, hr, hkept⟩ := hk marker r' hr'
  obtain ⟨token, htoken, hhash⟩ := hs.drawnFor marker r hr
  exact ⟨token, hsub htoken, hkept.worker.trans hhash⟩

/-- The leases that are left, with the reservations from before. -/
theorem HandoffInv.capacity_settles (hs : HandoffInv env s drawn) (h : Settles s base) {k : String}
    {worker : AgentWorker} (hw : base.workers.lookup k = some worker)
    (htrusted : worker.trustedGlobal = true) :
    base.activeLeases k + s.reservedHandoffs k ≤ worker.maxParallel := by
  obtain ⟨old, hold, hheader⟩ := h.workers hw
  have hbefore := hs.capacity k old hold (by rw [hheader] at htrusted; exact htrusted)
  have hleases := h.activeLeases_le k
  rw [hheader]
  unfold load at hbefore
  omega

/-- A call that brings no lease and no reservation. -/
theorem HandoffInv.settles (hs : HandoffInv env s drawn) (h : Settles s s')
    (hk : KeepsHandoffs s s') (hsub : drawn ⊆ drawn') : HandoffInv env s' drawn' where
  reserving := hs.reserving.keeps hk
  drawnFor _ _ hr := hs.drawnFor_keeps hk hsub hr
  capacity k worker hw htrusted := by
    have hbefore := hs.capacity_settles h hw htrusted
    have hreserved := hk.reserved_le k
    unfold load
    omega

/-- A worker under a new token. -/
theorem HandoffInv.registers (hs : HandoffInv env s drawn) (hb : Inv env base drawn)
    (hbase : Settles s base) (hk : KeepsHandoffs s s') (hinj : Function.Injective env.secretHash)
    {token : String} (hfresh : token ∉ drawn) {worker : AgentWorker}
    (hworkers : s'.workers = base.workers.insert (env.secretHash token) worker)
    (hjobs : s'.jobs = base.jobs) : HandoffInv env s' (token :: drawn) where
  reserving := hs.reserving.keeps hk
  drawnFor _ _ hr := hs.drawnFor_keeps hk (List.subset_cons_self _ _) hr
  capacity k w hw htrusted := by
    have hleases : s'.activeLeases k = base.activeLeases k := by
      unfold activeLeases
      rw [hjobs]
    have hreserved := hk.reserved_le k
    unfold load
    rcases eq_or_ne k (env.secretHash token) with he | he
    · -- nothing names the new token yet
      have hkey := hb.key_fresh hinj hfresh
      have hnoLease : base.activeLeases k = 0 := by
        apply activeLeases_eq_zero
        intro _ _ _ _ lease hheld hsame
        obtain ⟨-, -, old, hold, -⟩ := hb.issued hheld
        rw [hsame, he, hkey] at hold
        exact absurd hold (by simp)
      have hnoHandoff : s.reservedHandoffs k = 0 := by
        apply reservedHandoffs_eq_zero
        intro marker r hr hsame
        obtain ⟨t, ht, hhash⟩ := hs.drawnFor marker r hr
        exact hfresh (hinj ((hhash.symm.trans hsame).trans he) ▸ ht)
      omega
    · rw [hworkers, AList.lookup_insert_ne he] at hw
      have hbefore := hs.capacity_settles hbase hw htrusted
      omega

/-- A job opens with all its tasks queued. -/
theorem HandoffInv.opens (hs : HandoffInv env s drawn) (hbase : Settles s base)
    (hk : KeepsHandoffs s s') (hsub : drawn ⊆ drawn') {job : AgentJob}
    (hnone : base.jobs.lookup job.jobId = none) (hqueued : ∀ task ∈ job.tasks, task.state = .queued)
    (hworkers : s'.workers = base.workers) (hjobs : s'.jobs = base.jobs.insert job.jobId job) :
    HandoffInv env s' drawn' where
  reserving := hs.reserving.keeps hk
  drawnFor _ _ hr := hs.drawnFor_keeps hk hsub hr
  capacity k worker hw htrusted := by
    have hbefore := hs.capacity_settles hbase (hworkers ▸ hw) htrusted
    have hleases := activeLeases_open hnone hqueued hjobs k
    have hreserved := hk.reserved_le k
    unfold load
    omega

/-- A claim that spares the reservations. -/
theorem HandoffInv.grants (hs : HandoffInv env s drawn) (hbase : Settles s base)
    (hk : KeepsHandoffs s base) {h requestId token : String} {nowMs : Nat}
    (g : Grant env base h requestId nowMs)
    (hspares : g.worker.trustedGlobal = true → base.load h < g.worker.maxParallel)
    (hkg : KeepsHandoffs base s') (hworkers : s'.workers = base.workers)
    (hjobs : s'.jobs = (base.putTask g.jobId g.index
      (leasedTask env h requestId token nowMs g.task)).jobs) :
    HandoffInv env s' (token :: drawn) where
  reserving := hs.reserving.keeps (hk.trans hkg)
  drawnFor _ _ hr := hs.drawnFor_keeps (hk.trans hkg) (List.subset_cons_self _ _) hr
  capacity k worker hw htrusted := by
    rw [hworkers] at hw
    have hleases : s'.activeLeases k = base.activeLeases k + if h = k then 1 else 0 := by
      rw [← g.activeLeases env token k]
      unfold activeLeases
      rw [hjobs]
    have hreserved := hkg.reserved_le k
    have hbefore := (hs.settles hbase hk (List.Subset.refl drawn)).capacity k worker hw htrusted
    unfold load at hbefore ⊢
    rcases eq_or_ne h k with he | he
    · subst he
      obtain rfl := Option.some.inj (g.workerAt.symm.trans hw)
      have hroom := hspares htrusted
      unfold load at hroom
      rw [if_pos rfl] at hleases
      omega
    · rw [if_neg he] at hleases
      omega

/-- A handoff is reserved where both kinds left room. -/
theorem HandoffInv.begins (hs : HandoffInv env s drawn) (hb : Inv env base drawn)
    (hbase : Settles s base) (hk : KeepsHandoffs s base) {marker : String}
    {r : TrustedHandoffRequest} {worker : AgentWorker}
    (hworker : base.workers.lookup r.workerTokenHash = some worker)
    (hroom : base.load r.workerTokenHash < worker.maxParallel)
    (hnone : base.trustedHandoffRequests.lookup marker = none)
    (hreserved : r.capacityReserved = true) :
    HandoffInv env { base with
      trustedHandoffRequests := base.trustedHandoffRequests.insert marker r } drawn := by
  have hold := hs.settles hbase hk (List.Subset.refl drawn)
  have hlookup {m old} (hl : (base.trustedHandoffRequests.insert marker r).lookup m = some old) :
      old = r ∨ base.trustedHandoffRequests.lookup m = some old := by
    rcases eq_or_ne m marker with he | he
    · rw [he, AList.lookup_insert] at hl
      exact .inl (Option.some.inj hl).symm
    · rw [AList.lookup_insert_ne he] at hl
      exact .inr hl
  constructor
  · intro m old hl hjob
    rcases hlookup hl with rfl | hl
    · exact hreserved
    · exact hold.reserving m old hl hjob
  · intro m old hl
    rcases hlookup hl with rfl | hl
    · exact hb.keys hworker
    · exact hold.drawnFor m old hl
  · intro k w hw htrusted
    have hbefore := hold.capacity k w hw htrusted
    have hinsert := reservedHandoffs_insert hnone hreserved k
    have hleases : { base with trustedHandoffRequests :=
        base.trustedHandoffRequests.insert marker r }.activeLeases k = base.activeLeases k := rfl
    unfold load at hbefore hroom ⊢
    rw [hinsert, hleases]
    split
    · rename_i he
      rw [he] at hworker hroom
      obtain rfl := Option.some.inj (hworker.symm.trans hw)
      omega
    · omega

end Steps

/-- The call that begins a handoff reserves one, or leaves the reservations alone. -/
theorem beginTrustedHandoff_cases (s : AgentHelperState) (caller : Caller) (leaseRequestId : String)
    (nowMs : Nat) {s' : AgentHelperState}
    (hs : (s.beginTrustedHandoffRequest env caller leaseRequestId nowMs).1 = s') :
    KeepsHandoffs s s' ∨ ∃ (worker : AgentWorker) (marker : String) (r : TrustedHandoffRequest),
      (s.pruneState nowMs).workers.lookup r.workerTokenHash = some worker ∧
      (s.pruneState nowMs).load r.workerTokenHash < worker.maxParallel ∧
      (s.pruneState nowMs).trustedHandoffRequests.lookup marker = none ∧
      r.capacityReserved = true ∧
      s' = { s.pruneState nowMs with
        trustedHandoffRequests := (s.pruneState nowMs).trustedHandoffRequests.insert marker r } := by
  have hprune := (s.pruneState_retains nowMs).handoffs
  unfold beginTrustedHandoffRequest trustedCall at hs
  split at hs
  · exact .inl (hs ▸ .refl s)
  · dsimp only at hs
    split at hs
    · exact .inl (hs ▸ hprune)
    · rename_i h worker hauth
      split at hs
      · exact .inl (hs ▸ hprune)
      · split at hs
        · exact .inl (hs ▸ hprune)
        · rename_i hnone
          split at hs
          · exact .inl (hs ▸ hprune)
          · rename_i hroom
            split at hs
            · exact .inl (hs ▸ hprune)
            · exact .inr ⟨worker, _, ⟨h, after nowMs agentWorkerTtlMs, none, true⟩,
                (authenticatedWorker_ok env hauth).2.1, Nat.lt_of_not_le hroom,
                Option.not_isSome_iff_eq_none.mp hnone, rfl, hs.symm⟩

/-! ### Runs -/

def World.HandoffInv (env : Env) (w : World) : Prop :=
  w.Inv env ∧ Agent.HandoffInv env w.state w.drawn

/-- A call that is neither a registration nor a claim nor the begin of a handoff. -/
theorem HandoffInv.of_effect {s s' : AgentHelperState} {drawn drawn' : List String}
    (hs : HandoffInv env s drawn) (heffect : Effect env s none s') (hk : KeepsHandoffs s s')
    (hsub : drawn ⊆ drawn') : HandoffInv env s' drawn' := by
  cases heffect with
  | settles h => exact hs.settles h hk hsub
  | registers _ _ _ _ hsecret => exact absurd hsecret (by simp)
  | opens base job n hbase hnone hn hjob htasks hqueued hworkers hjobs hserial =>
    exact hs.opens hbase hk hsub hnone hqueued hworkers hjobs
  | grants _ _ _ _ _ hsecret => exact absurd hsecret (by simp)

/-- A claim that takes no slot held for a handoff. -/
theorem HandoffInv.claims {s : AgentHelperState} {drawn : List String} (hs : HandoffInv env s drawn)
    (caller : Caller) (leaseRequestId secret : String) (nowMs : Nat)
    (hspares : (AgentOp.claimWork caller leaseRequestId secret nowMs).Spares env s) :
    HandoffInv env (s.claimWorkWithRequestId env caller leaseRequestId secret nowMs).1
      (secret :: drawn) := by
  have hprune := s.pruneState_settles nowMs
  have hkp := (s.pruneState_retains nowMs).handoffs
  have hk := (AgentOp.claimWork_retains env s caller leaseRequestId secret nowMs).handoffs
  have hsub := List.subset_cons_self secret drawn
  generalize hr : s.claimWorkWithRequestId env caller leaseRequestId secret nowMs = result at hk ⊢
  obtain ⟨t, answer⟩ := result
  rcases s.claimWork_cases env hr with
    ⟨-, h⟩ | ⟨_, _, _, _, -, -, -, ht, -⟩ | ⟨requestId, h, g, hrequest, hauth, ht, hanswer⟩
  · exact hs.settles h hk hsub
  · exact hs.settles (ht ▸ hprune) hk hsub
  · have htakes := takesTask_of_grant g hrequest hauth (hanswer ▸ hr)
    have hkg := ((putTask_retains (s.pruneState nowMs) g.jobId g.index
      (leasedTask env h requestId secret nowMs g.task)).trans
      (releaseCapacity_retains _ g.jobId)).handoffs
    have hworkers : t.workers = (s.pruneState nowMs).workers := by
      rw [ht]
      simp [putTask]
    have hjobs : t.jobs = ((s.pruneState nowMs).putTask g.jobId g.index
        (leasedTask env h requestId secret nowMs g.task)).jobs := by
      rw [ht]
      simp
    rw [← ht] at hkg
    exact hs.grants hprune hkp g (hspares h g.worker htakes) hkg hworkers hjobs

/-- A registration. -/
theorem HandoffInv.registersWorker {s : AgentHelperState} {drawn : List String}
    (hs : HandoffInv env s drawn) (hinv : Agent.Inv env s drawn)
    (hinj : Function.Injective env.secretHash) {secret : String} (hfresh : secret ∉ drawn)
    (r : WorkerRequest) (nowMs : Nat) :
    HandoffInv env (s.registerWorkerWithEligibility env r secret nowMs).1 (secret :: drawn) := by
  have hk := (AgentOp.registerWorker_retains env s r secret nowMs).handoffs
  generalize hr : (s.registerWorkerWithEligibility env r secret nowMs).1 = t at hk ⊢
  rcases AgentOp.registerWorker_cases env s r secret nowMs hr with
    h | ⟨base, worker, hbase, hnew, hworkers, hjobs, hserial⟩
  · exact hs.settles h hk (List.subset_cons_self _ _)
  · have hb := Agent.Inv.settles hinv hbase (List.Subset.refl _)
    exact hs.registers hb hbase hk hinj hfresh hworkers hjobs

/-- The begin of a handoff. -/
theorem HandoffInv.beginsHandoff {s : AgentHelperState} {drawn : List String}
    (hs : HandoffInv env s drawn) (hinv : Agent.Inv env s drawn) (caller : Caller)
    (leaseRequestId : String) (nowMs : Nat) :
    HandoffInv env (s.beginTrustedHandoffRequest env caller leaseRequestId nowMs).1 drawn := by
  have hsettles := AgentOp.beginTrustedHandoff_settles env s caller leaseRequestId nowMs
  have hprune := s.pruneState_settles nowMs
  generalize hr : (s.beginTrustedHandoffRequest env caller leaseRequestId nowMs).1 = t at hsettles ⊢
  rcases beginTrustedHandoff_cases s caller leaseRequestId nowMs hr with
    hk | ⟨worker, marker, r, hworker, hroom, hnone, hreserved, heq⟩
  · exact hs.settles hsettles hk (List.Subset.refl _)
  · have hb := Agent.Inv.settles hinv hprune (List.Subset.refl _)
    rw [heq]
    exact hs.begins hb hprune (s.pruneState_retains nowMs).handoffs hworker hroom hnone hreserved

/-- The calls that may bring a worker a lease, a reservation or a new token, and the others. -/
theorem AgentOp.kinds (op : AgentOp) :
    (∃ r secret nowMs, op = .registerWorker r secret nowMs) ∨
    (∃ caller requestId secret nowMs, op = .claimWork caller requestId secret nowMs) ∨
    (∃ caller requestId nowMs, op = .beginTrustedHandoff caller requestId nowMs) ∨
    (op.secret = none ∧
      ∀ caller requestId nowMs, op ≠ .beginTrustedHandoff caller requestId nowMs) := by
  cases op with
  | registerWorker r secret nowMs => exact .inl ⟨r, secret, nowMs, rfl⟩
  | claimWork caller requestId secret nowMs =>
    exact .inr (.inl ⟨caller, requestId, secret, nowMs, rfl⟩)
  | beginTrustedHandoff caller requestId nowMs =>
    exact .inr (.inr (.inl ⟨caller, requestId, nowMs, rfl⟩))
  | _ => exact .inr (.inr (.inr ⟨rfl, fun _ _ _ h => AgentOp.noConfusion h⟩))

theorem World.HandoffInv.step (hinj : Function.Injective env.secretHash) {w w' : World} {op : AgentOp}
    (hw : w.HandoffInv env) (hspares : op.Spares env w.state) (h : Step env w op w') :
    w'.HandoffInv env := by
  refine ⟨World.Inv.step hinj hw.1 h, ?_⟩
  obtain ⟨hfresh, rfl⟩ := h
  obtain ⟨hinv, hs⟩ := hw
  unfold World.after
  rcases op.kinds with ⟨r, secret, nowMs, rfl⟩ | ⟨caller, requestId, secret, nowMs, rfl⟩ |
    ⟨caller, requestId, nowMs, rfl⟩ | ⟨hsecret, hop⟩
  · simp only [AgentOp.apply, AgentOp.secret, Option.toList_some, List.cons_append, List.nil_append]
    exact hs.registersWorker hinv hinj (hfresh secret rfl) r nowMs
  · simp only [AgentOp.apply, AgentOp.secret, Option.toList_some, List.cons_append, List.nil_append]
    exact hs.claims caller requestId secret nowMs hspares
  · simp only [AgentOp.apply, AgentOp.secret, Option.toList_none, List.nil_append]
    exact hs.beginsHandoff hinv caller requestId nowMs
  · have heffect := op.effect env w.state
    rw [hsecret] at heffect
    exact hs.of_effect heffect (AgentOp.apply_handoffs env w.state hs.reserving op hop)
      (List.subset_append_right _ _)

/-! ### The claim of a handoff -/

namespace Demo

def trusted (maxParallel : Nat) : AgentOp :=
  .registerWorker ⟨owner, "tab", "pc-1", maxParallel, true, false, true, none⟩ "worker-token" 0

def handoff : AgentOp := .beginTrustedHandoff caller "handoff-1" 0

def global (jobId : String) : JobRequest := ⟨jobId, owner, [123, 125], 2, true, false⟩

/-- Leases and reservations of the worker, beside its limit. -/
def filled (s : AgentHelperState) : Nat × Option (Bool × Nat) :=
  (s.load "worker-token",
    (s.workers.lookup "worker-token").map fun worker => (worker.trustedGlobal, worker.maxParallel))

end Demo

end TkbCherry.Agent
