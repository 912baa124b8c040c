import TkbCherry.Pool.Ops

/-!
# What a call does to the pool

All calls but a claim and the two admissions leave no new running job, no new queue entry
and no new server job; a server job they keep goes forward. `Serves` says so, and each call
is put together from the few edits it makes.
-/

namespace TkbCherry.Pool

set_option autoImplicit false

open Table

/-! ### Running jobs and the queue -/

/-- What a queue entry keeps for good. -/
def ticket (queued : QueuedSolverJob) : String × Nat × SolverOwner :=
  (queued.jobId, queued.desiredWorkers, queued.owner)

/-- No running job is new and no queue entry is new. -/
structure Shrinks (s s' : PoolState) : Prop where
  jobs : ∀ jobId job', s'.jobs.lookup jobId = some job' → ∃ job, s.jobs.lookup jobId = some job ∧
    job'.allocatedWorkers = job.allocatedWorkers ∧ job'.serial = job.serial ∧
      job'.owner = job.owner
  tokens : allocatedWorkers s'.jobs ≤ allocatedWorkers s.jobs
  slots : size s'.jobs ≤ size s.jobs
  queue : (s'.queue.map ticket).Sublist (s.queue.map ticket)
  serial : s'.nextSerial = s.nextSerial

namespace Shrinks
variable {s s' s'' : PoolState} {config : Config}

theorem refl (s : PoolState) : Shrinks s s :=
  ⟨fun _ job h => ⟨job, h, rfl, rfl, rfl⟩, Nat.le_refl _, Nat.le_refl _, .refl _, rfl⟩

theorem trans (h : Shrinks s s') (h' : Shrinks s' s'') : Shrinks s s'' where
  jobs := by
    intro jobId job'' hl
    obtain ⟨job', hl', ha', hs', ho'⟩ := h'.jobs jobId job'' hl
    obtain ⟨job, hl, ha, hs, ho⟩ := h.jobs jobId job' hl'
    exact ⟨job, hl, ha'.trans ha, hs'.trans hs, ho'.trans ho⟩
  tokens := h'.tokens.trans h.tokens
  slots := h'.slots.trans h.slots
  queue := h'.queue.trans h.queue
  serial := h'.serial.trans h.serial

/-- A ticket that is left was there. -/
theorem mem_ticket (h : Shrinks s s') {queued' : QueuedSolverJob} (hin : queued' ∈ s'.queue) :
    ∃ queued ∈ s.queue, ticket queued = ticket queued' := by
  have hmem := h.queue.subset (List.mem_map_of_mem (f := ticket) hin)
  simpa using hmem

/-- Only the server jobs changed. -/
theorem of_server (hj : s'.jobs = s.jobs) (hq : s'.queue = s.queue)
    (hn : s'.nextSerial = s.nextSerial) : Shrinks s s' := by
  have h := refl s
  exact ⟨fun jobId job hl => h.jobs jobId job (hj ▸ hl), hj ▸ h.tokens, hj ▸ h.slots,
    hq ▸ h.queue, hn⟩

end Shrinks

/-! ### Server jobs -/

theorem bump_le (generation : Nat) : bump generation ≤ u64Max := Nat.min_le_right _ _

theorem le_bump {generation : Nat} (h : generation ≤ u64Max) : generation ≤ bump generation :=
  Nat.le_min.mpr ⟨Nat.le_succ _, h⟩

theorem bump_pos (generation : Nat) : 0 < bump generation :=
  Nat.lt_min.mpr ⟨Nat.succ_pos _, by decide⟩

theorem lt_bump {generation : Nat} (h : generation < u64Max) : generation < bump generation :=
  Nat.lt_min.mpr ⟨Nat.lt_succ_self _, h⟩

namespace ServerOwnedSolverJob

/-- The generation is a `u64` and above zero once an executor was chosen; an answer, its time
and the last phase come together. -/
structure WellFormed (job : ServerOwnedSolverJob) : Prop where
  generation_le : job.executionGeneration ≤ u64Max
  answered : job.response.isSome = job.completedMs.isSome
  phase : job.completedMs.isSome = true → job.executionPhase = .completed
  started : job.executionGeneration = 0 →
    job.executionPhase = .pending ∨ job.executionPhase = .completed

/-- A later state of the same record. -/
structure Follows (job job' : ServerOwnedSolverJob) : Prop where
  claim : job'.claim = job.claim
  owner : job'.owner = job.owner
  generation : job.executionGeneration ≤ job'.executionGeneration
  completed : job.completedMs.isSome = true → job'.completedMs.isSome = true
  cancelled : job.cancelRequested = true → job'.cancelRequested = true
  wellFormed : job'.WellFormed

/-- The executor of the earlier state holds an outdated generation. -/
def Displaced (job job' : ServerOwnedSolverJob) : Prop :=
  job.executionGeneration < u64Max → job.executionGeneration < job'.executionGeneration

/-- A job that no executor was chosen for stays so, unless it is cancelled. -/
def Stays (job job' : ServerOwnedSolverJob) : Prop :=
  job.executionGeneration = 0 → job'.executionGeneration = 0 ∨ job'.cancelRequested = true

namespace Follows
variable {job job' job'' : ServerOwnedSolverJob}

theorem refl (h : job.WellFormed) : Follows job job := ⟨rfl, rfl, Nat.le_refl _, id, id, h⟩

theorem trans (h : Follows job job') (h' : Follows job' job'') : Follows job job'' where
  claim := h'.claim.trans h.claim
  owner := h'.owner.trans h.owner
  generation := h.generation.trans h'.generation
  completed := fun hc => h'.completed (h.completed hc)
  cancelled := fun hc => h'.cancelled (h.cancelled hc)
  wellFormed := h'.wellFormed

/-- An update of a job that is not completed and does not complete it. -/
theorem of_live (hw : job.WellFormed) (hl : job.completedMs = none)
    (hclaim : job'.claim = job.claim) (howner : job'.owner = job.owner)
    (hg : job.executionGeneration ≤ job'.executionGeneration)
    (hb : job'.executionGeneration ≤ u64Max) (hm : job'.completedMs = job.completedMs)
    (hr : job'.response = job.response)
    (hk : job.cancelRequested = true → job'.cancelRequested = true)
    (hs : job'.executionGeneration = 0 →
      job'.executionPhase = .pending ∨ job'.executionPhase = .completed) : Follows job job' where
  claim := hclaim
  owner := howner
  generation := hg
  completed := fun h => by simp [hl] at h
  cancelled := hk
  wellFormed := ⟨hb, by rw [hm, hr]; exact hw.answered, fun h => by simp [hm, hl] at h, hs⟩

/-- An update of a live job that leaves its generation and its phase. -/
theorem of_setting (hw : job.WellFormed) (hl : job.completedMs = none)
    (hclaim : job'.claim = job.claim) (howner : job'.owner = job.owner)
    (hg : job'.executionGeneration = job.executionGeneration)
    (hp : job'.executionPhase = job.executionPhase) (hm : job'.completedMs = job.completedMs)
    (hr : job'.response = job.response) (hk : job'.cancelRequested = job.cancelRequested) :
    Follows job job' :=
  of_live hw hl hclaim howner (Nat.le_of_eq hg.symm) (hg ▸ hw.generation_le) hm hr
    (fun h => hk.trans h) (fun h => hp ▸ hw.started (hg ▸ h))

/-- The next generation goes to another executor. -/
theorem of_bump (hw : job.WellFormed) (hl : job.completedMs = none)
    (hclaim : job'.claim = job.claim) (howner : job'.owner = job.owner)
    (hg : job'.executionGeneration = bump job.executionGeneration)
    (hm : job'.completedMs = job.completedMs) (hr : job'.response = job.response)
    (hk : job.cancelRequested = true → job'.cancelRequested = true) : Follows job job' :=
  of_live hw hl hclaim howner (hg ▸ le_bump hw.generation_le) (hg ▸ bump_le _) hm hr hk
    (fun h => absurd (hg.symm.trans h) (Nat.ne_of_gt (bump_pos _)))

end Follows

theorem Displaced.trans_follows {job job' job'' : ServerOwnedSolverJob} (h : Displaced job job')
    (h' : Follows job' job'') : Displaced job job'' :=
  fun hlt => Nat.lt_of_lt_of_le (h hlt) h'.generation

theorem Follows.trans_displaced {job job' job'' : ServerOwnedSolverJob} (h : Follows job job')
    (hf : Follows job' job'') (h' : Displaced job' job'') : Displaced job job'' := by
  intro hlt
  have hle := h.generation
  have hle' := hf.generation
  by_cases hj : job'.executionGeneration < u64Max
  · exact Nat.lt_of_le_of_lt hle (h' hj)
  · omega

theorem Stays.trans {job job' job'' : ServerOwnedSolverJob} (h : Stays job job')
    (hf : Follows job' job'') (h' : Stays job' job'') : Stays job job'' := by
  intro hzero
  rcases h hzero with hzero' | hcancel
  · exact h' hzero'
  · exact .inr (hf.cancelled hcancel)

end ServerOwnedSolverJob

open ServerOwnedSolverJob

/-- A call that adds nothing: the server jobs it keeps go forward, those it gives to an
executor are in the first list and those it takes from one in the second. -/
structure Serves (assigned displaced : List String) (s s' : PoolState) : Prop
    extends Shrinks s s' where
  server : ∀ jobId job', s'.serverJobs.lookup jobId = some job' →
    ∃ job, s.serverJobs.lookup jobId = some job ∧ (job.WellFormed →
      Follows job job' ∧ (jobId ∉ assigned → Stays job job') ∧
        (jobId ∈ displaced → Displaced job job'))
  claims : s'.nextClaim = s.nextClaim

namespace Serves
variable {s s' s'' : PoolState} {assigned assigned' displaced displaced' : List String}

/-- The call leaves the server jobs alone or removes some of them. -/
theorem of_shrinks (h : Shrinks s s') (hc : s'.nextClaim = s.nextClaim)
    (hj : ∀ jobId job, s'.serverJobs.lookup jobId = some job →
      s.serverJobs.lookup jobId = some job) : Serves [] [] s s' where
  toShrinks := h
  server := fun jobId job hl =>
    ⟨job, hj jobId job hl, fun hw => ⟨.refl hw, fun _ hz => .inl hz,
      fun hin => absurd hin List.not_mem_nil⟩⟩
  claims := hc

theorem refl (s : PoolState) : Serves [] [] s s := of_shrinks (.refl s) rfl fun _ _ h => h

theorem trans (h : Serves assigned displaced s s') (h' : Serves assigned' displaced' s' s'') :
    Serves (assigned ++ assigned') (displaced ++ displaced') s s'' where
  toShrinks := h.toShrinks.trans h'.toShrinks
  server := by
    intro jobId job'' hl''
    obtain ⟨job', hl', hf'⟩ := h'.server jobId job'' hl''
    obtain ⟨job, hl, hf⟩ := h.server jobId job' hl'
    refine ⟨job, hl, fun hw => ?_⟩
    obtain ⟨hfirst, hstays, hd⟩ := hf hw
    obtain ⟨hsecond, hstays', hd'⟩ := hf' hfirst.wellFormed
    refine ⟨hfirst.trans hsecond, fun hnot => ?_, fun hin => ?_⟩
    · rw [List.mem_append, not_or] at hnot
      exact (hstays hnot.1).trans hsecond (hstays' hnot.2)
    · rcases List.mem_append.mp hin with hin | hin
      · exact (hd hin).trans_follows hsecond
      · exact hfirst.trans_displaced hsecond (hd' hin)
  claims := h'.claims.trans h.claims

/-- Followed by a call that gives and takes nothing. -/
theorem andThen (h : Serves assigned displaced s s') (h' : Serves [] [] s' s'') :
    Serves assigned displaced s s'' := by
  have := h.trans h'
  rwa [List.append_nil, List.append_nil] at this

end Serves

section Edits
variable (s : PoolState)

/-- Flags of a running job do not change its allocation. -/
theorem modifyJob_shrinks (jobId : String) {f : SolverJob → SolverJob}
    (ha : ∀ job, (f job).allocatedWorkers = job.allocatedWorkers)
    (hs : ∀ job, (f job).serial = job.serial) (ho : ∀ job, (f job).owner = job.owner) :
    Shrinks s { s with jobs := modify jobId f s.jobs } where
  jobs := by
    intro j job' hl
    rw [lookup_modify] at hl
    split at hl
    · rename_i hj
      obtain ⟨job, hjob, rfl⟩ := Option.map_eq_some_iff.mp hl
      exact ⟨job, hj ▸ hjob, ha job, hs job, ho job⟩
    · exact ⟨job', hl, rfl, rfl, rfl⟩
  tokens := Nat.le_of_eq (total_modify _ _ ha jobId)
  slots := by
    rw [size_eq_total, size_eq_total]
    exact Nat.le_of_eq (total_modify (fun _ => 1) _ (fun _ => rfl) jobId)
  queue := .refl _
  serial := rfl

theorem signalCancel_shrinks (jobId : String) : Shrinks s (s.signalCancel jobId) :=
  modifyJob_shrinks s jobId (fun _ => rfl) (fun _ => rfl) fun _ => rfl

theorem dequeue_shrinks (p : QueuedSolverJob → Bool) : Shrinks s (s.dequeue p) where
  jobs := (Shrinks.refl s).jobs
  tokens := Nat.le_refl _
  slots := Nat.le_refl _
  queue := List.filter_sublist.map ticket
  serial := rfl

theorem pruneStaleQueue_shrinks (nowMs : Nat) : Shrinks s (pruneStaleQueue s nowMs) where
  jobs := (Shrinks.refl s).jobs
  tokens := Nat.le_refl _
  slots := Nat.le_refl _
  queue := List.filter_sublist.map ticket
  serial := rfl

/-- A queue entry that is only seen again keeps its ticket. -/
theorem modifyQueue_shrinks (index nowMs : Nat) : Shrinks s { s with
    queue := s.queue.modify index fun queued => { queued with lastSeenMs := nowMs } } where
  jobs := (Shrinks.refl s).jobs
  tokens := Nat.le_refl _
  slots := Nat.le_refl _
  queue := by
    have h : (s.queue.modify index fun queued => { queued with lastSeenMs := nowMs }).map ticket =
        s.queue.map ticket := by
      apply List.ext_getElem?
      intro i
      rw [List.getElem?_map, List.getElem?_map, List.getElem?_modify]
      split
      · cases s.queue[i]? <;> rfl
      · cases s.queue[i]? <;> rfl
    rw [h]
  serial := rfl

theorem eraseJob_shrinks (jobId : String) : Shrinks s { s with jobs := s.jobs.erase jobId } where
  jobs := by
    intro j job hl
    by_cases hj : j = jobId
    · subst hj
      rw [AList.lookup_erase] at hl
      exact absurd hl (by simp)
    · rw [AList.lookup_erase_ne hj] at hl
      exact ⟨job, hl, rfl, rfl, rfl⟩
  tokens := total_erase_le _ _ jobId
  slots := by
    rw [size_eq_total, size_eq_total]
    exact total_erase_le _ _ jobId
  queue := .refl _
  serial := rfl

/-- An update of one server job that goes forward. -/
theorem updateJob_serves {jobId : String} {job : ServerOwnedSolverJob}
    {assigned displaced : List String} {f : ServerOwnedSolverJob → ServerOwnedSolverJob}
    (hl : s.serverJobs.lookup jobId = some job) (hf : job.WellFormed → Follows job (f job))
    (ha : jobId ∉ assigned → job.WellFormed → Stays job (f job))
    (hd : ∀ id ∈ displaced, id = jobId ∧ Displaced job (f job)) :
    Serves assigned displaced s (s.updateJob jobId f) where
  toShrinks := .of_server rfl rfl rfl
  server := by
    intro id job' hl'
    by_cases hid : id = jobId
    · subst hid
      have hmap : (s.updateJob id f).serverJobs.lookup id = some (f job) :=
        (lookup_modify_self id f s.serverJobs).trans (by rw [hl]; rfl)
      obtain rfl := Option.some.inj (hmap.symm.trans hl')
      exact ⟨job, hl, fun hw => ⟨hf hw, fun hnot => ha hnot hw, fun hin => (hd id hin).2⟩⟩
    · have hsame : s.serverJobs.lookup id = some job' :=
        (lookup_modify_ne hid f s.serverJobs).symm.trans hl'
      exact ⟨job', hsame, fun hw => ⟨.refl hw, fun _ hz => .inl hz,
        fun hin => absurd (hd id hin).1 hid⟩⟩
  claims := rfl

/-- An update that leaves the generation. -/
theorem setJob_serves {jobId : String} {job : ServerOwnedSolverJob}
    {f : ServerOwnedSolverJob → ServerOwnedSolverJob}
    (hl : s.serverJobs.lookup jobId = some job) (hf : job.WellFormed → Follows job (f job))
    (hg : (f job).executionGeneration = job.executionGeneration) :
    Serves [] [] s (s.updateJob jobId f) :=
  updateJob_serves s hl hf (fun _ _ hz => .inl (hg.trans hz)) (by simp)

/-- An update that gives the job to an executor. -/
theorem assignJob_serves {jobId : String} {job : ServerOwnedSolverJob}
    {f : ServerOwnedSolverJob → ServerOwnedSolverJob}
    (hl : s.serverJobs.lookup jobId = some job) (hf : job.WellFormed → Follows job (f job)) :
    Serves [jobId] [] s (s.updateJob jobId f) :=
  updateJob_serves s hl hf (fun hnot => absurd (List.mem_singleton.mpr rfl) hnot) (by simp)

theorem signalCancel_serves (jobId : String) : Serves [] [] s (s.signalCancel jobId) :=
  .of_shrinks (signalCancel_shrinks s jobId) rfl fun _ _ h => h

theorem dequeue_serves (p : QueuedSolverJob → Bool) : Serves [] [] s (s.dequeue p) :=
  .of_shrinks (dequeue_shrinks s p) rfl fun _ _ h => h

theorem pruneStaleQueue_serves (nowMs : Nat) : Serves [] [] s (pruneStaleQueue s nowMs) :=
  .of_shrinks (pruneStaleQueue_shrinks s nowMs) rfl fun _ _ h => h

theorem lookup_of_pruneCompleted {nowMs : Nat} {jobId : String} {job : ServerOwnedSolverJob}
    (h : (pruneCompletedServerJobs s nowMs).serverJobs.lookup jobId = some job) :
    s.serverJobs.lookup jobId = some job :=
  ((lookup_retain_eq_some _).mp ((lookup_retain_eq_some _).mp h).1).1

theorem pruneCompleted_serves (nowMs : Nat) : Serves [] [] s (pruneCompletedServerJobs s nowMs) :=
  .of_shrinks (.of_server rfl rfl rfl) rfl fun _ _ h => lookup_of_pruneCompleted s h

theorem eraseServerJob_serves (jobId : String) :
    Serves [] [] s { s with serverJobs := s.serverJobs.erase jobId } := by
  refine .of_shrinks (.of_server rfl rfl rfl) rfl fun id job hl => ?_
  by_cases hid : id = jobId
  · subst hid
    rw [AList.lookup_erase] at hl
    exact absurd hl (by simp)
  · rwa [AList.lookup_erase_ne hid] at hl

end Edits

/-! ### The calls -/

theorem ownedJob_eq_some {s : PoolState} {jobId : String} {owner : SolverOwner}
    {job : ServerOwnedSolverJob} (h : s.ownedJob jobId owner = some job) :
    s.serverJobs.lookup jobId = some job ∧ job.owner = owner := by
  obtain ⟨hl, ho⟩ := Option.filter_eq_some_iff.mp h
  exact ⟨hl, of_decide_eq_true ho⟩

/-- A live job that neither hard contract keeps from the servers, as it is stored. -/
theorem serverEligible_eq_some {s : PoolState} {jobId : String} {owner : SolverOwner}
    {job : ServerOwnedSolverJob} (h : s.serverEligible jobId owner = some job) :
    s.serverJobs.lookup jobId = some job ∧ job.completedMs = none := by
  obtain ⟨hown, hp⟩ := Option.filter_eq_some_iff.mp h
  simp only [Bool.and_eq_true, Option.isNone_iff_eq_none] at hp
  exact ⟨(ownedJob_eq_some hown).1, hp.1.1.2⟩

/-- Starting the watchdog sets nothing but its own time. -/
theorem startServerWatchdog_follows {job job' : ServerOwnedSolverJob} (h : Follows job job')
    (nowMs : Nat) : Follows job (startServerWatchdog job' nowMs) := by
  unfold startServerWatchdog
  split
  · exact ⟨h.claim, h.owner, h.generation, h.completed, h.cancelled,
      h.wellFormed.generation_le, h.wellFormed.answered, h.wellFormed.phase, h.wellFormed.started⟩
  · exact h

section Calls
variable (s : PoolState) (jobId : String) (owner : SolverOwner)

theorem setLiveJob_serves (ok : ServerOwnedSolverJob → Bool)
    {f : ServerOwnedSolverJob → ServerOwnedSolverJob}
    (hf : ∀ job, job.completedMs = none → job.WellFormed → Follows job (f job))
    (hg : ∀ job, (f job).executionGeneration = job.executionGeneration) :
    Serves [] [] s (setLiveJob s jobId owner ok f).1 := by
  unfold setLiveJob
  split
  · exact .refl s
  · rename_i job hjob
    obtain ⟨hown, hlive⟩ := Option.filter_eq_some_iff.mp hjob
    split
    · exact setJob_serves s (ownedJob_eq_some hown).1
        (hf job (Option.isNone_iff_eq_none.mp hlive)) (hg job)
    · exact .refl s

theorem transitionExecution_serves (fence : ServerExecutionFence)
    {source : ServerExecutionPhase} (target : ServerExecutionPhase) (hp : source ≠ .pending)
    (hc : source ≠ .completed) :
    Serves [] [] s (transitionExecution s jobId owner fence source target).1 := by
  unfold transitionExecution
  split
  · exact .refl s
  · rename_i job hown
    split
    · exact .refl s
    · rename_i hguard
      simp only [not_or, Bool.not_eq_true, Option.isSome_eq_false_iff, Option.isNone_iff_eq_none,
        ne_eq, not_not] at hguard
      obtain ⟨_, hphase, _, hlive⟩ := hguard
      refine setJob_serves s (ownedJob_eq_some hown).1 (fun hw => ?_) rfl
      refine .of_live hw hlive rfl rfl (Nat.le_refl _) hw.generation_le rfl rfl id fun hz => ?_
      rcases hw.started hz with h | h
      · exact absurd (hphase.symm.trans h) hp
      · exact absurd (hphase.symm.trans h) hc

/-- The listed jobs are live; the same id may be listed twice. -/
theorem handoffAll_serves (trusted : Bool) (jobIds : List String)
    (hlive : ∀ id ∈ jobIds, ∃ job, s.serverJobs.lookup id = some job ∧ job.completedMs = none) :
    Serves jobIds jobIds s (handoffAll s jobIds trusted) := by
  have hfold : Serves jobIds jobIds s (jobIds.foldl
      (fun s id => (s.updateJob id (handoffJob trusted)).signalCancel id) s) := by
    induction jobIds generalizing s with
    | nil => exact .refl s
    | cons id rest ih =>
      obtain ⟨job, hl, hc⟩ := hlive id List.mem_cons_self
      have hone : Serves [id] [id] s ((s.updateJob id (handoffJob trusted)).signalCancel id) := by
        refine Serves.andThen (updateJob_serves s hl ?_ ?_ ?_) (signalCancel_serves _ id)
        · exact fun hw => .of_bump hw hc rfl rfl rfl rfl rfl fun h => h
        · exact fun hnot => absurd (List.mem_singleton.mpr rfl) hnot
        · exact fun id' hin => ⟨List.mem_singleton.mp hin, fun hlt => lt_bump hlt⟩
      refine hone.trans (ih _ fun id' hin => ?_)
      obtain ⟨job', hl', hc'⟩ := hlive id' (List.mem_cons_of_mem _ hin)
      have hlookup := lookup_modify id (handoffJob trusted) s.serverJobs id'
      split at hlookup
      · exact ⟨handoffJob trusted job, hlookup.trans (by rw [hl]; rfl), hc⟩
      · exact ⟨job', hlookup.trans hl', hc'⟩
  exact hfold.andThen (dequeue_serves _ _)

theorem handoffAllowed_live {job : ServerOwnedSolverJob} (h : handoffAllowed job = true) :
    job.completedMs = none := by
  simp only [handoffAllowed, Bool.and_eq_true, Option.isNone_iff_eq_none] at h
  exact h.1.1.1.1.1

theorem requestAgentHandoffForOwner_serves :
    Serves (requestAgentHandoffForOwner s owner).2 (requestAgentHandoffForOwner s owner).2 s
      (requestAgentHandoffForOwner s owner).1 := by
  refine handoffAll_serves s false _ fun id hin => ?_
  obtain ⟨⟨id', job⟩, he, rfl⟩ := List.mem_map.mp hin
  obtain ⟨hmem, hp⟩ := List.mem_filter.mp he
  simp only [Bool.and_eq_true] at hp
  exact ⟨job, mem_toList_iff.mp hmem, handoffAllowed_live hp.1.1.2⟩

theorem requestAgentHandoffForJob_serves :
    Serves (idIf (requestAgentHandoffForJob s jobId owner).2 (Text.trim jobId))
      (idIf (requestAgentHandoffForJob s jobId owner).2 (Text.trim jobId)) s
      (requestAgentHandoffForJob s jobId owner).1 := by
  unfold requestAgentHandoffForJob
  simp only
  split
  · exact .refl s
  · split
    · rename_i hany
      obtain ⟨job, hown, hp⟩ := (Option.any_eq_true _ _).mp hany
      simp only [Bool.and_eq_true] at hp
      refine handoffAll_serves s false [Text.trim jobId] fun id hin => ?_
      obtain rfl := List.mem_singleton.mp hin
      exact ⟨job, (ownedJob_eq_some hown).1, handoffAllowed_live hp.1⟩
    · exact .refl s

theorem requestAgentHandoffForTrustedWorker_serves (maxJobs nowMs : Nat) :
    Serves (requestAgentHandoffForTrustedWorker s maxJobs nowMs).2
      (requestAgentHandoffForTrustedWorker s maxJobs nowMs).2 s
      (requestAgentHandoffForTrustedWorker s maxJobs nowMs).1 := by
  unfold requestAgentHandoffForTrustedWorker
  split
  · exact .refl s
  · refine (pruneStaleQueue_serves s nowMs).trans (handoffAll_serves _ true _ fun id hin => ?_)
    obtain ⟨queued, hq, rfl⟩ := List.mem_map.mp hin
    have hp := (List.mem_filter.mp (List.mem_of_mem_take hq)).2
    rw [Bool.and_eq_true] at hp
    obtain ⟨job, hl, hp⟩ := (Option.any_eq_true _ _).mp hp.2
    simp only [Bool.and_eq_true] at hp
    exact ⟨job, hl, handoffAllowed_live hp.1.1⟩

theorem prepareAgentExecution_serves (nowMs : Nat) :
    Serves (idIf (prepareAgentExecution s jobId owner nowMs).2.isSome jobId) [] s
      (prepareAgentExecution s jobId owner nowMs).1 := by
  unfold prepareAgentExecution
  split
  · exact .refl s
  · rename_i job hjob
    obtain ⟨hown, hp⟩ := Option.filter_eq_some_iff.mp hjob
    simp only [Bool.and_eq_true, Option.isNone_iff_eq_none] at hp
    have hlive : job.completedMs = none := hp.1.1.1.2
    have hl := (ownedJob_eq_some hown).1
    split
    · refine assignJob_serves s hl fun hw => startServerWatchdog_follows ?_ nowMs
      exact .of_bump hw hlive rfl rfl rfl rfl rfl id
    · rename_i hphase
      refine assignJob_serves s hl fun hw => startServerWatchdog_follows ?_ nowMs
      refine .of_live hw hlive rfl rfl (Nat.le_refl _) hw.generation_le rfl rfl id fun hz => ?_
      have hstarted := hw.started hz
      rw [hphase] at hstarted
      simp at hstarted
    · refine assignJob_serves s hl fun hw => startServerWatchdog_follows ?_ nowMs
      exact .of_setting hw hlive rfl rfl rfl rfl rfl rfl rfl
    · exact .refl s

theorem prepareServerlessExecution_serves (nowMs : Nat) :
    Serves (idIf (prepareServerlessExecution s jobId owner nowMs).2.isSome jobId) [] s
      (prepareServerlessExecution s jobId owner nowMs).1 := by
  unfold prepareServerlessExecution
  split
  · exact .refl s
  · rename_i job hjob
    obtain ⟨hl, hlive⟩ := serverEligible_eq_some hjob
    split
    · refine assignJob_serves s hl fun hw => startServerWatchdog_follows ?_ nowMs
      exact .of_bump hw hlive rfl rfl rfl rfl rfl id
    · refine assignJob_serves s hl fun hw => startServerWatchdog_follows ?_ nowMs
      exact .of_setting hw hlive rfl rfl rfl rfl rfl rfl rfl
    · exact .refl s

theorem prepareVpsExecution_serves (nowMs : Nat) :
    Serves (idIf (prepareVpsExecution s jobId owner nowMs).2.isSome jobId) [] s
      (prepareVpsExecution s jobId owner nowMs).1 := by
  unfold prepareVpsExecution
  split
  · exact .refl s
  · rename_i job hjob
    obtain ⟨hl, hlive⟩ := serverEligible_eq_some hjob
    split
    · refine assignJob_serves s hl fun hw => startServerWatchdog_follows ?_ nowMs
      exact .of_bump hw hlive rfl rfl rfl rfl rfl id
    · refine assignJob_serves s hl fun hw => startServerWatchdog_follows ?_ nowMs
      exact .of_setting hw hlive rfl rfl rfl rfl rfl rfl rfl
    · exact .refl s

/-- A job with a chosen executor has left generation zero. -/
theorem stays_of_executor {job job' : ServerOwnedSolverJob} {executor : ServerExecutor}
    (hw : job.WellFormed) (he : job.executionPhase.executor = some executor) : Stays job job' := by
  intro hz
  rcases hw.started hz with h | h <;> simp [h, ServerExecutionPhase.executor] at he

theorem fallbackServerlessToVps_serves (fence : ServerExecutionFence) :
    Serves [] (idIf (fallbackServerlessToVps s fence jobId owner).2.isSome jobId) s
      (fallbackServerlessToVps s fence jobId owner).1 := by
  unfold fallbackServerlessToVps
  split
  · exact .refl s
  · rename_i job hjob
    obtain ⟨hl, hlive⟩ := serverEligible_eq_some hjob
    split
    · exact .refl s
    · rename_i hguard
      simp only [not_or, ne_eq, not_not] at hguard
      exact updateJob_serves s hl (fun hw => .of_bump hw hlive rfl rfl rfl rfl rfl id)
        (fun _ hw => stays_of_executor hw hguard.2.2)
        fun id hin => ⟨List.mem_singleton.mp hin, lt_bump⟩

theorem fallbackAgentToVps_serves (fence : ServerExecutionFence) (nowMs : Nat) :
    Serves [] (idIf (fallbackAgentToVps s fence jobId owner nowMs).2.isSome jobId) s
      (fallbackAgentToVps s fence jobId owner nowMs).1 := by
  unfold fallbackAgentToVps
  split
  · exact .refl s
  · rename_i job hjob
    obtain ⟨hl, hlive⟩ := serverEligible_eq_some hjob
    split
    · exact .refl s
    · rename_i hguard
      simp only [not_or, ne_eq, not_not] at hguard
      exact updateJob_serves s hl (fun hw => .of_bump hw hlive rfl rfl rfl rfl rfl id)
        (fun _ hw => stays_of_executor hw hguard.2.2)
        fun id hin => ⟨List.mem_singleton.mp hin, lt_bump⟩

theorem requestNoCheckpointVpsRescue_serves :
    Serves [] [] s (requestNoCheckpointVpsRescue s jobId owner).1 := by
  unfold requestNoCheckpointVpsRescue
  split
  · exact .refl s
  · rename_i job hjob
    obtain ⟨hown, hp⟩ := Option.filter_eq_some_iff.mp hjob
    simp only [Bool.and_eq_true, Option.isNone_iff_eq_none] at hp
    have hlive : job.completedMs = none := hp.1.1.1.1.2
    split
    · exact .refl s
    · exact setJob_serves s (ownedJob_eq_some hown).1
        (fun hw => .of_setting hw hlive rfl rfl rfl rfl rfl rfl rfl) rfl

/-- The answer is kept with its time; the executor has done its work, so nobody is displaced. -/
theorem commitResponse_serves {job : ServerOwnedSolverJob}
    (hl : s.serverJobs.lookup jobId = some job) (response : List UInt8) (nowMs : Nat) :
    Serves [] [] s (commitResponse s jobId response nowMs) := by
  refine ((setJob_serves s hl (fun hw => ?_) rfl).andThen (dequeue_serves _ _)).andThen
    (pruneCompleted_serves _ nowMs)
  exact ⟨rfl, rfl, Nat.le_refl _, fun _ => rfl, id, hw.generation_le, rfl, fun _ => rfl,
    fun _ => .inr rfl⟩

theorem completeServerJobFenced_serves (fence : ServerExecutionFence) (response : List UInt8)
    (nowMs : Nat) : Serves [] [] s (completeServerJobFenced s fence jobId owner response nowMs).1 := by
  unfold completeServerJobFenced
  split
  · exact .refl s
  · rename_i job hown
    split
    · exact .refl s
    · exact commitResponse_serves s jobId (ownedJob_eq_some hown).1 response nowMs

theorem completeServerJob_serves (response : List UInt8) (nowMs : Nat) :
    Serves [] [] s (completeServerJob s jobId owner response nowMs).1 := by
  unfold completeServerJob
  split
  · exact .refl s
  · rename_i job hown
    split
    · exact eraseServerJob_serves s jobId
    · split
      · exact .refl s
      · exact commitResponse_serves s jobId (ownedJob_eq_some hown).1 response nowMs

theorem abandonServerJob_serves : Serves [] [] s (abandonServerJob s jobId owner).1 := by
  unfold abandonServerJob
  split
  · exact eraseServerJob_serves s jobId
  · exact .refl s

theorem cancelRecord_serves {record : Option ServerOwnedSolverJob}
    (hl : ∀ job, record = some job → s.serverJobs.lookup jobId = some job) :
    Serves [] (cancelledIds jobId record) s (s.cancelRecord jobId record) := by
  cases record with
  | none => exact .refl s
  | some job =>
    cases hr : job.response with
    | some response =>
      have hids : cancelledIds jobId (some job) = [] := by simp [cancelledIds, hr]
      rw [hids, PoolState.cancelRecord, if_pos (by rw [hr]; rfl)]
      exact eraseServerJob_serves s jobId
    | none =>
      have hids : cancelledIds jobId (some job) = [jobId] := by simp [cancelledIds, hr]
      rw [hids, PoolState.cancelRecord, if_neg (by simp [hr])]
      refine updateJob_serves s (hl job rfl) (fun hw => ?_) (fun _ _ _ => .inr rfl) fun id hin =>
        ⟨List.mem_singleton.mp hin, lt_bump⟩
      have hlive : job.completedMs = none := by
        have hanswered := hw.answered
        rw [hr] at hanswered
        exact Option.isNone_iff_eq_none.mp (by simpa using hanswered.symm)
      exact .of_bump hw hlive rfl rfl rfl rfl rfl fun _ => rfl

theorem cancelJob_serves :
    Serves [] (cancelledIds jobId (s.serverJobs.lookup jobId)) s (cancelJob s jobId).1 :=
  ((cancelRecord_serves s jobId fun _ h => h).andThen (signalCancel_serves _ jobId)).andThen
    (dequeue_serves _ _)

theorem cancelJobForOwner_serves :
    Serves [] (cancelledIds jobId (s.ownedJob jobId owner)) s (cancelJobForOwner s jobId owner).1 := by
  have hrecord : Serves [] (cancelledIds jobId (s.ownedJob jobId owner)) s
      (s.cancelRecord jobId (s.ownedJob jobId owner)) :=
    cancelRecord_serves s jobId fun _ h => (ownedJob_eq_some h).1
  unfold cancelJobForOwner
  simp only
  split
  · exact (hrecord.andThen (signalCancel_serves _ jobId)).andThen (dequeue_serves _ _)
  · exact hrecord.andThen (dequeue_serves _ _)

theorem requestBestEffortStopForOwner_serves :
    Serves [] [] s (requestBestEffortStopForOwner s jobId owner).1 := by
  unfold requestBestEffortStopForOwner
  split
  · exact .refl s
  · rename_i job hjob
    obtain ⟨hown, hp⟩ := Option.filter_eq_some_iff.mp hjob
    simp only [Bool.and_eq_true, Option.isNone_iff_eq_none] at hp
    have hrecord : Serves [] [] s (s.updateJob jobId fun job =>
        { job with bestEffortStopRequested := true }) :=
      setJob_serves s (ownedJob_eq_some hown).1
        (fun hw => .of_setting hw hp.1 rfl rfl rfl rfl rfl rfl rfl) rfl
    refine hrecord.andThen (.of_shrinks (modifyJob_shrinks _ jobId ?_ ?_ ?_) rfl fun _ _ h => h)
    · intro running
      split <;> rfl
    · intro running
      split <;> rfl
    · intro running
      split <;> rfl

theorem touchQueuedJob_serves (caller : Option SolverOwner) (nowMs : Nat) :
    Serves [] [] s (touchQueuedJob s jobId caller nowMs).1 := by
  unfold touchQueuedJob
  have hprune := pruneStaleQueue_serves s nowMs
  simp only
  split
  · exact hprune
  · exact hprune.andThen (.of_shrinks (modifyQueue_shrinks _ _ nowMs) rfl fun _ _ h => h)

theorem dropGuard_serves (guard : SolverJob) : Serves [] [] s (dropGuard s guard) := by
  unfold dropGuard
  split
  · exact .of_shrinks (eraseJob_shrinks s guard.jobId) rfl fun _ _ h => h
  · exact .refl s

end Calls

/-- The calls that can add a server job, a running job or a queue entry. -/
def Op.adds : Op → Bool
  | .claim .. => true
  | .tryAcquire .. => true
  | .acquireOrEnqueue .. => true
  | _ => false

theorem step_serves (config : Config) (s : PoolState) {op : Op} (h : op.adds = false) :
    Serves (step config s op).2.assigned (step config s op).2.displaced s (step config s op).1 := by
  cases op with
  | claim | tryAcquire | acquireOrEnqueue => simp [Op.adds] at h
  | setBrowserWasmEligible jobId owner eligible =>
    exact setLiveJob_serves s jobId owner _
      (fun job hl hw => .of_setting hw hl rfl rfl rfl rfl rfl rfl rfl) fun _ => rfl
  | setBrowserCpSatEligible jobId owner eligible =>
    exact setLiveJob_serves s jobId owner _
      (fun job hl hw => .of_setting hw hl rfl rfl rfl rfl rfl rfl rfl) fun _ => rfl
  | setAgentPreference jobId owner enabled =>
    exact setLiveJob_serves s jobId owner _
      (fun job hl hw => .of_setting hw hl rfl rfl rfl rfl rfl rfl rfl) fun _ => rfl
  | setNativeAgentRequired jobId owner required =>
    refine setLiveJob_serves s jobId owner _ (fun job hl hw => ?_) fun job => ?_
    · cases required <;> exact .of_setting hw hl rfl rfl rfl rfl rfl rfl rfl
    · cases required <;> rfl
  | setBrowserAgentRequired jobId owner required =>
    refine setLiveJob_serves s jobId owner _ (fun job hl hw => ?_) fun job => ?_
    · cases required <;> exact .of_setting hw hl rfl rfl rfl rfl rfl rfl rfl
    · cases required <;> rfl
  | handoffForOwner owner => exact requestAgentHandoffForOwner_serves s owner
  | handoffForJob jobId owner => exact requestAgentHandoffForJob_serves s jobId owner
  | handoffForTrustedWorker maxJobs nowMs =>
    exact requestAgentHandoffForTrustedWorker_serves s maxJobs nowMs
  | prepareAgent jobId owner nowMs => exact prepareAgentExecution_serves s jobId owner nowMs
  | markAgentRunning fence jobId owner => exact transitionExecution_serves s jobId owner fence _ (by simp) (by simp)
  | prepareServerless jobId owner nowMs =>
    exact prepareServerlessExecution_serves s jobId owner nowMs
  | markServerlessRunning fence jobId owner =>
    exact transitionExecution_serves s jobId owner fence _ (by simp) (by simp)
  | fallbackServerless fence jobId owner => exact fallbackServerlessToVps_serves s jobId owner fence
  | prepareVps jobId owner nowMs => exact prepareVpsExecution_serves s jobId owner nowMs
  | markVpsRunning fence jobId owner => exact transitionExecution_serves s jobId owner fence _ (by simp) (by simp)
  | requestRescue jobId owner => exact requestNoCheckpointVpsRescue_serves s jobId owner
  | fallbackAgent fence jobId owner nowMs =>
    exact fallbackAgentToVps_serves s jobId owner fence nowMs
  | snapshot jobId owner => exact .refl s
  | completeFenced fence jobId owner response nowMs =>
    exact completeServerJobFenced_serves s jobId owner fence response nowMs
  | complete jobId owner response nowMs =>
    exact completeServerJob_serves s jobId owner response nowMs
  | abandon jobId owner => exact abandonServerJob_serves s jobId owner
  | cancel jobId => exact cancelJob_serves s jobId
  | cancelForOwner jobId owner => exact cancelJobForOwner_serves s jobId owner
  | bestEffortStop jobId owner => exact requestBestEffortStopForOwner_serves s jobId owner
  | touch jobId caller nowMs => exact touchQueuedJob_serves s jobId caller nowMs
  | pruneQueue nowMs => exact pruneStaleQueue_serves s nowMs
  | pruneCompleted nowMs => exact pruneCompleted_serves s nowMs
  | dropGuard guard => exact dropGuard_serves s guard

/-- A claim leaves the running jobs and the queue alone. -/
theorem claimServerJob_shrinks (s : PoolState) (jobId : String) (owner : SolverOwner)
    (request : ClaimRequest) (nowMs : Nat) :
    Shrinks s (claimServerJob s jobId owner request nowMs).1 := by
  unfold claimServerJob
  simp only
  split
  · exact .of_server rfl rfl rfl
  · split
    · exact .of_server rfl rfl rfl
    · exact .of_server rfl rfl rfl
    · split
      · exact .of_server rfl rfl rfl
      · split <;> exact .of_server rfl rfl rfl

end TkbCherry.Pool
