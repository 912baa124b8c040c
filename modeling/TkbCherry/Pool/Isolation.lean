import TkbCherry.Pool.Queue

/-!
# Owners

Three tables share the ids that clients choose. `Apart` says that the running entry and the
ticket under a server job's id are of the job's owner; given that, a call of another owner
leaves all three alone. Neither acquisition looks at who owns the server job of its id, and
a claim does not look at who runs or waits under it.
-/

namespace TkbCherry.Pool

set_option autoImplicit false

open Table

/-- The owner that makes a call. A guard is its allocation, so the entry it points to names
its owner; cancellations without an owner, prunings and operator workers have none. -/
def Op.caller (s : PoolState) : Op → Option SolverOwner
  | .claim _ owner _ _ => some owner
  | .setBrowserWasmEligible _ owner _ => some owner
  | .setBrowserCpSatEligible _ owner _ => some owner
  | .setAgentPreference _ owner _ => some owner
  | .setNativeAgentRequired _ owner _ => some owner
  | .setBrowserAgentRequired _ owner _ => some owner
  | .handoffForOwner owner => some owner
  | .handoffForJob _ owner => some owner
  | .prepareAgent _ owner _ => some owner
  | .markAgentRunning _ _ owner => some owner
  | .prepareServerless _ owner _ => some owner
  | .markServerlessRunning _ _ owner => some owner
  | .fallbackServerless _ _ owner => some owner
  | .prepareVps _ owner _ => some owner
  | .markVpsRunning _ _ owner => some owner
  | .requestRescue _ owner => some owner
  | .fallbackAgent _ _ owner _ => some owner
  | .snapshot _ owner => some owner
  | .completeFenced _ _ owner _ _ => some owner
  | .complete _ owner _ _ => some owner
  | .abandon _ owner => some owner
  | .cancelForOwner _ owner => some owner
  | .bestEffortStop _ owner => some owner
  | .tryAcquire _ _ owner _ => some owner
  | .acquireOrEnqueue _ _ owner _ => some owner
  | .touch _ owner _ => owner
  | .dropGuard guard =>
    ((s.jobs.lookup guard.jobId).filter fun current => decide (current.serial = guard.serial)).map
      SolverJob.owner
  | _ => none

/-- The running entry and the ticket under a server job's id are of the job's owner. -/
structure Apart (s : PoolState) : Prop where
  running : ∀ id job entry, s.serverJobs.lookup id = some job → s.jobs.lookup id = some entry →
    entry.owner = job.owner
  waiting : ∀ queued ∈ s.queue, ∀ job, s.serverJobs.lookup queued.jobId = some job →
    queued.owner = job.owner

/-- A claim of a free id finds nobody else running or waiting under it, and an acquisition that
finds nobody running or waiting under its id is not for another owner's server job. -/
def RespectsOwners (s : PoolState) : Op → Prop
  | .claim jobId owner _ nowMs =>
    (pruneCompletedServerJobs s nowMs).serverJobs.lookup jobId = none →
      (∀ entry, s.jobs.lookup jobId = some entry → entry.owner = owner) ∧
      ∀ queued ∈ s.queue, queued.jobId = jobId → queued.owner = owner
  | .tryAcquire jobId _ owner nowMs => s.jobs.lookup jobId = none →
      (∀ queued ∈ (pruneStaleQueue s nowMs).queue, queued.jobId ≠ jobId) →
        ∀ job, s.serverJobs.lookup jobId = some job → job.owner = owner
  | .acquireOrEnqueue jobId _ owner nowMs => s.jobs.lookup jobId = none →
      (∀ queued ∈ (pruneStaleQueue s nowMs).queue, queued.jobId ≠ jobId) →
        ∀ job, s.serverJobs.lookup jobId = some job → job.owner = owner
  | _ => True

theorem RespectsOwners.acquisition {s : PoolState} {op : Op} {jobId : String}
    {owner : SolverOwner} {nowMs : Nat} (h : RespectsOwners s op)
    (hop : op.acquisition = some (jobId, owner, nowMs)) (hidle : s.jobs.lookup jobId = none)
    (habsent : ∀ queued ∈ (pruneStaleQueue s nowMs).queue, queued.jobId ≠ jobId)
    {job : ServerOwnedSolverJob} (hl : s.serverJobs.lookup jobId = some job) :
    job.owner = owner := by
  cases op <;> simp only [Op.acquisition, Option.some.injEq, Prod.mk.injEq, reduceCtorEq] at hop
  all_goals
    obtain ⟨rfl, rfl, rfl⟩ := hop
    exact h hidle habsent job hl

theorem Apart.prune {s : PoolState} (h : Apart s) (nowMs : Nat) : Apart (pruneStaleQueue s nowMs) :=
  ⟨h.running, fun queued hin => h.waiting queued (mem_of_pruneStaleQueue hin)⟩

theorem Apart.step {config : Config} {s : PoolState} {op : Op} (h : Apart s)
    (hc : RespectsOwners s op) : Apart (step config s op).1 := by
  rcases step_cases config s op with ⟨_, hshrinks⟩ | ⟨jobId, owner, nowMs, hop, hacquire, hserver⟩
  · constructor
    · intro id job' entry' hl' hentry'
      obtain ⟨entry, hentry, _, _, howner⟩ := hshrinks.jobs id entry' hentry'
      rw [howner]
      rcases step_edits config s op hl' with ⟨job, hl, he⟩ |
        ⟨_, _, _, _, _, _, _, rfl, hnone, rfl, _⟩
      · rw [he.keeps.2.1]
        exact h.running id job entry hl hentry
      · exact (hc hnone).1 entry hentry
    · intro queued' hin job' hl'
      obtain ⟨queued, hq, hticket⟩ := hshrinks.mem_ticket hin
      obtain ⟨hid, howner⟩ := ticket_eq hticket
      rw [← howner]
      rcases step_edits config s op hl' with ⟨job, hl, he⟩ |
        ⟨_, _, _, _, _, _, _, rfl, hnone, rfl, _⟩
      · rw [he.keeps.2.1]
        exact h.waiting queued hq job (hid ▸ hl)
      · exact (hc hnone).2 queued hq hid
  · have hpruned := h.prune nowMs
    constructor
    · intro id job entry hl hentry
      rw [hserver] at hl
      rcases hacquire.jobs_origin hentry with hold | ⟨rfl, howner, hidle, hfree | hmine⟩
      · exact hpruned.running id job entry hl hold
      · refine howner.trans (hc.acquisition hop hidle (fun queued hin => ?_) hl).symm
        rw [hfree] at hin
        exact absurd hin List.not_mem_nil
      · obtain ⟨queued, hin, rfl, hqueued⟩ := hmine
        rw [howner, ← hqueued]
        exact hpruned.waiting queued hin job hl
    · intro queued' hin job hl
      rw [hserver] at hl
      rcases hacquire.queue_origin hin with ⟨queued, hq, hticket⟩ | ⟨hid, howner, _, hidle, habsent⟩
      · obtain ⟨hid, howner⟩ := ticket_eq hticket
        rw [← howner]
        exact hpruned.waiting queued hq job (hid ▸ hl)
      · rw [hid] at hl
        exact howner.trans (hc.acquisition hop hidle habsent hl).symm

/-! ### What a call leaves alone -/

/-- The calls that drop finished jobs past their time or beyond the number that is kept. -/
def Op.sweeps : Op → Bool
  | .claim _ _ _ _ => true
  | .completeFenced _ _ _ _ _ => true
  | .complete _ _ _ _ => true
  | .pruneCompleted _ => true
  | _ => false

/-- The record, the running entry and the tickets of an id are as they were; a finished record
may have been swept. -/
structure Frame (sweeps : Bool) (id : String) (s s' : PoolState) : Prop where
  record : s'.serverJobs.lookup id = s.serverJobs.lookup id ∨
    (sweeps = true ∧ ∃ job, s.serverJobs.lookup id = some job ∧ job.completedMs.isSome = true)
  running : s'.jobs.lookup id = s.jobs.lookup id
  tickets : ∀ queued : QueuedSolverJob, queued.jobId = id → (queued ∈ s'.queue ↔ queued ∈ s.queue)

namespace Frame
variable {sweeps : Bool} {id : String} {s s' s'' : PoolState}

theorem refl (sweeps : Bool) (id : String) (s : PoolState) : Frame sweeps id s s :=
  ⟨.inl rfl, rfl, fun _ _ => .rfl⟩

theorem trans (h : Frame sweeps id s s') (h' : Frame sweeps id s' s'') : Frame sweeps id s s'' where
  record := by
    rcases h.record with hsame | hswept
    · rcases h'.record with hsame' | ⟨hs, job, hl, hdone⟩
      · exact .inl (hsame'.trans hsame)
      · exact .inr ⟨hs, job, hsame.symm.trans hl, hdone⟩
    · exact .inr hswept
  running := h'.running.trans h.running
  tickets := fun queued hid => (h'.tickets queued hid).trans (h.tickets queued hid)

/-- Only the server jobs of other ids changed. -/
theorem of_records (hr : s'.serverJobs.lookup id = s.serverJobs.lookup id)
    (hj : s'.jobs = s.jobs) (hq : s'.queue = s.queue) : Frame sweeps id s s' :=
  ⟨.inl hr, by rw [hj], fun queued _ => by rw [hq]⟩

theorem update {jobId : String} (hne : id ≠ jobId)
    (f : ServerOwnedSolverJob → ServerOwnedSolverJob) : Frame sweeps id s (s.updateJob jobId f) :=
  of_records (lookup_modify_ne hne f s.serverJobs) rfl rfl

/-- Only running entries of other ids changed. -/
theorem of_jobs {jobs : Jobs} (hj : jobs.lookup id = s.jobs.lookup id) :
    Frame sweeps id s { s with jobs := jobs } :=
  ⟨.inl rfl, hj, fun _ _ => .rfl⟩

theorem signalCancel {jobId : String} (hne : id ≠ jobId) :
    Frame sweeps id s (s.signalCancel jobId) :=
  of_jobs (lookup_modify_ne hne _ s.jobs)

theorem dequeue {p : QueuedSolverJob → Bool}
    (hp : ∀ queued ∈ s.queue, queued.jobId = id → p queued = false) :
    Frame sweeps id s (s.dequeue p) where
  record := .inl rfl
  running := rfl
  tickets := by
    intro queued hid
    constructor
    · exact fun hin => (List.mem_filter.mp hin).1
    · exact fun hin => List.mem_filter.mpr ⟨hin, by simp [hp queued hin hid]⟩

/-- A job without an answer is never swept. -/
theorem lookup_pruneCompleted {nowMs : Nat} {job : ServerOwnedSolverJob}
    (hl : s.serverJobs.lookup id = some job) (hlive : job.completedMs = none) :
    (pruneCompletedServerJobs s nowMs).serverJobs.lookup id = some job := by
  refine (lookup_retain_eq_some _).mpr ⟨(lookup_retain_eq_some _).mpr ⟨hl, by simp [hlive]⟩, ?_⟩
  refine decide_eq_true fun hin => ?_
  obtain ⟨⟨doneMs, createdMs, id'⟩, htake, rfl⟩ := List.mem_map.mp hin
  have hmem := List.mem_mergeSort.mp (List.mem_of_mem_take htake)
  obtain ⟨⟨id', job'⟩, hentry, hdone⟩ := List.mem_filterMap.mp hmem
  obtain ⟨completedMs, hcompleted, heq⟩ := Option.map_eq_some_iff.mp hdone
  obtain ⟨_, _, rfl⟩ : completedMs = doneMs ∧ job'.createdMs = createdMs ∧ id' = _ := by
    simpa using heq
  have hl' := ((lookup_retain_eq_some _).mp (mem_toList_iff.mp hentry)).1
  obtain rfl := Option.some.inj (hl.symm.trans hl')
  rw [hlive] at hcompleted
  exact absurd hcompleted (by simp)

theorem pruneCompleted (nowMs : Nat) : Frame true id s (pruneCompletedServerJobs s nowMs) where
  record := by
    cases hl : s.serverJobs.lookup id with
    | none =>
      refine .inl (Option.eq_none_iff_forall_not_mem.mpr fun job hjob => ?_)
      have hold := lookup_of_pruneCompleted s hjob
      rw [hl] at hold
      exact absurd hold (by simp)
    | some job =>
      cases hc : job.completedMs with
      | none => exact .inl (lookup_pruneCompleted hl hc)
      | some completedMs => exact .inr ⟨rfl, job, rfl, by rw [hc]; rfl⟩
  running := rfl
  tickets := fun _ _ => .rfl

theorem handoffAll {jobIds : List String} (hout : id ∉ jobIds) (trusted : Bool) :
    Frame sweeps id s (handoffAll s jobIds trusted) := by
  have hfold : Frame sweeps id s (jobIds.foldl
      (fun s id => (s.updateJob id (handoffJob trusted)).signalCancel id) s) := by
    induction jobIds generalizing s with
    | nil => exact refl sweeps id s
    | cons first rest ih =>
      rw [List.mem_cons, not_or] at hout
      obtain ⟨hne, hrest⟩ := hout
      exact ((update hne _).trans (signalCancel hne)).trans (ih hrest)
  refine hfold.trans (dequeue fun queued _ hid => ?_)
  simp [hid, hout]

end Frame

/-- When a call drops stale tickets first. -/
def Op.prunesAt : Op → Option Nat
  | .handoffForTrustedWorker _ nowMs => some nowMs
  | .tryAcquire _ _ _ nowMs => some nowMs
  | .acquireOrEnqueue _ _ _ nowMs => some nowMs
  | .touch _ _ nowMs => some nowMs
  | .pruneQueue nowMs => some nowMs
  | _ => none

/-- The state a call works on. -/
def cleaned (s : PoolState) (op : Op) : PoolState :=
  op.prunesAt.elim s (pruneStaleQueue s)

section Foreign
variable {s : PoolState} {id jobId : String} {job : ServerOwnedSolverJob} {owner : SolverOwner}
  {sweeps : Bool}

variable (hl : s.serverJobs.lookup id = some job) (hother : job.owner ≠ owner)
include hl hother

end Foreign

section Answers
variable {config : Config} {s : PoolState} {id : String} {workers nowMs : Nat}
  {owner : SolverOwner}

end Answers

/-- Every record is well formed. -/
def Sound (s : PoolState) : Prop :=
  ∀ id job, s.serverJobs.lookup id = some job → job.WellFormed

theorem Sound.step {s : PoolState} (h : Sound s) (config : Config) (op : Op) :
    Sound (step config s op).1 := by
  intro id job' hl'
  rcases (step_passes config s op).records id job' hl' with ⟨job, hl, hf⟩ | ⟨_, _, hw, _⟩
  · exact (hf (h id job hl)).1.wellFormed
  · exact hw

section SameId

def ownerA : SolverOwner := ⟨"school-a", "admin"⟩
def ownerB : SolverOwner := ⟨"school-b", "admin"⟩

/-- The other owner tries the id of a job that waits for its turn. -/
def tried : List Op :=
  [.tryAcquire "r" 2 ownerB 0, .claim "x" ownerA {} 1, .prepareVps "x" ownerA 2,
    .acquireOrEnqueue "x" 2 ownerA 3, .acquireOrEnqueue "x" 2 ownerB 4, .claim "x" ownerB {} 5,
    .cancelForOwner "x" ownerB]

/-- One owner's server job waits for the VPS; a plain solve of another owner takes its id. -/
def taken : PoolState :=
  [Op.claim "x" ownerA {} 0, .prepareVps "x" ownerA 1, .tryAcquire "x" 2 ownerB 2].foldl
    (fun s op => (step ⟨3, 8, 2, 6⟩ s op).1) .empty

end SameId

end TkbCherry.Pool
