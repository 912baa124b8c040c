import TkbCherry.Pool.Calls

/-!
# Admission

Worker tokens and slots under every run of calls. A call that adds nothing keeps every
bound, so the argument is about `insert_job` and the two admissions that reach it.
-/

namespace TkbCherry.Pool

set_option autoImplicit false

open Table

/-- The bounds the pool is configured with. -/
structure Config.Valid (config : Config) : Prop where
  one_le_min : 1 ≤ config.minWorkersPerJob
  min_le_max : config.minWorkersPerJob ≤ config.maxWorkersPerJob
  max_le_total : config.maxWorkersPerJob ≤ config.totalWorkerTokens

/-- A number of workers one job may have. -/
def Config.InRange (config : Config) (workers : Nat) : Prop :=
  config.minWorkersPerJob ≤ workers ∧ workers ≤ config.maxWorkersPerJob

theorem Config.Valid.normalized_inRange {config : Config} (h : config.Valid) (desired : Nat) :
    config.InRange (config.normalizedWorkerDemand desired) := by
  have := h.min_le_max
  unfold Config.InRange Config.normalizedWorkerDemand
  omega

theorem Config.InRange.normalized {config : Config} {workers : Nat} (h : config.InRange workers) :
    config.normalizedWorkerDemand workers = workers := by
  unfold Config.InRange at h
  unfold Config.normalizedWorkerDemand
  omega

/-- Tokens, slots, and the separation of the queue from the running jobs. -/
structure Safe (config : Config) (s : PoolState) : Prop where
  tokens : allocatedWorkers s.jobs ≤ config.totalWorkerTokens
  slots : size s.jobs ≤ config.maxConcurrent
  range : ∀ jobId job, s.jobs.lookup jobId = some job → config.InRange job.allocatedWorkers
  apart : ∀ queued ∈ s.queue, s.jobs.lookup queued.jobId = none
  distinct : (s.queue.map QueuedSolverJob.jobId).Nodup

/-- `Safe` with what the next admission needs. -/
structure Inv (config : Config) (s : PoolState) : Prop extends Safe config s where
  demand : ∀ queued ∈ s.queue, config.InRange queued.desiredWorkers
  serials : ∀ jobId job, s.jobs.lookup jobId = some job → job.serial < s.nextSerial

theorem Shrinks.inv {config : Config} {s s' : PoolState} (h : Shrinks s s') (hi : Inv config s) : Inv config s' := by
  have hnone : ∀ jobId, s.jobs.lookup jobId = none → s'.jobs.lookup jobId = none := by
    intro jobId hl
    cases hl' : s'.jobs.lookup jobId with
    | none => rfl
    | some job' =>
      obtain ⟨job, hsome, _⟩ := h.jobs jobId job' hl'
      rw [hl] at hsome
      exact absurd hsome (by simp)
  refine ⟨⟨h.tokens.trans hi.tokens, h.slots.trans hi.slots, ?_, ?_, ?_⟩, ?_, ?_⟩
  · intro jobId job' hl'
    obtain ⟨job, hl, ha, _⟩ := h.jobs jobId job' hl'
    rw [ha]
    exact hi.range jobId job hl
  · intro queued' hq
    obtain ⟨queued, hin, ht⟩ := h.mem_ticket hq
    rw [← (Prod.mk.inj ht).1]
    exact hnone _ (hi.apart queued hin)
  · have hsub := h.queue.map Prod.fst
    rw [List.map_map, List.map_map] at hsub
    exact hi.distinct.sublist hsub
  · intro queued' hq
    obtain ⟨queued, hin, ht⟩ := h.mem_ticket hq
    rw [← (Prod.mk.inj (Prod.mk.inj ht).2).1]
    exact hi.demand queued hin
  · intro jobId job' hl'
    obtain ⟨job, hl, _, hs, _⟩ := h.jobs jobId job' hl'
    rw [hs, h.serial]
    exact hi.serials jobId job hl


/-! ### Admissions -/

namespace Config
variable {config : Config} {s : PoolState}

/-- What an admission leaves: the invariant, and the jobs that were running before. -/
structure Admits (config : Config) (s s' : PoolState) : Prop where
  inv : Inv config s'
  kept : ∀ jobId job, s.jobs.lookup jobId = some job → s'.jobs.lookup jobId = some job

theorem Admits.of_jobs_eq {s s' s'' : PoolState} (h : Admits config s' s'')
    (hjobs : s'.jobs = s.jobs) : Admits config s s'' :=
  ⟨h.inv, fun jobId job hl => h.kept jobId job (hjobs ▸ hl)⟩

theorem Admits.refl (hi : Inv config s) : Admits config s s := ⟨hi, fun _ _ h => h⟩

/-- The one place where a running job appears: a fresh id, a free slot, enough tokens. -/
theorem insertJob_admits (hv : config.Valid) (hi : Inv config s) (jobId : String)
    (desiredWorkers : Nat) (owner : SolverOwner) (nowMs : Nat)
    (hfresh : s.jobs.lookup jobId = none) (hslot : size s.jobs < config.maxConcurrent)
    (hfits : config.normalizedWorkerDemand desiredWorkers ≤ config.availableWorkers s)
    (hqueue : ∀ queued ∈ s.queue, queued.jobId ≠ jobId) :
    Admits config s (config.insertJob s jobId desiredWorkers owner nowMs).1 := by
  have hrange := hv.normalized_inRange desiredWorkers
  have htokens := hi.tokens
  unfold availableWorkers at hfits
  have hlookup : ∀ id, (config.insertJob s jobId desiredWorkers owner nowMs).1.jobs.lookup id =
      if id = jobId then some (config.insertJob s jobId desiredWorkers owner nowMs).2
      else s.jobs.lookup id := by
    intro id
    split
    · rename_i hid
      rw [hid]
      exact AList.lookup_insert s.jobs
    · rename_i hid
      exact AList.lookup_insert_ne hid
  refine ⟨⟨⟨?_, ?_, ?_, ?_, hi.distinct⟩, hi.demand, ?_⟩, ?_⟩
  · have hsum := total_insert SolverJob.allocatedWorkers s.jobs hfresh
      (config.insertJob s jobId desiredWorkers owner nowMs).2
    refine (Nat.le_of_eq hsum).trans ?_
    have hworkers : (config.insertJob s jobId desiredWorkers owner nowMs).2.allocatedWorkers =
        config.normalizedWorkerDemand desiredWorkers := rfl
    unfold allocatedWorkers at hfits htokens
    omega
  · have hsum := total_insert (fun _ => 1) s.jobs hfresh
      (config.insertJob s jobId desiredWorkers owner nowMs).2
    rw [← size_eq_total, ← size_eq_total] at hsum
    refine (Nat.le_of_eq hsum).trans ?_
    omega
  · intro id job hl
    rw [hlookup] at hl
    split at hl
    · obtain rfl := Option.some.inj hl
      exact hrange
    · exact hi.range id job hl
  · intro queued hin
    rw [hlookup, if_neg (hqueue queued hin)]
    exact hi.apart queued hin
  · intro id job hl
    rw [hlookup] at hl
    split at hl
    · obtain rfl := Option.some.inj hl
      exact Nat.lt_succ_self _
    · exact Nat.lt_succ_of_lt (hi.serials id job hl)
  · intro id job hl
    have hid : id ≠ jobId := by
      intro h
      rw [h, hfresh] at hl
      exact absurd hl (by simp)
    rw [hlookup, if_neg hid]
    exact hl

/-- The front of the queue leaves it in the same call that runs it. -/
theorem admitFront_admits (hv : config.Valid) (hi : Inv config s) (jobId : String) (nowMs : Nat) :
    Admits config s (config.admitFront s jobId nowMs).1 := by
  unfold admitFront
  split
  · rename_i queued rest hq
    split
    · rename_i hfront
      obtain ⟨_, hslot, hfits⟩ := hfront
      have hmem : queued ∈ s.queue := by simp [hq]
      have hdistinct := hi.distinct
      rw [hq, List.map_cons, List.nodup_cons] at hdistinct
      have hrest : Shrinks s { s with queue := rest } := by
        refine ⟨(Shrinks.refl s).jobs, Nat.le_refl _, Nat.le_refl _, ?_, rfl⟩
        rw [hq]
        exact (List.sublist_cons_self queued rest).map ticket
      refine (insertJob_admits hv (hrest.inv hi) queued.jobId queued.desiredWorkers queued.owner
        nowMs (hi.apart queued hmem) hslot ?_ ?_).of_jobs_eq rfl
      · rw [(hi.demand queued hmem).normalized]
        exact hfits
      · intro other hin heq
        exact hdistinct.1 (heq ▸ List.mem_map_of_mem hin)
    · split <;> exact .refl hi
  · exact .refl hi

theorem tryAcquire_admits (hv : config.Valid) (hi : Inv config s) (jobId : String)
    (desiredWorkers : Nat) (owner : SolverOwner) (nowMs : Nat) :
    Admits config s (config.tryAcquireForOwner s jobId desiredWorkers owner nowMs).1 := by
  have hprune : Inv config (pruneStaleQueue s nowMs) := (pruneStaleQueue_shrinks s nowMs).inv hi
  unfold tryAcquireForOwner
  have hjobs : (pruneStaleQueue s nowMs).jobs = s.jobs := rfl
  refine .of_jobs_eq ?_ hjobs
  simp only
  split
  · exact .refl hprune
  · split
    · exact .refl hprune
    · rename_i hbusy
      split
      · exact .refl hprune
      · rename_i hfits
        simp only [Bool.or_eq_true, Bool.not_eq_true', decide_eq_true_eq, not_or,
          Bool.not_eq_false, List.isEmpty_iff, Option.not_isSome_iff_eq_none, Nat.not_le] at hbusy
        obtain ⟨⟨hempty, hfresh⟩, hslot⟩ := hbusy
        refine insertJob_admits hv hprune jobId _ owner nowMs hfresh hslot ?_ (by simp [hempty])
        rw [(hv.normalized_inRange desiredWorkers).normalized]
        omega

/-- A fresh id may wait at the end of the queue. -/
theorem enqueue_inv (hi : Inv config s) {queued : QueuedSolverJob}
    (hfresh : s.jobs.lookup queued.jobId = none)
    (habsent : ∀ other ∈ s.queue, other.jobId ≠ queued.jobId)
    (hrange : config.InRange queued.desiredWorkers) :
    Inv config { s with queue := s.queue ++ [queued] } := by
  refine ⟨⟨hi.tokens, hi.slots, hi.range, ?_, ?_⟩, ?_, hi.serials⟩
  · intro other hin
    rcases List.mem_append.mp hin with hin | hin
    · exact hi.apart other hin
    · rw [List.mem_singleton.mp hin]
      exact hfresh
  · rw [List.map_append, List.nodup_append]
    refine ⟨hi.distinct, List.nodup_singleton _, ?_⟩
    intro id hid id' hid' heq
    obtain ⟨other, hin, rfl⟩ := List.mem_map.mp hid
    exact habsent other hin (heq.trans (List.mem_singleton.mp hid'))
  · intro other hin
    rcases List.mem_append.mp hin with hin | hin
    · exact hi.demand other hin
    · rw [List.mem_singleton.mp hin]
      exact hrange

theorem acquireOrEnqueue_admits (hv : config.Valid) (hi : Inv config s) (jobId : String)
    (desiredWorkers : Nat) (owner : SolverOwner) (nowMs : Nat) :
    Admits config s (config.acquireOrEnqueueForOwner s jobId desiredWorkers owner nowMs).1 := by
  have hprune : Inv config (pruneStaleQueue s nowMs) := (pruneStaleQueue_shrinks s nowMs).inv hi
  have hrange := hv.normalized_inRange desiredWorkers
  unfold acquireOrEnqueueForOwner
  have hjobs : (pruneStaleQueue s nowMs).jobs = s.jobs := rfl
  refine .of_jobs_eq ?_ hjobs
  simp only
  split
  · exact .refl hprune
  · split
    · exact .refl hprune
    · rename_i hrunning
      have hfresh : (pruneStaleQueue s nowMs).jobs.lookup jobId = none := by
        simpa using hrunning
      split
      · rename_i index _
        split
        · exact .refl hprune
        · exact (admitFront_admits hv ((modifyQueue_shrinks _ index nowMs).inv hprune) jobId
            nowMs).of_jobs_eq rfl
      · rename_i hfind
        have habsent : ∀ queued ∈ (pruneStaleQueue s nowMs).queue, queued.jobId ≠ jobId := by
          simpa using hfind
        split
        · rename_i hfree
          simp only [Bool.and_eq_true, decide_eq_true_eq, List.isEmpty_iff] at hfree
          obtain ⟨⟨_, hslot⟩, hfits⟩ := hfree
          refine insertJob_admits hv hprune jobId _ owner nowMs hfresh hslot ?_ habsent
          rw [hrange.normalized]
          exact hfits
        · exact (admitFront_admits hv (enqueue_inv hprune hfresh habsent hrange) jobId
            nowMs).of_jobs_eq rfl

end Config

/-! ### Runs -/

/-- A running entry is the same allocation as long as its id keeps running. -/
def NoOverwrite (s s' : PoolState) : Prop := ∀ jobId job job', s.jobs.lookup jobId = some job →
  s'.jobs.lookup jobId = some job' → job'.serial = job.serial

theorem step_inv {config : Config} (hv : config.Valid) {s : PoolState} (hi : Inv config s)
    (op : Op) : Inv config (step config s op).1 ∧ NoOverwrite s (step config s op).1 := by
  have hshrinks : ∀ {s'}, Shrinks s s' → Inv config s' ∧ NoOverwrite s s' := by
    intro s' h
    refine ⟨h.inv hi, fun jobId job job' hl hl' => ?_⟩
    obtain ⟨job₁, hl₁, _, hs, _⟩ := h.jobs jobId job' hl'
    obtain rfl := Option.some.inj (hl.symm.trans hl₁)
    exact hs
  have hadmits : ∀ {s'}, config.Admits s s' → Inv config s' ∧ NoOverwrite s s' := by
    intro s' h
    refine ⟨h.inv, fun jobId job job' hl hl' => ?_⟩
    rw [Option.some.inj ((h.kept jobId job hl).symm.trans hl')]
  cases hop : op.adds with
  | false => exact hshrinks (step_serves config s hop).toShrinks
  | true =>
    cases op with
    | claim jobId owner request nowMs =>
      exact hshrinks (claimServerJob_shrinks s jobId owner request nowMs)
    | tryAcquire jobId desiredWorkers owner nowMs =>
      exact hadmits (Config.tryAcquire_admits hv hi jobId desiredWorkers owner nowMs)
    | acquireOrEnqueue jobId desiredWorkers owner nowMs =>
      exact hadmits (Config.acquireOrEnqueue_admits hv hi jobId desiredWorkers owner nowMs)
    | _ => simp [Op.adds] at hop

theorem inv_empty (config : Config) : Inv config .empty where
  tokens := Nat.zero_le _
  slots := Nat.zero_le _
  range := fun _ _ h => by simp [PoolState.empty] at h
  apart := fun _ h => by simp [PoolState.empty] at h
  distinct := List.nodup_nil
  demand := fun _ h => by simp [PoolState.empty] at h
  serials := fun _ _ h => by simp [PoolState.empty] at h

/-- The pool as a transition system whose labels are the calls. -/
def Config.Steps (config : Config) : PoolState → Op → PoolState → Prop :=
  Transition.ofFn fun s op => (step config s op).1

/-- Tokens, slots and the separation of queue and running jobs hold in every reachable state,
and no call writes over a running job. -/
theorem admission_safe (config : Config) (hv : config.Valid) (ops : List Op) (s : PoolState)
    (h : Transition.Run config.Steps .empty ops s) :
    Safe config s ∧ ∀ op, NoOverwrite s (step config s op).1 := by
  have hi : Inv config s := h.invariant
    (fun {s op t} hs (hst : (step config s op).1 = t) => hst ▸ (step_inv hv hs op).1)
    (inv_empty config)
  exact ⟨hi.toSafe, fun op => (step_inv hv hi op).2⟩

/-- Three jobs on eight tokens: the third waits, and runs once the first is gone. -/
theorem admission_safe_three :
    let config : Config := ⟨3, 8, 2, 6⟩
    let owner : SolverOwner := ⟨"s1", "admin"⟩
    let ops : List Op := [.tryAcquire "a" 6 owner 0, .acquireOrEnqueue "b" 2 owner 1,
      .acquireOrEnqueue "c" 4 owner 2, .cancel "a"]
    Safe config (ops.foldl (fun s op => (step config s op).1) .empty) := by
  intro config owner ops
  exact (admission_safe config ⟨by decide, by decide, by decide⟩ ops _
    (Transition.Run.ofFn_foldl _ _ ops)).1

end TkbCherry.Pool
