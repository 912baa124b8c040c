import TkbCherry.Pool.Edits
import TkbCherry.Pool.Admission

/-!
# Single flight and capacity

The three bounds on server jobs. Only a claim adds a record, and it has looked for the owner's
live duplicates and counted the unresolved jobs before it does.
-/

namespace TkbCherry.Pool

set_option autoImplicit false

open Table

/-- The two jobs share a label that both have. -/
def SameLabel (a b : Option String) : Prop := a.isSome = true ∧ a = b

theorem SameLabel.symm {a b : Option String} (h : SameLabel a b) : SameLabel b a :=
  ⟨by rw [← h.2]; exact h.1, h.2.symm⟩

/-- An unresolved job of the owner that is not cancelled. -/
structure Flies (owner : SolverOwner) (job : ServerOwnedSolverJob) : Prop where
  owned : job.owner = owner
  unresolved : job.completedMs = none
  uncancelled : job.cancelRequested = false

structure SingleFlight (s : PoolState) : Prop where
  distinct : ∀ owner id id' job job', s.serverJobs.lookup id = some job →
    s.serverJobs.lookup id' = some job' → id ≠ id' → Flies owner job → Flies owner job' →
      ¬ SameLabel job.scheduleFingerprint job'.scheduleFingerprint ∧
      ¬ SameLabel job.scheduleScope job'.scheduleScope
  global : unresolvedJobs s.serverJobs (fun _ => true) ≤ maxUnresolvedServerJobs
  perOwner : ∀ owner, unresolvedJobs s.serverJobs (fun job => decide (job.owner = owner)) ≤
    maxUnresolvedServerJobsPerOwner

/-- A record that stays keeps its labels and its owner; what is resolved or cancelled stays so. -/
structure Lands (job job' : ServerOwnedSolverJob) : Prop where
  owner : job'.owner = job.owner
  fingerprint : job'.scheduleFingerprint = job.scheduleFingerprint
  scope : job'.scheduleScope = job.scheduleScope
  resolved : job'.completedMs = none → job.completedMs = none
  cancelled : job'.cancelRequested = false → job.cancelRequested = false

theorem Lands.refl (job : ServerOwnedSolverJob) : Lands job job := ⟨rfl, rfl, rfl, id, id⟩

theorem Lands.watch {job job' : ServerOwnedSolverJob} (h : Lands job job') (nowMs : Nat) :
    Lands job (startServerWatchdog job' nowMs) := by
  unfold startServerWatchdog
  split
  · exact ⟨h.owner, h.fingerprint, h.scope, h.resolved, h.cancelled⟩
  · exact h

theorem Lands.flies {owner : SolverOwner} {job job' : ServerOwnedSolverJob} (h : Lands job job')
    (hf : Flies owner job') : Flies owner job :=
  ⟨h.owner.symm.trans hf.owned, h.resolved hf.unresolved, h.cancelled hf.uncancelled⟩

theorem Edit.lands {op : Op} {id : String} {job job' : ServerOwnedSolverJob}
    (he : Edit op id job job') : Lands job job' := by
  cases he with
  | agentFromPending | agentFromHandoff | agentAgain | serverlessFromPending | serverlessAgain
  | vpsFromPending | vpsAgain =>
    apply Lands.watch
    exact ⟨rfl, rfl, rfl, fun h => h, fun h => h⟩
  | answeredFenced | answered => exact ⟨rfl, rfl, rfl, fun h => absurd h (by simp [completeJob]), fun h => h⟩
  | cancelled | cancelledForOwner =>
    exact ⟨rfl, rfl, rfl, fun h => h, fun h => absurd h (by simp [cancelServerJob])⟩
  | _ => exact ⟨rfl, rfl, rfl, fun h => h, fun h => h⟩

/-- Records that go or land keep all three bounds. -/
theorem SingleFlight.of_lands {s s' : PoolState} (h : SingleFlight s)
    (hl : ∀ id job', s'.serverJobs.lookup id = some job' →
      ∃ job, s.serverJobs.lookup id = some job ∧ Lands job job') : SingleFlight s' where
  distinct := by
    intro owner id id' job₁ job₂ hl₁ hl₂ hne hf₁ hf₂
    obtain ⟨job, hjob, hlands⟩ := hl id job₁ hl₁
    obtain ⟨job', hjob', hlands'⟩ := hl id' job₂ hl₂
    rw [hlands.fingerprint, hlands'.fingerprint, hlands.scope, hlands'.scope]
    exact h.distinct owner id id' job job' hjob hjob' hne (hlands.flies hf₁) (hlands'.flies hf₂)
  global := by
    refine Nat.le_trans (count_le fun id job' hl' => ?_) h.global
    obtain ⟨job, hjob, hlands⟩ := hl id job' hl'
    refine ⟨job, hjob, fun hp => ?_⟩
    simp only [Bool.and_true, Option.isNone_iff_eq_none] at hp ⊢
    exact hlands.resolved hp
  perOwner := by
    intro owner
    refine Nat.le_trans (count_le fun id job' hl' => ?_) (h.perOwner owner)
    obtain ⟨job, hjob, hlands⟩ := hl id job' hl'
    refine ⟨job, hjob, fun hp => ?_⟩
    simp only [Bool.and_eq_true, Option.isNone_iff_eq_none, decide_eq_true_eq] at hp ⊢
    exact ⟨hlands.resolved hp.1, hlands.owner.symm.trans hp.2⟩

theorem liveDuplicate_none {s : PoolState} {owner : SolverOwner}
    {same : ServerOwnedSolverJob → Bool} (h : liveDuplicate s owner same = none) {id : String}
    {job : ServerOwnedSolverJob} (hl : s.serverJobs.lookup id = some job) (hf : Flies owner job) :
    same job = false := by
  unfold liveDuplicate at h
  simp only at h
  split at h
  · rename_i hfound
    rw [Bool.eq_false_iff]
    intro hsame
    have hnone := List.filterMap_eq_nil_iff.mp hfound (id, job) (mem_toList_iff.mpr hl)
    simp [hf.owned, hf.unresolved, hf.uncancelled, hsame] at hnone
  · exact absurd h (by simp)

theorem not_sameLabel {s : PoolState} {owner : SolverOwner} {label : Option String}
    {labelOf : ServerOwnedSolverJob → Option String}
    (h : (label.bind fun text => liveDuplicate s owner fun job => decide (labelOf job = some text)) =
      none) {id : String} {job : ServerOwnedSolverJob} (hl : s.serverJobs.lookup id = some job)
    (hf : Flies owner job) : ¬ SameLabel label (labelOf job) := by
  rintro ⟨hsome, heq⟩
  obtain ⟨text, rfl⟩ := Option.isSome_iff_exists.mp hsome
  rw [Option.bind_some] at h
  have hother := liveDuplicate_none h hl hf
  simp [← heq] at hother

/-- A granted claim has looked for duplicates and has room. -/
theorem claimServerJob_singleFlight {s : PoolState} (h : SingleFlight s) (jobId : String)
    (owner : SolverOwner) (request : ClaimRequest) (nowMs : Nat) :
    SingleFlight (claimServerJob s jobId owner request nowMs).1 := by
  have hprune : SingleFlight (pruneCompletedServerJobs s nowMs) :=
    h.of_lands fun id job hl => ⟨job, lookup_of_pruneCompleted s hl, .refl job⟩
  unfold claimServerJob
  simp only
  generalize pruneCompletedServerJobs s nowMs = s at hprune
  split
  · exact hprune
  · rename_i hnone
    split
    · exact hprune
    · exact hprune
    · rename_i hschedule hscope
      split
      · exact hprune
      · rename_i hglobal
        split
        · exact hprune
        · rename_i howner
          have hapart : ∀ id job, s.serverJobs.lookup id = some job → Flies owner job →
              ¬ SameLabel (normalizeScheduleFingerprint request.scheduleFingerprint)
                job.scheduleFingerprint ∧
              ¬ SameLabel (normalizeScheduleScope request.scheduleScope) job.scheduleScope :=
            fun id job hl hf => ⟨not_sameLabel hschedule hl hf, not_sameLabel hscope hl hf⟩
          constructor
          · intro owner' id id' job job' hl hl' hne hf hf'
            rcases eq_or_ne id jobId with hid | hid
            · subst hid
              rw [AList.lookup_insert] at hl
              rw [AList.lookup_insert_ne hne.symm] at hl'
              obtain rfl := Option.some.inj hl
              obtain rfl : owner = owner' := hf.owned
              exact hapart id' job' hl' hf'
            · rw [AList.lookup_insert_ne hid] at hl
              rcases eq_or_ne id' jobId with hid' | hid'
              · subst hid'
                rw [AList.lookup_insert] at hl'
                obtain rfl := Option.some.inj hl'
                obtain rfl : owner = owner' := hf'.owned
                obtain ⟨hfingerprint, hscope⟩ := hapart id job hl hf
                exact ⟨fun hs => hfingerprint hs.symm, fun hs => hscope hs.symm⟩
              · rw [AList.lookup_insert_ne hid'] at hl'
                exact hprune.distinct owner' id id' job job' hl hl' hne hf hf'
          · refine Nat.le_trans (Nat.le_of_eq (count_insert hnone _)) ?_
            have hroom := hglobal
            unfold unresolvedJobs at hroom
            split <;> omega
          · intro owner'
            refine Nat.le_trans (Nat.le_of_eq (count_insert hnone _)) ?_
            rcases eq_or_ne owner owner' with hsame | hsame
            · subst hsame
              have hroom := howner
              unfold unresolvedJobs at hroom
              split <;> omega
            · have hbound := hprune.perOwner owner'
              unfold unresolvedJobs at hbound
              simp only [newServerJob, hsame, decide_false, Bool.and_false]
              simpa using hbound

theorem SingleFlight.step {s : PoolState} (h : SingleFlight s) (config : Config) (op : Op) :
    SingleFlight (step config s op).1 := by
  cases op with
  | claim jobId owner request nowMs => exact claimServerJob_singleFlight h jobId owner request nowMs
  | _ =>
    refine h.of_lands fun id job' hl' => ?_
    rcases step_edits config s _ hl' with ⟨job, hl, he⟩ | ⟨_, _, _, _, _, _, _, hop, _⟩
    · exact ⟨job, hl, he.lands⟩
    · exact absurd hop (by simp)

/-- In every reachable state no two unresolved jobs of an owner that are not cancelled share a
fingerprint or a scope, and the unresolved jobs are within both limits. -/
theorem single_flight (config : Config) (ops : List Op) (s : PoolState)
    (h : Transition.Run config.Steps .empty ops s) : SingleFlight s := by
  refine h.invariant
    (fun {s op t} hs (hst : (Pool.step config s op).1 = t) => hst ▸ SingleFlight.step hs config op) ?_
  refine ⟨fun _ _ _ _ _ hl => ?_, ?_, fun _ => ?_⟩
  · simp [PoolState.empty] at hl
  · exact Nat.zero_le _
  · exact Nat.zero_le _

/-- A second job with the same fingerprint is refused, a third job of the owner too. -/
theorem single_flight_three :
    let owner : SolverOwner := ⟨"s1", "admin"⟩
    let ops : List Op := [.claim "a" owner { scheduleFingerprint := some "f" } 0,
      .claim "b" owner { scheduleFingerprint := some "f" } 1, .claim "c" owner {} 2,
      .claim "d" owner {} 3]
    SingleFlight (ops.foldl (fun s op => (step ⟨3, 8, 2, 6⟩ s op).1) .empty) := by
  intro owner ops
  exact single_flight ⟨3, 8, 2, 6⟩ ops _ (Transition.Run.ofFn_foldl _ _ ops)

end TkbCherry.Pool
