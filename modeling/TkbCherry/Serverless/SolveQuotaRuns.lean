import TkbCherry.Serverless.SolveQuota

/-!
# Solve quotas over runs

A run is any sequence of claims and releases. Above the calls stand the requests that make
them: a request claims its unit, and its guard gives the unit back unless it was accepted.
`inserter` remembers which request stored a row; the code has no such column.
-/

namespace TkbCherry.Serverless

set_option autoImplicit false

open Table Text Quota
open TkbCherry.Pool (SolverOwner)

/-! ### The effect of one call -/

/-- What an answered claim has done. -/
structure Claims (place : Place) (pool : QuotaPool) (t t' : QuotaTables) (answer : Admission) :
    Prop where
  reported : answer.used = t'.counted pool
  stored : (t.rowAt place).isSome → answer = .existing (t.counted pool) ∧ t' = t
  known : ∀ n, answer = .existing n → (t.rowAt place).isSome
  admitted : t.rowAt place = none → (t.counted pool < pool.limit ↔ ∃ n, answer = .claimed n)
  refused : (∀ n, answer ≠ .claimed n) → t' = t
  fresh : ∀ n, answer = .claimed n →
    t.rowAt place = none ∧ ∃ atMs, t'.rowAt place = some (pool, atMs)
  others : ∀ q, q ≠ place → t'.rowAt q = t.rowAt q
  within : t.WithinLimits → t'.WithinLimits

/-- What an answered release has done. -/
structure Releases (place : Place) (pool : QuotaPool) (t t' : QuotaTables) (removed : Bool) :
    Prop where
  own : removed = true ↔ ∃ atMs, t.rowAt place = some (pool, atMs)
  gone : removed = true → t'.rowAt place = none
  kept : removed = false → t' = t
  others : ∀ q, q ≠ place → t'.rowAt q = t.rowAt q
  within : t.WithinLimits → t'.WithinLimits

/-- One of the three tables inside the whole: `name` names its pools, `view` reads a row. -/
structure Facet {V P : Type} [DecidableEq P] (plan : Plan) (pool : Identity → V → P) (limit : Nat)
    (name : P → QuotaPool) (view : Identity → V → QuotaPool × Nat)
    (table : QuotaTables → Entries Identity V)
    (put : Entries Identity V → QuotaTables → QuotaTables) : Prop where
  put_table : ∀ t, put (table t) t = t
  rowAt : ∀ m t id, (put m t).rowAt ⟨plan, id⟩ = (m.lookup id).map (view id)
  rowAt_ne : ∀ m t q, q.plan ≠ plan → (put m t).rowAt q = t.rowAt q
  counted : ∀ m t p, (put m t).counted (name p) = used pool m p
  counted_ne : ∀ m t q, (∀ p, q ≠ name p) → (put m t).counted q = t.counted q
  limited : ∀ p, (name p).limit = limit
  view_pool : ∀ id v, (view id v).1 = name (pool id v)
  name_inj : ∀ p p', name p = name p' → p = p'

namespace Facet
variable {V P : Type} [DecidableEq P] {plan : Plan} {pool : Identity → V → P} {limit : Nat}
  {name : P → QuotaPool} {view : Identity → V → QuotaPool × Nat}
  {table : QuotaTables → Entries Identity V}
  {put : Entries Identity V → QuotaTables → QuotaTables}
  (F : Facet plan pool limit name view table put)
include F

theorem rowAt_table (t : QuotaTables) (id : Identity) :
    t.rowAt ⟨plan, id⟩ = ((table t).lookup id).map (view id) := by
  have h := F.rowAt (table t) t id
  rwa [F.put_table] at h

theorem counted_table (t : QuotaTables) (p : P) : t.counted (name p) = used pool (table t) p := by
  have h := F.counted (table t) t p
  rwa [F.put_table] at h

theorem rowAt_put_ne {m : Entries Identity V} {t : QuotaTables} {id : Identity} {q : Place}
    (hne : q ≠ ⟨plan, id⟩) (hm : ∀ j, j ≠ id → m.lookup j = (table t).lookup j) :
    (put m t).rowAt q = t.rowAt q := by
  by_cases hplan : q.plan = plan
  · obtain ⟨_, j⟩ := q
    dsimp only at hplan
    subst hplan
    have hj : j ≠ id := by
      intro he
      exact hne (by rw [he])
    rw [F.rowAt, F.rowAt_table, hm j hj]
  · exact F.rowAt_ne m t q hplan

theorem within_put {m : Entries Identity V} {t : QuotaTables} (ht : t.WithinLimits)
    (hm : (∀ p, used pool (table t) p ≤ limit) → ∀ p, used pool m p ≤ limit) :
    (put m t).WithinLimits := by
  intro q
  by_cases hq : ∃ p, q = name p
  · obtain ⟨p, rfl⟩ := hq
    rw [F.counted, F.limited]
    refine hm ?_ p
    intro p'
    have hp' := ht (name p')
    rwa [F.counted_table, F.limited] at hp'
  · have hne : ∀ p, q ≠ name p := fun p he => hq ⟨p, he⟩
    rw [F.counted_ne m t q hne]
    exact ht q

theorem claims (t : QuotaTables) (id : Identity) (v : V) :
    Claims ⟨plan, id⟩ (name (pool id v)) t (put (claim pool limit id v (table t)).2 t)
      (claim pool limit id v (table t)).1 where
  reported := by rw [F.counted, claim_used]
  stored := by
    intro h
    rw [F.rowAt_table, Option.isSome_map] at h
    rw [claim_stored pool h, F.counted_table]
    exact ⟨rfl, F.put_table t⟩
  known := by
    intro n h
    rw [F.rowAt_table, Option.isSome_map]
    rcases claim_cases pool limit id v (table t) with ⟨hsome, _⟩ | ⟨_, _, hc⟩ | ⟨_, _, hc⟩
    · exact hsome
    · rw [hc] at h
      exact absurd h (by simp)
    · rw [hc] at h
      exact absurd h (by simp)
  admitted := by
    intro h
    rw [F.rowAt_table, Option.map_eq_none_iff] at h
    rw [F.counted_table, F.limited]
    rcases claim_cases pool limit id v (table t) with ⟨hsome, _⟩ | ⟨_, hfull, hc⟩ | ⟨_, hroom, hc⟩
    · rw [h] at hsome
      exact absurd hsome (by simp)
    · rw [hc]
      simp [hfull]
    · rw [hc]
      exact ⟨fun _ => ⟨_, rfl⟩, fun _ => hroom⟩
  refused := by
    intro h
    rw [claim_not_claimed pool h, F.put_table]
  fresh := by
    intro n h
    obtain ⟨hnone, hsome⟩ := claim_claimed pool h
    refine ⟨by rw [F.rowAt_table, hnone]; rfl, (view id v).2, ?_⟩
    rw [F.rowAt, hsome, Option.map_some, ← F.view_pool]
  others := fun q hne => F.rowAt_put_ne hne fun j hj => lookup_claim_ne pool hj
  within := fun ht => F.within_put ht fun h p => claim_within pool h id v p

theorem releases (t : QuotaTables) (id : Identity) (own : V → Bool) (p : P)
    (hown : ∀ v, own v = true ↔ pool id v = p) :
    Releases ⟨plan, id⟩ (name p) t (put (release own id (table t)).2 t)
      (release own id (table t)).1 where
  own := by
    rw [release_removed, F.rowAt_table]
    constructor
    · rintro ⟨v, hl, hv⟩
      refine ⟨(view id v).2, ?_⟩
      rw [hl, Option.map_some, ← (hown v).mp hv, ← F.view_pool]
    · rintro ⟨atMs, h⟩
      obtain ⟨v, hl, hv⟩ := Option.map_eq_some_iff.mp h
      have hname : name (pool id v) = name p := by rw [← F.view_pool, hv]
      exact ⟨v, hl, (hown v).mpr (F.name_inj _ _ hname)⟩
  gone := by
    intro h
    obtain ⟨v, hl, hv⟩ := (release_removed own id (table t)).mp h
    rw [F.rowAt, lookup_release_self, hl]
    simp [Option.filter, hv]
  kept := by
    intro h
    have hsame : (release own id (table t)).2 = table t := by
      unfold release at h ⊢
      cases hl : (table t).lookup id with
      | none => rfl
      | some v =>
        rw [hl] at h
        cases hv : own v with
        | true => simp [hv] at h
        | false => simp [hv]
    rw [hsame, F.put_table]
  others := fun q hne => F.rowAt_put_ne hne fun j hj => lookup_release_ne hj
  within := fun ht => F.within_put ht fun h p => release_within h own id p

end Facet

theorem freeFacet : Facet .free schoolPool freeSolveActionLimit .free
    (fun id row => (.free id.schoolId, row.requestedAtMs)) QuotaTables.solverFreeSolveUsage
    (fun m t => { t with solverFreeSolveUsage := m }) where
  put_table := fun _ => rfl
  rowAt := fun _ _ _ => rfl
  rowAt_ne := by
    rintro m t ⟨plan, id⟩ h
    cases plan with
    | free => exact absurd rfl h
    | trial => rfl
    | plus => rfl
  counted := fun _ _ _ => rfl
  counted_ne := by
    intro m t q h
    cases q with
    | free school => exact absurd rfl (h school)
    | trial school => rfl
    | plus school cycle => rfl
  limited := fun _ => rfl
  view_pool := fun _ _ => rfl
  name_inj := fun _ _ h => QuotaPool.free.inj h

theorem trialFacet : Facet .trial schoolPool trialSolveActionLimit .trial
    (fun id row => (.trial id.schoolId, row.requestedAtMs)) QuotaTables.solverTrialSolveUsage
    (fun m t => { t with solverTrialSolveUsage := m }) where
  put_table := fun _ => rfl
  rowAt := fun _ _ _ => rfl
  rowAt_ne := by
    rintro m t ⟨plan, id⟩ h
    cases plan with
    | free => rfl
    | trial => exact absurd rfl h
    | plus => rfl
  counted := fun _ _ _ => rfl
  counted_ne := by
    intro m t q h
    cases q with
    | free school => rfl
    | trial school => exact absurd rfl (h school)
    | plus school cycle => rfl
  limited := fun _ => rfl
  view_pool := fun _ _ => rfl
  name_inj := fun _ _ h => QuotaPool.trial.inj h

theorem plusFacet : Facet .plus cyclePool plusSolveActionLimit (fun p => .plus p.1 p.2)
    (fun id row => (.plus id.schoolId row.quotaCycleId, row.requestedAtMs))
    QuotaTables.solverPlusSolveUsage (fun m t => { t with solverPlusSolveUsage := m }) where
  put_table := fun _ => rfl
  rowAt := fun _ _ _ => rfl
  rowAt_ne := by
    rintro m t ⟨plan, id⟩ h
    cases plan with
    | free => rfl
    | trial => rfl
    | plus => exact absurd rfl h
  counted := fun _ _ _ => rfl
  counted_ne := by
    intro m t q h
    cases q with
    | free school => rfl
    | trial school => rfl
    | plus school cycle => exact absurd rfl (h (school, cycle))
  limited := fun _ => rfl
  view_pool := fun _ _ => rfl
  name_inj := by
    intro p p' h
    obtain ⟨hschool, hcycle⟩ := QuotaPool.plus.inj h
    exact Prod.ext hschool hcycle

/-! ### Claims and releases by plan -/

theorem immediateTransaction_ok {σ α : Type} {m : Moment} (hm : m.fault = none) (op : σ → α × σ)
    (s : σ) : immediateTransaction m op s = (.ok (op s).1, (op s).2) := by
  unfold immediateTransaction
  rw [hm]

theorem immediateTransaction_error {σ α : Type} {m : Moment} {error : String}
    (hm : m.fault = some error) (op : σ → α × σ) (s : σ) :
    immediateTransaction m op s = (.error error, s) := by
  unfold immediateTransaction
  rw [hm]

/-- The claim of a plan; `none` where the plan has no quota and no call is made. -/
def claimSolve (policy : SolverPlanPolicy) (schoolId accountId jobId : String) (m : Moment)
    (t : QuotaTables) : Option (Except String Admission) × QuotaTables :=
  match policy with
  | .free =>
    let (result, t') := claimFreeSolve schoolId accountId jobId m t
    (some result, t')
  | .trial =>
    let (result, t') := claimTrialSolve schoolId accountId jobId m t
    (some result, t')
  | .plus quotaCycleId =>
    let (result, t') := claimPlusSolve schoolId accountId quotaCycleId jobId m t
    (some result, t')
  | _ => (none, t)

def releaseSolve (policy : SolverPlanPolicy) (schoolId accountId jobId : String) (m : Moment)
    (t : QuotaTables) : Option (Except String Bool) × QuotaTables :=
  match policy with
  | .free =>
    let (result, t') := releaseFreeSolveClaim schoolId accountId jobId m t
    (some result, t')
  | .trial =>
    let (result, t') := releaseTrialSolveClaim schoolId accountId jobId m t
    (some result, t')
  | .plus quotaCycleId =>
    let (result, t') := releasePlusSolveClaim schoolId accountId quotaCycleId jobId m t
    (some result, t')
  | _ => (none, t)

section Calls
variable {policy : SolverPlanPolicy} {schoolId accountId jobId : String} {place : Place}
  {pool : QuotaPool} {m : Moment}

theorem target_plus {cycleId : String}
    (h : (SolverPlanPolicy.plus cycleId).target schoolId accountId jobId = some (place, pool)) :
    ∃ id cycle, identity? schoolId accountId jobId = some id ∧ cycle? cycleId = some cycle ∧
      place = ⟨.plus, id⟩ ∧ pool = .plus id.schoolId cycle := by
  unfold SolverPlanPolicy.target at h
  cases hid : identity? schoolId accountId jobId with
  | none => simp [hid] at h
  | some id =>
    cases hcycle : cycle? cycleId with
    | none => simp [hcycle] at h
    | some cycle =>
      simp only [hid, hcycle, Option.some.injEq, Prod.mk.injEq] at h
      exact ⟨id, cycle, rfl, rfl, h.1.symm, h.2.symm⟩

/-- A claim of a complete identity is answered. -/
theorem claimSolve_claims (h : policy.target schoolId accountId jobId = some (place, pool))
    (hm : m.fault = none) (t : QuotaTables) :
    ∃ answer, (claimSolve policy schoolId accountId jobId m t).1 = some (.ok answer) ∧
      Claims place pool t (claimSolve policy schoolId accountId jobId m t).2 answer := by
  cases policy with
  | free =>
    simp only [SolverPlanPolicy.target, Option.map_eq_some_iff, Prod.mk.injEq] at h
    obtain ⟨id, hid, rfl, rfl⟩ := h
    unfold claimSolve claimFreeSolve
    rw [hid]
    dsimp only
    rw [immediateTransaction_ok hm]
    exact ⟨_, rfl, freeFacet.claims t id ⟨sqliteMillis m.nowMs⟩⟩
  | trial =>
    simp only [SolverPlanPolicy.target, Option.map_eq_some_iff, Prod.mk.injEq] at h
    obtain ⟨id, hid, rfl, rfl⟩ := h
    unfold claimSolve claimTrialSolve
    rw [hid]
    dsimp only
    rw [immediateTransaction_ok hm]
    exact ⟨_, rfl, trialFacet.claims t id ⟨sqliteMillis m.nowMs⟩⟩
  | plus quotaCycleId =>
    obtain ⟨id, cycle, hid, hcycle, rfl, rfl⟩ := target_plus h
    unfold claimSolve claimPlusSolve
    dsimp only
    rw [hid, hcycle]
    dsimp only
    rw [immediateTransaction_ok hm]
    exact ⟨_, rfl, plusFacet.claims t id ⟨cycle, sqliteMillis m.nowMs⟩⟩
  | exempt => simp only [SolverPlanPolicy.target, reduceCtorEq] at h
  | max1 => simp only [SolverPlanPolicy.target, reduceCtorEq] at h
  | unknown => simp only [SolverPlanPolicy.target, reduceCtorEq] at h

theorem releaseSolve_releases (h : policy.target schoolId accountId jobId = some (place, pool))
    (hm : m.fault = none) (t : QuotaTables) :
    ∃ removed, (releaseSolve policy schoolId accountId jobId m t).1 = some (.ok removed) ∧
      Releases place pool t (releaseSolve policy schoolId accountId jobId m t).2 removed := by
  cases policy with
  | free =>
    simp only [SolverPlanPolicy.target, Option.map_eq_some_iff, Prod.mk.injEq] at h
    obtain ⟨id, hid, rfl, rfl⟩ := h
    unfold releaseSolve releaseFreeSolveClaim
    rw [hid]
    dsimp only
    rw [immediateTransaction_ok hm]
    exact ⟨_, rfl, freeFacet.releases t id (fun _ => true) id.schoolId fun v => ⟨fun _ => rfl, fun _ => rfl⟩⟩
  | trial =>
    simp only [SolverPlanPolicy.target, Option.map_eq_some_iff, Prod.mk.injEq] at h
    obtain ⟨id, hid, rfl, rfl⟩ := h
    unfold releaseSolve releaseTrialSolveClaim
    rw [hid]
    dsimp only
    rw [immediateTransaction_ok hm]
    exact ⟨_, rfl, trialFacet.releases t id (fun _ => true) id.schoolId fun v => ⟨fun _ => rfl, fun _ => rfl⟩⟩
  | plus quotaCycleId =>
    obtain ⟨id, cycle, hid, hcycle, rfl, rfl⟩ := target_plus h
    unfold releaseSolve releasePlusSolveClaim
    dsimp only
    rw [hid, hcycle]
    dsimp only
    rw [immediateTransaction_ok hm]
    have hown (row : PlusSolveUsage) :
        decide (row.quotaCycleId = cycle) = true ↔ cyclePool id row = (id.schoolId, cycle) := by
      simp [cyclePool]
    exact ⟨_, rfl, plusFacet.releases t id _ (id.schoolId, cycle) hown⟩
  | exempt => simp only [SolverPlanPolicy.target, reduceCtorEq] at h
  | max1 => simp only [SolverPlanPolicy.target, reduceCtorEq] at h
  | unknown => simp only [SolverPlanPolicy.target, reduceCtorEq] at h

/-- A call with an incomplete identity, or whose transaction fails, does nothing. -/
theorem claimSolve_idle {t : QuotaTables}
    (h : policy.target schoolId accountId jobId = none ∨ m.fault ≠ none) :
    (∀ answer, (claimSolve policy schoolId accountId jobId m t).1 ≠ some (.ok answer)) ∧
      (claimSolve policy schoolId accountId jobId m t).2 = t := by
  cases policy with
  | free =>
    unfold claimSolve claimFreeSolve
    cases hid : identity? schoolId accountId jobId with
    | none => exact ⟨fun _ he => absurd he (by simp), rfl⟩
    | some id =>
      obtain ⟨error, he⟩ := Option.ne_none_iff_exists'.mp
        (h.resolve_left (by simp [SolverPlanPolicy.target, hid]))
      dsimp only
      rw [immediateTransaction_error he]
      exact ⟨fun _ he => absurd he (by simp), rfl⟩
  | trial =>
    unfold claimSolve claimTrialSolve
    cases hid : identity? schoolId accountId jobId with
    | none => exact ⟨fun _ he => absurd he (by simp), rfl⟩
    | some id =>
      obtain ⟨error, he⟩ := Option.ne_none_iff_exists'.mp
        (h.resolve_left (by simp [SolverPlanPolicy.target, hid]))
      dsimp only
      rw [immediateTransaction_error he]
      exact ⟨fun _ he => absurd he (by simp), rfl⟩
  | plus quotaCycleId =>
    unfold claimSolve claimPlusSolve
    dsimp only
    cases hid : identity? schoolId accountId jobId with
    | none => exact ⟨fun _ he => absurd he (by simp), rfl⟩
    | some id =>
      cases hcycle : cycle? quotaCycleId with
      | none => exact ⟨fun _ he => absurd he (by simp), rfl⟩
      | some cycle =>
        obtain ⟨error, he⟩ := Option.ne_none_iff_exists'.mp
          (h.resolve_left (by simp [SolverPlanPolicy.target, hid, hcycle]))
        dsimp only
        rw [immediateTransaction_error he]
        exact ⟨fun _ he => absurd he (by simp), rfl⟩
  | exempt => exact ⟨fun _ he => absurd he (by simp [claimSolve]), rfl⟩
  | max1 => exact ⟨fun _ he => absurd he (by simp [claimSolve]), rfl⟩
  | unknown => exact ⟨fun _ he => absurd he (by simp [claimSolve]), rfl⟩

theorem releaseSolve_idle {t : QuotaTables}
    (h : policy.target schoolId accountId jobId = none ∨ m.fault ≠ none) :
    (releaseSolve policy schoolId accountId jobId m t).2 = t := by
  cases policy with
  | free =>
    unfold releaseSolve releaseFreeSolveClaim
    cases hid : identity? schoolId accountId jobId with
    | none => rfl
    | some id =>
      obtain ⟨error, he⟩ := Option.ne_none_iff_exists'.mp
        (h.resolve_left (by simp [SolverPlanPolicy.target, hid]))
      dsimp only
      rw [immediateTransaction_error he]
  | trial =>
    unfold releaseSolve releaseTrialSolveClaim
    cases hid : identity? schoolId accountId jobId with
    | none => rfl
    | some id =>
      obtain ⟨error, he⟩ := Option.ne_none_iff_exists'.mp
        (h.resolve_left (by simp [SolverPlanPolicy.target, hid]))
      dsimp only
      rw [immediateTransaction_error he]
  | plus quotaCycleId =>
    unfold releaseSolve releasePlusSolveClaim
    dsimp only
    cases hid : identity? schoolId accountId jobId with
    | none => rfl
    | some id =>
      cases hcycle : cycle? quotaCycleId with
      | none => rfl
      | some cycle =>
        obtain ⟨error, he⟩ := Option.ne_none_iff_exists'.mp
          (h.resolve_left (by simp [SolverPlanPolicy.target, hid, hcycle]))
        dsimp only
        rw [immediateTransaction_error he]
  | exempt => rfl
  | max1 => rfl
  | unknown => rfl

/-- Claiming again at once is answered with the same use. -/
theorem claimSolve_again {t t' : QuotaTables} {answer : Admission}
    (h : policy.target schoolId accountId jobId = some (place, pool))
    (hc : Claims place pool t t' answer) (hcounted : ∀ n, answer ≠ .exhausted n)
    (hm : m.fault = none) :
    claimSolve policy schoolId accountId jobId m t' = (some (.ok (.existing answer.used)), t') := by
  have hstored : (t'.rowAt place).isSome := by
    cases answer with
    | claimed n =>
      obtain ⟨_, atMs, hrow⟩ := hc.fresh n rfl
      rw [hrow]
      rfl
    | existing n =>
      obtain ⟨_, hsame⟩ := hc.stored (hc.known n rfl)
      rw [hsame]
      exact hc.known n rfl
    | exhausted n => exact absurd rfl (hcounted n)
  obtain ⟨again, hanswer, hc'⟩ := claimSolve_claims h hm t'
  obtain ⟨hexisting, hsame⟩ := hc'.stored hstored
  rw [hexisting, ← hc.reported] at hanswer
  exact Prod.ext hanswer hsame

end Calls

/-! ### Runs of calls -/

inductive QuotaCall where
  | claim (policy : SolverPlanPolicy) (schoolId accountId jobId : String) (m : Moment)
  | release (policy : SolverPlanPolicy) (schoolId accountId jobId : String) (m : Moment)

def QuotaCall.perform (t : QuotaTables) : QuotaCall → QuotaTables
  | .claim policy schoolId accountId jobId m => (claimSolve policy schoolId accountId jobId m t).2
  | .release policy schoolId accountId jobId m =>
    (releaseSolve policy schoolId accountId jobId m t).2

/-- The tables after the calls, oldest first. -/
def runCalls (calls : List QuotaCall) : QuotaTables := calls.foldl QuotaCall.perform .empty

/-- What the next call does to the tables and answers. -/
def QuotaCall.Sound (t : QuotaTables) : QuotaCall → Prop
  | .claim policy schoolId accountId jobId m =>
    match policy.target schoolId accountId jobId, m.fault with
    | some (place, pool), none =>
      let (reply, t') := claimSolve policy schoolId accountId jobId m t
      ∃ answer, reply = some (.ok answer) ∧ Claims place pool t t' answer ∧
        ((∀ n, answer ≠ .exhausted n) → ∀ m' : Moment, m'.fault = none →
          claimSolve policy schoolId accountId jobId m' t' =
            (some (.ok (.existing answer.used)), t'))
    | _, _ =>
      let (reply, t') := claimSolve policy schoolId accountId jobId m t
      (∀ answer, reply ≠ some (.ok answer)) ∧ t' = t
  | .release policy schoolId accountId jobId m =>
    match policy.target schoolId accountId jobId, m.fault with
    | some (place, pool), none =>
      let (reply, t') := releaseSolve policy schoolId accountId jobId m t
      ∃ removed, reply = some (.ok removed) ∧ Releases place pool t t' removed
    | _, _ => (releaseSolve policy schoolId accountId jobId m t).2 = t

theorem QuotaCall.sound (t : QuotaTables) (call : QuotaCall) : call.Sound t := by
  cases call with
  | claim policy schoolId accountId jobId m =>
    unfold QuotaCall.Sound
    dsimp only
    split
    · rename_i place pool htarget hfault
      obtain ⟨answer, hanswer, hc⟩ := claimSolve_claims htarget hfault t
      exact ⟨answer, hanswer, hc, fun hcounted _ hm => claimSolve_again htarget hc hcounted hm⟩
    · rename_i hnot
      apply claimSolve_idle
      cases htarget : policy.target schoolId accountId jobId with
      | none => exact Or.inl rfl
      | some target =>
        refine Or.inr fun hfault => ?_
        exact hnot target.1 target.2 htarget hfault
  | release policy schoolId accountId jobId m =>
    unfold QuotaCall.Sound
    dsimp only
    split
    · rename_i place pool htarget hfault
      exact releaseSolve_releases htarget hfault t
    · rename_i hnot
      apply releaseSolve_idle
      cases htarget : policy.target schoolId accountId jobId with
      | none => exact Or.inl rfl
      | some target =>
        refine Or.inr fun hfault => ?_
        exact hnot target.1 target.2 htarget hfault

theorem QuotaCall.perform_within {t : QuotaTables} (ht : t.WithinLimits) (call : QuotaCall) :
    (call.perform t).WithinLimits := by
  have hsound := call.sound t
  cases call with
  | claim policy schoolId accountId jobId m =>
    unfold QuotaCall.Sound at hsound
    change (claimSolve policy schoolId accountId jobId m t).2.WithinLimits
    dsimp only at hsound
    split at hsound
    · obtain ⟨_, _, hc, _⟩ := hsound
      exact hc.within ht
    · rw [hsound.2]
      exact ht
  | release policy schoolId accountId jobId m =>
    unfold QuotaCall.Sound at hsound
    change (releaseSolve policy schoolId accountId jobId m t).2.WithinLimits
    dsimp only at hsound
    split at hsound
    · obtain ⟨_, _, hr⟩ := hsound
      exact hr.within ht
    · rw [hsound]
      exact ht

theorem empty_within : QuotaTables.empty.WithinLimits := by
  intro pool
  cases pool with
  | free school => exact Nat.zero_le _
  | trial school => exact Nat.zero_le _
  | plus school cycle => exact Nat.zero_le _

theorem runCalls_within (calls : List QuotaCall) : (runCalls calls).WithinLimits := by
  unfold runCalls
  induction calls using List.reverseRecOn with
  | nil => exact empty_within
  | append_singleton calls call ih =>
    rw [List.foldl_append]
    exact call.perform_within ih

/-! ### Runs of requests -/

structure QuotaWorld where
  tables : QuotaTables
  guards : Entries Nat SolvePlanClaimGuard
  /-- The number of the next request. -/
  next : Nat
  inserter : Place → Option Nat

def QuotaWorld.start : QuotaWorld := ⟨.empty, ∅, 0, fun _ => none⟩

inductive QuotaEvent where
  | claim (owner : SolverOwner) (jobId : String) (policy : SolverPlanPolicy) (m : Moment)
  | accept (request : Nat)
  | drop (request : Nat) (m : Moment)

def SolvePlanClaimGuard.target (g : SolvePlanClaimGuard) : Option (Place × QuotaPool) :=
  g.policy.target g.owner.schoolId g.owner.loginId g.jobId

namespace QuotaWorld

/-- A request of a metered plan claims its unit and, if that is granted, holds a guard. -/
def claim (w : QuotaWorld) (owner : SolverOwner) (jobId : String) (policy : SolverPlanPolicy)
    (m : Moment) : QuotaWorld :=
  if policy.metered then
    match claimPlanSolve owner jobId policy m w.tables with
    | (.ok (), t') =>
      let g : SolvePlanClaimGuard := ⟨owner, jobId, policy, false⟩
      { tables := t'
        guards := w.guards.insert w.next g
        next := w.next + 1
        inserter := match g.target with
          | some (place, _) => Function.update w.inserter place (some w.next)
          | none => w.inserter }
    | (.error _, t') => { w with tables := t' }
  else w

def step (w : QuotaWorld) : QuotaEvent → QuotaWorld
  | .claim owner jobId policy m => w.claim owner jobId policy m
  | .accept request =>
    { w with guards := modify request (fun g => { g with accepted := true }) w.guards }
  | .drop request m =>
    match w.guards.lookup request with
    | none => w
    | some g => { w with tables := g.drop m w.tables, guards := w.guards.erase request }

def run (events : List QuotaEvent) : QuotaWorld := events.foldl step start

/-- Every guard's row is stored, and by its own request. -/
def Owned (w : QuotaWorld) : Prop :=
  ∀ request g, w.guards.lookup request = some g → ∃ place pool atMs,
    g.target = some (place, pool) ∧ w.tables.rowAt place = some (pool, atMs) ∧
      w.inserter place = some request

end QuotaWorld

theorem claimPlanSolve_tables (owner : SolverOwner) (jobId : String) (policy : SolverPlanPolicy)
    (m : Moment) (t : QuotaTables) : (claimPlanSolve owner jobId policy m t).2 =
      (claimSolve policy owner.schoolId owner.loginId jobId m t).2 := by
  cases policy with
  | exempt => rfl
  | free => rfl
  | trial => rfl
  | plus quotaCycleId => rfl
  | max1 => rfl
  | unknown => rfl

theorem claimAnswer_ok {plan exhausted unavailable : String} {limit : Nat}
    {result : Except String Admission}
    (h : claimAnswer plan limit exhausted unavailable result = .ok ()) :
    ∃ n, result = .ok (.claimed n) := by
  match result, h with
  | .ok (.claimed n), _ => exact ⟨n, rfl⟩

/-- A request of a metered plan goes on only with a unit newly counted. -/
theorem claimPlanSolve_ok {owner : SolverOwner} {jobId : String} {policy : SolverPlanPolicy}
    {m : Moment} {t : QuotaTables} (hmetered : policy.metered = true)
    (h : (claimPlanSolve owner jobId policy m t).1 = .ok ()) :
    ∃ n, (claimSolve policy owner.schoolId owner.loginId jobId m t).1 = some (.ok (.claimed n)) := by
  cases policy with
  | free =>
    obtain ⟨n, hn⟩ := claimAnswer_ok h
    exact ⟨n, congrArg some hn⟩
  | trial =>
    obtain ⟨n, hn⟩ := claimAnswer_ok h
    exact ⟨n, congrArg some hn⟩
  | plus quotaCycleId =>
    obtain ⟨n, hn⟩ := claimAnswer_ok h
    exact ⟨n, congrArg some hn⟩
  | exempt => exact absurd hmetered (by simp [SolverPlanPolicy.metered])
  | max1 => exact absurd hmetered (by simp [SolverPlanPolicy.metered])
  | unknown => exact absurd hmetered (by simp [SolverPlanPolicy.metered])

theorem SolvePlanClaimGuard.drop_eq (g : SolvePlanClaimGuard) (m : Moment) (t : QuotaTables) :
    g.drop m t = if g.accepted then t else
      (releaseSolve g.policy g.owner.schoolId g.owner.loginId g.jobId m t).2 := by
  unfold SolvePlanClaimGuard.drop
  cases g.policy with
  | exempt => rfl
  | free => rfl
  | trial => rfl
  | plus quotaCycleId => rfl
  | max1 => rfl
  | unknown => rfl

/-- A claim never removes or changes a row. -/
theorem Claims.keeps {place : Place} {pool : QuotaPool} {t t' : QuotaTables} {answer : Admission}
    (hc : Claims place pool t t' answer) {q : Place} {row : QuotaPool × Nat}
    (h : t.rowAt q = some row) : t'.rowAt q = some row := by
  by_cases hq : q = place
  · subst hq
    obtain ⟨_, hsame⟩ := hc.stored (by rw [h]; rfl)
    rwa [hsame]
  · rwa [hc.others q hq]

section Answered
variable {policy : SolverPlanPolicy} {schoolId accountId jobId : String} {m : Moment}
  {t : QuotaTables}

/-- A claim is answered only for a complete identity and by a served transaction. -/
theorem claimSolve_answered {answer : Admission}
    (h : (claimSolve policy schoolId accountId jobId m t).1 = some (.ok answer)) :
    ∃ place pool, policy.target schoolId accountId jobId = some (place, pool) ∧
      Claims place pool t (claimSolve policy schoolId accountId jobId m t).2 answer := by
  by_cases hidle : policy.target schoolId accountId jobId = none ∨ m.fault ≠ none
  · exact absurd h ((claimSolve_idle hidle).1 answer)
  · obtain ⟨htarget, hfault⟩ := not_or.mp hidle
    obtain ⟨⟨place, pool⟩, htarget⟩ := Option.ne_none_iff_exists'.mp htarget
    obtain ⟨other, hother, hc⟩ := claimSolve_claims htarget (not_not.mp hfault) t
    rw [h] at hother
    cases hother
    exact ⟨place, pool, htarget, hc⟩

theorem claimSolve_keeps {q : Place} {row : QuotaPool × Nat} (h : t.rowAt q = some row) :
    (claimSolve policy schoolId accountId jobId m t).2.rowAt q = some row := by
  by_cases hidle : policy.target schoolId accountId jobId = none ∨ m.fault ≠ none
  · rw [(claimSolve_idle hidle).2, h]
  · obtain ⟨htarget, hfault⟩ := not_or.mp hidle
    obtain ⟨⟨place, pool⟩, htarget⟩ := Option.ne_none_iff_exists'.mp htarget
    obtain ⟨_, _, hc⟩ := claimSolve_claims htarget (not_not.mp hfault) t
    exact hc.keeps h

/-- A release touches no row but the one it names, and that one only if it is in the pool it
names. -/
theorem releaseSolve_changed {q : Place}
    (h : (releaseSolve policy schoolId accountId jobId m t).2.rowAt q ≠ t.rowAt q) :
    ∃ pool atMs, policy.target schoolId accountId jobId = some (q, pool) ∧
      t.rowAt q = some (pool, atMs) ∧
      (releaseSolve policy schoolId accountId jobId m t).2.rowAt q = none := by
  by_cases hidle : policy.target schoolId accountId jobId = none ∨ m.fault ≠ none
  · rw [releaseSolve_idle hidle] at h
    exact absurd rfl h
  · obtain ⟨htarget, hfault⟩ := not_or.mp hidle
    obtain ⟨⟨place, pool⟩, htarget⟩ := Option.ne_none_iff_exists'.mp htarget
    obtain ⟨removed, _, hr⟩ := releaseSolve_releases htarget (not_not.mp hfault) t
    have hq : q = place := by
      by_contra hne
      exact h (hr.others q hne)
    subst hq
    cases removed with
    | false =>
      rw [hr.kept rfl] at h
      exact absurd rfl h
    | true =>
      obtain ⟨atMs, hrow⟩ := hr.own.mp rfl
      exact ⟨pool, atMs, htarget, hrow, hr.gone rfl⟩

end Answered

namespace QuotaWorld

/-- What a request's claim does: it goes through and holds a row that was free, or no row and
no guard changes. -/
theorem claim_cases (w : QuotaWorld) (owner : SolverOwner) (jobId : String)
    (policy : SolverPlanPolicy) (m : Moment) :
    let g : SolvePlanClaimGuard := ⟨owner, jobId, policy, false⟩
    let w' := w.claim owner jobId policy m
    w'.tables = (claimSolve policy owner.schoolId owner.loginId jobId m w.tables).2 ∧
    ((∃ place pool atMs, g.target = some (place, pool) ∧ w.tables.rowAt place = none ∧
        w'.tables.rowAt place = some (pool, atMs) ∧ w'.guards = w.guards.insert w.next g ∧
        w'.inserter = Function.update w.inserter place (some w.next)) ∨
      (w'.guards = w.guards ∧ w'.inserter = w.inserter)) := by
  intro g w'
  cases hmetered : policy.metered with
  | false =>
    have hw : w' = w := by simp [w', claim, hmetered]
    rw [hw]
    refine ⟨?_, Or.inr ⟨rfl, rfl⟩⟩
    cases policy with
    | exempt => rfl
    | max1 => rfl
    | unknown => rfl
    | free => exact absurd hmetered (by simp [SolverPlanPolicy.metered])
    | trial => exact absurd hmetered (by simp [SolverPlanPolicy.metered])
    | plus cycle => exact absurd hmetered (by simp [SolverPlanPolicy.metered])
  | true =>
    rw [← claimPlanSolve_tables]
    cases hresult : claimPlanSolve owner jobId policy m w.tables with
    | mk result t' =>
      cases result with
      | error answer =>
        have hw : w' = { w with tables := t' } := by simp [w', claim, hmetered, hresult]
        rw [hw]
        exact ⟨rfl, Or.inr ⟨rfl, rfl⟩⟩
      | ok _ =>
        obtain ⟨n, hn⟩ := claimPlanSolve_ok (m := m) (t := w.tables) hmetered
          (congrArg Prod.fst hresult)
        obtain ⟨place, pool, htarget, hc⟩ := claimSolve_answered hn
        obtain ⟨hnone, atMs, hrow⟩ := hc.fresh n rfl
        rw [← claimPlanSolve_tables, hresult] at hrow
        have hg : g.target = some (place, pool) := htarget
        have hw : w' = ⟨t', w.guards.insert w.next g, w.next + 1,
            Function.update w.inserter place (some w.next)⟩ := by
          simp [w', claim, hmetered, hresult, g, hg]
        rw [hw]
        exact ⟨rfl, Or.inl ⟨place, pool, atMs, hg, hnone, hrow, rfl, rfl⟩⟩

theorem start_owned : start.Owned := by
  intro request g h
  exact absurd h (by simp [start])

theorem claim_owned {w : QuotaWorld} (hw : w.Owned) (owner : SolverOwner) (jobId : String)
    (policy : SolverPlanPolicy) (m : Moment) : (w.claim owner jobId policy m).Owned := by
  obtain ⟨htables, hcase⟩ := w.claim_cases owner jobId policy m
  intro request g hlookup
  have hkeep : ∀ {q row}, w.tables.rowAt q = some row →
      (w.claim owner jobId policy m).tables.rowAt q = some row := by
    intro q row hrow
    rw [htables]
    exact claimSolve_keeps hrow
  rcases hcase with ⟨place, pool, atMs, htarget, hnone, hrow, hguards, hins⟩ | ⟨hguards, hins⟩
  · rw [hguards] at hlookup
    rw [hins]
    by_cases hr : request = w.next
    · subst hr
      rw [AList.lookup_insert] at hlookup
      cases hlookup
      exact ⟨place, pool, atMs, htarget, hrow, Function.update_self ..⟩
    · rw [AList.lookup_insert_ne hr] at hlookup
      obtain ⟨q, qpool, qms, hqt, hq, hqi⟩ := hw request g hlookup
      have hne : q ≠ place := by
        intro he
        rw [he, hnone] at hq
        exact absurd hq (by simp)
      exact ⟨q, qpool, qms, hqt, hkeep hq, by rw [Function.update_of_ne hne, hqi]⟩
  · rw [hguards] at hlookup
    obtain ⟨q, qpool, qms, hqt, hq, hqi⟩ := hw request g hlookup
    exact ⟨q, qpool, qms, hqt, hkeep hq, by rw [hins, hqi]⟩

theorem step_drop_none {w : QuotaWorld} {request : Nat} (hl : w.guards.lookup request = none)
    (m : Moment) : w.step (.drop request m) = w := by
  simp only [step, hl]

theorem step_drop {w : QuotaWorld} {request : Nat} {g : SolvePlanClaimGuard}
    (hl : w.guards.lookup request = some g) (m : Moment) : w.step (.drop request m) =
      { w with tables := g.drop m w.tables, guards := w.guards.erase request } := by
  simp only [step, hl]

/-- A guard that leaves removes nothing but the row its own request stored. -/
theorem drop_changed {w : QuotaWorld} (hw : w.Owned) {request : Nat} {m : Moment} {q : Place}
    (h : (w.step (.drop request m)).tables.rowAt q ≠ w.tables.rowAt q) :
    w.inserter q = some request ∧ (w.step (.drop request m)).tables.rowAt q = none ∧
      ∃ g, w.guards.lookup request = some g ∧ g.accepted = false := by
  cases hl : w.guards.lookup request with
  | none =>
    rw [step_drop_none hl] at h
    exact absurd rfl h
  | some g =>
    rw [step_drop hl] at h ⊢
    dsimp only at h ⊢
    rw [g.drop_eq] at h ⊢
    cases hacc : g.accepted with
    | true =>
      rw [hacc, if_pos rfl] at h
      exact absurd rfl h
    | false =>
      rw [hacc, if_neg (by simp)] at h
      rw [if_neg (by simp)]
      obtain ⟨pool, atMs, htarget, _, hgone⟩ := releaseSolve_changed h
      obtain ⟨place, _, _, hplace, _, hins⟩ := hw request g hl
      have htarget' : g.target = some (q, pool) := htarget
      rw [htarget'] at hplace
      cases hplace
      exact ⟨hins, hgone, g, rfl, hacc⟩

theorem step_owned {w : QuotaWorld} (hw : w.Owned) (e : QuotaEvent) : (w.step e).Owned := by
  cases e with
  | claim owner jobId policy m => exact claim_owned hw owner jobId policy m
  | accept accepted =>
    intro request g hlookup
    have hlookup' : (modify accepted (fun g : SolvePlanClaimGuard => { g with accepted := true })
        w.guards).lookup request = some g := hlookup
    by_cases hr : request = accepted
    · subst hr
      rw [lookup_modify_self] at hlookup'
      obtain ⟨g', hg', rfl⟩ := Option.map_eq_some_iff.mp hlookup'
      exact hw request g' hg'
    · rw [lookup_modify_ne hr] at hlookup'
      exact hw request g hlookup'
  | drop dropped m =>
    have hchanged : ∀ q, (w.step (.drop dropped m)).tables.rowAt q ≠ w.tables.rowAt q →
        w.inserter q = some dropped := fun q h => (drop_changed hw h).1
    intro request g hlookup
    cases hl : w.guards.lookup dropped with
    | none =>
      rw [step_drop_none hl] at hlookup ⊢
      exact hw request g hlookup
    | some g' =>
      have hguards : (w.step (.drop dropped m)).guards = w.guards.erase dropped := by
        rw [step_drop hl]
      have hins : (w.step (.drop dropped m)).inserter = w.inserter := by rw [step_drop hl]
      rw [hguards] at hlookup
      have hne : request ≠ dropped := by
        intro he
        rw [he, AList.lookup_erase] at hlookup
        exact absurd hlookup (by simp)
      rw [AList.lookup_erase_ne hne] at hlookup
      obtain ⟨q, pool, atMs, htarget, hrow, hqi⟩ := hw request g hlookup
      have hkept : (w.step (.drop dropped m)).tables.rowAt q = w.tables.rowAt q := by
        by_contra hq
        have howner := hchanged q hq
        rw [hqi] at howner
        exact hne (Option.some.inj howner)
      exact ⟨q, pool, atMs, htarget, by rw [hkept, hrow], by rw [hins, hqi]⟩

theorem run_owned (events : List QuotaEvent) : (run events).Owned := by
  unfold run
  induction events using List.reverseRecOn with
  | nil => exact start_owned
  | append_singleton events e ih =>
    rw [List.foldl_append]
    exact step_owned ih e

/-- The requests do nothing to the tables but make calls. -/
theorem run_calls (events : List QuotaEvent) : ∃ calls, (run events).tables = runCalls calls := by
  unfold run
  induction events using List.reverseRecOn with
  | nil => exact ⟨[], rfl⟩
  | append_singleton events e ih =>
    obtain ⟨calls, hcalls⟩ := ih
    rw [List.foldl_append, List.foldl_cons, List.foldl_nil]
    have hmake : ∀ call : QuotaCall, ∃ calls',
        call.perform (events.foldl step start).tables = runCalls calls' := by
      intro call
      refine ⟨calls ++ [call], ?_⟩
      unfold runCalls at hcalls ⊢
      rw [List.foldl_append, ← hcalls]
      rfl
    generalize events.foldl step start = w at hcalls hmake ⊢
    cases e with
    | claim owner jobId policy m =>
      obtain ⟨htables, _⟩ := w.claim_cases owner jobId policy m
      obtain ⟨calls', h⟩ := hmake (.claim policy owner.schoolId owner.loginId jobId m)
      exact ⟨calls', htables.trans h⟩
    | accept accepted => exact ⟨calls, hcalls⟩
    | drop dropped m =>
      cases hl : w.guards.lookup dropped with
      | none =>
        rw [step_drop_none hl]
        exact ⟨calls, hcalls⟩
      | some g =>
        rw [step_drop hl]
        dsimp only
        rw [g.drop_eq]
        split
        · exact ⟨calls, hcalls⟩
        · exact hmake (.release g.policy g.owner.schoolId g.owner.loginId g.jobId m)

end QuotaWorld

/-- After every run of claims and releases the limits hold and the next call answers truly: a
claim reports the rows its pool then holds, a counted job costs nothing more and is reported
with the same use, and a release touches only the row of its caller. In every run of requests
that hold guards, a guard removes no row but the one its own request stored. -/
theorem solve_quota :
    (∀ calls : List QuotaCall, (runCalls calls).WithinLimits ∧
      ∀ call : QuotaCall, call.Sound (runCalls calls)) ∧
    (∀ events : List QuotaEvent,
      let w := QuotaWorld.run events
      (∃ calls, w.tables = runCalls calls) ∧ ∀ request m place,
        (w.step (.drop request m)).tables.rowAt place ≠ w.tables.rowAt place →
        w.inserter place = some request ∧
          (w.step (.drop request m)).tables.rowAt place = none) := by
  refine ⟨fun calls => ⟨runCalls_within calls, fun call => call.sound _⟩, fun events => ?_⟩
  refine ⟨QuotaWorld.run_calls events, fun request m place h => ?_⟩
  obtain ⟨hins, hgone, _⟩ := QuotaWorld.drop_changed (QuotaWorld.run_owned events) h
  exact ⟨hins, hgone⟩

end TkbCherry.Serverless
