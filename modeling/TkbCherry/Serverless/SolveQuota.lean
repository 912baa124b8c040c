import TkbCherry.Lib.Quota
import TkbCherry.Lib.Text
import TkbCherry.Pool.Model
import TkbCherry.Registry.Accounts

/-!
# Solve quotas

The quota calls of `ServerlessCoordinator`, one immediate transaction each, and above them
`claim_plan_solve` with its guard. A call carries the clock it reads and the error of its
transaction, if the storage fails; a failed transaction changes nothing. Only the rows written
here are counted, so a count fits its machine word.
-/

namespace TkbCherry.Serverless

set_option autoImplicit false

open Table Text Quota

def freeSolveActionLimit : Nat := 5
def trialSolveActionLimit : Nat := 50
def plusSolveActionLimit : Nat := 100

def sqliteMillis (value : UInt64) : Nat := min value.toNat (2 ^ 63 - 1)

/-- `chars().take(n).collect()`. -/
def takeChars (n : Nat) (s : String) : String := String.ofList (s.toList.take n)

def normalizedOwnerPart (value : String) : String := takeChars 160 (toAsciiLowercase (trim value))

def normalizedJobId (value : String) : String := takeChars 160 (trim value)

/-! ### The tables -/

/-- The primary key of each of the three tables. -/
structure Identity where
  schoolId : String
  accountId : String
  jobId : String
deriving DecidableEq, Repr

structure SolveUsage where
  requestedAtMs : Nat
deriving DecidableEq, Repr

structure PlusSolveUsage where
  quotaCycleId : String
  requestedAtMs : Nat
deriving DecidableEq, Repr

structure QuotaTables where
  solverFreeSolveUsage : Entries Identity SolveUsage
  solverTrialSolveUsage : Entries Identity SolveUsage
  solverPlusSolveUsage : Entries Identity PlusSolveUsage

def QuotaTables.empty : QuotaTables := ⟨∅, ∅, ∅⟩

/-- The rows a free or trial limit counts together. -/
def schoolPool (id : Identity) (_ : SolveUsage) : String := id.schoolId

/-- The rows the plus limit counts together. -/
def cyclePool (id : Identity) (row : PlusSolveUsage) : String × String :=
  (id.schoolId, row.quotaCycleId)

/-- What a transaction gets from outside. -/
structure Moment where
  nowMs : UInt64
  fault : Option String

/-- `with_immediate_transaction`: all of the operation, or an error and no change. -/
def immediateTransaction {σ α : Type} (m : Moment) (op : σ → α × σ) (s : σ) :
    Except String α × σ :=
  match m.fault with
  | some error => (.error error, s)
  | none => (.ok (op s).1, (op s).2)

/-! ### The calls of the coordinator -/

/-- The identity a caller's texts stand for; `none` when a part of it is missing. -/
@[irreducible] def identity? (schoolId accountId jobId : String) : Option Identity :=
  let id : Identity :=
    ⟨normalizedOwnerPart schoolId, normalizedOwnerPart accountId, normalizedJobId jobId⟩
  if id.schoolId = "" ∨ id.accountId = "" ∨ id.jobId = "" then none else some id

@[irreducible] def cycle? (quotaCycleId : String) : Option String :=
  let cycle := normalizedOwnerPart quotaCycleId
  if cycle = "" then none else some cycle

def claimFreeSolve (schoolId accountId jobId : String) (m : Moment) (t : QuotaTables) :
    Except String Admission × QuotaTables :=
  match identity? schoolId accountId jobId with
  | none => (.error "free_solve_identity_required", t)
  | some id =>
    let (answer, rows) := immediateTransaction m
      (claim schoolPool freeSolveActionLimit id ⟨sqliteMillis m.nowMs⟩) t.solverFreeSolveUsage
    (answer, { t with solverFreeSolveUsage := rows })

def releaseFreeSolveClaim (schoolId accountId jobId : String) (m : Moment) (t : QuotaTables) :
    Except String Bool × QuotaTables :=
  match identity? schoolId accountId jobId with
  | none => (.error "free_solve_identity_required", t)
  | some id =>
    let (answer, rows) := immediateTransaction m (release (fun _ => true) id) t.solverFreeSolveUsage
    (answer, { t with solverFreeSolveUsage := rows })

def claimTrialSolve (schoolId accountId jobId : String) (m : Moment) (t : QuotaTables) :
    Except String Admission × QuotaTables :=
  match identity? schoolId accountId jobId with
  | none => (.error "trial_solve_identity_required", t)
  | some id =>
    let (answer, rows) := immediateTransaction m
      (claim schoolPool trialSolveActionLimit id ⟨sqliteMillis m.nowMs⟩) t.solverTrialSolveUsage
    (answer, { t with solverTrialSolveUsage := rows })

def releaseTrialSolveClaim (schoolId accountId jobId : String) (m : Moment) (t : QuotaTables) :
    Except String Bool × QuotaTables :=
  match identity? schoolId accountId jobId with
  | none => (.error "trial_solve_identity_required", t)
  | some id =>
    let (answer, rows) := immediateTransaction m (release (fun _ => true) id) t.solverTrialSolveUsage
    (answer, { t with solverTrialSolveUsage := rows })

def claimPlusSolve (schoolId accountId quotaCycleId jobId : String) (m : Moment) (t : QuotaTables) :
    Except String Admission × QuotaTables :=
  match identity? schoolId accountId jobId, cycle? quotaCycleId with
  | some id, some cycle =>
    let (answer, rows) := immediateTransaction m
      (claim cyclePool plusSolveActionLimit id ⟨cycle, sqliteMillis m.nowMs⟩) t.solverPlusSolveUsage
    (answer, { t with solverPlusSolveUsage := rows })
  | _, _ => (.error "plus_solve_identity_required", t)

/-- The statement also matches the billing cycle of the row. -/
def releasePlusSolveClaim (schoolId accountId quotaCycleId jobId : String) (m : Moment)
    (t : QuotaTables) : Except String Bool × QuotaTables :=
  match identity? schoolId accountId jobId, cycle? quotaCycleId with
  | some id, some cycle =>
    let (answer, rows) := immediateTransaction m
      (release (fun row => decide (row.quotaCycleId = cycle)) id) t.solverPlusSolveUsage
    (answer, { t with solverPlusSolveUsage := rows })
  | _, _ => (.error "plus_solve_identity_required", t)

/-! ### The three plans as one table -/

inductive Plan where
  | free
  | trial
  | plus
deriving DecidableEq, Repr

/-- A row of one of the tables, by its key. -/
structure Place where
  plan : Plan
  id : Identity
deriving DecidableEq

/-- The rows that one limit counts together; only the plus plan has cycles. -/
inductive QuotaPool where
  | free (schoolId : String)
  | trial (schoolId : String)
  | plus (schoolId quotaCycleId : String)
deriving DecidableEq

def QuotaPool.limit : QuotaPool → Nat
  | .free _ => freeSolveActionLimit
  | .trial _ => trialSolveActionLimit
  | .plus _ _ => plusSolveActionLimit

namespace QuotaTables
variable (t : QuotaTables)

/-- The stored rows of a pool. -/
def counted : QuotaPool → Nat
  | .free school => used schoolPool t.solverFreeSolveUsage school
  | .trial school => used schoolPool t.solverTrialSolveUsage school
  | .plus school cycle => used cyclePool t.solverPlusSolveUsage (school, cycle)

/-- The pool a stored row counts in, and when it was requested. -/
def rowAt (place : Place) : Option (QuotaPool × Nat) :=
  match place.plan with
  | .free => (t.solverFreeSolveUsage.lookup place.id).map fun row =>
      (.free place.id.schoolId, row.requestedAtMs)
  | .trial => (t.solverTrialSolveUsage.lookup place.id).map fun row =>
      (.trial place.id.schoolId, row.requestedAtMs)
  | .plus => (t.solverPlusSolveUsage.lookup place.id).map fun row =>
      (.plus place.id.schoolId row.quotaCycleId, row.requestedAtMs)

/-- Every pool holds at most its limit. -/
def WithinLimits : Prop := ∀ pool, t.counted pool ≤ pool.limit

end QuotaTables

/-! ### The dispatch by plan -/

inductive SolverPlanPolicy where
  | exempt
  | free
  | trial
  | plus (quotaCycleId : String)
  | max1
  | unknown
deriving DecidableEq, Repr

namespace SolverPlanPolicy

/-- `metered_plan`. -/
def metered : SolverPlanPolicy → Bool
  | .free => true
  | .trial => true
  | .plus _ => true
  | _ => false

/-- The row a claim of this plan is about and the pool it counts in. -/
def target (schoolId accountId jobId : String) : SolverPlanPolicy → Option (Place × QuotaPool)
  | .free => (identity? schoolId accountId jobId).map fun id => (⟨.free, id⟩, .free id.schoolId)
  | .trial => (identity? schoolId accountId jobId).map fun id => (⟨.trial, id⟩, .trial id.schoolId)
  | .plus quotaCycleId =>
    match identity? schoolId accountId jobId, cycle? quotaCycleId with
    | some id, some cycle => some (⟨.plus, id⟩, .plus id.schoolId cycle)
    | _, _ => none
  | _ => none

end SolverPlanPolicy

open Registry (Answer jsonObject)
open TkbCherry.Pool (SolverOwner)

/-- The four answers of a plan's claim in `main.rs`; a claimed unit is answered by going on. -/
def claimAnswer (plan : String) (limit : Nat) (exhaustedMessage unavailableMessage : String) :
    Except String Admission → Except Answer Unit
  | .ok (.claimed _) => .ok ()
  | .ok (.existing used) => .error ⟨409, jsonObject [
      ("ok", .bool false),
      ("kind", .str (plan ++ "_solve_job_replayed")),
      ("error", .str (plan ++ "_solve_job_replayed")),
      ("used", .int used),
      ("retryable", .bool false),
      ("message", .str "Lượt xếp này đã được ghi nhận. Vui lòng bấm lại để tạo một lượt mới.")]⟩
  | .ok (.exhausted used) => .error ⟨429, jsonObject [
      ("ok", .bool false),
      ("kind", .str (plan ++ "_solve_quota_exhausted")),
      ("error", .str (plan ++ "_solve_quota_exhausted")),
      ("limit", .int limit),
      ("used", .int used),
      ("remaining", .int 0),
      ("retryable", .bool false),
      ("message", .str exhaustedMessage)]⟩
  | .error error => .error ⟨503, jsonObject [
      ("ok", .bool false),
      ("kind", .str (plan ++ "_solve_quota_unavailable")),
      ("error", .str (plan ++ "_solve_quota_unavailable")),
      ("retryable", .bool false),
      ("message", .str unavailableMessage),
      ("detail", .str (takeChars 240 error))]⟩

def freeClaimAnswer : Except String Admission → Except Answer Unit :=
  claimAnswer "free" freeSolveActionLimit
    "Gói Free đã dùng hết 5 lượt Xếp và Tối ưu. Vui lòng nâng cấp để tiếp tục."
    "Chưa kiểm tra được số lượt Free. Vui lòng thử lại sau."

def trialClaimAnswer : Except String Admission → Except Answer Unit :=
  claimAnswer "trial" trialSolveActionLimit
    "Gói Trial đã dùng hết 50 lượt Xếp và Tối ưu. Vui lòng nâng cấp để tiếp tục."
    "Chưa kiểm tra được số lượt Trial. Vui lòng thử lại sau."

def plusClaimAnswer : Except String Admission → Except Answer Unit :=
  claimAnswer "plus" plusSolveActionLimit
    "Gói Plus đã dùng hết 100 lượt Xếp và Tối ưu trong kỳ hiện tại. Vui lòng gia hạn hoặc nâng cấp để tiếp tục."
    "Chưa kiểm tra được số lượt Plus. Vui lòng thử lại sau."

def claimPlanSolve (owner : SolverOwner) (jobId : String) (policy : SolverPlanPolicy) (m : Moment)
    (t : QuotaTables) : Except Answer Unit × QuotaTables :=
  match policy with
  | .free =>
    let (result, t') := claimFreeSolve owner.schoolId owner.loginId jobId m t
    (freeClaimAnswer result, t')
  | .trial =>
    let (result, t') := claimTrialSolve owner.schoolId owner.loginId jobId m t
    (trialClaimAnswer result, t')
  | .plus quotaCycleId =>
    let (result, t') := claimPlusSolve owner.schoolId owner.loginId quotaCycleId jobId m t
    (plusClaimAnswer result, t')
  | .exempt => (.ok (), t)
  | .max1 => (.ok (), t)
  | .unknown => (.error ⟨503, jsonObject [
      ("ok", .bool false),
      ("kind", .str "solver_plan_unavailable"),
      ("error", .str "solver_plan_unavailable"),
      ("retryable", .bool false)]⟩, t)

structure SolvePlanClaimGuard where
  owner : SolverOwner
  jobId : String
  policy : SolverPlanPolicy
  accepted : Bool

/-- The guard leaves scope. A failed release is only logged. -/
def SolvePlanClaimGuard.drop (g : SolvePlanClaimGuard) (m : Moment) (t : QuotaTables) :
    QuotaTables :=
  if g.accepted then t
  else match g.policy with
    | .free => (releaseFreeSolveClaim g.owner.schoolId g.owner.loginId g.jobId m t).2
    | .trial => (releaseTrialSolveClaim g.owner.schoolId g.owner.loginId g.jobId m t).2
    | .plus quotaCycleId =>
      (releasePlusSolveClaim g.owner.schoolId g.owner.loginId quotaCycleId g.jobId m t).2
    | _ => t

end TkbCherry.Serverless
