import TkbCherry.Lib.Flow
import TkbCherry.Lib.Rows
import TkbCherry.Serverless.Dispatch
import TkbCherry.Serverless.SolveQuota

/-!
# The reservation ledger

`ServerlessCoordinator` keeps a table of live reservations, the jobs booked for each profile, and a
row for every execution asked of the VPS or Cloud Run. Each call is one immediate transaction. The
amounts in dollars are left out: no row is kept or dropped because of them.
-/

namespace TkbCherry.Serverless

set_option autoImplicit false

open Table Text

/-- A row of `serverless_reservations`. -/
structure Reservation where
  profileId : String
  schoolId : String
  accountId : String
  createdAtMs : Nat
  expiresAtMs : Nat
  dispatchedAtMs : Option Nat
  cancelRequestedAtMs : Option Nat
deriving DecidableEq, Repr

/-- A row of `serverless_profile_usage`. -/
structure ProfileUsage where
  completedJobs : Nat
  failedJobs : Nat
  cancelledJobs : Nat
  lastEventAtMs : Nat
deriving DecidableEq, Repr

inductive ServerExecutor where
  | cloudRun
  | vps
deriving DecidableEq, Repr

/-- `normalized_server_executor` -/
def normalizedServerExecutor (executor : String) : Option ServerExecutor :=
  match (toAsciiLowercase (trim executor)).map fun c => if c = '-' then '_' else c with
  | "cloud" => some .cloudRun
  | "cloud_run" => some .cloudRun
  | "serverless" => some .cloudRun
  | "vps" => some .vps
  | _ => none

inductive ExecutionStatus where
  | requested
  | running
  | completed
  | failed
  | cancelled
  | released
deriving DecidableEq, Repr

/-- `status IN ('requested','running')` -/
def ExecutionStatus.isOpen : ExecutionStatus → Bool
  | .requested => true
  | .running => true
  | _ => false

/-- The primary key of `solver_execution_usage`. -/
structure ExecutionKey where
  jobId : String
  executor : ServerExecutor
  schoolId : String
  accountId : String
deriving DecidableEq, Repr

structure ExecutionUsage where
  profileId : Option String
  status : ExecutionStatus
  requestedAtMs : Nat
  startedAtMs : Option Nat
  completedAtMs : Option Nat
  updatedAtMs : Nat
deriving DecidableEq, Repr

structure Ledger where
  reservations : Entries String Reservation
  profileUsage : Entries String ProfileUsage
  executionUsage : Entries ExecutionKey ExecutionUsage

def Ledger.empty : Ledger := ⟨∅, ∅, ∅⟩

inductive ReservationOutcome where
  | completed
  | failed
  | cancelled
  | released
deriving DecidableEq, Repr

def ReservationOutcome.status : ReservationOutcome → ExecutionStatus
  | .completed => .completed
  | .failed => .failed
  | .cancelled => .cancelled
  | .released => .released

/-! ### Execution rows -/

/-- The key under which an execution is stored. -/
def executionKey (jobId schoolId accountId : String) (executor : ServerExecutor) : ExecutionKey :=
  ⟨normalizedJobId jobId, executor, normalizedOwnerPart schoolId, normalizedOwnerPart accountId⟩

/-- `record_execution_requested` -/
def recordExecutionRequested (key : ExecutionKey) (profileId : Option String) (requestedAtMs : Nat)
    (rows : Entries ExecutionKey ExecutionUsage) : Entries ExecutionKey ExecutionUsage :=
  let profileId := profileId.map fun value => takeChars 80 (trim value)
  if (rows.lookup key).isSome then
    modify key (fun row => { row with
      profileId := row.profileId.or profileId
      requestedAtMs := min row.requestedAtMs requestedAtMs
      updatedAtMs := max row.updatedAtMs requestedAtMs }) rows
  else rows.insert key ⟨profileId, .requested, requestedAtMs, none, none, requestedAtMs⟩

/-- The end of an execution. -/
def ExecutionUsage.close (status : ExecutionStatus) (atMs : Nat) (row : ExecutionUsage) :
    ExecutionUsage :=
  { row with
    status := status
    completedAtMs := row.completedAtMs.or (some atMs)
    updatedAtMs := atMs }

/-- `finish_execution_row` -/
def finishExecutionRow (key : ExecutionKey) (profileId : Option String) (status : ExecutionStatus)
    (requestedAtMs completedAtMs : Nat) (rows : Entries ExecutionKey ExecutionUsage) :
    Entries ExecutionKey ExecutionUsage :=
  updateWhere (fun k row => decide (k = key) && row.status.isOpen)
    (ExecutionUsage.close status completedAtMs)
    (recordExecutionRequested key profileId requestedAtMs rows)

/-- An open row of a job on Cloud Run. -/
def openOnCloudRun (jobId : String) (key : ExecutionKey) (row : ExecutionUsage) : Bool :=
  decide (key.jobId = jobId ∧ key.executor = .cloudRun) && row.status.isOpen

/-- `SET status = 'running'` -/
def ExecutionUsage.run (atMs : Nat) (row : ExecutionUsage) : ExecutionUsage :=
  { row with status := .running, startedAtMs := row.startedAtMs.or (some atMs), updatedAtMs := atMs }

/-- The key with the owner parts it lacks. -/
def ExecutionKey.adopt (schoolId accountId : String) (key : ExecutionKey) : ExecutionKey :=
  { key with
    schoolId := if key.schoolId = "" then schoolId else key.schoolId
    accountId := if key.accountId = "" then accountId else key.accountId }

/-- The open rows of a job on Cloud Run get the owner parts they lack, where that key is free. -/
def adoptExecutions (jobId schoolId accountId : String) (rows : Entries ExecutionKey ExecutionUsage) :
    Entries ExecutionKey ExecutionUsage :=
  ((toList rows).filter fun e => openOnCloudRun jobId e.1 e.2).foldl
    (fun rows e => move e.1 (e.1.adopt schoolId accountId) rows) rows

/-! ### Calls -/

/-- `ON CONFLICT(profile_id) DO UPDATE` with sums. -/
def bookJobs (profileId : String) (completed failed cancelled atMs : Nat)
    (usage : Entries String ProfileUsage) : Entries String ProfileUsage :=
  match usage.lookup profileId with
  | some row => usage.insert profileId
    { completedJobs := row.completedJobs + completed
      failedJobs := row.failedJobs + failed
      cancelledJobs := row.cancelledJobs + cancelled
      lastEventAtMs := atMs }
  | none => usage.insert profileId ⟨completed, failed, cancelled, atMs⟩

/-- `CLOUD_RUN_DISPATCH_WINDOW_MS` -/
def cloudRunDispatchWindowMs : Nat := 6 * 60 * 1000

/-- `saturating_add` on `u64`, stored as `i64`. -/
def laterMs (nowMs : UInt64) (spanMs : Nat) : Nat := min (nowMs.toNat + spanMs) (2 ^ 63 - 1)

def earlierMs (nowMs : UInt64) (spanMs : Nat) : Nat := min (nowMs.toNat - spanMs) (2 ^ 63 - 1)

def Reservation.expired (atMs : Nat) (r : Reservation) : Bool := decide (r.expiresAtMs ≤ atMs)

def Reservation.dispatched (r : Reservation) : Bool := r.dispatchedAtMs.isSome

/-- The jobs in flight on a profile beside the job that asks. -/
def inFlight (jobId : String) (cutoffMs : Nat) (rows : Entries String Reservation)
    (profileId : String) : Option UInt64 :=
  let n := (rows.entries.filter fun e => decide (e.1 ≠ jobId) && decide (e.2.profileId = profileId) &&
    e.2.dispatchedAtMs.all fun atMs => decide (cutoffMs < atMs)).length
  if n = 0 then none else some (UInt64.ofNat n)

/-- `with_immediate_transaction` around an operation that may refuse. -/
def refusableTransaction {σ α : Type} (m : Moment) (op : σ → Except String (α × σ)) (s : σ) :
    Except String α × σ :=
  match m.fault with
  | some _ => (.error "serverless_accounting_unavailable", s)
  | none =>
    match op s with
    | .error error => (.error error, s)
    | .ok (a, s') => (.ok a, s')

namespace Ledger

/-- The body of `reserve_at`. -/
def reserveRows (ttlMs : Nat) (config : ServerlessConfig) (jobId schoolId accountId : String)
    (nowMs : UInt64) (s : Ledger) : Except String (ServerlessProfile × Ledger) :=
  if config.selectedProfile.isNone then .error "serverless_profile_unavailable"
  else
    let now := sqliteMillis nowMs
    let live := retain (fun _ r => !r.expired now) s.reservations
    match config.dispatchProfile (inFlight jobId (earlierMs nowMs cloudRunDispatchWindowMs) live) with
    | none => .error "serverless_profile_unavailable"
    | some selected =>
      let key := executionKey jobId schoolId accountId .cloudRun
      match live.lookup jobId with
      | some existing =>
        match config.profiles.find? fun profile =>
            profile.enabled && decide (profile.id = existing.profileId) with
        | none => .error "serverless_reserved_profile_unavailable"
        | some profile => .ok (profile,
          { s with
            reservations := modify jobId (fun r => { r with
              schoolId := if r.schoolId = "" then normalizedOwnerPart schoolId else r.schoolId
              accountId := if r.accountId = "" then normalizedOwnerPart accountId else r.accountId })
              live
            executionUsage := recordExecutionRequested key (some profile.id) now
              (adoptExecutions jobId (normalizedOwnerPart schoolId) (normalizedOwnerPart accountId)
                s.executionUsage) })
      | none => .ok (selected,
        { s with
          reservations := live.insert jobId
            { profileId := selected.id
              schoolId := normalizedOwnerPart schoolId
              accountId := normalizedOwnerPart accountId
              createdAtMs := now
              expiresAtMs := laterMs nowMs (max ttlMs 1)
              dispatchedAtMs := none
              cancelRequestedAtMs := none }
          executionUsage := recordExecutionRequested key (some selected.id) now s.executionUsage })

/-- `reserve_for_owner` -/
def reserve (ttlMs : Nat) (config : ServerlessConfig) (jobId schoolId accountId : String) (m : Moment)
    (s : Ledger) : Except String ServerlessProfile × Ledger :=
  if trim jobId = "" then (.error "serverless_job_id_required", s)
  else refusableTransaction m (reserveRows ttlMs config (trim jobId) schoolId accountId m.nowMs) s

/-- `mark_dispatched` -/
def markDispatched (ttlMs : Nat) (jobId : String) (m : Moment) (s : Ledger) : Bool × Ledger :=
  match m.fault, s.reservations.lookup jobId with
  | none, some _ =>
    (true, { s with
      reservations := modify jobId (fun r => { r with
        dispatchedAtMs := r.dispatchedAtMs.or (some (sqliteMillis m.nowMs))
        expiresAtMs := max r.expiresAtMs (laterMs m.nowMs ttlMs) }) s.reservations
      executionUsage := updateWhere (openOnCloudRun jobId) (ExecutionUsage.run (sqliteMillis m.nowMs))
        s.executionUsage })
  | _, _ => (false, s)

/-- `mark_cancel_requested` -/
def markCancelRequested (jobId : String) (m : Moment) (s : Ledger) : Bool × Ledger :=
  match m.fault, s.reservations.lookup jobId with
  | none, some _ =>
    (true, { s with reservations := modify jobId (fun r => { r with
      cancelRequestedAtMs := r.cancelRequestedAtMs.or (some (sqliteMillis m.nowMs)) }) s.reservations })
  | _, _ => (false, s)

/-- The key of the execution that a reservation is for. -/
def reservedKey (jobId : String) (r : Reservation) : ExecutionKey :=
  executionKey jobId r.schoolId r.accountId .cloudRun

/-- `reconcile_outcome`; a cancellation that was asked for wins over the outcome. -/
def reconcileOutcome (jobId : String) (outcome : ReservationOutcome) (m : Moment) (s : Ledger) :
    Bool × Ledger :=
  match m.fault, s.reservations.lookup jobId with
  | none, some r =>
    let now := sqliteMillis m.nowMs
    let outcome := if outcome = .released then .released
      else if r.cancelRequestedAtMs.isSome then .cancelled else outcome
    let count := fun o => if outcome = o then 1 else 0
    (true,
      { reservations := s.reservations.erase jobId
        profileUsage := if outcome = .released then s.profileUsage
          else bookJobs r.profileId (count .completed) (count .failed) (count .cancelled) now
            s.profileUsage
        executionUsage := finishExecutionRow (reservedKey jobId r) (some r.profileId) outcome.status
          r.createdAtMs now s.executionUsage })
  | _, _ => (false, s)

/-- `release` -/
def release (jobId : String) (m : Moment) (s : Ledger) : Bool × Ledger :=
  s.reconcileOutcome jobId .released m

/-- `release_before_dispatch` -/
def releaseBeforeDispatch (jobId : String) (m : Moment) (s : Ledger) : Bool × Ledger :=
  match m.fault, (s.reservations.lookup jobId).filter fun r => !r.dispatched with
  | none, some r =>
    (true, { s with
      reservations := s.reservations.erase jobId
      executionUsage := finishExecutionRow (reservedKey jobId r) (some r.profileId) .released
        r.createdAtMs (sqliteMillis m.nowMs) s.executionUsage })
  | _, _ => (false, s)

/-- The expired rows of a profile that were dispatched. -/
def expiredDispatched (atMs : Nat) (profileId : String) (s : Ledger) : Nat :=
  Table.count (fun r => decide (r.profileId = profileId) && r.expired atMs && r.dispatched)
    s.reservations

/-- The open rows on Cloud Run of the expired reservations that were dispatched, or that were not. -/
def expiredExecution (atMs : Nat) (dispatched : Bool) (rows : Entries String Reservation)
    (key : ExecutionKey) (row : ExecutionUsage) : Bool :=
  decide (key.executor = .cloudRun) && row.status.isOpen &&
    (rows.lookup key.jobId).any fun r => r.expired atMs && decide (r.dispatched = dispatched)

/-- `prune_expired` -/
def pruneExpired (m : Moment) (s : Ledger) : Except String Nat × Ledger :=
  match m.fault with
  | some _ => (.error "serverless_accounting_unavailable", s)
  | none =>
    let now := sqliteMillis m.nowMs
    let profiles := (((toList s.reservations).filter fun e => e.2.expired now && e.2.dispatched).map
      fun e => e.2.profileId).dedup
    (.ok (Table.count (Reservation.expired now) s.reservations),
      { reservations := retain (fun _ r => !r.expired now) s.reservations
        profileUsage := profiles.foldl (fun usage profileId =>
          bookJobs profileId 0 (s.expiredDispatched now profileId) 0 now usage) s.profileUsage
        executionUsage := updateWhere (expiredExecution now false s.reservations)
          (ExecutionUsage.close .released now)
          (updateWhere (expiredExecution now true s.reservations)
            (ExecutionUsage.close .failed now) s.executionUsage) })

/-- `record_execution_requested` of the coordinator. -/
def recordExecutionRequested (jobId schoolId accountId executor : String) (m : Moment) (s : Ledger) :
    Bool × Ledger :=
  match normalizedServerExecutor executor, m.fault with
  | some executor, none =>
    let rows := Serverless.recordExecutionRequested (executionKey jobId schoolId accountId executor)
      none (sqliteMillis m.nowMs) s.executionUsage
    (true, { s with executionUsage := rows })
  | _, _ => (false, s)

/-- `record_execution_started`; the update compares the job id as it was given. -/
def recordExecutionStarted (jobId schoolId accountId executor : String) (m : Moment) (s : Ledger) :
    Bool × Ledger :=
  match normalizedServerExecutor executor, m.fault with
  | some executor, none =>
    let key := executionKey jobId schoolId accountId executor
    let rows := updateWhere
      (fun k row => decide (k = { key with jobId := jobId }) && row.status.isOpen)
      (ExecutionUsage.run (sqliteMillis m.nowMs))
      (Serverless.recordExecutionRequested key none (sqliteMillis m.nowMs) s.executionUsage)
    (true, { s with executionUsage := rows })
  | _, _ => (false, s)

/-- `record_execution_outcome` -/
def recordExecutionOutcome (jobId schoolId accountId executor : String) (outcome : ReservationOutcome)
    (m : Moment) (s : Ledger) : Bool × Ledger :=
  match normalizedServerExecutor executor, m.fault with
  | some executor, none =>
    let rows := finishExecutionRow (executionKey jobId schoolId accountId executor) none
      outcome.status (sqliteMillis m.nowMs) (sqliteMillis m.nowMs) s.executionUsage
    (true, { s with executionUsage := rows })
  | _, _ => (false, s)

/-! ### Runs -/

/-- The calls of the coordinator; the configuration is the one the transaction reads. -/
inductive Call where
  | reserve (config : ServerlessConfig) (jobId schoolId accountId : String) (m : Moment)
  | markDispatched (jobId : String) (m : Moment)
  | markCancelRequested (jobId : String) (m : Moment)
  | reconcileOutcome (jobId : String) (outcome : ReservationOutcome) (m : Moment)
  | releaseBeforeDispatch (jobId : String) (m : Moment)
  | pruneExpired (m : Moment)
  | recordExecutionRequested (jobId schoolId accountId executor : String) (m : Moment)
  | recordExecutionStarted (jobId schoolId accountId executor : String) (m : Moment)
  | recordExecutionOutcome (jobId schoolId accountId executor : String) (outcome : ReservationOutcome)
      (m : Moment)

def next (ttlMs : Nat) (s : Ledger) : Call → Ledger
  | .reserve config jobId schoolId accountId m =>
    (s.reserve ttlMs config jobId schoolId accountId m).2
  | .markDispatched jobId m => (s.markDispatched ttlMs jobId m).2
  | .markCancelRequested jobId m => (s.markCancelRequested jobId m).2
  | .reconcileOutcome jobId outcome m => (s.reconcileOutcome jobId outcome m).2
  | .releaseBeforeDispatch jobId m => (s.releaseBeforeDispatch jobId m).2
  | .pruneExpired m => (s.pruneExpired m).2
  | .recordExecutionRequested jobId schoolId accountId executor m =>
    (s.recordExecutionRequested jobId schoolId accountId executor m).2
  | .recordExecutionStarted jobId schoolId accountId executor m =>
    (s.recordExecutionStarted jobId schoolId accountId executor m).2
  | .recordExecutionOutcome jobId schoolId accountId executor outcome m =>
    (s.recordExecutionOutcome jobId schoolId accountId executor outcome m).2

end Ledger

end TkbCherry.Serverless
