import TkbCherry.Serverless.Reservations

/-!
# An execution ends once

A row of the execution table is followed through a run of calls. It may get the owner parts it lacks
while it is open; once it has ended, its key, its status and its times stay.
-/

namespace TkbCherry.Serverless

set_option autoImplicit false

open Table Text

/-- The key an execution may have later. -/
def ExecutionKey.Becomes (key key' : ExecutionKey) : Prop :=
  key'.jobId = key.jobId ∧ key'.executor = key.executor ∧
    (key.schoolId ≠ "" → key'.schoolId = key.schoolId) ∧
    (key.accountId ≠ "" → key'.accountId = key.accountId)

/-- What a row may hold later. -/
structure ExecutionUsage.Becomes (row row' : ExecutionUsage) : Prop where
  profile : ∀ profileId, row.profileId = some profileId → row'.profileId = some profileId
  requested : row'.requestedAtMs ≤ row.requestedAtMs
  started : ∀ atMs, row.startedAtMs = some atMs → row'.startedAtMs = some atMs
  waiting : row'.status = .requested → row.status = .requested
  ended : row.status.isOpen = false →
    row'.status = row.status ∧ row'.startedAtMs = row.startedAtMs ∧
      row'.completedAtMs = row.completedAtMs

/-- The times of a row are those its status calls for. -/
structure ExecutionUsage.Sound (row : ExecutionUsage) : Prop where
  ended : row.completedAtMs.isSome = !row.status.isOpen
  requested : row.status = .requested → row.startedAtMs = none
  running : row.status = .running → row.startedAtMs.isSome

/-- The executions of a table are found again in another one, the ended ones in their place, and no two
of them under one key. -/
structure Advances (rows rows' : Entries ExecutionKey ExecutionUsage) : Prop where
  size : size rows ≤ size rows'
  sound : (∀ key row, rows.lookup key = some row → row.Sound) →
    ∀ key row, rows'.lookup key = some row → row.Sound
  found : ∀ key row, rows.lookup key = some row → ∃ key' row', rows'.lookup key' = some row' ∧
    key.Becomes key' ∧ row.Becomes row' ∧ (row.status.isOpen = false → key' = key)

/-! ### Rows -/

theorem ExecutionKey.Becomes.refl (key : ExecutionKey) : key.Becomes key :=
  ⟨rfl, rfl, fun _ => rfl, fun _ => rfl⟩

theorem ExecutionKey.Becomes.trans {a b c : ExecutionKey} (h : a.Becomes b) (h' : b.Becomes c) :
    a.Becomes c := by
  obtain ⟨hjob, hexecutor, hschool, haccount⟩ := h
  obtain ⟨hjob', hexecutor', hschool', haccount'⟩ := h'
  refine ⟨hjob'.trans hjob, hexecutor'.trans hexecutor, ?_, ?_⟩
  · intro hne
    have heq := hschool hne
    rw [hschool' (by rw [heq]; exact hne), heq]
  · intro hne
    have heq := haccount hne
    rw [haccount' (by rw [heq]; exact hne), heq]

theorem ExecutionKey.becomes_adopt (schoolId accountId : String) (key : ExecutionKey) :
    key.Becomes (key.adopt schoolId accountId) :=
  ⟨rfl, rfl, fun h => if_neg h, fun h => if_neg h⟩

theorem ExecutionUsage.Becomes.refl (row : ExecutionUsage) : row.Becomes row where
  profile := fun _ h => h
  requested := Nat.le_refl _
  started := fun _ h => h
  waiting := fun h => h
  ended := fun _ => ⟨rfl, rfl, rfl⟩

theorem ExecutionUsage.Becomes.trans {a b c : ExecutionUsage} (h : a.Becomes b) (h' : b.Becomes c) :
    a.Becomes c where
  profile := fun p hp => h'.profile p (h.profile p hp)
  requested := Nat.le_trans h'.requested h.requested
  started := fun t ht => h'.started t (h.started t ht)
  waiting := fun hc => h.waiting (h'.waiting hc)
  ended := by
    intro hclosed
    obtain ⟨hstatus, hstarted, hcompleted⟩ := h.ended hclosed
    rw [← hstatus] at hclosed
    obtain ⟨hstatus', hstarted', hcompleted'⟩ := h'.ended hclosed
    exact ⟨hstatus'.trans hstatus, hstarted'.trans hstarted, hcompleted'.trans hcompleted⟩

/-- A time that is set stays. -/
theorem or_kept {α : Type} {a : Option α} {v : α} (h : a = some v) (b : Option α) : a.or b = some v := by
  rw [h]
  rfl

theorem isSome_or_some {α : Type} (a : Option α) (v : α) : (a.or (some v)).isSome = true := by
  cases a with
  | none => rfl
  | some w => rfl

theorem ExecutionUsage.becomes_close {status : ExecutionStatus} {row : ExecutionUsage}
    (hopen : row.status.isOpen = true) (hstatus : status.isOpen = false) (atMs : Nat) :
    row.Becomes (row.close status atMs) where
  profile := fun _ h => h
  requested := Nat.le_refl _
  started := fun _ h => h
  waiting := by
    intro h
    have heq : status = .requested := h
    rw [heq] at hstatus
    cases hstatus
  ended := by
    intro h
    rw [hopen] at h
    cases h

theorem ExecutionUsage.Sound.close {status : ExecutionStatus} {row : ExecutionUsage}
    (hstatus : status.isOpen = false) (atMs : Nat) : (row.close status atMs).Sound where
  ended := by
    have hsome := isSome_or_some row.completedAtMs atMs
    have hclosed : (!(row.close status atMs).status.isOpen) = true := by
      rw [Bool.not_eq_true']
      exact hstatus
    rw [hclosed]
    exact hsome
  requested := by
    intro h
    have heq : status = .requested := h
    rw [heq] at hstatus
    cases hstatus
  running := by
    intro h
    have heq : status = .running := h
    rw [heq] at hstatus
    cases hstatus

theorem ExecutionUsage.becomes_run {row : ExecutionUsage} (hopen : row.status.isOpen = true)
    (atMs : Nat) : row.Becomes (row.run atMs) where
  profile := fun _ h => h
  requested := Nat.le_refl _
  started := fun _ h => or_kept h _
  waiting := fun h => ExecutionStatus.noConfusion h
  ended := by
    intro h
    rw [hopen] at h
    cases h

theorem ExecutionUsage.Sound.run {row : ExecutionUsage} (h : row.Sound)
    (hopen : row.status.isOpen = true) (atMs : Nat) : (row.run atMs).Sound where
  ended := by
    have hnone := h.ended
    rw [hopen] at hnone
    exact hnone
  requested := fun h => ExecutionStatus.noConfusion h
  running := fun _ => isSome_or_some _ _

/-! ### Tables -/

theorem Advances.refl (rows : Entries ExecutionKey ExecutionUsage) : Advances rows rows where
  size := Nat.le_refl _
  sound := fun h => h
  found := fun key row h => ⟨key, row, h, .refl key, .refl row, fun _ => rfl⟩

section Tables
variable {rows rows' rows'' : Entries ExecutionKey ExecutionUsage}

theorem Advances.trans (h : Advances rows rows') (h' : Advances rows' rows'') :
    Advances rows rows'' where
  size := Nat.le_trans h.size h'.size
  sound := fun hsound => h'.sound (h.sound hsound)
  found := by
    intro key row hl
    obtain ⟨key', row', hl', hkey, hrow, hplace⟩ := h.found key row hl
    obtain ⟨key'', row'', hl'', hkey', hrow', hplace'⟩ := h'.found key' row' hl'
    refine ⟨key'', row'', hl'', hkey.trans hkey', hrow.trans hrow', ?_⟩
    intro hclosed
    rw [← hplace hclosed]
    apply hplace'
    rw [(hrow.ended hclosed).1]
    exact hclosed

/-- Rows that are updated in place. -/
theorem Advances.updateWhere {p : ExecutionKey → ExecutionUsage → Bool}
    {f : ExecutionUsage → ExecutionUsage}
    (hf : ∀ key row, p key row = true → row.Becomes (f row) ∧ (row.Sound → (f row).Sound))
    (rows : Entries ExecutionKey ExecutionUsage) : Advances rows (updateWhere p f rows) where
  size := Nat.le_of_eq (size_updateWhere p f rows).symm
  sound := by
    intro hsound key row hl
    rw [lookup_updateWhere, Option.map_eq_some_iff] at hl
    obtain ⟨old, hold, rfl⟩ := hl
    split
    · rename_i hp
      exact (hf key old hp).2 (hsound key old hold)
    · exact hsound key old hold
  found := by
    intro key row hl
    refine ⟨key, if p key row then f row else row, ?_, .refl key, ?_, fun _ => rfl⟩
    · rw [lookup_updateWhere, hl, Option.map_some]
    · split
      · rename_i hp
        exact (hf key row hp).1
      · exact .refl row

/-- An open row that gets another key. -/
theorem Advances.move {key key' : ExecutionKey} (hkey : key.Becomes key')
    (hopen : ∀ row, rows.lookup key = some row → row.status.isOpen = true) :
    Advances rows (move key key' rows) where
  size := Nat.le_of_eq (size_move key key' rows).symm
  sound := by
    intro hsound j row hl
    rcases lookup_move_cases hl with hold | ⟨-, hold⟩
    · exact hsound j row hold
    · exact hsound key row hold
  found := by
    intro j row hl
    by_cases hj : j = key
    · subst hj
      have hrow := hopen row hl
      rcases lookup_move_at hl key' with hstay | hmoved
      · exact ⟨j, row, hstay, .refl j, .refl row, fun _ => rfl⟩
      · refine ⟨key', row, hmoved, hkey, .refl row, ?_⟩
        intro hclosed
        rw [hrow] at hclosed
        cases hclosed
    · refine ⟨j, row, ?_, .refl j, .refl row, fun _ => rfl⟩
      rw [lookup_move_of_isSome hj (by rw [hl]; rfl), hl]

/-- The loop of adoptions never meets an ended row, since no ended row changes its key. -/
theorem Advances.adopt (schoolId accountId : String) (moved : List (ExecutionKey × ExecutionUsage))
    (hopen : ∀ e ∈ moved, ∀ row, rows.lookup e.1 = some row → row.status.isOpen = true) :
    Advances rows (moved.foldl (fun rows e =>
      Table.move e.1 (e.1.adopt schoolId accountId) rows) rows) := by
  induction moved generalizing rows with
  | nil => exact .refl rows
  | cons e rest ih =>
    have hfirst := Advances.move (e.1.becomes_adopt schoolId accountId) (hopen e List.mem_cons_self)
    rw [List.foldl_cons]
    apply hfirst.trans
    apply ih
    intro e' he' row hl
    rcases lookup_move_cases hl with hold | ⟨-, hold⟩
    · exact hopen e' (List.mem_cons_of_mem _ he') row hold
    · exact hopen e List.mem_cons_self row hold

theorem Advances.adoptExecutions (jobId schoolId accountId : String)
    (rows : Entries ExecutionKey ExecutionUsage) :
    Advances rows (adoptExecutions jobId schoolId accountId rows) := by
  apply Advances.adopt
  intro e he row hl
  obtain ⟨hmem, hcond⟩ := List.mem_filter.mp he
  have heq : rows.lookup e.1 = some e.2 := mem_toList_iff.mp hmem
  rw [heq] at hl
  cases hl
  unfold openOnCloudRun at hcond
  rw [Bool.and_eq_true] at hcond
  exact hcond.2

theorem Advances.recordExecutionRequested (key : ExecutionKey) (profileId : Option String)
    (requestedAtMs : Nat) (rows : Entries ExecutionKey ExecutionUsage) :
    Advances rows (recordExecutionRequested key profileId requestedAtMs rows) := by
  unfold Serverless.recordExecutionRequested
  dsimp only
  split
  · have hmodify : ∀ f : ExecutionUsage → ExecutionUsage, (∀ row : ExecutionUsage, row.Becomes (f row) ∧
        (row.Sound → (f row).Sound)) → Advances rows (modify key f rows) := by
      intro f hf
      constructor
      · rw [size_eq_total, size_eq_total, total_modify]
        intro v
        rfl
      · intro hsound j row hl
        rw [lookup_modify] at hl
        split at hl
        · obtain ⟨old, hold, rfl⟩ := Option.map_eq_some_iff.mp hl
          exact (hf old).2 (hsound key old hold)
        · exact hsound j row hl
      · intro j row hl
        by_cases hj : j = key
        · subst hj
          refine ⟨j, f row, ?_, .refl j, (hf row).1, fun _ => rfl⟩
          rw [lookup_modify_self, hl, Option.map_some]
        · refine ⟨j, row, ?_, .refl j, .refl row, fun _ => rfl⟩
          rw [lookup_modify_ne hj, hl]
    apply hmodify
    intro row
    constructor
    · constructor
      · exact fun _ h => or_kept h _
      · exact Nat.min_le_left _ _
      · exact fun _ h => h
      · exact fun h => h
      · exact fun _ => ⟨rfl, rfl, rfl⟩
    · intro hsound
      exact ⟨hsound.ended, hsound.requested, hsound.running⟩
  · rename_i habsent
    have hnone : rows.lookup key = none := Option.not_isSome_iff_eq_none.mp habsent
    constructor
    · rw [size_eq_total, size_eq_total, total_insert _ _ hnone]
      omega
    · intro hsound j row hl
      by_cases hj : j = key
      · rw [hj, AList.lookup_insert] at hl
        cases hl
        exact ⟨rfl, fun _ => rfl, fun h => ExecutionStatus.noConfusion h⟩
      · rw [AList.lookup_insert_ne hj] at hl
        exact hsound j row hl
    · intro j row hl
      have hj : j ≠ key := by
        intro he
        rw [he, hnone] at hl
        cases hl
      refine ⟨j, row, ?_, .refl j, .refl row, fun _ => rfl⟩
      rw [AList.lookup_insert_ne hj, hl]

theorem Advances.close {p : ExecutionKey → ExecutionUsage → Bool} {status : ExecutionStatus}
    (hp : ∀ key row, p key row = true → row.status.isOpen = true) (hstatus : status.isOpen = false)
    (atMs : Nat) (rows : Entries ExecutionKey ExecutionUsage) :
    Advances rows (Table.updateWhere p (ExecutionUsage.close status atMs) rows) := by
  apply Advances.updateWhere
  intro key row hrow
  exact ⟨ExecutionUsage.becomes_close (hp key row hrow) hstatus atMs, fun _ => .close hstatus atMs⟩

theorem Advances.run {p : ExecutionKey → ExecutionUsage → Bool}
    (hp : ∀ key row, p key row = true → row.status.isOpen = true)
    (atMs : Nat) (rows : Entries ExecutionKey ExecutionUsage) :
    Advances rows (Table.updateWhere p (ExecutionUsage.run atMs) rows) := by
  apply Advances.updateWhere
  intro key row hrow
  exact ⟨ExecutionUsage.becomes_run (hp key row hrow) atMs, fun h => h.run (hp key row hrow) atMs⟩

theorem ReservationOutcome.status_ended (outcome : ReservationOutcome) :
    outcome.status.isOpen = false := by
  cases outcome <;> rfl

theorem Advances.finishExecutionRow (key : ExecutionKey) (profileId : Option String)
    (outcome : ReservationOutcome) (requestedAtMs completedAtMs : Nat)
    (rows : Entries ExecutionKey ExecutionUsage) :
    Advances rows (finishExecutionRow key profileId outcome.status requestedAtMs completedAtMs rows) := by
  unfold Serverless.finishExecutionRow
  apply (Advances.recordExecutionRequested key profileId requestedAtMs rows).trans
  apply Advances.close
  · intro k row h
    rw [Bool.and_eq_true] at h
    exact h.2
  · exact outcome.status_ended

end Tables

/-! ### Calls -/

namespace Ledger

section Calls
variable {ttlMs : Nat} {s : Ledger}

theorem reserveRows_advances {config : ServerlessConfig} {jobId schoolId accountId : String}
    {nowMs : UInt64} {profile : ServerlessProfile} {s' : Ledger}
    (h : s.reserveRows ttlMs config jobId schoolId accountId nowMs = .ok (profile, s')) :
    Advances s.executionUsage s'.executionUsage := by
  unfold reserveRows at h
  split at h
  · cases h
  · dsimp only at h
    split at h
    · cases h
    · split at h
      · split at h
        · cases h
        · cases h
          apply (Advances.adoptExecutions jobId (normalizedOwnerPart schoolId)
            (normalizedOwnerPart accountId) s.executionUsage).trans
          exact Advances.recordExecutionRequested _ _ _ _
      · cases h
        exact Advances.recordExecutionRequested _ _ _ _

theorem reserve_advances (config : ServerlessConfig) (jobId schoolId accountId : String) (m : Moment) :
    Advances s.executionUsage (s.reserve ttlMs config jobId schoolId accountId m).2.executionUsage := by
  unfold reserve
  split
  · exact .refl _
  · unfold refusableTransaction
    split
    · exact .refl _
    · split
      · exact .refl _
      · rename_i heq
        exact reserveRows_advances heq

theorem reconcileOutcome_advances (jobId : String) (outcome : ReservationOutcome) (m : Moment) :
    Advances s.executionUsage (s.reconcileOutcome jobId outcome m).2.executionUsage := by
  unfold reconcileOutcome
  split
  · exact Advances.finishExecutionRow _ _ _ _ _ _
  · exact .refl _

theorem releaseBeforeDispatch_advances (jobId : String) (m : Moment) :
    Advances s.executionUsage (s.releaseBeforeDispatch jobId m).2.executionUsage := by
  unfold releaseBeforeDispatch
  split
  · exact Advances.finishExecutionRow _ _ .released _ _ _
  · exact .refl _

theorem markDispatched_advances (jobId : String) (m : Moment) :
    Advances s.executionUsage (s.markDispatched ttlMs jobId m).2.executionUsage := by
  unfold markDispatched
  split
  · apply Advances.run
    intro key row h
    unfold openOnCloudRun at h
    rw [Bool.and_eq_true] at h
    exact h.2
  · exact .refl _

theorem expiredExecution_open {atMs : Nat} {dispatched : Bool} {rows : Entries String Reservation}
    {key : ExecutionKey} {row : ExecutionUsage}
    (h : expiredExecution atMs dispatched rows key row = true) : row.status.isOpen = true := by
  unfold expiredExecution at h
  rw [Bool.and_eq_true, Bool.and_eq_true] at h
  exact h.1.2

theorem pruneExpired_advances (m : Moment) :
    Advances s.executionUsage (s.pruneExpired m).2.executionUsage := by
  unfold pruneExpired
  split
  · exact .refl _
  · have hfailed : Advances s.executionUsage
        (Table.updateWhere (expiredExecution (sqliteMillis m.nowMs) true s.reservations)
          (ExecutionUsage.close .failed (sqliteMillis m.nowMs)) s.executionUsage) := by
      apply Advances.close
      · exact fun _ _ h => expiredExecution_open h
      · rfl
    apply hfailed.trans
    apply Advances.close
    · exact fun _ _ h => expiredExecution_open h
    · rfl

theorem recordExecutionStarted_advances (jobId schoolId accountId executor : String) (m : Moment) :
    Advances s.executionUsage
      (s.recordExecutionStarted jobId schoolId accountId executor m).2.executionUsage := by
  unfold recordExecutionStarted
  split
  · dsimp only
    apply (Advances.recordExecutionRequested _ _ _ _).trans
    apply Advances.run
    intro key row h
    rw [Bool.and_eq_true] at h
    exact h.2
  · exact .refl _

/-- Every call. -/
theorem next_advances (call : Call) :
    Advances s.executionUsage (s.next ttlMs call).executionUsage := by
  cases call with
  | reserve config jobId schoolId accountId m =>
    exact reserve_advances config jobId schoolId accountId m
  | markDispatched jobId m => exact markDispatched_advances jobId m
  | markCancelRequested jobId m =>
    unfold next markCancelRequested
    dsimp only
    split <;> exact .refl _
  | reconcileOutcome jobId outcome m => exact reconcileOutcome_advances jobId outcome m
  | releaseBeforeDispatch jobId m => exact releaseBeforeDispatch_advances jobId m
  | pruneExpired m => exact pruneExpired_advances m
  | recordExecutionRequested jobId schoolId accountId executor m =>
    unfold next Ledger.recordExecutionRequested
    dsimp only
    split
    · exact Advances.recordExecutionRequested _ _ _ _
    · exact .refl _
  | recordExecutionStarted jobId schoolId accountId executor m =>
    exact recordExecutionStarted_advances jobId schoolId accountId executor m
  | recordExecutionOutcome jobId schoolId accountId executor outcome m =>
    unfold next Ledger.recordExecutionOutcome
    dsimp only
    split
    · exact Advances.finishExecutionRow _ _ _ _ _ _
    · exact .refl _

theorem run_advances (calls : List Call) :
    Advances s.executionUsage (calls.foldl (next ttlMs) s).executionUsage := by
  induction calls generalizing s with
  | nil => exact .refl _
  | cons call rest ih => exact (next_advances call).trans ih

end Calls

/-- At every moment of a run from an empty ledger the rows of the execution table have the times their
status calls for. However the run goes on, each of them is found again: no execution is lost or merged
with another one, it never goes back to being requested, and once it has ended its key, status and
times never change. -/
theorem executions_end_once (ttlMs : Nat) (calls more : List Call) :
    (∀ key row, (calls.foldl (next ttlMs) empty).executionUsage.lookup key = some row → row.Sound) ∧
    Advances (calls.foldl (next ttlMs) empty).executionUsage
      ((calls ++ more).foldl (next ttlMs) empty).executionUsage := by
  constructor
  · have h : Advances empty.executionUsage (calls.foldl (next ttlMs) empty).executionUsage :=
      run_advances calls
    apply h.sound
    intro key row hl
    cases hl
  · rw [List.foldl_append]
    exact run_advances more

end Ledger

end TkbCherry.Serverless
