import TkbCherry.Serverless.Reservations

/-!
# Every dispatched job is booked once

Over any run of calls, what was dispatched on a profile is running, booked as one outcome, swept by a
later reservation or released. A job whose cancellation was asked for is never booked as completed.
-/

namespace TkbCherry.Serverless

set_option autoImplicit false

open Table Text

namespace Ledger

/-- The outcomes booked in a row. -/
def ofRow (row : ProfileUsage) : Nat := row.completedJobs + row.failedJobs + row.cancelledJobs

/-- The outcomes booked for a profile. -/
def bookedJobs (profileId : String) (s : Ledger) : Nat :=
  (s.profileUsage.lookup profileId).elim 0 ofRow

def completedJobs (profileId : String) (s : Ledger) : Nat :=
  (s.profileUsage.lookup profileId).elim 0 ProfileUsage.completedJobs

/-- The live reservations of a profile that were dispatched. -/
def running (profileId : String) (s : Ledger) : Nat :=
  Table.count (fun r => decide (r.profileId = profileId) && r.dispatched) s.reservations

/-! ### What flows through one call -/

/-- A call that answers to a reservation of the profile with a condition. -/
def meets (profileId jobId : String) (m : Moment) (p : Reservation → Bool) (s : Ledger) : Nat :=
  if m.fault = none ∧ (s.reservations.lookup jobId).any (fun r =>
    decide (r.profileId = profileId) && p r) = true then 1 else 0

/-- The first dispatch of a reservation. -/
def dispatches (profileId : String) (s : Ledger) : Call → Nat
  | .markDispatched jobId m => s.meets profileId jobId m fun r => !r.dispatched
  | _ => 0

/-- An outcome booked for a reservation that was not dispatched. -/
def direct (profileId : String) (s : Ledger) : Call → Nat
  | .reconcileOutcome jobId outcome m =>
    if outcome = .released then 0 else s.meets profileId jobId m fun r => !r.dispatched
  | _ => 0

/-- A release of a reservation that was dispatched. -/
def freed (profileId : String) (s : Ledger) : Call → Nat
  | .reconcileOutcome jobId outcome m =>
    if outcome = .released then s.meets profileId jobId m Reservation.dispatched else 0
  | _ => 0

/-- The expired dispatched rows that a reservation deletes. -/
def swept (ttlMs : Nat) (profileId : String) (s : Ledger) : Call → Nat
  | .reserve config jobId schoolId accountId m =>
    match (s.reserve ttlMs config jobId schoolId accountId m).1 with
    | .ok _ => s.expiredDispatched (sqliteMillis m.nowMs) profileId
    | .error _ => 0
  | _ => 0

/-- A success reported for a reservation whose cancellation was not asked for. -/
def successes (profileId : String) (s : Ledger) : Call → Nat
  | .reconcileOutcome jobId outcome m =>
    if outcome = .completed then s.meets profileId jobId m fun r => !r.cancelRequestedAtMs.isSome
    else 0
  | _ => 0

/-! ### Bookings -/

section Bookings
variable {usage : Entries String ProfileUsage} {profileId p : String}
  {completed failed cancelled atMs : Nat}

theorem bookJobs_booked : ((bookJobs profileId completed failed cancelled atMs usage).lookup p).elim 0
    ofRow = (usage.lookup p).elim 0 ofRow +
      if profileId = p then completed + failed + cancelled else 0 := by
  unfold bookJobs
  by_cases hp : profileId = p
  · subst hp
    cases hl : usage.lookup profileId with
    | none => simp [ofRow]
    | some row =>
      simp [ofRow]
      omega
  · have hne : p ≠ profileId := fun he => hp he.symm
    cases hl : usage.lookup profileId with
    | none => simp [AList.lookup_insert_ne hne, hp]
    | some row => simp [AList.lookup_insert_ne hne, hp]

theorem bookJobs_completed : ((bookJobs profileId completed failed cancelled atMs usage).lookup p).elim
    0 ProfileUsage.completedJobs = (usage.lookup p).elim 0 ProfileUsage.completedJobs +
      if profileId = p then completed else 0 := by
  unfold bookJobs
  by_cases hp : profileId = p
  · subst hp
    cases hl : usage.lookup profileId with
    | none => simp
    | some row => simp
  · have hne : p ≠ profileId := fun he => hp he.symm
    cases hl : usage.lookup profileId with
    | none => simp [AList.lookup_insert_ne hne, hp]
    | some row => simp [AList.lookup_insert_ne hne, hp]

/-- The loop of `prune_expired` books each profile once. -/
theorem foldl_bookJobs (atMs : Nat) (failed : String → Nat) (profiles : List String) (hnodup : profiles.Nodup)
    (usage : Entries String ProfileUsage) (p : String) :
    ((profiles.foldl (fun usage profileId => bookJobs profileId 0 (failed profileId) 0 atMs usage)
      usage).lookup p).elim 0 ofRow =
        (usage.lookup p).elim 0 ofRow + (if p ∈ profiles then failed p else 0) ∧
    ((profiles.foldl (fun usage profileId => bookJobs profileId 0 (failed profileId) 0 atMs usage)
      usage).lookup p).elim 0 ProfileUsage.completedJobs =
        (usage.lookup p).elim 0 ProfileUsage.completedJobs := by
  induction profiles generalizing usage with
  | nil => exact ⟨rfl, rfl⟩
  | cons q rest ih =>
    obtain ⟨hq, hrest⟩ := List.nodup_cons.mp hnodup
    obtain ⟨hbooked, hcompleted⟩ := ih hrest (bookJobs q 0 (failed q) 0 atMs usage)
    rw [List.foldl_cons, hbooked, hcompleted, bookJobs_booked, bookJobs_completed]
    by_cases hp : q = p
    · subst hp
      simp [hq]
    · have hne : ¬ p = q := fun he => hp he.symm
      simp [hp, hne]

end Bookings

/-! ### One call -/

section Calls
variable {ttlMs : Nat} {profileId : String} {s : Ledger}

/-- A call moves the jobs of a profile, and no others. -/
structure Balanced (ttlMs : Nat) (profileId : String) (s : Ledger) (call : Call) : Prop where
  jobs : (s.next ttlMs call).bookedJobs profileId + (s.next ttlMs call).running profileId +
      (s.swept ttlMs profileId call + s.freed profileId call) =
    s.bookedJobs profileId + s.running profileId +
      (s.dispatches profileId call + s.direct profileId call)
  completed : (s.next ttlMs call).completedJobs profileId =
    s.completedJobs profileId + s.successes profileId call

/-- A call that leaves the reservations and the bookings alone. -/
theorem Balanced.of_same {call : Call}
    (hrows : (s.next ttlMs call).reservations = s.reservations)
    (hjobs : (s.next ttlMs call).profileUsage = s.profileUsage)
    (hflow : s.swept ttlMs profileId call = 0 ∧ s.freed profileId call = 0 ∧
      s.dispatches profileId call = 0 ∧ s.direct profileId call = 0 ∧
      s.successes profileId call = 0) : Balanced ttlMs profileId s call := by
  obtain ⟨h1, h2, h3, h4, h5⟩ := hflow
  constructor
  · rw [h1, h2, h3, h4, bookedJobs, bookedJobs, running, running, hrows, hjobs]
  · rw [h5, completedJobs, completedJobs, hjobs, Nat.add_zero]

/-- The rows after a reservation: the expired ones are gone, and its own row is kept or new. -/
def Reserved (jobId : String) (nowMs : UInt64) (s s' : Ledger) : Prop :=
  s'.profileUsage = s.profileUsage ∧
  ((∃ f : Reservation → Reservation,
      (∀ r, (f r).profileId = r.profileId ∧ (f r).dispatchedAtMs = r.dispatchedAtMs) ∧
      s'.reservations =
        modify jobId f (retain (fun _ r => !r.expired (sqliteMillis nowMs)) s.reservations)) ∨
    ∃ row : Reservation, row.dispatchedAtMs = none ∧
      (retain (fun _ r => !r.expired (sqliteMillis nowMs)) s.reservations).lookup jobId = none ∧
      s'.reservations =
        (retain (fun _ r => !r.expired (sqliteMillis nowMs)) s.reservations).insert jobId row)

theorem reserveRows_ok {config : ServerlessConfig} {jobId schoolId accountId : String}
    {nowMs : UInt64} {profile : ServerlessProfile} {s' : Ledger}
    (h : s.reserveRows ttlMs config jobId schoolId accountId nowMs = .ok (profile, s')) :
    Reserved jobId nowMs s s' := by
  unfold reserveRows at h
  split at h
  · cases h
  · dsimp only at h
    split at h
    · cases h
    · split at h
      · split at h
        · cases h
        · cases h
          refine ⟨rfl, Or.inl ⟨fun r => { r with
            schoolId := if r.schoolId = "" then normalizedOwnerPart schoolId else r.schoolId
            accountId := if r.accountId = "" then normalizedOwnerPart accountId else r.accountId },
            fun r => ⟨rfl, rfl⟩, rfl⟩⟩
      · rename_i hnone
        cases h
        exact ⟨rfl, Or.inr ⟨_, rfl, hnone, rfl⟩⟩

/-- A reservation answers an error and does nothing, or its rows are written. -/
theorem reserve_cases (config : ServerlessConfig) (jobId schoolId accountId : String) (m : Moment) :
    (∃ error, s.reserve ttlMs config jobId schoolId accountId m = (.error error, s)) ∨
    ∃ profile s', s.reserve ttlMs config jobId schoolId accountId m = (.ok profile, s') ∧
      Reserved (trim jobId) m.nowMs s s' := by
  unfold reserve
  split
  · exact Or.inl ⟨_, rfl⟩
  · unfold refusableTransaction
    split
    · exact Or.inl ⟨_, rfl⟩
    · cases hrows : s.reserveRows ttlMs config (trim jobId) schoolId accountId m.nowMs with
      | error error => exact Or.inl ⟨error, rfl⟩
      | ok answer => exact Or.inr ⟨answer.1, answer.2, rfl, reserveRows_ok hrows⟩

/-- The rows of a profile that run, before and after expired rows are deleted. -/
theorem running_retain (atMs : Nat) (profileId : String) (s : Ledger) :
    Table.count (fun r => decide (r.profileId = profileId) && r.dispatched)
      (retain (fun _ r => !r.expired atMs) s.reservations) + s.expiredDispatched atMs profileId =
        s.running profileId := by
  have h := count_retain_add (fun r : Reservation => decide (r.profileId = profileId) && r.dispatched)
    (fun r => !r.expired atMs) s.reservations
  have hsame : Table.count (fun r : Reservation => (decide (r.profileId = profileId) && r.dispatched) &&
      !!r.expired atMs) s.reservations = s.expiredDispatched atMs profileId := by
    unfold expiredDispatched
    congr 1
    funext r
    cases decide (r.profileId = profileId) <;> cases r.dispatched <;> cases r.expired atMs <;> rfl
  rw [hsame] at h
  exact h

theorem Balanced.reserve (config : ServerlessConfig) (jobId schoolId accountId : String) (m : Moment) :
    Balanced ttlMs profileId s (.reserve config jobId schoolId accountId m) := by
  rcases reserve_cases config jobId schoolId accountId m with
    ⟨error, heq⟩ | ⟨profile, s', heq, hjobs, hrows⟩
  · apply Balanced.of_same
    · rw [next, heq]
    · rw [next, heq]
    · refine ⟨?_, rfl, rfl, rfl, rfl⟩
      rw [swept, heq]
  · have hrunning : s'.running profileId + s.expiredDispatched (sqliteMillis m.nowMs) profileId =
        s.running profileId := by
      rw [← running_retain (sqliteMillis m.nowMs) profileId s]
      congr 1
      rcases hrows with ⟨f, hf, hrows⟩ | ⟨row, hrow, hnone, hrows⟩
      · rw [running, hrows]
        apply count_modify
        intro r
        rw [(hf r).1, Reservation.dispatched, Reservation.dispatched, (hf r).2]
      · rw [running, hrows, count_insert hnone, Reservation.dispatched, hrow]
        simp
    have hswept : s.swept ttlMs profileId (.reserve config jobId schoolId accountId m) =
        s.expiredDispatched (sqliteMillis m.nowMs) profileId := by
      rw [swept, heq]
    constructor
    · rw [hswept, next, heq, bookedJobs, bookedJobs, hjobs]
      simp only [freed, dispatches, direct]
      omega
    · rw [next, heq, completedJobs, completedJobs, hjobs]
      rfl

/-- What a call on one reservation finds. -/
theorem meets_of_lookup {jobId : String} {m : Moment} {r : Reservation} (hm : m.fault = none)
    (hl : s.reservations.lookup jobId = some r) (p : Reservation → Bool) :
    s.meets profileId jobId m p = if (decide (r.profileId = profileId) && p r) = true then 1 else 0 := by
  unfold meets
  rw [hl, Option.any_some]
  simp [hm]

theorem meets_of_none {jobId : String} {m : Moment}
    (h : m.fault ≠ none ∨ s.reservations.lookup jobId = none) (p : Reservation → Bool) :
    s.meets profileId jobId m p = 0 := by
  unfold meets
  rw [if_neg]
  rintro ⟨hm, hany⟩
  rcases h with h | h
  · exact h hm
  · rw [h] at hany
    cases hany

theorem Balanced.markDispatched (jobId : String) (m : Moment) :
    Balanced ttlMs profileId s (.markDispatched jobId m) := by
  by_cases hm : m.fault = none
  · cases hl : s.reservations.lookup jobId with
    | none =>
      apply Balanced.of_same
      · simp only [next, Ledger.markDispatched, hm, hl]
      · simp only [next, Ledger.markDispatched, hm, hl]
      · exact ⟨rfl, rfl, meets_of_none (Or.inr hl) _, rfl, rfl⟩
    | some r =>
      have hcount := count_modify_at (p := fun r : Reservation =>
        decide (r.profileId = profileId) && r.dispatched) hl fun r => { r with
          dispatchedAtMs := r.dispatchedAtMs.or (some (sqliteMillis m.nowMs))
          expiresAtMs := max r.expiresAtMs (laterMs m.nowMs ttlMs) }
      have hset : ∀ at? : Option Nat, (at?.or (some (sqliteMillis m.nowMs))).isSome = true := by
        intro at?
        cases at? <;> rfl
      simp only [Reservation.dispatched, hset, Bool.and_true] at hcount
      constructor
      · simp only [next, Ledger.markDispatched, hm, hl, bookedJobs, running, swept, freed, dispatches,
          direct, meets_of_lookup hm hl, Reservation.dispatched]
        by_cases hp : r.profileId = profileId
        · cases hd : r.dispatchedAtMs.isSome with
          | true =>
            simp only [hp, hd, decide_true, Bool.and_true, if_true, Bool.true_and, Bool.not_true,
              Bool.false_eq_true, if_false] at hcount ⊢
            omega
          | false =>
            simp only [hp, hd, decide_true, Bool.and_false, if_true, Bool.true_and, Bool.not_false,
              Bool.false_eq_true, if_false] at hcount ⊢
            omega
        · simp only [hp, decide_false, Bool.false_and, Bool.false_eq_true, if_false] at hcount ⊢
          omega
      · simp only [next, Ledger.markDispatched, hm, hl, completedJobs, successes, Nat.add_zero]
  · apply Balanced.of_same
    · cases hf : m.fault with
      | none => exact absurd hf hm
      | some error => simp only [next, Ledger.markDispatched, hf]
    · cases hf : m.fault with
      | none => exact absurd hf hm
      | some error => simp only [next, Ledger.markDispatched, hf]
    · exact ⟨rfl, rfl, meets_of_none (Or.inl hm) _, rfl, rfl⟩

theorem Balanced.markCancelRequested (jobId : String) (m : Moment) :
    Balanced ttlMs profileId s (.markCancelRequested jobId m) := by
  cases hf : m.fault with
  | some error =>
    apply Balanced.of_same
    · simp only [next, Ledger.markCancelRequested, hf]
    · simp only [next, Ledger.markCancelRequested, hf]
    · exact ⟨rfl, rfl, rfl, rfl, rfl⟩
  | none =>
    cases hl : s.reservations.lookup jobId with
    | none =>
      apply Balanced.of_same
      · simp only [next, Ledger.markCancelRequested, hf, hl]
      · simp only [next, Ledger.markCancelRequested, hf, hl]
      · exact ⟨rfl, rfl, rfl, rfl, rfl⟩
    | some r =>
      constructor
      · simp only [next, Ledger.markCancelRequested, hf, hl, bookedJobs, running, swept, freed,
          dispatches, direct]
        rw [count_modify]
        exact fun r => rfl
      · simp only [next, Ledger.markCancelRequested, hf, hl, completedJobs, successes, Nat.add_zero]

/-- Every outcome but a release is booked once. -/
theorem booked_once {outcome : ReservationOutcome} (h : outcome ≠ .released) :
    (if outcome = .completed then 1 else 0) + (if outcome = .failed then 1 else 0) +
      (if outcome = .cancelled then 1 else 0) = 1 := by
  cases outcome with
  | completed => rfl
  | failed => rfl
  | cancelled => rfl
  | released => exact absurd rfl h

theorem Balanced.reconcileOutcome (jobId : String) (outcome : ReservationOutcome) (m : Moment) :
    Balanced ttlMs profileId s (.reconcileOutcome jobId outcome m) := by
  cases hf : m.fault with
  | some error =>
    have hm : m.fault ≠ none := by rw [hf]; exact Option.some_ne_none _
    apply Balanced.of_same
    · simp only [next, Ledger.reconcileOutcome, hf]
    · simp only [next, Ledger.reconcileOutcome, hf]
    · simp [swept, freed, dispatches, direct, successes, meets_of_none (Or.inl hm)]
  | none =>
    cases hl : s.reservations.lookup jobId with
    | none =>
      apply Balanced.of_same
      · simp only [next, Ledger.reconcileOutcome, hf, hl]
      · simp only [next, Ledger.reconcileOutcome, hf, hl]
      · simp [swept, freed, dispatches, direct, successes, meets_of_none (Or.inr hl)]
    | some r =>
      have hcount := count_erase (p := fun r : Reservation =>
        decide (r.profileId = profileId) && r.dispatched) hl
      constructor
      · simp only [next, Ledger.reconcileOutcome, hf, hl, bookedJobs, running, swept, freed, dispatches,
          direct, meets_of_lookup hf hl]
        rw [hcount]
        by_cases hrel : outcome = .released
        · simp only [hrel, if_true]
          omega
        · have hkept : (if r.cancelRequestedAtMs.isSome = true then ReservationOutcome.cancelled
              else outcome) ≠ .released := by
            split
            · exact ReservationOutcome.noConfusion
            · exact hrel
          simp only [hrel, if_false, hkept]
          rw [bookJobs_booked, booked_once hkept]
          by_cases hp : r.profileId = profileId
          · cases hd : r.dispatched with
            | true =>
              simp only [hp, decide_true, Bool.and_self, if_true, Bool.not_true, Bool.and_false,
                Bool.false_eq_true, if_false]
              omega
            | false =>
              simp only [hp, decide_true, Bool.and_false, Bool.false_eq_true, if_false, if_true,
                Bool.not_false, Bool.and_self]
              omega
          · simp only [hp, decide_false, Bool.false_and, Bool.false_eq_true, if_false]
            omega
      · simp only [next, Ledger.reconcileOutcome, hf, hl, completedJobs, successes,
          meets_of_lookup hf hl]
        by_cases hrel : outcome = .released
        · simp [hrel]
        · have hkept : (if r.cancelRequestedAtMs.isSome = true then ReservationOutcome.cancelled
              else outcome) ≠ .released := by
            split
            · exact ReservationOutcome.noConfusion
            · exact hrel
          simp only [hrel, if_false, hkept]
          rw [bookJobs_completed]
          cases hcancel : r.cancelRequestedAtMs.isSome with
          | true => simp
          | false =>
            by_cases hcompleted : outcome = .completed
            · simp [hcompleted]
            · simp [hcompleted]

theorem Balanced.releaseBeforeDispatch (jobId : String) (m : Moment) :
    Balanced ttlMs profileId s (.releaseBeforeDispatch jobId m) := by
  cases hf : m.fault with
  | some error =>
    apply Balanced.of_same
    · simp only [next, Ledger.releaseBeforeDispatch, hf]
    · simp only [next, Ledger.releaseBeforeDispatch, hf]
    · exact ⟨rfl, rfl, rfl, rfl, rfl⟩
  | none =>
    cases hl : (s.reservations.lookup jobId).filter fun r => !r.dispatched with
    | none =>
      apply Balanced.of_same
      · simp only [next, Ledger.releaseBeforeDispatch, hf, hl]
      · simp only [next, Ledger.releaseBeforeDispatch, hf, hl]
      · exact ⟨rfl, rfl, rfl, rfl, rfl⟩
    | some r =>
      obtain ⟨hlookup, hwaiting⟩ := Option.filter_eq_some_iff.mp hl
      rw [Bool.not_eq_true'] at hwaiting
      have hcount := count_erase (p := fun r : Reservation =>
        decide (r.profileId = profileId) && r.dispatched) hlookup
      rw [hwaiting, Bool.and_false, if_neg Bool.false_ne_true, Nat.zero_add] at hcount
      constructor
      · simp only [next, Ledger.releaseBeforeDispatch, hf, hl, bookedJobs, running, swept, freed,
          dispatches, direct, hcount]
      · simp only [next, Ledger.releaseBeforeDispatch, hf, hl, completedJobs, successes, Nat.add_zero]

/-- A profile without expired dispatched rows is not booked. -/
theorem expiredDispatched_pos {atMs : Nat} (h : 0 < s.expiredDispatched atMs profileId) :
    profileId ∈ (((toList s.reservations).filter fun e => e.2.expired atMs && e.2.dispatched).map
      fun e => e.2.profileId).dedup := by
  unfold expiredDispatched Table.count at h
  obtain ⟨e, he⟩ := List.exists_mem_of_length_pos h
  obtain ⟨hmem, hcond⟩ := List.mem_filter.mp he
  dsimp only at hcond
  rw [Bool.and_assoc, Bool.and_eq_true, decide_eq_true_eq] at hcond
  rw [List.mem_dedup, List.mem_map]
  refine ⟨(e.1, e.2), List.mem_filter.mpr ⟨?_, hcond.2⟩, hcond.1⟩
  exact List.mem_map.mpr ⟨e, hmem, rfl⟩

theorem Balanced.pruneExpired (m : Moment) : Balanced ttlMs profileId s (.pruneExpired m) := by
  cases hf : m.fault with
  | some error =>
    apply Balanced.of_same
    · simp only [next, Ledger.pruneExpired, hf]
    · simp only [next, Ledger.pruneExpired, hf]
    · exact ⟨rfl, rfl, rfl, rfl, rfl⟩
  | none =>
    have hrunning := running_retain (sqliteMillis m.nowMs) profileId s
    obtain ⟨hbooked, hcompleted⟩ := foldl_bookJobs (sqliteMillis m.nowMs)
      (fun p => s.expiredDispatched (sqliteMillis m.nowMs) p)
      (((toList s.reservations).filter fun e =>
        e.2.expired (sqliteMillis m.nowMs) && e.2.dispatched).map fun e => e.2.profileId).dedup
      (List.nodup_dedup _) s.profileUsage profileId
    constructor
    · simp only [next, Ledger.pruneExpired, hf, bookedJobs, running, swept, freed, dispatches, direct]
      rw [hbooked]
      unfold running at hrunning
      split
      · omega
      · rename_i hnot
        have hzero : s.expiredDispatched (sqliteMillis m.nowMs) profileId = 0 := by
          by_contra hne
          exact hnot (expiredDispatched_pos (Nat.pos_of_ne_zero hne))
        omega
    · simp only [next, Ledger.pruneExpired, hf, completedJobs, successes, Nat.add_zero]
      exact hcompleted

/-- Every call is balanced. -/
theorem Balanced.call (call : Call) : Balanced ttlMs profileId s call := by
  cases call with
  | reserve config jobId schoolId accountId m =>
    exact Balanced.reserve config jobId schoolId accountId m
  | markDispatched jobId m => exact Balanced.markDispatched jobId m
  | markCancelRequested jobId m => exact Balanced.markCancelRequested jobId m
  | reconcileOutcome jobId outcome m => exact Balanced.reconcileOutcome jobId outcome m
  | releaseBeforeDispatch jobId m => exact Balanced.releaseBeforeDispatch jobId m
  | pruneExpired m => exact Balanced.pruneExpired m
  | recordExecutionRequested jobId schoolId accountId executor m =>
    apply Balanced.of_same
    · unfold next Ledger.recordExecutionRequested
      dsimp only
      split <;> rfl
    · unfold next Ledger.recordExecutionRequested
      dsimp only
      split <;> rfl
    · exact ⟨rfl, rfl, rfl, rfl, rfl⟩
  | recordExecutionStarted jobId schoolId accountId executor m =>
    apply Balanced.of_same
    · unfold next Ledger.recordExecutionStarted
      dsimp only
      split <;> rfl
    · unfold next Ledger.recordExecutionStarted
      dsimp only
      split <;> rfl
    · exact ⟨rfl, rfl, rfl, rfl, rfl⟩
  | recordExecutionOutcome jobId schoolId accountId executor outcome m =>
    apply Balanced.of_same
    · unfold next Ledger.recordExecutionOutcome
      dsimp only
      split <;> rfl
    · unfold next Ledger.recordExecutionOutcome
      dsimp only
      split <;> rfl
    · exact ⟨rfl, rfl, rfl, rfl, rfl⟩

end Calls

/-- Over every run of calls from an empty ledger and for every profile: what was dispatched, and what
was booked without a dispatch, is running, booked as exactly one outcome, swept by a reservation that
found it expired, or released; and as many jobs are booked as completed as successes were reported for
reservations whose cancellation had not been asked for. -/
theorem jobs_conserved (ttlMs : Nat) (calls : List Call) (profileId : String) :
    (calls.foldl (next ttlMs) empty).bookedJobs profileId +
        (calls.foldl (next ttlMs) empty).running profileId +
        (Flow.along (next ttlMs) (swept ttlMs profileId) empty calls +
          Flow.along (next ttlMs) (freed profileId) empty calls) =
      Flow.along (next ttlMs) (dispatches profileId) empty calls +
        Flow.along (next ttlMs) (direct profileId) empty calls ∧
    (calls.foldl (next ttlMs) empty).completedJobs profileId =
      Flow.along (next ttlMs) (successes profileId) empty calls := by
  constructor
  · have h := Flow.conserved (next ttlMs) (fun s => s.bookedJobs profileId + s.running profileId)
      (fun s call => s.dispatches profileId call + s.direct profileId call)
      (fun s call => s.swept ttlMs profileId call + s.freed profileId call)
      (fun s call => (Balanced.call call).jobs) empty calls
    rw [Flow.along_add, Flow.along_add] at h
    have hzero : empty.bookedJobs profileId + empty.running profileId = 0 := rfl
    omega
  · have h := Flow.raised (next ttlMs) (completedJobs profileId) (successes profileId)
      (fun s call => (Balanced.call call).completed) empty calls
    have hzero : empty.completedJobs profileId = 0 := rfl
    omega

end Ledger

end TkbCherry.Serverless
