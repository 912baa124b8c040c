import TkbCherry.Pool.Edits
import TkbCherry.Pool.Admission

/-!
# The admission queue

The two acquisitions prune the queue and then do one of five things. Fairness, ownership and
the life of a ticket are read off that list.
-/

namespace TkbCherry.Pool

set_option autoImplicit false

open Table

/-- The first place where a test succeeds splits the list. -/
theorem split_of_findIdx? {α : Type} {p : α → Bool} {l : List α} {i : Nat}
    (h : l.findIdx? p = some i) : ∃ front x back, l = front ++ x :: back ∧ front.length = i ∧
      l[i]? = some x ∧ p x = true ∧ ∀ y ∈ front, p y = false := by
  obtain ⟨hi, hp, hbefore⟩ := List.findIdx?_eq_some_iff_getElem.mp h
  refine ⟨l.take i, l[i], l.drop (i + 1), ?_, ?_, List.getElem?_eq_getElem hi, hp, ?_⟩
  · rw [List.getElem_cons_drop, List.take_append_drop]
  · rw [List.length_take, Nat.min_eq_left (Nat.le_of_lt hi)]
  · intro y hy
    obtain ⟨j, hj, rfl⟩ := List.mem_take_iff_getElem.mp hy
    have hlt : j < i := by omega
    simpa using hbefore j hlt

theorem modify_append_cons {α : Type} (f : α → α) (front : List α) (x : α) (back : List α) :
    (front ++ x :: back).modify front.length f = front ++ f x :: back := by
  induction front with
  | nil => rfl
  | cons y front ih =>
    rw [List.cons_append, List.length_cons, List.modify_succ_cons, ih]
    rfl

/-- What an acquisition does once stale tickets are gone. -/
inductive Acquisition (config : Config) (jobId : String) (owner : SolverOwner) (nowMs : Nat) :
    PoolState → PoolState → Prop
  | refused (s : PoolState) : Acquisition config jobId owner nowMs s s
  /-- The caller's ticket is kept alive where it stands. -/
  | seen {s : PoolState} {front back : List QueuedSolverJob} {queued : QueuedSolverJob}
      (queue : s.queue = front ++ queued :: back) (named : queued.jobId = jobId)
      (owned : queued.owner = owner) :
      Acquisition config jobId owner nowMs s
        { s with queue := front ++ { queued with lastSeenMs := nowMs } :: back }
  /-- The caller's ticket is at the front, and the job fits. -/
  | first {s : PoolState} {queued : QueuedSolverJob} {rest : List QueuedSolverJob}
      (queue : s.queue = queued :: rest) (named : queued.jobId = jobId)
      (owned : queued.owner = owner) (unblocked : Config.blockedByServerJob s jobId owner = false)
      (idle : s.jobs.lookup jobId = none) :
      Acquisition config jobId owner nowMs s
        (config.insertJob { s with queue := rest } jobId queued.desiredWorkers owner nowMs).1
  /-- Nobody waits, and the job fits. -/
  | direct {s : PoolState} (workers : Nat) (queue : s.queue = [])
      (unblocked : Config.blockedByServerJob s jobId owner = false)
      (idle : s.jobs.lookup jobId = none) :
      Acquisition config jobId owner nowMs s (config.insertJob s jobId workers owner nowMs).1
  | enqueued {s : PoolState} (workers : Nat) (absent : ∀ queued ∈ s.queue, queued.jobId ≠ jobId)
      (unblocked : Config.blockedByServerJob s jobId owner = false)
      (idle : s.jobs.lookup jobId = none) :
      Acquisition config jobId owner nowMs s
        { s with queue := s.queue ++ [⟨jobId, nowMs, nowMs, workers, owner⟩] }

namespace Config
variable (config : Config) (s : PoolState) (jobId : String) (desiredWorkers : Nat)
  (owner : SolverOwner) (nowMs : Nat)

theorem tryAcquire_acquisition : Acquisition config jobId owner nowMs (pruneStaleQueue s nowMs)
    (config.tryAcquireForOwner s jobId desiredWorkers owner nowMs).1 := by
  unfold tryAcquireForOwner
  simp only
  split
  · exact .refused _
  · rename_i hopen
    split
    · exact .refused _
    · rename_i hbusy
      simp only [Bool.or_eq_true, Bool.not_eq_true', decide_eq_true_eq, not_or,
        Bool.not_eq_false, List.isEmpty_iff, Option.not_isSome_iff_eq_none, Nat.not_le] at hbusy
      obtain ⟨⟨hempty, hidle⟩, _⟩ := hbusy
      split
      · exact .refused _
      · exact .direct _ hempty (by simpa using hopen) hidle

/-- The end of an acquisition does nothing or runs the front of the queue. -/
theorem admitFront_cases : (config.admitFront s jobId nowMs).1 = s ∨
    ∃ queued rest, s.queue = queued :: rest ∧ queued.jobId = jobId ∧
      size s.jobs < config.maxConcurrent ∧ config.availableWorkers s ≥ queued.desiredWorkers ∧
      (config.admitFront s jobId nowMs).1 = (config.insertJob { s with queue := rest }
        queued.jobId queued.desiredWorkers queued.owner nowMs).1 := by
  unfold admitFront
  split
  · rename_i queued rest hqueue
    split
    · rename_i hfits
      exact .inr ⟨queued, rest, hqueue, hfits.1, hfits.2.1, hfits.2.2, rfl⟩
    · split <;> exact .inl rfl
  · exact .inl rfl

theorem acquireOrEnqueue_acquisition :
    Acquisition config jobId owner nowMs (pruneStaleQueue s nowMs)
      (config.acquireOrEnqueueForOwner s jobId desiredWorkers owner nowMs).1 := by
  unfold acquireOrEnqueueForOwner
  simp only
  generalize pruneStaleQueue s nowMs = s
  split
  · exact .refused _
  · rename_i hopen
    have hopen : Config.blockedByServerJob s jobId owner = false := by simpa using hopen
    split
    · exact .refused _
    · rename_i hidle
      have hidle : s.jobs.lookup jobId = none := by simpa using hidle
      split
      · rename_i index hfind
        obtain ⟨front, mine, back, hqueue, hindex, hget, hmine, hfront⟩ := split_of_findIdx? hfind
        have hnamed : mine.jobId = jobId := of_decide_eq_true hmine
        split
        · exact .refused _
        · rename_i howned
          have howned : mine.owner = owner := by simpa [hget] using howned
          have hmodify : s.queue.modify index (fun queued => { queued with lastSeenMs := nowMs }) =
              front ++ { mine with lastSeenMs := nowMs } :: back := by
            rw [hqueue, ← hindex]
            exact modify_append_cons _ front mine back
          rw [hmodify]
          rcases admitFront_cases config { s with
              queue := front ++ { mine with lastSeenMs := nowMs } :: back } jobId nowMs with
            hstay | ⟨queued, rest, hq, hid, _, _, hfront'⟩
          · rw [hstay]
            exact .seen hqueue hnamed howned
          · rw [hfront']
            -- the front of the queue is the first ticket with this id
            cases front with
            | nil =>
              obtain ⟨rfl, rfl⟩ := List.cons.inj hq
              have hrun : Acquisition config jobId owner nowMs s (config.insertJob
                  { s with queue := back } jobId mine.desiredWorkers owner nowMs).1 :=
                .first hqueue hnamed howned hopen hidle
              rw [← hnamed, ← howned] at hrun ⊢
              exact hrun
            | cons other front =>
              obtain ⟨hsame, _⟩ := List.cons.inj hq
              have hother := hfront other List.mem_cons_self
              simp [hsame, hid] at hother
      · rename_i hfind
        have habsent : ∀ queued ∈ s.queue, queued.jobId ≠ jobId := by
          simpa using hfind
        split
        · rename_i hfree
          simp only [Bool.and_eq_true, List.isEmpty_iff] at hfree
          exact .direct _ hfree.1.1 hopen hidle
        · rename_i hfull
          rcases admitFront_cases config { s with queue := s.queue ++
              [⟨jobId, nowMs, nowMs, config.normalizedWorkerDemand desiredWorkers, owner⟩] } jobId
              nowMs with hstay | ⟨queued, rest, hq, hid, hslot, hfits, _⟩
          · rw [hstay]
            exact .enqueued _ habsent hopen hidle
          · -- a new ticket at the front would have been admitted at once
            cases hs : s.queue with
            | nil =>
              have hq' : [(⟨jobId, nowMs, nowMs, config.normalizedWorkerDemand desiredWorkers,
                  owner⟩ : QueuedSolverJob)] = queued :: rest := by
                rw [← hq, hs]
                rfl
              obtain ⟨rfl, _⟩ := List.cons.inj hq'
              refine absurd ?_ hfull
              simp only [hs, List.isEmpty_nil, Bool.true_and, Bool.and_eq_true, decide_eq_true_eq]
              exact ⟨hslot, hfits⟩
            | cons other front =>
              have hq' : other :: (front ++ [(⟨jobId, nowMs, nowMs,
                  config.normalizedWorkerDemand desiredWorkers, owner⟩ : QueuedSolverJob)]) =
                  queued :: rest := by
                rw [← hq, hs]
                rfl
              obtain ⟨rfl, _⟩ := List.cons.inj hq'
              exact absurd hid (habsent other (hs ▸ List.mem_cons_self))

end Config

theorem ticket_eq {queued queued' : QueuedSolverJob} (h : ticket queued = ticket queued') :
    queued.jobId = queued'.jobId ∧ queued.owner = queued'.owner := by
  obtain ⟨hid, hrest⟩ := Prod.mk.inj h
  exact ⟨hid, (Prod.mk.inj hrest).2⟩

theorem mem_of_pruneStaleQueue {s : PoolState} {nowMs : Nat} {queued : QueuedSolverJob}
    (h : queued ∈ (pruneStaleQueue s nowMs).queue) : queued ∈ s.queue :=
  (List.mem_filter.mp h).1

section Origins
variable {config : Config} {jobId : String} {owner : SolverOwner} {nowMs : Nat} {s s' : PoolState}

theorem insertJob_lookup (config : Config) (s : PoolState) (jobId : String) (workers : Nat)
    (owner : SolverOwner) (nowMs : Nat) (id : String) :
    (config.insertJob s jobId workers owner nowMs).1.jobs.lookup id =
      if id = jobId then some (config.insertJob s jobId workers owner nowMs).2
      else s.jobs.lookup id := by
  split
  · rename_i hid
    rw [hid]
    exact AList.lookup_insert s.jobs
  · rename_i hid
    exact AList.lookup_insert_ne hid

/-- A ticket after an acquisition is an old one, or it is the caller's new one. -/
theorem Acquisition.queue_origin (h : Acquisition config jobId owner nowMs s s')
    {queued' : QueuedSolverJob} (hin : queued' ∈ s'.queue) :
    (∃ queued ∈ s.queue, ticket queued = ticket queued') ∨
      (queued'.jobId = jobId ∧ queued'.owner = owner ∧
        Config.blockedByServerJob s jobId owner = false ∧ s.jobs.lookup jobId = none ∧
        ∀ queued ∈ s.queue, queued.jobId ≠ jobId) := by
  cases h with
  | refused => exact .inl ⟨queued', hin, rfl⟩
  | @seen front back queued queue named owned =>
    rw [queue]
    rcases List.mem_append.mp hin with hfront | hrest
    · exact .inl ⟨queued', List.mem_append_left _ hfront, rfl⟩
    · rcases List.mem_cons.mp hrest with rfl | hback
      · exact .inl ⟨queued, by simp, rfl⟩
      · exact .inl ⟨queued', by simp [hback], rfl⟩
  | @first queued rest queue =>
    refine .inl ⟨queued', ?_, rfl⟩
    rw [queue]
    exact List.mem_cons_of_mem _ hin
  | direct workers queue => exact .inl ⟨queued', hin, rfl⟩
  | enqueued workers absent unblocked idle =>
    rcases List.mem_append.mp hin with hold | hnew
    · exact .inl ⟨queued', hold, rfl⟩
    · obtain rfl := List.mem_singleton.mp hnew
      exact .inr ⟨rfl, rfl, unblocked, idle, absent⟩

/-- A running entry after an acquisition is an old one, or it is the caller's new one. -/
theorem Acquisition.jobs_origin (h : Acquisition config jobId owner nowMs s s') {id : String}
    {job' : SolverJob} (hl : s'.jobs.lookup id = some job') :
    s.jobs.lookup id = some job' ∨
      (id = jobId ∧ job'.owner = owner ∧ s.jobs.lookup jobId = none ∧
        (s.queue = [] ∨ ∃ queued ∈ s.queue, queued.jobId = jobId ∧ queued.owner = owner)) := by
  cases h with
  | refused | seen | enqueued => exact .inl hl
  | @first queued rest queue named owned unblocked idle =>
    rw [insertJob_lookup] at hl
    split at hl
    · rename_i hid
      obtain rfl := Option.some.inj hl
      exact .inr ⟨hid, rfl, idle, .inr ⟨queued, by rw [queue]; exact List.mem_cons_self, named,
        owned⟩⟩
    · exact .inl hl
  | direct workers queue unblocked idle =>
    rw [insertJob_lookup] at hl
    split at hl
    · rename_i hid
      obtain rfl := Option.some.inj hl
      exact .inr ⟨hid, rfl, idle, .inl queue⟩
    · exact .inl hl

end Origins

/-- What an acquisition is about: the job, its owner and the time. -/
def Op.acquisition : Op → Option (String × SolverOwner × Nat)
  | .tryAcquire jobId _ owner nowMs => some (jobId, owner, nowMs)
  | .acquireOrEnqueue jobId _ owner nowMs => some (jobId, owner, nowMs)
  | _ => none

/-- A call adds no ticket and no running job, or it is an acquisition. -/
theorem step_cases (config : Config) (s : PoolState) (op : Op) :
    (op.acquisition = none ∧ Shrinks s (step config s op).1) ∨
      ∃ jobId owner nowMs, op.acquisition = some (jobId, owner, nowMs) ∧
        Acquisition config jobId owner nowMs (pruneStaleQueue s nowMs) (step config s op).1 ∧
        (step config s op).1.serverJobs = s.serverJobs := by
  cases hop : op.adds with
  | false =>
    refine .inl ⟨?_, (step_serves config s hop).toShrinks⟩
    cases op <;> first | rfl | simp [Op.adds] at hop
  | true =>
    cases op with
    | claim jobId owner request nowMs =>
      exact .inl ⟨rfl, claimServerJob_shrinks s jobId owner request nowMs⟩
    | tryAcquire jobId desiredWorkers owner nowMs =>
      exact .inr ⟨jobId, owner, nowMs, rfl, config.tryAcquire_acquisition s jobId desiredWorkers
        owner nowMs, tryAcquire_serverJobs config s jobId desiredWorkers owner nowMs⟩
    | acquireOrEnqueue jobId desiredWorkers owner nowMs =>
      exact .inr ⟨jobId, owner, nowMs, rfl, config.acquireOrEnqueue_acquisition s jobId
        desiredWorkers owner nowMs,
        acquireOrEnqueue_serverJobs config s jobId desiredWorkers owner nowMs⟩
    | _ => simp [Op.adds] at hop

end TkbCherry.Pool
