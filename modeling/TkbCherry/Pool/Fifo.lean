import TkbCherry.Pool.Queue

/-!
# First come, first served

`Timed` counts the calls and notes at which one each ticket was enqueued. Along the queue the
notes increase, and both ways into a running slot respect them: the front of the queue, and
an empty queue.
-/

namespace TkbCherry.Pool

set_option autoImplicit false

open Table

/-- The id a call enqueues: it had no live ticket before the call and has one after it. -/
def enqueuedBy (config : Config) (s : PoolState) (op : Op) : Option String :=
  op.acquisition.bind fun named =>
    if (∀ queued ∈ (pruneStaleQueue s named.2.2).queue, queued.jobId ≠ named.1) ∧
        ∃ queued ∈ (step config s op).1.queue, queued.jobId = named.1
    then some named.1 else none

/-- The job runs after the call and did not before it. -/
def Admitted (s s' : PoolState) (id : String) : Prop :=
  s.jobs.lookup id = none ∧ (s'.jobs.lookup id).isSome = true

/-- The pool, the number of calls so far, and when each id was last enqueued. -/
structure Timed where
  pool : PoolState
  count : Nat
  stamp : String → Nat

namespace Timed

def empty : Timed := ⟨.empty, 0, fun _ => 0⟩

def step (config : Config) (t : Timed) (op : Op) : Timed where
  pool := (Pool.step config t.pool op).1
  count := t.count + 1
  stamp := fun id => if enqueuedBy config t.pool op = some id then t.count else t.stamp id

def Steps (config : Config) : Timed → Op → Timed → Prop := Transition.ofFn (step config)

/-- When a job came: at its live ticket's time, or with this call. -/
def arrival (t : Timed) (nowMs : Nat) (id : String) : Nat :=
  if (pruneStaleQueue t.pool nowMs).queue.any fun queued => decide (queued.jobId = id)
  then t.stamp id else t.count

/-- The tickets' times, front first. -/
def stamps (t : Timed) (queue : List QueuedSolverJob) : List Nat :=
  queue.map fun queued => t.stamp queued.jobId

/-- Along the queue the times increase, and all of them are past. -/
structure Ordered (t : Timed) : Prop where
  increasing : (t.stamps t.pool.queue).Pairwise (· < ·)
  past : ∀ queued ∈ t.pool.queue, t.stamp queued.jobId < t.count

section Step
variable {config : Config} {t : Timed} {op : Op}

theorem ordered_empty : empty.Ordered where
  increasing := List.Pairwise.nil
  past := fun _ hin => absurd hin List.not_mem_nil

/-- Only tickets go, in whatever places. -/
theorem Ordered.of_sublist (h : t.Ordered) (hnone : enqueuedBy config t.pool op = none)
    (hsub : ((Pool.step config t.pool op).1.queue.map QueuedSolverJob.jobId).Sublist
      (t.pool.queue.map QueuedSolverJob.jobId)) : (t.step config op).Ordered := by
  have hstamp : (t.step config op).stamp = t.stamp := by
    funext id
    simp [step, hnone]
  have hstamps := hsub.map t.stamp
  rw [List.map_map, List.map_map] at hstamps
  constructor
  · unfold stamps
    rw [hstamp]
    exact h.increasing.sublist hstamps
  · intro queued hin
    rw [hstamp]
    have hmem := hsub.subset (List.mem_map_of_mem (f := QueuedSolverJob.jobId) hin)
    obtain ⟨before, hbefore, hid⟩ := List.mem_map.mp hmem
    rw [← hid]
    exact Nat.lt_succ_of_lt (h.past before hbefore)

/-- A new ticket goes to the end. -/
theorem Ordered.of_append (h : t.Ordered) {nowMs : Nat} {queued : QueuedSolverJob}
    (hsome : enqueuedBy config t.pool op = some queued.jobId)
    (habsent : ∀ other ∈ (pruneStaleQueue t.pool nowMs).queue, other.jobId ≠ queued.jobId)
    (hqueue : (Pool.step config t.pool op).1.queue =
      (pruneStaleQueue t.pool nowMs).queue ++ [queued]) : (t.step config op).Ordered := by
  have hnew : (t.step config op).stamp queued.jobId = t.count := by simp [step, hsome]
  have hold : ∀ other ∈ (pruneStaleQueue t.pool nowMs).queue,
      (t.step config op).stamp other.jobId = t.stamp other.jobId := by
    intro other hin
    have hne : ¬ queued.jobId = other.jobId := fun he => habsent other hin he.symm
    simp [step, hsome, hne]
  have hkept : (t.step config op).stamps (pruneStaleQueue t.pool nowMs).queue =
      t.stamps (pruneStaleQueue t.pool nowMs).queue := List.map_congr_left hold
  have hsub : (t.stamps (pruneStaleQueue t.pool nowMs).queue).Sublist (t.stamps t.pool.queue) :=
    List.filter_sublist.map _
  have hpool : (t.step config op).pool.queue =
      (pruneStaleQueue t.pool nowMs).queue ++ [queued] := hqueue
  constructor
  · rw [hpool, stamps, List.map_append]
    refine List.pairwise_append.mpr ⟨?_, List.pairwise_singleton _ _, ?_⟩
    · have hpair := h.increasing.sublist hsub
      rw [← hkept] at hpair
      exact hpair
    · intro before hbefore after hafter
      obtain ⟨other, hin, rfl⟩ := List.mem_map.mp hbefore
      have hpast := h.past other (mem_of_pruneStaleQueue hin)
      rw [← hold other hin, ← hnew] at hpast
      rw [List.mem_singleton.mp hafter]
      exact hpast
  · rw [hpool]
    intro other hin
    rcases List.mem_append.mp hin with hin | hin
    · rw [hold other hin]
      exact Nat.lt_succ_of_lt (h.past other (mem_of_pruneStaleQueue hin))
    · rw [List.mem_singleton.mp hin, hnew]
      exact Nat.lt_succ_self _

theorem enqueuedBy_none (h : op.acquisition = none) : enqueuedBy config t.pool op = none := by
  simp [enqueuedBy, h]

/-- Nothing is enqueued where every id in the queue had a live ticket. -/
theorem enqueuedBy_none_of_sublist {jobId : String} {owner : SolverOwner} {nowMs : Nat}
    (h : op.acquisition = some (jobId, owner, nowMs))
    (hsub : ((Pool.step config t.pool op).1.queue.map QueuedSolverJob.jobId).Sublist
      ((pruneStaleQueue t.pool nowMs).queue.map QueuedSolverJob.jobId)) :
    enqueuedBy config t.pool op = none := by
  simp only [enqueuedBy, h, Option.bind_some]
  rw [if_neg]
  rintro ⟨habsent, queued, hin, hid⟩
  have hmem := hsub.subset (List.mem_map_of_mem (f := QueuedSolverJob.jobId) hin)
  obtain ⟨before, hbefore, hsame⟩ := List.mem_map.mp hmem
  exact habsent before hbefore (hsame.trans hid)

theorem Ordered.step (h : t.Ordered) (config : Config) (op : Op) : (t.step config op).Ordered := by
  rcases step_cases config t.pool op with ⟨hop, hshrinks⟩ | ⟨jobId, owner, nowMs, hop, hacquire, _⟩
  · refine h.of_sublist (enqueuedBy_none hop) ?_
    have hids := hshrinks.queue.map Prod.fst
    rw [List.map_map, List.map_map] at hids
    exact hids
  · have hprune : ((pruneStaleQueue t.pool nowMs).queue.map QueuedSolverJob.jobId).Sublist
        (t.pool.queue.map QueuedSolverJob.jobId) := List.filter_sublist.map _
    have hkeep : ∀ hsub : ((Pool.step config t.pool op).1.queue.map QueuedSolverJob.jobId).Sublist
        ((pruneStaleQueue t.pool nowMs).queue.map QueuedSolverJob.jobId),
        (t.step config op).Ordered :=
      fun hsub => h.of_sublist (enqueuedBy_none_of_sublist hop hsub) (hsub.trans hprune)
    generalize hs : (Pool.step config t.pool op).1 = s' at hacquire
    cases hacquire with
    | refused => exact hkeep (by rw [hs])
    | seen queue =>
      refine hkeep ?_
      rw [hs, queue]
      simp
    | first queue =>
      refine hkeep ?_
      rw [hs, queue]
      exact List.sublist_cons_self _ _
    | direct => exact hkeep (by rw [hs]; exact .refl _)
    | enqueued workers absent =>
      have hqueue := congrArg PoolState.queue hs
      have hnew : enqueuedBy config t.pool op = some jobId := by
        simp only [enqueuedBy, hop, Option.bind_some]
        rw [if_pos ⟨absent, ⟨jobId, nowMs, nowMs, workers, owner⟩, by rw [hqueue]; simp, rfl⟩]
      exact h.of_append hnew absent hqueue

end Step

/-- In every run: a job that a call admits came before every other job whose ticket is not stale
at that call. -/
theorem fifo_admission (config : Config) (ops : List Op) (t : Timed)
    (h : Transition.Run (Steps config) empty ops t) :
    ∀ op id, Admitted t.pool (Pool.step config t.pool op).1 id →
      ∃ owner nowMs, op.acquisition = some (id, owner, nowMs) ∧
        ∀ queued ∈ t.pool.queue, queued.jobId ≠ id → nowMs - queued.lastSeenMs ≤ queueLeaseMs →
          t.arrival nowMs id < t.stamp queued.jobId := by
  have hordered : t.Ordered := h.invariant
    (fun {s op t} hs (hst : s.step config op = t) => hst ▸ hs.step config op) ordered_empty
  rintro op id ⟨hbefore, hafter⟩
  obtain ⟨job, hjob⟩ := Option.isSome_iff_exists.mp hafter
  rcases step_cases config t.pool op with ⟨_, hshrinks⟩ | ⟨jobId, owner, nowMs, hop, hacquire, _⟩
  · obtain ⟨old, hold, _⟩ := hshrinks.jobs id job hjob
    rw [hbefore] at hold
    exact absurd hold (by simp)
  · obtain ⟨rfl, _⟩ : id = jobId ∧ job.owner = owner := by
      rcases hacquire.jobs_origin hjob with hold | ⟨hid, howner, _⟩
      · have hnone : (pruneStaleQueue t.pool nowMs).jobs.lookup id = none := hbefore
        rw [hnone] at hold
        exact absurd hold (by simp)
      · exact ⟨hid, howner⟩
    refine ⟨owner, nowMs, hop, fun queued hin hne hfresh => ?_⟩
    have hlive : queued ∈ (pruneStaleQueue t.pool nowMs).queue :=
      List.mem_filter.mpr ⟨hin, decide_eq_true hfresh⟩
    have hincreasing : (t.stamps (pruneStaleQueue t.pool nowMs).queue).Pairwise (· < ·) :=
      hordered.increasing.sublist (List.filter_sublist.map _)
    have hsame : ∀ s' : PoolState, (Pool.step config t.pool op).1 = s' →
        s'.jobs = t.pool.jobs → False := by
      intro s' hstep hjobs
      rw [hstep, hjobs, hbefore] at hjob
      exact absurd hjob (by simp)
    generalize hs : (Pool.step config t.pool op).1 = s' at hacquire
    cases hacquire with
    | refused => exact (hsame _ hs rfl).elim
    | seen => exact (hsame _ hs rfl).elim
    | enqueued => exact (hsame _ hs rfl).elim
    | @first front rest queue named owned unblocked idle =>
      rw [queue] at hlive hincreasing
      have harrival : t.arrival nowMs id = t.stamp front.jobId := by
        unfold arrival
        rw [queue, named]
        simp [named]
      rw [harrival]
      rcases List.mem_cons.mp hlive with rfl | hrest
      · exact absurd named hne
      · exact (List.pairwise_cons.mp hincreasing).1 _ (List.mem_map_of_mem hrest)
    | direct workers queue =>
      rw [queue] at hlive
      exact absurd hlive List.not_mem_nil

section Line

def lineOwner : SolverOwner := ⟨"s1", "admin"⟩

/-- One job runs on the only slot, two wait, and the first is done. -/
def line : Timed :=
  [Op.tryAcquire "a" 2 lineOwner 0, .acquireOrEnqueue "b" 2 lineOwner 1,
    .acquireOrEnqueue "c" 2 lineOwner 2,
    .dropGuard ⟨"a", 2, false, false, 0, lineOwner, 0⟩].foldl (step ⟨1, 2, 1, 2⟩) empty

theorem fifo_admission_line : line.arrival 3 "b" < line.stamp "c" := by
  obtain ⟨owner, nowMs, hop, hall⟩ := fifo_admission ⟨1, 2, 1, 2⟩ _ line
    (Transition.Run.ofFn_foldl _ _ _) (.acquireOrEnqueue "b" 2 lineOwner 3) "b" ⟨rfl, rfl⟩
  obtain ⟨_, _, rfl⟩ : "b" = "b" ∧ lineOwner = owner ∧ 3 = nowMs := by
    simpa [Op.acquisition] using hop
  exact hall ⟨"c", 2, 2, 2, lineOwner⟩ (by decide) (by decide) (by decide)

end Line

end Timed

end TkbCherry.Pool
