import TkbCherry.Agent.Model
import Mathlib.Data.List.MinMax

/-!
# The replay cache of the external solver

`agent_helper.rs`: a lease builds one CP-SAT model at a time, a few leases at once, and the answer
of a finished build is kept for a while under a budget of bytes. A build is admitted with a guard;
a guard that is dropped without `complete` aborts its build.
-/

namespace TkbCherry.Agent

set_option autoImplicit false

open Table TkbCherry.Pool

def externalCpSatReplayTtlMs : Nat := 2 * 60 * 1000
def maxExternalCpSatReplayBytes : Nat := 64 * 1024 * 1024

/-- `parse::<usize>()`. -/
def parseUsize (text : String) : Option Nat :=
  let digits := match text.toList with
    | '+' :: rest => rest
    | cs => cs
  if digits ≠ [] ∧ digits.all Char.isDigit = true then
    let value := digits.foldl (fun value c => value * 10 + (c.toNat - '0'.toNat)) 0
    if value ≤ u64Max then some value else none
  else none

/-- The limit that the variable `TKB_EXTERNAL_CP_SAT_BUILDERS` sets. -/
def externalCpSatBuilderLimit (var : Option String) : Nat :=
  max 1 (min ((var.bind fun value => parseUsize (Text.trim value)).getD 2) 8)

structure ExternalCpSatReplay where
  status : Nat
  payload : Json

inductive ExternalCpSatStepState where
  | inFlight
  | cached (replay : ExternalCpSatReplay)

structure ExternalCpSatStepEntry where
  key : String
  state : ExternalCpSatStepState
  updatedAtMs : Nat
  cachedBytes : Nat

def ExternalCpSatStepEntry.inFlight (entry : ExternalCpSatStepEntry) : Bool :=
  match entry.state with
  | .inFlight => true
  | .cached _ => false

abbrev ExternalCpSatSteps := Entries String ExternalCpSatStepEntry

structure ExternalCpSatState where
  steps : ExternalCpSatSteps
  activeBuilders : Nat
  cachedBytes : Nat

structure ExternalCpSatAdmissionGuard where
  leaseId : String
  key : String
deriving DecidableEq

inductive ExternalCpSatAdmission where
  | acquired (guard : ExternalCpSatAdmissionGuard)
  | replay (replay : ExternalCpSatReplay)
  | busy
  | conflict

/-- An order in which the hash map is walked. -/
structure Walk where
  entries : ExternalCpSatSteps → List (String × ExternalCpSatStepEntry)
  perm : ∀ steps, (entries steps).Perm (toList steps)

namespace ExternalCpSatState
variable (s : ExternalCpSatState)

def empty : ExternalCpSatState := ⟨∅, 0, 0⟩

/-! ### Pruning -/

def removeStep (leaseId : String) : ExternalCpSatState :=
  match s.steps.lookup leaseId with
  | some removed => { s with
      steps := s.steps.erase leaseId
      cachedBytes := s.cachedBytes - removed.cachedBytes }
  | none => s

/-- The oldest answer, the first of them in the order of the walk. -/
def oldestLease (walk : Walk) (steps : ExternalCpSatSteps) : Option String :=
  (((walk.entries steps).filter fun e => !e.2.inFlight).argmin fun e => e.2.updatedAtMs).map Prod.fst

theorem oldestLease_some {walk : Walk} {steps : ExternalCpSatSteps} {leaseId : String}
    (h : oldestLease walk steps = some leaseId) :
    ∃ entry, steps.lookup leaseId = some entry ∧ entry.inFlight = false := by
  obtain ⟨⟨k, entry⟩, hmin, rfl⟩ := Option.map_eq_some_iff.mp h
  obtain ⟨hmem, hcached⟩ := List.mem_filter.mp (List.argmin_mem hmin)
  exact ⟨entry, mem_toList_iff.mp ((walk.perm steps).mem_iff.mp hmem), by simpa using hcached⟩

theorem oldestLease_none {walk : Walk} {steps : ExternalCpSatSteps}
    (h : oldestLease walk steps = none) {leaseId : String} {entry : ExternalCpSatStepEntry}
    (hentry : steps.lookup leaseId = some entry) : entry.inFlight = true := by
  rw [oldestLease, Option.map_eq_none_iff, List.argmin_eq_none, List.filter_eq_nil_iff] at h
  have hmem := (walk.perm steps).mem_iff.mpr (mem_toList_iff.mpr hentry)
  simpa using h _ hmem

theorem removeStep_size {leaseId : String} {entry : ExternalCpSatStepEntry}
    (h : s.steps.lookup leaseId = some entry) : size (s.removeStep leaseId).steps < size s.steps := by
  unfold removeStep
  rw [h]
  exact size_erase_lt h

/-- Drop the oldest answers until so many more bytes fit. -/
def pruneStepsForBytes (walk : Walk) (s : ExternalCpSatState) (incomingBytes : Nat) :
    ExternalCpSatState :=
  if after s.cachedBytes incomingBytes > maxExternalCpSatReplayBytes then
    match _h : oldestLease walk s.steps with
    | none => s
    | some leaseId => pruneStepsForBytes walk (s.removeStep leaseId) incomingBytes
  else s
termination_by size s.steps
decreasing_by
  obtain ⟨entry, hentry, -⟩ := oldestLease_some _h
  exact s.removeStep_size hentry

def expiredLeases (walk : Walk) (nowMs : Nat) : List String :=
  ((walk.entries s.steps).filter fun e =>
    !e.2.inFlight && decide (nowMs - e.2.updatedAtMs > externalCpSatReplayTtlMs)).map Prod.fst

def pruneSteps (walk : Walk) (nowMs : Nat) : ExternalCpSatState :=
  pruneStepsForBytes walk ((s.expiredLeases walk nowMs).foldl removeStep s) 0

/-! ### Admission -/

/-- The entry that a build holds, if it is still this build's. -/
def holds (leaseId key : String) : Bool :=
  (s.steps.lookup leaseId).any fun entry => decide (entry.key = key) && entry.inFlight

def beginBuild (leaseId key : String) (nowMs : Nat) : ExternalCpSatState × ExternalCpSatAdmission :=
  let s := s.removeStep leaseId
  ({ s with
      steps := s.steps.insert leaseId ⟨key, .inFlight, nowMs, 0⟩
      activeBuilders := s.activeBuilders + 1 },
    .acquired ⟨leaseId, key⟩)

def tryBeginStep (limit : Nat) (walk : Walk) (leaseId key : String) (nowMs : Nat) :
    ExternalCpSatState × ExternalCpSatAdmission :=
  let s := s.pruneSteps walk nowMs
  let room := if s.activeBuilders ≥ limit then (s, .busy) else s.beginBuild leaseId key nowMs
  match s.steps.lookup leaseId with
  | some existing =>
    if existing.key = key then
      match existing.state with
      | .inFlight => (s, .busy)
      | .cached replay => (s, .replay replay)
    else if existing.inFlight then (s, .conflict)
    else room
  | none => room

def finishStep (walk : Walk) (leaseId key : String) (replay : Option ExternalCpSatReplay)
    (cachedBytes nowMs : Nat) : ExternalCpSatState :=
  if s.holds leaseId key then
    let s := { s with activeBuilders := s.activeBuilders - 1 }
    match replay with
    | none => { s with steps := s.steps.erase leaseId }
    | some replay =>
      let s := pruneStepsForBytes walk s cachedBytes
      { s with
        cachedBytes := after s.cachedBytes cachedBytes
        steps := s.steps.insert leaseId ⟨key, .cached replay, nowMs, cachedBytes⟩ }
  else s

def abortStep (leaseId key : String) : ExternalCpSatState :=
  if s.holds leaseId key then
    { s with steps := s.steps.erase leaseId, activeBuilders := s.activeBuilders - 1 }
  else s

end ExternalCpSatState

/-- The size of an answer; `toVec` is the length of what `serde_json::to_vec` returns. -/
def replayBytes (toVec : Json → Option Nat) (replay : ExternalCpSatReplay) : Nat :=
  (toVec replay.payload).getD (after maxExternalCpSatReplayBytes 1)

def ExternalCpSatAdmissionGuard.complete (toVec : Json → Option Nat) (s : ExternalCpSatState)
    (walk : Walk) (guard : ExternalCpSatAdmissionGuard) (replay : ExternalCpSatReplay) (nowMs : Nat) :
    ExternalCpSatState × ExternalCpSatReplay :=
  let cachedBytes := replayBytes toVec replay
  let cachedReplay := if cachedBytes ≤ maxExternalCpSatReplayBytes then some replay else none
  (s.finishStep walk guard.leaseId guard.key cachedReplay cachedBytes nowMs, replay)

/-! ### The counters -/

def ExternalCpSatStepEntry.replayBytes (toVec : Json → Option Nat) (entry : ExternalCpSatStepEntry) :
    Nat :=
  match entry.state with
  | .inFlight => 0
  | .cached replay => Agent.replayBytes toVec replay

variable {toVec : Json → Option Nat}

theorem ExternalCpSatStepEntry.replayBytes_inFlight {entry : ExternalCpSatStepEntry}
    (h : entry.inFlight = true) : entry.replayBytes toVec = 0 := by
  unfold inFlight at h
  unfold replayBytes
  split at h
  · rfl
  · exact absurd h (by simp)

namespace ExternalCpSatState

/-- The bytes of the answers that are kept. -/
structure Sized (toVec : Json → Option Nat) (s : ExternalCpSatState) : Prop where
  bytes : s.cachedBytes = total (·.cachedBytes) s.steps
  sized : ∀ leaseId entry, s.steps.lookup leaseId = some entry →
    entry.cachedBytes = entry.replayBytes toVec

/-- Only answers are gone. -/
structure Prunes (s s' : ExternalCpSatState) : Prop where
  builders : s'.activeBuilders = s.activeBuilders
  count : count (·.inFlight) s'.steps = count (·.inFlight) s.steps
  flights : ∀ leaseId entry, entry.inFlight = true →
    (s'.steps.lookup leaseId = some entry ↔ s.steps.lookup leaseId = some entry)

variable {s s' t : ExternalCpSatState} {leaseId : String}

theorem Prunes.refl (s : ExternalCpSatState) : Prunes s s := ⟨rfl, rfl, fun _ _ _ => .rfl⟩

theorem Prunes.trans (h : Prunes s s') (k : Prunes s' t) : Prunes s t :=
  ⟨k.builders.trans h.builders, k.count.trans h.count,
    fun leaseId entry hf => (k.flights leaseId entry hf).trans (h.flights leaseId entry hf)⟩

/-- No build is going on for the lease. -/
def Idle (s : ExternalCpSatState) (leaseId : String) : Prop :=
  ∀ entry, s.steps.lookup leaseId = some entry → entry.inFlight = false

theorem Idle.removeStep (h : s.Idle leaseId) : Prunes s (s.removeStep leaseId) := by
  unfold ExternalCpSatState.removeStep
  split
  · rename_i removed hremoved
    have hanswer := h removed hremoved
    refine ⟨rfl, ?_, ?_⟩
    · rw [count_erase hremoved, hanswer]
      simp
    · intro k entry hf
      dsimp only
      rcases eq_or_ne k leaseId with he | he
      · subst he
        rw [AList.lookup_erase]
        constructor
        · intro hnone
          exact absurd hnone (by simp)
        · intro hentry
          rw [h entry hentry] at hf
          exact absurd hf (by simp)
      · rw [AList.lookup_erase_ne he]
  · exact .refl s

theorem Sized.removeStep (h : s.Sized toVec) (leaseId : String) :
    (s.removeStep leaseId).Sized toVec := by
  unfold ExternalCpSatState.removeStep
  split
  · rename_i removed hremoved
    refine ⟨?_, ?_⟩
    · have htotal := total_erase (·.cachedBytes) hremoved
      have hbytes := h.bytes
      dsimp only at htotal ⊢
      omega
    · intro k entry hentry
      rcases eq_or_ne k leaseId with he | he
      · subst he
        exact absurd ((AList.lookup_erase k s.steps).symm.trans hentry) (by simp)
      · exact h.sized k entry ((AList.lookup_erase_ne he).symm.trans hentry)
  · exact h

theorem lookup_removeStep (s : ExternalCpSatState) (leaseId : String) :
    (s.removeStep leaseId).steps.lookup leaseId = none := by
  unfold ExternalCpSatState.removeStep
  split
  · exact AList.lookup_erase leaseId s.steps
  · assumption

theorem pruneStepsForBytes_keeps (walk : Walk) (s : ExternalCpSatState) (incomingBytes : Nat)
    (hs : s.Sized toVec) : (pruneStepsForBytes walk s incomingBytes).Sized toVec ∧
      Prunes s (pruneStepsForBytes walk s incomingBytes) := by
  fun_induction pruneStepsForBytes walk s incomingBytes with
  | case1 s hfull hnone => exact ⟨hs, .refl s⟩
  | case2 s hfull leaseId holdest ih =>
    obtain ⟨entry, hentry, hanswer⟩ := oldestLease_some holdest
    have hidle : s.Idle leaseId := by
      intro other hother
      obtain rfl := Option.some.inj (hentry.symm.trans hother)
      exact hanswer
    obtain ⟨hsized, hprunes⟩ := ih (hs.removeStep leaseId)
    exact ⟨hsized, hidle.removeStep.trans hprunes⟩
  | case3 s hfits => exact ⟨hs, .refl s⟩

/-- The loop ends with room: when no answer is left, no byte is. -/
theorem pruneStepsForBytes_fits (walk : Walk) (s : ExternalCpSatState) {incomingBytes : Nat}
    (hs : s.Sized toVec) (hincoming : incomingBytes ≤ maxExternalCpSatReplayBytes) :
    after (pruneStepsForBytes walk s incomingBytes).cachedBytes incomingBytes ≤
      maxExternalCpSatReplayBytes := by
  fun_induction pruneStepsForBytes walk s incomingBytes with
  | case1 s hfull hnone =>
    have hzero : total (·.cachedBytes) s.steps = 0 := by
      refine total_eq_zero _ fun leaseId entry hentry => ?_
      have hflight := oldestLease_none hnone hentry
      rw [hs.sized leaseId entry hentry, entry.replayBytes_inFlight hflight]
    rw [hs.bytes, hzero]
    unfold after
    omega
  | case2 s hfull leaseId holdest ih => exact ih (hs.removeStep leaseId)
  | case3 s hfits => omega

theorem le_max_of_after {bytes incomingBytes : Nat}
    (h : after bytes incomingBytes ≤ maxExternalCpSatReplayBytes) :
    after bytes incomingBytes = bytes + incomingBytes := by
  unfold after u64Max maxExternalCpSatReplayBytes at *
  omega

theorem removeSteps_keeps (leaseIds : List String) (s : ExternalCpSatState) (hs : s.Sized toVec)
    (hidle : ∀ leaseId ∈ leaseIds, s.Idle leaseId) :
    (leaseIds.foldl removeStep s).Sized toVec ∧ Prunes s (leaseIds.foldl removeStep s) := by
  induction leaseIds generalizing s with
  | nil => exact ⟨hs, .refl s⟩
  | cons leaseId rest ih =>
    have hone := (hidle leaseId List.mem_cons_self).removeStep
    have hrest : ∀ k ∈ rest, (s.removeStep leaseId).Idle k := by
      intro k hk entry hentry
      by_contra hflight
      rw [Bool.not_eq_false] at hflight
      have hbefore := (hone.flights k entry hflight).mp hentry
      rw [hidle k (List.mem_cons_of_mem _ hk) entry hbefore] at hflight
      exact absurd hflight (by simp)
    obtain ⟨hsized, hprunes⟩ := ih (s.removeStep leaseId) (hs.removeStep leaseId) hrest
    exact ⟨hsized, hone.trans hprunes⟩

theorem expiredLeases_idle (s : ExternalCpSatState) (walk : Walk) (nowMs : Nat) :
    ∀ leaseId ∈ s.expiredLeases walk nowMs, s.Idle leaseId := by
  intro leaseId hmem entry hentry
  obtain ⟨⟨k, old⟩, hfilter, rfl⟩ := List.mem_map.mp hmem
  obtain ⟨hwalked, hexpired⟩ := List.mem_filter.mp hfilter
  have hold := mem_toList_iff.mp ((walk.perm s.steps).mem_iff.mp hwalked)
  obtain rfl := Option.some.inj (hentry.symm.trans hold)
  rw [Bool.and_eq_true] at hexpired
  simpa using hexpired.1

theorem pruneSteps_keeps (walk : Walk) (s : ExternalCpSatState) (nowMs : Nat) (hs : s.Sized toVec) :
    (s.pruneSteps walk nowMs).Sized toVec ∧ Prunes s (s.pruneSteps walk nowMs) ∧
      (s.pruneSteps walk nowMs).cachedBytes ≤ maxExternalCpSatReplayBytes := by
  obtain ⟨hexpired, hfirst⟩ := removeSteps_keeps _ s hs (s.expiredLeases_idle walk nowMs)
  obtain ⟨hsized, hsecond⟩ := pruneStepsForBytes_keeps walk _ 0 hexpired
  have hfits := pruneStepsForBytes_fits walk _ hexpired (Nat.zero_le _)
  have hbytes := le_max_of_after hfits
  exact ⟨hsized, hfirst.trans hsecond, by unfold pruneSteps; omega⟩

/-! ### What a build does to the counters -/

/-- The counters count what there is, within the limits. -/
structure Counted (toVec : Json → Option Nat) (limit : Nat) (s : ExternalCpSatState) : Prop
    extends s.Sized toVec where
  builders : s.activeBuilders = count (·.inFlight) s.steps
  builders_le : s.activeBuilders ≤ limit
  bytes_le : s.cachedBytes ≤ maxExternalCpSatReplayBytes

variable {limit : Nat}

theorem Counted.pruneSteps (h : s.Counted toVec limit) (walk : Walk) (nowMs : Nat) :
    (s.pruneSteps walk nowMs).Counted toVec limit := by
  obtain ⟨hsized, hprunes, hle⟩ := pruneSteps_keeps walk s nowMs h.toSized
  refine ⟨hsized, ?_, ?_, hle⟩
  · rw [hprunes.builders, hprunes.count]
    exact h.builders
  · rw [hprunes.builders]
    exact h.builders_le

/-- A build begins for a lease that has none. -/
theorem Counted.begins (h : s.Counted toVec limit) (hidle : s.Idle leaseId)
    (hroom : s.activeBuilders < limit) (key : String) (nowMs : Nat) :
    (s.beginBuild leaseId key nowMs).1.Counted toVec limit := by
  have hprunes := hidle.removeStep
  have hsized := h.toSized.removeStep leaseId
  have hnone := s.lookup_removeStep leaseId
  have hbuilders := h.builders
  have hle := h.bytes_le
  unfold ExternalCpSatState.beginBuild
  refine ⟨⟨?_, ?_⟩, ?_, ?_, ?_⟩
  · dsimp only
    rw [total_insert _ _ hnone, hsized.bytes, Nat.zero_add]
  · intro k entry hentry
    dsimp only at hentry
    rcases eq_or_ne k leaseId with he | he
    · rw [he, AList.lookup_insert, Option.some.injEq] at hentry
      rw [← hentry]
      rfl
    · rw [AList.lookup_insert_ne he] at hentry
      exact hsized.sized k entry hentry
  · dsimp only
    rw [count_insert hnone, hprunes.builders, hprunes.count, hbuilders, Nat.add_comm]
    rfl
  · dsimp only
    rw [hprunes.builders]
    exact hroom
  · dsimp only
    refine Nat.le_trans ?_ hle
    unfold ExternalCpSatState.removeStep
    split
    · exact Nat.sub_le _ _
    · exact Nat.le_refl _

/-- The entry of a build goes, with its place among the builders. -/
theorem Counted.leaves (h : s.Counted toVec limit) {entry : ExternalCpSatStepEntry}
    (hentry : s.steps.lookup leaseId = some entry) (hflight : entry.inFlight = true) :
    { s with steps := s.steps.erase leaseId, activeBuilders := s.activeBuilders - 1 }.Counted toVec
      limit := by
  have hempty : entry.cachedBytes = 0 := by
    rw [h.sized leaseId entry hentry, entry.replayBytes_inFlight hflight]
  refine ⟨⟨?_, ?_⟩, ?_, ?_, h.bytes_le⟩
  · have htotal := total_erase (·.cachedBytes) hentry
    have hbytes := h.bytes
    dsimp only at htotal ⊢
    omega
  · intro k other hother
    rcases eq_or_ne k leaseId with he | he
    · subst he
      exact absurd ((AList.lookup_erase k s.steps).symm.trans hother) (by simp)
    · exact h.sized k other ((AList.lookup_erase_ne he).symm.trans hother)
  · have hcount := count_erase (p := fun e : ExternalCpSatStepEntry => e.inFlight) hentry
    have hbuilders := h.builders
    rw [hflight, if_pos rfl] at hcount
    dsimp only
    omega
  · have hle := h.builders_le
    dsimp only
    omega

/-- A build ends with an answer that fits. -/
theorem Counted.keeps (h : s.Counted toVec limit) {entry : ExternalCpSatStepEntry}
    (hentry : s.steps.lookup leaseId = some entry) (hflight : entry.inFlight = true)
    {replay : ExternalCpSatReplay} (hfits : replayBytes toVec replay ≤ maxExternalCpSatReplayBytes)
    (walk : Walk) (key : String) (nowMs : Nat) :
    let s' := pruneStepsForBytes walk { s with activeBuilders := s.activeBuilders - 1 }
      (replayBytes toVec replay)
    { s' with
      cachedBytes := after s'.cachedBytes (replayBytes toVec replay)
      steps := s'.steps.insert leaseId
        ⟨key, .cached replay, nowMs, replayBytes toVec replay⟩ }.Counted toVec limit := by
  have hbase : { s with activeBuilders := s.activeBuilders - 1 }.Sized toVec := ⟨h.bytes, h.sized⟩
  obtain ⟨hsized, hprunes⟩ := pruneStepsForBytes_keeps walk _ (replayBytes toVec replay) hbase
  have hroom := pruneStepsForBytes_fits walk _ hbase hfits
  generalize pruneStepsForBytes walk { s with activeBuilders := s.activeBuilders - 1 }
    (replayBytes toVec replay) = t at hsized hprunes hroom
  have hthere := (hprunes.flights leaseId entry hflight).mpr hentry
  have hempty : entry.cachedBytes = 0 := by
    rw [h.sized leaseId entry hentry, entry.replayBytes_inFlight hflight]
  refine ⟨⟨?_, ?_⟩, ?_, ?_, hroom⟩
  · have htotal := total_erase (·.cachedBytes) hthere
    have hbytes := hsized.bytes
    have hsum := le_max_of_after hroom
    dsimp only at htotal ⊢
    rw [total_insert_erase]
    dsimp only
    omega
  · intro k other hother
    dsimp only at hother
    rcases eq_or_ne k leaseId with he | he
    · rw [he, AList.lookup_insert, Option.some.injEq] at hother
      rw [← hother]
      rfl
    · rw [AList.lookup_insert_ne he] at hother
      exact hsized.sized k other hother
  · have hcount := count_erase (p := fun e : ExternalCpSatStepEntry => e.inFlight) hthere
    have hbuilders := h.builders
    have hsame := hprunes.count
    have hone := hprunes.builders
    rw [hflight, if_pos rfl] at hcount
    dsimp only at hsame hone ⊢
    rw [count_insert_erase]
    have hanswer : (⟨key, .cached replay, nowMs, replayBytes toVec replay⟩ :
        ExternalCpSatStepEntry).inFlight = false := rfl
    rw [hanswer, if_neg Bool.false_ne_true]
    omega
  · have hle := h.builders_le
    have hone := hprunes.builders
    dsimp only at hone ⊢
    omega

/-! ### Who is building -/

theorem holds_iff {key : String} : s.holds leaseId key = true ↔
    ∃ entry, s.steps.lookup leaseId = some entry ∧ entry.key = key ∧ entry.inFlight = true := by
  unfold holds
  rw [Option.any_eq_true]
  constructor
  · rintro ⟨entry, hentry, hb⟩
    rw [Bool.and_eq_true, decide_eq_true_eq] at hb
    exact ⟨entry, hentry, hb⟩
  · rintro ⟨entry, hentry, hkey, hflight⟩
    exact ⟨entry, hentry, by rw [Bool.and_eq_true, decide_eq_true_eq]; exact ⟨hkey, hflight⟩⟩

/-- The guards that are out, one for each build. -/
structure Guarded (s : ExternalCpSatState) (guards : List ExternalCpSatAdmissionGuard) : Prop where
  perLease : (guards.map (·.leaseId)).Nodup
  live : ∀ guard, guard ∈ guards ↔ s.holds guard.leaseId guard.key = true

variable {guards : List ExternalCpSatAdmissionGuard}

theorem Guarded.prunes (h : s.Guarded guards) (hp : Prunes s s') : s'.Guarded guards := by
  refine ⟨h.perLease, fun guard => ?_⟩
  rw [h.live guard, holds_iff, holds_iff]
  constructor
  · rintro ⟨entry, hentry, hkey, hflight⟩
    exact ⟨entry, (hp.flights _ entry hflight).mpr hentry, hkey, hflight⟩
  · rintro ⟨entry, hentry, hkey, hflight⟩
    exact ⟨entry, (hp.flights _ entry hflight).mp hentry, hkey, hflight⟩

/-- A lease without a build has no guard. -/
theorem Guarded.not_mem (h : s.Guarded guards) (hidle : s.Idle leaseId) :
    leaseId ∉ guards.map (·.leaseId) := by
  intro hmem
  obtain ⟨guard, hguard, hlease⟩ := List.mem_map.mp hmem
  obtain ⟨entry, hentry, -, hflight⟩ := holds_iff.mp ((h.live guard).mp hguard)
  rw [hlease] at hentry
  rw [hidle entry hentry] at hflight
  exact absurd hflight (by simp)

theorem Guarded.begins (h : s.Guarded guards) (hidle : s.Idle leaseId) (key : String) (nowMs : Nat) :
    (s.beginBuild leaseId key nowMs).1.Guarded (⟨leaseId, key⟩ :: guards) := by
  have hnone := h.not_mem hidle
  have hprunes := hidle.removeStep
  refine ⟨List.nodup_cons.mpr ⟨hnone, h.perLease⟩, fun guard => ?_⟩
  rw [List.mem_cons, h.live guard, holds_iff, holds_iff]
  unfold ExternalCpSatState.beginBuild
  dsimp only
  rcases eq_or_ne guard.leaseId leaseId with he | he
  · rw [he, AList.lookup_insert]
    constructor
    · rintro (rfl | ⟨entry, hentry, -, hflight⟩)
      · exact ⟨_, rfl, rfl, rfl⟩
      · rw [hidle entry hentry] at hflight
        exact absurd hflight (by simp)
    · rintro ⟨entry, hentry, hkey, -⟩
      rw [Option.some.injEq] at hentry
      rw [← hentry] at hkey
      left
      cases guard
      dsimp only at he hkey
      rw [he, hkey]
  · rw [AList.lookup_insert_ne he]
    constructor
    · rintro (rfl | ⟨entry, hentry, hkey, hflight⟩)
      · exact absurd rfl he
      · exact ⟨entry, (hprunes.flights _ entry hflight).mpr hentry, hkey, hflight⟩
    · rintro ⟨entry, hentry, hkey, hflight⟩
      exact .inr ⟨entry, (hprunes.flights _ entry hflight).mp hentry, hkey, hflight⟩

/-- A build ends: its guard goes, and so does the entry it held. -/
theorem Guarded.ends (h : s.Guarded guards) {guard : ExternalCpSatAdmissionGuard}
    (hguard : guard ∈ guards)
    (hgone : ∀ entry, s'.steps.lookup guard.leaseId = some entry → entry.inFlight = false)
    (hothers : ∀ leaseId entry, leaseId ≠ guard.leaseId → entry.inFlight = true →
      (s'.steps.lookup leaseId = some entry ↔ s.steps.lookup leaseId = some entry)) :
    s'.Guarded (guards.erase guard) := by
  have hnodup : guards.Nodup := List.Nodup.of_map _ h.perLease
  refine ⟨h.perLease.sublist (List.erase_sublist.map _), fun other => ?_⟩
  rw [hnodup.mem_erase_iff, h.live other, holds_iff, holds_iff]
  constructor
  · rintro ⟨hne, entry, hentry, hkey, hflight⟩
    have hlease : other.leaseId ≠ guard.leaseId := by
      intro he
      have hmem : other ∈ guards := (h.live other).mpr (holds_iff.mpr ⟨entry, hentry, hkey, hflight⟩)
      exact hne (List.inj_on_of_nodup_map h.perLease hmem hguard he)
    exact ⟨entry, (hothers _ entry hlease hflight).mpr hentry, hkey, hflight⟩
  · rintro ⟨entry, hentry, hkey, hflight⟩
    have hlease : other.leaseId ≠ guard.leaseId := by
      intro he
      rw [he] at hentry
      rw [hgone entry hentry] at hflight
      exact absurd hflight (by simp)
    refine ⟨fun he => hlease (congrArg _ he), entry, ?_, hkey, hflight⟩
    exact (hothers _ entry hlease hflight).mp hentry

end ExternalCpSatState

/-! ### Runs -/

/-- The coordinator's cache and the guards that are out. -/
structure Builds where
  state : ExternalCpSatState
  guards : List ExternalCpSatAdmissionGuard

inductive BuildOp where
  | tryBegin (walk : Walk) (leaseId key : String) (nowMs : Nat)
  | complete (walk : Walk) (guard : ExternalCpSatAdmissionGuard) (replay : ExternalCpSatReplay)
      (nowMs : Nat)
  | drop (guard : ExternalCpSatAdmissionGuard)
  /-- Any other call of the coordinator that prunes. -/
  | prune (walk : Walk) (nowMs : Nat)

namespace Builds

def empty : Builds := ⟨.empty, []⟩

/-- `complete` consumes its guard, and a drop ends it. -/
def apply (toVec : Json → Option Nat) (limit : Nat) (w : Builds) : BuildOp → Builds
  | .tryBegin walk leaseId key nowMs =>
    let (state, admission) := w.state.tryBeginStep limit walk leaseId key nowMs
    match admission with
    | .acquired guard => ⟨state, guard :: w.guards⟩
    | _ => ⟨state, w.guards⟩
  | .complete walk guard replay nowMs =>
    if guard ∈ w.guards then
      ⟨(guard.complete toVec w.state walk replay nowMs).1, w.guards.erase guard⟩
    else w
  | .drop guard =>
    if guard ∈ w.guards then
      ⟨w.state.abortStep guard.leaseId guard.key, w.guards.erase guard⟩
    else w
  | .prune walk nowMs => ⟨w.state.pruneSteps walk nowMs, w.guards⟩

def run (toVec : Json → Option Nat) (limit : Nat) (ops : List BuildOp) : Builds :=
  ops.foldl (apply toVec limit) empty

/-- What admission promises: the counters are right and within their limits, and a lease has at
most one build. -/
structure Admitted (toVec : Json → Option Nat) (limit : Nat) (w : Builds) : Prop where
  counted : w.state.Counted toVec limit
  guarded : w.state.Guarded w.guards

open ExternalCpSatState

variable {limit : Nat}

theorem admitted_empty : Admitted toVec limit empty where
  counted := by
    refine ⟨⟨rfl, fun k e h => ?_⟩, rfl, Nat.zero_le _, Nat.zero_le _⟩
    exact absurd ((AList.lookup_empty k).symm.trans h) (by simp)
  guarded := by
    refine ⟨List.nodup_nil, fun guard => ?_⟩
    rw [ExternalCpSatState.holds_iff]
    constructor
    · intro hmem
      exact absurd hmem (by simp [empty])
    · rintro ⟨entry, hentry, -⟩
      exact absurd ((AList.lookup_empty guard.leaseId).symm.trans hentry) (by simp)

/-- A build begins only for a lease without one, and only with room. -/
theorem tryBeginStep_cases (limit : Nat) (s : ExternalCpSatState) (walk : Walk) (leaseId key : String)
    (nowMs : Nat) :
    ((s.tryBeginStep limit walk leaseId key nowMs).1 = s.pruneSteps walk nowMs ∧
      ∀ guard, (s.tryBeginStep limit walk leaseId key nowMs).2 ≠ .acquired guard) ∨
    ((s.pruneSteps walk nowMs).Idle leaseId ∧ (s.pruneSteps walk nowMs).activeBuilders < limit ∧
      s.tryBeginStep limit walk leaseId key nowMs = (s.pruneSteps walk nowMs).beginBuild leaseId key nowMs) := by
  unfold ExternalCpSatState.tryBeginStep
  dsimp only
  by_cases hfull : (s.pruneSteps walk nowMs).activeBuilders ≥ limit
  · rw [if_pos hfull]
    left
    split
    · split
      · split
        · exact ⟨rfl, fun _ h => by cases h⟩
        · exact ⟨rfl, fun _ h => by cases h⟩
      · split
        · exact ⟨rfl, fun _ h => by cases h⟩
        · exact ⟨rfl, fun _ h => by cases h⟩
    · exact ⟨rfl, fun _ h => by cases h⟩
  · rw [if_neg hfull]
    have hroom := Nat.lt_of_not_le hfull
    split
    · rename_i existing hexisting
      split
      · left
        split
        · exact ⟨rfl, fun _ h => by cases h⟩
        · exact ⟨rfl, fun _ h => by cases h⟩
      · split
        · exact .inl ⟨rfl, fun _ h => by cases h⟩
        · rename_i hanswer
          refine .inr ⟨fun entry hentry => ?_, hroom, rfl⟩
          obtain rfl := Option.some.inj (hexisting.symm.trans hentry)
          rwa [Bool.not_eq_true] at hanswer
    · rename_i hnone
      exact .inr ⟨fun entry hentry => absurd (hnone.symm.trans hentry) (by simp), hroom, rfl⟩

variable {w : Builds}

theorem Admitted.tryBegin (h : w.Admitted toVec limit) (walk : Walk) (leaseId key : String)
    (nowMs : Nat) : (w.apply toVec limit (.tryBegin walk leaseId key nowMs)).Admitted toVec limit := by
  have hcounted := h.counted.pruneSteps walk nowMs
  have hguarded := h.guarded.prunes (pruneSteps_keeps walk w.state nowMs h.counted.toSized).2.1
  unfold apply
  dsimp only
  rcases tryBeginStep_cases limit w.state walk leaseId key nowMs with
    ⟨hstate, hnone⟩ | ⟨hidle, hroom, hbegins⟩
  · rw [hstate]
    split
    · rename_i guard hguard
      exact absurd hguard (hnone guard)
    · exact ⟨hcounted, hguarded⟩
  · rw [hbegins]
    exact ⟨hcounted.begins hidle hroom key nowMs, hguarded.begins hidle key nowMs⟩

/-- The entry of a build whose guard is out. -/
theorem Admitted.entry (h : w.Admitted toVec limit) {guard : ExternalCpSatAdmissionGuard}
    (hguard : guard ∈ w.guards) : ∃ entry, w.state.steps.lookup guard.leaseId = some entry ∧
      entry.inFlight = true := by
  obtain ⟨entry, hentry, -, hflight⟩ := holds_iff.mp ((h.guarded.live guard).mp hguard)
  exact ⟨entry, hentry, hflight⟩

theorem Admitted.leaves (h : w.Admitted toVec limit) {guard : ExternalCpSatAdmissionGuard}
    (hguard : guard ∈ w.guards) :
    (⟨{ w.state with
        steps := w.state.steps.erase guard.leaseId
        activeBuilders := w.state.activeBuilders - 1 }, w.guards.erase guard⟩ : Builds).Admitted
      toVec limit := by
  obtain ⟨entry, hentry, hflight⟩ := h.entry hguard
  refine ⟨h.counted.leaves hentry hflight, h.guarded.ends hguard ?_ ?_⟩
  · intro other hother
    exact absurd ((AList.lookup_erase guard.leaseId w.state.steps).symm.trans hother) (by simp)
  · intro k other hne _
    dsimp only
    rw [AList.lookup_erase_ne hne]

theorem Admitted.drop (h : w.Admitted toVec limit) (guard : ExternalCpSatAdmissionGuard) :
    (w.apply toVec limit (.drop guard)).Admitted toVec limit := by
  unfold apply
  dsimp only
  split
  · rename_i hguard
    unfold ExternalCpSatState.abortStep
    rw [(h.guarded.live guard).mp hguard, if_pos rfl]
    exact h.leaves hguard
  · exact h

theorem Admitted.complete (h : w.Admitted toVec limit) (walk : Walk)
    (guard : ExternalCpSatAdmissionGuard) (replay : ExternalCpSatReplay) (nowMs : Nat) :
    (w.apply toVec limit (.complete walk guard replay nowMs)).Admitted toVec limit := by
  unfold apply
  dsimp only
  split
  · rename_i hguard
    unfold ExternalCpSatAdmissionGuard.complete ExternalCpSatState.finishStep
    dsimp only
    rw [(h.guarded.live guard).mp hguard, if_pos rfl]
    by_cases hfits : replayBytes toVec replay ≤ maxExternalCpSatReplayBytes
    · rw [if_pos hfits]
      obtain ⟨entry, hentry, hflight⟩ := h.entry hguard
      refine ⟨h.counted.keeps hentry hflight hfits walk guard.key nowMs, h.guarded.ends hguard ?_ ?_⟩
      · intro other hother
        dsimp only at hother
        rw [AList.lookup_insert, Option.some.injEq] at hother
        rw [← hother]
        rfl
      · intro k other hne hother
        have hbase : { w.state with activeBuilders := w.state.activeBuilders - 1 }.Sized toVec :=
          ⟨h.counted.bytes, h.counted.sized⟩
        have hprunes := (pruneStepsForBytes_keeps walk _ (replayBytes toVec replay) hbase).2
        dsimp only
        rw [AList.lookup_insert_ne hne]
        exact hprunes.flights k other hother
    · rw [if_neg hfits]
      exact h.leaves hguard
  · exact h

theorem Admitted.apply (h : w.Admitted toVec limit) (op : BuildOp) :
    (w.apply toVec limit op).Admitted toVec limit := by
  cases op with
  | tryBegin walk leaseId key nowMs => exact h.tryBegin walk leaseId key nowMs
  | complete walk guard replay nowMs => exact h.complete walk guard replay nowMs
  | drop guard => exact h.drop guard
  | prune walk nowMs =>
    exact ⟨h.counted.pruneSteps walk nowMs,
      h.guarded.prunes (pruneSteps_keeps walk w.state nowMs h.counted.toSized).2.1⟩

theorem Admitted.foldl (ops : List BuildOp) (w : Builds) (h : w.Admitted toVec limit) :
    (ops.foldl (Builds.apply toVec limit) w).Admitted toVec limit := by
  induction ops generalizing w with
  | nil => exact h
  | cons op ops ih => exact ih _ (h.apply op)

end Builds

/-- Whatever begins, completes, is dropped or pruned, in any order: the builders are the builds in
flight and within their limit, the bytes are those of the kept answers and within the budget, and
no lease has two builds. -/
theorem external_cp_sat_admission (toVec : Json → Option Nat) (var : Option String)
    (ops : List BuildOp) :
    (Builds.run toVec (externalCpSatBuilderLimit var) ops).Admitted toVec
      (externalCpSatBuilderLimit var) :=
  Builds.Admitted.foldl ops .empty Builds.admitted_empty

end TkbCherry.Agent
