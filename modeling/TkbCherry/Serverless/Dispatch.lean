import TkbCherry.Lib.Incumbent

/-!
# The profile of the next job

`dispatch_profile` keeps the selected profile while it has free capacity and else takes the least
loaded profile of the same build. The loads are compared by products that saturate at `u64::MAX`.
-/

namespace TkbCherry.Serverless

set_option autoImplicit false

open Incumbent

/-- The fields that routing reads. -/
structure ServerlessProfile where
  id : String
  enabled : Bool
  priority : Int
  maxConcurrency : UInt32
  solverDigest : String
deriving DecidableEq, Repr

structure ServerlessConfig where
  activeProfileId : Option String
  profiles : List ServerlessProfile

/-- `max_by_key` keeps the last of equal keys. -/
def maxByPriority (profiles : List ServerlessProfile) : Option ServerlessProfile :=
  profiles.foldl (fun best profile =>
    if best.any fun held => decide (profile.priority < held.priority) then best else some profile) none

/-- `saturating_mul` on `u64`. -/
def saturatingMul (a b : Nat) : Nat := min (a * b) (2 ^ 64 - 1)

namespace ServerlessConfig
variable (config : ServerlessConfig)

def selectedProfile : Option ServerlessProfile :=
  match config.activeProfileId with
  | some activeId => config.profiles.find? fun profile => profile.enabled && profile.id == activeId
  | none => maxByPriority (config.profiles.filter ServerlessProfile.enabled)

/-- The order of the siblings: by falling priority and then by id. -/
def siblingLe (a b : ServerlessProfile) : Bool :=
  decide (b.priority < a.priority ∨ (a.priority = b.priority ∧ a.id ≤ b.id))

def siblings (primary : ServerlessProfile) : List ServerlessProfile :=
  (config.profiles.filter fun profile =>
    profile.enabled && profile.id != primary.id &&
      profile.solverDigest == primary.solverDigest).mergeSort siblingLe

def dispatchCandidates : List ServerlessProfile :=
  match config.selectedProfile with
  | none => []
  | some primary => primary :: config.siblings primary

end ServerlessConfig

section Load
variable (inFlight : String → Option UInt64)

/-- The active jobs of a profile; a missing count is zero. -/
def active (profile : ServerlessProfile) : Nat := ((inFlight profile.id).getD 0).toNat

/-- A capacity of zero counts as one. -/
def capacity (profile : ServerlessProfile) : Nat := max profile.maxConcurrency.toNat 1

def hasFree (profile : ServerlessProfile) : Bool :=
  decide (active inFlight profile < capacity profile)

/-- `better`: whether the candidate replaces the best one so far. -/
def better (candidate best : ServerlessProfile) : Bool :=
  if hasFree inFlight candidate != hasFree inFlight best then hasFree inFlight candidate
  else decide (saturatingMul (active inFlight candidate) (capacity best) <
    saturatingMul (active inFlight best) (capacity candidate))

/-- The loop over the candidates. -/
def leastLoaded (candidates : List ServerlessProfile) : Option ServerlessProfile :=
  candidates.foldl (fun best candidate =>
    if beats (better inFlight) candidate best then some candidate else best) none

end Load

namespace ServerlessConfig
variable (config : ServerlessConfig) (inFlight : String → Option UInt64)

def dispatchProfile : Option ServerlessProfile :=
  let candidates := config.dispatchCandidates
  match candidates.head? with
  | some primary =>
    if hasFree inFlight primary then some primary else leastLoaded inFlight candidates
  | none => leastLoaded inFlight candidates

end ServerlessConfig

/-! ### The least loaded of the candidates -/

/-- Active jobs for each place. -/
def ratio (inFlight : String → Option UInt64) (profile : ServerlessProfile) : ℚ :=
  (active inFlight profile : ℚ) / capacity profile

def lighter (inFlight : String → Option UInt64) (a b : ServerlessProfile) : Bool :=
  decide (ratio inFlight a < ratio inFlight b)

/-- No product of two loads leaves the machine word. -/
def InRange (inFlight : String → Option UInt64) (profiles : List ServerlessProfile) : Prop :=
  ∀ a ∈ profiles, ∀ b ∈ profiles, active inFlight a * capacity b < 2 ^ 64

section Lightest
variable {inFlight : String → Option UInt64} {a b : ServerlessProfile}

theorem capacity_pos (profile : ServerlessProfile) : 0 < capacity profile :=
  lt_of_lt_of_le Nat.one_pos (Nat.le_max_right _ _)

theorem capacity_lt (profile : ServerlessProfile) : capacity profile < 2 ^ 32 := by
  have h := profile.maxConcurrency.toNat_lt
  rw [capacity]
  omega

theorem lighter_strict (inFlight : String → Option UInt64) : Strict (lighter inFlight) where
  irrefl := by
    intro a
    simp [lighter]
  trans := by
    intro a b c hab hbc
    rw [lighter, decide_eq_true_iff] at hab hbc ⊢
    exact hab.trans hbc

/-- Cross multiplication compares the ratios while the products fit. -/
theorem lighter_eq (hab : active inFlight a * capacity b < 2 ^ 64)
    (hba : active inFlight b * capacity a < 2 ^ 64) :
    decide (saturatingMul (active inFlight a) (capacity b) <
      saturatingMul (active inFlight b) (capacity a)) = lighter inFlight a b := by
  have hle : active inFlight a * capacity b ≤ 2 ^ 64 - 1 := by omega
  have hle' : active inFlight b * capacity a ≤ 2 ^ 64 - 1 := by omega
  have ha : (0 : ℚ) < capacity a := Nat.cast_pos.mpr (capacity_pos a)
  have hb : (0 : ℚ) < capacity b := Nat.cast_pos.mpr (capacity_pos b)
  rw [lighter, decide_eq_decide, saturatingMul, saturatingMul, min_eq_left hle, min_eq_left hle',
    ratio, ratio, div_lt_div_iff₀ ha hb]
  exact_mod_cast Iff.rfl

/-- The products of free profiles fit. -/
theorem free_mul_lt (ha : hasFree inFlight a = true) : active inFlight a * capacity b < 2 ^ 64 := by
  have hfree : active inFlight a < capacity a := of_decide_eq_true ha
  have hlt : active inFlight a < 2 ^ 32 := hfree.trans (capacity_lt a)
  calc active inFlight a * capacity b
      < 2 ^ 32 * 2 ^ 32 := Nat.mul_lt_mul'' hlt (capacity_lt b)
    _ = 2 ^ 64 := by norm_num

theorem better_of_free (ha : hasFree inFlight a = true) (hb : hasFree inFlight b = true) :
    better inFlight a b = lighter inFlight a b := by
  rw [better, ha, hb]
  exact lighter_eq (free_mul_lt ha) (free_mul_lt hb)

theorem better_of_ne (h : hasFree inFlight a ≠ hasFree inFlight b) :
    better inFlight a b = hasFree inFlight a := if_pos (bne_iff_ne.mpr h)

/-- The best so far is a lightest one of the free profiles; where none is free and the products
fit, of all. -/
structure Least (inFlight : String → Option UInt64) (best : Option ServerlessProfile)
    (seen : List ServerlessProfile) : Prop where
  none_iff : best = none ↔ seen = []
  mem : ∀ profile, best = some profile → profile ∈ seen
  free : (∃ p ∈ seen, hasFree inFlight p = true) →
    Best (lighter inFlight) best (seen.filter (hasFree inFlight))
  full : (∀ p ∈ seen, hasFree inFlight p = false) → InRange inFlight seen →
    Best (lighter inFlight) best seen

namespace Least
variable {best : Option ServerlessProfile} {seen : List ServerlessProfile}
  {held candidate : ServerlessProfile}

theorem start (inFlight : String → Option UInt64) : Least inFlight none [] where
  none_iff := ⟨fun _ => rfl, fun _ => rfl⟩
  mem := fun _ h => absurd h (by simp)
  free := fun h => absurd h (by simp)
  full := fun _ _ => Best.empty

/-- A free profile among those seen makes the best one free. -/
theorem held_free (h : Least inFlight (some held) seen) {p : ServerlessProfile} (hp : p ∈ seen)
    (hfree : hasFree inFlight p = true) : hasFree inFlight held = true :=
  (List.mem_filter.mp (h.free ⟨p, hp, hfree⟩).mem).2

/-- A candidate that takes the place of a full one, or of none. -/
theorem take (hnone : ∀ p ∈ seen, hasFree inFlight p = false)
    (hfree : hasFree inFlight candidate = true) :
    Least inFlight (some candidate) (seen ++ [candidate]) where
  none_iff := by simp
  mem := by simp
  free := by
    intro _
    have hnil : seen.filter (hasFree inFlight) = [] :=
      List.filter_eq_nil_iff.mpr fun p hp => by simp [hnone p hp]
    rw [List.filter_append, hnil, List.filter_cons_of_pos hfree, List.filter_nil]
    exact Best.empty.accept (lighter_strict inFlight) rfl
  full := by
    intro hall
    have hc := hall candidate (by simp)
    rw [hfree] at hc
    exact absurd hc (by simp)

/-- Two free profiles are compared by their ratios. -/
theorem offer_free (h : Least inFlight (some held) seen) (hheld : hasFree inFlight held = true)
    (hfree : hasFree inFlight candidate = true) :
    Least inFlight (if better inFlight candidate held then some candidate else some held)
      (seen ++ [candidate]) where
  none_iff := by
    split <;> simp
  mem := by
    have hin := h.mem held rfl
    intro profile hp
    split at hp <;> cases hp <;> simp [hin]
  free := by
    intro _
    have hbest := h.free ⟨held, h.mem held rfl, hheld⟩
    rw [better_of_free hfree hheld, List.filter_append, List.filter_cons_of_pos hfree,
      List.filter_nil]
    exact hbest.offered (lighter_strict inFlight)
  full := by
    intro hall
    have hh := hall held (List.mem_append_left _ (h.mem held rfl))
    rw [hheld] at hh
    exact absurd hh (by simp)

/-- A full candidate does not replace a free one. -/
theorem keep (h : Least inFlight (some held) seen) (hheld : hasFree inFlight held = true)
    (hfull : hasFree inFlight candidate = false) : Least inFlight (some held) (seen ++ [candidate]) where
  none_iff := by simp
  mem := fun p hp => List.mem_append_left _ (h.mem p hp)
  free := by
    intro _
    have hbest := h.free ⟨held, h.mem held rfl, hheld⟩
    rw [List.filter_append, List.filter_cons_of_neg (by simp [hfull]), List.filter_nil,
      List.append_nil]
    exact hbest
  full := by
    intro hall
    have hh := hall held (List.mem_append_left _ (h.mem held rfl))
    rw [hheld] at hh
    exact absurd hh (by simp)

/-- Among full profiles only the products decide. -/
theorem offer_full (h : Least inFlight (some held) seen) (hheld : hasFree inFlight held = false)
    (hfull : hasFree inFlight candidate = false) :
    Least inFlight (if better inFlight candidate held then some candidate else some held)
      (seen ++ [candidate]) where
  none_iff := by
    split <;> simp
  mem := by
    have hin := h.mem held rfl
    intro profile hp
    split at hp <;> cases hp <;> simp [hin]
  free := by
    intro hex
    obtain ⟨p, hp, hfree⟩ := hex
    cases List.mem_append.mp hp with
    | inl hin =>
      have hh := h.held_free hin hfree
      rw [hheld] at hh
      exact absurd hh (by simp)
    | inr hin =>
      rw [List.mem_singleton.mp hin, hfull] at hfree
      exact absurd hfree (by simp)
  full := by
    intro hall hrange
    have hin := h.mem held rfl
    have hbest := h.full (fun p hp => hall p (List.mem_append_left _ hp)) fun a ha b hb =>
      hrange a (List.mem_append_left _ ha) b (List.mem_append_left _ hb)
    have heq : better inFlight candidate held = lighter inFlight candidate held := by
      have hsame : (hasFree inFlight candidate != hasFree inFlight held) = false := by
        rw [hfull, hheld]
        rfl
      rw [better, hsame]
      apply lighter_eq
      · exact hrange candidate (by simp) held (by simp [hin])
      · exact hrange held (by simp [hin]) candidate (by simp)
    rw [heq]
    exact hbest.offered (lighter_strict inFlight)

/-- One turn of the loop. -/
theorem offer (h : Least inFlight best seen) (candidate : ServerlessProfile) :
    Least inFlight (if beats (better inFlight) candidate best then some candidate else best)
      (seen ++ [candidate]) := by
  cases best with
  | none =>
    have hnil : seen = [] := h.none_iff.mp rfl
    subst hnil
    cases hfree : hasFree inFlight candidate with
    | true => exact take (fun p hp => absurd hp (by simp)) hfree
    | false =>
      refine ⟨by simp [beats], by simp [beats], ?_, ?_⟩
      · intro hex
        simp [hfree] at hex
      · intro _ _
        exact Best.empty.accept (lighter_strict inFlight) rfl
  | some held =>
    show Least inFlight (if better inFlight candidate held then some candidate else some held) _
    cases hheld : hasFree inFlight held with
    | true =>
      cases hfree : hasFree inFlight candidate with
      | true => exact h.offer_free hheld hfree
      | false =>
        have hne : hasFree inFlight candidate ≠ hasFree inFlight held := by simp [hheld, hfree]
        rw [better_of_ne hne, hfree]
        exact h.keep hheld hfree
    | false =>
      cases hfree : hasFree inFlight candidate with
      | true =>
        have hne : hasFree inFlight candidate ≠ hasFree inFlight held := by simp [hheld, hfree]
        rw [better_of_ne hne, hfree]
        refine take (fun p hp => Bool.eq_false_iff.mpr fun hp' => ?_) hfree
        have hh := h.held_free hp hp'
        rw [hheld] at hh
        exact absurd hh (by simp)
      | false => exact h.offer_full hheld hfree

end Least

theorem leastLoaded_least (inFlight : String → Option UInt64) (candidates : List ServerlessProfile) :
    Least inFlight (leastLoaded inFlight candidates) candidates := by
  have hrun : ∀ (rest seen : List ServerlessProfile) (best : Option ServerlessProfile),
      Least inFlight best seen → Least inFlight (rest.foldl (fun best candidate =>
        if beats (better inFlight) candidate best then some candidate else best) best)
        (seen ++ rest) := by
    intro rest
    induction rest with
    | nil =>
      intro seen best h
      rw [List.append_nil]
      exact h
    | cons candidate rest ih =>
      intro seen best h
      have hnext := ih _ _ (h.offer candidate)
      rw [List.append_assoc, List.singleton_append] at hnext
      exact hnext
  exact hrun candidates [] none (Least.start inFlight)

/-- A best one that no candidate beats stays. -/
theorem leastLoaded_cons_of_not_better {preferred : ServerlessProfile} {rest : List ServerlessProfile}
    (h : ∀ p ∈ rest, better inFlight p preferred = false) :
    leastLoaded inFlight (preferred :: rest) = some preferred := by
  show rest.foldl _ (some preferred) = some preferred
  induction rest with
  | nil => rfl
  | cons p rest ih =>
    have hp : beats (better inFlight) p (some preferred) = false := h p List.mem_cons_self
    rw [List.foldl_cons, hp]
    exact ih fun q hq => h q (List.mem_cons_of_mem _ hq)

end Lightest

/-! ### The choice -/

namespace ServerlessConfig
variable (config : ServerlessConfig) (inFlight : String → Option UInt64)

/-- Another enabled profile of the same build. -/
def Eligible (preferred profile : ServerlessProfile) : Prop :=
  profile ∈ config.profiles ∧ profile.enabled = true ∧ profile.id ≠ preferred.id ∧
    profile.solverDigest = preferred.solverDigest

/-- A free profile before a full one, and the least loaded of its kind. -/
structure Selects (preferred chosen : ServerlessProfile) : Prop where
  keeps : hasFree inFlight preferred = true → chosen = preferred
  source : chosen = preferred ∨ config.Eligible preferred chosen
  digest : chosen.solverDigest = preferred.solverDigest
  free : (∃ p, config.Eligible preferred p ∧ hasFree inFlight p = true) →
    hasFree inFlight chosen = true
  lightest_free : hasFree inFlight preferred = false → ∀ p, config.Eligible preferred p →
    hasFree inFlight p = true → ratio inFlight chosen ≤ ratio inFlight p
  lightest_full : hasFree inFlight preferred = false →
    (∀ p, config.Eligible preferred p → hasFree inFlight p = false) →
    InRange inFlight config.dispatchCandidates → ratio inFlight chosen ≤ ratio inFlight preferred ∧
      ∀ p, config.Eligible preferred p → ratio inFlight chosen ≤ ratio inFlight p
  preferred_iff : InRange inFlight config.dispatchCandidates → (chosen = preferred ↔
    hasFree inFlight preferred = true ∨
      ∀ p, config.Eligible preferred p → hasFree inFlight p = false ∧
        ratio inFlight preferred ≤ ratio inFlight p)

variable {config inFlight} {preferred profile chosen : ServerlessProfile}

theorem mem_siblings_iff :
    profile ∈ config.siblings preferred ↔ config.Eligible preferred profile := by
  rw [siblings, List.mem_mergeSort, List.mem_filter]
  simp only [Eligible, Bool.and_eq_true, bne_iff_ne, beq_iff_eq, and_assoc]

theorem dispatchCandidates_eq (h : config.selectedProfile = some preferred) :
    config.dispatchCandidates = preferred :: config.siblings preferred := by
  rw [dispatchCandidates, h]

theorem selects_preferred (hfree : hasFree inFlight preferred = true) :
    config.Selects inFlight preferred preferred where
  keeps := fun _ => rfl
  source := Or.inl rfl
  digest := rfl
  free := fun _ => hfree
  lightest_free := fun hfull => absurd hfree (by simp [hfull])
  lightest_full := fun hfull => absurd hfree (by simp [hfull])
  preferred_iff := fun _ => ⟨fun _ => Or.inl hfree, fun _ => rfl⟩

section Full
variable (hchosen : leastLoaded inFlight (preferred :: config.siblings preferred) = some chosen)
include hchosen

theorem selects_source : chosen = preferred ∨ config.Eligible preferred chosen := by
  have hleast := leastLoaded_least inFlight (preferred :: config.siblings preferred)
  cases List.mem_cons.mp (hleast.mem chosen hchosen) with
  | inl heq => exact Or.inl heq
  | inr hin => exact Or.inr (mem_siblings_iff.mp hin)

theorem selects_lightest_free {p : ServerlessProfile} (hp : config.Eligible preferred p)
    (hfree : hasFree inFlight p = true) :
    hasFree inFlight chosen = true ∧ ratio inFlight chosen ≤ ratio inFlight p := by
  have hleast := leastLoaded_least inFlight (preferred :: config.siblings preferred)
  rw [hchosen] at hleast
  have hin := List.mem_cons_of_mem preferred (mem_siblings_iff.mpr hp)
  have hbest := hleast.free ⟨p, hin, hfree⟩
  refine ⟨hleast.held_free hin hfree, ?_⟩
  have hnot := hbest.2 p (List.mem_filter.mpr ⟨hin, hfree⟩)
  exact not_lt.mp (of_decide_eq_false hnot)

variable (hsel : config.selectedProfile = some preferred) (hfull : hasFree inFlight preferred = false)
include hsel hfull

theorem selects_lightest_full (hnone : ∀ p, config.Eligible preferred p → hasFree inFlight p = false)
    (hrange : InRange inFlight config.dispatchCandidates) :
    ratio inFlight chosen ≤ ratio inFlight preferred ∧
      ∀ p, config.Eligible preferred p → ratio inFlight chosen ≤ ratio inFlight p := by
  have hleast := leastLoaded_least inFlight (preferred :: config.siblings preferred)
  rw [hchosen] at hleast
  have hall : ∀ p ∈ preferred :: config.siblings preferred, hasFree inFlight p = false := by
    intro p hp
    cases List.mem_cons.mp hp with
    | inl heq => rw [heq]; exact hfull
    | inr hin => exact hnone p (mem_siblings_iff.mp hin)
  rw [dispatchCandidates_eq hsel] at hrange
  have hbest := hleast.full hall hrange
  constructor
  · exact not_lt.mp (of_decide_eq_false (hbest.2 preferred List.mem_cons_self))
  · intro p hp
    have hin := List.mem_cons_of_mem preferred (mem_siblings_iff.mpr hp)
    exact not_lt.mp (of_decide_eq_false (hbest.2 p hin))

/-- A full profile is kept while no other one is free or less loaded. -/
theorem selects_preferred_iff (hrange : InRange inFlight config.dispatchCandidates) :
    chosen = preferred ↔ ∀ p, config.Eligible preferred p → hasFree inFlight p = false ∧
      ratio inFlight preferred ≤ ratio inFlight p := by
  constructor
  · intro heq p hp
    have hpfull : ∀ q, config.Eligible preferred q → hasFree inFlight q = false := by
      intro q hq
      cases hfree : hasFree inFlight q with
      | false => rfl
      | true =>
        have hc := (selects_lightest_free hchosen hq hfree).1
        rw [heq, hfull] at hc
        exact absurd hc (by simp)
    have hle := (selects_lightest_full hchosen hsel hfull hpfull hrange).2 p hp
    rw [heq] at hle
    exact ⟨hpfull p hp, hle⟩
  · intro hall
    rw [dispatchCandidates_eq hsel] at hrange
    have hnot : ∀ p ∈ config.siblings preferred, better inFlight p preferred = false := by
      intro p hp
      obtain ⟨hpfull, hle⟩ := hall p (mem_siblings_iff.mp hp)
      have hin := List.mem_cons_of_mem preferred hp
      have hsame : (hasFree inFlight p != hasFree inFlight preferred) = false := by
        rw [hpfull, hfull]
        rfl
      rw [better, hsame]
      have heq := lighter_eq (hrange p hin preferred List.mem_cons_self)
        (hrange preferred List.mem_cons_self p hin)
      rw [if_neg (by simp), heq]
      exact decide_eq_false (not_lt.mpr hle)
    have hkeep := leastLoaded_cons_of_not_better hnot
    rw [hchosen] at hkeep
    exact Option.some.inj hkeep

theorem selects_full : config.Selects inFlight preferred chosen where
  keeps := fun hfree => absurd hfree (by simp [hfull])
  source := selects_source hchosen
  digest := by
    cases selects_source hchosen with
    | inl heq => rw [heq]
    | inr hel => exact hel.2.2.2
  free := by
    intro hex
    obtain ⟨p, hp, hfree⟩ := hex
    exact (selects_lightest_free hchosen hp hfree).1
  lightest_free := fun _ p hp hfree => (selects_lightest_free hchosen hp hfree).2
  lightest_full := fun _ => selects_lightest_full hchosen hsel hfull
  preferred_iff := by
    intro hrange
    rw [selects_preferred_iff hchosen hsel hfull hrange, hfull]
    simp

end Full

/-- `dispatch_profile` returns a profile where one is selected, and it is chosen soundly. -/
theorem dispatchProfile_selects (config : ServerlessConfig) (inFlight : String → Option UInt64) :
    (config.selectedProfile = none → config.dispatchProfile inFlight = none) ∧
    ∀ preferred, config.selectedProfile = some preferred →
      ∃ chosen, config.dispatchProfile inFlight = some chosen ∧
        config.Selects inFlight preferred chosen := by
  constructor
  · intro hnone
    simp only [dispatchProfile, dispatchCandidates, hnone, List.head?_nil]
    rfl
  · intro preferred hsel
    have hcand := dispatchCandidates_eq hsel
    simp only [dispatchProfile, hcand, List.head?_cons]
    by_cases hfree : hasFree inFlight preferred = true
    · rw [if_pos hfree]
      exact ⟨preferred, rfl, selects_preferred hfree⟩
    · rw [if_neg hfree]
      have hleast := leastLoaded_least inFlight (preferred :: config.siblings preferred)
      cases hchosen : leastLoaded inFlight (preferred :: config.siblings preferred) with
      | none => exact absurd (hleast.none_iff.mp hchosen) (by simp)
      | some chosen => exact ⟨chosen, rfl, selects_full hchosen hsel (by simpa using hfree)⟩

def jakarta : ServerlessProfile := ⟨"jakarta", true, 100, 2, "a"⟩
def singapore : ServerlessProfile := ⟨"singapore", true, 90, 3, "a"⟩
def twoRegions : ServerlessConfig := ⟨some "jakarta", [jakarta, singapore]⟩

def jobsAt (first second : UInt64) (id : String) : Option UInt64 :=
  if id = "jakarta" then some first else if id = "singapore" then some second else none

theorem twoRegions_selects : ∃ chosen, twoRegions.dispatchProfile (jobsAt 2 1) = some chosen ∧
    twoRegions.Selects (jobsAt 2 1) jakarta chosen :=
  (dispatchProfile_selects twoRegions (jobsAt 2 1)).2 jakarta (by decide)

theorem twoRegions_candidates : twoRegions.dispatchCandidates = [jakarta, singapore] := by
  have hsel : twoRegions.selectedProfile = some jakarta := by decide
  have hfilter : (twoRegions.profiles.filter fun profile => profile.enabled &&
      profile.id != jakarta.id && profile.solverDigest == jakarta.solverDigest) = [singapore] := by
    decide
  rw [dispatchCandidates_eq hsel, siblings, hfilter, List.mergeSort_singleton]

/-- As many jobs as a count holds. -/
def mostJobs : UInt64 := 18446744073709551615

/-- A full profile is kept where no other one is free, and where the products saturate even when
the other one is less loaded. -/
theorem full_profile_kept : twoRegions.selectedProfile = some jakarta ∧
    (twoRegions.dispatchProfile (jobsAt 2 3) = some jakarta ∧
      hasFree (jobsAt 2 3) jakarta = false) ∧
    (twoRegions.dispatchProfile (jobsAt mostJobs mostJobs) = some jakarta ∧
      ratio (jobsAt mostJobs mostJobs) singapore < ratio (jobsAt mostJobs mostJobs) jakarta) := by
  have hratio : ratio (jobsAt mostJobs mostJobs) singapore <
      ratio (jobsAt mostJobs mostJobs) jakarta := by
    have hs : active (jobsAt mostJobs mostJobs) singapore = 18446744073709551615 := by decide
    have hj : active (jobsAt mostJobs mostJobs) jakarta = 18446744073709551615 := by decide
    have hcs : capacity singapore = 3 := by decide
    have hcj : capacity jakarta = 2 := by decide
    rw [ratio, ratio, hs, hj, hcs, hcj]
    norm_num
  refine ⟨by decide, ⟨?_, by decide⟩, ?_, hratio⟩
  · rw [dispatchProfile, twoRegions_candidates]
    decide
  · rw [dispatchProfile, twoRegions_candidates]
    decide

end ServerlessConfig

end TkbCherry.Serverless
