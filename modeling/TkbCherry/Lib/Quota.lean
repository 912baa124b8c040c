import TkbCherry.Lib.Table

/-!
# Metered claims

A table counts one entry per claim. Every entry belongs to a pool, and a claim is admitted
while its pool holds fewer entries than the limit. A key that is already stored is never
counted again, whatever pool the repeated claim asks for.
-/

namespace Quota

set_option autoImplicit false

open Table

universe u v w
variable {K : Type u} {V : Type v} {P : Type w}

inductive Admission where
  | claimed (used : Nat)
  | existing (used : Nat)
  | exhausted (used : Nat)
deriving DecidableEq, Repr

/-- The use an answer reports. -/
def Admission.used : Admission → Nat
  | .claimed n => n
  | .existing n => n
  | .exhausted n => n

variable [DecidableEq K] [DecidableEq P] (pool : K → V → P)

/-- The entries of one pool. -/
def used (m : Entries K V) (p : P) : Nat :=
  (m.entries.filter fun e => decide (pool e.1 e.2 = p)).length

def claim (limit : Nat) (k : K) (v : V) (m : Entries K V) : Admission × Entries K V :=
  if (m.lookup k).isSome then (.existing (used pool m (pool k v)), m)
  else
    let current := used pool m (pool k v)
    if limit ≤ current then (.exhausted current, m)
    else (.claimed (current + 1), m.insert k v)

/-- Remove the entry under `k` if it passes `own`. -/
def release (own : V → Bool) (k : K) (m : Entries K V) : Bool × Entries K V :=
  match m.lookup k with
  | some v => if own v then (true, m.erase k) else (false, m)
  | none => (false, m)

section Used
variable {pool} {m : Entries K V} {k : K} {v : V}

omit [DecidableEq K] in
@[simp] theorem used_empty (p : P) : used pool (∅ : Entries K V) p = 0 := rfl

theorem used_insert (h : m.lookup k = none) (v : V) (p : P) :
    used pool (m.insert k v) p = (if pool k v = p then 1 else 0) + used pool m p := by
  unfold used
  rw [AList.entries_insert_of_notMem (AList.lookup_eq_none.mp h), List.filter_cons]
  by_cases hp : pool k v = p
  · simp only [hp, decide_true, if_true, List.length_cons]
    exact Nat.add_comm _ _
  · simp [hp]

theorem used_erase_le (k : K) (p : P) : used pool (m.erase k) p ≤ used pool m p :=
  ((List.kerase_sublist k m.entries).filter _).length_le

end Used

section Claim
variable {limit : Nat} {k : K} {v : V} {m : Entries K V}

/-- What a claim does: it finds its key, finds its pool full, or stores its entry. -/
theorem claim_cases (limit : Nat) (k : K) (v : V) (m : Entries K V) :
    ((m.lookup k).isSome ∧ claim pool limit k v m = (.existing (used pool m (pool k v)), m)) ∨
    (m.lookup k = none ∧ limit ≤ used pool m (pool k v) ∧
      claim pool limit k v m = (.exhausted (used pool m (pool k v)), m)) ∨
    (m.lookup k = none ∧ used pool m (pool k v) < limit ∧
      claim pool limit k v m = (.claimed (used pool m (pool k v) + 1), m.insert k v)) := by
  unfold claim
  cases hl : m.lookup k with
  | some stored => exact .inl ⟨rfl, rfl⟩
  | none =>
    by_cases hfull : limit ≤ used pool m (pool k v)
    · exact .inr (.inl ⟨rfl, hfull, by simp [hfull]⟩)
    · exact .inr (.inr ⟨rfl, by omega, by simp [hfull]⟩)

/-- A stored key costs nothing to claim again. -/
theorem claim_stored (h : (m.lookup k).isSome) :
    claim pool limit k v m = (.existing (used pool m (pool k v)), m) := by
  unfold claim
  rw [if_pos h]

/-- The use a claim reports is what its pool holds afterwards. -/
theorem claim_used (limit : Nat) (k : K) (v : V) (m : Entries K V) :
    (claim pool limit k v m).1.used = used pool (claim pool limit k v m).2 (pool k v) := by
  rcases claim_cases pool limit k v m with ⟨_, h⟩ | ⟨_, _, h⟩ | ⟨hnone, _, h⟩
  · rw [h]
    rfl
  · rw [h]
    rfl
  · rw [h, used_insert hnone, if_pos rfl]
    exact Nat.add_comm _ _

/-- A claim keeps every pool within the limit. -/
theorem claim_within (h : ∀ p, used pool m p ≤ limit) (k : K) (v : V) (p : P) :
    used pool (claim pool limit k v m).2 p ≤ limit := by
  rcases claim_cases pool limit k v m with ⟨_, hc⟩ | ⟨_, _, hc⟩ | ⟨hnone, hroom, hc⟩
  · rw [hc]
    exact h p
  · rw [hc]
    exact h p
  · rw [hc, used_insert hnone]
    have hp := h p
    split
    · rename_i heq
      rw [heq] at hroom
      omega
    · omega

theorem lookup_claim_ne {j : K} (hne : j ≠ k) :
    (claim pool limit k v m).2.lookup j = m.lookup j := by
  rcases claim_cases pool limit k v m with ⟨_, h⟩ | ⟨_, _, h⟩ | ⟨_, _, h⟩
  · rw [h]
  · rw [h]
  · rw [h]
    exact AList.lookup_insert_ne hne

/-- A claim never changes an entry that is stored. -/
theorem lookup_claim_of_some {j : K} {stored : V} (h : m.lookup j = some stored) :
    (claim pool limit k v m).2.lookup j = some stored := by
  rcases eq_or_ne j k with rfl | hne
  · rw [claim_stored pool (by rw [h]; rfl)]
    exact h
  · rw [lookup_claim_ne pool hne, h]

/-- Only a claim of a key that was free is answered as a new one, and it stores its entry. -/
theorem claim_claimed {n : Nat} (h : (claim pool limit k v m).1 = .claimed n) :
    m.lookup k = none ∧ (claim pool limit k v m).2.lookup k = some v := by
  rcases claim_cases pool limit k v m with ⟨_, hc⟩ | ⟨_, _, hc⟩ | ⟨hnone, _, hc⟩
  · rw [hc] at h
    exact absurd h (by simp)
  · rw [hc] at h
    exact absurd h (by simp)
  · rw [hc]
    exact ⟨hnone, AList.lookup_insert m⟩

/-- Any other answer leaves the table as it is. -/
theorem claim_not_claimed (h : ∀ n, (claim pool limit k v m).1 ≠ .claimed n) :
    (claim pool limit k v m).2 = m := by
  rcases claim_cases pool limit k v m with ⟨_, hc⟩ | ⟨_, _, hc⟩ | ⟨_, _, hc⟩
  · rw [hc]
  · rw [hc]
  · rw [hc] at h
    exact absurd rfl (h _)

end Claim

section Release
variable {own : V → Bool} {k : K} {m : Entries K V}

theorem release_within {pool : K → V → P} {limit : Nat} (h : ∀ p, used pool m p ≤ limit)
    (own : V → Bool) (k : K) (p : P) : used pool (release own k m).2 p ≤ limit := by
  unfold release
  cases m.lookup k with
  | none => exact h p
  | some v =>
    dsimp only
    split
    · exact (used_erase_le k p).trans (h p)
    · exact h p

omit [DecidableEq P] in
theorem lookup_release_ne {j : K} (hne : j ≠ k) : (release own k m).2.lookup j = m.lookup j := by
  unfold release
  cases m.lookup k with
  | none => rfl
  | some v =>
    dsimp only
    split
    · exact AList.lookup_erase_ne hne
    · rfl

/-- A release answers that it removed an entry exactly when its own entry was stored. -/
theorem release_removed (own : V → Bool) (k : K) (m : Entries K V) :
    (release own k m).1 = true ↔ ∃ v, m.lookup k = some v ∧ own v = true := by
  unfold release
  cases hl : m.lookup k with
  | none => simp
  | some v => cases hv : own v <;> simp [hv]

theorem lookup_release_self (own : V → Bool) (k : K) (m : Entries K V) :
    (release own k m).2.lookup k = (m.lookup k).filter fun v => !own v := by
  unfold release
  cases hl : m.lookup k with
  | none => simp [hl]
  | some v => cases hv : own v <;> simp [hl, hv, Option.filter]

end Release

end Quota
