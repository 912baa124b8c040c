import TkbCherry.Pool.Edits
import TkbCherry.Pool.Admission

/-!
# The local-only contract

A job that must stay on an agent is in no VPS and no serverless phase. The preparations and
the fallbacks look at the flags; the two setters look at the phase, but only for the VPS.
-/

namespace TkbCherry.Pool

set_option autoImplicit false

open Table

/-- The contract of one record. -/
structure LocalOnly (job : ServerOwnedSolverJob) : Prop where
  exclusive : ¬ (job.nativeAgentRequired = true ∧ job.browserAgentRequired = true)
  phase : job.nativeAgentRequired = true ∨ job.browserAgentRequired = true →
    job.executionPhase.executor ≠ some .vps ∧ job.executionPhase.executor ≠ some .serverless

namespace LocalOnly
variable {job job' : ServerOwnedSolverJob}

/-- Flags that stay, and a phase of no executor or of an agent. -/
theorem move (h : LocalOnly job) (hn : job'.nativeAgentRequired = job.nativeAgentRequired)
    (hb : job'.browserAgentRequired = job.browserAgentRequired)
    (hp : job'.executionPhase.executor = none ∨ job'.executionPhase.executor = some .agent) :
    LocalOnly job' := by
  refine ⟨?_, fun _ => ?_⟩
  · rw [hn, hb]
    exact h.exclusive
  · rcases hp with hp | hp <;> simp [hp]

/-- Flags that stay or go, and a phase that stays. -/
theorem keep (h : LocalOnly job)
    (hn : job'.nativeAgentRequired = true → job.nativeAgentRequired = true)
    (hb : job'.browserAgentRequired = true → job.browserAgentRequired = true)
    (hp : job'.executionPhase = job.executionPhase) : LocalOnly job' := by
  refine ⟨fun hboth => h.exclusive ⟨hn hboth.1, hb hboth.2⟩, fun hone => ?_⟩
  rw [hp]
  exact h.phase (hone.imp hn hb)

end LocalOnly

theorem startServerWatchdog_flags (job : ServerOwnedSolverJob) (nowMs : Nat) :
    (startServerWatchdog job nowMs).nativeAgentRequired = job.nativeAgentRequired ∧
    (startServerWatchdog job nowMs).browserAgentRequired = job.browserAgentRequired ∧
    (startServerWatchdog job nowMs).executionPhase = job.executionPhase := by
  unfold startServerWatchdog
  split <;> exact ⟨rfl, rfl, rfl⟩

theorem LocalOnly.watch {job : ServerOwnedSolverJob} (h : LocalOnly job) (nowMs : Nat) :
    LocalOnly (startServerWatchdog job nowMs) := by
  obtain ⟨hn, hb, hp⟩ := startServerWatchdog_flags job nowMs
  exact h.keep (fun ht => hn ▸ ht) (fun ht => hb ▸ ht) hp

section Serverless

end Serverless

end TkbCherry.Pool
