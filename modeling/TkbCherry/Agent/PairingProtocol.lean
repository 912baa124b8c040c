import TkbCherry.Agent.Pairing

/-!
# The pairing protocol

What a call can do to the pairings, and what follows for every order of calls: the token that a
device gets is the one of the single completion, by the owner that began the approval.
-/

namespace TkbCherry.Agent

set_option autoImplicit false

open Table TkbCherry.Pool

variable {env : Env}

/-- Nothing is new, and only what was over is gone. -/
structure Fewer (nowMs : Nat) (m m' : AgentPairings) : Prop where
  old : ∀ k p, m'.lookup k = some p → m.lookup k = some p
  kept : ∀ k p, m.lookup k = some p → nowMs < p.expiresAtMs → m'.lookup k = some p

theorem Fewer.refl (nowMs : Nat) (m : AgentPairings) : Fewer nowMs m m :=
  ⟨fun _ _ h => h, fun _ _ h _ => h⟩

theorem prunePairings_fewer (m : AgentPairings) (nowMs : Nat) :
    Fewer nowMs m (prunePairings m nowMs) := by
  constructor
  · intro k p h
    exact ((lookup_retain_eq_some _).mp h).1
  · intro k p h hlive
    exact (lookup_retain_eq_some _).mpr ⟨h, decide_eq_true hlive⟩

theorem erase_fewer {m : AgentPairings} {key : String} {pairing : AgentPairing} {nowMs : Nat}
    (h : m.lookup key = some pairing) (hexpired : pairing.expiresAtMs ≤ nowMs) :
    Fewer nowMs m (m.erase key) := by
  constructor
  · intro k p hp
    rcases eq_or_ne k key with he | he
    · subst he
      exact absurd ((AList.lookup_erase k m).symm.trans hp) (by simp)
    · exact (AList.lookup_erase_ne he).symm.trans hp
  · intro k p hp hlive
    rcases eq_or_ne k key with he | he
    · subst he
      obtain rfl := Option.some.inj (h.symm.trans hp)
      omega
    · exact (AList.lookup_erase_ne he).trans hp

/-- How a call moves a pairing on, and what is recorded of it. -/
inductive Move (env : Env) (key : String) (history : List PairEvent) :
    PairOp → AgentPairState → AgentPairState → List PairEvent → Prop where
  | began (userCode : String) (owner : SolverOwner) (approvalToken : String) (nowMs : Nat) :
    Move env key history (.beginApproval userCode owner approvalToken nowMs) .pending
      (.approving owner (env.secretHash approvalToken)) (.began owner approvalToken :: history)
  | completed (ticket : AgentPairApprovalTicket) (owner : SolverOwner) (agentToken : String)
      (agentTokenExpiresAt nowMs : Nat) (hkey : ticket.pairingKey = key) :
    Move env key history (.complete ticket owner agentToken agentTokenExpiresAt nowMs)
      (.approving owner (env.secretHash ticket.approvalToken))
      (.approved owner (Text.trim agentToken) agentTokenExpiresAt)
      (.completed owner ticket.approvalToken agentToken agentTokenExpiresAt :: history)
  | aborted (ticket : AgentPairApprovalTicket) (owner : SolverOwner) (nowMs : Nat)
      (hkey : ticket.pairingKey = key) :
    Move env key history (.abort ticket owner nowMs)
      (.approving owner (env.secretHash ticket.approvalToken)) .pending history

/-- What a call can do. -/
inductive PairEffect (env : Env) (w : PairWorld) (op : PairOp) (w' : PairWorld) : Prop where
  | fewer (h : Fewer op.nowMs w.pairings w'.pairings) (hhistory : w'.history = w.history)
  | starts (base : AgentPairings) (deviceCode : String) (pairing : AgentPairing)
      (hbase : Fewer op.nowMs w.pairings base)
      (hkey : base.lookup (env.secretHash deviceCode) = none)
      (hcode : ∀ k p, base.lookup k = some p → p.userCode ≠ pairing.userCode)
      (hpending : pairing.state = .pending)
      (hpairings : w'.pairings = base.insert (env.secretHash deviceCode) pairing)
      (hhistory : w'.history =
        PairWorld.record w.history (env.secretHash deviceCode) [.started deviceCode])
  | moves (key : String) (pairing : AgentPairing) (state : AgentPairState) (events : List PairEvent)
      (hlookup : w.pairings.lookup key = some pairing)
      (hmove : Move env key (w.history key) op pairing.state state events)
      (hpairings : w'.pairings = setPairState w.pairings key state)
      (hhistory : w'.history = PairWorld.record w.history key events)

/-! ### The calls, one by one -/

theorem record_self (history : String → List PairEvent) (key : String) :
    PairWorld.record history key (history key) = history := by
  funext k
  unfold PairWorld.record
  split
  · rename_i he
    rw [he]
  · rfl

theorem pairingTaken_false {m : AgentPairings} {draw : String × String}
    (h : (!pairingTaken env m draw) = true) :
    m.lookup (env.secretHash (deviceCodeOf draw.1)) = none ∧
      ∀ k p, m.lookup k = some p → p.userCode ≠ draw.2 := by
  unfold pairingTaken at h
  rw [Bool.not_eq_true', Bool.or_eq_false_iff] at h
  refine ⟨Option.not_isSome_iff_eq_none.mp (by rw [h.1]; exact Bool.false_ne_true), ?_⟩
  intro k p hp he
  have hany := List.any_eq_false.mp h.2 (k, p) (mem_toList_iff.mpr hp)
  exact hany (decide_eq_true he)

section Calls
variable {m m' : AgentPairings} {nowMs : Nat}

theorem startPairing_cases {agentId agentName : String} {draws : Nat → String × String}
    {answer : Except AgentPairError AgentPairStart}
    (hr : startPairing env m agentId agentName draws nowMs = (m', answer)) :
    ((∃ e, answer = .error e) ∧ Fewer nowMs m m') ∨
    ∃ base started pairing, answer = .ok started ∧ Fewer nowMs m base ∧
      base.lookup (env.secretHash started.deviceCode) = none ∧
      (∀ k p, base.lookup k = some p → p.userCode ≠ pairing.userCode) ∧ pairing.state = .pending ∧
      m' = base.insert (env.secretHash started.deviceCode) pairing := by
  have hprune := prunePairings_fewer m nowMs
  unfold startPairing at hr
  dsimp only at hr
  split at hr
  · cases hr
    exact .inl ⟨⟨_, rfl⟩, .refl _ _⟩
  · split at hr
    · cases hr
      exact .inl ⟨⟨_, rfl⟩, hprune⟩
    · split at hr
      · cases hr
        exact .inl ⟨⟨_, rfl⟩, hprune⟩
      · rename_i i hfound
        have hfree := List.find?_some hfound
        obtain ⟨hkey, hcode⟩ := pairingTaken_false hfree
        obtain ⟨rfl, rfl⟩ := Prod.mk.inj hr
        exact .inr ⟨_, _, _, rfl, hprune, hkey, hcode, rfl, rfl⟩

theorem beginPairApproval_cases {userCode approvalToken : String} {owner : SolverOwner}
    {answer : Except AgentPairError AgentPairApprovalTicket}
    (hr : beginPairApproval env m userCode owner approvalToken nowMs = (m', answer)) :
    ((∃ e, answer = .error e) ∧ Fewer nowMs m m') ∨
    ∃ ticket pairing, answer = .ok ticket ∧ ticket.approvalToken = approvalToken ∧
      m.lookup ticket.pairingKey = some pairing ∧ pairing.state = .pending ∧
      m' = setPairState m ticket.pairingKey (.approving owner (env.secretHash approvalToken)) := by
  unfold beginPairApproval at hr
  split at hr
  · cases hr
    exact .inl ⟨⟨_, rfl⟩, .refl _ _⟩
  · split at hr
    · cases hr
      exact .inl ⟨⟨_, rfl⟩, .refl _ _⟩
    · rename_i key pairing hfound
      have hlookup := mem_toList_iff.mp (List.mem_of_find?_eq_some hfound)
      split at hr
      · rename_i hexpired
        cases hr
        exact .inl ⟨⟨_, rfl⟩, erase_fewer hlookup hexpired⟩
      · split at hr
        · rename_i hpending
          cases hr
          exact .inr ⟨_, pairing, rfl, rfl, hlookup, hpending, rfl⟩
        · cases hr
          exact .inl ⟨⟨_, rfl⟩, .refl _ _⟩
        · cases hr
          exact .inl ⟨⟨_, rfl⟩, .refl _ _⟩

theorem completePairApproval_cases {ticket : AgentPairApprovalTicket} {owner : SolverOwner}
    {agentToken : String} {agentTokenExpiresAt : Nat} {answer : Except AgentPairError Unit}
    (hr : completePairApproval env m ticket owner agentToken agentTokenExpiresAt nowMs = (m', answer)) :
    ((∃ e, answer = .error e) ∧ Fewer nowMs m m') ∨
    ∃ pairing, answer = .ok () ∧ m.lookup ticket.pairingKey = some pairing ∧
      pairing.state = .approving owner (env.secretHash ticket.approvalToken) ∧
      m' = setPairState m ticket.pairingKey
        (.approved owner (Text.trim agentToken) agentTokenExpiresAt) := by
  unfold completePairApproval at hr
  dsimp only at hr
  split at hr
  · cases hr
    exact .inl ⟨⟨_, rfl⟩, .refl _ _⟩
  · split at hr
    · cases hr
      exact .inl ⟨⟨_, rfl⟩, .refl _ _⟩
    · rename_i pairing hlookup
      split at hr
      · rename_i hexpired
        cases hr
        exact .inl ⟨⟨_, rfl⟩, erase_fewer hlookup hexpired⟩
      · split at hr
        · rename_i hmatches
          cases hr
          exact .inr ⟨pairing, rfl, hlookup, of_decide_eq_true hmatches, rfl⟩
        · cases hr
          exact .inl ⟨⟨_, rfl⟩, .refl _ _⟩

variable (env) in
theorem abortPairApproval_cases (m : AgentPairings) (ticket : AgentPairApprovalTicket)
    (owner : SolverOwner) (nowMs : Nat) :
    Fewer nowMs m (abortPairApproval env m ticket owner nowMs) ∨
    ∃ pairing, m.lookup ticket.pairingKey = some pairing ∧
      pairing.state = .approving owner (env.secretHash ticket.approvalToken) ∧
      abortPairApproval env m ticket owner nowMs = setPairState m ticket.pairingKey .pending := by
  unfold abortPairApproval
  split
  · exact .inl (.refl _ _)
  · rename_i pairing hlookup
    split
    · rename_i hexpired
      exact .inl (erase_fewer hlookup hexpired)
    · split
      · rename_i hmatches
        exact .inr ⟨pairing, hlookup, of_decide_eq_true hmatches, rfl⟩
      · exact .inl (.refl _ _)

theorem pairingStatus_fewer (m : AgentPairings) (deviceCode : String) (nowMs : Nat) :
    Fewer nowMs m (pairingStatus env m deviceCode nowMs).1 := by
  unfold pairingStatus
  split
  · exact .refl _ _
  · dsimp only
    split
    · exact .refl _ _
    · rename_i pairing hlookup
      split
      · rename_i hexpired
        exact erase_fewer hlookup hexpired
      · split
        · exact .refl _ _
        · exact .refl _ _

end Calls

theorem pair_effect (w : PairWorld) (op : PairOp) : PairEffect env w op (w.apply env op) := by
  cases op with
  | start agentId agentName draws nowMs =>
    unfold PairWorld.apply
    dsimp only
    generalize hr : startPairing env w.pairings agentId agentName draws nowMs = result
    obtain ⟨m', answer⟩ := result
    rcases startPairing_cases hr with ⟨⟨e, rfl⟩, hfewer⟩ |
      ⟨base, started, pairing, rfl, hbase, hkey, hcode, hpending, hpairings⟩
    · exact .fewer hfewer rfl
    · exact .starts base started.deviceCode pairing hbase hkey hcode hpending hpairings rfl
  | beginApproval userCode owner approvalToken nowMs =>
    unfold PairWorld.apply
    dsimp only
    generalize hr : beginPairApproval env w.pairings userCode owner approvalToken nowMs = result
    obtain ⟨m', answer⟩ := result
    rcases beginPairApproval_cases hr with ⟨⟨e, rfl⟩, hfewer⟩ |
      ⟨ticket, pairing, rfl, rfl, hlookup, hpending, hpairings⟩
    · exact .fewer hfewer rfl
    · refine .moves ticket.pairingKey pairing _ _ hlookup ?_ hpairings rfl
      rw [hpending]
      exact .began userCode owner ticket.approvalToken nowMs
  | complete ticket owner agentToken agentTokenExpiresAt nowMs =>
    unfold PairWorld.apply
    dsimp only
    generalize hr : completePairApproval env w.pairings ticket owner agentToken agentTokenExpiresAt
      nowMs = result
    obtain ⟨m', answer⟩ := result
    rcases completePairApproval_cases hr with ⟨⟨e, rfl⟩, hfewer⟩ |
      ⟨pairing, rfl, hlookup, happroving, hpairings⟩
    · exact .fewer hfewer rfl
    · refine .moves ticket.pairingKey pairing _ _ hlookup ?_ hpairings rfl
      rw [happroving]
      exact .completed ticket owner agentToken agentTokenExpiresAt nowMs rfl
  | abort ticket owner nowMs =>
    unfold PairWorld.apply
    dsimp only
    rcases abortPairApproval_cases env w.pairings ticket owner nowMs with
      hfewer | ⟨pairing, hlookup, happroving, hpairings⟩
    · exact .fewer hfewer rfl
    · refine .moves ticket.pairingKey pairing _ _ hlookup ?_ hpairings (record_self _ _).symm
      rw [happroving]
      exact .aborted ticket owner nowMs rfl
  | poll deviceCode nowMs =>
    unfold PairWorld.apply
    dsimp only
    exact .fewer (pairingStatus_fewer w.pairings deviceCode nowMs) rfl
  | prune nowMs => exact .fewer (prunePairings_fewer w.pairings nowMs) rfl

/-! ### What the pairings say about their history -/

def Uncompleted (history : List PairEvent) : Prop := ∀ e ∈ history, e.isCompleted = false

/-- The calls that brought a pairing into its state. -/
def Backed (env : Env) (history : List PairEvent) : AgentPairState → Prop
  | .pending => Uncompleted history
  | .approving owner approvalTokenHash => Uncompleted history ∧
    ∃ approvalToken, .began owner approvalToken ∈ history ∧
      env.secretHash approvalToken = approvalTokenHash
  | .approved owner agentToken agentTokenExpiresAt => ∃ approvalToken given older,
    history = .completed owner approvalToken given agentTokenExpiresAt :: older ∧
      agentToken = Text.trim given ∧ .began owner approvalToken ∈ older ∧ Uncompleted older

structure PairInv (env : Env) (w : PairWorld) : Prop where
  userCodes : ∀ {k l p q}, w.pairings.lookup k = some p → w.pairings.lookup l = some q →
    p.userCode = q.userCode → k = l
  started : ∀ {k p}, w.pairings.lookup k = some p → ∃ deviceCode,
    (w.history k).getLast? = some (.started deviceCode) ∧ env.secretHash deviceCode = k
  backed : ∀ {k p}, w.pairings.lookup k = some p → Backed env (w.history k) p.state
  once : ∀ k, (w.history k).countP PairEvent.isCompleted ≤ 1

theorem Uncompleted.countP {history : List PairEvent} (h : Uncompleted history) :
    history.countP PairEvent.isCompleted = 0 := by
  rw [List.countP_eq_zero]
  intro e he
  rw [h e he]
  exact Bool.false_ne_true

theorem Uncompleted.cons {history : List PairEvent} (h : Uncompleted history) {e : PairEvent}
    (he : e.isCompleted = false) : Uncompleted (e :: history) := by
  intro e' hmem
  rcases List.mem_cons.mp hmem with rfl | hold
  · exact he
  · exact h e' hold

theorem PairInv.empty : PairInv env .empty := by
  have hnone {k p} (h : PairWorld.empty.pairings.lookup k = some p) : False :=
    absurd ((AList.lookup_empty k).symm.trans h) (by simp)
  exact ⟨fun h => (hnone h).elim, fun h => (hnone h).elim, fun h => (hnone h).elim,
    fun _ => Nat.zero_le _⟩

section Steps
variable {w w' : PairWorld} {nowMs : Nat}

theorem PairInv.fewer (h : PairInv env w) (hf : Fewer nowMs w.pairings w'.pairings)
    (hhistory : w'.history = w.history) : PairInv env w' where
  userCodes hk hl heq := h.userCodes (hf.old _ _ hk) (hf.old _ _ hl) heq
  started hk := by
    rw [hhistory]
    exact h.started (hf.old _ _ hk)
  backed hk := by
    rw [hhistory]
    exact h.backed (hf.old _ _ hk)
  once k := by
    rw [hhistory]
    exact h.once k

theorem record_eq (history : List PairEvent) (before : String → List PairEvent) (key : String) :
    PairWorld.record before key history key = history := if_pos rfl

theorem record_ne {k key : String} (h : k ≠ key) (history : List PairEvent)
    (before : String → List PairEvent) : PairWorld.record before key history k = before k := if_neg h

/-- A new pairing. -/
theorem PairInv.starts (h : PairInv env w) {base : AgentPairings} {deviceCode : String}
    {pairing : AgentPairing} (hbase : Fewer nowMs w.pairings base)
    (hcode : ∀ k p, base.lookup k = some p → p.userCode ≠ pairing.userCode)
    (hpending : pairing.state = .pending)
    (hpairings : w'.pairings = base.insert (env.secretHash deviceCode) pairing)
    (hhistory : w'.history =
      PairWorld.record w.history (env.secretHash deviceCode) [.started deviceCode]) :
    PairInv env w' := by
  have hlookup {k p} (hk : w'.pairings.lookup k = some p) :
      k = env.secretHash deviceCode ∧ p = pairing ∨
        k ≠ env.secretHash deviceCode ∧ base.lookup k = some p := by
    rw [hpairings] at hk
    rcases eq_or_ne k (env.secretHash deviceCode) with he | he
    · rw [he, AList.lookup_insert] at hk
      exact .inl ⟨he, (Option.some.inj hk).symm⟩
    · rw [AList.lookup_insert_ne he] at hk
      exact .inr ⟨he, hk⟩
  constructor
  · intro k l p q hk hl heq
    rcases hlookup hk with ⟨hk, rfl⟩ | ⟨-, hk⟩
    · rcases hlookup hl with ⟨hl, -⟩ | ⟨-, hl⟩
      · exact hk.trans hl.symm
      · exact absurd heq.symm (hcode l q hl)
    · rcases hlookup hl with ⟨-, rfl⟩ | ⟨-, hl⟩
      · exact absurd heq (hcode k p hk)
      · exact h.userCodes (hbase.old k p hk) (hbase.old l q hl) heq
  · intro k p hk
    rw [hhistory]
    rcases hlookup hk with ⟨rfl, -⟩ | ⟨hne, hk⟩
    · exact ⟨deviceCode, by rw [record_eq]; rfl, rfl⟩
    · rw [record_ne hne]
      exact h.started (hbase.old k p hk)
  · intro k p hk
    rw [hhistory]
    rcases hlookup hk with ⟨rfl, rfl⟩ | ⟨hne, hk⟩
    · rw [record_eq, hpending]
      intro e he
      rw [List.mem_singleton.mp he]
      rfl
    · rw [record_ne hne]
      exact h.backed (hbase.old k p hk)
  · intro k
    rw [hhistory]
    rcases eq_or_ne k (env.secretHash deviceCode) with rfl | hne
    · rw [record_eq]
      exact Nat.zero_le _
    · rw [record_ne hne]
      exact h.once k

/-- A move keeps the pairing backed, with at most one completion. -/
theorem Move.backed (hinj : Function.Injective env.secretHash) {key : String}
    {history events : List PairEvent} {op : PairOp} {old new : AgentPairState}
    (hmove : Move env key history op old new events) (h : Backed env history old) :
    Backed env events new ∧ events.countP PairEvent.isCompleted ≤ 1 ∧
      ∃ newer, events = newer ++ history := by
  cases hmove with
  | began userCode owner approvalToken nowMs =>
    have hcons := h.cons (e := .began owner approvalToken) rfl
    refine ⟨⟨hcons, approvalToken, List.mem_cons_self, rfl⟩, ?_, [_], rfl⟩
    rw [hcons.countP]
    exact Nat.zero_le _
  | completed ticket owner agentToken agentTokenExpiresAt nowMs hkey =>
    obtain ⟨hnone, approvalToken, hbegan, hhash⟩ := h
    rw [hinj hhash] at hbegan
    refine ⟨⟨ticket.approvalToken, agentToken, history, rfl, rfl, hbegan, hnone⟩, ?_, [_], rfl⟩
    rw [List.countP_cons, hnone.countP]
    exact Nat.le_refl _
  | aborted ticket owner nowMs hkey =>
    refine ⟨h.1, ?_, [], rfl⟩
    rw [h.1.countP]
    exact Nat.zero_le _

theorem lookup_setPairState {m : AgentPairings} {key k : String} {pairing p : AgentPairing}
    {state : AgentPairState} (hlookup : m.lookup key = some pairing)
    (hk : (setPairState m key state).lookup k = some p) :
    k = key ∧ p = { pairing with state } ∨ k ≠ key ∧ m.lookup k = some p := by
  unfold setPairState at hk
  rcases eq_or_ne k key with he | he
  · rw [he, lookup_modify_self, hlookup] at hk
    exact .inl ⟨he, (Option.some.inj hk).symm⟩
  · rw [lookup_modify_ne he] at hk
    exact .inr ⟨he, hk⟩

theorem PairInv.moves (hinj : Function.Injective env.secretHash) (h : PairInv env w) {key : String}
    {pairing : AgentPairing} {op : PairOp} {state : AgentPairState} {events : List PairEvent}
    (hlookup : w.pairings.lookup key = some pairing)
    (hmove : Move env key (w.history key) op pairing.state state events)
    (hpairings : w'.pairings = setPairState w.pairings key state)
    (hhistory : w'.history = PairWorld.record w.history key events) : PairInv env w' := by
  obtain ⟨hbacked, honce, newer, hevents⟩ := hmove.backed hinj (h.backed hlookup)
  constructor
  · intro k l p q hk hl heq
    rw [hpairings] at hk hl
    rcases lookup_setPairState hlookup hk with ⟨rfl, rfl⟩ | ⟨-, hold⟩
    · rcases lookup_setPairState hlookup hl with ⟨rfl, -⟩ | ⟨-, hold'⟩
      · rfl
      · exact h.userCodes hlookup hold' heq
    · rcases lookup_setPairState hlookup hl with ⟨rfl, rfl⟩ | ⟨-, hold'⟩
      · exact h.userCodes hold hlookup heq
      · exact h.userCodes hold hold' heq
  · intro k p hk
    rw [hpairings] at hk
    rw [hhistory]
    rcases lookup_setPairState hlookup hk with ⟨rfl, -⟩ | ⟨hne, hk⟩
    · obtain ⟨deviceCode, hlast, hhash⟩ := h.started hlookup
      refine ⟨deviceCode, ?_, hhash⟩
      rw [record_eq, hevents, List.getLast?_append, hlast]
      rfl
    · rw [record_ne hne]
      exact h.started hk
  · intro k p hk
    rw [hpairings] at hk
    rw [hhistory]
    rcases lookup_setPairState hlookup hk with ⟨rfl, rfl⟩ | ⟨hne, hk⟩
    · rw [record_eq]
      exact hbacked
    · rw [record_ne hne]
      exact h.backed hk
  · intro k
    rw [hhistory]
    rcases eq_or_ne k key with rfl | hne
    · rw [record_eq]
      exact honce
    · rw [record_ne hne]
      exact h.once k

theorem PairInv.apply (hinj : Function.Injective env.secretHash) (h : PairInv env w) (op : PairOp) :
    PairInv env (w.apply env op) := by
  cases pair_effect w op with
  | fewer hfewer hhistory => exact h.fewer hfewer hhistory
  | starts base deviceCode pairing hbase hkey hcode hpending hpairings hhistory =>
    exact h.starts hbase hcode hpending hpairings hhistory
  | moves key pairing state events hlookup hmove hpairings hhistory =>
    exact h.moves hinj hlookup hmove hpairings hhistory

end Steps

theorem PairInv.run (hinj : Function.Injective env.secretHash) (ops : List PairOp) {w : PairWorld}
    (h : PairInv env w) : PairInv env (w.run env ops) := by
  unfold PairWorld.run
  induction ops generalizing w with
  | nil => exact h
  | cons op ops ih => exact ih (h.apply hinj op)

/-! ### The protocol -/

/-- The call ends the approval that this owner has going on under a key. -/
def PairOp.ends (env : Env) (key : String) (owner : SolverOwner) (approvalTokenHash : String) :
    PairOp → Prop
  | .complete ticket caller _ _ _ => ticket.pairingKey = key ∧ caller = owner ∧
    env.secretHash ticket.approvalToken = approvalTokenHash
  | .abort ticket caller _ => ticket.pairingKey = key ∧ caller = owner ∧
    env.secretHash ticket.approvalToken = approvalTokenHash
  | _ => False

/-- What the pairings of a coordinator promise. -/
structure PairingProtocol (env : Env) (w : PairWorld) : Prop where
  userCodes : ∀ k l p q, w.pairings.lookup k = some p → w.pairings.lookup l = some q →
    p.userCode = q.userCode → k = l
  once : ∀ k, (w.history k).countP PairEvent.isCompleted ≤ 1
  delivered : ∀ deviceCode nowMs agentToken agentTokenExpiresAt expiresAtMs,
    (pairingStatus env w.pairings deviceCode nowMs).2 =
      .ok (.approved agentToken agentTokenExpiresAt expiresAtMs) →
    ∃ owner approvalToken given older,
      w.history (env.secretHash (Text.trim deviceCode)) =
        .completed owner approvalToken given agentTokenExpiresAt :: older ∧
      agentToken = Text.trim given ∧ .began owner approvalToken ∈ older ∧ Uncompleted older ∧
      older.getLast? = some (.started (Text.trim deviceCode))
  approved : ∀ k p owner agentToken agentTokenExpiresAt, w.pairings.lookup k = some p →
    p.state = .approved owner agentToken agentTokenExpiresAt →
    ∀ ops : List PairOp, (∀ op ∈ ops, op.nowMs < p.expiresAtMs) →
      (w.run env ops).pairings.lookup k = some p
  approving : ∀ k p owner approvalTokenHash, w.pairings.lookup k = some p →
    p.state = .approving owner approvalTokenHash →
    ∀ ops : List PairOp, (∀ op ∈ ops, op.nowMs < p.expiresAtMs ∧
      ¬ op.ends env k owner approvalTokenHash) → (w.run env ops).pairings.lookup k = some p

/-- A live pairing stays as it is unless a call moves it. -/
theorem PairEffect.stays {w w' : PairWorld} {op : PairOp} {k : String} {p : AgentPairing}
    (h : PairEffect env w op w') (hlookup : w.pairings.lookup k = some p)
    (hlive : op.nowMs < p.expiresAtMs)
    (hno : ∀ state events, ¬ Move env k (w.history k) op p.state state events) :
    w'.pairings.lookup k = some p := by
  cases h with
  | fewer hfewer hhistory => exact hfewer.kept k p hlookup hlive
  | starts base deviceCode pairing hbase hkey hcode hpending hpairings hhistory =>
    have hkept := hbase.kept k p hlookup hlive
    have hne : k ≠ env.secretHash deviceCode := by
      intro he
      rw [he, hkey] at hkept
      exact absurd hkept (by simp)
    rw [hpairings, AList.lookup_insert_ne hne]
    exact hkept
  | moves key pairing state events hat hmove hpairings hhistory =>
    have hne : k ≠ key := by
      rintro rfl
      obtain rfl := Option.some.inj (hlookup.symm.trans hat)
      exact hno state events hmove
    rw [hpairings, setPairState, lookup_modify_ne hne]
    exact hlookup

/-- And it stays along a run none of whose calls moves it. -/
theorem PairWorld.run_stays {w : PairWorld} {k : String} {p : AgentPairing} {C : PairOp → Prop}
    (hno : ∀ op history state events, C op → ¬ Move env k history op p.state state events)
    (hlookup : w.pairings.lookup k = some p) (ops : List PairOp)
    (hops : ∀ op ∈ ops, op.nowMs < p.expiresAtMs ∧ C op) :
    (w.run env ops).pairings.lookup k = some p := by
  unfold PairWorld.run
  induction ops generalizing w with
  | nil => exact hlookup
  | cons op ops ih =>
    obtain ⟨hlive, hop⟩ := hops op List.mem_cons_self
    have hone := (pair_effect w op).stays hlookup hlive fun _ _ => hno op _ _ _ hop
    exact ih hone fun op' hop' => hops op' (List.mem_cons_of_mem _ hop')

theorem Move.not_approved {key : String} {history events : List PairEvent} {op : PairOp}
    {owner : SolverOwner} {agentToken : String} {agentTokenExpiresAt : Nat} {state : AgentPairState} :
    ¬ Move env key history op (.approved owner agentToken agentTokenExpiresAt) state events := by
  intro h
  cases h

theorem Move.ends {key : String} {history events : List PairEvent} {op : PairOp}
    {owner : SolverOwner} {approvalTokenHash : String} {state : AgentPairState}
    (h : Move env key history op (.approving owner approvalTokenHash) state events) :
    op.ends env key owner approvalTokenHash := by
  cases h with
  | completed ticket _ _ _ _ hkey => exact ⟨hkey, rfl, rfl⟩
  | aborted ticket _ _ hkey => exact ⟨hkey, rfl, rfl⟩

theorem normalizeDeviceCode_eq {value code : String} (h : normalizeDeviceCode value = some code) :
    code = Text.trim value := by
  unfold normalizeDeviceCode at h
  dsimp only at h
  split at h
  · exact (Option.some.inj h).symm
  · exact absurd h (by simp)

/-- What a poll hands out is the token of an approved pairing. -/
theorem pairingStatus_approved {m : AgentPairings} {deviceCode agentToken : String}
    {nowMs agentTokenExpiresAt expiresAtMs : Nat}
    (h : (pairingStatus env m deviceCode nowMs).2 =
      .ok (.approved agentToken agentTokenExpiresAt expiresAtMs)) :
    ∃ p owner, m.lookup (env.secretHash (Text.trim deviceCode)) = some p ∧
      p.state = .approved owner agentToken agentTokenExpiresAt := by
  unfold pairingStatus at h
  split at h
  · exact absurd h (by simp)
  · rename_i code hcode
    rw [normalizeDeviceCode_eq hcode] at h
    dsimp only at h
    split at h
    · exact absurd h (by simp)
    · rename_i p hlookup
      split at h
      · exact absurd h (by simp)
      · split at h
        · rename_i owner token tokenExpiresAt hstate
          simp only [Except.ok.injEq, AgentPairStatus.approved.injEq] at h
          obtain ⟨rfl, rfl, -⟩ := h
          exact ⟨p, owner, hlookup, hstate⟩
        · exact absurd h (by simp)

/-- For every order of calls by any owners: a device gets the token of the one completion of its
pairing, by the owner that began the approval under the same ticket; until it is over, an approved
pairing stays as it is, and one whose approval is going on changes only under its ticket; and no
two pairings have the same user code. -/
theorem pairing_protocol (hinj : Function.Injective env.secretHash) (ops : List PairOp) :
    PairingProtocol env (PairWorld.empty.run env ops) := by
  have h : PairInv env (PairWorld.empty.run env ops) := PairInv.empty.run hinj ops
  constructor
  · intro k l p q hk hl heq
    exact h.userCodes hk hl heq
  · exact h.once
  · intro deviceCode nowMs agentToken agentTokenExpiresAt expiresAtMs hpoll
    obtain ⟨p, owner, hlookup, hstate⟩ := pairingStatus_approved hpoll
    have hbacked := h.backed hlookup
    rw [hstate] at hbacked
    obtain ⟨approvalToken, given, older, hhistory, htoken, hbegan, hnone⟩ := hbacked
    obtain ⟨started, hlast, hhash⟩ := h.started hlookup
    refine ⟨owner, approvalToken, given, older, hhistory, htoken, hbegan, hnone, ?_⟩
    rw [hhistory, List.getLast?_cons_of_ne_nil (List.ne_nil_of_mem hbegan)] at hlast
    rw [hlast, hinj hhash]
  · intro k p owner agentToken agentTokenExpiresAt hlookup hstate later hlater
    refine PairWorld.run_stays (C := fun _ => True) ?_ hlookup later fun op hop => ⟨hlater op hop, trivial⟩
    intro op history state events _
    rw [hstate]
    exact Move.not_approved
  · intro k p owner approvalTokenHash hlookup hstate later hlater
    refine PairWorld.run_stays ?_ hlookup later hlater
    intro op history state events hop hmove
    rw [hstate] at hmove
    exact hop hmove.ends

/-! ### One device, one owner -/

namespace Pairing

def plain : Env := ⟨id, fun _ => none, fun _ index => index + 1⟩

def owner : SolverOwner := ⟨"school", "an"⟩

def secret : String := String.ofList (List.replicate 64 'a')

def ticket : AgentPairApprovalTicket :=
  ⟨deviceCodeOf secret, "approval-1", "pc-1", "PC 1", 300000⟩

/-- The device starts, the owner types the code, begins and completes. -/
def ops : List PairOp :=
  [.start "pc-1" "PC 1" (fun _ => (secret, "ABCD-2345")) 0,
    .beginApproval "abcd2345" owner "approval-1" 10, .complete ticket owner "tkba_1" 7 20]

end Pairing

set_option maxRecDepth 8000 in
theorem pairing_protocol_demo :
    PairingProtocol Pairing.plain (PairWorld.empty.run Pairing.plain Pairing.ops) ∧
    (pairingStatus Pairing.plain (PairWorld.empty.run Pairing.plain Pairing.ops).pairings
      (deviceCodeOf Pairing.secret) 30).2 = .ok (.approved "tkba_1" 7 300000) :=
  ⟨pairing_protocol (fun _ _ h => h) Pairing.ops, by decide⟩

end TkbCherry.Agent
