import TkbCherry.Registry.Accounts

/-!
# Concurrent updates of the registry

The three handlers that write `auth_registry` read the whole document, edit it in memory and
write it back. Only a registration holds a guard in between.
-/

namespace TkbCherry.Registry

set_option autoImplicit false

open Rewrite Transition

inductive Request where
  | post (session body : Option Json) (clock : PostClock)
  | register (body : Option Json) (requestIp : String) (draws : RegisterDraws)
  | login (body : Option Json) (requestIp : String) (draws : LoginDraws)

namespace Request

def decide (h : Hashing) : Request → Json → Decision Json Answer
  | .post session body clock, reg => authRegistryPostJson session body clock reg
  | .register body requestIp draws, reg =>
    match registration body requestIp with
    | .error a => .answer a
    | .ok r => registerJson r draws reg
  | .login body requestIp draws, reg => loginJson h body requestIp draws reg

/-- `REGISTRATION_GUARD` is taken after the checks of the payload. -/
def guarded : Request → Bool
  | .register body requestIp _ => (registration body requestIp).toBool
  | _ => false

end Request

/-- The requests on the cell `auth_registry`; `load_registry` takes no document, a document that
does not parse and a failed read for `{}`. -/
def service (h : Hashing) : Service Json Request Answer where
  empty := .obj []
  decide := Request.decide h
  guarded := Request.guarded
  ok := Answer.ok

variable {h : Hashing}

/-! ### Without a registry nothing succeeds but a write -/

theorem registration_error {body : Option Json} {ip : String} {a : Answer}
    (hr : registration body ip = .error a) : a.ok = false := by
  unfold registration at hr
  cases body with
  | none => cases hr; rfl
  | some payload =>
    simp only at hr
    repeat' split at hr
    all_goals cases hr
    all_goals rfl

theorem registerJson_refuses {r : Registration} {draws : RegisterDraws} {reg : Json} {a : Answer}
    (hr : registerJson r draws reg = .answer a) : a.ok = false := by
  unfold registerJson at hr
  dsimp only at hr
  repeat' split at hr
  all_goals cases hr
  all_goals rfl

theorem registerJson_failed {r : Registration} {draws : RegisterDraws} {reg doc : Json}
    {a f : Answer} (hr : registerJson r draws reg = .save doc a f) : f.ok = false := by
  unfold registerJson at hr
  dsimp only at hr
  repeat' split at hr
  all_goals cases hr
  rfl

theorem postJson_refuses {session body : Option Json} {clock : PostClock} {reg : Json} {a : Answer}
    (hr : authRegistryPostJson session body clock reg = .answer a) : a.ok = false := by
  unfold authRegistryPostJson at hr
  repeat' split at hr
  all_goals cases hr
  all_goals rfl

/-- An empty registry has no account to log in to. -/
theorem loginJson_empty {body : Option Json} {ip : String} {draws : LoginDraws} {a : Answer}
    (hr : loginJson h body ip draws (.obj []) = .answer a) : a.ok = false := by
  have hfind : ∀ id, findUser (.obj []) id = none := by
    intro id
    unfold findUser
    dsimp only
    split <;> rfl
  unfold loginJson at hr
  simp only [hfind] at hr
  repeat' split at hr
  all_goals cases hr
  all_goals rfl

theorem blind (r : Request) (a : Answer) (hr : r.decide h (.obj []) = .answer a) :
    a.ok = false := by
  cases r with
  | post session body clock =>
    rw [Request.decide] at hr
    exact postJson_refuses hr
  | login body ip draws =>
    rw [Request.decide] at hr
    exact loginJson_empty hr
  | register body ip draws =>
    rw [Request.decide] at hr
    cases hreg : registration body ip with
    | error b =>
      rw [hreg] at hr
      cases hr
      exact registration_error hreg
    | ok r =>
      rw [hreg] at hr
      exact registerJson_refuses hr

/-! ### Serial runs -/

/-- Runs in which every write goes over the document its request has read. -/
theorem registry_serial {reqs : Nat → Request} {cell : Option Json} {ls : List Label}
    {s : State Json Answer}
    (run : Run (within (service h).Current ((service h).Step reqs)) { cell := cell } ls s) :
    (service h).Serial reqs cell s :=
  Service.serial_run blind run

/-- The guard does for registrations what it is there for: among themselves they are serial,
whatever the interleaving. -/
theorem registrations_serial {reqs : Nat → Request} {cell : Option Json} {ls : List Label}
    {s : State Json Answer}
    (hreg : ∀ i, ∃ body ip draws, reqs i = .register body ip draws)
    (run : Run (within Service.Served ((service h).Step reqs)) { cell := cell } ls s) :
    (service h).Serial reqs cell s := by
  apply Service.serial_guarded blind _ _ run
  · intro i
    obtain ⟨body, ip, draws, hi⟩ := hreg i
    rw [hi]
    cases hr : registration body ip with
    | ok r =>
      left
      change (registration body ip).toBool = true
      rw [hr]
      rfl
    | error a =>
      right
      intro doc
      refine ⟨a, ?_⟩
      change Request.decide h (.register body ip draws) doc = .answer a
      rw [Request.decide, hr]
  · intro i doc d a f hd
    obtain ⟨body, ip, draws, hi⟩ := hreg i
    rw [hi] at hd
    change Request.decide h (.register body ip draws) doc = .save d a f at hd
    rw [Request.decide] at hd
    cases hr : registration body ip with
    | error b =>
      rw [hr] at hd
      cases hd
    | ok r =>
      rw [hr] at hd
      exact registerJson_failed hd

/-! ### An account lost -/

def plain : Hashing := ⟨fun _ _ => false, fun password => password⟩

def emptyRegistry : Json := .obj [("users", .obj [])]

def annBody : Json := jsonObject [("loginId", .str "ann"), ("password", .str "secret"),
  ("email", .str "ann@school.vn"), ("phone", .str "0901234567"), ("schoolName", .str "A"),
  ("effectiveDate", .str "2025-09-05")]

def annDraws : RegisterDraws where
  schoolTokens := fun _ => "0123456789"
  shortTokens := fun _ => "abcdefabcdef"
  nowSecs := 0
  hashPassword := fun _ => "$argon2id$"

/-- A super administrator posts the registry as they last saw it; Ann registers. -/
def overlapping : Nat → Request
  | 0 => .post (some (.obj [("role", .str "superadmin")])) (some emptyRegistry) ⟨0, fun _ => 0⟩
  | _ => .register (some annBody) "" annDraws

def written : Decision Json Answer → Option Json
  | .save doc _ _ => some doc
  | _ => none

def hasAccount (id : String) (doc : Json) : Bool :=
  ((objectAt doc "users").bind (List.lookup id)).isSome

/-- The registry request `i` writes where it reads `doc`. -/
def after (i : Nat) (doc : Json) : Json :=
  (written ((service plain).decide (overlapping i) doc)).getD .null

theorem saves {i : Nat} {doc : Json}
    (hd : (written ((service plain).decide (overlapping i) doc)).isSome = true) :
    ∃ a f, (service plain).decide (overlapping i) doc = .save (after i doc) a f := by
  unfold after
  cases hs : (service plain).decide (overlapping i) doc with
  | save d a f => exact ⟨a, f, rfl⟩
  | answer a => rw [hs] at hd; cases hd
  | crash => rw [hs] at hd; cases hd

set_option maxRecDepth 4000 in
theorem registry_serial_one :
    ∃ ls s, Run ((service plain).Step overlapping) { cell := some emptyRegistry } ls s ∧
      s.cell = some (after 1 emptyRegistry) ∧
      (service plain).Serial overlapping (some emptyRegistry) s := by
  have ⟨a, f, h⟩ : ∃ a f, (service plain).decide (overlapping 1) emptyRegistry =
    .save (after 1 emptyRegistry) a f := saves (by decide)
  obtain ⟨ls, s, hrun, hcell⟩ := Service.single_run h
  exact ⟨ls, s, hrun.of_within, hcell, registry_serial hrun⟩

set_option maxRecDepth 4000 in
/-- Both requests succeed, and no order of the two gives the registry that the interleaving
leaves: Ann's account is gone. -/
theorem lost_registration :
    ∃ ls s, Run ((service plain).Step overlapping) { cell := some emptyRegistry } ls s ∧
      ¬ (service plain).Serial overlapping (some emptyRegistry) s := by
  have ⟨a₀, f₀, h₀⟩ : ∃ a f, (service plain).decide (overlapping 0) emptyRegistry =
    .save (after 0 emptyRegistry) a f := saves (by decide)
  have ⟨a₁, f₁, h₁⟩ : ∃ a f, (service plain).decide (overlapping 1) emptyRegistry =
    .save (after 1 emptyRegistry) a f := saves (by decide)
  obtain ⟨ls, s, hrun, hcell, hs⟩ := Service.overlap_run h₀ h₁ rfl
  refine ⟨ls, s, hrun, ?_⟩
  intro hser
  have hlost : hasAccount "ann" (after 0 emptyRegistry) = false := by decide
  rcases hser.pair hs with hpair | hpair
  · have ⟨a, f, he⟩ : ∃ a f, (service plain).decide (overlapping 1) (after 0 emptyRegistry) =
      .save (after 1 (after 0 emptyRegistry)) a f := saves (by decide)
    have hfinal := Service.Alone.pair hpair h₀ he
    rw [hcell] at hfinal
    rw [Option.some.inj hfinal] at hlost
    exact absurd hlost (by decide)
  · have ⟨a, f, he⟩ : ∃ a f, (service plain).decide (overlapping 0) (after 1 emptyRegistry) =
      .save (after 0 (after 1 emptyRegistry)) a f := saves (by decide)
    have hfinal := Service.Alone.pair hpair h₁ he
    rw [hcell] at hfinal
    rw [Option.some.inj hfinal] at hlost
    exact absurd hlost (by decide)

end TkbCherry.Registry
