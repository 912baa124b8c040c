import TkbCherry.Lib.Transition

/-!
# Requests that rewrite one document

A request reads the document, decides, and answers at once or writes a document back in a
later step. A guarded request takes the guard when it reads and keeps it to its end. The
storage may refuse a read or a write. A run is serial when the requests that succeeded give
the same document and the same answers one after the other.
-/

namespace Rewrite

set_option autoImplicit false

open Transition

universe u v w
variable {Doc : Type u} {Req : Type v} {Ans : Type w}

/-- What a request makes of the document it has read. -/
inductive Decision (Doc : Type u) (Ans : Type w) where
  | answer (a : Ans)
  /-- Write the document, then answer by whether the storage took it. -/
  | save (doc : Doc) (saved failed : Ans)
  | crash

structure Service (Doc : Type u) (Req : Type v) (Ans : Type w) where
  /-- What a reader gets where there is no document, or where the read fails. -/
  empty : Doc
  decide : Req → Doc → Decision Doc Ans
  guarded : Req → Bool
  ok : Ans → Bool

inductive Phase (Doc : Type u) (Ans : Type w) where
  | waiting
  | saving (read doc : Doc) (saved failed : Ans)
  | ended (answer : Ans) (wrote : Bool)
  | crashed

inductive Guard where
  | free
  | held (i : Nat)
  | poisoned
deriving DecidableEq

structure State (Doc : Type u) (Ans : Type w) where
  cell : Option Doc
  guard : Guard := .free
  phase : Nat → Phase Doc Ans := fun _ => .waiting

/-- `ok` says whether the storage served the call. -/
inductive Label where
  | read (i : Nat) (ok : Bool)
  | write (i : Nat) (ok : Bool)

namespace State
variable (s : State Doc Ans)

def enter (i : Nat) (p : Phase Doc Ans) (guard : Guard) : State Doc Ans :=
  { s with guard := guard, phase := Function.update s.phase i p }

@[simp] theorem enter_cell (i : Nat) (p : Phase Doc Ans) (guard : Guard) :
    (s.enter i p guard).cell = s.cell := rfl

@[simp] theorem enter_guard (i : Nat) (p : Phase Doc Ans) (guard : Guard) :
    (s.enter i p guard).guard = guard := rfl

@[simp] theorem enter_phase_self (i : Nat) (p : Phase Doc Ans) (guard : Guard) :
    (s.enter i p guard).phase i = p := Function.update_self ..

theorem enter_phase_ne {i j : Nat} (h : j ≠ i) (p : Phase Doc Ans) (guard : Guard) :
    (s.enter i p guard).phase j = s.phase j := Function.update_of_ne h ..

end State

namespace Service
variable (S : Service Doc Req Ans) (reqs : Nat → Req)

/-- The document a reader of the cell gets. -/
def load (cell : Option Doc) : Doc := cell.getD S.empty

/-- The state after request `i` has read `doc`. -/
def begin (s : State Doc Ans) (i : Nat) (doc : Doc) : State Doc Ans :=
  match S.decide (reqs i) doc with
  | .answer a => s.enter i (.ended a false) s.guard
  | .save d saved failed =>
    s.enter i (.saving doc d saved failed) (if S.guarded (reqs i) then .held i else s.guard)
  | .crash => s.enter i .crashed (if S.guarded (reqs i) then .poisoned else s.guard)

def release (s : State Doc Ans) (i : Nat) : Guard :=
  if S.guarded (reqs i) then .free else s.guard

inductive Step : State Doc Ans → Label → State Doc Ans → Prop where
  | read {s : State Doc Ans} {i : Nat} {ok : Bool} (hw : s.phase i = .waiting)
      (hg : S.guarded (reqs i) = true → s.guard = .free) :
      Step s (.read i ok) (S.begin reqs s i (if ok then S.load s.cell else S.empty))
  | poisoned {s : State Doc Ans} {i : Nat} {ok : Bool} (hw : s.phase i = .waiting)
      (hg : S.guarded (reqs i) = true) (hp : s.guard = .poisoned) :
      Step s (.read i ok) (s.enter i .crashed .poisoned)
  | saved {s : State Doc Ans} {i : Nat} {r d : Doc} {a f : Ans}
      (hp : s.phase i = .saving r d a f) :
      Step s (.write i true)
        { s.enter i (.ended a true) (S.release reqs s i) with cell := some d }
  | failed {s : State Doc Ans} {i : Nat} {r d : Doc} {a f : Ans}
      (hp : s.phase i = .saving r d a f) :
      Step s (.write i false) (s.enter i (.ended f false) (S.release reqs s i))

/-! ### One request after the other -/

/-- Request `i`, alone, answers `a`. -/
def Alone (cell : Option Doc) (e : Nat × Ans) (cell' : Option Doc) : Prop :=
  match S.decide (reqs e.1) (S.load cell) with
  | .answer a => a = e.2 ∧ cell' = cell
  | .save d saved _ => saved = e.2 ∧ cell' = some d
  | .crash => False

/-- Request `i` has written, or reports success. -/
def Succeeded (s : State Doc Ans) (i : Nat) (a : Ans) : Prop :=
  ∃ wrote, s.phase i = .ended a wrote ∧ (S.ok a = true ∨ wrote = true)

/-- The requests that succeeded, with their answers, one after the other. -/
structure SerialOrder (cell : Option Doc) (s : State Doc Ans) (order : List (Nat × Ans)) :
    Prop where
  run : Run (S.Alone reqs) cell order s.cell
  once : (order.map Prod.fst).Nodup
  mem : ∀ i a, (i, a) ∈ order ↔ S.Succeeded s i a

def Serial (cell : Option Doc) (s : State Doc Ans) : Prop := ∃ order, S.SerialOrder reqs cell s order

/-! ### Writes over the document that was read -/

/-- The cell still holds what the writer has read; a request whose write fails does not report
success. -/
def Current (s : State Doc Ans) : Label → Prop
  | .read _ _ => True
  | .write i ok =>
    match s.phase i with
    | .saving r _ _ f => if ok then S.load s.cell = r else S.ok f = false
    | _ => True

/-- Every pending write is the decision of its request on what it has read. -/
def Decided (s : State Doc Ans) : Prop :=
  ∀ i r d a f, s.phase i = .saving r d a f → S.decide (reqs i) r = .save d a f

variable {S reqs} {s t : State Doc Ans} {i : Nat}

theorem Decided.enter {p : Phase Doc Ans} {guard : Guard} (h : S.Decided reqs s)
    (hp : ∀ r d a f, p = .saving r d a f → S.decide (reqs i) r = .save d a f) :
    S.Decided reqs (s.enter i p guard) := by
  intro j r d a f hj
  rcases eq_or_ne j i with rfl | hne
  · rw [State.enter_phase_self] at hj
    exact hp r d a f hj
  · rw [State.enter_phase_ne s hne] at hj
    exact h j r d a f hj

theorem Decided.begin (h : S.Decided reqs s) (i : Nat) (doc : Doc) :
    S.Decided reqs (S.begin reqs s i doc) := by
  unfold Service.begin
  cases hd : S.decide (reqs i) doc with
  | answer a => exact h.enter (by simp)
  | crash => exact h.enter (by simp)
  | save d saved failed =>
    apply h.enter
    intro r d' a f hp
    cases hp
    exact hd

theorem Decided.step {l : Label} (h : S.Decided reqs s) (hs : S.Step reqs s l t) :
    S.Decided reqs t := by
  cases hs with
  | read hw hg => exact h.begin _ _
  | poisoned hw hg hp => exact h.enter (by simp)
  | failed hp => exact h.enter (by simp)
  | @saved i r d a f hp =>
    have hd : S.Decided reqs (s.enter i (.ended a true) (S.release reqs s i)) := h.enter (by simp)
    exact hd

/-- A request that has not ended moves; nobody else's success changes. -/
theorem succeeded_enter {p : Phase Doc Ans} {guard : Guard} {j : Nat} {a : Ans}
    (hne : ∀ b wrote, s.phase i ≠ .ended b wrote) :
    S.Succeeded (s.enter i p guard) j a ↔
      S.Succeeded s j a ∨
        (j = i ∧ ∃ wrote, p = .ended a wrote ∧ (S.ok a = true ∨ wrote = true)) := by
  rcases eq_or_ne j i with rfl | hj
  · have hs : ¬ S.Succeeded s j a := fun ⟨w, hw, _⟩ => hne a w hw
    unfold Succeeded at hs ⊢
    rw [State.enter_phase_self]
    constructor
    · intro h
      exact .inr ⟨rfl, h⟩
    · rintro (h | ⟨_, h⟩)
      · exact absurd h hs
      · exact h
  · simp [Succeeded, State.enter_phase_ne s hj, hj]

/-- The request that moves does not succeed by it. -/
theorem SerialOrder.keep {cell : Option Doc} {order : List (Nat × Ans)} {p : Phase Doc Ans}
    {guard : Guard} (h : S.SerialOrder reqs cell s order)
    (hne : ∀ b wrote, s.phase i ≠ .ended b wrote)
    (hp : ∀ a wrote, p = .ended a wrote → S.ok a = false ∧ wrote = false) :
    S.SerialOrder reqs cell (s.enter i p guard) order where
  run := h.run
  once := h.once
  mem := by
    intro j a
    rw [h.mem, succeeded_enter hne]
    constructor
    · exact .inl
    · rintro (hs | ⟨_, wrote, hw, hok⟩)
      · exact hs
      · obtain ⟨hoff, rfl⟩ := hp a wrote hw
        simp [hoff] at hok

/-- The request that moves succeeds; its turn comes last. -/
theorem SerialOrder.extend {cell cell' : Option Doc} {order : List (Nat × Ans)} {a : Ans}
    {wrote : Bool} {guard : Guard} (h : S.SerialOrder reqs cell s order)
    (hne : ∀ b wrote, s.phase i ≠ .ended b wrote) (hok : S.ok a = true ∨ wrote = true)
    (hal : S.Alone reqs s.cell (i, a) cell') :
    S.SerialOrder reqs cell { s.enter i (.ended a wrote) guard with cell := cell' }
      (order ++ [(i, a)]) where
  run := .snoc h.run hal
  once := by
    rw [List.map_append, List.nodup_append]
    refine ⟨h.once, List.nodup_singleton _, ?_⟩
    intro j hj k hk
    obtain rfl := List.mem_singleton.mp hk
    obtain ⟨⟨j', b⟩, hb, rfl⟩ := List.mem_map.mp hj
    intro (hji : j' = k)
    obtain ⟨w, hw, _⟩ := (h.mem j' b).mp hb
    rw [hji] at hw
    exact hne b w hw
  mem := by
    intro j b
    have hs : S.Succeeded { s.enter i (.ended a wrote) guard with cell := cell' } j b ↔
        S.Succeeded (s.enter i (.ended a wrote) guard) j b := Iff.rfl
    rw [List.mem_append, h.mem, hs, succeeded_enter hne, List.mem_singleton, Prod.mk.injEq]
    constructor
    · rintro (hin | ⟨hj, rfl⟩)
      · exact .inl hin
      · exact .inr ⟨hj, wrote, rfl, hok⟩
    · rintro (hin | ⟨hj, w, hw, _⟩)
      · exact .inl hin
      · cases hw
        exact .inr ⟨hj, rfl⟩

/-- One step, from a state in which the requests that succeeded stand in a serial order. A
request that reads nothing must not report success without a write. -/
theorem serial_step {cell : Option Doc} {l : Label}
    (blind : ∀ r a, S.decide r S.empty = .answer a → S.ok a = false)
    (hd : S.Decided reqs s) (h : S.Serial reqs cell s) (hc : S.Current s l)
    (hs : S.Step reqs s l t) : S.Serial reqs cell t := by
  obtain ⟨order, h⟩ := h
  cases hs with
  | @read i ok hw hg =>
    have hne : ∀ b wrote, s.phase i ≠ .ended b wrote := by simp [hw]
    unfold Service.begin
    generalize hdoc : (if ok then S.load s.cell else S.empty) = doc
    cases hdec : S.decide (reqs i) doc with
    | save d saved failed => exact ⟨order, h.keep hne (by simp)⟩
    | crash => exact ⟨order, h.keep hne (by simp)⟩
    | answer a =>
      cases hok : S.ok a with
      | false =>
        refine ⟨order, h.keep hne ?_⟩
        intro b wrote hb
        cases hb
        exact ⟨hok, rfl⟩
      | true =>
        -- it has read the document: on nothing it would have been refused
        cases ok with
        | false =>
          subst hdoc
          rw [blind _ _ hdec] at hok
          exact absurd hok (by simp)
        | true =>
          subst hdoc
          refine ⟨order ++ [(i, a)], h.extend hne (.inl hok) ?_⟩
          rw [if_pos rfl] at hdec
          simp [Alone, hdec]
  | poisoned hw hg hp =>
    exact ⟨order, h.keep (by simp [hw]) (by simp)⟩
  | @failed i r d a f hp =>
    have hoff : S.ok f = false := by simpa [Current, hp] using hc
    refine ⟨order, h.keep (by simp [hp]) ?_⟩
    intro b wrote hb
    cases hb
    exact ⟨hoff, rfl⟩
  | @saved i r d a f hp =>
    have hread : S.load s.cell = r := by simpa [Current, hp] using hc
    refine ⟨order ++ [(i, a)], h.extend (by simp [hp]) (.inr rfl) ?_⟩
    have hdec := hd i r d a f hp
    rw [← hread] at hdec
    simp [Alone, hdec]

theorem serial_initial (cell : Option Doc) : S.Serial reqs cell { cell := cell } :=
  ⟨[], .nil _, List.nodup_nil, by simp [Succeeded]⟩

/-- A run whose writes all go over the document that was read is serial. -/
theorem serial_run {cell : Option Doc} {ls : List Label}
    (blind : ∀ r a, S.decide r S.empty = .answer a → S.ok a = false)
    (h : Run (within S.Current (S.Step reqs)) { cell := cell } ls t) : S.Serial reqs cell t := by
  have hinv : S.Decided reqs t ∧ S.Serial reqs cell t := by
    apply Run.invariant (I := fun s => S.Decided reqs s ∧ S.Serial reqs cell s) _ h
    · exact ⟨fun _ _ _ _ _ hp => (nomatch hp), serial_initial cell⟩
    · intro s l t ⟨hd, hser⟩ ⟨hc, hs⟩
      exact ⟨hd.step hs, serial_step blind hd hser hc hs⟩
  exact hinv.2

/-- A request by itself. -/
theorem single_run {doc d : Doc} {a f : Ans} (hd : S.decide (reqs i) doc = .save d a f) :
    ∃ ls s, Run (within S.Current (S.Step reqs)) { cell := some doc } ls s ∧ s.cell = some d := by
  let s₀ : State Doc Ans := { cell := some doc }
  have hload : S.load s₀.cell = doc := rfl
  have hp : (S.begin reqs s₀ i doc).phase i = .saving doc d a f := by
    simp [Service.begin, hd]
  have hcell : (S.begin reqs s₀ i doc).cell = some doc := by
    simp [Service.begin, hd, s₀]
  have hread : S.Step reqs s₀ (.read i true) (S.begin reqs s₀ i doc) :=
    .read rfl fun _ => rfl
  refine ⟨[.read i true, .write i true], _, .cons ⟨trivial, hread⟩ (.single ⟨?_, .saved hp⟩), rfl⟩
  simp [Current, hp, hcell, load]

/-! ### What the guard is worth -/

/-- The storage serves every read. -/
def Served (_ : State Doc Ans) : Label → Prop
  | .read _ ok => ok = true
  | .write _ _ => True

/-- Only the holder of the guard is saving, over what the cell still holds. -/
def Excluded (S : Service Doc Req Ans) (s : State Doc Ans) : Prop :=
  ∀ i r d a f, s.phase i = .saving r d a f → s.guard = .held i ∧ S.load s.cell = r

theorem Excluded.alone (h : S.Excluded s) (hg : s.guard = .free ∨ s.guard = .poisoned)
    {j : Nat} {r d : Doc} {a f : Ans} : s.phase j ≠ .saving r d a f := by
  intro hj
  have hheld := (h j r d a f hj).1
  rcases hg with hg | hg <;> rw [hg] at hheld <;> cases hheld

/-- The holder ends. -/
theorem Excluded.done {p : Phase Doc Ans} {guard : Guard} {cell : Option Doc}
    (h : S.Excluded s) (hp : ∀ r d a f, p ≠ .saving r d a f)
    (hi : (∃ r d a f, s.phase i = .saving r d a f) ∨ s.guard = .free ∨ s.guard = .poisoned) :
    S.Excluded { s.enter i p guard with cell := cell } := by
  intro j r d a f hj
  rcases eq_or_ne j i with rfl | hne
  · have hj : (s.enter j p guard).phase j = .saving r d a f := hj
    rw [State.enter_phase_self] at hj
    exact absurd hj (hp r d a f)
  · have hj : (s.enter i p guard).phase j = .saving r d a f := hj
    rw [State.enter_phase_ne s hne] at hj
    rcases hi with ⟨r', d', a', f', hi⟩ | hg
    · have hheld := (h i r' d' a' f' hi).1
      rw [(h j r d a f hj).1] at hheld
      exact absurd (Guard.held.inj hheld) hne
    · exact absurd hj (h.alone hg)

/-- A request that has not been saving ends. -/
theorem Excluded.refused {a : Ans} {wrote : Bool} (h : S.Excluded s) :
    S.Excluded (s.enter i (.ended a wrote) s.guard) := by
  intro j r d b f hj
  rcases eq_or_ne j i with rfl | hne
  · rw [State.enter_phase_self] at hj
    cases hj
  · rw [State.enter_phase_ne s hne] at hj
    exact h j r d b f hj

theorem Excluded.step {l : Label}
    (hall : ∀ i, S.guarded (reqs i) = true ∨ ∀ doc, ∃ a, S.decide (reqs i) doc = .answer a)
    (h : S.Excluded s) (hl : Served s l) (hs : S.Step reqs s l t) : S.Excluded t := by
  cases hs with
  | poisoned hw hg hp => exact h.done (by simp) (.inr (.inr hp))
  | failed hp => exact h.done (by simp) (.inl ⟨_, _, _, _, hp⟩)
  | saved hp => exact h.done (by simp) (.inl ⟨_, _, _, _, hp⟩)
  | @read i ok hw hg =>
    have hok : ok = true := hl
    subst hok
    unfold Service.begin
    rw [if_pos rfl]
    rcases hall i with hgi | hans
    · have hfree := hg hgi
      cases S.decide (reqs i) (S.load s.cell) with
      | answer a => exact h.refused
      | crash => exact h.done (by simp) (.inr (.inl hfree))
      | save d saved failed =>
        simp only [if_pos hgi]
        intro j r d' a f hj
        rcases eq_or_ne j i with rfl | hne
        · rw [State.enter_phase_self] at hj
          cases hj
          exact ⟨rfl, rfl⟩
        · rw [State.enter_phase_ne s hne] at hj
          exact absurd hj (h.alone (.inl hfree))
    · obtain ⟨a, ha⟩ := hans (S.load s.cell)
      rw [ha]
      exact h.refused

/-- Guarded requests that answer for a refused write are serial among themselves, whatever the
interleaving, as long as the storage serves the reads. Requests that never write may join. -/
theorem serial_guarded {cell : Option Doc} {ls : List Label}
    (blind : ∀ r a, S.decide r S.empty = .answer a → S.ok a = false)
    (hall : ∀ i, S.guarded (reqs i) = true ∨ ∀ doc, ∃ a, S.decide (reqs i) doc = .answer a)
    (honest : ∀ i doc d a f, S.decide (reqs i) doc = .save d a f → S.ok f = false)
    (h : Run (within Served (S.Step reqs)) { cell := cell } ls t) : S.Serial reqs cell t := by
  have hinv : S.Decided reqs t ∧ S.Excluded t ∧ S.Serial reqs cell t := by
    apply Run.invariant (I := fun s => S.Decided reqs s ∧ S.Excluded s ∧ S.Serial reqs cell s) _ h
    · exact ⟨fun _ _ _ _ _ hp => (nomatch hp), fun _ _ _ _ _ hp => (nomatch hp),
        serial_initial cell⟩
    · intro s l t ⟨hd, hex, hser⟩ ⟨hl, hs⟩
      refine ⟨hd.step hs, hex.step hall hl hs, serial_step blind hd hser ?_ hs⟩
      cases hs with
      | read _ _ => trivial
      | poisoned _ _ _ => trivial
      | @saved i r d a f hp => simpa [Current, hp] using (hex i r d a f hp).2
      | @failed i r d a f hp => simpa [Current, hp] using honest i r d a f (hd i r d a f hp)
  exact hinv.2.2

/-! ### A lost update -/

/-- Both requests read before either writes; the one that holds no guard writes last. -/
theorem overlap_run {doc d₀ d₁ : Doc} {a₀ a₁ f₀ f₁ : Ans}
    (h₀ : S.decide (reqs 0) doc = .save d₀ a₀ f₀) (h₁ : S.decide (reqs 1) doc = .save d₁ a₁ f₁)
    (hg : S.guarded (reqs 0) = false) :
    ∃ ls s, Run (S.Step reqs) { cell := some doc } ls s ∧ s.cell = some d₀ ∧
      ∀ i a, S.Succeeded s i a ↔ (i, a) = (0, a₀) ∨ (i, a) = (1, a₁) := by
  let s₀ : State Doc Ans := { cell := some doc }
  let s₁ := S.begin reqs s₀ 0 doc
  have hs₁ : s₁ = s₀.enter 0 (.saving doc d₀ a₀ f₀) .free := by
    simp [s₁, s₀, Service.begin, h₀, hg]
  let s₂ := S.begin reqs s₁ 1 doc
  have hs₂ : s₂ = s₁.enter 1 (.saving doc d₁ a₁ f₁) s₂.guard := by
    simp [s₂, Service.begin, h₁]
  have hp₀ : s₂.phase 0 = .saving doc d₀ a₀ f₀ := by
    rw [hs₂, State.enter_phase_ne _ (by decide), hs₁, State.enter_phase_self]
  have hp₁ : s₂.phase 1 = .saving doc d₁ a₁ f₁ := by
    rw [hs₂, State.enter_phase_self]
  let s₃ : State Doc Ans :=
    { s₂.enter 1 (.ended a₁ true) (S.release reqs s₂ 1) with cell := some d₁ }
  have hp₃ : s₃.phase 0 = .saving doc d₀ a₀ f₀ :=
    (State.enter_phase_ne s₂ Nat.zero_ne_one (.ended a₁ true) (S.release reqs s₂ 1)).trans hp₀
  let s₄ : State Doc Ans :=
    { s₃.enter 0 (.ended a₀ true) (S.release reqs s₃ 0) with cell := some d₀ }
  have read₀ : S.Step reqs s₀ (.read 0 true) s₁ := .read rfl (by simp [hg])
  have read₁ : S.Step reqs s₁ (.read 1 true) s₂ := by
    have hcell : S.load s₁.cell = doc := by rw [hs₁]; rfl
    have hstep : S.Step reqs s₁ (.read 1 true) (S.begin reqs s₁ 1 (S.load s₁.cell)) := by
      apply Step.read
      · rw [hs₁, State.enter_phase_ne _ (by decide)]
      · intro _
        rw [hs₁, State.enter_guard]
    rwa [hcell] at hstep
  refine ⟨[.read 0 true, .read 1 true, .write 1 true, .write 0 true], s₄, ?_, rfl, ?_⟩
  · exact .cons read₀ (.cons read₁ (.cons (.saved hp₁) (.cons (.saved hp₃) (.nil _))))
  · intro i a
    have hsucc : S.Succeeded s₄ i a ↔
        S.Succeeded (s₃.enter 0 (.ended a₀ true) (S.release reqs s₃ 0)) i a := Iff.rfl
    have hsucc' : S.Succeeded s₃ i a ↔
        S.Succeeded (s₂.enter 1 (.ended a₁ true) (S.release reqs s₂ 1)) i a := Iff.rfl
    have hnone : ¬ S.Succeeded s₂ i a := by
      intro ⟨w, hw, _⟩
      rw [hs₂, hs₁] at hw
      rcases eq_or_ne i 1 with rfl | h1
      · simp at hw
      rw [State.enter_phase_ne _ h1] at hw
      rcases eq_or_ne i 0 with rfl | h0
      · simp at hw
      · rw [State.enter_phase_ne _ h0] at hw
        cases hw
    rw [hsucc, succeeded_enter (by simp [hp₃]), hsucc', succeeded_enter (by simp [hp₁])]
    simp only [hnone, false_or, Prod.mk.injEq, Phase.ended.injEq]
    constructor
    · rintro (⟨rfl, _, ⟨rfl, _⟩, _⟩ | ⟨rfl, _, ⟨rfl, _⟩, _⟩)
      · exact .inr ⟨rfl, rfl⟩
      · exact .inl ⟨rfl, rfl⟩
    · rintro (⟨rfl, rfl⟩ | ⟨rfl, rfl⟩)
      · exact .inr ⟨rfl, true, ⟨rfl, rfl⟩, .inr rfl⟩
      · exact .inl ⟨rfl, true, ⟨rfl, rfl⟩, .inr rfl⟩

theorem Alone.saved {doc d : Doc} {a b f : Ans} {cell : Option Doc}
    (h : S.Alone reqs (some doc) (i, b) cell) (hd : S.decide (reqs i) doc = .save d a f) :
    cell = some d := by
  have hload : S.load (some doc) = doc := rfl
  simp only [Alone, hload, hd] at h
  exact h.2

/-- Two requests that save, one after the other. -/
theorem Alone.pair {i j : Nat} {doc d e : Doc} {a a' b b' f f' : Ans} {cell : Option Doc}
    (h : Run (S.Alone reqs) (some doc) [(i, b), (j, b')] cell)
    (hd : S.decide (reqs i) doc = .save d a f) (he : S.decide (reqs j) d = .save e a' f') :
    cell = some e := by
  obtain ⟨c, hi, h⟩ := h.uncons
  obtain rfl := hi.saved hd
  obtain ⟨c, hj, h⟩ := h.uncons
  obtain rfl := hj.saved he
  exact h.eq_of_nil.symm

/-- Two requests have two orders. -/
theorem Serial.pair {cell : Option Doc} {a₀ a₁ : Ans} (h : S.Serial reqs cell s)
    (hs : ∀ i a, S.Succeeded s i a ↔ (i, a) = (0, a₀) ∨ (i, a) = (1, a₁)) :
    Run (S.Alone reqs) cell [(0, a₀), (1, a₁)] s.cell ∨
      Run (S.Alone reqs) cell [(1, a₁), (0, a₀)] s.cell := by
  obtain ⟨order, h⟩ := h
  have hnodup : ([(0, a₀), (1, a₁)] : List (Nat × Ans)).Nodup := by simp
  have hperm : order.Perm [(0, a₀), (1, a₁)] := by
    apply (List.perm_ext_iff_of_nodup h.once.of_map hnodup).mpr
    intro ⟨i, a⟩
    rw [h.mem, hs]
    simp
  have hrun := h.run
  rcases List.perm_pair.mp hperm with rfl | rfl
  · exact .inl hrun
  · exact .inr hrun

end Service
end Rewrite
