import TkbCherry.Browser.Storage

/-!
# What the store guard keeps

The page's note on a school is a safe picture of the server as long as four things hold: a reply that
reads as an empty store comes from one, an accepted save does not come after a failed load, an
accepted empty save is not overtaken by one with content, and no empty save is asked for while one with
content is unconfirmed.
-/

namespace TkbCherry.Browser

set_option autoImplicit false

open Transition

variable {cleanSchoolId : String → String} {w w' : World}

def SaveRequest.meaningful (request : SaveRequest) : Bool :=
  hasMeaningfulData (safeParseJSON request.dataJson)

/-- The server has taken a save with content, and the page does not know. -/
def Unconfirmed (w : World) (id : String) : Prop :=
  ∃ request ∈ w.saves, request.id = id ∧ request.committed = true ∧ request.meaningful = true

/-- A save that does what the guard is for. -/
def SentSave.Harmless (s : SentSave) : Prop :=
  (s.meaningful = true ∨ s.storeMeaningful = false) ∧ s.lastLoadFailed = false

instance (s : SentSave) : Decidable s.Harmless := inferInstanceAs (Decidable (_ ∧ _))

/-- The condition on a step. -/
def Careful (cleanSchoolId : String → String) (w : World) : Event → Prop
  | .loadReply i reply _ => ∀ request, w.loads[i]? = some request →
      loadStateOf (received request.sync reply) = .okEmpty →
        loadFails reply = false ∧ hasMeaningfulData (w.store request.id) = false
  | .save schoolId dataJson => hasMeaningfulData (safeParseJSON dataJson) = false →
      w.page.remoteLoadState (cleanSchoolId schoolId) = some .okEmpty →
        ¬ Unconfirmed w (cleanSchoolId schoolId)
  | .saveReply i .accepted => ∀ request, w.saves[i]? = some request → request.answered = false →
      w.lastLoadFailed request.id = false ∧
        (request.meaningful = false → hasMeaningfulData (w.store request.id) = false)
  | _ => True

/-- The page knows of content on the server unless it is unconfirmed, and knows of failed loads. -/
structure Inv (w : World) : Prop where
  empty : ∀ id, w.page.remoteLoadState id = some .okEmpty →
    hasMeaningfulData (w.store id) = true → Unconfirmed w id
  failed : ∀ id, w.lastLoadFailed id = true → w.page.remoteLoadState id = some .failed
  sent : ∀ s ∈ w.sent, s.Harmless

theorem inv_opened (store : String → Json) : Inv (opened store) where
  empty := by
    intro id hstate
    cases hstate
  failed := by
    intro id hfailed
    cases hfailed
  sent := by
    intro s hs
    cases hs

/-- Steps that keep what the page knows, the stores and the saves keep the invariant. -/
theorem Inv.of_eq (h : Inv w) (hstate : w'.page.remoteLoadState = w.page.remoteLoadState)
    (hstore : w'.store = w.store) (hsaves : w'.saves = w.saves)
    (hfailed : w'.lastLoadFailed = w.lastLoadFailed) (hsent : w'.sent = w.sent) : Inv w' where
  empty := by
    intro id hempty hcontent
    rw [hstate] at hempty
    rw [hstore] at hcontent
    unfold Unconfirmed
    rw [hsaves]
    exact h.empty id hempty hcontent
  failed := by
    intro id hlast
    rw [hfailed] at hlast
    rw [hstate]
    exact h.failed id hlast
  sent := by
    intro s hs
    rw [hsent] at hs
    exact h.sent s hs

/-! ### Loads -/

theorem loadStateOf_failed {data : Option Json} (h : ∀ value, data = some value → isObject value = false) :
    loadStateOf data = .failed := by
  cases data with
  | none => rfl
  | some value =>
    unfold loadStateOf
    simp [h value rfl]

/-- A failed load is noted as one, except for a broken body that reads as an empty object. -/
theorem loadStateOf_received (sync : Bool) {reply : LoadReply} (hfails : loadFails reply = true)
    (hnot : loadStateOf (received sync reply) ≠ .okEmpty) :
    loadStateOf (received sync reply) = .failed := by
  cases reply with
  | denied => rfl
  | failed => rfl
  | answered body =>
    cases body with
    | none =>
      cases sync with
      | false => rfl
      | true => exact absurd rfl hnot
    | some value =>
      have hobject : isObject value = false := by simpa [loadFails] using hfails
      refine loadStateOf_failed fun other hother => ?_
      have heq : other = value := by
        cases sync with
        | false => exact (Option.some.inj hother).symm
        | true => exact (Option.some.inj hother).symm
      rw [heq]
      exact hobject

theorem Inv.noteLoad (h : Inv w) {id : String} {data : Option Json} {fails : Bool}
    (hempty : loadStateOf data = .okEmpty → hasMeaningfulData (w.store id) = false)
    (hfails : fails = true → loadStateOf data = .failed) : Inv (w.noteLoad id data fails) where
  empty := by
    intro other hstate hcontent
    by_cases hother : other = id
    · subst hother
      simp only [World.noteLoad, noteRemoteLoad, Function.update_self, Option.some.injEq] at hstate
      have hnone := hempty hstate
      rw [show (w.noteLoad other data fails).store = w.store from rfl, hnone] at hcontent
      cases hcontent
    · simp only [World.noteLoad, noteRemoteLoad, Function.update_of_ne hother] at hstate
      exact h.empty other hstate hcontent
  failed := by
    intro other hlast
    by_cases hother : other = id
    · subst hother
      simp only [World.noteLoad, noteRemoteLoad, Function.update_self] at hlast ⊢
      rw [hfails hlast]
    · simp only [World.noteLoad, noteRemoteLoad, Function.update_of_ne hother] at hlast ⊢
      exact h.failed other hlast
  sent := h.sent

theorem Inv.startLoad (h : Inv w) (sync : Bool) (schoolId : String) (after : Continuation) :
    Inv (w.startLoad cleanSchoolId sync schoolId after) := by
  unfold World.startLoad
  split_ifs
  · exact h.noteLoad (fun hstate => by cases hstate) fun _ => rfl
  · exact h.of_eq rfl rfl rfl rfl rfl

theorem Inv.tryRelated (h : Inv w) (sync : Bool) (target : String) (ids : List String) :
    Inv (w.tryRelated cleanSchoolId sync target ids) := by
  unfold World.tryRelated
  cases ids with
  | nil => exact h
  | cons id rest =>
    simp only
    split_ifs
    · exact h
    · exact h.startLoad sync id _

/-! ### Saves -/

/-- What the guard lets pass. -/
theorem remoteSaveGuard_none {page : Page} {id : String} {dataJson : Option Json}
    (h : remoteSaveGuard page id dataJson = none) : page.remoteLoadState id ≠ some .failed ∧
      (hasMeaningfulData (safeParseJSON dataJson) = true ∨ page.remoteLoadState id = some .okEmpty) := by
  unfold remoteSaveGuard at h
  simp only at h
  split_ifs at h with hfailed hempty
  refine ⟨hfailed, ?_⟩
  by_cases hcontent : hasMeaningfulData (safeParseJSON dataJson) = true
  · exact Or.inl hcontent
  · refine Or.inr ?_
    rw [Bool.not_eq_true] at hcontent
    rw [hcontent] at hempty
    simpa using hempty

/-- One more request under way. -/
theorem Unconfirmed.append {id : String} (h : Unconfirmed w id) {more : List SaveRequest}
    (hsaves : w'.saves = w.saves ++ more) : Unconfirmed w' id := by
  obtain ⟨request, hmem, hrest⟩ := h
  refine ⟨request, ?_, hrest⟩
  rw [hsaves]
  exact List.mem_append_left _ hmem

theorem Inv.save (h : Inv w) {schoolId : String} {dataJson : Option Json}
    (hcareful : hasMeaningfulData (safeParseJSON dataJson) = false →
      w.page.remoteLoadState (cleanSchoolId schoolId) = some .okEmpty →
        ¬ Unconfirmed w (cleanSchoolId schoolId)) :
    Inv (w.saveRemoteSchoolData cleanSchoolId schoolId dataJson) := by
  unfold World.saveRemoteSchoolData
  simp only
  by_cases hauth : w.page.remoteAuthRequired = true
  · rw [if_pos hauth]
    exact h
  rw [if_neg hauth]
  cases hguard : remoteSaveGuard w.page (cleanSchoolId schoolId) dataJson with
  | some refusal => exact h
  | none =>
    obtain ⟨hnot, hpass⟩ := remoteSaveGuard_none hguard
    have hlast : w.lastLoadFailed (cleanSchoolId schoolId) = false := by
      rw [← Bool.not_eq_true]
      exact fun hfailed => hnot (h.failed _ hfailed)
    constructor
    · intro id hstate hcontent
      exact (h.empty id hstate hcontent).append rfl
    · exact h.failed
    · intro s hs
      rcases List.mem_append.mp hs with hold | hnew
      · exact h.sent s hold
      · rw [List.mem_singleton.mp hnew]
        refine ⟨?_, hlast⟩
        by_cases hcontent : hasMeaningfulData (safeParseJSON dataJson) = true
        · exact Or.inl hcontent
        · have hempty := hpass.resolve_left hcontent
          rw [Bool.not_eq_true] at hcontent
          refine Or.inr (Bool.eq_false_iff.mpr fun hstore => ?_)
          exact hcareful hcontent hempty (h.empty _ hempty hstore)

theorem Inv.continueLoad (h : Inv w) (request : LoadRequest) (data : Option Json)
    (related : List String) : Inv (w.continueLoad cleanSchoolId request data related) := by
  unfold World.continueLoad
  cases request.after with
  | done => exact h
  | direct target =>
    simp only
    split_ifs
    · exact h
    · exact h.tryRelated _ _ _
  | related target rest =>
    simp only
    split_ifs with hcontent
    · -- the save of a fallback always has content
      refine h.save fun hnone => ?_
      cases data with
      | none => cases hcontent
      | some value =>
        rw [show hasMeaningfulData (safeParseJSON (some value)) = true from hcontent] at hnone
        cases hnone
    · exact h.tryRelated _ _ _

theorem Inv.loadReply (h : Inv w) {i : Nat} {reply : LoadReply} {related : List String}
    (hcareful : Careful cleanSchoolId w (.loadReply i reply related)) :
    Inv (w.loadReply cleanSchoolId i reply related) := by
  unfold World.loadReply
  cases hrequest : w.loads[i]? with
  | none => exact h
  | some request =>
    let w1 : World := { w with loads := w.loads.eraseIdx i }
    have h1 : Inv (w1.latch reply.denies) := h.of_eq rfl rfl rfl rfl rfl
    have h2 : Inv ((w1.latch reply.denies).noteLoad request.id (received request.sync reply)
        (loadFails reply)) := by
      refine h1.noteLoad (fun hempty => (hcareful request hrequest hempty).2) fun hfails => ?_
      refine loadStateOf_received request.sync hfails fun hempty => ?_
      have hok := (hcareful request hrequest hempty).1
      rw [hfails] at hok
      cases hok
    exact h2.continueLoad request _ related

/-! ### The server -/

theorem Inv.commit (h : Inv w) (i : Nat) : Inv (w.commit i) := by
  unfold World.commit
  cases hrequest : w.saves[i]? with
  | none => exact h
  | some request =>
    obtain ⟨id, dataJson, committed, answered⟩ := request
    cases dataJson with
    | none => exact h
    | some data =>
      have hi := List.getElem?_eq_some_iff.mp hrequest
      have hnew : (⟨id, some data, true, answered⟩ : SaveRequest) ∈
          w.saves.set i ⟨id, some data, true, answered⟩ := List.mem_set hi.1 _
      constructor
      · intro other hstate hcontent
        by_cases hother : other = id
        · subst hother
          simp only [Function.update_self] at hcontent
          exact ⟨_, hnew, rfl, rfl, hcontent⟩
        · simp only [Function.update_of_ne hother] at hcontent
          obtain ⟨request, hmem, hid, hcommitted, hmeaningful⟩ := h.empty other hstate hcontent
          refine ⟨request, ?_, hid, hcommitted, hmeaningful⟩
          obtain ⟨j, hj⟩ := List.getElem?_of_mem hmem
          have hij : i ≠ j := by
            rintro rfl
            rw [hrequest] at hj
            cases hj
            exact hother hid.symm
          exact List.mem_of_getElem? ((List.getElem?_set_ne hij).trans hj)
      · exact h.failed
      · exact h.sent

/-- A given up reply leaves the save where it is. -/
theorem Unconfirmed.answered {id : String} {i : Nat} {request : SaveRequest} (h : Unconfirmed w id)
    (hrequest : w.saves[i]? = some request)
    (hsaves : w'.saves = w.saves.set i { request with answered := true }) : Unconfirmed w' id := by
  obtain ⟨old, hmem, hid, hcommitted, hmeaningful⟩ := h
  obtain ⟨j, hj⟩ := List.getElem?_of_mem hmem
  unfold Unconfirmed
  rw [hsaves]
  by_cases hij : i = j
  · subst hij
    rw [hrequest] at hj
    obtain rfl := Option.some.inj hj
    have hi := List.getElem?_eq_some_iff.mp hrequest
    exact ⟨_, List.mem_set hi.1 _, hid, hcommitted, hmeaningful⟩
  · exact ⟨old, List.mem_of_getElem? ((List.getElem?_set_ne hij).trans hj), hid, hcommitted,
      hmeaningful⟩

theorem Inv.givenUp (h : Inv w) {i : Nat} {request : SaveRequest} (hrequest : w.saves[i]? = some request)
    (hstate : w'.page.remoteLoadState = w.page.remoteLoadState) (hstore : w'.store = w.store)
    (hsaves : w'.saves = w.saves.set i { request with answered := true })
    (hfailed : w'.lastLoadFailed = w.lastLoadFailed) (hsent : w'.sent = w.sent) : Inv w' where
  empty := by
    intro id hempty hcontent
    rw [hstate] at hempty
    rw [hstore] at hcontent
    exact (h.empty id hempty hcontent).answered hrequest hsaves
  failed := by
    intro id hlast
    rw [hfailed] at hlast
    rw [hstate]
    exact h.failed id hlast
  sent := by
    intro s hs
    rw [hsent] at hs
    exact h.sent s hs

theorem Inv.accepted (h : Inv w) {i : Nat} {request : SaveRequest}
    (hrequest : w.saves[i]? = some request) (hlast : w.lastLoadFailed request.id = false)
    (hempty : request.meaningful = false → hasMeaningfulData (w.store request.id) = false)
    (hstate : w'.page.remoteLoadState = Function.update w.page.remoteLoadState request.id
      (some (if request.meaningful then .ok else .okEmpty)))
    (hstore : w'.store = w.store) (hsaves : w'.saves = w.saves.eraseIdx i)
    (hfailed : w'.lastLoadFailed = w.lastLoadFailed) (hsent : w'.sent = w.sent) : Inv w' where
  empty := by
    intro id hnote hcontent
    rw [hstore] at hcontent
    rw [hstate] at hnote
    by_cases hid : id = request.id
    · subst hid
      rw [Function.update_self] at hnote
      cases hmeaningful : request.meaningful with
      | true =>
        rw [hmeaningful] at hnote
        cases hnote
      | false =>
        rw [hempty hmeaningful] at hcontent
        cases hcontent
    · rw [Function.update_of_ne hid] at hnote
      obtain ⟨old, hmem, hold, hcommitted, hmeaningful⟩ := h.empty id hnote hcontent
      refine ⟨old, ?_, hold, hcommitted, hmeaningful⟩
      obtain ⟨j, hj⟩ := List.getElem?_of_mem hmem
      have hij : j ≠ i := by
        rintro rfl
        rw [hrequest] at hj
        cases hj
        exact hid hold.symm
      rw [hsaves]
      exact List.mem_eraseIdx_iff_getElem?.mpr ⟨j, hij, hj⟩
  failed := by
    intro id hid
    rw [hfailed] at hid
    rw [hstate, Function.update_of_ne]
    · exact h.failed id hid
    · rintro rfl
      rw [hlast] at hid
      cases hid
  sent := by
    intro s hs
    rw [hsent] at hs
    exact h.sent s hs

theorem Inv.saveReply (h : Inv w) {i : Nat} {reply : SaveReply}
    (hcareful : Careful cleanSchoolId w (.saveReply i reply)) : Inv (w.saveReply i reply) := by
  unfold World.saveReply
  cases hrequest : w.saves[i]? with
  | none => exact h
  | some request =>
    simp only
    by_cases hanswered : request.answered = true
    · rw [if_pos hanswered]
      exact h
    rw [if_neg hanswered]
    cases reply with
    | denied => exact h.givenUp hrequest rfl rfl rfl rfl rfl
    | failed => exact h.givenUp hrequest rfl rfl rfl rfl rfl
    | accepted =>
      obtain ⟨hlast, hempty⟩ := hcareful request hrequest (Bool.eq_false_iff.mpr hanswered)
      exact h.accepted hrequest hlast hempty rfl rfl rfl rfl rfl

/-! ### Runs -/

theorem inv_step {event : Event} (h : Inv w) (hcareful : Careful cleanSchoolId w event) :
    Inv (step cleanSchoolId w event) := by
  cases event with
  | load sync schoolId => exact h.startLoad sync schoolId _
  | loadWithFallback sync schoolId => exact h.startLoad sync _ _
  | loadReply i reply related => exact h.loadReply hcareful
  | save schoolId dataJson => exact h.save hcareful
  | commit i => exact h.commit i
  | saveReply i reply => exact h.saveReply hcareful
  | authReady => exact h.of_eq rfl rfl rfl rfl rfl

/-- In a session whose steps all meet the condition every save is harmless: it has content or the
store has none, and the last load of its school did not fail. -/
theorem saves_harmless (cleanSchoolId : String → String) (store : String → Json)
    {events : List Event} {w : World}
    (hrun : Run (within (Careful cleanSchoolId) (ofFn (step cleanSchoolId))) (opened store) events w) :
    ∀ s ∈ w.sent, s.Harmless := by
  have hinv : Inv w := by
    refine hrun.invariant ?_ (inv_opened store)
    intro before event after h hstep
    rw [← hstep.2]
    exact inv_step h hstep.1
  exact hinv.sent

/-- A school with one class. -/
def oneClass : Json := .obj [("lop", .arr [.str "6A"])]

/-- An empty store is loaded, a class is saved and the save is accepted. -/
def classSaved : List Event :=
  [.load false "truong", .loadReply 0 (.answered (some (.obj []))) [], .save "truong" (some oneClass),
    .commit 0, .saveReply 0 .accepted]

theorem saves_harmless_class :
    (classSaved.foldl (step id) (opened fun _ => .obj [])).sent.length = 1 ∧
      ∀ s ∈ (classSaved.foldl (step id) (opened fun _ => .obj [])).sent, s.Harmless := by
  let w0 : World := opened fun _ => .obj []
  let w1 := step id w0 (.load false "truong")
  let w2 := step id w1 (.loadReply 0 (.answered (some (.obj []))) [])
  let w3 := step id w2 (.save "truong" (some oneClass))
  let w4 := step id w3 (.commit 0)
  have h1 : Careful id w1 (.loadReply 0 (.answered (some (.obj []))) []) := by
    intro request hrequest _
    cases hrequest
    exact ⟨rfl, rfl⟩
  have h2 : Careful id w2 (.save "truong" (some oneClass)) := fun hnone => by cases hnone
  have h4 : Careful id w4 (.saveReply 0 .accepted) := by
    intro request hrequest _
    cases hrequest
    exact ⟨rfl, fun hnone => by cases hnone⟩
  have hrun : Run (within (Careful id) (ofFn (step id))) w0 classSaved
      (classSaved.foldl (step id) w0) := by
    refine Run.cons (t := w1) ⟨trivial, rfl⟩ (Run.cons (t := w2) ⟨h1, rfl⟩ ?_)
    refine Run.cons (t := w3) ⟨h2, rfl⟩ (Run.cons (t := w4) ⟨trivial, rfl⟩ ?_)
    exact Run.single ⟨h4, rfl⟩
  exact ⟨rfl, saves_harmless id (fun _ => .obj []) hrun⟩

/-- The store is empty, a class is saved and taken, but the reply is lost: the page still takes the
store for empty, and an empty save goes out. -/
theorem lost_reply_wipes :
    ¬ ∀ (store : String → Json) (events : List Event),
      ∀ s ∈ (events.foldl (step id) (opened store)).sent, s.Harmless := by
  intro h
  have hsent := h (fun _ => .obj [])
    [.load false "truong", .loadReply 0 (.answered (some (.obj []))) [], .save "truong" (some oneClass),
      .commit 0, .saveReply 0 .failed, .save "truong" (some (.obj []))]
    ⟨"truong", false, true, false⟩ (by decide +kernel)
  exact absurd hsent (by decide)

end TkbCherry.Browser
