import TkbCherry.Session.Model

/-!
# Open sessions

A session row is open while it is a document that no later login has marked. Under the
condition `Quiet` every open row is named by the active row of its account, but for the row
that the login at work is about to publish or to mark.
-/

namespace TkbCherry.Session

set_option autoImplicit false

open Text Registry Transition

theorem eq_empty_of_sqlBlank {t : String} (htrim : trim t = t) (hblank : sqlBlank t = true) :
    t = "" := by
  have hdrop : t.toList.dropWhile isWhiteSpace = [] := by
    apply List.dropWhile_eq_nil_iff.mpr
    intro c hc
    have hspace : c = ' ' := by simpa using List.all_eq_true.mp hblank c hc
    subst hspace
    decide
  rw [← htrim]
  unfold trim
  rw [hdrop]
  rfl

/-! ### Rows -/

/-- The row has been written and can no longer be accepted. -/
def Closed : Row → Prop
  | .absent => False
  | .text => True
  | .doc session => isReplaced session = true

/-- A text that a request can present. -/
def IsToken (token : String) : Prop := trim token = token ∧ token ≠ ""

/-- A document of the account that no login has marked; the super administrator's do not count. -/
def IsOpen (db : Db) (u token : String) : Prop :=
  IsToken token ∧ ∃ session, db.session token = .doc session ∧ account session = u ∧
    isSuperadminSession session = false ∧ isReplaced session = false

theorem IsOpen.not_closed {db : Db} {u token : String} (h : IsOpen db u token) :
    ¬ Closed (db.session token) := by
  obtain ⟨_, session, hrow, _, _, hopen⟩ := h
  rw [hrow]
  simp [Closed, hopen]

theorem isReplaced_marked {session v : Json} {now : UInt64} (h : marked session now = some v) :
    isReplaced v = true := by
  obtain ⟨fields, _, rfl⟩ := Option.map_eq_some_iff.mp h
  rw [isReplaced, u64At, Json.get?_obj, AssocList.lookup_assign_self, Option.bind_some,
    Json.asU64_natCast now.toNat_lt]
  rfl

theorem userId_payload (userKey : String) (user : Json) (now : UInt64) :
    strAt (payload userKey user now) "userId" = some userKey := by
  have hget : (payload userKey user now).get? "userId" = some (.str userKey) := by
    simp only [payload, jsonObject, List.foldl, Json.get?_obj]
    rw [AssocList.lookup_assign_ne (by decide), AssocList.lookup_assign_ne (by decide),
      AssocList.lookup_assign_ne (by decide), AssocList.lookup_assign_ne (by decide),
      AssocList.lookup_assign_self]
  rw [strAt, hget]
  rfl

theorem account_payload (userKey : String) (user : Json) (now : UInt64) :
    account (payload userKey user now) = trim userKey := by
  rw [account, userOf, userId_payload]
  rfl

/-- Calls that close rows and empty active rows of closed sessions, and do nothing else. -/
structure Calm (db db' : Db) : Prop where
  session : ∀ t, db'.session t = db.session t ∨ Closed (db'.session t)
  active : ∀ u, db'.active u = db.active u ∨
    (db'.active u = "" ∧ Closed (db.session (db.active u)))

namespace Calm
variable {db db' : Db}

theorem refl (db : Db) : Calm db db := ⟨fun _ => .inl rfl, fun _ => .inl rfl⟩

theorem setSession {token : String} {row : Row} (h : Closed row) :
    Calm db (db.setSession token row) where
  session := by
    intro t
    rcases eq_or_ne t token with rfl | hne
    · exact .inr (by rwa [Db.setSession_self])
    · exact .inl (db.setSession_ne hne row)
  active := fun _ => .inl rfl

theorem empty (token : String) : Calm db (db.setSession token .text) := setSession trivial

theorem clearActive {userKey token : String} (h : Closed (db.session token)) :
    Calm db (db.clearActive userKey token) where
  session := fun t => .inl (by rw [Db.clearActive_session])
  active := by
    intro u
    rcases db.clearActive_active userKey token u with hsame | ⟨hempty, htoken⟩
    · exact .inl hsame
    · exact .inr ⟨hempty, htoken ▸ h⟩

/-- A call that the storage may have refused. -/
theorem ite {ok : Bool} (h : Calm db db') : Calm db (if ok then db' else db) := by
  cases ok with
  | false => exact refl db
  | true => exact h

theorem closed (h : Calm db db') {t : String} (hc : Closed (db.session t)) :
    Closed (db'.session t) := by
  rcases h.session t with hsame | hclosed
  · rwa [hsame]
  · exact hclosed

theorem isOpen (h : Calm db db') {u t : String} (ho : IsOpen db' u t) : IsOpen db u t := by
  rcases h.session t with hsame | hclosed
  · unfold IsOpen at ho ⊢
    rwa [hsame] at ho
  · exact absurd hclosed ho.not_closed

/-- The active row keeps naming a session that is still open. -/
theorem active_eq (h : Calm db db') {u t : String} (ho : IsOpen db u t)
    (hact : db.active u = t) : db'.active u = t := by
  rcases h.active u with hsame | ⟨_, hclosed⟩
  · rw [hsame, hact]
  · rw [hact] at hclosed
    exact absurd hclosed ho.not_closed

theorem active_or_empty (h : Calm db db') {u v : String}
    (hact : db.active u = v ∨ db.active u = "") : db'.active u = v ∨ db'.active u = "" := by
  rcases h.active u with hsame | ⟨hempty, _⟩
  · rwa [hsame]
  · exact .inr hempty

end Calm

/-! ### The invariant -/

/-- The session a login is about to publish, or to mark. -/
def Phase.pending : Phase → Option String
  | .issued token | .replacing token _ | .undoing token => some token
  | .replaced _ previous | .marking _ previous _ | .emptying _ previous => some previous
  | _ => none

theorem Phase.holds_of_pending {p : Phase} {t : String} (h : p.pending = some t) :
    p.holds = true := by
  cases p <;> first | rfl | cases h

/-- The session of a login that has not published it yet. -/
def Phase.issuing : Phase → Option String
  | .issued token | .replacing token _ => some token
  | _ => none

theorem Phase.holds_of_issuing {p : Phase} {token : String} (h : p.issuing = some token) :
    p.holds = true := by
  cases p <;> first | rfl | cases h

/-- What a phase knows of the rows. -/
def Fits (req : Request) (db : Db) : Phase → Prop
  | .checked token session =>
    IsToken token ∧ isSuperadminSession session = false ∧ isReplaced session = false
  | .comparing token _ | .issued token => IsToken token
  | .replacing token previous =>
    IsToken token ∧ (db.active req.userKey = previous ∨ db.active req.userKey = "")
  | .expired token _ | .left token _ => Closed (db.session token)
  | .marking _ _ session => isReplaced session = true
  | _ => True

theorem Fits.calm {req : Request} {db db' : Db} {p : Phase} (hc : Calm db db')
    (h : Fits req db p) : Fits req db' p := by
  cases p with
  | checked token session => exact h
  | comparing token session => exact h
  | issued token => exact h
  | replacing token previous => exact ⟨h.1, hc.active_or_empty h.2⟩
  | expired token session => exact hc.closed h
  | left token session => exact hc.closed h
  | marking token previous session => exact h
  | _ => trivial

/-- The login at work for account `u` has `t` pending. -/
def Pending (reqs : Nat → Request) (s : State) (u t : String) : Prop :=
  ∃ i, (reqs i).userKey = u ∧ (s.phase i).pending = some t

structure Inv (reqs : Nat → Request) (s : State) : Prop where
  holder : ∀ i, (s.phase i).holds = true → s.guard = some i
  fits : ∀ i, Fits (reqs i) s.db (s.phase i)
  named : ∀ u t, IsOpen s.db u t → s.db.active u = t ∨ Pending reqs s u t
  newest : ∀ u, s.db.active u = "" ∨ latest s.logins u = none ∨
    (latest s.logins u = some (s.db.active u) ∧ IsToken (s.db.active u))

/-- Every open session the store starts with is its account's active one. -/
def Enforced (db : Db) : Prop := ∀ u t, IsOpen db u t → db.active u = t

theorem inv_start {reqs : Nat → Request} {db : Db} (h : Enforced db) : Inv reqs { db := db } where
  holder := fun i hi => by cases hi
  fits := fun _ => trivial
  named := fun u t ho => .inl (h u t ho)
  newest := fun _ => .inr (.inl rfl)

/-- The rows a step may not leave behind, and the clash it may not enter:
* a login's account key has no surrounding white space;
* a session that is adopted on an empty active row still has the row that was read;
* the storage does not refuse the emptying of a session row on its way out, nor to a login the
  reading of the active row. -/
def Quiet (reqs : Nat → Request) (s : State) (l : Label) : Prop :=
  match s.phase l.thread with
  | .waiting => trim (reqs l.thread).userKey = (reqs l.thread).userKey
  | .checked token session =>
    l.ok = true → sqlBlank (s.db.active (account session)) = true →
      s.db.session token = .doc session
  | .expiring _ _ | .leaving _ _ | .issued _ | .undoing _ | .emptying _ _ => l.ok = true
  | _ => True

/-! ### What a step can do -/

variable {reqs : Nat → Request} {s t : State} {l : Label}

theorem step_cases (h : Step reqs s l t) :
    ∃ db p, act s.db (reqs l.thread) l (s.phase l.thread) = some (db, p) ∧
      ((s.phase l.thread).takesGuard (reqs l.thread) = true → s.guard = none) ∧
      t = { db := db
            guard := if p.holds then some l.thread
              else if (s.phase l.thread).holds then none else s.guard
            phase := Function.update s.phase l.thread p
            logins := noteLogin (reqs l.thread) l.ok s.logins (s.phase l.thread) } := by
  simp only [Step, step] at h
  split at h
  · cases h
  · rename_i hguard
    obtain ⟨⟨db, p⟩, hact, rfl⟩ := Option.map_eq_some_iff.mp h
    refine ⟨db, p, hact, ?_, rfl⟩
    intro htakes
    simpa [htakes] using hguard

/-- A phase outside the guard whose facts do not depend on the rows. -/
def Phase.Idle (p : Phase) : Prop :=
  p.holds = false ∧ ∀ req db, Fits req db p

theorem idle_ended (answer : Answer) : (Phase.ended answer).Idle := ⟨rfl, fun _ _ => trivial⟩

theorem reject_idle (req : Request) (code : String) : (reject req code).Idle := by
  unfold reject
  split <;> exact idle_ended _

theorem notActive_idle (req : Request) (token : String) : (notActive req token).Idle := by
  unfold notActive
  split
  · exact ⟨rfl, fun _ _ => trivial⟩
  · exact idle_ended _

theorem checkRow_idle (db : Db) (req : Request) (l : Label) {token : String}
    (ht : IsToken token) : (checkRow db req l token).Idle := by
  unfold checkRow
  split
  · exact reject_idle _ _
  · rename_i session _
    split
    · exact ⟨rfl, fun _ _ => trivial⟩
    · split
      · exact idle_ended _
      · rename_i hsuper
        split
        · exact notActive_idle _ _
        · rename_i hreplaced
          have hopen : isReplaced session = false := by
            simp only [Bool.or_eq_true, not_or] at hreplaced
            exact Bool.eq_false_iff.mpr hreplaced.1
          exact ⟨rfl, fun _ _ => ⟨ht, Bool.eq_false_iff.mpr hsuper, hopen⟩⟩

/-- What one storage call does: it calms the rows, or a login writes its session row, or it
publishes the session in the active row. -/
inductive Move (req : Request) (db : Db) (l : Label) : Phase → Db → Phase → Prop where
  | calm {p p' : Phase} {db' : Db} (rows : Calm db db')
      (history : ∀ logins, noteLogin req l.ok logins p = logins)
      (keeps : ∀ t, p.pending = some t → p'.pending = some t ∨ Closed (db'.session t))
      (issues : ∀ t, p'.issuing = some t → p.issuing = some t)
      (fits : Fits req db' p')
      (guarded : p'.holds = true → p.holds = true ∨ p.takesGuard req = true) :
      Move req db l p db' p'
  | issue {userKey : String} {user : Json} {p' : Phase} (login : req = .login userKey user)
      (fresh : Fresh db l.token)
      (next : p' = .issued l.token ∨ (userKey = superId ∧ p' = .ended (.issued l.token))) :
      Move req db l .waiting (db.setSession l.token (.doc (payload userKey user l.now))) p'
  | publish {token previous : String} {p' : Phase} (ok : l.ok = true)
      (next : p' = .replaced token (trim previous) ∨
        ((trim previous = "" ∨ trim previous = token) ∧ p' = .ended (.issued token))) :
      Move req db l (.replacing token previous) (db.setActive req.userKey token) p'

/-- A call outside the guard, or the last one under it, that leaves nothing pending. -/
theorem Move.idle {req : Request} {db db' : Db} {p p' : Phase} (rows : Calm db db')
    (history : ∀ logins, noteLogin req l.ok logins p = logins)
    (hpend : ∀ t, p.pending = some t → Closed (db'.session t)) (hidle : p'.Idle) :
    Move req db l p db' p' := by
  apply Move.calm rows history
  · intro t ht
    exact .inr (hpend t ht)
  · intro t ht
    have hh := Phase.holds_of_issuing ht
    rw [hidle.1] at hh
    cases hh
  · exact hidle.2 req db'
  · intro hp
    rw [hidle.1] at hp
    cases hp

theorem presented {authToken : Option String} {token : String}
    (h : ((authToken.map trim).filter fun t => t ≠ "") = some token) : IsToken token := by
  obtain ⟨hmap, hne⟩ := Option.filter_eq_some_iff.mp h
  obtain ⟨raw, _, rfl⟩ := Option.map_eq_some_iff.mp hmap
  exact ⟨trim_trim raw, by simpa using hne⟩

theorem start_move {req : Request} {db db' : Db} {p' : Phase}
    (h : start db req l = some (db', p')) : Move req db l .waiting db' p' := by
  have hidle : ∀ {p : Phase}, p.Idle → Move req db l .waiting db p := fun hp =>
    .idle (Calm.refl db) (fun _ => rfl) (fun _ ht => by cases ht) hp
  cases req with
  | require authToken =>
    simp only [start] at h
    split at h
    · cases h
      exact hidle (idle_ended _)
    · rename_i token htoken
      cases h
      exact hidle (checkRow_idle _ _ _ (presented htoken))
  | session token =>
    simp only [start] at h
    split at h
    · cases h
      exact hidle (idle_ended _)
    · rename_i hne
      cases h
      exact hidle (checkRow_idle _ _ _ ⟨trim_trim token, hne⟩)
  | logout authToken bodyToken =>
    simp only [start] at h
    split at h
    · cases h
      exact hidle (idle_ended _)
    · cases h
      exact hidle ⟨rfl, fun _ _ => trivial⟩
  | login userKey user =>
    simp only [start] at h
    split at h
    · rename_i hfresh
      split at h
      · cases h
        apply Move.issue rfl hfresh
        split
        · rename_i hsuper
          exact .inr ⟨hsuper, rfl⟩
        · exact .inl rfl
      · cases h
        exact hidle (idle_ended _)
    · cases h

/-- An adoption finds the row it has read, which some active row names: it cannot find that row
empty. -/
theorem not_adopted (hinv : Inv reqs s) (hq : Quiet reqs s l) {token : String} {session : Json}
    (hp : s.phase l.thread = .checked token session) (hfree : s.guard = none)
    (hok : l.ok = true) : sqlBlank (s.db.active (account session)) = false := by
  by_contra hblank
  rw [Bool.not_eq_false] at hblank
  simp only [Quiet, hp] at hq
  have hfit := hinv.fits l.thread
  rw [hp] at hfit
  obtain ⟨htoken, hsuper, hopen⟩ := hfit
  have ho : IsOpen s.db (account session) token :=
    ⟨htoken, session, hq hok hblank, rfl, hsuper, hopen⟩
  rcases hinv.named _ _ ho with hact | ⟨i, _, hpend⟩
  · rw [hact] at hblank
    exact htoken.2 (eq_empty_of_sqlBlank htoken.1 hblank)
  · have hheld := hinv.holder i (Phase.holds_of_pending hpend)
    rw [hfree] at hheld
    cases hheld

theorem closed_text_set (db : Db) (token : String) :
    Closed ((db.setSession token .text).session token) := by
  rw [Db.setSession_self]
  trivial

theorem act_move (hinv : Inv reqs s) (hq : Quiet reqs s l)
    (htakes : (s.phase l.thread).takesGuard (reqs l.thread) = true → s.guard = none)
    {db' : Db} {p' : Phase}
    (h : act s.db (reqs l.thread) l (s.phase l.thread) = some (db', p')) :
    Move (reqs l.thread) s.db l (s.phase l.thread) db' p' := by
  have hfit := hinv.fits l.thread
  have hadopt := fun token session => @not_adopted reqs s l hinv hq token session
  cases hp : s.phase l.thread with
  | waiting =>
    rw [hp] at h
    exact start_move h
  | expiring token session =>
    rw [hp] at h
    have hok : l.ok = true := by simpa [Quiet, hp] using hq
    simp only [act, hok, if_true] at h
    cases h
    exact .calm (Calm.empty _) (fun _ => rfl) (fun _ ht => by cases ht) (fun _ ht => by cases ht)
      (closed_text_set _ _) (fun hh => by cases hh)
  | expired token session =>
    rw [hp] at h hfit
    simp only [act] at h
    cases h
    exact .idle (Calm.clearActive hfit).ite (fun _ => rfl) (fun _ ht => by cases ht)
      (reject_idle _ _)
  | checked token session =>
    rw [hp] at h hfit htakes
    have hfree := htakes rfl
    simp only [act] at h
    split at h
    · rename_i hsuccess
      rw [Bool.and_eq_true] at hsuccess
      rw [hadopt token session hp hfree hsuccess.1] at hsuccess
      exact absurd hsuccess.2 (by simp)
    · cases h
      exact .calm (Calm.refl _) (fun _ => rfl) (fun _ ht => by cases ht) (fun _ ht => by cases ht)
        hfit.1 (fun _ => .inr rfl)
  | comparing token session =>
    rw [hp] at h
    simp only [act] at h
    cases h
    apply Move.idle (Calm.refl _) (fun _ => rfl) (fun _ ht => by cases ht)
    split
    · exact idle_ended _
    · exact notActive_idle _ _
  | rejecting token =>
    rw [hp] at h
    simp only [act] at h
    cases h
    exact .idle (Calm.empty token).ite (fun _ => rfl) (fun _ ht => by cases ht) (idle_ended _)
  | leaving token session =>
    rw [hp] at h
    have hok : l.ok = true := by simpa [Quiet, hp] using hq
    simp only [act, hok, if_true] at h
    cases h
    apply Move.calm (Calm.empty _) (fun _ => rfl) (fun _ ht => by cases ht)
    · intro t ht
      split at ht <;> cases ht
    · split
      · trivial
      · exact closed_text_set _ _
    · intro hh
      split at hh <;> cases hh
  | left token session =>
    rw [hp] at h hfit
    simp only [act] at h
    cases h
    exact .idle (Calm.clearActive hfit).ite (fun _ => rfl) (fun _ ht => by cases ht) (idle_ended _)
  | issued token =>
    rw [hp] at h hfit
    have hok : l.ok = true := by simpa [Quiet, hp] using hq
    simp only [act, hok, if_true] at h
    cases h
    exact .calm (Calm.refl _) (fun _ => rfl) (fun _ ht => .inl ht) (fun _ ht => ht)
      ⟨hfit, .inl rfl⟩ (fun _ => .inl rfl)
  | replacing token previous =>
    rw [hp] at h
    simp only [act] at h
    split at h
    · rename_i hok
      cases h
      apply Move.publish hok
      split
      · exact .inl rfl
      · rename_i hsame
        exact .inr ⟨by tauto, rfl⟩
    · rename_i hok
      cases h
      exact .calm (Calm.refl _) (fun _ => by simp [noteLogin, hok]) (fun _ ht => .inl ht)
        (fun _ ht => by cases ht) trivial (fun _ => .inl rfl)
  | undoing token =>
    rw [hp] at h
    have hok : l.ok = true := by simpa [Quiet, hp] using hq
    simp only [act, hok, if_true] at h
    cases h
    apply Move.idle (Calm.empty _) (fun _ => rfl) _ (idle_ended _)
    intro t ht
    cases ht
    exact closed_text_set _ _
  | replaced token previous =>
    rw [hp] at h
    simp only [act] at h
    split at h
    · rename_i session hmarked
      cases h
      obtain ⟨v, _, hv⟩ := Option.bind_eq_some_iff.mp hmarked
      exact .calm (Calm.refl _) (fun _ => rfl) (fun _ ht => .inl ht) (fun _ ht => by cases ht)
        (isReplaced_marked hv) (fun _ => .inl rfl)
    · cases h
      exact .calm (Calm.refl _) (fun _ => rfl) (fun _ ht => .inl ht) (fun _ ht => by cases ht)
        trivial (fun _ => .inl rfl)
  | marking token previous session =>
    rw [hp] at h hfit
    have hclosed : Closed (.doc session) := hfit
    simp only [act] at h
    split at h
    · cases h
      apply Move.idle (Calm.setSession hclosed) (fun _ => rfl) _ (idle_ended _)
      intro t ht
      cases ht
      rwa [Db.setSession_self]
    · cases h
      exact .calm (Calm.refl _) (fun _ => rfl) (fun _ ht => .inl ht) (fun _ ht => by cases ht)
        trivial (fun _ => .inl rfl)
  | emptying token previous =>
    rw [hp] at h
    have hok : l.ok = true := by simpa [Quiet, hp] using hq
    simp only [act, hok, if_true] at h
    cases h
    apply Move.idle (Calm.empty _) (fun _ => rfl) _ (idle_ended _)
    intro t ht
    cases ht
    exact closed_text_set _ _
  | ended answer =>
    rw [hp] at h
    cases h

/-! ### One step -/

theorem Move.guarded {req : Request} {db db' : Db} {p p' : Phase} (h : Move req db l p db' p')
    (hp : p'.holds = true) : p.holds = true ∨ p.takesGuard req = true := by
  cases h with
  | calm rows history keeps issues fits guarded => exact guarded hp
  | issue login fresh next =>
    subst login
    exact .inr rfl
  | publish ok next => exact .inl rfl

/-- Nobody but the request at work holds the guard when it works under it. -/
theorem others_free (hinv : Inv reqs s)
    (hg : (s.phase l.thread).holds = true ∨ s.guard = none) {j : Nat} (hj : j ≠ l.thread) :
    (s.phase j).holds = false := by
  by_contra hh
  rw [Bool.not_eq_false] at hh
  have hheld := hinv.holder j hh
  rcases hg with hi | hnone
  · rw [hinv.holder _ hi] at hheld
    exact hj (Option.some.inj hheld).symm
  · rw [hnone] at hheld
    cases hheld

theorem holder_step (hinv : Inv reqs s) {db' : Db} {p' : Phase} {logins : List (String × String)}
    (htakes : (s.phase l.thread).takesGuard (reqs l.thread) = true → s.guard = none)
    (hmove : Move (reqs l.thread) s.db l (s.phase l.thread) db' p') (j : Nat)
    (hj : (Function.update s.phase l.thread p' j).holds = true) :
    ({ db := db'
       guard := if p'.holds then some l.thread
         else if (s.phase l.thread).holds then none else s.guard
       phase := Function.update s.phase l.thread p'
       logins := logins } : State).guard = some j := by
  rcases eq_or_ne j l.thread with rfl | hne
  · rw [Function.update_self] at hj
    rw [hj]
    rfl
  · rw [Function.update_of_ne hne] at hj
    -- the request that moves neither holds the guard nor takes it: it is `j`'s
    have hout : (s.phase l.thread).holds = false ∧ p'.holds = false := by
      constructor
      · by_contra hh
        rw [Bool.not_eq_false] at hh
        rw [others_free hinv (.inl hh) hne] at hj
        cases hj
      · by_contra hh
        rw [Bool.not_eq_false] at hh
        rw [others_free hinv ((hmove.guarded hh).imp_right htakes) hne] at hj
        cases hj
    simp only [hout.1, hout.2, Bool.false_eq_true, if_false]
    exact hinv.holder j hj

theorem fits_step (hinv : Inv reqs s) {db' : Db} {p' : Phase}
    (hmove : Move (reqs l.thread) s.db l (s.phase l.thread) db' p') (j : Nat) :
    Fits (reqs j) db' (Function.update s.phase l.thread p' j) := by
  have hfit := hinv.fits l.thread
  generalize hphase : s.phase l.thread = p at hmove hfit
  rcases eq_or_ne j l.thread with rfl | hne
  · rw [Function.update_self]
    cases hmove with
    | calm rows history keeps issues fits guarded => exact fits
    | issue login fresh next =>
      rcases next with rfl | ⟨_, rfl⟩
      · exact fresh.2
      · trivial
    | publish ok next =>
      rcases next with rfl | ⟨_, rfl⟩
      · trivial
      · trivial
  · rw [Function.update_of_ne hne]
    have hold := hinv.fits j
    cases hmove with
    | calm rows history keeps issues fits guarded => exact hold.calm rows
    | issue login fresh next =>
      have hstay : ∀ t, Closed (s.db.session t) → t ≠ l.token := by
        rintro t hclosed rfl
        cases hrow : s.db.session l.token with
        | absent => rw [hrow] at hclosed; exact hclosed
        | text => simp [Fresh, hrow] at fresh
        | doc v => simp [Fresh, hrow] at fresh
      cases hp : s.phase j with
      | expired token session =>
        rw [hp] at hold
        simp only [Fits] at hold ⊢
        rwa [Db.setSession_ne _ (hstay _ hold)]
      | left token session =>
        rw [hp] at hold
        simp only [Fits] at hold ⊢
        rwa [Db.setSession_ne _ (hstay _ hold)]
      | _ => rw [hp] at hold; exact hold
    | publish ok next =>
      have hfree := others_free hinv (.inl (by rw [hphase]; rfl)) hne
      cases hp : s.phase j with
      | replacing token previous => rw [hp] at hfree; cases hfree
      | _ => rw [hp] at hold; exact hold

theorem newest_step (hinv : Inv reqs s) {db' : Db} {p' : Phase}
    (hmove : Move (reqs l.thread) s.db l (s.phase l.thread) db' p') (u : String) :
    db'.active u = "" ∨
      latest (noteLogin (reqs l.thread) l.ok s.logins (s.phase l.thread)) u = none ∨
      (latest (noteLogin (reqs l.thread) l.ok s.logins (s.phase l.thread)) u =
        some (db'.active u) ∧ IsToken (db'.active u)) := by
  have hfit := hinv.fits l.thread
  generalize s.phase l.thread = p at hmove hfit
  cases hmove with
  | calm rows history keeps issues fits guarded =>
    rw [history]
    rcases rows.active u with hsame | ⟨hempty, _⟩
    · rw [hsame]
      exact hinv.newest u
    · exact .inl hempty
  | issue login fresh next => exact hinv.newest u
  | publish ok next =>
    rcases eq_or_ne u (reqs l.thread).userKey with rfl | hne
    · right
      right
      rw [Db.setActive_self]
      exact ⟨by simp [latest, noteLogin, ok], hfit.1⟩
    · rw [Db.setActive_ne _ hne]
      simp only [latest, noteLogin, ok, if_true, AssocList.lookup_cons_eq, if_neg hne]
      exact hinv.newest u

theorem named_step (hinv : Inv reqs s) (hq : Quiet reqs s l) {db' : Db} {p' : Phase} {g : Option Nat}
    {logins : List (String × String)}
    (htakes : (s.phase l.thread).takesGuard (reqs l.thread) = true → s.guard = none)
    (hmove : Move (reqs l.thread) s.db l (s.phase l.thread) db' p') {u token : String}
    (ho : IsOpen db' u token) :
    db'.active u = token ∨ Pending reqs
      { db := db', guard := g, phase := Function.update s.phase l.thread p', logins := logins }
      u token := by
  have hfit := hinv.fits l.thread
  have hmine : (reqs l.thread).userKey = u → p'.pending = some token → Pending reqs
      { db := db', guard := g, phase := Function.update s.phase l.thread p', logins := logins }
      u token := fun hu hp => ⟨l.thread, hu, by simpa using hp⟩
  generalize hphase : s.phase l.thread = p at hmove hfit htakes
  cases hmove with
  | calm rows history keeps issues fits guarded =>
    rcases hinv.named u token (rows.isOpen ho) with hact | ⟨j, hu, hpend⟩
    · exact .inl (rows.active_eq (rows.isOpen ho) hact)
    · right
      rcases eq_or_ne j l.thread with rfl | hne
      · rw [hphase] at hpend
        rcases keeps token hpend with hkeep | hclosed
        · exact hmine hu hkeep
        · exact absurd hclosed ho.not_closed
      · refine ⟨j, hu, ?_⟩
        simpa [Function.update_of_ne hne] using hpend
  | @issue userKey user p' login fresh next =>
    have hkey : (reqs l.thread).userKey = userKey := by rw [login]; rfl
    rcases eq_or_ne token l.token with rfl | hne
    · -- the new session is pending until its login publishes it
      obtain ⟨_, session, hrow, hacc, hsuper, _⟩ := ho
      rw [Db.setSession_self] at hrow
      cases hrow
      have htrim : trim userKey = userKey := by simpa [Quiet, hphase, hkey] using hq
      rw [account_payload, htrim] at hacc
      rcases next with rfl | ⟨hid, _⟩
      · exact .inr (hmine (hkey.trans hacc) rfl)
      · simp [isSuperadminSession, userId_payload, hid] at hsuper
    · have hold : IsOpen s.db u token := by
        unfold IsOpen at ho ⊢
        rwa [Db.setSession_ne _ hne] at ho
      rcases hinv.named u token hold with hact | ⟨j, _, hpend⟩
      · exact .inl hact
      · have hfree := htakes (by rw [login]; rfl)
        have hheld := hinv.holder j (Phase.holds_of_pending hpend)
        rw [hfree] at hheld
        cases hheld
  | @publish fresh previous p' ok next =>
    have hold : IsOpen s.db u token := ho
    rcases hinv.named u token hold with hact | ⟨j, hu, hpend⟩
    · rcases eq_or_ne u (reqs l.thread).userKey with rfl | hne
      · -- the session that was active is pending until it is marked
        rw [Db.setActive_self]
        have hprev : previous = token := by
          rcases hfit.2 with hread | hempty
          · rw [← hread, hact]
          · rw [hact] at hempty
            exact absurd hempty hold.1.2
        rw [hprev, hold.1.1] at next
        rcases next with rfl | ⟨hsame | hsame, _⟩
        · exact .inr (hmine rfl rfl)
        · exact absurd hsame hold.1.2
        · exact .inl hsame.symm
      · rw [Db.setActive_ne _ hne]
        exact .inl hact
    · have hheld := hinv.holder j (Phase.holds_of_pending hpend)
      rw [hinv.holder l.thread (by rw [hphase]; rfl)] at hheld
      obtain rfl := Option.some.inj hheld
      rw [hphase] at hpend
      cases hpend
      rw [← hu, Db.setActive_self]
      exact .inl rfl

theorem inv_step (hinv : Inv reqs s) (hq : Quiet reqs s l) (h : Step reqs s l t) : Inv reqs t := by
  obtain ⟨db', p', hact, htakes, rfl⟩ := step_cases h
  have hmove := act_move hinv hq htakes hact
  exact {
    holder := holder_step hinv htakes hmove
    fits := fits_step hinv hmove
    named := fun _ _ ho => named_step hinv hq htakes hmove ho
    newest := newest_step hinv hmove }

theorem inv_run {db : Db} {ls : List Label} (h : Enforced db)
    (run : Run (within (Quiet reqs) (Step reqs)) { db := db } ls t) : Inv reqs t :=
  run.invariant (fun hinv hst => inv_step hinv hst.1 hst.2) (inv_start h)

end TkbCherry.Session
