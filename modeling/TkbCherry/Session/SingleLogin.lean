import TkbCherry.Session.Invariant

/-!
# One active session an account

Asked at one moment, the server accepts at most one token of an account, and it accepts no
token of an account that has logged in again since: in every run whose steps meet `Quiet`.
Without it a request that has read its row before the login adopts the row of the account
once the new session has logged out.
-/

namespace TkbCherry.Session

set_option autoImplicit false

open Text Registry Transition

variable {reqs : Nat → Request} {s t : State} {l : Label} {db₀ : Db}

/-! ### Tokens are drawn once -/

def Written : Row → Prop
  | .absent => False
  | _ => True

theorem Fresh.not_written {db : Db} {token : String} (h : Fresh db token) :
    ¬ Written (db.session token) := by
  intro hw
  cases hrow : db.session token with
  | absent => rw [hrow] at hw; exact hw
  | text => simp [Fresh, hrow] at h
  | doc v => simp [Fresh, hrow] at h

/-- Every login has published a token of its own, under which the store had no row at first. -/
structure History (db₀ : Db) (s : State) : Prop where
  kept : ∀ t, Written (db₀.session t) → Written (s.db.session t)
  drawn : ∀ e ∈ s.logins, Written (s.db.session e.2) ∧ ¬ Written (db₀.session e.2)
  once : (s.logins.map Prod.snd).Nodup
  next : ∀ i token, (s.phase i).issuing = some token →
    Written (s.db.session token) ∧ ¬ Written (db₀.session token) ∧ token ∉ s.logins.map Prod.snd

theorem history_start : History db₀ { db := db₀ } where
  kept := fun _ h => h
  drawn := fun _ h => absurd h List.not_mem_nil
  once := List.nodup_nil
  next := fun _ _ h => by cases h

/-- Rows are never taken away. -/
theorem Move.written {req : Request} {db db' : Db} {p p' : Phase} (h : Move req db l p db' p')
    {token : String} (hw : Written (db.session token)) : Written (db'.session token) := by
  cases h with
  | calm rows history keeps issues fits guarded =>
    rcases rows.session token with hsame | hclosed
    · rwa [hsame]
    · cases hrow : db'.session token with
      | absent => rw [hrow] at hclosed; exact hclosed.elim
      | _ => trivial
  | issue login fresh next =>
    rcases eq_or_ne token l.token with rfl | hne
    · rw [Db.setSession_self]
      trivial
    · rwa [Db.setSession_ne _ hne]
  | publish ok next => exact hw

/-- A step that publishes nothing. -/
theorem History.keep {db' : Db} {p' : Phase} {g : Option Nat} (h : History db₀ s)
    (hwritten : ∀ token, Written (s.db.session token) → Written (db'.session token))
    (hnext : ∀ token, p'.issuing = some token →
      Written (db'.session token) ∧ ¬ Written (db₀.session token) ∧
        token ∉ s.logins.map Prod.snd) :
    History db₀
      { db := db', guard := g, phase := Function.update s.phase l.thread p', logins := s.logins }
    where
  kept := fun token hw => hwritten token (h.kept token hw)
  drawn := fun e he => ⟨hwritten e.2 (h.drawn e he).1, (h.drawn e he).2⟩
  once := h.once
  next := by
    intro j token hj
    rcases eq_or_ne j l.thread with rfl | hne
    · simp only [Function.update_self] at hj
      exact hnext token hj
    · simp only [Function.update_of_ne hne] at hj
      obtain ⟨hw, hnew, hnot⟩ := h.next j token hj
      exact ⟨hwritten token hw, hnew, hnot⟩

theorem history_step (hinv : Inv reqs s) (hq : Quiet reqs s l) (h : Step reqs s l t)
    (hh : History db₀ s) : History db₀ t := by
  obtain ⟨db', p', hact, htakes, rfl⟩ := step_cases h
  have hmove := act_move hinv hq htakes hact
  have hwritten := fun token => @Move.written l _ _ _ _ _ hmove token
  have hnext := hh.next l.thread
  have hothers : (s.phase l.thread).holds = true → ∀ j, j ≠ l.thread → (s.phase j).holds = false :=
    fun hi j hj => others_free hinv (.inl hi) hj
  generalize s.phase l.thread = p at hmove hnext hothers
  cases hmove with
  | calm rows history keeps issues fits guarded =>
    rw [history]
    apply hh.keep hwritten
    intro token ht
    obtain ⟨hw, hnew, hnot⟩ := hnext token (issues token ht)
    exact ⟨hwritten token hw, hnew, hnot⟩
  | issue login fresh next =>
    apply hh.keep hwritten
    intro token ht
    rcases next with rfl | ⟨_, rfl⟩
    · cases ht
      rw [Db.setSession_self]
      refine ⟨trivial, fun hw => fresh.not_written (hh.kept _ hw), ?_⟩
      intro hin
      obtain ⟨e, he, hetoken⟩ := List.mem_map.mp hin
      exact fresh.not_written (hetoken ▸ (hh.drawn e he).1)
    · cases ht
  | @publish token previous p' ok next =>
    obtain ⟨hw, hnew, hnot⟩ := hnext token rfl
    simp only [noteLogin, ok, if_true]
    exact {
      kept := hh.kept
      drawn := by
        intro e he
        rcases List.mem_cons.mp he with rfl | he
        · exact ⟨hw, hnew⟩
        · exact hh.drawn e he
      once := List.nodup_cons.mpr ⟨hnot, hh.once⟩
      next := by
        intro j token' hj
        rcases eq_or_ne j l.thread with rfl | hne
        · simp only [Function.update_self] at hj
          rcases next with rfl | ⟨_, rfl⟩ <;> cases hj
        · simp only [Function.update_of_ne hne] at hj
          have hheld := Phase.holds_of_issuing hj
          rw [hothers rfl j hne] at hheld
          cases hheld }

theorem history_run {ls : List Label} (h : Enforced db₀)
    (run : Run (within (Quiet reqs) (Step reqs)) { db := db₀ } ls t) :
    Inv reqs t ∧ History db₀ t := by
  apply Run.invariant (I := fun s => Inv reqs s ∧ History db₀ s) _ run
  · exact ⟨inv_start h, history_start⟩
  · intro s l t ⟨hinv, hh⟩ ⟨hq, hst⟩
    exact ⟨inv_step hinv hq hst, history_step hinv hq hst hh⟩

/-! ### What is accepted -/

theorem reject_ne (req : Request) (code token : String) (session : Json) :
    reject req code ≠ .ended (.accepted token session) := by
  unfold reject
  split <;> simp

theorem notActive_ne (req : Request) (token token' : String) (session : Json) :
    notActive req token ≠ .ended (.accepted token' session) := by
  unfold notActive
  split <;> simp

theorem checkRow_accepts {db : Db} {req : Request} {token token' : String} {session : Json}
    (h : checkRow db req l token = .ended (.accepted token' session)) :
    isSuperadminSession session = true := by
  unfold checkRow at h
  split at h
  · exact absurd h (reject_ne _ _ _ _)
  · split at h
    · cases h
    · split at h
      · rename_i hsuper
        cases h
        exact hsuper
      · split at h
        · exact absurd h (notActive_ne _ _ _ _)
        · cases h

theorem start_accepts {req : Request} {db db' : Db} {token : String} {session : Json}
    (h : start db req l = some (db', .ended (.accepted token session))) :
    isSuperadminSession session = true := by
  cases req with
  | require authToken =>
    simp only [start] at h
    split at h
    · cases h
    · exact checkRow_accepts (Prod.mk.inj (Option.some.inj h)).2
  | session raw =>
    simp only [start] at h
    split at h
    · cases h
    · exact checkRow_accepts (Prod.mk.inj (Option.some.inj h)).2
  | logout authToken bodyToken =>
    simp only [start] at h
    split at h <;> cases h
  | login userKey user =>
    simp only [start] at h
    split at h
    · split at h
      · obtain ⟨_, hnext⟩ := Prod.mk.inj (Option.some.inj h)
        split at hnext <;> cases hnext
      · cases h
    · cases h

/-- A request is accepted on a row of the super administrator, on an empty active row, or on an
active row that names its token. -/
theorem act_accepts {req : Request} {db db' : Db} {p : Phase} {token : String} {session : Json}
    (h : act db req l p = some (db', .ended (.accepted token session))) :
    isSuperadminSession session = true ∨
      (p = .checked token session ∧ l.ok = true ∧ sqlBlank (db.active (account session)) = true) ∨
      (p = .comparing token session ∧ trim (db.active (account session)) = token) := by
  cases p with
  | waiting => exact .inl (start_accepts h)
  | expired token' session' => exact absurd (Prod.mk.inj (Option.some.inj h)).2 (reject_ne _ _ _ _)
  | checked token' session' =>
    simp only [act] at h
    split at h
    · rename_i hsuccess
      rw [Bool.and_eq_true] at hsuccess
      cases h
      exact .inr (.inl ⟨rfl, hsuccess⟩)
    · cases h
  | comparing token' session' =>
    simp only [act] at h
    obtain ⟨_, hnext⟩ := Prod.mk.inj (Option.some.inj h)
    split at hnext
    · rename_i hsame
      cases hnext
      rw [Bool.and_eq_true, decide_eq_true_eq] at hsame
      exact .inr (.inr ⟨rfl, hsame.2⟩)
    · exact absurd hnext (notActive_ne _ _ _ _)
  | leaving token' session' =>
    obtain ⟨_, hnext⟩ := Prod.mk.inj (Option.some.inj h)
    split at hnext <;> cases hnext
  | replacing token' previous =>
    simp only [act] at h
    split at h
    · obtain ⟨_, hnext⟩ := Prod.mk.inj (Option.some.inj h)
      split at hnext <;> cases hnext
    · cases h
  | replaced token' previous =>
    simp only [act] at h
    split at h <;> cases h
  | marking token' previous session' =>
    simp only [act] at h
    split at h <;> cases h
  | _ => cases h

/-- Accepted, a session that is not the super administrator's is that of the account's last login,
once there has been one. -/
theorem accepted_latest (hinv : Inv reqs s) (hq : Quiet reqs s l) (h : Step reqs s l t)
    {token newer : String} {session : Json}
    (hacc : t.phase l.thread = .ended (.accepted token session))
    (hsuper : isSuperadminSession session = false)
    (hnewer : latest s.logins (account session) = some newer) : newer = token := by
  obtain ⟨db', p', hact, htakes, rfl⟩ := step_cases h
  simp only [Function.update_self] at hacc
  subst hacc
  rcases act_accepts hact with hyes | ⟨hp, hok, hblank⟩ | ⟨hp, hactive⟩
  · rw [hsuper] at hyes
    cases hyes
  · have hfree := htakes (by rw [hp]; rfl)
    rw [not_adopted hinv hq hp hfree hok] at hblank
    cases hblank
  · have hfit := hinv.fits l.thread
    rw [hp] at hfit
    rcases hinv.newest (account session) with hempty | hnone | ⟨hlatest, htoken⟩
    · rw [hempty] at hactive
      exact absurd hactive.symm hfit.2
    · rw [hnewer] at hnone
      cases hnone
    · rw [hnewer] at hlatest
      rw [Option.some.inj hlatest, ← htoken.1, hactive]

/-! ### The claim of the design -/

/-- A later login of account `u` has published its session: later than the login that drew the
token, or than the store in which the token already had a row. -/
def Replaced (db₀ : Db) (s : State) (u token : String) : Prop :=
  ∃ newer older, s.logins = newer ++ older ∧ (∃ token', (u, token') ∈ newer) ∧
    ((u, token) ∈ older ∨ Written (db₀.session token))

theorem Replaced.latest {u token : String} (hh : History db₀ s) (h : Replaced db₀ s u token) :
    ∃ newer, latest s.logins u = some newer ∧ newer ≠ token := by
  obtain ⟨young, old, hsplit, ⟨token', hin⟩, hold⟩ := h
  cases hfind : young.lookup u with
  | none =>
    have hne := List.lookup_eq_none_iff.mp hfind _ hin
    simp at hne
  | some newer =>
    have hmem : (u, newer) ∈ young := by
      obtain ⟨before, after, rfl, _⟩ := List.lookup_eq_some_iff.mp hfind
      simp
    refine ⟨newer, ?_, ?_⟩
    · rw [Session.latest, hsplit, List.lookup_append, hfind]
      rfl
    · rintro rfl
      rcases hold with hold | hwritten
      · have honce := hh.once
        rw [hsplit, List.map_append, List.nodup_append] at honce
        exact honce.2.2 newer (List.mem_map.mpr ⟨_, hmem, rfl⟩) newer
          (List.mem_map.mpr ⟨_, hold, rfl⟩) rfl
      · exact (hh.drawn (u, newer) (hsplit ▸ List.mem_append_left _ hmem)).2 hwritten

theorem requireSession_open {db : Db} {now : UInt64} {authToken : Option String} {session : Json}
    (h : requireSession db now authToken = some session)
    (hsuper : isSuperadminSession session = false) :
    ∃ token, authToken.map trim = some token ∧ IsOpen db (account session) token ∧
      (sqlBlank (db.active (account session)) = true ∨
        trim (db.active (account session)) = token) := by
  obtain ⟨token, hpresented, h⟩ := Option.bind_eq_some_iff.mp h
  obtain ⟨row, hrow, h⟩ := Option.bind_eq_some_iff.mp h
  have hdoc : db.session token = .doc row := by
    cases hs : db.session token with
    | doc v =>
      rw [hs] at hrow
      cases hrow
      rfl
    | _ => rw [hs] at hrow; cases hrow
  split at h
  · cases h
  · split at h
    · rename_i hyes
      cases h
      rw [hsuper] at hyes
      cases hyes
    · split at h
      · cases h
      · rename_i hreplaced
        split at h
        · rename_i hactive
          cases h
          have hopen : isReplaced session = false := by
            simp only [Bool.or_eq_true, not_or] at hreplaced
            exact Bool.eq_false_iff.mpr hreplaced.1
          refine ⟨token, (Option.filter_eq_some_iff.mp hpresented).1,
            ⟨presented hpresented, session, hdoc, rfl, hsuper, hopen⟩, ?_⟩
          simpa using hactive
        · cases h

/-! ### A request alone -/

section Alone
variable {i : Nat} {authToken : Option String} {token : String} {session : Json}

theorem step_of_act {db' : Db} {p' : Phase} (now : UInt64) (drawn : String)
    (htakes : (s.phase i).takesGuard (reqs i) = true → s.guard = none)
    (h : act s.db (reqs i) { thread := i, now := now, token := drawn } (s.phase i) =
      some (db', p')) :
    ∃ t, Step reqs s { thread := i, now := now, token := drawn } t ∧ t.db = db' ∧ t.phase i = p' ∧
      (p'.holds = false → s.guard = none → t.guard = none) := by
  have hguard : ((s.phase i).takesGuard (reqs i) && s.guard.isSome) = false := by
    cases ht : (s.phase i).takesGuard (reqs i) with
    | false => rfl
    | true => rw [htakes ht]; rfl
  refine ⟨_, by rw [Step, step, h, hguard]; rfl, rfl, Function.update_self .., ?_⟩
  intro hout hnone
  simp [hout, hnone]

theorem run_expiring (now : UInt64) (hreq : reqs i = .require authToken)
    (hp : s.phase i = .expiring token session) :
    ∃ ls t, Run (Step reqs) s ls t ∧ t.phase i = .ended .rejected := by
  obtain ⟨t, hst, _, ht, _⟩ := step_of_act now "" (by rw [hp]; simp [Phase.takesGuard])
    (by rw [hp]; rfl)
  obtain ⟨t', hst', _, ht', _⟩ := step_of_act now ""
    (by rw [ht]; simp [Phase.takesGuard]) (by rw [ht]; rfl)
  refine ⟨_, t', .cons hst (.single hst'), ?_⟩
  rw [ht', hreq]
  rfl

theorem run_checked (now : UInt64) (hreq : reqs i = .require authToken)
    (hp : s.phase i = .checked token session) (hfree : s.guard = none) :
    ∃ ls t, Run (Step reqs) s ls t ∧ t.phase i =
      if sqlBlank (s.db.active (account session)) ||
        decide (trim (s.db.active (account session)) = token)
      then .ended (.accepted token session) else .ended .rejected := by
  cases hblank : sqlBlank (s.db.active (account session)) with
  | true =>
    have hact : act s.db (reqs i) { thread := i, now := now } (s.phase i) =
        some (s.db.setActive (account session) token, .ended (.accepted token session)) := by
      simp [hp, act, hblank]
    obtain ⟨t, hst, _, ht, _⟩ := step_of_act now "" (fun _ => hfree) hact
    exact ⟨_, t, .single hst, ht⟩
  | false =>
    have hact : act s.db (reqs i) { thread := i, now := now } (s.phase i) =
        some (s.db, .comparing token session) := by
      simp [hp, act, hblank]
    obtain ⟨t, hst, hdb, ht, _⟩ := step_of_act now "" (fun _ => hfree) hact
    obtain ⟨t', hst', _, ht', _⟩ := step_of_act now ""
      (by rw [ht]; simp [Phase.takesGuard]) (by rw [ht]; rfl)
    refine ⟨_, t', .cons hst (.single hst'), ?_⟩
    rw [ht', hdb, hreq]
    rfl

/-- With the guard free, a request that runs without interruption, and all its calls served, is
answered as `requireSession` says. -/
theorem requireSession_run (now : UInt64) (hreq : reqs i = .require authToken)
    (hw : s.phase i = .waiting) (hfree : s.guard = none) :
    ∃ ls t answer, Run (Step reqs) s ls t ∧ t.phase i = .ended answer ∧
      requireSession s.db now authToken =
        (match answer with
        | .accepted _ session => some session
        | _ => none) := by
  have hfirst : ∀ {db' : Db} {p' : Phase},
      start s.db (.require authToken) { thread := i, now := now } = some (db', p') →
      ∃ t, Step reqs s { thread := i, now := now } t ∧ t.db = db' ∧ t.phase i = p' ∧
        (p'.holds = false → s.guard = none → t.guard = none) := by
    intro db' p' hs
    apply step_of_act now "" (fun _ => hfree)
    rw [hw, hreq]
    exact hs
  unfold requireSession
  cases hpres : (authToken.map trim).filter fun t => t ≠ "" with
  | none =>
    have hs : start s.db (.require authToken) { thread := i, now := now } =
        some (s.db, .ended .rejected) := by
      simp only [start, hpres]
    obtain ⟨t, hst, _, ht, _⟩ := hfirst hs
    exact ⟨_, t, _, .single hst, ht, rfl⟩
  | some token =>
    have hs : start s.db (.require authToken) { thread := i, now := now } =
        some (s.db, checkRow s.db (.require authToken) { thread := i, now := now } token) := by
      simp only [start, hpres]
    obtain ⟨t, hst, hdb, ht, hguard⟩ := hfirst hs
    rw [Option.bind_some]
    unfold checkRow at ht hguard
    simp only [if_true] at ht hguard
    cases hrow : (s.db.session token).doc? with
    | none =>
      rw [hrow] at ht
      exact ⟨_, t, _, .single hst, ht, rfl⟩
    | some session =>
      rw [hrow] at ht hguard
      simp only [Option.bind_some] at ht hguard ⊢
      cases hexp : sessionHasExpired session now with
      | true =>
        simp only [hexp, if_true] at ht ⊢
        obtain ⟨ls, t', hrun, ht'⟩ := run_expiring now hreq ht
        exact ⟨_, t', _, .cons hst hrun, ht', rfl⟩
      | false =>
        simp only [hexp, Bool.false_eq_true, if_false] at ht hguard ⊢
        cases hsuper : isSuperadminSession session with
        | true =>
          simp only [hsuper, if_true] at ht ⊢
          exact ⟨_, t, _, .single hst, ht, rfl⟩
        | false =>
          simp only [hsuper, Bool.false_eq_true, if_false] at ht hguard ⊢
          cases hout : isReplaced session || decide (account session = "") with
          | true =>
            simp only [hout, if_true] at ht ⊢
            exact ⟨_, t, _, .single hst, ht, rfl⟩
          | false =>
            simp only [hout, Bool.false_eq_true, if_false] at ht hguard ⊢
            obtain ⟨ls, t', hrun, ht'⟩ := run_checked now hreq ht (hguard rfl hfree)
            rw [hdb] at ht'
            split at ht'
            · rename_i hyes
              exact ⟨_, t', _, .cons hst hrun, ht', by rw [if_pos hyes]⟩
            · rename_i hno
              exact ⟨_, t', _, .cons hst hrun, ht', by rw [if_neg hno]⟩

end Alone

/-- Asked one after the other in one state of the store, two tokens of one account are one. -/
theorem sole (hinv : Inv reqs s) {now : UInt64} {token₁ token₂ : Option String} {v₁ v₂ : Json}
    (h₁ : requireSession s.db now token₁ = some v₁)
    (h₂ : requireSession s.db now token₂ = some v₂)
    (hs₁ : isSuperadminSession v₁ = false) (hs₂ : isSuperadminSession v₂ = false)
    (hacc : account v₁ = account v₂) : token₁.map trim = token₂.map trim := by
  obtain ⟨t₁, ht₁, ho₁, hact₁⟩ := requireSession_open h₁ hs₁
  obtain ⟨t₂, ht₂, ho₂, hact₂⟩ := requireSession_open h₂ hs₂
  rw [← hacc] at ho₂ hact₂
  rw [ht₁, ht₂]
  have hnamed : ∀ {t t'}, IsOpen s.db (account v₁) t → s.db.active (account v₁) = t →
      (sqlBlank (s.db.active (account v₁)) = true ∨ trim (s.db.active (account v₁)) = t') →
      t = t' := by
    intro t t' ho hact hor
    rw [hact] at hor
    rcases hor with hblank | htrim
    · exact absurd (eq_empty_of_sqlBlank ho.1.1 hblank) ho.1.2
    · rw [← htrim, ho.1.1]
  rcases hinv.named _ _ ho₁ with ha₁ | ⟨i, _, hi⟩
  · rw [hnamed ho₁ ha₁ hact₂]
  · rcases hinv.named _ _ ho₂ with ha₂ | ⟨j, _, hj⟩
    · rw [hnamed ho₂ ha₂ hact₁]
    · -- one login is at work, and has one session pending
      have hguard := hinv.holder i (Phase.holds_of_pending hi)
      rw [hinv.holder j (Phase.holds_of_pending hj)] at hguard
      obtain rfl := Option.some.inj hguard
      rw [hi] at hj
      exact hj

/-- At most one token of an account is accepted in the state, and the next step accepts none
that a later login has replaced; the super administrator's sessions do not count. -/
structure SingleSession (reqs : Nat → Request) (db₀ : Db) (s : State) : Prop where
  sole : ∀ now token₁ token₂ v₁ v₂, requireSession s.db now token₁ = some v₁ →
    requireSession s.db now token₂ = some v₂ → isSuperadminSession v₁ = false →
    isSuperadminSession v₂ = false → account v₁ = account v₂ →
    token₁.map trim = token₂.map trim
  never : ∀ l t token session, Quiet reqs s l → Step reqs s l t →
    t.phase l.thread = .ended (.accepted token session) → isSuperadminSession session = false →
    ¬ Replaced db₀ s (account session) token

theorem single_session {ls : List Label} (h : Enforced db₀)
    (run : Run (within (Quiet reqs) (Step reqs)) { db := db₀ } ls s) :
    SingleSession reqs db₀ s := by
  obtain ⟨hinv, hh⟩ := history_run h run
  constructor
  · intro now token₁ token₂ v₁ v₂ h₁ h₂ hs₁ hs₂ hacc
    exact Session.sole hinv h₁ h₂ hs₁ hs₂ hacc
  · intro l t token session hq hst hacc hsuper hrep
    obtain ⟨newer, hnewer, hne⟩ := hrep.latest hh
    exact hne (accepted_latest hinv hq hst hacc hsuper hnewer)

/-! ### A replaced token accepted -/

def emptyDb : Db := ⟨fun _ => .absent, fun _ => ""⟩

/-- Ann logs in, a request shows that token, Ann logs in again and logs out. -/
def clash : Nat → Request
  | 0 => .login "ann" (.obj [])
  | 1 => .require (some "t1")
  | 2 => .login "ann" (.obj [])
  | _ => .logout (some "t2") none

theorem enforced_emptyDb : Enforced emptyDb := by
  intro u token ho
  obtain ⟨_, session, hrow, _⟩ := ho
  cases hrow

theorem single_session_login :
    ∃ ls s, Run (Step clash) { db := emptyDb } ls s ∧ s.db.active "ann" = "t1" ∧
      SingleSession clash emptyDb s := by
  have hdraw : act emptyDb (clash 0) ⟨0, true, 0, "t1"⟩ .waiting =
      some (emptyDb.setSession "t1" (.doc (payload "ann" (.obj []) 0)), .issued "t1") := by
    have hfresh : Fresh emptyDb "t1" := by decide
    have hann : "ann" ≠ superId := by decide
    simp [act, start, clash, hfresh, hann]
  obtain ⟨s₁, h₁, hdb₁, hp₁, _⟩ := step_of_act (s := { db := emptyDb }) 0 "t1" (fun _ => rfl) hdraw
  have hread : act s₁.db (clash 0) ⟨0, true, 0, ""⟩ (s₁.phase 0) =
      some (s₁.db, .replacing "t1" "") := by
    rw [hp₁, hdb₁]
    rfl
  obtain ⟨s₂, h₂, hdb₂, hp₂, _⟩ := step_of_act 0 "" (by rw [hp₁]; simp [Phase.takesGuard]) hread
  have hset : act s₂.db (clash 0) ⟨0, true, 0, ""⟩ (s₂.phase 0) =
      some (s₂.db.setActive "ann" "t1", .ended (.issued "t1")) := by
    have hnone : trim "" = "" := by decide
    rw [hp₂]
    simp [act, clash, Request.userKey, hnone]
  obtain ⟨s₃, h₃, hdb₃, hp₃, _⟩ := step_of_act 0 "" (by rw [hp₂]; simp [Phase.takesGuard]) hset
  have hrun : Run (within (Quiet clash) (Step clash)) { db := emptyDb }
      [⟨0, true, 0, "t1"⟩, ⟨0, true, 0, ""⟩, ⟨0, true, 0, ""⟩] s₃ := by
    have hq₁ : trim "ann" = "ann" := by decide
    have hq₂ : Quiet clash s₁ ⟨0, true, 0, ""⟩ := by simp [Quiet, hp₁]
    have hq₃ : Quiet clash s₂ ⟨0, true, 0, ""⟩ := by simp [Quiet, hp₂]
    exact .cons ⟨hq₁, h₁⟩ (.cons ⟨hq₂, h₂⟩ (.single ⟨hq₃, h₃⟩))
  refine ⟨_, s₃, hrun.of_within, ?_, single_session enforced_emptyDb hrun⟩
  rw [hdb₃, Db.setActive_self]

/-- The request reads its row after the first login and looks at the active row at the end. -/
def clashLabels : List Label :=
  [⟨0, true, 0, "t1"⟩, ⟨0, true, 0, ""⟩, ⟨0, true, 0, ""⟩, ⟨1, true, 0, ""⟩,
    ⟨2, true, 0, "t2"⟩, ⟨2, true, 0, ""⟩, ⟨2, true, 0, ""⟩, ⟨2, true, 0, ""⟩, ⟨2, true, 0, ""⟩,
    ⟨3, true, 0, ""⟩, ⟨3, true, 0, ""⟩, ⟨3, true, 0, ""⟩]

def accepts (u token : String) : Phase → Bool
  | .ended (.accepted token' session) =>
    decide (token' = token) && decide (account session = u) && !isSuperadminSession session
  | _ => false

theorem accepts_ended {u token : String} {p : Phase} (h : accepts u token p = true) :
    ∃ session, p = .ended (.accepted token session) ∧ account session = u ∧
      isSuperadminSession session = false := by
  unfold accepts at h
  split at h
  · rename_i token' session
    simp only [Bool.and_eq_true, decide_eq_true_eq, Bool.not_eq_true'] at h
    obtain ⟨⟨rfl, hacc⟩, hsuper⟩ := h
    exact ⟨session, rfl, hacc, hsuper⟩
  · cases h

set_option maxRecDepth 8000 in
theorem replaced_accepted :
    ∃ s t session, Run (Step clash) { db := emptyDb } clashLabels s ∧
      Step clash s ⟨1, true, 0, ""⟩ t ∧ t.phase 1 = .ended (.accepted "t1" session) ∧
      isSuperadminSession session = false ∧ Replaced emptyDb s (account session) "t1" := by
  have hrun : (clashLabels.foldlM (step clash) { db := emptyDb }).any (fun s =>
      decide (s.logins = [("ann", "t2"), ("ann", "t1")]) &&
        (step clash s ⟨1, true, 0, ""⟩).any fun t => accepts "ann" "t1" (t.phase 1)) = true := by
    decide
  obtain ⟨s, hs, hcheck⟩ := (Option.any_eq_true _ _).mp hrun
  rw [Bool.and_eq_true, decide_eq_true_eq] at hcheck
  obtain ⟨hlogins, hlast⟩ := hcheck
  obtain ⟨t, ht, hacc⟩ := (Option.any_eq_true _ _).mp hlast
  obtain ⟨session, hend, hann, hsuper⟩ := accepts_ended hacc
  refine ⟨s, t, session, Run.of_foldlM hs, ht, hend, hsuper, ?_⟩
  rw [hann]
  exact ⟨[("ann", "t2")], [("ann", "t1")], hlogins, ⟨"t2", List.mem_singleton.mpr rfl⟩,
    .inl (List.mem_singleton.mpr rfl)⟩

end TkbCherry.Session
