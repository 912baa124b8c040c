import TkbCherry.Browser.ApplyPayload

/-!
# No lesson of a payload is lost

Every cell of the table that `applyPayload` builds is the cell of a fixed lesson, of a payload lesson
beyond the credits of the fixed ones, an OFF cell or empty. The number of lessons of a subject follows
by counting the cells.
-/

namespace TkbCherry.Browser

set_option autoImplicit false

open Placing

namespace Bridge
variable {env : Bridge} {locks : List FixedLock}

/-! ### The rebuilt cells -/

def entryOf (env : Bridge) (payload : Payload) (l : PayloadLesson) : Entry where
  classId := classIdForLesson payload l
  subject := env.resolveSubject (classIdForLesson payload l) l.subject
  slot := l.slot

/-- The tables after the lessons at fixed cells of their subjects. -/
def afterFixed (env : Bridge) (payload : Payload) (locks : List FixedLock) (es : List Entry) : Rebuild :=
  placeAll env locks (env.emptyTables payload locks)
    (es.filter fun e => env.atFixedCell locks e.classId e.subject e.slot)

/-- The lessons that are written beside the fixed ones. -/
def beside (env : Bridge) (payload : Payload) (locks : List FixedLock) (es : List Entry) : List Entry :=
  written env locks (afterFixed env payload locks es).remain
    (es.filter fun e => !env.atFixedCell locks e.classId e.subject e.slot)

theorem beside_sublist (env : Bridge) (payload : Payload) (locks : List FixedLock) (es : List Entry) :
    List.Sublist (beside env payload locks es) es :=
  ((beyond_sublist _).trans List.filter_sublist).trans List.filter_sublist

theorem free_of_beside {payload : Payload} {es : List Entry} {e : Entry}
    (h : e ∈ beside env payload locks es) : e.classId ≠ "" ∧ lockAt locks e.classId e.slot = none := by
  have hmem := (beyond_sublist _).subset h
  have hfree := (List.mem_filter.mp hmem).2
  simpa [Entry.free] using hfree

variable {data : Incumbent} {payload : Payload} {b : Rebuild}

/-- With the OFF locks of no teacher in the way every lesson enters the loop. -/
theorem entries_eq (hplaced : env.WellPlaced data payload) :
    env.entries payload = payload.lessons.map (env.entryOf payload) := by
  unfold entries
  congr 1
  apply List.filter_eq_self.mpr
  intro l hl
  simp [hplaced.teacherOff l hl]

theorem nodup_entries (hplaced : env.WellPlaced data payload) :
    ((env.entries payload).map Entry.pos).Nodup := by
  rw [entries_eq hplaced, List.map_map]
  exact hplaced.distinct

theorem nodup_beside (hplaced : env.WellPlaced data payload) (locks : List FixedLock) :
    ((beside env payload locks (env.entries payload)).map Entry.pos).Nodup :=
  (nodup_entries hplaced).sublist (List.Sublist.map Entry.pos (beside_sublist env payload locks _))

/-- No credit is kept for the empty subject. -/
theorem remainders_empty {c : String} (hc : splits c = true) :
    env.fixedSubjectRemainders locks (countKey c "") = 0 := by
  unfold fixedSubjectRemainders
  rw [List.length_eq_zero_iff, List.filter_eq_nil_iff]
  intro k _ hk
  simp only [Bool.and_eq_true, decide_eq_true_eq] at hk
  obtain ⟨⟨⟨hsplit, _⟩, hne⟩, hkey⟩ := hk
  exact hne ((countKey_inj hsplit hc).mp hkey).2

theorem remainders_eq (hclass : ∀ k ∈ locks, k.classId ≠ "" ∧ splits k.classId = true) {c key : String}
    (hc : splits c = true) (hkey : key ≠ "") :
    env.fixedSubjectRemainders locks (countKey c key) = env.fixedOf locks c key := by
  unfold fixedSubjectRemainders fixedOf
  congr 1
  apply List.filter_congr
  intro k hk
  obtain ⟨hid, hsplit⟩ := hclass k hk
  rw [Bool.eq_iff_iff]
  simp only [Bool.and_eq_true, decide_eq_true_eq, countKey_inj hsplit hc]
  constructor
  · intro h
    exact h.2
  · intro h
    exact ⟨⟨⟨hsplit, hid⟩, fun hempty => hkey (h.2.symm.trans hempty)⟩, h⟩

theorem mem_entries (hplaced : env.WellPlaced data payload) {e : Entry} (he : e ∈ env.entries payload) :
    ∃ l ∈ payload.lessons, env.entryOf payload l = e := by
  rw [entries_eq hplaced] at he
  exact List.mem_map.mp he

theorem range_of_entries (hplaced : env.WellPlaced data payload) {e : Entry}
    (he : e ∈ env.entries payload) : e.slot ∈ env.slots := by
  obtain ⟨l, hl, rfl⟩ := mem_entries hplaced he
  exact hplaced.range l hl

/-- Before the other lessons only cells of fixed lessons are written, and each lesson there has spent
one credit. -/
theorem afterFixed_eq (hplaced : env.WellPlaced data payload) (locks : List FixedLock) :
    (∀ p, (∀ k ∈ locks, (k.classId, k.slot) ≠ p) →
      (afterFixed env payload locks (env.entries payload)).cell p = .text "") ∧
    ∀ key, (afterFixed env payload locks (env.entries payload)).remain key =
      env.fixedSubjectRemainders locks key -
        (((env.entries payload).filter fun e =>
          env.atFixedCell locks e.classId e.subject e.slot).filter fun e =>
            decide (e.countKey env = key)).length := by
  obtain ⟨hcell, hremain⟩ := @place_atFixed env locks
    ((env.entries payload).filter fun e => env.atFixedCell locks e.classId e.subject e.slot)
    (fun e he => (List.mem_filter.mp he).2)
    (fun e he => range_of_entries hplaced (List.mem_filter.mp he).1) (env.emptyTables payload locks)
  constructor
  · intro p hp
    apply hcell p
    intro e he hpos
    have hfixed := (List.mem_filter.mp he).2
    unfold atFixedCell at hfixed
    cases hk : lockAt locks e.classId e.slot with
    | none => simp [hk] at hfixed
    | some k =>
      obtain ⟨hmem, hid, hslot⟩ := mem_of_lockAt hk
      exact hp k hmem ((Prod.ext hid hslot).trans hpos)
  · exact hremain

/-- The lessons are written on empty tables, the OFF locks over them, and the fixed lessons last. -/
theorem cell_applyPayload (h : env.applyPayload data payload = some b)
    (hplaced : env.WellPlaced data payload) (hreg : env.Regular data payload) :
    b.cell = Placing.place (fun k : FixedLock => (k.classId, k.slot)) (fun k => Cell.record k.subject true)
      (fun p => if p ∈ data.offLocks ∧ p.2 ∈ env.slots then .off
        else Placing.place Entry.pos (fun e => Cell.text e.subject)
          (afterFixed env payload data.fixedLessonLocks (env.entries payload)).cell
          (beside env payload data.fixedLessonLocks (env.entries payload)) p)
      data.fixedLessonLocks ∧
    ∀ k ∈ data.fixedLessonLocks, k.classId ∈ b.classes := by
  unfold applyPayload at h
  by_cases hrej : env.rejected data payload = true
  · rw [if_pos hrej] at h
    cases h
  · rw [if_neg hrej] at h
    cases h
    unfold nextTkb
    have hsubject : ∀ k ∈ data.fixedLessonLocks, k.subject ≠ "" :=
      fun k hk => (mem_fixedLessonLocks hk).1
    constructor
    · have hfold : (env.fixedFirst data.fixedLessonLocks (env.entries payload)).foldl
          (fun b e => env.placeLesson data.fixedLessonLocks b e.classId e.subject e.slot)
          (env.emptyTables payload data.fixedLessonLocks) =
          placeAll env data.fixedLessonLocks
            (afterFixed env payload data.fixedLessonLocks (env.entries payload))
            ((env.entries payload).filter fun e =>
              !env.atFixedCell data.fixedLessonLocks e.classId e.subject e.slot) := List.foldl_append
      have hothers := @place_others env data.fixedLessonLocks
        ((env.entries payload).filter fun e =>
          !env.atFixedCell data.fixedLessonLocks e.classId e.subject e.slot)
        (fun e he => by simpa using (List.mem_filter.mp he).2)
        (fun e he => range_of_entries hplaced (List.mem_filter.mp he).1)
        (afterFixed env payload data.fixedLessonLocks (env.entries payload))
      rw [applyFixedLocks_cell hreg.lockClass hsubject hreg.lockRange]
      congr 1
      funext p
      rw [applyOffLocks_cell, hfold, hothers]
      · rfl
      · intro e he hempty
        obtain ⟨l, hl, rfl⟩ := mem_entries hplaced (List.mem_filter.mp he).1
        have hnone := @remainders_empty env data.fixedLessonLocks _
          (hreg.lessonClass l hl)
        have hkey : (env.entryOf payload l).countKey env = countKey (classIdForLesson payload l) "" :=
          congrArg (countKey (classIdForLesson payload l)) hempty
        rw [(afterFixed_eq hplaced data.fixedLessonLocks).2, hkey, hnone]
        exact Nat.zero_sub _
    · exact (applyFixedLocks_classes hreg.lockClass hsubject _).2

/-- The cell of a fixed lesson. -/
theorem cell_of_lock (h : env.applyPayload data payload = some b) (hplaced : env.WellPlaced data payload)
    (hreg : env.Regular data payload) {k : FixedLock} (hk : k ∈ data.fixedLessonLocks) :
    b.cell (k.classId, k.slot) = .record k.subject true := by
  rw [(cell_applyPayload h hplaced hreg).1]
  exact Placing.place_of_mem data.nodup_fixedLessonLocks hk

theorem off_or_empty_of_unlocked (h : env.applyPayload data payload = some b)
    (hplaced : env.WellPlaced data payload) (hreg : env.Regular data payload) {p : String × SlotKey}
    (hp : ∀ k ∈ data.fixedLessonLocks, (k.classId, k.slot) ≠ p)
    (hout : ∀ e ∈ beside env payload data.fixedLessonLocks (env.entries payload), e.pos ≠ p) :
    b.cell p = if p ∈ data.offLocks ∧ p.2 ∈ env.slots then .off else .text "" := by
  rw [(cell_applyPayload h hplaced hreg).1, Placing.place_of_notMem hp]
  congr 1
  rw [Placing.place_of_notMem hout]
  exact (afterFixed_eq hplaced data.fixedLessonLocks).1 p hp

/-- The cell of a lesson beside the fixed ones. -/
theorem cell_of_beside (h : env.applyPayload data payload = some b)
    (hplaced : env.WellPlaced data payload) (hreg : env.Regular data payload) {e : Entry}
    (he : e ∈ beside env payload data.fixedLessonLocks (env.entries payload)) :
    b.cell e.pos = .text e.subject := by
  have hunlocked : ∀ k ∈ data.fixedLessonLocks, (k.classId, k.slot) ≠ e.pos := by
    intro k hk heq
    have hnone := lockAt_eq_none_iff.mp (free_of_beside he).2 k hk
    exact hnone ⟨congrArg Prod.fst heq, congrArg Prod.snd heq⟩
  have hnotOff : ¬ (e.pos ∈ data.offLocks ∧ e.pos.2 ∈ env.slots) := by
    obtain ⟨l, hl, rfl⟩ := mem_entries hplaced ((beside_sublist _ _ _ _).subset he)
    exact fun hoff => hplaced.classOff l hl hoff.1
  rw [(cell_applyPayload h hplaced hreg).1, Placing.place_of_notMem hunlocked, if_neg hnotOff]
  exact Placing.place_of_mem (nodup_beside hplaced _) he

/-- A cell outside the fixed ones has its own lesson or none. -/
theorem cell_own (h : env.applyPayload data payload = some b)
    (hplaced : env.WellPlaced data payload) (hreg : env.Regular data payload) {l : PayloadLesson}
    (hl : l ∈ payload.lessons) : b.cell (env.entryOf payload l).pos = .text "" ∨
      b.cell (env.entryOf payload l).pos = .text (env.entryOf payload l).subject ∨
      ∃ k ∈ data.fixedLessonLocks, k.classId = (env.entryOf payload l).classId ∧
        k.slot = (env.entryOf payload l).slot ∧
        b.cell (env.entryOf payload l).pos = .record k.subject true := by
  have hentry : env.entryOf payload l ∈ env.entries payload := by
    rw [entries_eq hplaced]
    exact List.mem_map_of_mem hl
  by_cases hlock : ∃ k ∈ data.fixedLessonLocks, (k.classId, k.slot) = (env.entryOf payload l).pos
  · -- the cell of a fixed lesson
    obtain ⟨k, hk, hpos⟩ := hlock
    refine Or.inr (Or.inr ⟨k, hk, congrArg Prod.fst hpos, congrArg Prod.snd hpos, ?_⟩)
    rw [← hpos]
    exact cell_of_lock h hplaced hreg hk
  · have hunlocked : ∀ k ∈ data.fixedLessonLocks, (k.classId, k.slot) ≠ (env.entryOf payload l).pos :=
      fun k hk heq => hlock ⟨k, hk, heq⟩
    by_cases hwritten : ∃ e ∈ beside env payload data.fixedLessonLocks (env.entries payload),
        e.pos = (env.entryOf payload l).pos
    · -- the positions of the lessons are distinct
      obtain ⟨e, he, hpos⟩ := hwritten
      have heq := List.inj_on_of_nodup_map (nodup_entries hplaced) ((beside_sublist _ _ _ _).subset he)
        hentry hpos
      refine Or.inr (Or.inl ?_)
      rw [← heq]
      exact cell_of_beside h hplaced hreg he
    · left
      have hcell := off_or_empty_of_unlocked h hplaced hreg hunlocked
        fun e he heq => hwritten ⟨e, he, heq⟩
      rwa [if_neg fun hoff => hplaced.classOff l hl hoff.1] at hcell

/-! ### The numbers of lessons -/

theorem nodup_slots (env : Bridge) : env.slots.Nodup := by
  have hdays : (env.days.map id).Nodup := by
    rw [List.map_id]
    exact env.nodup
  have hslots := nodup_flatMap_of_tag (f := fun thu =>
    (List.range env.sang).map (fun i : Nat => ((thu, "sang", (i : Int)) : SlotKey)) ++
      (List.range env.chieu).map fun i : Nat => ((thu, "chieu", (i : Int)) : SlotKey))
    id id Prod.fst hdays ?_ ?_
  · rwa [List.map_id] at hslots
  · intro thu _
    rw [List.map_id]
    apply List.Nodup.append
    · apply List.nodup_range.map
      intro i j h
      exact Int.ofNat.inj (congrArg (fun p : SlotKey => p.2.2) h)
    · apply List.nodup_range.map
      intro i j h
      exact Int.ofNat.inj (congrArg (fun p : SlotKey => p.2.2) h)
    · intro p hp hp'
      obtain ⟨i, _, rfl⟩ := List.mem_map.mp hp
      obtain ⟨j, _, heq⟩ := List.mem_map.mp hp'
      have hsession : "chieu" = "sang" := congrArg (fun p : SlotKey => p.2.1) heq
      revert hsession
      decide
  · intro thu _ p hp
    rcases List.mem_append.mp hp with hm | hm
    · obtain ⟨i, _, rfl⟩ := List.mem_map.mp hm
      rfl
    · obtain ⟨i, _, rfl⟩ := List.mem_map.mp hm
      rfl

theorem jsTrim_resolveSubject (env : Bridge) (classId raw : String) :
    jsTrim (env.resolveSubject classId raw) = env.resolveSubject classId raw := by
  unfold resolveSubject
  dsimp only
  split
  · decide
  · generalize hfind : ((((env.uiSubjects classId).map jsTrim).filter fun item =>
      decide (item ≠ "")).find? fun item =>
        (env.aliases (jsTrim raw)).any fun key => (env.aliases item).contains key) = found
    cases found with
    | none => exact jsTrim_jsTrim raw
    | some item =>
      have hmem := (List.mem_filter.mp (List.mem_of_find?_eq_some hfind)).1
      obtain ⟨x, _, rfl⟩ := List.mem_map.mp hmem
      exact jsTrim_jsTrim x

/-- The subject of a cell with a trimmed text. -/
theorem keyOf_text {s key : String} (htrim : jsTrim s = s) (hoff : s ≠ "OFF") (hkey : key ≠ "") :
    env.keyOf (.text s) = some key ↔ env.canonicalKey s = key := by
  have htext : cellSubjectText (.text s) = s := htrim
  rw [keyOf, isScheduledCell, htext]
  by_cases hs : s = ""
  · subst hs
    simp [env.canonicalKey_empty, hkey.symm]
  · simp [hs, hoff]

theorem keyOf_record {k : FixedLock} (hk : k ∈ data.fixedLessonLocks) {key : String} :
    env.keyOf (.record k.subject true) = some key ↔ env.canonicalKey k.subject = key := by
  obtain ⟨hne, hoff, htrim⟩ := mem_fixedLessonLocks hk
  have htext : cellSubjectText (.record k.subject true) = k.subject := htrim
  rw [keyOf, isScheduledCell, htext]
  simp [hne, hoff]

/-- A cell has a lesson of the subject exactly when a fixed lesson of it or one written beside stands
there. -/
theorem mem_lessons_iff (h : env.applyPayload data payload = some b)
    (hplaced : env.WellPlaced data payload) (hreg : env.Regular data payload) (c : String) {key : String}
    (hkey : key ≠ "") (slot : SlotKey) :
    (slot ∈ env.slots ∧ env.keyOf (b.cell (c, slot)) = some key) ↔
      slot ∈ (data.fixedLessonLocks.filter fun k =>
        decide (k.classId = c ∧ env.canonicalKey k.subject = key)).map FixedLock.slot ∨
      slot ∈ ((beside env payload data.fixedLessonLocks (env.entries payload)).filter fun e =>
        decide (e.classId = c ∧ env.canonicalKey e.subject = key)).map Entry.slot := by
  have htext : ∀ e ∈ beside env payload data.fixedLessonLocks (env.entries payload),
      jsTrim e.subject = e.subject ∧ e.subject ≠ "OFF" ∧ e.slot ∈ env.slots := by
    intro e he
    have hentry := (beside_sublist _ _ _ _).subset he
    obtain ⟨l, hl, rfl⟩ := mem_entries hplaced hentry
    exact ⟨jsTrim_resolveSubject env _ _, hreg.subject l hl, hplaced.range l hl⟩
  simp only [List.mem_map, List.mem_filter, decide_eq_true_eq]
  constructor
  · intro hcell
    obtain ⟨_, hcell⟩ := hcell
    by_cases hlock : ∃ k ∈ data.fixedLessonLocks, (k.classId, k.slot) = (c, slot)
    · obtain ⟨k, hk, hpos⟩ := hlock
      have hstands := cell_of_lock h hplaced hreg hk
      rw [hpos] at hstands
      rw [hstands, keyOf_record hk] at hcell
      cases hpos
      exact Or.inl ⟨k, ⟨hk, rfl, hcell⟩, rfl⟩
    · by_cases hwritten : ∃ e ∈ beside env payload data.fixedLessonLocks (env.entries payload),
          e.pos = (c, slot)
      · obtain ⟨e, he, hpos⟩ := hwritten
        have hstands := cell_of_beside h hplaced hreg he
        obtain ⟨htrim, hoff, _⟩ := htext e he
        rw [hpos] at hstands
        rw [hstands, keyOf_text htrim hoff hkey] at hcell
        exact Or.inr ⟨e, ⟨he, congrArg Prod.fst hpos, hcell⟩, congrArg Prod.snd hpos⟩
      · -- neither a fixed lesson nor a written one
        exfalso
        have hempty := off_or_empty_of_unlocked h hplaced hreg (p := (c, slot))
          (fun k hk heq => hlock ⟨k, hk, heq⟩) fun e he heq => hwritten ⟨e, he, heq⟩
        rw [hempty] at hcell
        split at hcell
        · have hnone : env.keyOf .off = none := by
            unfold keyOf
            rw [if_neg (by decide)]
          rw [hnone] at hcell
          cases hcell
        · have hnone : env.keyOf (.text "") = none := by
            unfold keyOf
            rw [if_neg (by decide)]
          rw [hnone] at hcell
          cases hcell
  · intro hcase
    cases hcase with
    | inl hlock =>
      obtain ⟨k, ⟨hk, rfl, hcanon⟩, rfl⟩ := hlock
      refine ⟨hreg.lockRange k hk, ?_⟩
      rw [cell_of_lock h hplaced hreg hk]
      exact (keyOf_record hk).mpr hcanon
    | inr hwritten =>
      obtain ⟨e, ⟨he, rfl, hcanon⟩, rfl⟩ := hwritten
      obtain ⟨htrim, hoff, hrange⟩ := htext e he
      refine ⟨hrange, ?_⟩
      have hstands := cell_of_beside h hplaced hreg he
      rw [Entry.pos] at hstands
      rw [hstands]
      exact (keyOf_text htrim hoff hkey).mpr hcanon

/-- The lessons of a subject are the fixed ones and those written beside them. -/
theorem lessonsIn_eq (h : env.applyPayload data payload = some b)
    (hplaced : env.WellPlaced data payload) (hreg : env.Regular data payload) (c : String) {key : String}
    (hkey : key ≠ "") : env.lessonsIn b c key = env.fixedOf data.fixedLessonLocks c key +
      ((beside env payload data.fixedLessonLocks (env.entries payload)).filter fun e =>
        decide (e.classId = c ∧ env.canonicalKey e.subject = key)).length := by
  have hfixedPos := data.nodup_fixedLessonLocks
  have hwrittenPos := nodup_beside hplaced data.fixedLessonLocks
  have hlocked : (((data.fixedLessonLocks.filter fun k =>
      decide (k.classId = c ∧ env.canonicalKey k.subject = key)).map FixedLock.slot)).Nodup := by
    apply Placing.nodup_map_of_filter hfixedPos
    intro k hk
    exact congrArg (fun id => (id, k.slot)) (of_decide_eq_true hk).1
  have hwritten : (((beside env payload data.fixedLessonLocks (env.entries payload)).filter fun e =>
      decide (e.classId = c ∧ env.canonicalKey e.subject = key)).map Entry.slot).Nodup := by
    apply Placing.nodup_map_of_filter hwrittenPos
    intro e he
    exact congrArg (fun id => (id, e.slot)) (of_decide_eq_true he).1
  have hapart : ∀ slot ∈ (data.fixedLessonLocks.filter fun k =>
      decide (k.classId = c ∧ env.canonicalKey k.subject = key)).map FixedLock.slot,
      slot ∉ ((beside env payload data.fixedLessonLocks (env.entries payload)).filter fun e =>
        decide (e.classId = c ∧ env.canonicalKey e.subject = key)).map Entry.slot := by
    intro slot hl hw
    obtain ⟨k, hk, rfl⟩ := List.mem_map.mp hl
    obtain ⟨e, he, hslot⟩ := List.mem_map.mp hw
    obtain ⟨hk, hkc⟩ := List.mem_filter.mp hk
    obtain ⟨he, hec⟩ := List.mem_filter.mp he
    have hclass := (of_decide_eq_true hkc).1.trans (of_decide_eq_true hec).1.symm
    exact lockAt_eq_none_iff.mp (free_of_beside he).2 k hk ⟨hclass, hslot.symm⟩
  have hperm : List.Perm
      (env.slots.filter fun slot => decide (env.keyOf (b.cell (c, slot)) = some key))
      ((data.fixedLessonLocks.filter fun k =>
        decide (k.classId = c ∧ env.canonicalKey k.subject = key)).map FixedLock.slot ++
      ((beside env payload data.fixedLessonLocks (env.entries payload)).filter fun e =>
        decide (e.classId = c ∧ env.canonicalKey e.subject = key)).map Entry.slot) := by
    apply (List.perm_ext_iff_of_nodup (env.nodup_slots.filter _)
      (hlocked.append hwritten fun slot hl hw => hapart slot hl hw)).mpr
    intro slot
    rw [List.mem_filter, List.mem_append, decide_eq_true_eq]
    exact mem_lessons_iff h hplaced hreg c hkey slot
  have hlength := hperm.length_eq
  rw [List.length_append, List.length_map, List.length_map] at hlength
  exact hlength

theorem lessonsOf_eq (hplaced : env.WellPlaced data payload) (c key : String) :
    env.lessonsOf payload c key = ((env.entries payload).filter fun e =>
      decide (e.classId = c ∧ env.canonicalKey e.subject = key)).length := by
  rw [entries_eq hplaced, List.filter_map, List.length_map]
  rfl

/-- Without a separator in the class ids a lesson counts for its class and its subject. -/
theorem countKey_iff (hplaced : env.WellPlaced data payload) (hreg : env.Regular data payload)
    {c : String} (hc : splits c = true) (key : String) {e : Entry} (he : e ∈ env.entries payload) :
    e.countKey env = countKey c key ↔ e.classId = c ∧ env.canonicalKey e.subject = key := by
  obtain ⟨l, hl, rfl⟩ := mem_entries hplaced he
  exact countKey_inj (hreg.lessonClass l hl) hc

/-- A cell of the table holds one fixed lesson, so the lessons at fixed cells of their subject are no
more than those. -/
theorem atFixed_le (hplaced : env.WellPlaced data payload) (locks : List FixedLock) (c key : String) :
    ((env.entries payload).filter fun e =>
      decide (e.classId = c ∧ env.canonicalKey e.subject = key) &&
        env.atFixedCell locks e.classId e.subject e.slot).length ≤ env.fixedOf locks c key := by
  have hnodup := @Placing.nodup_map_of_filter Entry String SlotKey (env.entries payload) Entry.pos Entry.slot
    (fun e : Entry => decide (e.classId = c ∧ env.canonicalKey e.subject = key) &&
      env.atFixedCell locks e.classId e.subject e.slot) c (nodup_entries hplaced) (by
    intro e he
    exact congrArg (fun id => (id, e.slot))
      (of_decide_eq_true (Bool.and_eq_true_iff.mp he).1).1)
  have hsubset : ((env.entries payload).filter fun e =>
      decide (e.classId = c ∧ env.canonicalKey e.subject = key) &&
        env.atFixedCell locks e.classId e.subject e.slot).map Entry.slot ⊆
      (locks.filter fun k => decide (k.classId = c ∧ env.canonicalKey k.subject = key)).map
        FixedLock.slot := by
    intro slot hslot
    obtain ⟨e, he, rfl⟩ := List.mem_map.mp hslot
    obtain ⟨hkey, hfixed⟩ := Bool.and_eq_true_iff.mp (List.mem_filter.mp he).2
    obtain ⟨hid, hcanon⟩ := of_decide_eq_true hkey
    cases hk : lockAt locks e.classId e.slot with
    | none => simp [atFixedCell, hk] at hfixed
    | some k =>
      obtain ⟨hmem, hkid, hkslot⟩ := mem_of_lockAt hk
      have hmatch : env.lockMatches k e.subject = true := by
        simpa [atFixedCell, hk] using (Bool.and_eq_true_iff.mp hfixed).2
      refine List.mem_map.mpr ⟨k, List.mem_filter.mpr ⟨hmem, ?_⟩, hkslot⟩
      exact decide_eq_true ⟨hkid.trans hid, (lockMatches_iff.mp hmatch).2.2.trans hcanon⟩
  have hle := (hnodup.subperm hsubset).length_le
  rw [List.length_map, List.length_map] at hle
  exact hle

/-- Beside the fixed lessons stand those of the payload that exceed the credits. -/
theorem count_beside (hplaced : env.WellPlaced data payload) (hreg : env.Regular data payload)
    (hagree : ∀ l ∈ payload.lessons, ∀ k ∈ data.fixedLessonLocks,
      k.classId = classIdForLesson payload l → k.slot = l.slot →
        env.lockMatches k (env.resolveSubject (classIdForLesson payload l) l.subject) = true)
    {c key : String} (hid : c ≠ "") (hc : splits c = true) (hkey : key ≠ "") :
    ((beside env payload data.fixedLessonLocks (env.entries payload)).filter fun e =>
        decide (e.classId = c ∧ env.canonicalKey e.subject = key)).length =
      env.lessonsOf payload c key - env.fixedOf data.fixedLessonLocks c key := by
  have hle := atFixed_le hplaced data.fixedLessonLocks c key
  have hcongr : ∀ {es : List Entry}, (∀ e ∈ es, e ∈ env.entries payload) →
      (es.filter fun e => decide (e.countKey env = countKey c key)) =
        es.filter fun e => decide (e.classId = c ∧ env.canonicalKey e.subject = key) := by
    intro es hes
    apply List.filter_congr
    intro e he
    exact decide_eq_decide.mpr (countKey_iff hplaced hreg hc key (hes e he))
  -- the lessons of the subject split into those at fixed cells and the others
  have hsplit := List.countP_eq_countP_filter_add (env.entries payload)
    (fun e => decide (e.classId = c ∧ env.canonicalKey e.subject = key))
    (fun e => env.atFixedCell data.fixedLessonLocks e.classId e.subject e.slot)
  simp only [List.countP_eq_length_filter] at hsplit
  rw [List.filter_filter] at hsplit
  have hbeside := @count_beyond Entry String _ (Entry.countKey env)
    (afterFixed env payload data.fixedLessonLocks (env.entries payload)).remain
    (((env.entries payload).filter fun e =>
      !env.atFixedCell data.fixedLessonLocks e.classId e.subject e.slot).filter
        (Entry.free data.fixedLessonLocks)) (countKey c key)
  have hremain := (afterFixed_eq hplaced data.fixedLessonLocks).2 (countKey c key)
  rw [remainders_eq hreg.lockClass hc hkey, hcongr fun e he => (List.mem_filter.mp he).1,
    List.filter_filter] at hremain
  have hfree : (((env.entries payload).filter fun e =>
      !env.atFixedCell data.fixedLessonLocks e.classId e.subject e.slot).filter
        (Entry.free data.fixedLessonLocks)).filter
          (fun e => decide (e.countKey env = countKey c key)) =
      ((env.entries payload).filter fun e =>
        !env.atFixedCell data.fixedLessonLocks e.classId e.subject e.slot).filter fun e =>
          decide (e.classId = c ∧ env.canonicalKey e.subject = key) := by
    rw [List.filter_filter, ← hcongr fun e he => (List.mem_filter.mp he).1]
    apply List.filter_congr
    intro e he
    obtain ⟨hentry, hother⟩ := List.mem_filter.mp he
    by_cases hmine : e.countKey env = countKey c key
    · -- a lesson on a fixed cell is one of its subject
      have hclass := ((countKey_iff hplaced hreg hc key hentry).mp hmine).1
      have hnone : lockAt data.fixedLessonLocks e.classId e.slot = none := by
        apply lockAt_eq_none_iff.mpr
        intro k hk hpos
        obtain ⟨l, hl, rfl⟩ := mem_entries hplaced hentry
        have hsome := (lockAt_eq_some_iff data.nodup_fixedLessonLocks).mpr ⟨hk, hpos⟩
        have hmatch := hagree l hl k hk hpos.1 hpos.2
        have hne : (env.entryOf payload l).classId ≠ "" := fun hempty => hid (hclass ▸ hempty)
        have hat : env.atFixedCell data.fixedLessonLocks (env.entryOf payload l).classId
            (env.entryOf payload l).subject (env.entryOf payload l).slot = true := by
          rw [atFixedCell, hsome, Option.any_some]
          exact Bool.and_eq_true_iff.mpr ⟨decide_eq_true hne, hmatch⟩
        rw [hat] at hother
        cases hother
      have hne : e.classId ≠ "" := fun hempty => hid (hclass ▸ hempty)
      simp [Entry.free, hne, hnone]
    · simp [hmine]
  rw [hfree] at hbeside
  rw [← hcongr fun e he => (beside_sublist _ _ _ _).subset he, beside, written, hbeside, hremain,
    lessonsOf_eq hplaced, hsplit]
  omega

/-- A payload with distinct cells loses no lesson. -/
theorem applyPayload_lossless (env : Bridge) (data : Incumbent) (payload : Payload) (b : Rebuild)
    (h : env.applyPayload data payload = some b) (hplaced : env.WellPlaced data payload)
    (hreg : env.Regular data payload) : env.Lossless data payload b where
  fixed := by
    intro k hk
    exact ⟨(cell_applyPayload h hplaced hreg).2 k hk, cell_of_lock h hplaced hreg hk⟩
  own := fun l hl => cell_own h hplaced hreg hl
  counts := by
    intro hagree c subject hid hsubject
    have hkey := env.canonicalKey_ne subject hsubject
    generalize env.canonicalKey subject = key at hkey ⊢
    rw [lessonsIn_eq h hplaced hreg c hkey]
    by_cases hc : splits c = true
    · rw [count_beside hplaced hreg hagree hid hc hkey]
      omega
    · -- no lesson and no lock has such a class
      have hlocks : env.fixedOf data.fixedLessonLocks c key = 0 := by
        unfold fixedOf
        rw [List.length_eq_zero_iff, List.filter_eq_nil_iff]
        intro k hk hmine
        exact hc ((of_decide_eq_true hmine).1 ▸ (hreg.lockClass k hk).2)
      have hlessons : (env.entries payload).filter (fun e =>
          decide (e.classId = c ∧ env.canonicalKey e.subject = key)) = [] := by
        rw [List.filter_eq_nil_iff]
        intro e he hmine
        obtain ⟨l, hl, rfl⟩ := mem_entries hplaced he
        exact hc ((of_decide_eq_true hmine).1 ▸ hreg.lessonClass l hl)
      have hbeside := ((beside_sublist env payload data.fixedLessonLocks (env.entries payload)).filter
        fun e => decide (e.classId = c ∧ env.canonicalKey e.subject = key)).length_le
      rw [hlessons, List.length_nil] at hbeside
      rw [lessonsOf_eq hplaced, hlessons, hlocks, List.length_nil]
      omega

/-! ### Lessons that are lost -/

/-- Six days of five and five periods, and subjects in small letters without aliases. -/
def plainBridge : Bridge where
  days := ["thu2", "thu3", "thu4", "thu5", "thu6", "thu7"]
  nodup := by decide
  sang := 5
  chieu := 5
  uiSubjects := fun _ => []
  aliases := fun s => [jsTrim s]
  canonicalKey := jsTrim
  canonicalKey_empty := by decide
  canonicalKey_ne := fun _ h => h
  teacherFixedOff := fun _ _ _ => false

/-- One class with its Monday morning. -/
def mondayOf (classId : String) (morning : List Cell) : Incumbent where
  tkb := [(classId, fun session => if session = ("thu2", "sang") then morning else [])]
  nodup := List.nodup_singleton _
  offLocks := []

/-- At most one lesson, in the second period of Monday morning. -/
def payloadOf (lesson : Option (String × String)) : Payload where
  classes := []
  lessons := lesson.toList.map fun l => ⟨l.1, l.1, ("thu2", "sang", 1), l.2, ""⟩
  allowShrink := false

/-- The payload keeps its promise, the fixed lessons lie outside the OFF cells, and a lesson is lost. -/
def Loses (env : Bridge) (data : Incumbent) (payload : Payload) : Prop :=
  env.WellPlaced data payload ∧ (∀ k ∈ data.fixedLessonLocks, (k.classId, k.slot) ∉ data.offLocks) ∧
    ∃ b, env.applyPayload data payload = some b ∧ ¬ env.Lossless data payload b

theorem wellPlaced_payloadOf (classId : String) (morning : List Cell)
    (lesson : Option (String × String)) :
    plainBridge.WellPlaced (mondayOf classId morning) (payloadOf lesson) where
  range := by
    intro l hl
    obtain ⟨p, _, rfl⟩ := List.mem_map.mp hl
    have hslot : (("thu2", "sang", 1) : SlotKey) ∈ plainBridge.slots := by decide
    exact hslot
  distinct := by
    cases lesson with
    | none => exact List.nodup_nil
    | some p => exact List.nodup_singleton _
  classOff := fun _ _ h => nomatch h
  teacherOff := fun _ _ => rfl

/-- Of a class with the separator in its id, of a class without id and beyond the periods of the table
a fixed lesson is dropped; a lesson is taken for the fixed one of another class with the same key, and
a subject named like the OFF mark is none. -/
theorem lessons_lost :
    Loses plainBridge (mondayOf "6|a" [.record "toan" true]) (payloadOf none) ∧
    Loses plainBridge (mondayOf "" [.record "toan" true]) (payloadOf none) ∧
    Loses plainBridge (mondayOf "6a" (List.replicate 5 (.text "") ++ [.record "toan" true]))
      (payloadOf none) ∧
    Loses plainBridge (mondayOf "6" [.record "a|toan" true]) (payloadOf (some ("6|a", "toan"))) ∧
    Loses plainBridge (mondayOf "6a" []) (payloadOf (some ("6a", "OFF"))) := by
  have hdropped : ∀ (classId : String) (morning : List Cell) (slot : SlotKey),
      plainBridge.rejected (mondayOf classId morning) (payloadOf none) = false →
      (⟨classId, slot, "toan"⟩ : FixedLock) ∈ (mondayOf classId morning).fixedLessonLocks →
      (plainBridge.nextTkb (mondayOf classId morning) (payloadOf none)).cell (classId, slot) = .text "" →
      Loses plainBridge (mondayOf classId morning) (payloadOf none) := by
    intro classId morning slot hrej hlock hcell
    refine ⟨wellPlaced_payloadOf classId morning none, fun _ _ => List.not_mem_nil, _,
      applyPayload_eq_some hrej, ?_⟩
    · intro h
      have hkept := (h.fixed _ hlock).2
      rw [hcell] at hkept
      cases hkept
  have hmiscounted : ∀ (classId : String) (morning : List Cell) (lesson : String × String),
      plainBridge.rejected (mondayOf classId morning) (payloadOf (some lesson)) = false →
      lesson.1 ≠ "" → jsTrim lesson.2 ≠ "" →
      (∀ k ∈ (mondayOf classId morning).fixedLessonLocks, k.slot ≠ ("thu2", "sang", 1)) →
      plainBridge.lessonsIn (plainBridge.nextTkb (mondayOf classId morning) (payloadOf (some lesson)))
        lesson.1 (jsTrim lesson.2) = 0 →
      plainBridge.lessonsOf (payloadOf (some lesson)) lesson.1 (jsTrim lesson.2) = 1 →
      Loses plainBridge (mondayOf classId morning) (payloadOf (some lesson)) := by
    intro classId morning lesson hrej hid hsubject hlocks hin hof
    refine ⟨wellPlaced_payloadOf classId morning (some lesson), fun _ _ => List.not_mem_nil, _,
      applyPayload_eq_some hrej, ?_⟩
    · intro h
      have hcount := h.counts (by
        intro l hl k hk _ hslot
        cases List.mem_singleton.mp hl
        exact absurd hslot (hlocks k hk)) lesson.1 lesson.2 hid hsubject
      have hkey : plainBridge.canonicalKey lesson.2 = jsTrim lesson.2 := rfl
      rw [hkey, hin, hof] at hcount
      omega
  refine ⟨?_, ?_, ?_, ?_, ?_⟩
  · exact hdropped "6|a" _ ("thu2", "sang", 0) (by decide +kernel) (by decide +kernel)
      (by decide +kernel)
  · exact hdropped "" _ ("thu2", "sang", 0) (by decide +kernel) (by decide +kernel)
      (by decide +kernel)
  · exact hdropped "6a" _ ("thu2", "sang", 5) (by decide +kernel) (by decide +kernel)
      (by decide +kernel)
  · exact hmiscounted "6" _ ("6|a", "toan") (by decide +kernel) (by decide) (by decide)
      (by decide +kernel) (by decide +kernel) (by decide +kernel)
  · exact hmiscounted "6a" _ ("6a", "OFF") (by decide +kernel) (by decide) (by decide)
      (by decide +kernel) (by decide +kernel) (by decide +kernel)

/-- A lesson after a fixed one. -/
theorem monday_lossless : plainBridge.Lossless (mondayOf "6a" [.record "toan" true])
    (payloadOf (some ("6a", "van")))
    (plainBridge.nextTkb (mondayOf "6a" [.record "toan" true]) (payloadOf (some ("6a", "van")))) :=
  applyPayload_lossless plainBridge _ _ _
    (applyPayload_eq_some (by decide +kernel))
    (wellPlaced_payloadOf "6a" _ _)
    ⟨by decide +kernel, by decide +kernel, by decide +kernel, by decide +kernel⟩

end Bridge

end TkbCherry.Browser
