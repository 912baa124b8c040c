import TkbCherry.Registry.RegistryFrame
import TkbCherry.Registry.MergeSections
import TkbCherry.Registry.Accounts

/-!
# Logins of other schools

A login name stands for a key in lower case, a key as typed, or the first account with that `id`.
A post of a school administrator edits and deletes accounts of its own school, which cannot turn
a login of another school; only a new account, whose key is in lower case, can come before one.
-/

namespace TkbCherry.Registry

set_option autoImplicit false

open Text AssocList

/-! ### The first match -/

section Find
variable {q : String × Json → Bool} {e : String × Json} {entries : Fields}

theorem find?_unset {key : String} (hne : e.1 ≠ key) (h : entries.find? q = some e) :
    (AssocList.unset key entries).find? q = some e := by
  induction entries with
  | nil => exact h
  | cons x rest ih =>
    unfold AssocList.unset at ih ⊢
    rw [List.find?_cons] at h
    cases hq : q x with
    | true =>
      rw [hq] at h
      obtain rfl := Option.some.inj h
      rw [List.filter_cons_of_pos (by simpa using hne), List.find?_cons, hq]
    | false =>
      rw [hq] at h
      by_cases hx : x.1 = key
      · rw [List.filter_cons_of_neg (by simpa using hx)]
        exact ih h
      · rw [List.filter_cons_of_pos (by simpa using hx), List.find?_cons, hq]
        exact ih h

theorem find?_modify {key : String} {f : Json → Json} (hf : ∀ v, q (key, f v) = q (key, v))
    (hne : e.1 ≠ key) (h : entries.find? q = some e) :
    (AssocList.modify key f entries).find? q = some e := by
  induction entries with
  | nil => exact h
  | cons x rest ih =>
    obtain ⟨k, v⟩ := x
    unfold AssocList.modify at ih ⊢
    rw [List.find?_cons] at h
    rw [List.map_cons]
    have hsame : q (if k = key then (k, f v) else (k, v)) = q (k, v) := by
      split
      · rename_i hk
        subst hk
        exact hf v
      · rfl
    rw [List.find?_cons, hsame]
    cases hq : q (k, v) with
    | true =>
      rw [hq] at h
      obtain rfl := Option.some.inj h
      exact congrArg some (if_neg hne)
    | false =>
      rw [hq] at h
      exact ih h

theorem find?_assign {key : String} {v : Json} (hfresh : entries.lookup key = none)
    (hq : q (key, v) = false) : (AssocList.assign key v entries).find? q = entries.find? q := by
  induction entries with
  | nil =>
    unfold AssocList.assign
    rw [List.find?_cons, hq]
  | cons x rest ih =>
    obtain ⟨k, w⟩ := x
    rw [lookup_cons_eq] at hfresh
    split at hfresh
    · exact absurd hfresh (by simp)
    · rename_i hk
      unfold AssocList.assign
      rw [if_neg hk]
      split
      · rw [List.find?_cons, hq]
      · rw [List.find?_cons, List.find?_cons, ih hfresh]

end Find

/-! ### Edits keep the identifier -/

/-- The predicate of the last lookup. -/
def hasId (raw : String) (e : String × Json) : Bool :=
  eqIgnoreAsciiCase ((strAt e.2 "id").getD "") raw

theorem updateSchoolUserRecord_id (incoming user : Json) (allowActive allowVerified : Bool) :
    strAt (updateSchoolUserRecord incoming allowActive allowVerified user) "id" =
      strAt user "id" := by
  have houtside : Json.SameOutside
      ("passwordHash" :: "active" :: "emailVerified" :: userKeys) user
      (updateSchoolUserRecord incoming allowActive allowVerified user) :=
    updateSchoolUserRecord_outside incoming user (by decide) (by decide) (fun _ => by decide)
      (fun _ => by decide)
  exact strAt_eq houtside (by decide)

section Passes
variable {schoolId sessionUserId raw : String} {e : String × Json}

/-- An account of another school is the first one with the identifier. -/
structure FirstForeign (schoolId raw : String) (e : String × Json) (users : Fields) : Prop where
  sorted : Sorted users
  found : users.find? (hasId raw) = some e
  foreign : strAt e.2 "schoolId" ≠ some schoolId

theorem FirstForeign.lookup {users : Fields} (h : FirstForeign schoolId raw e users) :
    users.lookup e.1 = some e.2 := h.sorted.lookup_of_mem (List.mem_of_find?_eq_some h.found)

theorem FirstForeign.deleteUser {acc : Fields × List String}
    (h : FirstForeign schoolId raw e acc.1) (id : String) :
    FirstForeign schoolId raw e (deleteUser schoolId acc id).1 := by
  unfold Registry.deleteUser
  split
  · rename_i hany
    refine ⟨h.sorted.filter _, find?_unset ?_ h.found, h.foreign⟩
    rintro rfl
    rw [h.lookup, Option.any_some, isSubuser, Bool.and_eq_true, decide_eq_true_eq] at hany
    exact h.foreign hany.1
  · exact h

theorem FirstForeign.editUser {acc : Fields × Bool} (h : FirstForeign schoolId raw e acc.1)
    (incoming : String × Json) :
    FirstForeign schoolId raw e (editUser schoolId sessionUserId acc incoming).1 := by
  unfold Registry.editUser
  split
  · exact h
  · rename_i existing hexisting
    split
    · exact h
    · rename_i hschool
      dsimp only
      split
      · refine ⟨h.sorted.modify _ _, find?_modify ?_ ?_ h.found, h.foreign⟩
        · intro v
          unfold hasId
          rw [updateSchoolUserRecord_id]
        · intro heq
          rw [← heq, h.lookup] at hexisting
          obtain rfl := Option.some.inj hexisting
          exact hschool h.foreign
      · exact h

end Passes

/-! ### New accounts -/

theorem validNewSchoolUserId_eq {rawId id : String} (h : validNewSchoolUserId rawId = some id) :
    toAsciiLowercase id = id ∧ id.toList.all isAsciiAlphanumeric = true ∧ id ≠ "" := by
  unfold validNewSchoolUserId at h
  dsimp only at h
  split at h
  · rename_i hvalid
    obtain rfl := Option.some.inj h
    refine ⟨toAsciiLowercase_toAsciiLowercase _, hvalid.2.2, ?_⟩
    intro hempty
    rw [hempty] at hvalid
    exact absurd hvalid.1 (by decide)
  · exact absurd h (by simp)

theorem newSchoolUserRecord_id {id schoolId : String} {incoming user : Json}
    (h : newSchoolUserRecord id schoolId incoming = some user) : strAt user "id" = some id := by
  unfold newSchoolUserRecord at h
  split at h
  · exact absurd h (by simp)
  · obtain ⟨hash, _, h⟩ := Option.bind_eq_some_iff.mp h
    split at h
    · obtain rfl := Option.some.inj h
      have hrest : ∀ (base : Fields) (active : Json), FieldsOutside
          ("role" :: "schoolId" :: "passwordHash" :: "active" :: "emailVerified" :: newUserKeys) base
          (AssocList.assign "emailVerified" (.bool true) (AssocList.assign "active" active
            (copyStringFields incoming newUserKeys
              (AssocList.assign "passwordHash" (.str (trim hash))
                (AssocList.assign "schoolId" (.str schoolId)
                  (AssocList.assign "role" (.str "school_user") base)))))) :=
        fun base active => (((((FieldsOutside.assign (by decide) _ base).trans
          (.assign (by decide) _ _)).trans (.assign (by decide) _ _)).trans
          (.copyStringFields incoming (by decide) _)).trans (.assign (by decide) _ _)).trans
          (.assign (by decide) _ _)
      rw [strAt_eq (.of_fields (hrest _ _)) (by decide)]
      rfl
    · exact absurd h (by simp)

/-- What the third pass does, identifier by identifier. -/
structure Adds (authorized added : List String) (users after : Fields) : Prop where
  kept : ∀ id, id ∉ added → after.lookup id = users.lookup id
  fresh : ∀ id ∈ added, users.lookup id = none ∧ id ∉ authorized
  valid : ∀ id ∈ added, toAsciiLowercase id = id ∧ id.toList.all isAsciiAlphanumeric = true ∧ id ≠ ""
  there : ∀ id ∈ added, (after.lookup id).isSome = true
  find : ∀ q : String × Json → Bool, (∀ id ∈ added, ∀ user, strAt user "id" = some id →
    q (id, user) = false) → after.find? q = users.find? q

theorem Adds.refl (authorized : List String) (users : Fields) : Adds authorized [] users users :=
  ⟨fun _ _ => rfl, by simp, by simp, by simp, fun _ _ => rfl⟩

theorem Adds.cons {authorized added : List String} {users after : Fields}
    {id rawId schoolId : String} {incoming user : Json}
    (hid : validNewSchoolUserId rawId = some id)
    (hfresh : users.lookup id = none) (hnot : id ∉ authorized)
    (hnew : newSchoolUserRecord id schoolId incoming = some user)
    (h : Adds authorized added (AssocList.assign id user users) after) :
    Adds authorized (id :: added) users after where
  kept := by
    intro other hother
    obtain ⟨hne, hrest⟩ := not_or.mp (mt List.mem_cons.mpr hother)
    rw [h.kept other hrest, lookup_assign_ne hne]
  fresh := by
    intro other hother
    rcases List.mem_cons.mp hother with rfl | hrest
    · exact ⟨hfresh, hnot⟩
    · obtain ⟨hnone, hauthorized⟩ := h.fresh other hrest
      have hne : other ≠ id := by
        rintro rfl
        rw [lookup_assign_self] at hnone
        exact absurd hnone (by simp)
      rw [lookup_assign_ne hne] at hnone
      exact ⟨hnone, hauthorized⟩
  valid := by
    intro other hother
    rcases List.mem_cons.mp hother with rfl | hrest
    · exact validNewSchoolUserId_eq hid
    · exact h.valid other hrest
  there := by
    intro other hother
    by_cases hrest : other ∈ added
    · exact h.there other hrest
    · rcases List.mem_cons.mp hother with rfl | hin
      · rw [h.kept other hrest, lookup_assign_self]
        rfl
      · exact absurd hin hrest
  find := by
    intro q hq
    rw [h.find q fun other hother => hq other (List.mem_cons_of_mem _ hother)]
    exact find?_assign hfresh (hq id List.mem_cons_self user (newSchoolUserRecord_id hnew))

section Merge
variable (schoolId sessionUserId : String) (incoming : Json) (users : Fields)

variable {schoolId users}

end Merge

/-! ### Login names -/

section Names
variable {reg : Json} {users : Fields} {loginId : String}

end Names

section Isolation
variable {schoolId : String} {before after : Json} {users : Fields} (sessionUserId : String)
  (incoming : Json)

end Isolation

section MixedCase

end MixedCase

end TkbCherry.Registry
