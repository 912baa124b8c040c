import TkbCherry.Jsonlite.Recognise

/-!
# Where the reader panics

`parse_hex4` cuts four bytes out of the text without asking whether they end on a boundary of
characters. The reader panics on exactly the texts in which it comes to an escape whose four bytes
end inside a character.
-/

namespace TkbCherry.Jsonlite

set_option autoImplicit false

open Utf8 JsonGrammar

variable {input rest : List Char}

/-- The call on an open front of a text, with four bytes behind it that end inside a character. -/
def PanicsOn (input rest : List Char) : Symbol → List Char → Prop
  | .value, seen => ∀ {w : List Char} {pos fuel : Nat}, Ws w → At input pos (w ++ (seen ++ rest)) →
      2 * (w ++ (seen ++ rest)).length + 2 ≤ fuel → parseValue input fuel pos = .error .panic
  | .elements, seen => ∀ {pos fuel : Nat} (items : List JsonValue), At input pos (seen ++ rest) →
      2 * (seen ++ rest).length + 3 ≤ fuel → arrayLoop input fuel items pos = .error .panic
  | .members, seen => ∀ {pos fuel : Nat} (items : List (String × JsonValue)),
      At input pos (seen ++ rest) → 2 * (seen ++ rest).length + 3 ≤ fuel →
      objectLoop input fuel items pos = .error .panic

theorem open_head {seen : List Char} (h : Open .value seen) :
    ∃ c tail, seen = c :: tail ∧ StartsValue c := by
  cases h with
  | string hs => exact ⟨'"', _, rfl, Or.inr (Or.inr (Or.inr (Or.inl rfl)))⟩
  | array hs => exact ⟨'[', _, rfl, Or.inr (Or.inr (Or.inr (Or.inr (Or.inl rfl))))⟩
  | object hs =>
    exact ⟨'\x7b', _, rfl, Or.inr (Or.inr (Or.inr (Or.inr (Or.inr (Or.inl rfl)))))⟩

theorem panics_string {s : List Char} (hs : OpenChars s) (hrest : Straddles rest) :
    PanicsOn input rest .value ('"' :: s) := by
  intro w pos fuel hw h hfuel
  obtain ⟨fuel, rfl⟩ : ∃ n, fuel = n + 1 := ⟨fuel - 1, by omega⟩
  obtain ⟨hat, message, hparse⟩ := parseValue_starts fuel hw (Or.inr (Or.inr (Or.inr (Or.inl rfl)))) h
  rw [hparse]
  simp [dispatch, stringValue, parseString_panic hs hrest hat]

theorem panics_array {s : List Char} (hs : PanicsOn input rest .elements s) :
    PanicsOn input rest .value ('[' :: s) := by
  intro w pos fuel hw h hfuel
  obtain ⟨fuel, rfl⟩ : ∃ n, fuel = n + 1 := ⟨fuel - 1, by omega⟩
  obtain ⟨start, hat, hparse⟩ := parseValue_bracket fuel hw h
  rw [hparse]
  refine hs [] hat ?_
  simp only [List.length_append, List.length_cons] at hfuel ⊢
  omega

theorem panics_object {s : List Char} (hs : PanicsOn input rest .members s) :
    PanicsOn input rest .value ('\x7b' :: s) := by
  intro w pos fuel hw h hfuel
  obtain ⟨fuel, rfl⟩ : ∃ n, fuel = n + 1 := ⟨fuel - 1, by omega⟩
  obtain ⟨start, hat, hparse⟩ := parseValue_brace fuel hw h
  rw [hparse]
  refine hs [] hat ?_
  simp only [List.length_append, List.length_cons] at hfuel ⊢
  omega

theorem panics_element {w s : List Char} (hw : Ws w) (hopen : Open .value s)
    (hs : PanicsOn input rest .value s) : PanicsOn input rest .elements (w ++ s) := by
  intro pos fuel items h hfuel
  obtain ⟨fuel, rfl⟩ : ∃ n, fuel = n + 1 := ⟨fuel - 1, by omega⟩
  obtain ⟨c, tail, rfl, hc⟩ := open_head hopen
  rw [List.append_assoc] at h hfuel
  have hat : At input (skipWs input pos) ((c :: tail) ++ rest) := by
    refine skipWs_exact hw (fun x hx => ?_) h
    obtain rfl := Option.some.inj hx
    exact hc.not_ws
  have hclose : consume input ']' (skipWs input pos) = none := by
    refine consume_none hat (by decide) fun hhead => ?_
    exact hc.ne_bracket (Option.some.inj hhead)
  have hnone : Ws [] := fun _ hx => by cases hx
  have hshort : 2 * ([] ++ ((c :: tail) ++ rest)).length + 2 ≤ fuel := by
    rw [List.length_append] at hfuel
    rw [List.nil_append]
    omega
  rw [arrayLoop]
  simp only [hclose]
  rw [hs hnone hat hshort]

theorem panics_elements {w s w' tail : List Char} {v : Tree} (hw : Ws w)
    (hvalue : Derives lenient .value s v) (hw' : Ws w') (htail : PanicsOn input rest .elements tail) :
    PanicsOn input rest .elements (w ++ (s ++ (w' ++ ',' :: tail))) := by
  intro pos fuel items h hfuel
  obtain ⟨fuel, rfl⟩ : ∃ n, fuel = n + 1 := ⟨fuel - 1, by omega⟩
  have heq : w ++ (s ++ (w' ++ ',' :: tail)) ++ rest = w ++ (s ++ (w' ++ ',' :: (tail ++ rest))) := by
    simp
  rw [heq] at h hfuel
  have hlong : 2 * (w ++ (s ++ (w' ++ ',' :: (tail ++ rest)))).length + 2 ≤ fuel := by omega
  rcases arrayLoop_comma covered_lenient hvalue (reads covered_lenient input hvalue) hw hw' items h
    hlong with hrefused | ⟨item, next, _, _, hat, hloop⟩
  · exact absurd accepted_lenient hrefused.1
  · rw [hloop]
    refine htail _ hat ?_
    simp only [List.length_append, List.length_cons] at hfuel ⊢
    omega

theorem panics_key {w s : List Char} (hw : Ws w) (hs : OpenChars s) (hrest : Straddles rest) :
    PanicsOn input rest .members (w ++ '"' :: s) := by
  intro pos fuel items h hfuel
  obtain ⟨fuel, rfl⟩ : ∃ n, fuel = n + 1 := ⟨fuel - 1, by omega⟩
  rw [List.append_assoc, List.cons_append] at h
  have hat := skipWs_exact hw (fun x hx => by obtain rfl := Option.some.inj hx; rfl) h
  have hclose : consume input '\x7d' (skipWs input pos) = none := consume_none hat (by decide) (by simp)
  rw [objectLoop]
  simp only [hclose, parseString_panic hs hrest hat]

theorem panics_member {w key w' w'' s : List Char} {points : List Nat} (hw : Ws w)
    (hkey : Chars lenient key points) (hw' : Ws w') (hw'' : Ws w'')
    (hs : PanicsOn input rest .value s) :
    PanicsOn input rest .members (w ++ '"' :: (key ++ '"' :: (w' ++ ':' :: (w'' ++ s)))) := by
  intro pos fuel items h hfuel
  obtain ⟨fuel, rfl⟩ : ∃ n, fuel = n + 1 := ⟨fuel - 1, by omega⟩
  have heq : w ++ '"' :: (key ++ '"' :: (w' ++ ':' :: (w'' ++ s))) ++ rest =
      w ++ '"' :: (key ++ '"' :: (w' ++ ':' :: (w'' ++ (s ++ rest)))) := by simp
  rw [heq] at h hfuel
  have hat := skipWs_exact hw (fun x hx => by obtain rfl := Option.some.inj hx; rfl) h
  have hclose : consume input '\x7d' (skipWs input pos) = none := consume_none hat (by decide) (by simp)
  rw [objectLoop]
  simp only [hclose]
  rcases parseString_exact covered_lenient hkey hat with
    hrefused | ⟨str, afterKey, hstring, hat1, _, _⟩
  · exact absurd accepted_lenient hrefused.1
  · have hat2 := skipWs_exact hw' (fun x hx => by obtain rfl := Option.some.inj hx; rfl) hat1
    have hshort : 2 * (w'' ++ (s ++ rest)).length + 2 ≤ fuel := by
      simp only [List.length_append, List.length_cons] at hfuel ⊢
      omega
    rw [hstring]
    simp only [expect_cons hat2 (by decide)]
    rw [hs hw'' (hat2.next_ascii (by decide)) hshort]

theorem panics_members {w key w' w'' s w3 tail : List Char} {points : List Nat} {v : Tree} (hw : Ws w)
    (hkey : Chars lenient key points) (hw' : Ws w') (hw'' : Ws w'')
    (hvalue : Derives lenient .value s v) (hw3 : Ws w3) (htail : PanicsOn input rest .members tail) :
    PanicsOn input rest .members
      (w ++ '"' :: (key ++ '"' :: (w' ++ ':' :: (w'' ++ (s ++ (w3 ++ ',' :: tail)))))) := by
  intro pos fuel items h hfuel
  obtain ⟨fuel, rfl⟩ : ∃ n, fuel = n + 1 := ⟨fuel - 1, by omega⟩
  have heq : w ++ '"' :: (key ++ '"' :: (w' ++ ':' :: (w'' ++ (s ++ (w3 ++ ',' :: tail))))) ++ rest =
      w ++ '"' :: (key ++ '"' :: (w' ++ ':' :: (w'' ++ (s ++ (w3 ++ ',' :: (tail ++ rest)))))) := by
    simp
  rw [heq] at h hfuel
  simp only [List.length_append, List.length_cons] at hfuel
  have hlong : 2 * (w'' ++ (s ++ (w3 ++ ',' :: (tail ++ rest)))).length + 2 ≤ fuel := by
    simp only [List.length_append, List.length_cons]
    omega
  rcases objectLoop_comma covered_lenient (reads covered_lenient input hvalue) hw hkey hw' hw'' hw3
    items h hlong with hrefused | ⟨str, item, next, _, _, _, _, hat, hloop⟩
  · exact absurd accepted_lenient hrefused.1
  · rw [hloop]
    refine htail _ hat ?_
    simp only [List.length_append]
    omega

/-- The reader panics behind every open front. -/
theorem panics_open (hrest : Straddles rest) {k : Symbol} {seen : List Char} (h : Open k seen) :
    PanicsOn input rest k seen := by
  induction h with
  | string hs => exact panics_string hs hrest
  | array _ ih => exact panics_array ih
  | object _ ih => exact panics_object ih
  | element hw hopen ih => exact panics_element hw hopen ih
  | elements hw hvalue hw' _ ih => exact panics_elements hw hvalue hw' ih
  | key hw hs => exact panics_key hw hs hrest
  | member hw hkey hw' hw'' _ ih => exact panics_member hw hkey hw' hw'' ih
  | members hw hkey hw' hw'' hvalue hw3 _ ih => exact panics_members hw hkey hw' hw'' hvalue hw3 ih

/-- An escape of the text takes four bytes that end inside a character. -/
def CutsCharacter (s : String) : Prop :=
  ∃ w tail, s.toList = w ++ tail ∧ Ws w ∧ OpensAt .value tail

/-- The call comes back, with a value or an error. -/
def Returns (s : String) : Prop :=
  (∃ v, parseJson s = .ok v) ∨ ∃ message, parseJson s = .error (.err message)

/-- The reader comes back on exactly the texts without such an escape. -/
theorem parseJson_returns_iff (s : String) : Returns s ↔ ¬ CutsCharacter s := by
  constructor
  · rintro hreturns ⟨w, tail, heq, hw, seen, rest, rfl, hseen, hrest⟩
    have hat : At s.toList 0 (w ++ (seen ++ rest)) := ⟨[], heq, rfl⟩
    have hfuel : 2 * (w ++ (seen ++ rest)).length + 2 ≤ fuelFor s.toList := by
      rw [← heq]
      exact fuelFor_enough s.toList
    have hpanic := panics_open hrest hseen hw hat hfuel
    have hparse : parseJson s = .error .panic := by
      unfold parseJson
      simp only [hpanic]
    rcases hreturns with ⟨v, hv⟩ | ⟨message, herr⟩
    · rw [hparse] at hv
      cases hv
    · rw [hparse] at herr
      cases herr
  · intro hclean
    cases hvalue : parseValue s.toList (fuelFor s.toList) 0 with
    | error stop =>
      have hparse : parseJson s = .error stop := by
        unfold parseJson
        simp only [hvalue]
      rcases (sound s.toList (fuelFor s.toList)).value_error (At.start s.toList) hvalue with
        ⟨message, rfl⟩ | ⟨_, hfuel⟩ | ⟨_, hopen⟩
      · exact Or.inr ⟨message, hparse⟩
      · have := fuelFor_enough s.toList
        omega
      · exact absurd hopen hclean
    | ok read =>
      obtain ⟨value, pos⟩ := read
      by_cases hend : skipWs s.toList pos = size s.toList
      · refine Or.inl ⟨value, ?_⟩
        unfold parseJson
        simp only [hvalue, if_pos hend]
      · have hparse : parseJson s =
            fail ("unexpected trailing JSON at byte " ++ toString (skipWs s.toList pos)) := by
          unfold parseJson
          simp only [hvalue, if_neg hend]
        exact Or.inr ⟨_, hparse⟩

/-- Three digits and a character of two bytes: the fourth byte is its first one. -/
theorem parseJson_panics : ¬ Returns "\"\\u000é\"" := by
  have hrun : (match parseJson "\"\\u000é\"" with
    | .error .panic => true
    | _ => false) = true := by decide +kernel
  rintro (⟨v, hv⟩ | ⟨message, herr⟩)
  · rw [hv] at hrun
    cases hrun
  · rw [herr] at hrun
    cases hrun

end TkbCherry.Jsonlite
