import TkbCherry.Jsonlite.Values

/-!
# What the reader recognises

The reader runs through every text of a dialect it covers, or refuses it where the dialect has more
than the reader takes. With what it returns on a success this gives the texts on which it is a
recogniser of RFC 8259.
-/

namespace TkbCherry.Jsonlite

set_option autoImplicit false

open Utf8 JsonGrammar

variable {input rest more : List Char} {pos after : Nat}

/-- What may stand after a value. -/
def Follows (more : List Char) : Prop :=
  ∀ c, more.head? = some c → isWs c = true ∨ c = ',' ∨ c = ']' ∨ c = '\x7d'

theorem follows_nil : Follows [] := fun _ hc => by cases hc

theorem follows_cons {c : Char} (hc : c = ',' ∨ c = ']' ∨ c = '\x7d') (tail : List Char) :
    Follows (c :: tail) := by
  intro d hd
  obtain rfl := Option.some.inj hd
  exact Or.inr hc

theorem Follows.ws {w : List Char} (hw : Ws w) (h : Follows more) : Follows (w ++ more) := by
  cases w with
  | nil => exact h
  | cons c w =>
    intro d hd
    obtain rfl := Option.some.inj hd
    exact Or.inl (hw c List.mem_cons_self)

theorem Follows.numberEnds (h : Follows more) : NumberEnds more := by
  intro c hc
  rcases h c hc with hws | rfl | rfl | rfl
  · unfold isWs at hws
    simp only [Bool.or_eq_true, beq_iff_eq] at hws
    rcases hws with ((rfl | rfl) | rfl) | rfl
    · decide
    · decide
    · decide
    · decide
  · decide
  · decide
  · decide

/-- The first character of a value. -/
def StartsValue (c : Char) : Prop :=
  c = 'n' ∨ c = 't' ∨ c = 'f' ∨ c = '"' ∨ c = '[' ∨ c = '\x7b' ∨ c = '-' ∨ isDigit c = true

theorem StartsValue.not_ws {c : Char} (h : StartsValue c) : isWs c = false := by
  rcases h with rfl | rfl | rfl | rfl | rfl | rfl | rfl | hdigit
  · decide
  · decide
  · decide
  · decide
  · decide
  · decide
  · decide
  · refine Bool.eq_false_iff.mpr fun hws => ?_
    unfold isWs at hws
    simp only [Bool.or_eq_true, beq_iff_eq] at hws
    rcases hws with ((rfl | rfl) | rfl) | rfl
    · cases hdigit
    · cases hdigit
    · cases hdigit
    · cases hdigit

theorem StartsValue.ne_bracket {c : Char} (h : StartsValue c) : c ≠ ']' := by
  rintro rfl
  rcases h with h | h | h | h | h | h | h | h <;> exact absurd h (by decide)

theorem derives_head {d : Dialect} (hd : Covered d) {src : List Char} {v : Tree}
    (h : Derives d .value src v) : ∃ c tail, src = c :: tail ∧ StartsValue c := by
  cases h with
  | null => exact ⟨'n', _, rfl, Or.inl rfl⟩
  | true => exact ⟨'t', _, rfl, Or.inr (Or.inl rfl)⟩
  | false => exact ⟨'f', _, rfl, Or.inr (Or.inr (Or.inl rfl))⟩
  | number hraw =>
    obtain ⟨c, tail, rfl, hc⟩ := (hd.number _ hraw).head
    exact ⟨c, tail, rfl, Or.inr (Or.inr (Or.inr (Or.inr (Or.inr (Or.inr hc)))))⟩
  | string hs => exact ⟨'"', _, rfl, Or.inr (Or.inr (Or.inr (Or.inl rfl)))⟩
  | emptyArray hw => exact ⟨'[', _, rfl, Or.inr (Or.inr (Or.inr (Or.inr (Or.inl rfl))))⟩
  | array hs => exact ⟨'[', _, rfl, Or.inr (Or.inr (Or.inr (Or.inr (Or.inl rfl))))⟩
  | emptyObject hw =>
    exact ⟨'\x7b', _, rfl, Or.inr (Or.inr (Or.inr (Or.inr (Or.inr (Or.inl rfl)))))⟩
  | object hs =>
    exact ⟨'\x7b', _, rfl, Or.inr (Or.inr (Or.inr (Or.inr (Or.inr (Or.inl rfl)))))⟩

/-- The call on a text of a part of the grammar: the value as the grammar gives it, or a refusal. -/
def Reads (d : Dialect) (input : List Char) : (k : Symbol) → List Char → k.Out → Prop
  | .value, src, out => ∀ {w more : List Char} {pos fuel : Nat}, Ws w →
      At input pos (w ++ (src ++ more)) → Follows more →
      2 * (w ++ (src ++ more)).length + 2 ≤ fuel → Refuses d (parseValue input fuel pos) ∨
        ∃ v after, parseValue input fuel pos = .ok (v, after) ∧ At input after more ∧
          v.tree = out ∧ Derives (d.meet lenient) .value src out
  | .elements, src, out => ∀ {more : List Char} {pos fuel : Nat} (items : List JsonValue),
      At input pos (src ++ ']' :: more) → 2 * (src ++ ']' :: more).length + 3 ≤ fuel →
      Refuses d (arrayLoop input fuel items pos) ∨
        ∃ values after, arrayLoop input fuel items pos = .ok (.array (items ++ values), after) ∧
          At input after more ∧ trees values = out ∧ Derives (d.meet lenient) .elements src out
  | .members, src, out => ∀ {more : List Char} {pos fuel : Nat} (items : List (String × JsonValue)),
      At input pos (src ++ '\x7d' :: more) → 2 * (src ++ '\x7d' :: more).length + 3 ≤ fuel →
      Refuses d (objectLoop input fuel items pos) ∨
        ∃ values after, objectLoop input fuel items pos = .ok (.object (items ++ values), after) ∧
          At input after more ∧ members values = out ∧ Derives (d.meet lenient) .members src out

/-! ### Values -/

/-- The call on white space and a value, by the value's first character. -/
theorem parseValue_starts {w src : List Char} {c : Char} (fuel : Nat) (hw : Ws w)
    (hc : StartsValue c) (h : At input pos (w ++ (c :: src))) :
    At input (skipWs input pos) (c :: src) ∧ ∃ message,
      parseValue input (fuel + 1) pos = dispatch input fuel (skipWs input pos) c message := by
  have hat : At input (skipWs input pos) (c :: src) := by
    refine skipWs_exact hw (fun d hd => ?_) h
    obtain rfl := Option.some.inj hd
    exact hc.not_ws
  exact ⟨hat, parseValue_cons fuel hat⟩

variable {d : Dialect}

theorem reads_literal {literal : String} (value : JsonValue) {t : Tree} (c : Char) (tail : List Char)
    (hchars : literal.toList = c :: tail) (hascii : ∀ x ∈ c :: tail, x.toNat < 128)
    (hc : StartsValue c) (ht : value.tree = t) (hmeet : Derives (d.meet lenient) .value (c :: tail) t)
    (hdispatch : ∀ fuel pos message,
      dispatch input fuel pos c message = parseLiteral input literal value pos) :
    Reads d input .value (c :: tail) t := by
  intro w more pos fuel hw h hfollows hfuel
  obtain ⟨fuel, rfl⟩ : ∃ n, fuel = n + 1 := ⟨fuel - 1, by omega⟩
  obtain ⟨hat, message, hparse⟩ := parseValue_starts fuel hw hc h
  have hat' : At input (skipWs input pos) (literal.toList ++ more) := by rwa [hchars]
  obtain ⟨after, hliteral, hafter⟩ := parseLiteral_exact (hchars.symm ▸ hascii) hat'
  refine Or.inr ⟨value, after, ?_, hafter, ht, hmeet⟩
  rw [hparse, hdispatch, hliteral]

theorem reads_number (hd : Covered d) {raw : List Char} (hraw : d.number raw) :
    Reads d input .value raw (.number raw) := by
  intro w more pos fuel hw h hfollows hfuel
  obtain ⟨fuel, rfl⟩ : ∃ n, fuel = n + 1 := ⟨fuel - 1, by omega⟩
  obtain ⟨c, tail, rfl, hc⟩ := (hd.number _ hraw).head
  have hstart : StartsValue c := Or.inr (Or.inr (Or.inr (Or.inr (Or.inr (Or.inr hc)))))
  obtain ⟨hat, message, hparse⟩ := parseValue_starts fuel hw hstart h
  have hraw' : At input (skipWs input pos) ((c :: tail) ++ more) := hat
  have hnumber := parseNumber_exact (hd.number _ hraw) hfollows.numberEnds hraw'
  refine Or.inr ⟨.number (c :: tail), _, ?_, hraw'.skip, rfl,
    Derives.number ⟨hraw, hd.number _ hraw⟩⟩
  have hne : c ≠ 'n' ∧ c ≠ 't' ∧ c ≠ 'f' ∧ c ≠ '"' ∧ c ≠ '[' ∧ c ≠ '\x7b' := by
    refine ⟨?_, ?_, ?_, ?_, ?_, ?_⟩ <;> rintro rfl <;> exact absurd hc (by decide)
  rw [hparse, ← hnumber, dispatch, if_neg hne.1, if_neg hne.2.1, if_neg hne.2.2.1,
    if_neg hne.2.2.2.1, if_neg hne.2.2.2.2.1, if_neg hne.2.2.2.2.2, if_pos hc]

theorem reads_string (hd : Covered d) {s : List Char} {points : List Nat}
    (hs : Chars d s points) : Reads d input .value ('"' :: (s ++ ['"'])) (.string points) := by
  intro w more pos fuel hw h hfollows hfuel
  obtain ⟨fuel, rfl⟩ : ∃ n, fuel = n + 1 := ⟨fuel - 1, by omega⟩
  have hstart : StartsValue '"' := Or.inr (Or.inr (Or.inr (Or.inl rfl)))
  rw [List.cons_append, List.append_assoc, List.singleton_append] at h
  obtain ⟨hat, message, hparse⟩ := parseValue_starts fuel hw hstart h
  rw [hparse]
  rcases parseString_exact hd hs hat with ⟨hnot, text, herr⟩ | ⟨str, after, hok, hafter, hcodes, hmeet⟩
  · exact Or.inl ⟨hnot, text, by simp [dispatch, stringValue, herr]⟩
  · exact Or.inr ⟨.string str, after, by simp [dispatch, stringValue, hok], hafter,
      by rw [JsonValue.tree, hcodes], Derives.string hmeet⟩

/-- Brackets around the loop of an array. -/
theorem parseValue_bracket {w src : List Char} (fuel : Nat) (hw : Ws w)
    (h : At input pos (w ++ ('[' :: src))) :
    ∃ start, At input start src ∧ parseValue input (fuel + 1) pos = arrayLoop input fuel [] start := by
  obtain ⟨hat, message, hparse⟩ := parseValue_starts fuel hw
    (Or.inr (Or.inr (Or.inr (Or.inr (Or.inl rfl))))) h
  refine ⟨_, hat.next_ascii (by decide), ?_⟩
  rw [hparse]
  simp [dispatch, expect_cons hat (by decide), Except.bind]

theorem parseValue_brace {w src : List Char} (fuel : Nat) (hw : Ws w)
    (h : At input pos (w ++ ('\x7b' :: src))) :
    ∃ start, At input start src ∧ parseValue input (fuel + 1) pos = objectLoop input fuel [] start := by
  obtain ⟨hat, message, hparse⟩ := parseValue_starts fuel hw
    (Or.inr (Or.inr (Or.inr (Or.inr (Or.inr (Or.inl rfl)))))) h
  refine ⟨_, hat.next_ascii (by decide), ?_⟩
  rw [hparse]
  simp [dispatch, expect_cons hat (by decide), Except.bind]

theorem arrayLoop_close {w : List Char} (hw : Ws w) (fuel : Nat) (items : List JsonValue)
    (h : At input pos (w ++ ']' :: more)) :
    ∃ after, arrayLoop input (fuel + 1) items pos = .ok (.array items, after) ∧
      At input after more := by
  have hat := skipWs_exact hw (by rintro c hc; obtain rfl := Option.some.inj hc; rfl) h
  refine ⟨_, ?_, hat.next_ascii (by decide)⟩
  rw [arrayLoop]
  simp only [consume_cons hat (by decide)]

theorem objectLoop_close {w : List Char} (hw : Ws w) (fuel : Nat) (items : List (String × JsonValue))
    (h : At input pos (w ++ '\x7d' :: more)) :
    ∃ after, objectLoop input (fuel + 1) items pos = .ok (.object items, after) ∧
      At input after more := by
  have hat := skipWs_exact hw (by rintro c hc; obtain rfl := Option.some.inj hc; rfl) h
  refine ⟨_, ?_, hat.next_ascii (by decide)⟩
  rw [objectLoop]
  simp only [consume_cons hat (by decide)]

/-! ### The loops -/

/-- One value of an array, and what the loop does after it. -/
theorem arrayLoop_value {w w' src : List Char} {v : Tree} (hd : Covered d)
    (hvalue : Derives d .value src v) (hreads : Reads d input .value src v) (hw : Ws w) (hw' : Ws w')
    {next : Char} (hnext : next = ',' ∨ next = ']') {fuel : Nat} (items : List JsonValue)
    (h : At input pos (w ++ (src ++ (w' ++ next :: more))))
    (hfuel : 2 * (w ++ (src ++ (w' ++ next :: more))).length + 2 ≤ fuel) :
    Refuses d (arrayLoop input (fuel + 1) items pos) ∨
      ∃ item stop, item.tree = v ∧ Derives (d.meet lenient) .value src v ∧
        At input (skipWs input stop) (next :: more) ∧
        arrayLoop input (fuel + 1) items pos =
          match consume input ']' (skipWs input stop) with
          | some pos => .ok (.array (items ++ [item]), pos)
          | none =>
            match expect input ',' (skipWs input stop) with
            | .error stop => .error stop
            | .ok pos => arrayLoop input fuel (items ++ [item]) pos := by
  obtain ⟨c, tail, rfl, hc⟩ := derives_head hd hvalue
  have hat : At input (skipWs input pos) ((c :: tail) ++ (w' ++ next :: more)) := by
    refine skipWs_exact hw (fun x hx => ?_) h
    obtain rfl := Option.some.inj hx
    exact hc.not_ws
  have hopen : consume input ']' (skipWs input pos) = none := by
    refine consume_none hat (by decide) fun hhead => ?_
    exact hc.ne_bracket (Option.some.inj hhead)
  have hfollows : Follows (w' ++ next :: more) :=
    Follows.ws hw' (follows_cons (hnext.imp_right Or.inl) more)
  have hlen : 2 * ([] ++ ((c :: tail) ++ (w' ++ next :: more))).length + 2 ≤ fuel := by
    rw [List.length_append] at hfuel
    rw [List.nil_append]
    omega
  rw [arrayLoop]
  simp only [hopen]
  rcases hreads (fun x hx => by cases hx) hat hfollows hlen with
    ⟨hnot, message, herr⟩ | ⟨item, stop, hok, hstop, htree, hmeet⟩
  · rw [herr]
    exact Or.inl ⟨hnot, message, rfl⟩
  · rw [hok]
    have hat' := skipWs_exact hw' (fun x hx => by
      obtain rfl := Option.some.inj hx
      rcases hnext with rfl | rfl <;> rfl) hstop
    exact Or.inr ⟨item, stop, htree, hmeet, hat', rfl⟩

theorem reads_element {w s w' : List Char} {v : Tree} (hd : Covered d) (hw : Ws w) (hw' : Ws w')
    (hvalue : Derives d .value s v) (hreads : Reads d input .value s v) :
    Reads d input .elements (w ++ (s ++ w')) [v] := by
  intro more pos fuel items h hfuel
  obtain ⟨fuel, rfl⟩ : ∃ n, fuel = n + 1 := ⟨fuel - 1, by omega⟩
  rw [List.append_assoc, List.append_assoc] at h hfuel
  have hlong : 2 * (w ++ (s ++ (w' ++ ']' :: more))).length + 2 ≤ fuel := by omega
  rcases arrayLoop_value hd hvalue hreads hw hw' (Or.inr rfl) items h hlong with
    hrefused | ⟨item, stop, htree, hmeet, hat, hloop⟩
  · exact Or.inl hrefused
  · rw [hloop, consume_cons hat (by decide)]
    exact Or.inr ⟨[item], _, rfl, hat.next_ascii (by decide), by rw [trees, trees, htree],
      Derives.element hw hmeet hw'⟩

/-- A comma after an element, and the loop goes on. -/
theorem arrayLoop_comma {w w' src tail : List Char} {v : Tree} (hd : Covered d)
    (hvalue : Derives d .value src v) (hreads : Reads d input .value src v) (hw : Ws w) (hw' : Ws w')
    {fuel : Nat} (items : List JsonValue)
    (h : At input pos (w ++ (src ++ (w' ++ ',' :: tail))))
    (hfuel : 2 * (w ++ (src ++ (w' ++ ',' :: tail))).length + 2 ≤ fuel) :
    Refuses d (arrayLoop input (fuel + 1) items pos) ∨
      ∃ item next, item.tree = v ∧ Derives (d.meet lenient) .value src v ∧ At input next tail ∧
        arrayLoop input (fuel + 1) items pos = arrayLoop input fuel (items ++ [item]) next := by
  rcases arrayLoop_value hd hvalue hreads hw hw' (Or.inl rfl) items h hfuel with
    hrefused | ⟨item, stop, htree, hmeet, hat, hloop⟩
  · exact Or.inl hrefused
  · refine Or.inr ⟨item, _, htree, hmeet, hat.next_ascii (by decide), ?_⟩
    rw [hloop, consume_none hat (by decide) (by simp), expect_cons hat (by decide)]

theorem reads_elementComma {w s w' w'' : List Char} {v : Tree} (hd : Covered d)
    (hcomma : d.trailingComma) (hw : Ws w) (hw' : Ws w') (hw'' : Ws w'')
    (hvalue : Derives d .value s v) (hreads : Reads d input .value s v) :
    Reads d input .elements (w ++ (s ++ (w' ++ ',' :: w''))) [v] := by
  intro more pos fuel items h hfuel
  obtain ⟨fuel, rfl⟩ : ∃ n, fuel = n + 1 := ⟨fuel - 1, by omega⟩
  have heq : w ++ (s ++ (w' ++ ',' :: w'')) ++ ']' :: more =
      w ++ (s ++ (w' ++ ',' :: (w'' ++ ']' :: more))) := by simp
  rw [heq] at h hfuel
  have hlong : 2 * (w ++ (s ++ (w' ++ ',' :: (w'' ++ ']' :: more)))).length + 2 ≤ fuel := by omega
  rcases arrayLoop_comma hd hvalue hreads hw hw' items h hlong with
    hrefused | ⟨item, next, htree, hmeet, hat, hloop⟩
  · exact Or.inl hrefused
  · obtain ⟨fuel, rfl⟩ : ∃ n, fuel = n + 1 := by
      refine ⟨fuel - 1, ?_⟩
      omega
    obtain ⟨after, hclose, hafter⟩ := arrayLoop_close hw'' fuel (items ++ [item]) hat
    rw [hloop, hclose]
    exact Or.inr ⟨[item], after, rfl, hafter, by rw [trees, trees, htree],
      Derives.elementComma ⟨hcomma, trivial⟩ hw hmeet hw' hw''⟩

theorem reads_elements {w s w' tail : List Char} {v : Tree} {out : List Tree} (hd : Covered d)
    (hw : Ws w) (hw' : Ws w') (hvalue : Derives d .value s v) (hreads : Reads d input .value s v)
    (htail : Reads d input .elements tail out) :
    Reads d input .elements (w ++ (s ++ (w' ++ ',' :: tail))) (v :: out) := by
  intro more pos fuel items h hfuel
  obtain ⟨fuel, rfl⟩ : ∃ n, fuel = n + 1 := ⟨fuel - 1, by omega⟩
  have heq : w ++ (s ++ (w' ++ ',' :: tail)) ++ ']' :: more =
      w ++ (s ++ (w' ++ ',' :: (tail ++ ']' :: more))) := by simp
  rw [heq] at h hfuel
  have hlong : 2 * (w ++ (s ++ (w' ++ ',' :: (tail ++ ']' :: more)))).length + 2 ≤ fuel := by omega
  rcases arrayLoop_comma hd hvalue hreads hw hw' items h hlong with
    hrefused | ⟨item, next, htree, hmeet, hat, hloop⟩
  · exact Or.inl hrefused
  · have hshort : 2 * (tail ++ ']' :: more).length + 3 ≤ fuel := by
      simp only [List.length_append, List.length_cons] at hfuel ⊢
      omega
    rw [hloop]
    rcases htail (items ++ [item]) hat hshort with hrefused | ⟨values, after, hok, hafter, hout, hrest⟩
    · exact Or.inl hrefused
    · rw [hok]
      refine Or.inr ⟨item :: values, after, by simp, hafter, by rw [trees, htree, hout],
        Derives.elements hw hmeet hw' hrest⟩

/-- One member of an object, and what the loop does after it. -/
theorem objectLoop_member {w key w' w'' src w3 : List Char} {points : List Nat} {v : Tree}
    (hd : Covered d) (hreads : Reads d input .value src v) (hw : Ws w) (hkey : Chars d key points)
    (hw' : Ws w') (hw'' : Ws w'') (hw3 : Ws w3) {next : Char} (hnext : next = ',' ∨ next = '\x7d')
    {fuel : Nat} (items : List (String × JsonValue))
    (h : At input pos
      (w ++ '"' :: (key ++ '"' :: (w' ++ ':' :: (w'' ++ (src ++ (w3 ++ next :: more)))))))
    (hfuel : 2 * (w'' ++ (src ++ (w3 ++ next :: more))).length + 2 ≤ fuel) :
    Refuses d (objectLoop input (fuel + 1) items pos) ∨
      ∃ str item stop, codes str = points ∧ Chars (d.meet lenient) key points ∧ item.tree = v ∧
        Derives (d.meet lenient) .value src v ∧ At input (skipWs input stop) (next :: more) ∧
        objectLoop input (fuel + 1) items pos =
          match consume input '\x7d' (skipWs input stop) with
          | some pos => .ok (.object (items ++ [(str, item)]), pos)
          | none =>
            match expect input ',' (skipWs input stop) with
            | .error stop => .error stop
            | .ok pos => objectLoop input fuel (items ++ [(str, item)]) pos := by
  have hat := skipWs_exact hw (fun x hx => by obtain rfl := Option.some.inj hx; rfl) h
  have hopen := consume_none (c := '\x7d') hat (by decide) (by simp)
  have hfollows : Follows (w3 ++ next :: more) :=
    Follows.ws hw3 (follows_cons (hnext.imp_right Or.inr) more)
  rw [objectLoop]
  simp only [hopen]
  rcases parseString_exact hd hkey hat with
    ⟨hnot, message, herr⟩ | ⟨str, afterKey, hstring, hat1, hcodes, hchars⟩
  · rw [herr]
    exact Or.inl ⟨hnot, message, rfl⟩
  · have hat2 := skipWs_exact hw' (fun x hx => by obtain rfl := Option.some.inj hx; rfl) hat1
    rw [hstring]
    simp only [expect_cons hat2 (by decide)]
    rcases hreads hw'' (hat2.next_ascii (by decide)) hfollows hfuel with
      ⟨hnot, message, herr⟩ | ⟨item, stop, hok, hstop, htree, hmeet⟩
    · rw [herr]
      exact Or.inl ⟨hnot, message, rfl⟩
    · rw [hok]
      have hat' := skipWs_exact hw3 (fun x hx => by
        obtain rfl := Option.some.inj hx
        rcases hnext with rfl | rfl <;> rfl) hstop
      exact Or.inr ⟨str, item, stop, hcodes, hchars, htree, hmeet, hat', rfl⟩

theorem reads_member {w key w' w'' s w3 : List Char} {points : List Nat} {v : Tree} (hd : Covered d)
    (hw : Ws w) (hkey : Chars d key points) (hw' : Ws w') (hw'' : Ws w'') (hw3 : Ws w3)
    (hreads : Reads d input .value s v) :
    Reads d input .members (w ++ '"' :: (key ++ '"' :: (w' ++ ':' :: (w'' ++ (s ++ w3)))))
      [(points, v)] := by
  intro more pos fuel items h hfuel
  obtain ⟨fuel, rfl⟩ : ∃ n, fuel = n + 1 := ⟨fuel - 1, by omega⟩
  have heq : w ++ '"' :: (key ++ '"' :: (w' ++ ':' :: (w'' ++ (s ++ w3)))) ++ '\x7d' :: more =
      w ++ '"' :: (key ++ '"' :: (w' ++ ':' :: (w'' ++ (s ++ (w3 ++ '\x7d' :: more))))) := by simp
  rw [heq] at h hfuel
  have hlong : 2 * (w'' ++ (s ++ (w3 ++ '\x7d' :: more))).length + 2 ≤ fuel := by
    simp only [List.length_append, List.length_cons] at hfuel ⊢
    omega
  rcases objectLoop_member hd hreads hw hkey hw' hw'' hw3 (Or.inr rfl) items h hlong with hrefused | ⟨str, item, stop, hcodes, hchars, htree, hmeet, hat, hloop⟩
  · exact Or.inl hrefused
  · rw [hloop, consume_cons hat (by decide)]
    exact Or.inr ⟨[(str, item)], _, rfl, hat.next_ascii (by decide),
      by rw [members, members, hcodes, htree], Derives.member hw hchars hw' hw'' hmeet hw3⟩

/-- A comma after a member, and the loop goes on. -/
theorem objectLoop_comma {w key w' w'' src w3 tail : List Char} {points : List Nat} {v : Tree}
    (hd : Covered d) (hreads : Reads d input .value src v) (hw : Ws w) (hkey : Chars d key points)
    (hw' : Ws w') (hw'' : Ws w'') (hw3 : Ws w3) {fuel : Nat} (items : List (String × JsonValue))
    (h : At input pos
      (w ++ '"' :: (key ++ '"' :: (w' ++ ':' :: (w'' ++ (src ++ (w3 ++ ',' :: tail)))))))
    (hfuel : 2 * (w'' ++ (src ++ (w3 ++ ',' :: tail))).length + 2 ≤ fuel) :
    Refuses d (objectLoop input (fuel + 1) items pos) ∨
      ∃ str item next, codes str = points ∧ Chars (d.meet lenient) key points ∧ item.tree = v ∧
        Derives (d.meet lenient) .value src v ∧ At input next tail ∧
        objectLoop input (fuel + 1) items pos =
          objectLoop input fuel (items ++ [(str, item)]) next := by
  rcases objectLoop_member hd hreads hw hkey hw' hw'' hw3 (Or.inl rfl) items h hfuel with
    hrefused | ⟨str, item, stop, hcodes, hchars, htree, hmeet, hat, hloop⟩
  · exact Or.inl hrefused
  · refine Or.inr ⟨str, item, _, hcodes, hchars, htree, hmeet, hat.next_ascii (by decide), ?_⟩
    rw [hloop, consume_none hat (by decide) (by simp), expect_cons hat (by decide)]

theorem reads_memberComma {w key w' w'' s w3 w4 : List Char} {points : List Nat} {v : Tree}
    (hd : Covered d) (hcomma : d.trailingComma) (hw : Ws w) (hkey : Chars d key points) (hw' : Ws w')
    (hw'' : Ws w'') (hw3 : Ws w3) (hw4 : Ws w4) (hreads : Reads d input .value s v) :
    Reads d input .members
      (w ++ '"' :: (key ++ '"' :: (w' ++ ':' :: (w'' ++ (s ++ (w3 ++ ',' :: w4)))))) [(points, v)] := by
  intro more pos fuel items h hfuel
  obtain ⟨fuel, rfl⟩ : ∃ n, fuel = n + 1 := ⟨fuel - 1, by omega⟩
  have heq : w ++ '"' :: (key ++ '"' :: (w' ++ ':' :: (w'' ++ (s ++ (w3 ++ ',' :: w4))))) ++
      '\x7d' :: more =
      w ++ '"' :: (key ++ '"' :: (w' ++ ':' :: (w'' ++ (s ++ (w3 ++ ',' :: (w4 ++ '\x7d' :: more)))))) := by
    simp
  rw [heq] at h hfuel
  simp only [List.length_append, List.length_cons] at hfuel
  have hlong : 2 * (w'' ++ (s ++ (w3 ++ ',' :: (w4 ++ '\x7d' :: more)))).length + 2 ≤ fuel := by
    simp only [List.length_append, List.length_cons]
    omega
  rcases objectLoop_comma hd hreads hw hkey hw' hw'' hw3 items h hlong with
    hrefused | ⟨str, item, next, hcodes, hchars, htree, hmeet, hat, hloop⟩
  · exact Or.inl hrefused
  · obtain ⟨fuel, rfl⟩ : ∃ n, fuel = n + 1 := ⟨fuel - 1, by omega⟩
    obtain ⟨after, hclose, hafter⟩ := objectLoop_close hw4 fuel (items ++ [(str, item)]) hat
    rw [hloop, hclose]
    exact Or.inr ⟨[(str, item)], after, rfl, hafter, by rw [members, members, hcodes, htree],
      Derives.memberComma ⟨hcomma, trivial⟩ hw hchars hw' hw'' hmeet hw3 hw4⟩

theorem reads_members {w key w' w'' s w3 tail : List Char} {points : List Nat} {v : Tree}
    {out : List (List Nat × Tree)} (hd : Covered d) (hw : Ws w) (hkey : Chars d key points)
    (hw' : Ws w') (hw'' : Ws w'') (hw3 : Ws w3) (hreads : Reads d input .value s v)
    (htail : Reads d input .members tail out) :
    Reads d input .members
      (w ++ '"' :: (key ++ '"' :: (w' ++ ':' :: (w'' ++ (s ++ (w3 ++ ',' :: tail))))))
        ((points, v) :: out) := by
  intro more pos fuel items h hfuel
  obtain ⟨fuel, rfl⟩ : ∃ n, fuel = n + 1 := ⟨fuel - 1, by omega⟩
  have heq : w ++ '"' :: (key ++ '"' :: (w' ++ ':' :: (w'' ++ (s ++ (w3 ++ ',' :: tail))))) ++
      '\x7d' :: more =
      w ++ '"' :: (key ++ '"' :: (w' ++ ':' :: (w'' ++ (s ++ (w3 ++ ',' :: (tail ++ '\x7d' :: more)))))) := by
    simp
  rw [heq] at h hfuel
  simp only [List.length_append, List.length_cons] at hfuel
  have hlong : 2 * (w'' ++ (s ++ (w3 ++ ',' :: (tail ++ '\x7d' :: more)))).length + 2 ≤ fuel := by
    simp only [List.length_append, List.length_cons]
    omega
  rcases objectLoop_comma hd hreads hw hkey hw' hw'' hw3 items h hlong with
    hrefused | ⟨str, item, next, hcodes, hchars, htree, hmeet, hat, hloop⟩
  · exact Or.inl hrefused
  · have hshort : 2 * (tail ++ '\x7d' :: more).length + 3 ≤ fuel := by
      simp only [List.length_append, List.length_cons]
      omega
    rw [hloop]
    rcases htail (items ++ [(str, item)]) hat hshort with
      hrefused | ⟨values, after, hok, hafter, hout, hrest⟩
    · exact Or.inl hrefused
    · rw [hok]
      exact Or.inr ⟨(str, item) :: values, after, by simp, hafter,
        by rw [members, hcodes, htree, hout], Derives.members hw hchars hw' hw'' hmeet hw3 hrest⟩

/-! ### Every text -/

theorem reads_emptyArray {w' : List Char} (hw' : Ws w') :
    Reads d input .value ('[' :: (w' ++ [']'])) (.array []) := by
  intro w more pos fuel hw h hfollows hfuel
  obtain ⟨fuel, rfl⟩ : ∃ n, fuel = n + 1 + 1 := ⟨fuel - 2, by
    simp only [List.length_append, List.length_cons] at hfuel
    omega⟩
  rw [List.cons_append, List.append_assoc, List.singleton_append] at h
  obtain ⟨start, hat, hparse⟩ := parseValue_bracket (fuel + 1) hw h
  obtain ⟨after, hclose, hafter⟩ := arrayLoop_close hw' fuel [] hat
  rw [hparse, hclose]
  exact Or.inr ⟨.array [], after, rfl, hafter, rfl, Derives.emptyArray hw'⟩

theorem reads_emptyObject {w' : List Char} (hw' : Ws w') :
    Reads d input .value ('\x7b' :: (w' ++ ['\x7d'])) (.object []) := by
  intro w more pos fuel hw h hfollows hfuel
  obtain ⟨fuel, rfl⟩ : ∃ n, fuel = n + 1 + 1 := ⟨fuel - 2, by
    simp only [List.length_append, List.length_cons] at hfuel
    omega⟩
  rw [List.cons_append, List.append_assoc, List.singleton_append] at h
  obtain ⟨start, hat, hparse⟩ := parseValue_brace (fuel + 1) hw h
  obtain ⟨after, hclose, hafter⟩ := objectLoop_close hw' fuel [] hat
  rw [hparse, hclose]
  exact Or.inr ⟨.object [], after, rfl, hafter, rfl, Derives.emptyObject hw'⟩

theorem reads_array {s : List Char} {out : List Tree} (hs : Reads d input .elements s out) :
    Reads d input .value ('[' :: (s ++ [']'])) (.array out) := by
  intro w more pos fuel hw h hfollows hfuel
  obtain ⟨fuel, rfl⟩ : ∃ n, fuel = n + 1 := ⟨fuel - 1, by omega⟩
  rw [List.cons_append, List.append_assoc, List.singleton_append] at h
  obtain ⟨start, hat, hparse⟩ := parseValue_bracket fuel hw h
  have hshort : 2 * (s ++ ']' :: more).length + 3 ≤ fuel := by
    simp only [List.length_append, List.length_cons] at hfuel ⊢
    omega
  rw [hparse]
  rcases hs [] hat hshort with hrefused | ⟨values, after, hok, hafter, hout, hmeet⟩
  · exact Or.inl hrefused
  · rw [hok, List.nil_append]
    exact Or.inr ⟨.array values, after, rfl, hafter, by rw [JsonValue.tree, hout],
      Derives.array hmeet⟩

theorem reads_object {s : List Char} {out : List (List Nat × Tree)}
    (hs : Reads d input .members s out) :
    Reads d input .value ('\x7b' :: (s ++ ['\x7d'])) (.object out) := by
  intro w more pos fuel hw h hfollows hfuel
  obtain ⟨fuel, rfl⟩ : ∃ n, fuel = n + 1 := ⟨fuel - 1, by omega⟩
  rw [List.cons_append, List.append_assoc, List.singleton_append] at h
  obtain ⟨start, hat, hparse⟩ := parseValue_brace fuel hw h
  have hshort : 2 * (s ++ '\x7d' :: more).length + 3 ≤ fuel := by
    simp only [List.length_append, List.length_cons] at hfuel ⊢
    omega
  rw [hparse]
  rcases hs [] hat hshort with hrefused | ⟨values, after, hok, hafter, hout, hmeet⟩
  · exact Or.inl hrefused
  · rw [hok, List.nil_append]
    exact Or.inr ⟨.object values, after, rfl, hafter, by rw [JsonValue.tree, hout],
      Derives.object hmeet⟩

/-- The reader runs through every text of a dialect it covers. -/
theorem reads (hd : Covered d) (input : List Char) {k : Symbol} {src : List Char} {out : k.Out}
    (h : Derives d k src out) : Reads d input k src out := by
  induction h with
  | null =>
    exact reads_literal .null 'n' _ rfl (by simp) (Or.inl rfl) rfl Derives.null
      fun _ _ _ => rfl
  | true =>
    exact reads_literal (.bool true) 't' _ rfl (by simp) (Or.inr (Or.inl rfl)) rfl
      Derives.true fun _ _ _ => rfl
  | false =>
    exact reads_literal (.bool false) 'f' _ rfl (by simp) (Or.inr (Or.inr (Or.inl rfl))) rfl
      Derives.false fun _ _ _ => rfl
  | number hraw => exact reads_number hd hraw
  | string hs => exact reads_string hd hs
  | emptyArray hw => exact reads_emptyArray hw
  | array _ ih => exact reads_array ih
  | emptyObject hw => exact reads_emptyObject hw
  | object _ ih => exact reads_object ih
  | element hw hvalue hw' ih => exact reads_element hd hw hw' hvalue ih
  | elementComma hcomma hw hvalue hw' hw'' ih =>
    exact reads_elementComma hd hcomma hw hw' hw'' hvalue ih
  | elements hw hvalue hw' _ ih ihtail => exact reads_elements hd hw hw' hvalue ih ihtail
  | member hw hkey hw' hw'' _ hw3 ih => exact reads_member hd hw hkey hw' hw'' hw3 ih
  | memberComma hcomma hw hkey hw' hw'' _ hw3 hw4 ih =>
    exact reads_memberComma hd hcomma hw hkey hw' hw'' hw3 hw4 ih
  | members hw hkey hw' hw'' _ hw3 _ ih ihtail =>
    exact reads_members hd hw hkey hw' hw'' hw3 ih ihtail

/-! ### The whole text -/

theorem fuelFor_enough (text : List Char) : 2 * text.length + 2 ≤ fuelFor text := by
  have := length_le_size text
  unfold fuelFor
  omega

/-- White space to the end is skipped to the end. -/
theorem skipWs_end {w : List Char} (hw : Ws w) (h : At input pos w) :
    skipWs input pos = size input := by
  have hat : At input pos (w ++ []) := by rwa [List.append_nil]
  have hend := skipWs_exact hw (fun c hc => by cases hc) hat
  have hsize := hend.size_eq
  rw [hsize, size_nil, Nat.add_zero]

/-- At the end of the text nothing remains. -/
theorem at_end {rest : List Char} (h : At input (size input) rest) : rest = [] := by
  have hsize := h.size_eq
  exact size_eq_zero (by omega)

theorem parseJson_ok {s : String} {v : JsonValue} (hok : parseJson s = .ok v) :
    Denotes lenient s.toList v.tree := by
  unfold parseJson at hok
  cases hvalue : parseValue s.toList (fuelFor s.toList) 0 with
  | error stop =>
    simp only [hvalue] at hok
    cases hok
  | ok read =>
    obtain ⟨value, pos⟩ := read
    simp only [hvalue] at hok
    obtain ⟨w, src, more, heq, hw, hsrc, hat⟩ :=
      (sound s.toList (fuelFor s.toList)).value_ok (At.start s.toList) hvalue
    by_cases hend : skipWs s.toList pos = size s.toList
    · rw [if_pos hend] at hok
      cases hok
      obtain ⟨w', tail, rfl, hw', hat'⟩ := skipWs_reads hat
      rw [hend] at hat'
      obtain rfl := at_end hat'
      rw [List.append_nil] at heq
      exact ⟨w, src, w', heq, hw, hsrc, hw'⟩
    · rw [if_neg hend] at hok
      cases hok

theorem parseJson_reads (hd : Covered d) {s : String} {t : Tree} (h : Denotes d s.toList t) :
    Refuses d (parseJson s) ∨
      ∃ v, parseJson s = .ok v ∧ v.tree = t ∧ Denotes (d.meet lenient) s.toList t := by
  obtain ⟨w, src, w', heq, hw, hsrc, hw'⟩ := h
  have hat : At s.toList 0 (w ++ (src ++ w')) := ⟨[], heq, rfl⟩
  have hfuel : 2 * (w ++ (src ++ w')).length + 2 ≤ fuelFor s.toList := by
    rw [← heq]
    exact fuelFor_enough s.toList
  have hfollows : Follows w' := by
    have := Follows.ws hw' follows_nil
    rwa [List.append_nil] at this
  unfold parseJson
  rcases reads hd s.toList hsrc hw hat hfollows hfuel with
    ⟨hnot, message, herr⟩ | ⟨v, after, hok, hafter, htree, hmeet⟩
  · refine Or.inl ⟨hnot, message, ?_⟩
    simp only [herr]
  · refine Or.inr ⟨v, ?_, htree, w, src, w', heq, hw, hmeet, hw'⟩
    simp only [hok]
    rw [if_pos (skipWs_end hw' hafter)]

/-- The texts RFC 8259 and the reader share: no comma before a closing bracket, numbers and escapes
by RFC 8259, and in strings neither a surrogate without a partner nor one of the characters U+007F
to U+009F. -/
def strict : Dialect := rfc.meet lenient

theorem covered_strict : Covered strict :=
  ⟨fun _ h => h.2, fun _ h => h.2.2, fun _ _ h => h.2⟩

theorem accepted_strict : Accepted strict := ⟨fun _ h => h.2.1, fun h => h.2⟩

/-- On this text the reader is a recogniser of RFC 8259 that returns the value of the text. -/
def ExactOn (s : String) : Prop :=
  ((∃ v, parseJson s = .ok v) ↔ IsText rfc s.toList) ∧
    ∀ v, parseJson s = .ok v → Denotes rfc s.toList v.tree

/-- The reader is exact on the shared texts and on those that are JSON for neither side. -/
theorem parseJson_exact_iff (s : String) :
    ExactOn s ↔ IsText strict s.toList ∨ ¬ IsText rfc s.toList ∧ ¬ IsText lenient s.toList := by
  constructor
  · intro hexact
    by_cases hok : ∃ v, parseJson s = .ok v
    · obtain ⟨t, ht⟩ := hexact.1.mp hok
      rcases parseJson_reads covered_rfc ht with ⟨_, message, herr⟩ | ⟨v, _, _, hstrict⟩
      · obtain ⟨v, hv⟩ := hok
        rw [hv] at herr
        cases herr
      · exact Or.inl ⟨t, hstrict⟩
    · refine Or.inr ⟨fun hrfc => hok (hexact.1.mpr hrfc), ?_⟩
      rintro ⟨t, ht⟩
      rcases parseJson_reads covered_lenient ht with ⟨hnot, _⟩ | ⟨v, hv, _, _⟩
      · exact hnot accepted_lenient
      · exact hok ⟨v, hv⟩
  · rintro (⟨t, ht⟩ | ⟨hrfc, hlenient⟩)
    · have hrfc : Denotes rfc s.toList t := ht.mono (Dialect.meet_within rfc lenient fun h => h)
      rcases parseJson_reads covered_strict ht with ⟨hnot, _⟩ | ⟨v, hv, htree, _⟩
      · exact absurd accepted_strict hnot
      · refine ⟨⟨fun _ => ⟨t, hrfc⟩, fun _ => ⟨v, hv⟩⟩, fun v' hv' => ?_⟩
        rw [hv] at hv'
        cases hv'
        rwa [htree]
    · have hno : ∀ v, parseJson s ≠ .ok v := fun v hv => hlenient ⟨v.tree, parseJson_ok hv⟩
      refine ⟨⟨?_, fun h => absurd h hrfc⟩, fun v hv => absurd hv (hno v)⟩
      rintro ⟨v, hv⟩
      exact absurd hv (hno v)

/-- A string with the character U+007F is JSON, and the reader takes it for a control character
that has to be escaped. -/
theorem parseJson_refuses_delete :
    ¬ ExactOn (String.ofList ['"', Char.ofNat 127, '"']) := by
  rintro ⟨hiff, _⟩
  have htext : IsText rfc (String.ofList ['"', Char.ofNat 127, '"']).toList := by
    rw [String.toList_ofList]
    refine ⟨.string [127], [], ['"', Char.ofNat 127, '"'], [], rfl, by simp [Ws], ?_, by simp [Ws]⟩
    exact Derives.string (Chars.plain (by simp [rfc]) Chars.nil)
  obtain ⟨v, hv⟩ := hiff.mpr htext
  have hrun : (match parseJson (String.ofList ['"', Char.ofNat 127, '"']) with
    | .ok _ => true
    | .error _ => false) = false := by decide +kernel
  rw [hv] at hrun
  cases hrun

end TkbCherry.Jsonlite
