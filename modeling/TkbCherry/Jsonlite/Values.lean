import TkbCherry.Jsonlite.Strings

/-!
# Values of the reader

What a call on a value returns is a text of the lenient dialect, and where it panics. The
induction is on the fuel, over the value and the two loops together.
-/

namespace TkbCherry.Jsonlite

set_option autoImplicit false

open Utf8 JsonGrammar

variable {input rest more : List Char} {pos after : Nat} {stop : Stop}

mutual

/-- What a returned value denotes. -/
def JsonValue.tree : JsonValue → Tree
  | .null => .null
  | .bool b => .bool b
  | .number raw => .number raw
  | .string s => .string (codes s)
  | .array items => .array (trees items)
  | .object items => .object (members items)

def trees : List JsonValue → List Tree
  | [] => []
  | value :: rest => value.tree :: trees rest

def members : List (String × JsonValue) → List (List Nat × Tree)
  | [] => []
  | (key, value) :: rest => (codes key, value.tree) :: members rest

end

/-! ### White space and literals -/

theorem ws_takeWhile (rest : List Char) : Ws (rest.takeWhile isWs) :=
  fun _ hc => List.mem_takeWhile_imp hc

/-- The call stands on what follows the white space. -/
theorem skipWs_reads (h : At input pos rest) :
    ∃ w more, rest = w ++ more ∧ Ws w ∧ At input (skipWs input pos) more :=
  ⟨_, _, List.takeWhile_append_dropWhile.symm, ws_takeWhile rest, skipWs_at h⟩

theorem skipWs_exact {w : List Char} (hw : Ws w) (hmore : ∀ c, more.head? = some c → isWs c = false)
    (h : At input pos (w ++ more)) : At input (skipWs input pos) more := by
  have hat := skipWs_at h
  rw [List.dropWhile_append_of_pos hw] at hat
  cases more with
  | nil => exact hat
  | cons c more =>
    rwa [List.dropWhile_cons_of_neg (by simp [hmore c rfl])] at hat

theorem take_encode {literal : List Char} (hascii : ∀ c ∈ literal, c.toNat < 128) :
    (encode rest).take (size literal) = encode literal ↔ ∃ more, rest = literal ++ more := by
  constructor
  · intro h
    induction literal generalizing rest with
    | nil => exact ⟨rest, rfl⟩
    | cons c literal ih =>
      have hc := hascii c List.mem_cons_self
      rw [encode_cons, encodeChar_ascii hc, size_cons, utf8Size_of_ascii hc] at h
      have hhead : (encode rest)[0]? = some (UInt8.ofNat c.toNat) := by
        have hfirst := congrArg (fun bytes : List UInt8 => bytes[0]?) h
        rwa [List.getElem?_take_of_lt (by omega)] at hfirst
      have hbyte : (UInt8.ofNat c.toNat).toNat = c.toNat := byte_toNat hc
      cases rest with
      | nil => cases hhead
      | cons d rest =>
        have hd := (encode_cons_head d rest (by rw [hbyte]; exact hc)).mp hhead
        rw [hbyte, Char.toNat_inj] at hd
        subst hd
        rw [encode_cons, encodeChar_ascii hc, Nat.add_comm 1, List.singleton_append,
          List.singleton_append, List.take_succ_cons] at h
        obtain ⟨more, rfl⟩ := ih (fun x hx => hascii x (List.mem_cons_of_mem _ hx))
          (List.cons.inj h).2
        exact ⟨more, rfl⟩
  · rintro ⟨more, rfl⟩
    rw [encode_append, List.take_left' (length_encode literal)]

theorem parseLiteral_ok {literal : String} {value value' : JsonValue}
    (hascii : ∀ c ∈ literal.toList, c.toNat < 128) (h : At input pos rest)
    (hok : parseLiteral input literal value pos = .ok (value', after)) :
    ∃ more, rest = literal.toList ++ more ∧ At input after more ∧ value' = value := by
  unfold parseLiteral at hok
  rw [h.drop] at hok
  split_ifs at hok with htake
  · cases hok
    obtain ⟨more, rfl⟩ := (take_encode hascii).mp htake
    exact ⟨more, rfl, h.skip, rfl⟩
  · cases hok

theorem parseLiteral_error {literal : String} {value : JsonValue}
    (herr : parseLiteral input literal value pos = .error stop) : ∃ message, stop = .err message := by
  unfold parseLiteral at herr
  split_ifs at herr
  cases herr
  exact ⟨_, rfl⟩

theorem parseLiteral_exact {literal : String} {value : JsonValue}
    (hascii : ∀ c ∈ literal.toList, c.toNat < 128) (h : At input pos (literal.toList ++ more)) :
    ∃ after, parseLiteral input literal value pos = .ok (value, after) ∧ At input after more := by
  refine ⟨_, ?_, h.skip⟩
  unfold parseLiteral
  rw [h.drop, if_pos ((take_encode hascii).mpr ⟨more, rfl⟩)]

/-! ### The first character of a value -/

/-- How the call goes on, by the first character after the white space. -/
def dispatch (input : List Char) (fuel pos : Nat) (c : Char) (message : String) : Parsed JsonValue :=
  if c = 'n' then parseLiteral input "null" .null pos
  else if c = 't' then parseLiteral input "true" (.bool true) pos
  else if c = 'f' then parseLiteral input "false" (.bool false) pos
  else if c = '"' then stringValue (parseString input pos)
  else if c = '[' then (expect input '[' pos).bind (arrayLoop input fuel [])
  else if c = '\x7b' then (expect input '\x7b' pos).bind (objectLoop input fuel [])
  else if c = '-' ∨ isDigit c = true then parseNumber input pos
  else fail message

theorem parseValue_nil (fuel : Nat) (h : At input (skipWs input pos) []) :
    ∃ message, parseValue input (fuel + 1) pos = .error (.err message) := by
  rw [parseValue]
  simp only [peek_nil h]
  exact ⟨_, rfl⟩

theorem parseValue_cons {c : Char} (fuel : Nat) (h : At input (skipWs input pos) (c :: rest)) :
    ∃ message, parseValue input (fuel + 1) pos = dispatch input fuel (skipWs input pos) c message := by
  by_cases hc : c.toNat < 128
  · have heq : ∀ d : Char, d.toNat < 128 → (byte c = byte d ↔ c = d) := fun d hd =>
      ⟨byte_inj hc hd, congrArg byte⟩
    refine ⟨"unexpected JSON byte '" ++ (asChar (byte c)).toString ++ "' at " ++
      toString (skipWs input pos), ?_⟩
    rw [parseValue, dispatch]
    simp [peek_cons h hc, heq 'n' (by decide), heq 't' (by decide), heq 'f' (by decide),
      heq '"' (by decide), heq '[' (by decide), heq '\x7b' (by decide), heq '-' (by decide),
      isDigitByte_ascii.same hc]
  · obtain ⟨b, hpeek, hb⟩ := peek_wide h (Nat.le_of_not_lt hc)
    have hbyte : ∀ d : Char, d.toNat < 128 → b ≠ byte d := by
      intro d hd heq
      rw [heq, byte_toNat hd] at hb
      omega
    have hchar : ∀ d : Char, d.toNat < 128 → c ≠ d := by
      rintro d hd rfl
      exact hc hd
    have hdigit : ¬ (c = '-' ∨ isDigit c = true) := by
      rintro (heq | hdigit)
      · exact hchar '-' (by decide) heq
      · exact hc (isDigitByte_ascii.ascii hdigit)
    refine ⟨"unexpected JSON byte '" ++ (asChar b).toString ++ "' at " ++
      toString (skipWs input pos), ?_⟩
    rw [parseValue, dispatch]
    simp only [hpeek, if_neg (hbyte 'n' (by decide)), if_neg (hbyte 't' (by decide)),
      if_neg (hbyte 'f' (by decide)), if_neg (hbyte '"' (by decide)), if_neg (hbyte '[' (by decide)),
      if_neg (hbyte '\x7b' (by decide)), if_neg (hchar 'n' (by decide)),
      if_neg (hchar 't' (by decide)), if_neg (hchar 'f' (by decide)), if_neg (hchar '"' (by decide)),
      if_neg (hchar '[' (by decide)), if_neg (hchar '\x7b' (by decide)), if_neg hdigit]
    rw [if_neg]
    rintro (heq | htrue)
    · exact hbyte '-' (by decide) heq
    · rw [isDigitByte_ascii.wide hb] at htrue
      cases htrue

/-! ### What a call returns -/

/-- The front of a part of a text that ends where the four characters of an escape are read. -/
inductive Open : Symbol → List Char → Prop where
  | string {s : List Char} : OpenChars s → Open .value ('"' :: s)
  | array {s : List Char} : Open .elements s → Open .value ('[' :: s)
  | object {s : List Char} : Open .members s → Open .value ('\x7b' :: s)
  | element {w s : List Char} : Ws w → Open .value s → Open .elements (w ++ s)
  | elements {w s w' rest : List Char} {v : Tree} : Ws w → Derives lenient .value s v → Ws w' →
      Open .elements rest → Open .elements (w ++ (s ++ (w' ++ ',' :: rest)))
  | key {w s : List Char} : Ws w → OpenChars s → Open .members (w ++ '"' :: s)
  | member {w key w' w'' s : List Char} {points : List Nat} : Ws w → Chars lenient key points →
      Ws w' → Ws w'' → Open .value s →
      Open .members (w ++ '"' :: (key ++ '"' :: (w' ++ ':' :: (w'' ++ s))))
  | members {w key w' w'' s w3 rest : List Char} {points : List Nat} {v : Tree} : Ws w →
      Chars lenient key points → Ws w' → Ws w'' → Derives lenient .value s v → Ws w3 →
      Open .members rest → Open .members
        (w ++ '"' :: (key ++ '"' :: (w' ++ ':' :: (w'' ++ (s ++ (w3 ++ ',' :: rest))))))

/-- Why a call stops: an error of its own, too little fuel, or a panic where `opened` says. -/
def StopsAt (stop : Stop) (fuel bound : Nat) (opened : Prop) : Prop :=
  (∃ message, stop = .err message) ∨ stop = .outOfFuel ∧ fuel < bound ∨ stop = .panic ∧ opened

theorem StopsAt.mono {fuel fuel' bound bound' : Nat} {opened opened' : Prop}
    (h : StopsAt stop fuel bound opened) (hfuel : fuel < bound → fuel' < bound')
    (hopened : opened → opened') : StopsAt stop fuel' bound' opened' :=
  h.imp_right (Or.imp (And.imp_right hfuel) (And.imp_right hopened))

/-- A panic stands behind an open front of the text. -/
def OpensAt (k : Symbol) (rest : List Char) : Prop :=
  ∃ seen more, rest = seen ++ more ∧ Open k seen ∧ Straddles more

/-- What a value and the two loops do with a given fuel. -/
structure Sound (input : List Char) (fuel : Nat) : Prop where
  value_ok : ∀ {rest : List Char} {pos after : Nat} {v : JsonValue}, At input pos rest →
    parseValue input fuel pos = .ok (v, after) → ∃ w s more, rest = w ++ (s ++ more) ∧ Ws w ∧
      Derives lenient .value s v.tree ∧ At input after more
  value_error : ∀ {rest : List Char} {pos : Nat} {stop : Stop}, At input pos rest →
    parseValue input fuel pos = .error stop → StopsAt stop fuel (2 * rest.length + 2)
      (∃ w tail, rest = w ++ tail ∧ Ws w ∧ OpensAt .value tail)
  array_ok : ∀ {rest : List Char} {pos after : Nat} {items : List JsonValue} {v : JsonValue},
    At input pos rest → arrayLoop input fuel items pos = .ok (v, after) →
      ∃ s values more, rest = s ++ ']' :: more ∧ At input after more ∧ v = .array (items ++ values) ∧
        (Ws s ∧ values = [] ∨ Derives lenient .elements s (trees values))
  array_error : ∀ {rest : List Char} {pos : Nat} {items : List JsonValue} {stop : Stop},
    At input pos rest → arrayLoop input fuel items pos = .error stop →
      StopsAt stop fuel (2 * rest.length + 3) (OpensAt .elements rest)
  object_ok : ∀ {rest : List Char} {pos after : Nat} {items : List (String × JsonValue)}
    {v : JsonValue}, At input pos rest → objectLoop input fuel items pos = .ok (v, after) →
      ∃ s values more, rest = s ++ '\x7d' :: more ∧ At input after more ∧
        v = .object (items ++ values) ∧
        (Ws s ∧ values = [] ∨ Derives lenient .members s (members values))
  object_error : ∀ {rest : List Char} {pos : Nat} {items : List (String × JsonValue)} {stop : Stop},
    At input pos rest → objectLoop input fuel items pos = .error stop →
      StopsAt stop fuel (2 * rest.length + 3) (OpensAt .members rest)

/-- A literal names its characters. -/
theorem literal_reads {literal : String} {value v : JsonValue} {t : Tree} (chars : List Char)
    (hchars : literal.toList = chars) (hascii : ∀ c ∈ chars, c.toNat < 128)
    (htree : Derives lenient .value chars t) (ht : value.tree = t) (h : At input pos rest)
    (hok : parseLiteral input literal value pos = .ok (v, after)) :
    ∃ s more, rest = s ++ more ∧ Derives lenient .value s v.tree ∧ At input after more := by
  obtain ⟨more, rfl, hat, rfl⟩ := parseLiteral_ok (hchars.symm ▸ hascii) h hok
  refine ⟨chars, more, by rw [hchars], ?_, hat⟩
  rw [ht]
  exact htree

theorem dispatch_ok {fuel : Nat} (ih : Sound input fuel) {c : Char} {message : String} {v : JsonValue}
    (h : At input pos (c :: rest)) (hok : dispatch input fuel pos c message = .ok (v, after)) :
    ∃ s more, c :: rest = s ++ more ∧ Derives lenient .value s v.tree ∧ At input after more := by
  unfold dispatch at hok
  split_ifs at hok with hn ht hf hq hb ho hnum
  · exact literal_reads ['n', 'u', 'l', 'l'] rfl (by simp) Derives.null rfl h hok
  · exact literal_reads ['t', 'r', 'u', 'e'] rfl (by simp) Derives.true rfl h hok
  · exact literal_reads ['f', 'a', 'l', 's', 'e'] rfl (by simp) Derives.false rfl h hok
  · cases hstring : parseString input pos with
    | error stop =>
      rw [hstring] at hok
      cases hok
    | ok read =>
      obtain ⟨str, next⟩ := read
      rw [hstring] at hok
      cases hok
      obtain ⟨s, more, heq, hat, hs⟩ := parseString_ok h hstring
      exact ⟨'"' :: (s ++ ['"']), more, by rw [heq]; simp, Derives.string hs, hat⟩
  · subst hb
    rw [expect_cons h (by decide)] at hok
    obtain ⟨s, values, more, rfl, hat, rfl, hs⟩ := ih.array_ok (h.next_ascii (by decide)) hok
    refine ⟨'[' :: (s ++ [']']), more, by simp, ?_, hat⟩
    rcases hs with ⟨hw, rfl⟩ | hs
    · exact Derives.emptyArray hw
    · exact Derives.array hs
  · subst ho
    rw [expect_cons h (by decide)] at hok
    obtain ⟨s, values, more, rfl, hat, rfl, hs⟩ := ih.object_ok (h.next_ascii (by decide)) hok
    refine ⟨'\x7b' :: (s ++ ['\x7d']), more, by simp, ?_, hat⟩
    rcases hs with ⟨hw, rfl⟩ | hs
    · exact Derives.emptyObject hw
    · exact Derives.object hs
  · obtain ⟨raw, more, heq, hat, hraw, rfl⟩ := parseNumber_ok h rfl hnum hok
    exact ⟨raw, more, heq, Derives.number hraw, hat⟩
  · cases hok

theorem dispatch_error {fuel : Nat} (ih : Sound input fuel) {c : Char} {message : String}
    (h : At input pos (c :: rest)) (herr : dispatch input fuel pos c message = .error stop) :
    StopsAt stop fuel (2 * rest.length + 3) (OpensAt .value (c :: rest)) := by
  unfold dispatch at herr
  split_ifs at herr with hn ht hf hq hb ho hnum
  · exact Or.inl (parseLiteral_error herr)
  · exact Or.inl (parseLiteral_error herr)
  · exact Or.inl (parseLiteral_error herr)
  · cases hstring : parseString input pos with
    | error stop' =>
      rw [hstring] at herr
      cases herr
      rcases parseString_error h hstring with hmessage | ⟨rfl, seen, more, heq, hseen, hrest⟩
      · exact Or.inl hmessage
      · exact Or.inr (Or.inr ⟨rfl, '"' :: seen, more, heq, Open.string hseen, hrest⟩)
    | ok read =>
      rw [hstring] at herr
      cases herr
  · subst hb
    rw [expect_cons h (by decide)] at herr
    refine (ih.array_error (h.next_ascii (by decide)) herr).mono id ?_
    rintro ⟨seen, more, rfl, hseen, hrest⟩
    exact ⟨'[' :: seen, more, rfl, Open.array hseen, hrest⟩
  · subst ho
    rw [expect_cons h (by decide)] at herr
    refine (ih.object_error (h.next_ascii (by decide)) herr).mono id ?_
    rintro ⟨seen, more, rfl, hseen, hrest⟩
    exact ⟨'\x7b' :: seen, more, rfl, Open.object hseen, hrest⟩
  · exact Or.inl (parseNumber_error h herr)
  · cases herr
    exact Or.inl ⟨_, rfl⟩

theorem value_ok_succ {fuel : Nat} (ih : Sound input fuel) {v : JsonValue} (h : At input pos rest)
    (hok : parseValue input (fuel + 1) pos = .ok (v, after)) :
    ∃ w s more, rest = w ++ (s ++ more) ∧ Ws w ∧ Derives lenient .value s v.tree ∧
      At input after more := by
  obtain ⟨w, tail, rfl, hw, hat⟩ := skipWs_reads h
  cases tail with
  | nil =>
    obtain ⟨message, hnil⟩ := parseValue_nil fuel hat
    rw [hnil] at hok
    cases hok
  | cons c tail =>
    obtain ⟨message, hcons⟩ := parseValue_cons fuel hat
    rw [hcons] at hok
    obtain ⟨s, more, heq, hs, hafter⟩ := dispatch_ok ih hat hok
    exact ⟨w, s, more, by rw [heq], hw, hs, hafter⟩

theorem value_error_succ {fuel : Nat} (ih : Sound input fuel) (h : At input pos rest)
    (herr : parseValue input (fuel + 1) pos = .error stop) :
    StopsAt stop (fuel + 1) (2 * rest.length + 2)
      (∃ w tail, rest = w ++ tail ∧ Ws w ∧ OpensAt .value tail) := by
  obtain ⟨w, tail, rfl, hw, hat⟩ := skipWs_reads h
  cases tail with
  | nil =>
    obtain ⟨message, hnil⟩ := parseValue_nil fuel hat
    rw [hnil] at herr
    cases herr
    exact Or.inl ⟨_, rfl⟩
  | cons c tail =>
    obtain ⟨message, hcons⟩ := parseValue_cons fuel hat
    rw [hcons] at herr
    refine (dispatch_error ih hat herr).mono ?_ fun hopen => ⟨w, c :: tail, rfl, hw, hopen⟩
    intro hfuel
    rw [List.length_append, List.length_cons]
    omega

/-! ### The loop of an array -/

theorem array_ok_succ {fuel : Nat} (ih : Sound input fuel) {items : List JsonValue} {v : JsonValue}
    (h : At input pos rest) (hok : arrayLoop input (fuel + 1) items pos = .ok (v, after)) :
    ∃ s values more, rest = s ++ ']' :: more ∧ At input after more ∧ v = .array (items ++ values) ∧
      (Ws s ∧ values = [] ∨ Derives lenient .elements s (trees values)) := by
  obtain ⟨w, tail, rfl, hw, hat⟩ := skipWs_reads h
  rw [arrayLoop] at hok
  cases hclose : consume input ']' (skipWs input pos) with
  | some closed =>
    simp only [hclose] at hok
    cases hok
    obtain ⟨more, rfl, hafter⟩ := consume_some hat (by decide) hclose
    exact ⟨w, [], more, rfl, hafter, by rw [List.append_nil], Or.inl ⟨hw, rfl⟩⟩
  | none =>
    cases hvalue : parseValue input fuel (skipWs input pos) with
    | error stop =>
      simp only [hclose, hvalue] at hok
      cases hok
    | ok read =>
      obtain ⟨item, next⟩ := read
      simp only [hclose, hvalue] at hok
      obtain ⟨w1, s, tail1, rfl, hw1, hs, hnext⟩ := ih.value_ok hat hvalue
      have hws : Ws (w ++ w1) := fun c hc => (List.mem_append.mp hc).elim (hw c) (hw1 c)
      obtain ⟨w', tail2, rfl, hw', hat'⟩ := skipWs_reads hnext
      cases hclose' : consume input ']' (skipWs input next) with
      | some closed =>
        simp only [hclose'] at hok
        cases hok
        obtain ⟨more, rfl, hafter⟩ := consume_some hat' (by decide) hclose'
        exact ⟨w ++ w1 ++ (s ++ w'), [item], more, by simp, hafter, rfl,
          Or.inr (Derives.element hws hs hw')⟩
      | none =>
        cases hcomma : expect input ',' (skipWs input next) with
        | error stop =>
          simp only [hclose', hcomma] at hok
          cases hok
        | ok afterComma =>
          simp only [hclose', hcomma] at hok
          obtain ⟨tail3, rfl, hat3⟩ := expect_ok hat' (by decide) hcomma
          obtain ⟨s2, values, more, rfl, hafter, rfl, hs2⟩ := ih.array_ok hat3 hok
          refine ⟨w ++ w1 ++ (s ++ (w' ++ ',' :: s2)), item :: values, more, by simp, hafter,
            by simp, Or.inr ?_⟩
          rcases hs2 with ⟨hw2, rfl⟩ | hs2
          · exact Derives.elementComma trivial hws hs hw' hw2
          · exact Derives.elements hws hs hw' hs2

theorem array_error_succ {fuel : Nat} (ih : Sound input fuel) {items : List JsonValue}
    (h : At input pos rest) (herr : arrayLoop input (fuel + 1) items pos = .error stop) :
    StopsAt stop (fuel + 1) (2 * rest.length + 3) (OpensAt .elements rest) := by
  obtain ⟨w, tail, rfl, hw, hat⟩ := skipWs_reads h
  rw [arrayLoop] at herr
  cases hclose : consume input ']' (skipWs input pos) with
  | some closed =>
    simp only [hclose] at herr
    cases herr
  | none =>
    cases hvalue : parseValue input fuel (skipWs input pos) with
    | error stop' =>
      simp only [hclose, hvalue] at herr
      cases herr
      refine (ih.value_error hat hvalue).mono ?_ ?_
      · intro hfuel
        rw [List.length_append]
        omega
      · rintro ⟨w1, tail1, rfl, hw1, seen, more, rfl, hseen, hrest⟩
        have hws : Ws (w ++ w1) := fun c hc => (List.mem_append.mp hc).elim (hw c) (hw1 c)
        exact ⟨w ++ w1 ++ seen, more, by simp, Open.element hws hseen, hrest⟩
    | ok read =>
      obtain ⟨item, next⟩ := read
      simp only [hclose, hvalue] at herr
      obtain ⟨w1, s, tail1, rfl, hw1, hs, hnext⟩ := ih.value_ok hat hvalue
      have hws : Ws (w ++ w1) := fun c hc => (List.mem_append.mp hc).elim (hw c) (hw1 c)
      obtain ⟨w', tail2, rfl, hw', hat'⟩ := skipWs_reads hnext
      cases hclose' : consume input ']' (skipWs input next) with
      | some closed =>
        simp only [hclose'] at herr
        cases herr
      | none =>
        cases hcomma : expect input ',' (skipWs input next) with
        | error stop' =>
          simp only [hclose', hcomma] at herr
          cases herr
          exact Or.inl (expect_error hcomma)
        | ok afterComma =>
          simp only [hclose', hcomma] at herr
          obtain ⟨tail3, rfl, hat3⟩ := expect_ok hat' (by decide) hcomma
          refine (ih.array_error hat3 herr).mono ?_ ?_
          · intro hfuel
            simp only [List.length_append, List.length_cons]
            omega
          · rintro ⟨seen, more, rfl, hseen, hrest⟩
            exact ⟨w ++ w1 ++ (s ++ (w' ++ ',' :: seen)), more, by simp,
              Open.elements hws hs hw' hseen, hrest⟩

/-! ### The loop of an object -/

theorem object_ok_succ {fuel : Nat} (ih : Sound input fuel) {items : List (String × JsonValue)}
    {v : JsonValue} (h : At input pos rest)
    (hok : objectLoop input (fuel + 1) items pos = .ok (v, after)) :
    ∃ s values more, rest = s ++ '\x7d' :: more ∧ At input after more ∧
      v = .object (items ++ values) ∧
      (Ws s ∧ values = [] ∨ Derives lenient .members s (members values)) := by
  obtain ⟨w, tail, rfl, hw, hat⟩ := skipWs_reads h
  rw [objectLoop] at hok
  cases hclose : consume input '\x7d' (skipWs input pos) with
  | some closed =>
    simp only [hclose] at hok
    cases hok
    obtain ⟨more, rfl, hafter⟩ := consume_some hat (by decide) hclose
    exact ⟨w, [], more, rfl, hafter, by rw [List.append_nil], Or.inl ⟨hw, rfl⟩⟩
  | none =>
    cases hkey : parseString input (skipWs input pos) with
    | error stop =>
      simp only [hclose, hkey] at hok
      cases hok
    | ok read =>
      obtain ⟨key, afterKey⟩ := read
      obtain ⟨chars, tail1, rfl, hat1, hchars⟩ := parseString_ok hat hkey
      obtain ⟨w', tail2, rfl, hw', hat2⟩ := skipWs_reads hat1
      cases hcolon : expect input ':' (skipWs input afterKey) with
      | error stop =>
        simp only [hclose, hkey, hcolon] at hok
        cases hok
      | ok afterColon =>
        obtain ⟨tail3, rfl, hat3⟩ := expect_ok hat2 (by decide) hcolon
        cases hvalue : parseValue input fuel afterColon with
        | error stop =>
          simp only [hclose, hkey, hcolon, hvalue] at hok
          cases hok
        | ok read =>
          obtain ⟨item, next⟩ := read
          simp only [hclose, hkey, hcolon, hvalue] at hok
          obtain ⟨w'', s, tail4, rfl, hw'', hs, hnext⟩ := ih.value_ok hat3 hvalue
          obtain ⟨w3, tail5, rfl, hw3, hat5⟩ := skipWs_reads hnext
          cases hclose' : consume input '\x7d' (skipWs input next) with
          | some closed =>
            simp only [hclose'] at hok
            cases hok
            obtain ⟨more, rfl, hafter⟩ := consume_some hat5 (by decide) hclose'
            exact ⟨w ++ '"' :: (chars ++ '"' :: (w' ++ ':' :: (w'' ++ (s ++ w3)))), [(key, item)],
              more, by simp, hafter, rfl, Or.inr (Derives.member hw hchars hw' hw'' hs hw3)⟩
          | none =>
            cases hcomma : expect input ',' (skipWs input next) with
            | error stop =>
              simp only [hclose', hcomma] at hok
              cases hok
            | ok afterComma =>
              simp only [hclose', hcomma] at hok
              obtain ⟨tail6, rfl, hat6⟩ := expect_ok hat5 (by decide) hcomma
              obtain ⟨s2, values, more, rfl, hafter, rfl, hs2⟩ := ih.object_ok hat6 hok
              refine ⟨w ++ '"' :: (chars ++ '"' :: (w' ++ ':' :: (w'' ++ (s ++ (w3 ++ ',' :: s2))))),
                (key, item) :: values, more, by simp, hafter, by simp, Or.inr ?_⟩
              rcases hs2 with ⟨hw2, rfl⟩ | hs2
              · exact Derives.memberComma trivial hw hchars hw' hw'' hs hw3 hw2
              · exact Derives.members hw hchars hw' hw'' hs hw3 hs2

theorem object_error_succ {fuel : Nat} (ih : Sound input fuel) {items : List (String × JsonValue)}
    (h : At input pos rest) (herr : objectLoop input (fuel + 1) items pos = .error stop) :
    StopsAt stop (fuel + 1) (2 * rest.length + 3) (OpensAt .members rest) := by
  obtain ⟨w, tail, rfl, hw, hat⟩ := skipWs_reads h
  rw [objectLoop] at herr
  cases hclose : consume input '\x7d' (skipWs input pos) with
  | some closed =>
    simp only [hclose] at herr
    cases herr
  | none =>
    cases hkey : parseString input (skipWs input pos) with
    | error stop' =>
      simp only [hclose, hkey] at herr
      cases herr
      rcases parseString_error hat hkey with hmessage | ⟨rfl, seen, more, rfl, hseen, hrest⟩
      · exact Or.inl hmessage
      · exact Or.inr (Or.inr ⟨rfl, w ++ '"' :: seen, more, by simp, Open.key hw hseen, hrest⟩)
    | ok read =>
      obtain ⟨key, afterKey⟩ := read
      obtain ⟨chars, tail1, rfl, hat1, hchars⟩ := parseString_ok hat hkey
      obtain ⟨w', tail2, rfl, hw', hat2⟩ := skipWs_reads hat1
      cases hcolon : expect input ':' (skipWs input afterKey) with
      | error stop' =>
        simp only [hclose, hkey, hcolon] at herr
        cases herr
        exact Or.inl (expect_error hcolon)
      | ok afterColon =>
        obtain ⟨tail3, rfl, hat3⟩ := expect_ok hat2 (by decide) hcolon
        cases hvalue : parseValue input fuel afterColon with
        | error stop' =>
          simp only [hclose, hkey, hcolon, hvalue] at herr
          cases herr
          refine (ih.value_error hat3 hvalue).mono ?_ ?_
          · intro hfuel
            simp only [List.length_append, List.length_cons]
            omega
          · rintro ⟨w'', tail4, rfl, hw'', seen, more, rfl, hseen, hrest⟩
            exact ⟨w ++ '"' :: (chars ++ '"' :: (w' ++ ':' :: (w'' ++ seen))), more, by simp,
              Open.member hw hchars hw' hw'' hseen, hrest⟩
        | ok read =>
          obtain ⟨item, next⟩ := read
          simp only [hclose, hkey, hcolon, hvalue] at herr
          obtain ⟨w'', s, tail4, rfl, hw'', hs, hnext⟩ := ih.value_ok hat3 hvalue
          obtain ⟨w3, tail5, rfl, hw3, hat5⟩ := skipWs_reads hnext
          cases hclose' : consume input '\x7d' (skipWs input next) with
          | some closed =>
            simp only [hclose'] at herr
            cases herr
          | none =>
            cases hcomma : expect input ',' (skipWs input next) with
            | error stop' =>
              simp only [hclose', hcomma] at herr
              cases herr
              exact Or.inl (expect_error hcomma)
            | ok afterComma =>
              simp only [hclose', hcomma] at herr
              obtain ⟨tail6, rfl, hat6⟩ := expect_ok hat5 (by decide) hcomma
              refine (ih.object_error hat6 herr).mono ?_ ?_
              · intro hfuel
                simp only [List.length_append, List.length_cons]
                omega
              · rintro ⟨seen, more, rfl, hseen, hrest⟩
                exact ⟨w ++ '"' :: (chars ++ '"' :: (w' ++ ':' :: (w'' ++ (s ++ (w3 ++ ',' :: seen))))),
                  more, by simp, Open.members hw hchars hw' hw'' hs hw3 hseen, hrest⟩

theorem sound (input : List Char) (fuel : Nat) : Sound input fuel := by
  induction fuel with
  | zero =>
    constructor
    · intro _ _ _ _ _ hok
      cases hok
    · intro _ _ _ _ herr
      cases herr
      exact Or.inr (Or.inl ⟨rfl, by omega⟩)
    · intro _ _ _ _ _ _ hok
      cases hok
    · intro _ _ _ _ _ herr
      cases herr
      exact Or.inr (Or.inl ⟨rfl, by omega⟩)
    · intro _ _ _ _ _ _ hok
      cases hok
    · intro _ _ _ _ _ herr
      cases herr
      exact Or.inr (Or.inl ⟨rfl, by omega⟩)
  | succ fuel ih =>
    exact ⟨value_ok_succ ih, value_error_succ ih, array_ok_succ ih, array_error_succ ih,
      object_ok_succ ih, object_error_succ ih⟩

end TkbCherry.Jsonlite
