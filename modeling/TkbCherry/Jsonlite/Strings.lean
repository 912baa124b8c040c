import TkbCherry.Jsonlite.Numbers

/-!
# Strings of the reader

The dialect of JSON that the reader takes, and what its string parser does: what it returns, where
it panics, and that it runs through every string of a dialect it covers.
-/

namespace TkbCherry.Jsonlite

set_option autoImplicit false

open Utf8 JsonGrammar

variable {input rest more hex : List Char} {pos after code : Nat} {stop : Stop}

/-- Four hexadecimal digits, or a plus sign and three. -/
def LenientHex4 (s : List Char) (code : Nat) : Prop :=
  rfc.hex4 s code ∨ ∃ b c d b' c' d', s = ['+', b, c, d] ∧ hexDigit b = some b' ∧
    hexDigit c = some c' ∧ hexDigit d = some d' ∧ code = hexValue 0 b' c' d'

/-- The dialect the reader takes. -/
def lenient : Dialect where
  trailingComma := True
  number := LenientNumber
  plain c := isControl c = false ∧ c ≠ '"' ∧ c ≠ '\\'
  hex4 := LenientHex4
  lone := False

/-- A dialect whose texts the reader understands, though it may refuse some. -/
structure Covered (d : Dialect) : Prop where
  number : ∀ raw, d.number raw → LenientNumber raw
  plain : ∀ c, d.plain c → c ≠ '"' ∧ c ≠ '\\'
  hex4 : ∀ s code, d.hex4 s code → LenientHex4 s code

/-- The reader refuses no text of the dialect. -/
def Accepted (d : Dialect) : Prop := (∀ c, d.plain c → isControl c = false) ∧ ¬ d.lone

theorem covered_lenient : Covered lenient := ⟨fun _ h => h, fun _ h => h.2, fun _ _ h => h⟩

theorem accepted_lenient : Accepted lenient := ⟨fun _ h => h.1, fun h => h⟩

theorem covered_rfc : Covered rfc where
  number := by
    rintro raw ⟨m, hm, rfl⟩
    exact lenientNumber_of_strict hm
  plain c h := h.2
  hex4 s code h := Or.inl h

/-- What a string reads as. -/
def codes (s : String) : List Nat := s.toList.map Char.toNat

theorem codes_push (s : String) (c : Char) : codes (s.push c) = codes s ++ [c.toNat] := by
  simp [codes]

/-! ### Hexadecimal digits -/

theorem hexDigit_lt {c : Char} {n : Nat} (h : hexDigit c = some n) : n < 16 := by
  unfold hexDigit at h
  simp only at h
  split_ifs at h <;> cases h <;> omega

theorem hexDigit_ascii {c : Char} {n : Nat} (h : hexDigit c = some n) : c.toNat < 128 := by
  unfold hexDigit at h
  simp only at h
  split_ifs at h <;> omega

theorem hexDigit_plus : hexDigit '+' = none := rfl

theorem LenientHex4.length (h : LenientHex4 hex code) : hex.length = 4 ∧ size hex = 4 := by
  rcases h with ⟨a, b, c, d, a', b', c', d', rfl, ha, hb, hc, hd, _⟩ |
    ⟨b, c, d, b', c', d', rfl, hb, hc, hd, _⟩
  · simp [size, utf8Size_of_ascii (hexDigit_ascii ha), utf8Size_of_ascii (hexDigit_ascii hb),
      utf8Size_of_ascii (hexDigit_ascii hc), utf8Size_of_ascii (hexDigit_ascii hd)]
  · simp [size, utf8Size_of_ascii (hexDigit_ascii hb), utf8Size_of_ascii (hexDigit_ascii hc),
      utf8Size_of_ascii (hexDigit_ascii hd)]
    rfl

theorem LenientHex4.lt (h : LenientHex4 hex code) : code < 65536 := by
  rcases h with ⟨a, b, c, d, a', b', c', d', _, ha, hb, hc, hd, rfl⟩ |
    ⟨b, c, d, b', c', d', _, hb, hc, hd, rfl⟩
  · have := hexDigit_lt ha
    have := hexDigit_lt hb
    have := hexDigit_lt hc
    have := hexDigit_lt hd
    unfold hexValue
    omega
  · have := hexDigit_lt hb
    have := hexDigit_lt hc
    have := hexDigit_lt hd
    unfold hexValue
    omega

theorem hexFold_cons (n : Nat) (c : Char) (digits : List Char) :
    hexFold n (c :: digits) = (hexDigit c).bind fun d => hexFold (n * 16 + d) digits := by
  unfold hexFold
  rw [List.foldlM_cons]
  cases hexDigit c <;> rfl

theorem hexFold_ascii {digits : List Char} {n r : Nat} (h : hexFold n digits = some r) :
    size digits = digits.length := by
  induction digits generalizing n with
  | nil => rfl
  | cons c digits ih =>
    rw [hexFold_cons, Option.bind_eq_some_iff] at h
    obtain ⟨d, hd, htail⟩ := h
    rw [size_cons, utf8Size_of_ascii (hexDigit_ascii hd), ih htail, List.length_cons, Nat.add_comm]

theorem u16OfDigits_some {digits : List Char} :
    u16OfDigits digits = some code ↔ digits ≠ [] ∧ hexFold 0 digits = some code ∧ code < 65536 := by
  unfold u16OfDigits
  cases digits with
  | nil => simp
  | cons c digits =>
    rw [List.isEmpty_cons, if_neg Bool.false_ne_true, Option.bind_eq_some_iff]
    constructor
    · rintro ⟨n, hn, hlt⟩
      split_ifs at hlt with hsmall
      cases hlt
      exact ⟨List.cons_ne_nil _ _, hn, hsmall⟩
    · rintro ⟨_, hn, hlt⟩
      exact ⟨code, hn, if_pos hlt⟩

theorem u16FromHex_exact (h : LenientHex4 hex code) : u16FromHex hex = some code := by
  have hlt := h.lt
  rcases h with ⟨a, b, c, d, a', b', c', d', rfl, ha, hb, hc, hd, hcode⟩ |
    ⟨b, c, d, b', c', d', rfl, hb, hc, hd, hcode⟩
  · have hplus : a ≠ '+' := by
      rintro rfl
      cases ha
    have hfold : hexFold 0 [a, b, c, d] = some code := by
      simp only [hexFold_cons, ha, hb, hc, hd, Option.bind_some]
      refine congrArg some ?_
      rw [hcode]
      unfold hexValue
      omega
    unfold u16FromHex
    split
    · next heq =>
      cases heq
      exact absurd rfl hplus
    · exact u16OfDigits_some.mpr ⟨List.cons_ne_nil _ _, hfold, hlt⟩
  · have hfold : hexFold 0 [b, c, d] = some code := by
      simp only [hexFold_cons, hb, hc, hd, Option.bind_some]
      refine congrArg some ?_
      rw [hcode]
      unfold hexValue
      omega
    exact u16OfDigits_some.mpr ⟨List.cons_ne_nil _ _, hfold, hlt⟩

/-- A list of a known length, spelled out. -/
theorem eq_of_length_three {digits : List Char} (h : digits.length = 3) :
    ∃ b c d, digits = [b, c, d] := by
  obtain ⟨b, c, d, rfl⟩ := List.length_eq_three.mp h
  exact ⟨b, c, d, rfl⟩

theorem hexFold_three {b c d : Char} {n r : Nat} (h : hexFold n [b, c, d] = some r) :
    ∃ b' c' d', hexDigit b = some b' ∧ hexDigit c = some c' ∧ hexDigit d = some d' ∧
      r = n * 4096 + hexValue 0 b' c' d' := by
  simp only [hexFold_cons, Option.bind_eq_some_iff] at h
  obtain ⟨b', hb, c', hc, d', hd, hr⟩ := h
  have hr := Option.some.inj hr
  refine ⟨b', c', d', hb, hc, hd, ?_⟩
  rw [← hr]
  unfold hexValue
  omega

theorem u16FromHex_some (hsize : size hex = 4) (h : u16FromHex hex = some code) :
    LenientHex4 hex code := by
  unfold u16FromHex at h
  split at h
  · next digits =>
    have hdigits := (u16OfDigits_some.mp h).2.1
    rw [size_cons] at hsize
    have hlen : digits.length = 3 := by
      rw [← hexFold_ascii hdigits]
      have : Char.utf8Size '+' = 1 := rfl
      omega
    obtain ⟨b, c, d, rfl⟩ := eq_of_length_three hlen
    obtain ⟨b', c', d', hb, hc, hd, hcode⟩ := hexFold_three hdigits
    exact Or.inr ⟨b, c, d, b', c', d', rfl, hb, hc, hd, by omega⟩
  · have hdigits := (u16OfDigits_some.mp h).2.1
    have hlen : hex.length = 4 := by rw [← hexFold_ascii hdigits, hsize]
    cases hex with
    | nil => cases hlen
    | cons a tail =>
      obtain ⟨b, c, d, rfl⟩ := eq_of_length_three (Nat.succ.inj hlen)
      rw [hexFold_cons, Option.bind_eq_some_iff] at hdigits
      obtain ⟨a', ha, htail⟩ := hdigits
      obtain ⟨b', c', d', hb, hc, hd, hcode⟩ := hexFold_three htail
      refine Or.inl ⟨a, b, c, d, a', b', c', d', rfl, ha, hb, hc, hd, ?_⟩
      rw [hcode]
      unfold hexValue
      omega

/-! ### Four characters of an escape -/

/-- Four bytes are left, and they end inside a character. -/
def Straddles (rest : List Char) : Prop := 4 ≤ size rest ∧ prefixAt rest 4 = none

instance (rest : List Char) : Decidable (Straddles rest) := inferInstanceAs (Decidable (_ ∧ _))

theorem slice_four (h : At input pos rest) : slice input pos (pos + 4) = prefixAt rest 4 := by
  rw [slice, if_pos (Nat.le_add_right ..), h.suffixAt, Option.bind_some, Nat.add_sub_cancel_left]

theorem parseHex4_ok (h : At input pos rest) (hok : parseHex4 input pos = .ok (code, after)) :
    ∃ hex more, rest = hex ++ more ∧ LenientHex4 hex code ∧ At input after more := by
  unfold parseHex4 at hok
  rw [slice_four h] at hok
  split_ifs at hok with hshort
  · cases hok
  · cases hraw : prefixAt rest 4 with
    | none =>
      rw [hraw] at hok
      cases hok
    | some raw =>
      obtain ⟨more, rfl, hsize⟩ := prefixAt_eq_some.mp hraw
      cases hcode : u16FromHex raw with
      | none =>
        simp only [hraw, hcode] at hok
        cases hok
      | some n =>
        simp only [hraw, hcode] at hok
        cases hok
        refine ⟨raw, more, rfl, u16FromHex_some hsize hcode, ?_⟩
        have hskip := h.skip
        rwa [hsize] at hskip

theorem parseHex4_error (h : At input pos rest) (herr : parseHex4 input pos = .error stop) :
    (∃ message, stop = .err message) ∨ stop = .panic ∧ Straddles rest := by
  unfold parseHex4 at herr
  rw [slice_four h] at herr
  have hinput := h.size_eq
  split_ifs at herr with hshort
  · cases herr
    exact Or.inl ⟨_, rfl⟩
  · cases hraw : prefixAt rest 4 with
    | none =>
      rw [hraw] at herr
      cases herr
      exact Or.inr ⟨rfl, by omega, hraw⟩
    | some raw =>
      cases hcode : u16FromHex raw with
      | none =>
        simp only [hraw, hcode] at herr
        cases herr
        exact Or.inl ⟨_, rfl⟩
      | some n =>
        simp only [hraw, hcode] at herr
        cases herr

theorem parseHex4_exact (hhex : LenientHex4 hex code) (h : At input pos (hex ++ more)) :
    parseHex4 input pos = .ok (code, pos + 4) := by
  have hinput := h.size_eq
  have hsize := hhex.length.2
  rw [size_append] at hinput
  unfold parseHex4
  rw [if_neg (by omega), slice_four h, prefixAt_eq_some.mpr ⟨more, rfl, hsize⟩]
  simp only [u16FromHex_exact hhex]

theorem LenientHex4.skip (hhex : LenientHex4 hex code) (h : At input pos (hex ++ more)) :
    At input (pos + 4) more := by
  have hskip := h.skip
  rwa [hhex.length.2] at hskip

theorem parseHex4_panic (hrest : Straddles rest) (h : At input pos rest) :
    parseHex4 input pos = .error .panic := by
  have hinput := h.size_eq
  have hlong := hrest.1
  unfold parseHex4
  rw [if_neg (by omega), slice_four h, hrest.2]

/-! ### Code points -/

theorem charFromU32_some {c : Char} (h : charFromU32 code = some c) : c.toNat = code := by
  unfold charFromU32 at h
  split_ifs at h with hvalid
  cases h
  unfold Char.ofNat
  rw [dif_pos hvalid]
  rfl

theorem charFromU32_single (hlt : code < 65536) (hhigh : ¬ IsHigh code) (hlow : ¬ IsLow code) :
    ∃ c, charFromU32 code = some c := by
  refine ⟨_, if_pos ?_⟩
  unfold IsHigh at hhigh
  unfold IsLow at hlow
  unfold Nat.isValidChar
  omega

theorem charFromU32_surrogate (h : IsHigh code ∨ IsLow code) : charFromU32 code = none := by
  refine if_neg fun hvalid => ?_
  unfold IsHigh IsLow at h
  unfold Nat.isValidChar at hvalid
  omega

theorem charFromU32_pair {high low : Nat} (hhigh : IsHigh high) (hlow : IsLow low) :
    ∃ c, charFromU32 (pairPoint high low) = some c := by
  refine ⟨_, if_pos ?_⟩
  unfold IsHigh at hhigh
  unfold IsLow at hlow
  unfold Nat.isValidChar pairPoint
  omega

/-! ### Escapes -/

/-- Text that reads as one code point, after a backslash. -/
def ReadsAs (seen : List Char) (point : Nat) : Prop :=
  ∀ s points, Chars lenient s points → Chars lenient ('\\' :: (seen ++ s)) (point :: points)

/-- The front of a string that ends where the four characters of an escape are read. -/
inductive OpenChars : List Char → Prop where
  | single {s : List Char} {points : List Nat} : Chars lenient s points →
      OpenChars (s ++ ['\\', 'u'])
  | second {s hex : List Char} {points : List Nat} {code : Nat} : Chars lenient s points →
      LenientHex4 hex code → IsHigh code → OpenChars (s ++ escapeU hex ['\\', 'u'])

theorem ReadsAs.openChars {seen s : List Char} {point : Nat} (h : ReadsAs seen point)
    (hs : OpenChars s) : OpenChars ('\\' :: (seen ++ s)) := by
  cases hs with
  | single hchars =>
    have hopen := OpenChars.single (h _ _ hchars)
    rwa [List.cons_append, List.append_assoc] at hopen
  | second hchars hhex hhigh =>
    have hopen := OpenChars.second (h _ _ hchars) hhex hhigh
    rwa [List.cons_append, List.append_assoc] at hopen

theorem OpenChars.plain {s : List Char} {c : Char} (hc : lenient.plain c) (hs : OpenChars s) :
    OpenChars (c :: s) := by
  cases hs with
  | single hchars => exact OpenChars.single (Chars.plain hc hchars)
  | second hchars hhex hhigh => exact OpenChars.second (Chars.plain hc hchars) hhex hhigh

theorem secondEscape_some {second : Nat} (h : At input pos rest)
    (hsome : secondEscape input pos = some second) :
    ∃ more, rest = '\\' :: 'u' :: more ∧ At input second more := by
  unfold secondEscape at hsome
  cases rest with
  | nil =>
    rw [nextChar_nil h] at hsome
    cases hsome
  | cons c rest =>
    rw [nextChar_cons h] at hsome
    split at hsome
    · next heq =>
      cases heq
      cases rest with
      | nil =>
        rw [nextChar_nil h.next] at hsome
        cases hsome
      | cons d rest =>
        rw [nextChar_cons h.next] at hsome
        split at hsome
        · next heq =>
          cases heq
          cases hsome
          exact ⟨rest, rfl, h.next.next⟩
        · cases hsome
    · cases hsome

theorem secondEscape_cons (h : At input pos ('\\' :: 'u' :: rest)) :
    secondEscape input pos = some (pos + 1 + 1) := by
  unfold secondEscape
  rw [nextChar_cons h]
  simp only
  rw [nextChar_cons h.next]
  rfl

theorem singleEscape_ok {c : Char} (h : singleEscape code pos = .ok (c, after)) :
    c.toNat = code ∧ after = pos ∧ ¬ (IsHigh code ∨ IsLow code) := by
  unfold singleEscape at h
  cases hc : charFromU32 code with
  | none =>
    rw [hc] at h
    cases h
  | some d =>
    rw [hc] at h
    cases h
    refine ⟨charFromU32_some hc, rfl, fun hsurrogate => ?_⟩
    rw [charFromU32_surrogate hsurrogate] at hc
    cases hc

theorem singleEscape_error (h : singleEscape code pos = .error stop) :
    ∃ message, stop = .err message := by
  unfold singleEscape at h
  cases hc : charFromU32 code with
  | none =>
    rw [hc] at h
    cases h
    exact ⟨_, rfl⟩
  | some d =>
    rw [hc] at h
    cases h

theorem parseUnicodeEscape_ok {c : Char} (h : At input pos rest)
    (hok : parseUnicodeEscape input pos = .ok (c, after)) :
    ∃ seen more, rest = seen ++ more ∧ At input after more ∧ ReadsAs ('u' :: seen) c.toNat := by
  unfold parseUnicodeEscape at hok
  cases hfirst : parseHex4 input pos with
  | error stop =>
    rw [hfirst] at hok
    cases hok
  | ok read =>
    obtain ⟨high, checkpoint⟩ := read
    obtain ⟨hex, more, rfl, hhex, hat⟩ := parseHex4_ok h hfirst
    have hsingle : singleEscape high checkpoint = .ok (c, after) →
        ∃ seen more', hex ++ more = seen ++ more' ∧ At input after more' ∧
          ReadsAs ('u' :: seen) c.toNat := by
      intro hone
      obtain ⟨hpoint, rfl, hnot⟩ := singleEscape_ok hone
      refine ⟨hex, more, rfl, hat, fun s points hs => ?_⟩
      rw [hpoint]
      exact Chars.unicode hhex (fun hh => hnot (Or.inl hh)) (fun hl => hnot (Or.inr hl)) hs
    simp only [hfirst] at hok
    by_cases hhigh : 0xD800 ≤ high ∧ high ≤ 0xDBFF
    · rw [if_pos hhigh] at hok
      cases hsecond : secondEscape input checkpoint with
      | none =>
        rw [hsecond] at hok
        exact hsingle hok
      | some second =>
        obtain ⟨more, rfl, hat2⟩ := secondEscape_some hat hsecond
        cases hlow : parseHex4 input second with
        | error stop =>
          simp only [hsecond, hlow] at hok
          cases hok
        | ok read =>
          obtain ⟨low, final⟩ := read
          obtain ⟨hex', more, rfl, hhex', hat3⟩ := parseHex4_ok hat2 hlow
          simp only [hsecond, hlow] at hok
          by_cases hpair : 0xDC00 ≤ low ∧ low ≤ 0xDFFF
          · rw [if_pos hpair] at hok
            obtain ⟨d, hd⟩ := charFromU32_pair hhigh hpair
            have hpoint := charFromU32_some hd
            unfold pairPoint at hd
            rw [hd] at hok
            cases hok
            refine ⟨hex ++ '\\' :: 'u' :: hex', more, by simp, hat3, fun s points hs => ?_⟩
            have hchars := Chars.pair (d := lenient) hhex hhigh hhex' hpair hs
            rw [hpoint]
            simpa only [escapeU, List.cons_append, List.append_assoc] using hchars
          · rw [if_neg hpair] at hok
            exact hsingle hok
    · rw [if_neg hhigh] at hok
      exact hsingle hok

theorem parseUnicodeEscape_error (h : At input pos rest)
    (herr : parseUnicodeEscape input pos = .error stop) :
    (∃ message, stop = .err message) ∨ stop = .panic ∧
      ∃ seen more, '\\' :: 'u' :: rest = seen ++ more ∧ OpenChars seen ∧ Straddles more := by
  unfold parseUnicodeEscape at herr
  cases hfirst : parseHex4 input pos with
  | error stop' =>
    rw [hfirst] at herr
    cases herr
    rcases parseHex4_error h hfirst with hmessage | ⟨rfl, hrest⟩
    · exact Or.inl hmessage
    · exact Or.inr ⟨rfl, ['\\', 'u'], rest, rfl, OpenChars.single Chars.nil, hrest⟩
  | ok read =>
    obtain ⟨high, checkpoint⟩ := read
    obtain ⟨hex, more, rfl, hhex, hat⟩ := parseHex4_ok h hfirst
    simp only [hfirst] at herr
    by_cases hhigh : 0xD800 ≤ high ∧ high ≤ 0xDBFF
    · rw [if_pos hhigh] at herr
      cases hsecond : secondEscape input checkpoint with
      | none =>
        rw [hsecond] at herr
        exact Or.inl (singleEscape_error herr)
      | some second =>
        obtain ⟨more, rfl, hat2⟩ := secondEscape_some hat hsecond
        cases hlow : parseHex4 input second with
        | error stop' =>
          simp only [hsecond, hlow] at herr
          cases herr
          rcases parseHex4_error hat2 hlow with hmessage | ⟨rfl, hrest⟩
          · exact Or.inl hmessage
          · refine Or.inr ⟨rfl, escapeU hex ['\\', 'u'], more, ?_, ?_, hrest⟩
            · simp only [escapeU, List.cons_append, List.append_assoc, List.nil_append]
            · exact OpenChars.second Chars.nil hhex hhigh
        | ok read =>
          obtain ⟨low, final⟩ := read
          simp only [hsecond, hlow] at herr
          by_cases hpair : 0xDC00 ≤ low ∧ low ≤ 0xDFFF
          · rw [if_pos hpair] at herr
            obtain ⟨d, hd⟩ := charFromU32_pair hhigh hpair
            unfold pairPoint at hd
            rw [hd] at herr
            cases herr
          · rw [if_neg hpair] at herr
            exact Or.inl (singleEscape_error herr)
    · rw [if_neg hhigh] at herr
      exact Or.inl (singleEscape_error herr)

/-- The escapes of one character. -/
theorem parseEscape_cons {c : Char} (h : At input pos (c :: rest)) (hc : c ≠ 'u') :
    (∃ d, escaped c = some d.toNat ∧ parseEscape input pos = .ok (d, pos + c.utf8Size)) ∨
      escaped c = none ∧ ∃ message, parseEscape input pos = .error (.err message) := by
  unfold parseEscape escaped
  simp only [nextChar_cons h]
  by_cases h1 : c = '"' ∨ c = '\\' ∨ c = '/'
  · simp only [if_pos h1]
    exact Or.inl ⟨c, rfl, rfl⟩
  by_cases h2 : c = 'b'
  · simp only [if_neg h1, if_pos h2]
    exact Or.inl ⟨_, rfl, rfl⟩
  by_cases h3 : c = 'f'
  · simp only [if_neg h1, if_neg h2, if_pos h3]
    exact Or.inl ⟨_, rfl, rfl⟩
  by_cases h4 : c = 'n'
  · simp only [if_neg h1, if_neg h2, if_neg h3, if_pos h4]
    exact Or.inl ⟨_, rfl, rfl⟩
  by_cases h5 : c = 'r'
  · simp only [if_neg h1, if_neg h2, if_neg h3, if_neg h4, if_pos h5]
    exact Or.inl ⟨_, rfl, rfl⟩
  by_cases h6 : c = 't'
  · simp only [if_neg h1, if_neg h2, if_neg h3, if_neg h4, if_neg h5, if_pos h6]
    exact Or.inl ⟨_, rfl, rfl⟩
  · simp only [if_neg h1, if_neg h2, if_neg h3, if_neg h4, if_neg h5, if_neg h6, if_neg hc]
    exact Or.inr ⟨trivial, _, rfl⟩

theorem parseEscape_u (h : At input pos ('u' :: rest)) :
    parseEscape input pos = parseUnicodeEscape input (pos + 1) := by
  unfold parseEscape
  simp only [nextChar_cons h]
  rfl

theorem parseEscape_ok {c : Char} (h : At input pos rest)
    (hok : parseEscape input pos = .ok (c, after)) :
    ∃ seen more, rest = seen ++ more ∧ seen ≠ [] ∧ At input after more ∧ ReadsAs seen c.toNat := by
  cases rest with
  | nil =>
    unfold parseEscape at hok
    rw [nextChar_nil h] at hok
    cases hok
  | cons first rest =>
    by_cases hu : first = 'u'
    · subst hu
      rw [parseEscape_u h] at hok
      obtain ⟨seen, more, rfl, hat, hreads⟩ := parseUnicodeEscape_ok (h.next_ascii (by decide)) hok
      exact ⟨'u' :: seen, more, rfl, List.cons_ne_nil _ _, hat, hreads⟩
    · rcases parseEscape_cons h hu with ⟨d, hd, hparse⟩ | ⟨_, message, hparse⟩
      · rw [hparse] at hok
        cases hok
        exact ⟨[first], rest, rfl, List.cons_ne_nil _ _, h.next, fun s points hs =>
          Chars.escape hd hs⟩
      · rw [hparse] at hok
        cases hok

theorem parseEscape_error (h : At input pos rest) (herr : parseEscape input pos = .error stop) :
    (∃ message, stop = .err message) ∨ stop = .panic ∧
      ∃ seen more, '\\' :: rest = seen ++ more ∧ OpenChars seen ∧ Straddles more := by
  cases rest with
  | nil =>
    unfold parseEscape at herr
    rw [nextChar_nil h] at herr
    cases herr
    exact Or.inl ⟨_, rfl⟩
  | cons first rest =>
    by_cases hu : first = 'u'
    · subst hu
      rw [parseEscape_u h] at herr
      exact parseUnicodeEscape_error (h.next_ascii (by decide)) herr
    · rcases parseEscape_cons h hu with ⟨d, hd, hparse⟩ | ⟨_, message, hparse⟩
      · rw [hparse] at herr
        cases herr
      · rw [hparse] at herr
        cases herr
        exact Or.inl ⟨message, rfl⟩

/-! ### The loop of a string -/

theorem stringLoop_ok {fuel : Nat} {out out' : String} (h : At input pos rest)
    (hok : stringLoop input fuel out pos = .ok (out', after)) :
    ∃ s points more, rest = s ++ '"' :: more ∧ At input after more ∧ Chars lenient s points ∧
      codes out' = codes out ++ points := by
  induction fuel generalizing out pos rest with
  | zero => cases hok
  | succ fuel ih =>
    rw [stringLoop] at hok
    cases rest with
    | nil =>
      rw [nextChar_nil h] at hok
      cases hok
    | cons c rest =>
      simp only [nextChar_cons h] at hok
      by_cases hquote : c = '"'
      · rw [if_pos hquote] at hok
        cases hok
        exact ⟨[], [], rest, by rw [hquote]; rfl, h.next, Chars.nil, by simp⟩
      rw [if_neg hquote] at hok
      by_cases hslash : c = '\\'
      · rw [if_pos hslash] at hok
        cases hescape : parseEscape input (pos + c.utf8Size) with
        | error stop =>
          rw [hescape] at hok
          cases hok
        | ok read =>
          obtain ⟨d, next⟩ := read
          rw [hescape] at hok
          obtain ⟨seen, more, rfl, _, hat, hreads⟩ := parseEscape_ok h.next hescape
          obtain ⟨s, points, more, rfl, hat', hs, hout⟩ := ih hat hok
          refine ⟨'\\' :: (seen ++ s), d.toNat :: points, more, ?_, hat', hreads s points hs, ?_⟩
          · rw [hslash, List.cons_append, List.append_assoc]
          · rw [hout, codes_push, List.append_assoc, List.singleton_append]
      rw [if_neg hslash] at hok
      by_cases hcontrol : isControl c = true
      · rw [if_pos hcontrol] at hok
        cases hok
      · rw [if_neg hcontrol] at hok
        obtain ⟨s, points, more, rfl, hat', hs, hout⟩ := ih h.next hok
        refine ⟨c :: s, c.toNat :: points, more, rfl, hat', ?_, ?_⟩
        · exact Chars.plain ⟨Bool.eq_false_iff.mpr hcontrol, hquote, hslash⟩ hs
        · rw [hout, codes_push, List.append_assoc, List.singleton_append]

theorem stringLoop_error {fuel : Nat} {out : String} (h : At input pos rest)
    (herr : stringLoop input fuel out pos = .error stop) :
    (∃ message, stop = .err message) ∨ stop = .outOfFuel ∧ fuel ≤ rest.length ∨ stop = .panic ∧
      ∃ seen more, rest = seen ++ more ∧ OpenChars seen ∧ Straddles more := by
  induction fuel generalizing out pos rest with
  | zero =>
    cases herr
    exact Or.inr (Or.inl ⟨rfl, Nat.zero_le _⟩)
  | succ fuel ih =>
    rw [stringLoop] at herr
    cases rest with
    | nil =>
      rw [nextChar_nil h] at herr
      cases herr
      exact Or.inl ⟨_, rfl⟩
    | cons c rest =>
      simp only [nextChar_cons h] at herr
      by_cases hquote : c = '"'
      · rw [if_pos hquote] at herr
        cases herr
      rw [if_neg hquote] at herr
      by_cases hslash : c = '\\'
      · rw [if_pos hslash] at herr
        cases hescape : parseEscape input (pos + c.utf8Size) with
        | error stop' =>
          rw [hescape] at herr
          cases herr
          rcases parseEscape_error h.next hescape with hmessage | ⟨rfl, hpanic⟩
          · exact Or.inl hmessage
          · rw [hslash]
            exact Or.inr (Or.inr ⟨rfl, hpanic⟩)
        | ok read =>
          obtain ⟨d, next⟩ := read
          rw [hescape] at herr
          obtain ⟨seen, more, rfl, hseen, hat, hreads⟩ := parseEscape_ok h.next hescape
          rcases ih hat herr with hmessage | ⟨rfl, hfuel⟩ | ⟨rfl, s, tail, rfl, hs, hrest⟩
          · exact Or.inl hmessage
          · refine Or.inr (Or.inl ⟨rfl, ?_⟩)
            have := List.length_pos_iff.mpr hseen
            rw [List.length_cons, List.length_append]
            omega
          · refine Or.inr (Or.inr ⟨rfl, '\\' :: (seen ++ s), tail, ?_, hreads.openChars hs, hrest⟩)
            rw [hslash, List.cons_append, List.append_assoc]
      rw [if_neg hslash] at herr
      by_cases hcontrol : isControl c = true
      · rw [if_pos hcontrol] at herr
        cases herr
        exact Or.inl ⟨_, rfl⟩
      · rw [if_neg hcontrol] at herr
        rcases ih h.next herr with hmessage | ⟨rfl, hfuel⟩ | ⟨rfl, s, tail, rfl, hs, hrest⟩
        · exact Or.inl hmessage
        · exact Or.inr (Or.inl ⟨rfl, by rw [List.length_cons]; omega⟩)
        · refine Or.inr (Or.inr ⟨rfl, c :: s, tail, rfl, OpenChars.plain ?_ hs, hrest⟩)
          exact ⟨Bool.eq_false_iff.mpr hcontrol, hquote, hslash⟩

/-! ### Through a string -/

theorem escaped_ne_u {c : Char} {point : Nat} (h : escaped c = some point) : c ≠ 'u' := by
  rintro rfl
  cases h

theorem parseEscape_escaped {c : Char} {point : Nat} (hc : escaped c = some point)
    (h : At input pos (c :: rest)) :
    ∃ d, parseEscape input pos = .ok (d, pos + c.utf8Size) ∧ d.toNat = point := by
  rcases parseEscape_cons h (escaped_ne_u hc) with ⟨d, hd, hparse⟩ | ⟨hnone, _⟩
  · exact ⟨d, hparse, Option.some.inj (hd.symm.trans hc)⟩
  · rw [hnone] at hc
    cases hc

theorem singleEscape_single (pos : Nat) (hlt : code < 65536) (hhigh : ¬ IsHigh code) (hlow : ¬ IsLow code) :
    ∃ d, singleEscape code pos = .ok (d, pos) ∧ d.toNat = code := by
  obtain ⟨d, hd⟩ := charFromU32_single hlt hhigh hlow
  refine ⟨d, ?_, charFromU32_some hd⟩
  unfold singleEscape
  rw [hd]

theorem singleEscape_surrogate (h : IsHigh code ∨ IsLow code) :
    ∃ message, singleEscape code pos = .error (.err message) := by
  unfold singleEscape
  rw [charFromU32_surrogate h]
  exact ⟨_, rfl⟩

theorem parseUnicodeEscape_single (hhex : LenientHex4 hex code) (hhigh : ¬ IsHigh code)
    (hlow : ¬ IsLow code) (h : At input pos (hex ++ more)) :
    ∃ d, parseUnicodeEscape input pos = .ok (d, pos + 4) ∧ d.toNat = code := by
  obtain ⟨d, hd, hpoint⟩ := singleEscape_single (pos + 4) hhex.lt hhigh hlow
  refine ⟨d, ?_, hpoint⟩
  unfold parseUnicodeEscape
  simp only [parseHex4_exact hhex h]
  unfold IsHigh at hhigh
  rw [if_neg hhigh, hd]

theorem parseUnicodeEscape_pair {hex' : List Char} {high low : Nat} (hhex : LenientHex4 hex high)
    (hhigh : IsHigh high) (hhex' : LenientHex4 hex' low) (hlow : IsLow low)
    (h : At input pos (hex ++ escapeU hex' more)) :
    ∃ d after, parseUnicodeEscape input pos = .ok (d, after) ∧ d.toNat = pairPoint high low ∧
      At input after more := by
  obtain ⟨d, hd⟩ := charFromU32_pair hhigh hlow
  have hat := hhex.skip h
  have hat2 : At input (pos + 4 + 1 + 1) (hex' ++ more) := hat.next.next
  refine ⟨d, pos + 4 + 1 + 1 + 4, ?_, charFromU32_some hd, hhex'.skip hat2⟩
  unfold parseUnicodeEscape
  unfold pairPoint at hd
  simp only [parseHex4_exact hhex h]
  unfold IsHigh at hhigh
  unfold IsLow at hlow
  rw [if_pos hhigh, secondEscape_cons hat]
  simp only [parseHex4_exact hhex' hat2]
  rw [if_pos hlow, hd]

/-- A surrogate is refused when no low surrogate follows a high one. -/
theorem parseUnicodeEscape_lone (hhex : LenientHex4 hex code) (hlone : IsHigh code ∨ IsLow code)
    (hnext : IsHigh code → ∀ more', more = '\\' :: 'u' :: more' →
      ∃ hex' low tail, more' = hex' ++ tail ∧ LenientHex4 hex' low ∧ ¬ IsLow low)
    (h : At input pos (hex ++ more)) :
    ∃ message, parseUnicodeEscape input pos = .error (.err message) := by
  unfold parseUnicodeEscape
  simp only [parseHex4_exact hhex h]
  by_cases hhigh : 0xD800 ≤ code ∧ code ≤ 0xDBFF
  · rw [if_pos hhigh]
    cases hsecond : secondEscape input (pos + 4) with
    | none => exact singleEscape_surrogate hlone
    | some second =>
      obtain ⟨more', hmore, hat⟩ := secondEscape_some (hhex.skip h) hsecond
      obtain ⟨hex', low, tail, rfl, hhex', hlow⟩ := hnext hhigh more' hmore
      simp only [parseHex4_exact hhex' hat]
      unfold IsLow at hlow
      rw [if_neg hlow]
      exact singleEscape_surrogate hlone
  · rw [if_neg hhigh]
    exact singleEscape_surrogate hlone

/-- A backslash and a `u` in a string begin four characters of an escape. -/
theorem chars_escapeU {d : Dialect} (hd : Covered d) {s : List Char} {points : List Nat}
    (h : Chars d ('\\' :: 'u' :: s) points) :
    ∃ hex tail code, s = hex ++ tail ∧ d.hex4 hex code := by
  generalize htext : '\\' :: 'u' :: s = text at h
  cases h with
  | nil => cases htext
  | plain hc hs =>
    cases htext
    exact absurd rfl (hd.plain _ hc).2
  | escape hc hs =>
    cases htext
    exact absurd rfl (escaped_ne_u hc)
  | unicode hhex hhigh hlow hs =>
    cases htext
    exact ⟨_, _, _, rfl, hhex⟩
  | pair hhex hhigh hhex' hlow hs =>
    cases htext
    exact ⟨_, _, _, rfl, hhex⟩
  | lone hlone hhex hsurrogate hnext hs =>
    cases htext
    exact ⟨_, _, _, rfl, hhex⟩

/-- A backslash in a string is not its last character. -/
theorem chars_backslash {d : Dialect} (hd : Covered d) {points : List Nat} :
    ¬ Chars d ['\\'] points := by
  intro h
  generalize htext : ['\\'] = text at h
  cases h with
  | nil => cases htext
  | plain hc hs =>
    cases htext
    exact (hd.plain _ hc).2 rfl
  | escape hc hs => cases htext
  | unicode hhex hhigh hlow hs => cases htext
  | pair hhex hhigh hhex' hlow hs => cases htext
  | lone hlone hhex hsurrogate hnext hs => cases htext

/-- What stands after a surrogate without a partner is no low surrogate. -/
theorem lone_next {d : Dialect} (hd : Covered d) {s : List Char} {points : List Nat}
    (hs : Chars d s points) (hmore : more.head? ≠ some '\\')
    (hnext : ∀ hex' low s', d.hex4 hex' low → IsLow low → s ≠ escapeU hex' s') :
    ∀ more', s ++ more = '\\' :: 'u' :: more' →
      ∃ hex' low tail, more' = hex' ++ tail ∧ LenientHex4 hex' low ∧ ¬ IsLow low := by
  intro more' heq
  cases s with
  | nil =>
    rw [List.nil_append] at heq
    rw [heq] at hmore
    exact absurd rfl hmore
  | cons c s =>
    rw [List.cons_append] at heq
    obtain ⟨rfl, heq⟩ := List.cons.inj heq
    cases s with
    | nil => exact absurd hs (chars_backslash hd)
    | cons c s =>
      obtain ⟨rfl, rfl⟩ := List.cons.inj (List.cons.inj heq).2
      obtain ⟨hex', tail, low, rfl, hhex'⟩ := chars_escapeU hd hs
      refine ⟨hex', low, tail ++ more, List.append_assoc .., hd.hex4 _ _ hhex', ?_⟩
      intro hlow
      exact hnext hex' low tail hhex' hlow rfl

/-- The loop gives an error for a dialect with strings it refuses. -/
def Refuses (d : Dialect) {α : Type} (r : Except Stop α) : Prop :=
  ¬ Accepted d ∧ ∃ message, r = .error (.err message)

/-- The loop runs through the characters of a string. -/
def RunsThrough (input : List Char) (fuel : Nat) (out : String) (pos length : Nat)
    (more : List Char) (points : List Nat) : Prop :=
  ∃ fuel' out' pos', stringLoop input fuel out pos = stringLoop input fuel' out' pos' ∧
    fuel ≤ fuel' + length ∧ At input pos' more ∧ codes out' = codes out ++ points

/-- One character read, and the loop runs on. -/
theorem RunsThrough.push {fuel next length shorter : Nat} {out : String} {c : Char}
    {points : List Nat}
    (hstep : stringLoop input (fuel + 1) out pos = stringLoop input fuel (out.push c) next)
    (hshort : shorter < length) (h : RunsThrough input fuel (out.push c) next shorter more points) :
    RunsThrough input (fuel + 1) out pos length more (c.toNat :: points) := by
  obtain ⟨fuel', out', pos', hrun, hfuel, hat, hout⟩ := h
  refine ⟨fuel', out', pos', hstep.trans hrun, by omega, hat, ?_⟩
  rw [hout, codes_push, List.append_assoc, List.singleton_append]

theorem stringLoop_escape {next : Nat} {c : Char} (fuel : Nat) (out : String)
    (h : At input pos ('\\' :: rest)) (hescape : parseEscape input (pos + 1) = .ok (c, next)) :
    stringLoop input (fuel + 1) out pos = stringLoop input fuel (out.push c) next := by
  rw [stringLoop]
  have hescape' : parseEscape input (pos + Char.utf8Size '\\') = _ := hescape
  simp only [nextChar_cons h, hescape']
  rfl

theorem stringLoop_refused {message : String} (fuel : Nat) (out : String)
    (h : At input pos ('\\' :: rest)) (hescape : parseEscape input (pos + 1) = .error (.err message)) :
    stringLoop input (fuel + 1) out pos = .error (.err message) := by
  rw [stringLoop]
  have hescape' : parseEscape input (pos + Char.utf8Size '\\') = _ := hescape
  simp only [nextChar_cons h, hescape']
  rfl

theorem stringLoop_plain {c : Char} (fuel : Nat) (out : String) (hc : c ≠ '"' ∧ c ≠ '\\')
    (hcontrol : isControl c = false) (h : At input pos (c :: rest)) :
    stringLoop input (fuel + 1) out pos = stringLoop input fuel (out.push c) (pos + c.utf8Size) := by
  rw [stringLoop]
  simp only [nextChar_cons h]
  rw [if_neg hc.1, if_neg hc.2, if_neg (by simp [hcontrol])]

theorem stringLoop_control {c : Char} (fuel : Nat) (out : String) (hc : c ≠ '"' ∧ c ≠ '\\')
    (hcontrol : isControl c = true) (h : At input pos (c :: rest)) :
    ∃ message, stringLoop input (fuel + 1) out pos = .error (.err message) := by
  rw [stringLoop]
  simp only [nextChar_cons h]
  rw [if_neg hc.1, if_neg hc.2, if_pos hcontrol]
  exact ⟨_, rfl⟩

theorem escapeU_append (hex s : List Char) :
    escapeU hex s ++ more = '\\' :: 'u' :: (hex ++ (s ++ more)) := by
  simp only [escapeU, List.cons_append, List.append_assoc]

/-- The loop takes every string of a dialect it covers as the grammar reads it, or refuses it
where the dialect has more than the reader takes. -/
theorem stringLoop_chars {d : Dialect} (hd : Covered d) {s : List Char} {points : List Nat}
    (hchars : Chars d s points) (hmore : d.lone → more.head? ≠ some '\\') (fuel : Nat)
    (out : String) (h : At input pos (s ++ more)) (hfuel : s.length ≤ fuel) :
    Refuses d (stringLoop input fuel out pos) ∨
      RunsThrough input fuel out pos s.length more points ∧ Chars (d.meet lenient) s points := by
  induction hchars generalizing pos fuel out with
  | nil => exact Or.inr ⟨⟨fuel, out, pos, rfl, Nat.le_add_right .., h, by simp⟩, Chars.nil⟩
  | @plain c s points hc hs ih =>
    obtain ⟨fuel, rfl⟩ : ∃ n, fuel = n + 1 := ⟨fuel - 1, by rw [List.length_cons] at hfuel; omega⟩
    rw [List.length_cons] at hfuel
    cases hcontrol : isControl c with
    | true =>
      refine Or.inl ⟨fun haccepted => ?_, stringLoop_control fuel out (hd.plain c hc) hcontrol h⟩
      rw [haccepted.1 c hc] at hcontrol
      cases hcontrol
    | false =>
      have hstep := stringLoop_plain fuel out (hd.plain c hc) hcontrol h
      rcases ih fuel (out.push c) h.next (by omega) with hrefused | ⟨hrun, hmeet⟩
      · rw [hstep]
        exact Or.inl hrefused
      · refine Or.inr ⟨RunsThrough.push hstep (Nat.lt_succ_self _) hrun, Chars.plain ⟨hc, ?_⟩ hmeet⟩
        exact ⟨hcontrol, hd.plain c hc⟩
  | @escape c point s points hc hs ih =>
    obtain ⟨fuel, rfl⟩ : ∃ n, fuel = n + 1 := ⟨fuel - 1, by rw [List.length_cons] at hfuel; omega⟩
    rw [List.length_cons, List.length_cons] at hfuel
    have hat : At input (pos + 1) (c :: (s ++ more)) := h.next_ascii (by decide)
    obtain ⟨x, hescape, rfl⟩ := parseEscape_escaped hc hat
    have hstep := stringLoop_escape fuel out h hescape
    rcases ih fuel (out.push x) hat.next (by omega) with hrefused | ⟨hrun, hmeet⟩
    · rw [hstep]
      exact Or.inl hrefused
    · refine Or.inr ⟨RunsThrough.push hstep ?_ hrun, Chars.escape hc hmeet⟩
      rw [List.length_cons, List.length_cons]
      omega
  | @unicode hex s code points hhex hhigh hlow hs ih =>
    have hlen := (hd.hex4 _ _ hhex).length.1
    have htotal : (escapeU hex s).length = 6 + s.length := by
      simp only [escapeU, List.length_cons, List.length_append]
      omega
    obtain ⟨fuel, rfl⟩ : ∃ n, fuel = n + 1 := ⟨fuel - 1, by omega⟩
    rw [escapeU_append] at h
    have hat := h.next_ascii (by decide)
    have hhexAt := hat.next_ascii (by decide)
    obtain ⟨x, hescape, rfl⟩ := parseUnicodeEscape_single (hd.hex4 _ _ hhex) hhigh hlow hhexAt
    rw [← parseEscape_u hat] at hescape
    have hstep := stringLoop_escape fuel out h hescape
    rcases ih fuel (out.push x) ((hd.hex4 _ _ hhex).skip hhexAt) (by omega) with
      hrefused | ⟨hrun, hmeet⟩
    · rw [hstep]
      exact Or.inl hrefused
    · exact Or.inr ⟨RunsThrough.push hstep (by omega) hrun,
        Chars.unicode ⟨hhex, hd.hex4 _ _ hhex⟩ hhigh hlow hmeet⟩
  | @pair hex hex' s high low points hhex hhigh hhex' hlow hs ih =>
    have hlen := (hd.hex4 _ _ hhex).length.1
    have hlen' := (hd.hex4 _ _ hhex').length.1
    have htotal : (escapeU hex (escapeU hex' s)).length = 12 + s.length := by
      simp only [escapeU, List.length_cons, List.length_append]
      omega
    obtain ⟨fuel, rfl⟩ : ∃ n, fuel = n + 1 := ⟨fuel - 1, by omega⟩
    rw [escapeU_append, escapeU_append] at h
    have hat := h.next_ascii (by decide)
    obtain ⟨x, next, hescape, hpoint, hnext⟩ := parseUnicodeEscape_pair (hd.hex4 _ _ hhex) hhigh
      (hd.hex4 _ _ hhex') hlow (hat.next_ascii (by decide))
    rw [← parseEscape_u hat] at hescape
    have hstep := stringLoop_escape fuel out h hescape
    rw [← hpoint]
    rcases ih fuel (out.push x) hnext (by omega) with hrefused | ⟨hrun, hmeet⟩
    · rw [hstep]
      exact Or.inl hrefused
    · refine Or.inr ⟨RunsThrough.push hstep (by omega) hrun, ?_⟩
      rw [hpoint]
      exact Chars.pair ⟨hhex, hd.hex4 _ _ hhex⟩ hhigh ⟨hhex', hd.hex4 _ _ hhex'⟩ hlow hmeet
  | @lone hex s code points hlone hhex hsurrogate hnext hs ih =>
    have htotal : 0 < (escapeU hex s).length := by
      simp only [escapeU, List.length_cons]
      omega
    obtain ⟨fuel, rfl⟩ : ∃ n, fuel = n + 1 := ⟨fuel - 1, by omega⟩
    rw [escapeU_append] at h
    have hat := h.next_ascii (by decide)
    obtain ⟨message, hescape⟩ := parseUnicodeEscape_lone (hd.hex4 _ _ hhex) hsurrogate
      (fun hhigh => lone_next hd hs (hmore hlone) (hnext hhigh)) (hat.next_ascii (by decide))
    rw [← parseEscape_u hat] at hescape
    exact Or.inl ⟨fun haccepted => haccepted.2 hlone, message, stringLoop_refused fuel out h hescape⟩

/-! ### The call -/

theorem parseString_ok {str : String} (h : At input pos rest)
    (hok : parseString input pos = .ok (str, after)) :
    ∃ s more, rest = '"' :: (s ++ '"' :: more) ∧ At input after more ∧
      Chars lenient s (codes str) := by
  unfold parseString at hok
  cases hquote : expect input '"' pos with
  | error stop =>
    rw [hquote] at hok
    cases hok
  | ok start =>
    rw [hquote] at hok
    obtain ⟨inner, rfl, hat⟩ := expect_ok h (by decide) hquote
    obtain ⟨s, points, more, rfl, hafter, hs, hout⟩ := stringLoop_ok hat hok
    refine ⟨s, more, rfl, hafter, ?_⟩
    rw [hout]
    exact hs

theorem parseString_error (h : At input pos rest) (herr : parseString input pos = .error stop) :
    (∃ message, stop = .err message) ∨ stop = .panic ∧
      ∃ seen more, rest = '"' :: (seen ++ more) ∧ OpenChars seen ∧ Straddles more := by
  unfold parseString at herr
  cases hquote : expect input '"' pos with
  | error stop' =>
    rw [hquote] at herr
    cases herr
    exact Or.inl (expect_error hquote)
  | ok start =>
    rw [hquote] at herr
    obtain ⟨inner, rfl, hat⟩ := expect_ok h (by decide) hquote
    rcases stringLoop_error hat herr with hmessage | ⟨_, hfuel⟩ | ⟨rfl, seen, more, rfl, hs, hrest⟩
    · exact Or.inl hmessage
    · have := length_le_size_input hat
      omega
    · exact Or.inr ⟨rfl, seen, more, rfl, hs, hrest⟩

theorem parseString_exact {d : Dialect} (hd : Covered d) {s : List Char} {points : List Nat}
    (hchars : Chars d s points) (h : At input pos ('"' :: (s ++ '"' :: more))) :
    Refuses d (parseString input pos) ∨ ∃ str after, parseString input pos = .ok (str, after) ∧
      At input after more ∧ codes str = points ∧ Chars (d.meet lenient) s points := by
  have hat := h.next_ascii (by decide)
  have hlen := length_le_size_input hat
  rw [List.length_append] at hlen
  unfold parseString
  rw [expect_cons h (by decide)]
  rcases stringLoop_chars hd hchars (fun _ => by simp) (size input + 1) "" hat
    (by omega) with hrefused | ⟨⟨fuel, out, next, hrun, hfuel, hnext, hout⟩, hmeet⟩
  · exact Or.inl hrefused
  · obtain ⟨fuel, rfl⟩ : ∃ n, fuel = n + 1 := ⟨fuel - 1, by omega⟩
    refine Or.inr ⟨out, _, ?_, hnext.next, hout, hmeet⟩
    simp only [hrun]
    rw [stringLoop]
    simp only [nextChar_cons hnext, if_true]

/-- Inside an escape that ends within a character the call panics. -/
theorem parseString_panic {seen : List Char} (hseen : OpenChars seen) (hrest : Straddles rest)
    (h : At input pos ('"' :: (seen ++ rest))) : parseString input pos = .error .panic := by
  have hat := h.next_ascii (by decide)
  have hlen := length_le_size_input hat
  have hthrough : ∀ {s : List Char} {points : List Nat} {tail : List Char}, Chars lenient s points →
      At input (pos + 1) (s ++ '\\' :: 'u' :: tail) →
      (∀ next, At input next tail → parseUnicodeEscape input next = .error .panic) →
      stringLoop input (size input + 1) "" (pos + 1) = .error .panic := by
    intro s points tail hs hstart hpanic
    have hlong := length_le_size_input hstart
    rw [List.length_append] at hlong
    rcases stringLoop_chars covered_lenient hs (fun hlone => hlone.elim)
      (size input + 1) "" hstart (by omega) with hrefused | ⟨⟨fuel, out, next, hrun, hfuel, hnext, _⟩, _⟩
    · exact absurd accepted_lenient hrefused.1
    · obtain ⟨fuel, rfl⟩ : ∃ n, fuel = n + 1 := ⟨fuel - 1, by omega⟩
      have hu := hnext.next_ascii (by decide)
      have hescape : parseEscape input (next + Char.utf8Size '\\') = .error .panic :=
        (parseEscape_u hu).trans (hpanic _ (hu.next_ascii (by decide)))
      rw [hrun, stringLoop]
      simp only [nextChar_cons hnext, hescape]
      rfl
  unfold parseString
  rw [expect_cons h (by decide)]
  cases hseen with
  | single hs =>
    rw [List.append_assoc] at hat
    refine hthrough hs hat fun next hnext => ?_
    unfold parseUnicodeEscape
    rw [parseHex4_panic hrest hnext]
  | @second s hex points code hs hhex hhigh =>
    rw [List.append_assoc, escapeU_append] at hat
    refine hthrough hs hat fun next hnext => ?_
    have hsecond := hhex.skip hnext
    unfold parseUnicodeEscape
    unfold IsHigh at hhigh
    simp only [parseHex4_exact hhex hnext]
    rw [if_pos hhigh, secondEscape_cons hsecond]
    have hpanic : parseHex4 input (next + 4 + 1 + 1) = .error .panic :=
      parseHex4_panic hrest hsecond.next.next
    simp only [hpanic]

end TkbCherry.Jsonlite
