import Mathlib

/-!
# The grammar of JSON texts

The grammar of RFC 8259 over characters, with the places where readers of JSON differ taken as
parameters: a comma before a closing bracket, the syntax of numbers, the characters that stand for
themselves in a string, the four characters of a `\u` escape, and surrogates without a partner.
Numbers keep their source text. A string is a list of code points, so that a surrogate without a
partner has a value.
-/

namespace JsonGrammar

set_option autoImplicit false

/-- What a text denotes. -/
inductive Tree where
  | null
  | bool (b : Bool)
  | number (text : List Char)
  | string (points : List Nat)
  | array (items : List Tree)
  | object (members : List (List Nat × Tree))

/-- Where readers of JSON differ. -/
structure Dialect where
  trailingComma : Prop
  number : List Char → Prop
  plain : Char → Prop
  hex4 : List Char → Nat → Prop
  lone : Prop

/-! ### Characters -/

def isWs (c : Char) : Bool := c == ' ' || c == '\n' || c == '\r' || c == '\t'

def Ws (s : List Char) : Prop := ∀ c ∈ s, isWs c = true

def isDigit (c : Char) : Bool := decide (48 ≤ c.toNat ∧ c.toNat ≤ 57)

/-- The value of a hexadecimal digit. -/
def hexDigit (c : Char) : Option Nat :=
  let n := c.toNat
  if 48 ≤ n ∧ n ≤ 57 then some (n - 48)
  else if 65 ≤ n ∧ n ≤ 70 then some (n - 55)
  else if 97 ≤ n ∧ n ≤ 102 then some (n - 87)
  else none

/-- The characters after a backslash that are no `u`, and what they stand for. -/
def escaped (c : Char) : Option Nat :=
  if c = '"' ∨ c = '\\' ∨ c = '/' then some c.toNat
  else if c = 'b' then some 8
  else if c = 'f' then some 12
  else if c = 'n' then some 10
  else if c = 'r' then some 13
  else if c = 't' then some 9
  else none

/-- The value of four hexadecimal digits. -/
def hexValue (a b c d : Nat) : Nat := a * 4096 + b * 256 + c * 16 + d

def IsHigh (code : Nat) : Prop := 0xD800 ≤ code ∧ code ≤ 0xDBFF

def IsLow (code : Nat) : Prop := 0xDC00 ≤ code ∧ code ≤ 0xDFFF

instance (code : Nat) : Decidable (IsHigh code) := inferInstanceAs (Decidable (_ ∧ _))

instance (code : Nat) : Decidable (IsLow code) := inferInstanceAs (Decidable (_ ∧ _))

/-- The code point of a surrogate pair. -/
def pairPoint (high low : Nat) : Nat := 0x10000 + (high - 0xD800) * 1024 + (low - 0xDC00)

/-- An escape `\uXXXX`. -/
def escapeU (hex : List Char) (rest : List Char) : List Char := '\\' :: 'u' :: (hex ++ rest)

/-! ### Numbers -/

/-- The pieces of a number, in order. -/
structure Numeral where
  minus : List Char
  int : List Char
  point : List Char
  frac : List Char
  mark : List Char
  sign : List Char
  exp : List Char

namespace Numeral

/-- The exponent. -/
def tail (m : Numeral) : List Char := m.mark ++ (m.sign ++ m.exp)

def text (m : Numeral) : List Char := m.minus ++ (m.int ++ (m.point ++ (m.frac ++ m.tail)))

/-- Each piece has its characters; any piece of digits may still be empty. -/
structure Shaped (m : Numeral) : Prop where
  minus : m.minus = [] ∨ m.minus = ['-']
  int : ∀ c ∈ m.int, isDigit c = true
  point : m.point = [] ∧ m.frac = [] ∨ m.point = ['.']
  frac : ∀ c ∈ m.frac, isDigit c = true
  mark : m.mark = [] ∧ m.sign = [] ∧ m.exp = [] ∨ m.mark = ['e'] ∨ m.mark = ['E']
  sign : m.sign = [] ∨ m.sign = ['+'] ∨ m.sign = ['-']
  exp : ∀ c ∈ m.exp, isDigit c = true

/-- The numbers of RFC 8259: no leading zero, and digits wherever the syntax has a place for
them. -/
structure Strict (m : Numeral) : Prop extends m.Shaped where
  some_int : m.int ≠ []
  no_leading_zero : m.int.head? = some '0' → m.int = ['0']
  some_frac : m.point ≠ [] → m.frac ≠ []
  some_exp : m.mark ≠ [] → m.exp ≠ []

end Numeral

/-! ### Derivations -/

/-- The characters between the quotes of a string. -/
inductive Chars (d : Dialect) : List Char → List Nat → Prop where
  | nil : Chars d [] []
  | plain {c : Char} {s : List Char} {points : List Nat} : d.plain c → Chars d s points →
      Chars d (c :: s) (c.toNat :: points)
  | escape {c : Char} {point : Nat} {s : List Char} {points : List Nat} :
      escaped c = some point → Chars d s points → Chars d ('\\' :: c :: s) (point :: points)
  | unicode {hex s : List Char} {code : Nat} {points : List Nat} : d.hex4 hex code →
      ¬ IsHigh code → ¬ IsLow code → Chars d s points → Chars d (escapeU hex s) (code :: points)
  | pair {hex hex' s : List Char} {high low : Nat} {points : List Nat} : d.hex4 hex high →
      IsHigh high → d.hex4 hex' low → IsLow low → Chars d s points →
      Chars d (escapeU hex (escapeU hex' s)) (pairPoint high low :: points)
  /-- A surrogate without a partner; two that make a pair are one. -/
  | lone {hex s : List Char} {code : Nat} {points : List Nat} : d.lone → d.hex4 hex code →
      IsHigh code ∨ IsLow code →
      (IsHigh code → ∀ hex' low s', d.hex4 hex' low → IsLow low → s ≠ escapeU hex' s') →
      Chars d s points → Chars d (escapeU hex s) (code :: points)

/-- The parts of a text that contain one another. -/
inductive Symbol where
  | value
  | elements
  | members

/-- What a part denotes. -/
abbrev Symbol.Out : Symbol → Type
  | .value => Tree
  | .elements => List Tree
  | .members => List (List Nat × Tree)

/-- `elements` and `members` are what stands between the brackets, when it is not only white
space. -/
inductive Derives (d : Dialect) : (k : Symbol) → List Char → k.Out → Prop where
  | null : Derives d .value ['n', 'u', 'l', 'l'] .null
  | true : Derives d .value ['t', 'r', 'u', 'e'] (.bool true)
  | false : Derives d .value ['f', 'a', 'l', 's', 'e'] (.bool false)
  | number {raw : List Char} : d.number raw → Derives d .value raw (.number raw)
  | string {s : List Char} {points : List Nat} : Chars d s points →
      Derives d .value ('"' :: (s ++ ['"'])) (.string points)
  | emptyArray {w : List Char} : Ws w → Derives d .value ('[' :: (w ++ [']'])) (.array [])
  | array {s : List Char} {items : List Tree} : Derives d .elements s items →
      Derives d .value ('[' :: (s ++ [']'])) (.array items)
  | emptyObject {w : List Char} : Ws w → Derives d .value ('\x7b' :: (w ++ ['\x7d'])) (.object [])
  | object {s : List Char} {items : List (List Nat × Tree)} : Derives d .members s items →
      Derives d .value ('\x7b' :: (s ++ ['\x7d'])) (.object items)
  | element {w s w' : List Char} {v : Tree} : Ws w → Derives d .value s v → Ws w' →
      Derives d .elements (w ++ (s ++ w')) [v]
  | elementComma {w s w' w'' : List Char} {v : Tree} : d.trailingComma → Ws w →
      Derives d .value s v → Ws w' → Ws w'' → Derives d .elements (w ++ (s ++ (w' ++ ',' :: w''))) [v]
  | elements {w s w' rest : List Char} {v : Tree} {items : List Tree} : Ws w →
      Derives d .value s v → Ws w' → Derives d .elements rest items →
      Derives d .elements (w ++ (s ++ (w' ++ ',' :: rest))) (v :: items)
  | member {w key w' w'' s w3 : List Char} {points : List Nat} {v : Tree} : Ws w →
      Chars d key points → Ws w' → Ws w'' → Derives d .value s v → Ws w3 →
      Derives d .members (w ++ '"' :: (key ++ '"' :: (w' ++ ':' :: (w'' ++ (s ++ w3))))) [(points, v)]
  | memberComma {w key w' w'' s w3 w4 : List Char} {points : List Nat} {v : Tree} :
      d.trailingComma → Ws w → Chars d key points → Ws w' → Ws w'' → Derives d .value s v → Ws w3 →
      Ws w4 → Derives d .members
        (w ++ '"' :: (key ++ '"' :: (w' ++ ':' :: (w'' ++ (s ++ (w3 ++ ',' :: w4)))))) [(points, v)]
  | members {w key w' w'' s w3 rest : List Char} {points : List Nat} {v : Tree}
      {items : List (List Nat × Tree)} : Ws w → Chars d key points → Ws w' → Ws w'' →
      Derives d .value s v → Ws w3 → Derives d .members rest items → Derives d .members
        (w ++ '"' :: (key ++ '"' :: (w' ++ ':' :: (w'' ++ (s ++ (w3 ++ ',' :: rest))))))
          ((points, v) :: items)

/-- A text denotes a tree. -/
def Denotes (d : Dialect) (text : List Char) (v : Tree) : Prop :=
  ∃ w s w', text = w ++ (s ++ w') ∧ Ws w ∧ Derives d .value s v ∧ Ws w'

def IsText (d : Dialect) (text : List Char) : Prop := ∃ v, Denotes d text v

/-! ### Dialects -/

/-- RFC 8259. A surrogate without a partner is not excluded by its grammar. -/
def rfc : Dialect where
  trailingComma := False
  number raw := ∃ m : Numeral, m.Strict ∧ m.text = raw
  plain c := 32 ≤ c.toNat ∧ c ≠ '"' ∧ c ≠ '\\'
  hex4 s code := ∃ a b c d a' b' c' d', s = [a, b, c, d] ∧ hexDigit a = some a' ∧
    hexDigit b = some b' ∧ hexDigit c = some c' ∧ hexDigit d = some d' ∧
    code = hexValue a' b' c' d'
  lone := True

/-- What two dialects share. -/
def Dialect.meet (d e : Dialect) : Dialect where
  trailingComma := d.trailingComma ∧ e.trailingComma
  number raw := d.number raw ∧ e.number raw
  plain c := d.plain c ∧ e.plain c
  hex4 s code := d.hex4 s code ∧ e.hex4 s code
  lone := d.lone ∧ e.lone

/-- Every text of the first dialect is one of the second, with the same tree. -/
structure Dialect.Within (d e : Dialect) : Prop where
  trailingComma : d.trailingComma → e.trailingComma
  number : ∀ raw, d.number raw → e.number raw
  plain : ∀ c, d.plain c → e.plain c
  hex4 : ∀ s code, d.hex4 s code → e.hex4 s code
  lone : ¬ d.lone

theorem Dialect.meet_within (d e : Dialect) (h : ¬ e.lone) : (d.meet e).Within d :=
  ⟨And.left, fun _ => And.left, fun _ => And.left, fun _ _ => And.left, fun hlone => h hlone.2⟩

section

variable {d e : Dialect} (hwithin : d.Within e)

include hwithin

theorem Chars.mono {s : List Char} {points : List Nat} (h : Chars d s points) : Chars e s points := by
  induction h with
  | nil => exact Chars.nil
  | plain hc _ ih => exact Chars.plain (hwithin.plain _ hc) ih
  | escape hc _ ih => exact Chars.escape hc ih
  | unicode hhex hhigh hlow _ ih => exact Chars.unicode (hwithin.hex4 _ _ hhex) hhigh hlow ih
  | pair hhex hhigh hhex' hlow _ ih =>
    exact Chars.pair (hwithin.hex4 _ _ hhex) hhigh (hwithin.hex4 _ _ hhex') hlow ih
  | lone hlone => exact absurd hlone hwithin.lone

theorem Derives.mono {k : Symbol} {src : List Char} {out : k.Out} (h : Derives d k src out) :
    Derives e k src out := by
  induction h with
  | null => exact Derives.null
  | true => exact Derives.true
  | false => exact Derives.false
  | number hraw => exact Derives.number (hwithin.number _ hraw)
  | string hs => exact Derives.string (hs.mono hwithin)
  | emptyArray hw => exact Derives.emptyArray hw
  | array _ ih => exact Derives.array ih
  | emptyObject hw => exact Derives.emptyObject hw
  | object _ ih => exact Derives.object ih
  | element hw _ hw' ih => exact Derives.element hw ih hw'
  | elementComma hcomma hw _ hw' hw'' ih =>
    exact Derives.elementComma (hwithin.trailingComma hcomma) hw ih hw' hw''
  | elements hw _ hw' _ ih ihtail => exact Derives.elements hw ih hw' ihtail
  | member hw hkey hw' hw'' _ hw3 ih =>
    exact Derives.member hw (hkey.mono hwithin) hw' hw'' ih hw3
  | memberComma hcomma hw hkey hw' hw'' _ hw3 hw4 ih =>
    exact Derives.memberComma (hwithin.trailingComma hcomma) hw (hkey.mono hwithin) hw' hw'' ih hw3
      hw4
  | members hw hkey hw' hw'' _ hw3 _ ih ihtail =>
    exact Derives.members hw (hkey.mono hwithin) hw' hw'' ih hw3 ihtail

theorem Denotes.mono {text : List Char} {v : Tree} (h : Denotes d text v) : Denotes e text v := by
  obtain ⟨w, s, w', htext, hw, hs, hw'⟩ := h
  exact ⟨w, s, w', htext, hw, hs.mono hwithin, hw'⟩

end

end JsonGrammar
