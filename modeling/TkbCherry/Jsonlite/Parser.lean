import TkbCherry.Lib.Utf8
import TkbCherry.Lib.JsonGrammar

/-!
# The JSON reader

`jsonlite::parse_json` over a text and a byte position. The loops and the recursion carry fuel;
`parseJson` starts them with more than the text can use up. A slice that is not on boundaries of
characters is a panic.
-/

namespace TkbCherry.Jsonlite

set_option autoImplicit false

open Utf8

/-- A number is kept as its source text. -/
inductive JsonValue where
  | null
  | bool (b : Bool)
  | number (raw : List Char)
  | string (s : String)
  | array (items : List JsonValue)
  | object (items : List (String × JsonValue))
deriving Repr

/-- Why a call comes back without a value. -/
inductive Stop where
  | err (message : String)
  | panic
  | outOfFuel
deriving DecidableEq, Repr

/-- A value and the position after it. -/
abbrev Parsed (α : Type) := Except Stop (α × Nat)

def fail {α : Type} (message : String) : Except Stop α := .error (.err message)

/-- A byte literal. -/
def byte (c : Char) : UInt8 := UInt8.ofNat c.toNat

/-- `ch as char`. -/
def asChar (b : UInt8) : Char := Char.ofNat b.toNat

section

variable (input : List Char)

/-! ### Bytes and characters -/

def peek (pos : Nat) : Option UInt8 := (encode input)[pos]?

/-- The position after the expected byte, when it is there. -/
def consume (expected : Char) (pos : Nat) : Option Nat :=
  if peek input pos = some (byte expected) then some (pos + 1) else none

def expect (expected : Char) (pos : Nat) : Except Stop Nat :=
  match consume input expected pos with
  | some pos => .ok pos
  | none => fail ("expected '" ++ expected.toString ++ "' at byte " ++ toString pos)

/-- `while matches!(self.peek(), ..) self.pos += 1`. -/
def scanWhile (test : UInt8 → Bool) : Nat → Nat → Nat
  | 0, pos => pos
  | fuel + 1, pos =>
    match peek input pos with
    | some b => if test b then scanWhile test fuel (pos + 1) else pos
    | none => pos

def isDigitByte (b : UInt8) : Bool := decide (byte '0' ≤ b) && decide (b ≤ byte '9')

def isWsByte (b : UInt8) : Bool :=
  b == byte ' ' || b == byte '\n' || b == byte '\r' || b == byte '\t'

def skipWs (pos : Nat) : Nat := scanWhile input isWsByte (size input) pos

def takeDigits (pos : Nat) : Nat := scanWhile input isDigitByte (size input) pos

def nextChar (pos : Nat) : Option (Char × Nat) :=
  match suffixAt input pos with
  | some (c :: _) => some (c, pos + c.utf8Size)
  | _ => none

/-! ### Literals and numbers -/

def parseLiteral (literal : String) (value : JsonValue) (pos : Nat) : Parsed JsonValue :=
  if ((encode input).drop pos).take (size literal.toList) = encode literal.toList then
    .ok (value, pos + size literal.toList)
  else fail ("invalid literal at byte " ++ toString pos)

def afterSign (text : List Char) : List Char :=
  match text with
  | c :: rest => if c = '-' ∨ c = '+' then rest else text
  | [] => []

def digitsToEnd (text : List Char) : Bool :=
  !text.isEmpty && text.all JsonGrammar.isDigit

/-- The digits after a point, and what follows. -/
def fractionOf (text : List Char) : List Char × List Char :=
  match text with
  | '.' :: rest => (rest.takeWhile JsonGrammar.isDigit, rest.dropWhile JsonGrammar.isDigit)
  | _ => ([], text)

def exponentOk (text : List Char) : Bool :=
  match text with
  | [] => true
  | e :: rest => (e == 'e' || e == 'E') && digitsToEnd (afterSign rest)

/-- `raw.parse::<f64>().is_ok()` for a text without the letters of `inf` and `nan`: digits on one
side of the point at least, and digits in the exponent. -/
def parsesAsF64 (raw : List Char) : Bool :=
  let whole := afterSign raw
  let int := whole.takeWhile JsonGrammar.isDigit
  let (frac, tail) := fractionOf (whole.dropWhile JsonGrammar.isDigit)
  (!int.isEmpty || !frac.isEmpty) && exponentOk tail

/-- The position after the point and its digits, when there is a point. -/
def fractionEnd (pos : Nat) : Nat :=
  match consume input '.' pos with
  | some pos => takeDigits input pos
  | none => pos

/-- The position after the exponent, when there is one. -/
def exponentEnd (pos : Nat) : Nat :=
  if peek input pos = some (byte 'e') ∨ peek input pos = some (byte 'E') then
    let pos := pos + 1
    let pos := if peek input pos = some (byte '+') ∨ peek input pos = some (byte '-') then pos + 1
      else pos
    takeDigits input pos
  else pos

/-- The position up to which `parse_number` scans. -/
def numberEnd (start : Nat) : Nat :=
  let pos := (consume input '-' start).getD start
  exponentEnd input (fractionEnd input (takeDigits input pos))

def parseNumber (start : Nat) : Parsed JsonValue :=
  let pos := numberEnd input start
  match slice input start pos with
  | none => .error .panic
  | some raw =>
    if parsesAsF64 raw then .ok (.number raw, pos)
    else fail ("invalid number " ++ String.ofList raw)

/-! ### Strings -/

/-- The number that hexadecimal digits write, from the left. -/
def hexFold (n : Nat) (digits : List Char) : Option Nat :=
  digits.foldlM (fun n c => (JsonGrammar.hexDigit c).map fun d => n * 16 + d) n

def u16OfDigits (digits : List Char) : Option Nat :=
  if digits.isEmpty then none
  else (hexFold 0 digits).bind fun code => if code < 65536 then some code else none

/-- `u16::from_str_radix(raw, 16)`, which takes a leading plus sign. -/
def u16FromHex (raw : List Char) : Option Nat :=
  match raw with
  | '+' :: digits => u16OfDigits digits
  | _ => u16OfDigits raw

/-- `char::from_u32`. -/
def charFromU32 (code : Nat) : Option Char :=
  if code.isValidChar then some (Char.ofNat code) else none

/-- `char::is_control`, the category `Cc`. -/
def isControl (c : Char) : Bool :=
  decide (c.toNat < 32) || (decide (127 ≤ c.toNat) && decide (c.toNat < 160))

def parseHex4 (pos : Nat) : Parsed Nat :=
  if size input < pos + 4 then fail "short unicode escape"
  else
    match slice input pos (pos + 4) with
    | none => .error .panic
    | some raw =>
      match u16FromHex raw with
      | some code => .ok (code, pos + 4)
      | none => fail ("invalid unicode escape " ++ String.ofList raw)

/-- The character of a code that is no half of a pair. -/
def singleEscape (code pos : Nat) : Parsed Char :=
  match charFromU32 code with
  | some c => .ok (c, pos)
  | none => fail "invalid unicode escape"

/-- The position after a backslash and a `u`. -/
def secondEscape (pos : Nat) : Option Nat :=
  match nextChar input pos with
  | some ('\\', pos) =>
    match nextChar input pos with
    | some ('u', pos) => some pos
    | _ => none
  | _ => none

def parseUnicodeEscape (pos : Nat) : Parsed Char :=
  match parseHex4 input pos with
  | .error stop => .error stop
  | .ok (code, checkpoint) =>
    if 0xD800 ≤ code ∧ code ≤ 0xDBFF then
      match secondEscape input checkpoint with
      | none => singleEscape code checkpoint
      | some pos =>
        match parseHex4 input pos with
        | .error stop => .error stop
        | .ok (low, pos) =>
          if 0xDC00 ≤ low ∧ low ≤ 0xDFFF then
            match charFromU32 (0x10000 + (code - 0xD800) * 1024 + (low - 0xDC00)) with
            | some c => .ok (c, pos)
            | none => fail "invalid unicode scalar"
          else singleEscape code checkpoint
    else singleEscape code checkpoint

def parseEscape (pos : Nat) : Parsed Char :=
  match nextChar input pos with
  | none => fail "unterminated JSON escape"
  | some (c, pos) =>
    if c = '"' ∨ c = '\\' ∨ c = '/' then .ok (c, pos)
    else if c = 'b' then .ok (Char.ofNat 0x08, pos)
    else if c = 'f' then .ok (Char.ofNat 0x0c, pos)
    else if c = 'n' then .ok ('\n', pos)
    else if c = 'r' then .ok ('\r', pos)
    else if c = 't' then .ok ('\t', pos)
    else if c = 'u' then parseUnicodeEscape input pos
    else fail ("invalid JSON escape \\" ++ c.toString)

/-- The loop of `parse_string`. -/
def stringLoop : Nat → String → Nat → Parsed String
  | 0, _, _ => .error .outOfFuel
  | fuel + 1, out, pos =>
    match nextChar input pos with
    | none => fail "unterminated JSON string"
    | some (c, pos) =>
      if c = '"' then .ok (out, pos)
      else if c = '\\' then
        match parseEscape input pos with
        | .error stop => .error stop
        | .ok (c, pos) => stringLoop fuel (out.push c) pos
      else if isControl c then fail ("control char in JSON string at byte " ++ toString pos)
      else stringLoop fuel (out.push c) pos

def parseString (pos : Nat) : Parsed String :=
  match expect input '"' pos with
  | .error stop => .error stop
  | .ok pos => stringLoop input (size input + 1) "" pos

/-! ### Values -/

/-- `self.parse_string().map(JsonValue::String)`. -/
def stringValue : Parsed String → Parsed JsonValue
  | .error stop => .error stop
  | .ok (s, pos) => .ok (.string s, pos)

mutual

def parseValue : Nat → Nat → Parsed JsonValue
  | 0, _ => .error .outOfFuel
  | fuel + 1, pos =>
    let pos := skipWs input pos
    match peek input pos with
    | none => fail "unexpected end of JSON"
    | some b =>
      if b = byte 'n' then parseLiteral input "null" .null pos
      else if b = byte 't' then parseLiteral input "true" (.bool true) pos
      else if b = byte 'f' then parseLiteral input "false" (.bool false) pos
      else if b = byte '"' then stringValue (parseString input pos)
      else if b = byte '[' then (expect input '[' pos).bind (arrayLoop fuel [])
      else if b = byte '\x7b' then (expect input '\x7b' pos).bind (objectLoop fuel [])
      else if b = byte '-' ∨ isDigitByte b then parseNumber input pos
      else fail ("unexpected JSON byte '" ++ (asChar b).toString ++ "' at " ++ toString pos)

/-- The loop of `parse_array`. -/
def arrayLoop : Nat → List JsonValue → Nat → Parsed JsonValue
  | 0, _, _ => .error .outOfFuel
  | fuel + 1, items, pos =>
    let pos := skipWs input pos
    match consume input ']' pos with
    | some pos => .ok (.array items, pos)
    | none =>
      match parseValue fuel pos with
      | .error stop => .error stop
      | .ok (value, pos) =>
        let pos := skipWs input pos
        match consume input ']' pos with
        | some pos => .ok (.array (items ++ [value]), pos)
        | none =>
          match expect input ',' pos with
          | .error stop => .error stop
          | .ok pos => arrayLoop fuel (items ++ [value]) pos

/-- The loop of `parse_object`. -/
def objectLoop : Nat → List (String × JsonValue) → Nat → Parsed JsonValue
  | 0, _, _ => .error .outOfFuel
  | fuel + 1, items, pos =>
    let pos := skipWs input pos
    match consume input '\x7d' pos with
    | some pos => .ok (.object items, pos)
    | none =>
      match parseString input pos with
      | .error stop => .error stop
      | .ok (key, pos) =>
        match expect input ':' (skipWs input pos) with
        | .error stop => .error stop
        | .ok pos =>
          match parseValue fuel pos with
          | .error stop => .error stop
          | .ok (value, pos) =>
            let pos := skipWs input pos
            match consume input '\x7d' pos with
            | some pos => .ok (.object (items ++ [(key, value)]), pos)
            | none =>
              match expect input ',' pos with
              | .error stop => .error stop
              | .ok pos => objectLoop fuel (items ++ [(key, value)]) pos

end

end

/-- Every pass through `parseValue` or a loop gives back two units for each byte it reads. -/
def fuelFor (input : List Char) : Nat := 2 * size input + 2

def parseJson (input : String) : Except Stop JsonValue :=
  let text := input.toList
  match parseValue text (fuelFor text) 0 with
  | .error stop => .error stop
  | .ok (value, pos) =>
    let pos := skipWs text pos
    if pos = size text then .ok value
    else fail ("unexpected trailing JSON at byte " ++ toString pos)

end TkbCherry.Jsonlite
