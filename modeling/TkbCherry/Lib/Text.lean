import Mathlib

/-!
# Text

Trimming by the Unicode property `White_Space` and the letter case of ASCII.
-/

namespace Text

set_option autoImplicit false

/-- The characters with the property `White_Space`. -/
def isWhiteSpace (c : Char) : Bool :=
  let n := c.toNat
  decide (9 ≤ n ∧ n ≤ 13) || decide (n = 32) || decide (n = 133) || decide (n = 160) ||
    decide (n = 5760) || decide (8192 ≤ n ∧ n ≤ 8202) || decide (n = 8232) || decide (n = 8233) ||
    decide (n = 8239) || decide (n = 8287) || decide (n = 12288)

/-- `str::trim`. -/
def trim (s : String) : String :=
  String.ofList ((s.toList.dropWhile isWhiteSpace).reverse.dropWhile isWhiteSpace).reverse

/-- Trimming leaves a text that has nothing to trim. -/
@[simp] theorem trim_trim (s : String) : trim (trim s) = trim s := by
  let inner := s.toList.dropWhile isWhiteSpace
  let outer := (inner.reverse.dropWhile isWhiteSpace).reverse
  have hback : outer.reverse.dropWhile isWhiteSpace = outer.reverse := by
    simp [outer, List.dropWhile_idempotent]
  have hfront : outer.dropWhile isWhiteSpace = outer := by
    have hpre : outer <+: inner := List.rdropWhile_prefix isWhiteSpace inner
    have hinner : inner.dropWhile isWhiteSpace = inner := List.dropWhile_idempotent ..
    rw [List.dropWhile_eq_self_iff] at hinner ⊢
    intro hpos
    have hget := hinner (by have := hpre.length_le; omega)
    rwa [hpre.getElem hpos]
  have htrim : (trim s).toList = outer := by simp [trim, outer, inner]
  unfold trim at htrim ⊢
  rw [htrim, hfront, hback, List.reverse_reverse]

/-- `str::to_ascii_lowercase`. -/
def toAsciiLowercase (s : String) : String := String.ofList (s.toList.map Char.toLower)

@[simp] theorem toAsciiLowercase_toAsciiLowercase (s : String) :
    toAsciiLowercase (toAsciiLowercase s) = toAsciiLowercase s := by
  unfold toAsciiLowercase
  rw [String.toList_ofList, List.map_map]
  exact congrArg String.ofList (List.map_congr_left fun c _ => Char.toLower_toLower_eq_toLower c)

/-- A text without white space has nothing to trim. -/
theorem trim_eq_self {s : String} (h : ∀ c ∈ s.toList, isWhiteSpace c = false) : trim s = s := by
  have hdrop : ∀ l : List Char, (∀ c ∈ l, isWhiteSpace c = false) → l.dropWhile isWhiteSpace = l := by
    intro l hl
    cases l with
    | nil => rfl
    | cons c rest =>
      exact List.dropWhile_cons_of_neg (by rw [hl c List.mem_cons_self]; exact Bool.false_ne_true)
  unfold trim
  rw [hdrop _ h, hdrop _ fun c hc => h c (List.mem_reverse.mp hc), List.reverse_reverse,
    String.ofList_toList]

/-- `str::as_bytes`. -/
def bytes (s : String) : List UInt8 := s.toList.flatMap String.utf8EncodeChar

/-- `u8::is_ascii_digit`. -/
def isAsciiDigit (b : UInt8) : Bool := decide (48 ≤ b) && decide (b ≤ 57)

/-- `u8::is_ascii_hexdigit`. -/
def isAsciiHexdigit (b : UInt8) : Bool :=
  isAsciiDigit b || (decide (65 ≤ b) && decide (b ≤ 70)) || (decide (97 ≤ b) && decide (b ≤ 102))

/-- `char::is_ascii_alphanumeric`. -/
def isAsciiAlphanumeric (c : Char) : Bool := c.isAlphanum

theorem isWhiteSpace_of_alphanumeric {c : Char} (h : isAsciiAlphanumeric c = true) :
    isWhiteSpace c = false := by
  unfold isAsciiAlphanumeric Char.isAlphanum Char.isAlpha Char.isUpper Char.isLower Char.isDigit at h
  unfold isWhiteSpace
  simp only [Char.toNat, Bool.or_eq_true, Bool.and_eq_true, decide_eq_true_eq,
    Bool.or_eq_false_iff, decide_eq_false_iff_not, ge_iff_le, UInt32.le_iff_toNat_le] at h ⊢
  simp at h ⊢
  omega

end Text
