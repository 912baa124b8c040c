import TkbCherry.Jsonlite.Parser

/-!
# The primitives of the reader at a boundary

What each primitive does is said by the characters that remain.
-/

namespace TkbCherry.Jsonlite

set_option autoImplicit false

open Utf8

variable {input rest : List Char} {pos : Nat}

theorem byte_toNat {c : Char} (hc : c.toNat < 128) : (byte c).toNat = c.toNat := by
  rw [byte, UInt8.toNat_ofNat', Nat.mod_eq_of_lt (by omega)]

theorem byte_inj {b c : Char} (hb : b.toNat < 128) (hc : c.toNat < 128) (h : byte b = byte c) :
    b = c := by
  have hnat := congrArg UInt8.toNat h
  rw [byte_toNat hb, byte_toNat hc] at hnat
  exact Char.toNat_inj.mp hnat

theorem peek_nil (h : At input pos []) : peek input pos = none := by
  rw [peek, h.getElem?]
  rfl

theorem peek_cons {c : Char} (h : At input pos (c :: rest)) (hc : c.toNat < 128) :
    peek input pos = some (byte c) := by
  rw [peek, h.getElem?, encode_cons_head c rest (by rw [byte_toNat hc]; exact hc), byte_toNat hc]

/-- An ASCII byte is at a boundary exactly when its character is next. -/
theorem peek_iff {c : Char} (h : At input pos rest) (hc : c.toNat < 128) :
    peek input pos = some (byte c) ↔ rest.head? = some c := by
  cases rest with
  | nil => simp [peek_nil h]
  | cons d rest =>
    rw [peek, h.getElem?, encode_cons_head d rest (by rw [byte_toNat hc]; exact hc), byte_toNat hc,
      List.head?_cons, Option.some.injEq]
    exact Char.toNat_inj

theorem peek_none {input rest : List Char} {pos : Nat} (h : At input pos rest)
    (hnone : peek input pos = none) : rest = [] := by
  cases rest with
  | nil => rfl
  | cons c rest =>
    rw [peek, h.getElem?, encode_cons] at hnone
    have hlen := String.length_utf8EncodeChar c
    have hpos := c.utf8Size_pos
    rw [List.getElem?_eq_none_iff, List.length_append] at hnone
    omega

/-- A byte beyond ASCII belongs to a character beyond ASCII. -/
theorem peek_wide {c : Char} (h : At input pos (c :: rest)) (hc : 128 ≤ c.toNat) :
    ∃ b, peek input pos = some b ∧ 128 ≤ b.toNat := by
  obtain ⟨b, more, henc, hb⟩ := encodeChar_head hc
  refine ⟨b, ?_, hb⟩
  rw [peek, h.getElem?, encode_cons, henc]
  rfl

theorem consume_cons {c : Char} (h : At input pos (c :: rest)) (hc : c.toNat < 128) :
    consume input c pos = some (pos + 1) := if_pos (peek_cons h hc)

theorem consume_none {c : Char} (h : At input pos rest) (hc : c.toNat < 128)
    (hne : rest.head? ≠ some c) : consume input c pos = none :=
  if_neg fun hpeek => hne ((peek_iff h hc).mp hpeek)

theorem consume_some {c : Char} {pos' : Nat} (h : At input pos rest) (hc : c.toNat < 128)
    (hsome : consume input c pos = some pos') :
    ∃ rest', rest = c :: rest' ∧ At input pos' rest' := by
  unfold consume at hsome
  by_cases hpeek : peek input pos = some (byte c)
  · rw [if_pos hpeek] at hsome
    obtain rfl := Option.some.inj hsome
    obtain ⟨rest', rfl⟩ := List.head?_eq_some_iff.mp ((peek_iff h hc).mp hpeek)
    exact ⟨rest', rfl, h.next_ascii hc⟩
  · rw [if_neg hpeek] at hsome
    cases hsome

theorem consume_eq_none {c : Char} (h : At input pos rest) (hc : c.toNat < 128)
    (hnone : consume input c pos = none) : rest.head? ≠ some c := by
  intro hhead
  rw [consume, if_pos ((peek_iff h hc).mpr hhead)] at hnone
  cases hnone

theorem expect_cons {c : Char} (h : At input pos (c :: rest)) (hc : c.toNat < 128) :
    expect input c pos = .ok (pos + 1) := by
  rw [expect, consume_cons h hc]

theorem expect_ok {c : Char} {pos' : Nat} (h : At input pos rest) (hc : c.toNat < 128)
    (hok : expect input c pos = .ok pos') : ∃ rest', rest = c :: rest' ∧ At input pos' rest' := by
  unfold expect at hok
  cases hconsume : consume input c pos with
  | none =>
    rw [hconsume] at hok
    cases hok
  | some after =>
    rw [hconsume] at hok
    cases hok
    exact consume_some h hc hconsume

theorem expect_error {c : Char} {stop : Stop} (herr : expect input c pos = .error stop) :
    ∃ message, stop = .err message := by
  unfold expect at herr
  cases hconsume : consume input c pos with
  | none =>
    rw [hconsume] at herr
    cases herr
    exact ⟨_, rfl⟩
  | some after =>
    rw [hconsume] at herr
    cases herr

theorem nextChar_nil (h : At input pos []) : nextChar input pos = none := by
  rw [nextChar, h.suffixAt]

theorem nextChar_cons {c : Char} (h : At input pos (c :: rest)) :
    nextChar input pos = some (c, pos + c.utf8Size) := by
  rw [nextChar, h.suffixAt]

/-! ### Loops over bytes -/

/-- A test of bytes that is a test of ASCII characters. -/
structure AsciiTest (test : UInt8 → Bool) (p : Char → Bool) : Prop where
  same : ∀ {c : Char}, c.toNat < 128 → test (byte c) = p c
  wide : ∀ {b : UInt8}, 128 ≤ b.toNat → test b = false
  ascii : ∀ {c : Char}, p c = true → c.toNat < 128

theorem isDigitByte_ascii : AsciiTest isDigitByte JsonGrammar.isDigit where
  same := by
    intro c hc
    have h0 : (byte '0').toNat = 48 := rfl
    have h9 : (byte '9').toNat = 57 := rfl
    unfold isDigitByte JsonGrammar.isDigit
    rw [Bool.eq_iff_iff, Bool.and_eq_true, decide_eq_true_eq, decide_eq_true_eq,
      decide_eq_true_eq, UInt8.le_iff_toNat_le, UInt8.le_iff_toNat_le, byte_toNat hc, h0, h9]
  wide := by
    intro b hb
    have h9 : (byte '9').toNat = 57 := rfl
    have hgt : ¬ b ≤ byte '9' := by
      rw [UInt8.le_iff_toNat_le]
      omega
    rw [isDigitByte, decide_eq_false hgt, Bool.and_false]
  ascii := by
    intro c hc
    have := of_decide_eq_true hc
    omega

theorem isWsByte_ascii : AsciiTest isWsByte JsonGrammar.isWs where
  same := by
    intro c hc
    have heq : ∀ d : Char, d.toNat < 128 → (byte c == byte d) = (c == d) := by
      intro d hd
      rw [Bool.eq_iff_iff, beq_iff_eq, beq_iff_eq]
      exact ⟨byte_inj hc hd, congrArg byte⟩
    unfold isWsByte JsonGrammar.isWs
    rw [heq ' ' (by decide), heq '\n' (by decide), heq '\r' (by decide), heq '\t' (by decide)]
  wide := by
    intro b hb
    have hne : ∀ d : Char, d.toNat < 128 → (b == byte d) = false := by
      intro d hd
      refine beq_eq_false_iff_ne.mpr fun heq => ?_
      rw [heq, byte_toNat hd] at hb
      omega
    unfold isWsByte
    rw [hne ' ' (by decide), hne '\n' (by decide), hne '\r' (by decide), hne '\t' (by decide)]
    rfl
  ascii := by
    intro c hc
    unfold JsonGrammar.isWs at hc
    simp only [Bool.or_eq_true, beq_iff_eq] at hc
    obtain ((rfl | rfl) | rfl) | rfl := hc <;> decide

/-- The loop stops at the first character that fails the test. -/
theorem scanWhile_at {test : UInt8 → Bool} {p : Char → Bool} (ht : AsciiTest test p) {fuel : Nat}
    (h : At input pos rest) (hfuel : rest.length ≤ fuel) :
    scanWhile input test fuel pos = pos + size (rest.takeWhile p) := by
  induction rest generalizing pos fuel with
  | nil =>
    cases fuel with
    | zero => rfl
    | succ fuel =>
      rw [scanWhile, peek_nil h]
      rfl
  | cons c rest ih =>
    cases fuel with
    | zero => exact absurd hfuel (by simp)
    | succ fuel =>
      rw [List.length_cons] at hfuel
      by_cases hc : c.toNat < 128
      · rw [scanWhile, peek_cons h hc]
        simp only [ht.same hc]
        cases hp : p c with
        | true =>
          rw [List.takeWhile_cons_of_pos hp, size_cons, utf8Size_of_ascii hc, if_pos rfl,
            ih (h.next_ascii hc) (by omega)]
          omega
        | false =>
          rw [List.takeWhile_cons_of_neg (by simp [hp])]
          rfl
      · have hp : ¬ p c = true := fun htrue => hc (ht.ascii htrue)
        obtain ⟨b, hpeek, hb⟩ := peek_wide h (Nat.le_of_not_lt hc)
        rw [scanWhile, hpeek, List.takeWhile_cons_of_neg hp]
        simp only [ht.wide hb]
        rfl

theorem length_le_size_input (h : At input pos rest) : rest.length ≤ size input := by
  have := h.size_eq
  have := length_le_size rest
  omega

theorem skipWs_at (h : At input pos rest) :
    At input (skipWs input pos) (rest.dropWhile JsonGrammar.isWs) := by
  rw [skipWs, scanWhile_at isWsByte_ascii h (length_le_size_input h)]
  rw [← List.takeWhile_append_dropWhile (p := JsonGrammar.isWs) (l := rest)] at h
  exact h.skip

theorem takeDigits_at (h : At input pos rest) :
    takeDigits input pos = pos + size (rest.takeWhile JsonGrammar.isDigit) :=
  scanWhile_at isDigitByte_ascii h (length_le_size_input h)

end TkbCherry.Jsonlite
