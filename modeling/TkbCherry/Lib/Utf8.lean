import Mathlib

/-!
# Byte positions in a text

A text is a list of characters, and a position in it counts bytes of its UTF-8 form. A slice
exists only between two boundaries of characters.
-/

namespace Utf8

set_option autoImplicit false

/-- `str::as_bytes`. -/
def encode (text : List Char) : List UInt8 := text.flatMap String.utf8EncodeChar

/-- `str::len`. -/
def size (text : List Char) : Nat := (text.map Char.utf8Size).sum

/-- `text.get(pos..)`. -/
def suffixAt : List Char → Nat → Option (List Char)
  | text, 0 => some text
  | [], _ + 1 => none
  | c :: rest, pos + 1 =>
    if c.utf8Size ≤ pos + 1 then suffixAt rest (pos + 1 - c.utf8Size) else none

/-- `text.get(..pos)`. -/
def prefixAt : List Char → Nat → Option (List Char)
  | _, 0 => some []
  | [], _ + 1 => none
  | c :: rest, pos + 1 =>
    if c.utf8Size ≤ pos + 1 then (prefixAt rest (pos + 1 - c.utf8Size)).map (c :: ·) else none

/-- `text.get(start..stop)`. -/
def slice (text : List Char) (start stop : Nat) : Option (List Char) :=
  if start ≤ stop then (suffixAt text start).bind fun rest => prefixAt rest (stop - start)
  else none

/-! ### Sizes -/

@[simp] theorem size_nil : size [] = 0 := rfl

@[simp] theorem size_cons (c : Char) (text : List Char) :
    size (c :: text) = c.utf8Size + size text := by
  simp [size]

@[simp] theorem size_append (a b : List Char) : size (a ++ b) = size a + size b := by
  simp [size]

theorem encode_append (a b : List Char) : encode (a ++ b) = encode a ++ encode b :=
  List.flatMap_append

@[simp] theorem encode_nil : encode [] = [] := rfl

theorem encode_cons (c : Char) (text : List Char) :
    encode (c :: text) = String.utf8EncodeChar c ++ encode text := rfl

@[simp] theorem length_encode (text : List Char) : (encode text).length = size text := by
  induction text with
  | nil => rfl
  | cons c text ih => rw [encode_cons, List.length_append, ih, String.length_utf8EncodeChar, size_cons]

theorem length_le_size (text : List Char) : text.length ≤ size text := by
  induction text with
  | nil => exact Nat.le_refl 0
  | cons c text ih =>
    have := c.utf8Size_pos
    rw [List.length_cons, size_cons]
    omega

theorem size_eq_zero {text : List Char} (h : size text = 0) : text = [] := by
  have := length_le_size text
  exact List.eq_nil_of_length_eq_zero (by omega)

theorem utf8Size_of_ascii {c : Char} (h : c.toNat < 128) : c.utf8Size = 1 := by
  refine Char.utf8Size_eq_one_iff.mpr ?_
  rw [UInt32.le_iff_toNat_le]
  exact Nat.le_of_lt_succ h

/-! ### Boundaries -/

theorem suffixAt_eq_some {text rest : List Char} {pos : Nat} :
    suffixAt text pos = some rest ↔ ∃ before, text = before ++ rest ∧ size before = pos := by
  induction text generalizing pos with
  | nil =>
    cases pos with
    | zero =>
      constructor
      · intro h
        exact ⟨[], by simpa [suffixAt] using h, rfl⟩
      · rintro ⟨before, htext, _⟩
        simp [suffixAt, (List.append_eq_nil_iff.mp htext.symm).2]
    | succ pos =>
      constructor
      · intro h
        simp [suffixAt] at h
      · rintro ⟨before, htext, hsize⟩
        simp [(List.append_eq_nil_iff.mp htext.symm).1] at hsize
  | cons c text ih =>
    cases pos with
    | zero =>
      constructor
      · intro h
        exact ⟨[], by simpa [suffixAt] using h, rfl⟩
      · rintro ⟨before, htext, hsize⟩
        rw [size_eq_zero hsize] at htext
        simp [suffixAt, htext]
    | succ pos =>
      have hpos := c.utf8Size_pos
      constructor
      · intro h
        by_cases hle : c.utf8Size ≤ pos + 1
        · rw [suffixAt, if_pos hle] at h
          obtain ⟨before, htext, hsize⟩ := ih.mp h
          refine ⟨c :: before, by rw [htext, List.cons_append], ?_⟩
          rw [size_cons]
          omega
        · rw [suffixAt, if_neg hle] at h
          exact absurd h (by simp)
      · rintro ⟨before, htext, hsize⟩
        cases before with
        | nil => exact absurd hsize (by simp)
        | cons b before =>
          obtain ⟨rfl, htail⟩ := List.cons.inj htext
          rw [size_cons] at hsize
          rw [suffixAt, if_pos (by omega)]
          exact ih.mpr ⟨before, htail, by omega⟩

theorem prefixAt_eq_some {text front : List Char} {pos : Nat} :
    prefixAt text pos = some front ↔ ∃ rest, text = front ++ rest ∧ size front = pos := by
  induction text generalizing pos front with
  | nil =>
    cases pos with
    | zero =>
      constructor
      · intro h
        exact ⟨[], by simpa [prefixAt] using h, by simp_all [prefixAt]⟩
      · rintro ⟨rest, htext, _⟩
        simp [prefixAt, (List.append_eq_nil_iff.mp htext.symm).1]
    | succ pos =>
      constructor
      · intro h
        simp [prefixAt] at h
      · rintro ⟨rest, htext, hsize⟩
        simp [(List.append_eq_nil_iff.mp htext.symm).1] at hsize
  | cons c text ih =>
    cases pos with
    | zero =>
      constructor
      · intro h
        simp only [prefixAt, Option.some.injEq] at h
        exact ⟨c :: text, by rw [← h, List.nil_append], by rw [← h, size_nil]⟩
      · rintro ⟨rest, _, hsize⟩
        rw [prefixAt, size_eq_zero hsize]
    | succ pos =>
      have hpos := c.utf8Size_pos
      constructor
      · intro h
        by_cases hle : c.utf8Size ≤ pos + 1
        · rw [prefixAt, if_pos hle, Option.map_eq_some_iff] at h
          obtain ⟨inner, hinner, rfl⟩ := h
          obtain ⟨rest, htext, hsize⟩ := ih.mp hinner
          refine ⟨rest, by rw [htext, List.cons_append], ?_⟩
          rw [size_cons]
          omega
        · rw [prefixAt, if_neg hle] at h
          exact absurd h (by simp)
      · rintro ⟨rest, htext, hsize⟩
        cases front with
        | nil => exact absurd hsize (by simp)
        | cons b front =>
          obtain ⟨rfl, htail⟩ := List.cons.inj htext
          rw [size_cons] at hsize
          rw [prefixAt, if_pos (by omega), ih.mpr ⟨rest, htail, by omega⟩, Option.map_some]

/-- The position is a boundary and this is what follows it. -/
def At (text : List Char) (pos : Nat) (rest : List Char) : Prop :=
  ∃ before, text = before ++ rest ∧ size before = pos

theorem At.suffixAt {text rest : List Char} {pos : Nat} (h : At text pos rest) :
    suffixAt text pos = some rest := suffixAt_eq_some.mpr h

theorem At.start (text : List Char) : At text 0 text := ⟨[], rfl, rfl⟩

theorem At.skip {text seen rest : List Char} {pos : Nat} (h : At text pos (seen ++ rest)) :
    At text (pos + size seen) rest := by
  obtain ⟨before, htext, hsize⟩ := h
  refine ⟨before ++ seen, by rw [htext, List.append_assoc], ?_⟩
  rw [size_append, hsize]

theorem At.next {text rest : List Char} {pos : Nat} {c : Char} (h : At text pos (c :: rest)) :
    At text (pos + c.utf8Size) rest := by
  have hone : At text pos ([c] ++ rest) := h
  have hskip := hone.skip
  rwa [size_cons, size_nil, Nat.add_zero] at hskip

theorem At.next_ascii {text rest : List Char} {pos : Nat} {c : Char}
    (h : At text pos (c :: rest)) (hc : c.toNat < 128) : At text (pos + 1) rest := by
  have hnext := h.next
  rwa [utf8Size_of_ascii hc] at hnext

theorem At.size_eq {text rest : List Char} {pos : Nat} (h : At text pos rest) :
    size text = pos + size rest := by
  obtain ⟨before, htext, hsize⟩ := h
  rw [htext, size_append, hsize]

theorem At.slice {text seen rest : List Char} {pos : Nat} (h : At text pos (seen ++ rest)) :
    slice text pos (pos + size seen) = some seen := by
  rw [Utf8.slice, if_pos (Nat.le_add_right ..), h.suffixAt, Option.bind_some,
    Nat.add_sub_cancel_left]
  exact prefixAt_eq_some.mpr ⟨rest, rfl, rfl⟩

/-- The byte at a boundary is the first one of what follows. -/
theorem At.getElem? {text rest : List Char} {pos : Nat} (h : At text pos rest) :
    (encode text)[pos]? = (encode rest)[0]? := by
  obtain ⟨before, rfl, rfl⟩ := h
  rw [encode_append, List.getElem?_append_right (by simp), length_encode, Nat.sub_self]

/-- The bytes from a boundary on are those of what follows. -/
theorem At.drop {text rest : List Char} {pos : Nat} (h : At text pos rest) :
    (encode text).drop pos = encode rest := by
  obtain ⟨before, rfl, rfl⟩ := h
  rw [encode_append, List.drop_left' (length_encode before)]

/-! ### Characters of one byte -/

theorem encodeChar_ascii {c : Char} (h : c.toNat < 128) :
    String.utf8EncodeChar c = [UInt8.ofNat c.toNat] := by
  unfold String.utf8EncodeChar
  exact if_pos (Nat.le_of_lt_succ h)

/-- No byte of a character beyond ASCII is one of ASCII. -/
theorem encodeChar_head {c : Char} (h : 128 ≤ c.toNat) :
    ∃ b rest, String.utf8EncodeChar c = b :: rest ∧ 128 ≤ b.toNat := by
  have hge : ¬ c.val.toNat ≤ 0x7f := by
    intro hle
    have : c.toNat ≤ 127 := hle
    omega
  unfold String.utf8EncodeChar
  simp only [if_neg hge]
  split_ifs
  · exact ⟨_, _, rfl, by rw [UInt8.toNat_ofNat']; omega⟩
  · exact ⟨_, _, rfl, by rw [UInt8.toNat_ofNat']; omega⟩
  · exact ⟨_, _, rfl, by rw [UInt8.toNat_ofNat']; omega⟩

/-- The first byte is an ASCII character exactly when the first character is that one. -/
theorem encode_cons_head (c : Char) (rest : List Char) {b : UInt8} (hb : b.toNat < 128) :
    (encode (c :: rest))[0]? = some b ↔ c.toNat = b.toNat := by
  by_cases hc : c.toNat < 128
  · rw [encode_cons, encodeChar_ascii hc, List.cons_append, List.getElem?_cons_zero,
      Option.some.injEq, ← UInt8.toNat_inj, UInt8.toNat_ofNat', Nat.mod_eq_of_lt (by omega)]
  · obtain ⟨first, more, henc, hfirst⟩ := encodeChar_head (Nat.le_of_not_lt hc)
    rw [encode_cons, henc, List.cons_append, List.getElem?_cons_zero, Option.some.injEq]
    constructor
    · intro h
      rw [h] at hfirst
      omega
    · intro h
      omega

end Utf8
