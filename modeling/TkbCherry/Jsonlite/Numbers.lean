import TkbCherry.Jsonlite.Cursor

/-!
# Numbers of the reader

The scan of `parse_number` takes the longest text with the pieces of a number, and Rust then wants
digits before or after the point and in an exponent.
-/

namespace TkbCherry.Jsonlite

set_option autoImplicit false

open Utf8 JsonGrammar

variable {input rest more : List Char} {pos : Nat}

/-- What Rust accepts as a floating-point number. -/
def FloatShaped (m : Numeral) : Prop :=
  (m.int ≠ [] ∨ m.frac ≠ []) ∧ (m.mark ≠ [] → m.exp ≠ [])

/-- The numbers the reader takes: what follows the first byte test is a floating-point number. -/
def LenientNumber (raw : List Char) : Prop :=
  ∃ m : Numeral, m.Shaped ∧ FloatShaped m ∧ (m.minus ≠ [] ∨ m.int ≠ []) ∧ m.text = raw

/-- The characters that carry a number on. -/
def isNumberChar (c : Char) : Bool :=
  isDigit c || c == '.' || c == 'e' || c == 'E' || c == '+' || c == '-'

/-- No number carries on. -/
def NumberEnds (more : List Char) : Prop := ∀ c, more.head? = some c → isNumberChar c = false

theorem NumberEnds.ne {c d : Char} (h : NumberEnds more) (hc : more.head? = some c)
    (hd : isNumberChar d = true) : c ≠ d := by
  rintro rfl
  rw [h c hc] at hd
  cases hd

theorem NumberEnds.not_digit {c : Char} (h : NumberEnds more) (hc : more.head? = some c) :
    isDigit c = false := by
  have hnot := h c hc
  unfold isNumberChar at hnot
  simp only [Bool.or_eq_false_iff] at hnot
  exact hnot.1.1.1.1.1

/-! ### Runs of digits -/

theorem takeWhile_digits {digits : List Char} (hdigits : ∀ c ∈ digits, isDigit c = true)
    (hend : ∀ c, more.head? = some c → isDigit c = false) :
    (digits ++ more).takeWhile isDigit = digits := by
  rw [List.takeWhile_append_of_pos hdigits]
  cases more with
  | nil => simp
  | cons c more => rw [List.takeWhile_cons_of_neg (by simp [hend c rfl]), List.append_nil]

theorem dropWhile_digits {digits : List Char} (hdigits : ∀ c ∈ digits, isDigit c = true)
    (hend : ∀ c, more.head? = some c → isDigit c = false) :
    (digits ++ more).dropWhile isDigit = more := by
  rw [List.dropWhile_append_of_pos hdigits]
  cases more with
  | nil => rfl
  | cons c more => rw [List.dropWhile_cons_of_neg (by simp [hend c rfl])]

theorem takeDigits_exact {digits : List Char} (h : At input pos (digits ++ more))
    (hdigits : ∀ c ∈ digits, isDigit c = true)
    (hend : ∀ c, more.head? = some c → isDigit c = false) :
    takeDigits input pos = pos + size digits := by
  rw [takeDigits_at h, takeWhile_digits hdigits hend]

/-- The digits at a position. -/
theorem takeDigits_reads (h : At input pos rest) :
    ∃ digits more, rest = digits ++ more ∧ (∀ c ∈ digits, isDigit c = true) ∧
      (∀ c, rest.head? = some c → isDigit c = true → digits ≠ []) ∧
      takeDigits input pos = pos + size digits := by
  refine ⟨_, _, List.takeWhile_append_dropWhile.symm, fun _ hc => List.mem_takeWhile_imp hc, ?_,
    takeDigits_at h⟩
  intro c hc hdigit
  obtain ⟨tail, rfl⟩ := List.head?_eq_some_iff.mp hc
  rw [List.takeWhile_cons_of_pos hdigit]
  exact List.cons_ne_nil _ _

/-! ### The pieces, as they are read -/

theorem minus_reads (h : At input pos rest) :
    ∃ minus more, rest = minus ++ more ∧
      (minus = [] ∧ rest.head? ≠ some '-' ∨ minus = ['-']) ∧
      (consume input '-' pos).getD pos = pos + size minus := by
  cases hconsume : consume input '-' pos with
  | none => exact ⟨[], rest, rfl, Or.inl ⟨rfl, consume_eq_none h (by decide) hconsume⟩, rfl⟩
  | some after =>
    obtain ⟨more, rfl, hat⟩ := consume_some h (by decide) hconsume
    rw [consume_cons h (by decide)] at hconsume
    cases hconsume
    exact ⟨['-'], more, rfl, Or.inr rfl, rfl⟩

theorem fraction_reads (h : At input pos rest) :
    ∃ point frac more, rest = point ++ (frac ++ more) ∧
      (point = [] ∧ frac = [] ∨ point = ['.']) ∧ (∀ c ∈ frac, isDigit c = true) ∧
      fractionEnd input pos = pos + size (point ++ frac) := by
  unfold fractionEnd
  cases hconsume : consume input '.' pos with
  | none => exact ⟨[], [], rest, rfl, Or.inl ⟨rfl, rfl⟩, by simp, rfl⟩
  | some after =>
    obtain ⟨after', rfl, hat⟩ := consume_some h (by decide) hconsume
    rw [consume_cons h (by decide)] at hconsume
    cases hconsume
    obtain ⟨frac, more, rfl, hdigits, _, hend⟩ := takeDigits_reads hat
    refine ⟨['.'], frac, more, rfl, Or.inr rfl, hdigits, ?_⟩
    have hsize : size (['.'] ++ frac) = 1 + size frac := by simp; rfl
    rw [hsize, ← Nat.add_assoc]
    exact hend

theorem sign_reads (h : At input pos rest) :
    ∃ sign more, rest = sign ++ more ∧ (sign = [] ∨ sign = ['+'] ∨ sign = ['-']) ∧
      (if peek input pos = some (byte '+') ∨ peek input pos = some (byte '-') then pos + 1 else pos)
        = pos + size sign := by
  by_cases hpeek : peek input pos = some (byte '+') ∨ peek input pos = some (byte '-')
  · rw [if_pos hpeek]
    rcases hpeek with hplus | hminus
    · obtain ⟨more, rfl⟩ := List.head?_eq_some_iff.mp ((peek_iff h (by decide)).mp hplus)
      exact ⟨['+'], more, rfl, Or.inr (Or.inl rfl), rfl⟩
    · obtain ⟨more, rfl⟩ := List.head?_eq_some_iff.mp ((peek_iff h (by decide)).mp hminus)
      exact ⟨['-'], more, rfl, Or.inr (Or.inr rfl), rfl⟩
  · rw [if_neg hpeek]
    exact ⟨[], rest, rfl, Or.inl rfl, rfl⟩

theorem exponent_reads (h : At input pos rest) :
    ∃ mark sign exp more, rest = mark ++ (sign ++ exp) ++ more ∧
      (mark = [] ∧ sign = [] ∧ exp = [] ∨ mark = ['e'] ∨ mark = ['E']) ∧
      (sign = [] ∨ sign = ['+'] ∨ sign = ['-']) ∧ (∀ c ∈ exp, isDigit c = true) ∧
      exponentEnd input pos = pos + size (mark ++ (sign ++ exp)) := by
  unfold exponentEnd
  by_cases hpeek : peek input pos = some (byte 'e') ∨ peek input pos = some (byte 'E')
  · rw [if_pos hpeek]
    have hmark : ∃ mark after, rest = mark :: after ∧ (mark = 'e' ∨ mark = 'E') := by
      rcases hpeek with he | hE
      · obtain ⟨after, rfl⟩ := List.head?_eq_some_iff.mp ((peek_iff h (by decide)).mp he)
        exact ⟨'e', after, rfl, Or.inl rfl⟩
      · obtain ⟨after, rfl⟩ := List.head?_eq_some_iff.mp ((peek_iff h (by decide)).mp hE)
        exact ⟨'E', after, rfl, Or.inr rfl⟩
    obtain ⟨mark, after, rfl, hmark⟩ := hmark
    have hascii : mark.toNat < 128 := by rcases hmark with rfl | rfl <;> decide
    have hat := h.next_ascii hascii
    obtain ⟨sign, after, rfl, hsign, hpos⟩ := sign_reads hat
    obtain ⟨exp, more, rfl, hdigits, _, hend⟩ := takeDigits_reads hat.skip
    refine ⟨[mark], sign, exp, more, by simp, Or.inr ?_, hsign, hdigits, ?_⟩
    · rcases hmark with rfl | rfl
      · exact Or.inl rfl
      · exact Or.inr rfl
    · simp only [hpos, hend]
      rw [size_append, size_append, size_cons, utf8Size_of_ascii hascii, size_nil]
      omega
  · rw [if_neg hpeek]
    exact ⟨[], [], [], rest, rfl, Or.inl ⟨rfl, rfl, rfl⟩, Or.inl rfl, by simp, rfl⟩

/-- What the scan takes has the pieces of a number. -/
theorem numberEnd_reads (h : At input pos rest) :
    ∃ m more, rest = m.text ++ more ∧ Numeral.Shaped m ∧
      (∀ c, rest.head? = some c → c = '-' ∨ isDigit c = true → m.minus ≠ [] ∨ m.int ≠ []) ∧
      numberEnd input pos = pos + size m.text := by
  obtain ⟨minus, r1, rfl, hminus, hpos1⟩ := minus_reads h
  obtain ⟨int, r2, rfl, hint, hsome, hpos2⟩ := takeDigits_reads h.skip
  obtain ⟨point, frac, r3, rfl, hpoint, hfrac, hpos3⟩ := fraction_reads h.skip.skip
  have hat := h.skip.skip
  rw [← List.append_assoc] at hat
  obtain ⟨mark, sign, exp, more, rfl, hmark, hsign, hexp, hpos4⟩ := exponent_reads hat.skip
  refine ⟨⟨minus, int, point, frac, mark, sign, exp⟩, more, ?_,
    ⟨hminus.imp_left And.left, hint, hpoint, hfrac, hmark, hsign, hexp⟩, ?_, ?_⟩
  · simp only [Numeral.text, Numeral.tail, List.append_assoc]
  · intro c hc hfirst
    rcases hminus with ⟨rfl, hno⟩ | rfl
    · rcases hfirst with rfl | hdigit
      · exact absurd hc hno
      · exact Or.inr (hsome c hc hdigit)
    · exact Or.inl (List.cons_ne_nil _ _)
  · unfold numberEnd
    rw [size_append, ← Nat.add_assoc] at hpos4
    simp only [hpos1, hpos2, hpos3, size_append, ← Nat.add_assoc, hpos4, Numeral.text, Numeral.tail]

/-! ### The pieces, from a number -/

namespace Numeral

variable {m : Numeral}

theorem tail_head (hm : m.Shaped) {c : Char} (hc : (m.tail ++ more).head? = some c) :
    c = 'e' ∨ c = 'E' ∨ more.head? = some c := by
  unfold Numeral.tail at hc
  rcases hm.mark with ⟨hmark, hsign, hexp⟩ | hmark | hmark
  · rw [hmark, hsign, hexp] at hc
    exact Or.inr (Or.inr hc)
  · rw [hmark] at hc
    exact Or.inl (Option.some.inj hc).symm
  · rw [hmark] at hc
    exact Or.inr (Or.inl (Option.some.inj hc).symm)

theorem point_head (hm : m.Shaped) {c : Char}
    (hc : (m.point ++ (m.frac ++ (m.tail ++ more))).head? = some c) :
    c = '.' ∨ c = 'e' ∨ c = 'E' ∨ more.head? = some c := by
  rcases hm.point with ⟨hpoint, hfrac⟩ | hpoint
  · rw [hpoint, hfrac] at hc
    exact Or.inr (tail_head hm hc)
  · rw [hpoint] at hc
    exact Or.inl (Option.some.inj hc).symm

theorem int_head (hm : m.Shaped) {c : Char}
    (hc : (m.int ++ (m.point ++ (m.frac ++ (m.tail ++ more)))).head? = some c) :
    isDigit c = true ∨ c = '.' ∨ c = 'e' ∨ c = 'E' ∨ more.head? = some c := by
  cases hint : m.int with
  | nil =>
    rw [hint] at hc
    exact Or.inr (point_head hm hc)
  | cons d int =>
    rw [hint] at hc
    obtain rfl := Option.some.inj hc
    exact Or.inl (hm.int _ (by simp [hint]))

theorem point_head_not_digit (hm : m.Shaped) (hends : NumberEnds more) (c : Char)
    (hc : (m.point ++ (m.frac ++ (m.tail ++ more))).head? = some c) : isDigit c = false := by
  rcases point_head hm hc with rfl | rfl | rfl | hmore
  · decide
  · decide
  · decide
  · exact hends.not_digit hmore

theorem tail_head_not_digit (hm : m.Shaped) (hends : NumberEnds more) (c : Char)
    (hc : (m.tail ++ more).head? = some c) : isDigit c = false := by
  rcases tail_head hm hc with rfl | rfl | hmore
  · decide
  · decide
  · exact hends.not_digit hmore

theorem int_head_ne_sign (hm : m.Shaped) (hends : NumberEnds more) {c : Char}
    (hc : (m.int ++ (m.point ++ (m.frac ++ (m.tail ++ more)))).head? = some c) :
    c ≠ '-' ∧ c ≠ '+' := by
  rcases int_head hm hc with hdigit | rfl | rfl | rfl | hmore
  · constructor
    · rintro rfl
      exact absurd hdigit (by decide)
    · rintro rfl
      exact absurd hdigit (by decide)
  · decide
  · decide
  · decide
  · exact ⟨hends.ne hmore (by decide), hends.ne hmore (by decide)⟩

theorem exp_head (hm : m.Shaped) (hends : NumberEnds more) {c : Char}
    (hc : (m.exp ++ more).head? = some c) : c ≠ '-' ∧ c ≠ '+' := by
  cases hexp : m.exp with
  | nil =>
    rw [hexp] at hc
    exact ⟨hends.ne hc (by decide), hends.ne hc (by decide)⟩
  | cons d exp =>
    have hdigit := hm.exp d (by simp [hexp])
    rw [hexp] at hc
    obtain rfl := Option.some.inj hc
    constructor
    · rintro rfl
      exact absurd hdigit (by decide)
    · rintro rfl
      exact absurd hdigit (by decide)

end Numeral

theorem fractionEnd_exact {m : Numeral} (hm : m.Shaped) (hends : NumberEnds more)
    (h : At input pos (m.point ++ (m.frac ++ (m.tail ++ more)))) :
    fractionEnd input pos = pos + size (m.point ++ m.frac) := by
  unfold fractionEnd
  rcases hm.point with ⟨hpoint, hfrac⟩ | hpoint
  · rw [hpoint, hfrac] at h ⊢
    rw [consume_none h (by decide)]
    · rfl
    · intro hhead
      rcases Numeral.tail_head hm hhead with heq | heq | hmore
      · exact absurd heq (by decide)
      · exact absurd heq (by decide)
      · exact absurd rfl (hends.ne hmore (by decide))
  · rw [hpoint] at h ⊢
    rw [List.cons_append, List.nil_append] at h
    rw [consume_cons h (by decide)]
    have hsize : size (['.'] ++ m.frac) = 1 + size m.frac := by simp; rfl
    rw [hsize, ← Nat.add_assoc]
    exact takeDigits_exact (h.next_ascii (by decide)) hm.frac (Numeral.tail_head_not_digit hm hends)

theorem exponentEnd_exact {m : Numeral} (hm : m.Shaped) (hends : NumberEnds more)
    (h : At input pos (m.tail ++ more)) : exponentEnd input pos = pos + size m.tail := by
  have hcase : m.tail = [] ∨ ∃ mark, (mark = 'e' ∨ mark = 'E') ∧ m.tail = mark :: (m.sign ++ m.exp) := by
    unfold Numeral.tail
    rcases hm.mark with ⟨hmark, hsign, hexp⟩ | hmark | hmark
    · exact Or.inl (by rw [hmark, hsign, hexp]; rfl)
    · exact Or.inr ⟨'e', Or.inl rfl, by rw [hmark]; rfl⟩
    · exact Or.inr ⟨'E', Or.inr rfl, by rw [hmark]; rfl⟩
  unfold exponentEnd
  rcases hcase with htail | ⟨mark, hmark, htail⟩
  · rw [htail] at h ⊢
    rw [if_neg]
    · rfl
    · rw [peek_iff h (by decide), peek_iff h (by decide)]
      rintro (hhead | hhead)
      · exact absurd rfl (hends.ne hhead (by decide))
      · exact absurd rfl (hends.ne hhead (by decide))
  · rw [htail] at h ⊢
    rw [List.cons_append, List.append_assoc] at h
    have hascii : mark.toNat < 128 := by rcases hmark with rfl | rfl <;> decide
    have hat := h.next_ascii hascii
    have hpeek : peek input pos = some (byte 'e') ∨ peek input pos = some (byte 'E') := by
      rw [peek_cons h hascii]
      rcases hmark with rfl | rfl
      · exact Or.inl rfl
      · exact Or.inr rfl
    have hsign : (if peek input (pos + 1) = some (byte '+') ∨ peek input (pos + 1) = some (byte '-')
        then pos + 1 + 1 else pos + 1) = pos + 1 + size m.sign := by
      rcases hm.sign with hnone | hplus | hminus
      · rw [hnone, List.nil_append] at hat
        rw [hnone, if_neg]
        · rfl
        · rw [peek_iff hat (by decide), peek_iff hat (by decide)]
          rintro (hhead | hhead)
          · exact (Numeral.exp_head hm hends hhead).2 rfl
          · exact (Numeral.exp_head hm hends hhead).1 rfl
      · rw [hplus] at hat ⊢
        rw [if_pos (Or.inl (peek_cons hat (by decide)))]
        rfl
      · rw [hminus] at hat ⊢
        rw [if_pos (Or.inr (peek_cons hat (by decide)))]
        rfl
    rw [if_pos hpeek]
    simp only [hsign]
    rw [takeDigits_exact hat.skip hm.exp fun c hc => hends.not_digit hc, size_cons, size_append,
      utf8Size_of_ascii hascii]
    omega

/-- The scan takes a number whole when nothing carries it on. -/
theorem numberEnd_exact {m : Numeral} (hm : m.Shaped) (hends : NumberEnds more)
    (h : At input pos (m.text ++ more)) : numberEnd input pos = pos + size m.text := by
  have hat : At input pos (m.minus ++ (m.int ++ (m.point ++ (m.frac ++ (m.tail ++ more))))) := by
    simpa only [Numeral.text, List.append_assoc] using h
  have hminus : (consume input '-' pos).getD pos = pos + size m.minus := by
    rcases hm.minus with hnone | hsome
    · rw [hnone] at hat ⊢
      rw [consume_none hat (by decide)]
      · rfl
      · intro hhead
        exact (Numeral.int_head_ne_sign hm hends hhead).1 rfl
    · rw [hsome] at hat ⊢
      rw [List.cons_append] at hat
      rw [consume_cons hat (by decide)]
      rfl
  have hint := takeDigits_exact hat.skip hm.int (Numeral.point_head_not_digit hm hends)
  have hfrac := fractionEnd_exact hm hends hat.skip.skip
  have hexp := exponentEnd_exact hm hends hat.skip.skip.skip.skip
  unfold numberEnd
  simp only [hminus, hint, hfrac, size_append, ← Nat.add_assoc, hexp, Numeral.text]

/-! ### The value -/

theorem afterSign_sign {sign : List Char} (hsign : sign = [] ∨ sign = ['+'] ∨ sign = ['-'])
    (hend : ∀ c, more.head? = some c → c ≠ '-' ∧ c ≠ '+') : afterSign (sign ++ more) = more := by
  rcases hsign with rfl | rfl | rfl
  · rw [List.nil_append]
    cases more with
    | nil => rfl
    | cons c more =>
      have hc := hend c rfl
      unfold afterSign
      simp [hc.1, hc.2]
  · rfl
  · rfl

theorem numberEnds_nil : NumberEnds [] := fun _ hc => by cases hc

/-- Rust takes a text of these pieces exactly when it has digits. -/
theorem parsesAsF64_text {m : Numeral} (hm : m.Shaped) :
    parsesAsF64 m.text = true ↔ FloatShaped m := by
  have hwhole : afterSign m.text = m.int ++ (m.point ++ (m.frac ++ m.tail)) := by
    have hminus : m.minus = [] ∨ m.minus = ['+'] ∨ m.minus = ['-'] :=
      hm.minus.imp_right Or.inr
    refine afterSign_sign hminus fun c hc => ?_
    refine Numeral.int_head_ne_sign hm numberEnds_nil ?_
    rwa [List.append_nil]
  have hint : (m.int ++ (m.point ++ (m.frac ++ m.tail))).takeWhile isDigit = m.int := by
    refine takeWhile_digits hm.int fun c hc => ?_
    exact Numeral.point_head_not_digit hm numberEnds_nil c (by rwa [List.append_nil])
  have hrest : (m.int ++ (m.point ++ (m.frac ++ m.tail))).dropWhile isDigit =
      m.point ++ (m.frac ++ m.tail) := by
    refine dropWhile_digits hm.int fun c hc => ?_
    exact Numeral.point_head_not_digit hm numberEnds_nil c (by rwa [List.append_nil])
  have htail : ∀ c, m.tail.head? = some c → isDigit c = false := by
    intro c hc
    exact Numeral.tail_head_not_digit hm numberEnds_nil c (by rwa [List.append_nil])
  have hexp : exponentOk m.tail = true ↔ (m.mark ≠ [] → m.exp ≠ []) := by
    have hdigits : digitsToEnd (afterSign (m.sign ++ m.exp)) = true ↔ m.exp ≠ [] := by
      rw [afterSign_sign hm.sign fun c hc =>
        Numeral.exp_head hm numberEnds_nil (by rwa [List.append_nil]), digitsToEnd,
        Bool.and_eq_true, List.all_eq_true, Bool.not_eq_true', List.isEmpty_eq_false_iff]
      exact and_iff_left hm.exp
    unfold Numeral.tail exponentOk
    rcases hm.mark with ⟨hmark, hsign, hexp⟩ | hmark | hmark
    · simp [hmark, hsign, hexp]
    · rw [hmark]
      simpa using hdigits
    · rw [hmark]
      simpa using hdigits
  have hfraction : fractionOf (m.point ++ (m.frac ++ m.tail)) = (m.frac, m.tail) := by
    rcases hm.point with ⟨hpoint, hfrac⟩ | hpoint
    · rw [hpoint, hfrac, List.nil_append, List.nil_append]
      unfold fractionOf
      split
      · next rest heq =>
        have hdot : (m.tail ++ []).head? = some '.' := by rw [List.append_nil, heq]; rfl
        rcases Numeral.tail_head hm hdot with h | h | h
        · exact absurd h (by decide)
        · exact absurd h (by decide)
        · cases h
      · rfl
    · rw [hpoint, List.cons_append, List.nil_append]
      exact Prod.ext (takeWhile_digits hm.frac htail) (dropWhile_digits hm.frac htail)
  unfold parsesAsF64 FloatShaped
  rw [hwhole]
  simp only [hint, hrest, hfraction]
  rw [Bool.and_eq_true, hexp, Bool.or_eq_true, Bool.not_eq_true', Bool.not_eq_true',
    List.isEmpty_eq_false_iff, List.isEmpty_eq_false_iff]

/-! ### The call -/

theorem parseNumber_ok {value : JsonValue} {after : Nat} {first : Char} (h : At input pos rest)
    (hhead : rest.head? = some first) (hfirst : first = '-' ∨ isDigit first = true)
    (hok : parseNumber input pos = .ok (value, after)) :
    ∃ raw more, rest = raw ++ more ∧ At input after more ∧ LenientNumber raw ∧
      value = .number raw := by
  obtain ⟨m, more, rfl, hm, hsome, hend⟩ := numberEnd_reads h
  unfold parseNumber at hok
  simp only [hend, h.slice] at hok
  by_cases hf64 : parsesAsF64 m.text = true
  · rw [if_pos hf64] at hok
    cases hok
    exact ⟨m.text, more, rfl, h.skip,
      ⟨m, hm, (parsesAsF64_text hm).mp hf64, hsome first hhead hfirst, rfl⟩, rfl⟩
  · rw [if_neg hf64] at hok
    cases hok

theorem parseNumber_error {stop : Stop} (h : At input pos rest)
    (herr : parseNumber input pos = .error stop) : ∃ message, stop = .err message := by
  obtain ⟨m, more, rfl, hm, _, hend⟩ := numberEnd_reads h
  unfold parseNumber at herr
  simp only [hend, h.slice] at herr
  by_cases hf64 : parsesAsF64 m.text = true
  · rw [if_pos hf64] at herr
    cases herr
  · rw [if_neg hf64] at herr
    cases herr
    exact ⟨_, rfl⟩

theorem parseNumber_exact {raw : List Char} (hraw : LenientNumber raw) (hends : NumberEnds more)
    (h : At input pos (raw ++ more)) :
    parseNumber input pos = .ok (.number raw, pos + size raw) := by
  obtain ⟨m, hm, hfloat, _, rfl⟩ := hraw
  unfold parseNumber
  simp only [numberEnd_exact hm hends h, h.slice, (parsesAsF64_text hm).mpr hfloat, if_true]

/-- A number begins with a minus sign or a digit. -/
theorem LenientNumber.head {raw : List Char} (hraw : LenientNumber raw) :
    ∃ first tail, raw = first :: tail ∧ (first = '-' ∨ isDigit first = true) := by
  obtain ⟨m, hm, _, hsome, rfl⟩ := hraw
  unfold Numeral.text
  rcases hm.minus with hnone | hminus
  · cases hint : m.int with
    | nil => exact absurd hint (hsome.resolve_left (fun hne => hne hnone))
    | cons d int =>
      rw [hnone]
      exact ⟨d, _, rfl, Or.inr (hm.int d (by rw [hint]; exact List.mem_cons_self))⟩
  · rw [hminus]
    exact ⟨'-', _, rfl, Or.inl rfl⟩

/-- The reader takes every number of RFC 8259. -/
theorem lenientNumber_of_strict {m : Numeral} (hm : m.Strict) : LenientNumber m.text :=
  ⟨m, hm.toShaped, ⟨Or.inl hm.some_int, hm.some_exp⟩, Or.inr hm.some_int, rfl⟩

end TkbCherry.Jsonlite
