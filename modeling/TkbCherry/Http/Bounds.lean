import TkbCherry.Http.Request

/-!
# Which requests make the server panic

Every index and every slice of the buffer is in bounds. The one slice that is not safe is that of
`parse_auth_token`: it cuts a value at its seventh byte, which may be inside a character.
-/

namespace TkbCherry.Http

set_option autoImplicit false

open Utf8

/-! ### The buffer -/

theorem findHeaderEnd_le {buffer : List UInt8} {n : Nat} (h : findHeaderEnd buffer = some n) :
    n + 4 ≤ buffer.length := by
  induction buffer generalizing n with
  | nil => cases h
  | cons b rest ih =>
    rw [findHeaderEnd] at h
    by_cases hhead : (b :: rest).take 4 = [13, 10, 13, 10]
    · rw [if_pos hhead] at h
      cases h
      have hlen := congrArg List.length hhead
      rw [List.length_take] at hlen
      have hfour : [(13 : UInt8), 10, 13, 10].length = 4 := rfl
      omega
    · rw [if_neg hhead] at h
      obtain ⟨m, hm, rfl⟩ := Option.map_eq_some_iff.mp h
      have hle := ih hm
      rw [List.length_cons]
      omega

theorem fill_length {fails : Bool} {expected : Nat} (reads : List (List UInt8))
    {buffer filled : List UInt8} (h : fill fails expected reads buffer = some filled) :
    buffer.length ≤ filled.length := by
  induction reads generalizing buffer with
  | nil =>
    rw [fill] at h
    by_cases hlen : expected ≤ buffer.length
    · rw [if_pos hlen] at h
      cases h
      exact Nat.le_refl _
    · rw [if_neg hlen] at h
      cases fails with
      | true => cases h
      | false =>
        cases h
        exact Nat.le_refl _
  | cons chunk reads ih =>
    rw [fill] at h
    by_cases hlen : expected ≤ buffer.length
    · rw [if_pos hlen] at h
      cases h
      exact Nat.le_refl _
    · rw [if_neg hlen] at h
      by_cases hend : chunk.isEmpty
      · rw [if_pos hend] at h
        cases h
        exact Nat.le_refl _
      · rw [if_neg hend] at h
        have hle := ih h
        rw [List.length_append] at hle
        omega

/-- With the header's end where it was found, both slices of the buffer are in bounds. -/
theorem receiveBody_ne_none {fails : Bool} {reads : List (List UInt8)} {buffer : List UInt8}
    {headerEnd : Nat} (h : headerEnd + 4 ≤ buffer.length) :
    receiveBody fails reads buffer headerEnd ≠ none := by
  by_cases hbig : MAX_HTTP_HEADER_BYTES < headerEnd
  · rw [receiveBody, if_pos hbig]
    simp
  have hslice : upTo buffer headerEnd = some (buffer.take headerEnd) := if_pos (by omega)
  rw [receiveBody, if_neg hbig, hslice, Option.bind_some]
  by_cases hbody : MAX_HTTP_REQUEST_BODY_BYTES <
      parseContentLength (fromUtf8Lossy (buffer.take headerEnd))
  · simp only [if_pos hbody]
    simp
  simp only [if_neg hbody]
  by_cases hover : 2 ^ 64 ≤ headerEnd + 4 +
      parseContentLength (fromUtf8Lossy (buffer.take headerEnd))
  · rw [if_pos hover]
    simp
  rw [if_neg hover]
  cases hfill : fill fails (headerEnd + 4 +
      parseContentLength (fromUtf8Lossy (buffer.take headerEnd))) reads buffer with
  | none => simp
  | some filled =>
    have hlen := fill_length reads hfill
    have hin : headerEnd + 4 ≤ min (headerEnd + 4 +
        parseContentLength (fromUtf8Lossy (buffer.take headerEnd))) filled.length ∧
        min (headerEnd + 4 + parseContentLength (fromUtf8Lossy (buffer.take headerEnd)))
          filled.length ≤ filled.length := by
      constructor
      · apply Nat.le_min.mpr
        constructor
        · omega
        · omega
      · exact Nat.min_le_right _ _
    simp [between, hin]

theorem receive_ne_none (fails : Bool) (reads : List (List UInt8)) (buffer : List UInt8) :
    receive fails reads buffer ≠ none := by
  induction reads generalizing buffer with
  | nil => simp [receive]
  | cons chunk reads ih =>
    rw [receive]
    by_cases hend : chunk.isEmpty
    · rw [if_pos hend]
      simp
    rw [if_neg hend]
    cases hfind : findHeaderEnd (buffer ++ chunk) with
    | some headerEnd => exact receiveBody_ne_none (findHeaderEnd_le hfind)
    | none =>
      by_cases hbig : MAX_HTTP_HEADER_BYTES < (buffer ++ chunk).length
      · simp only [if_pos hbig]
        simp
      · simp only [if_neg hbig]
        exact ih (buffer ++ chunk)

/-! ### Percent decoding -/

theorem escapeAt_ne_none {bytes : List UInt8} {index : Nat} (h : index < bytes.length) :
    escapeAt bytes index ≠ none := by
  rw [escapeAt, List.getElem?_eq_getElem h, Option.bind_some]
  by_cases hesc : bytes[index] = 37 ∧ index + 2 < bytes.length
  · have h1 : index + 1 < bytes.length := by omega
    rw [if_pos hesc, List.getElem?_eq_getElem h1, List.getElem?_eq_getElem hesc.2]
    simp
  · rw [if_neg hesc]
    simp

/-- By induction on the rounds left: there are as many as bytes left, so the loop ends. -/
theorem percentLoop_ne_none {bytes : List UInt8} (fuel index : Nat) (out : List UInt8)
    (h : bytes.length ≤ index + fuel) : percentLoop bytes fuel index out ≠ none := by
  induction fuel generalizing index out with
  | zero =>
    rw [percentLoop, if_neg (by omega)]
    simp
  | succ fuel ih =>
    rw [percentLoop]
    by_cases hin : index < bytes.length
    · rw [if_pos hin]
      cases hesc : escapeAt bytes index with
      | none => exact absurd hesc (escapeAt_ne_none hin)
      | some escape =>
        rw [Option.bind_some]
        cases escape with
        | some b => exact ih (index + 3) _ (by omega)
        | none =>
          rw [List.getElem?_eq_getElem hin]
          exact ih (index + 1) _ (by omega)
    · rw [if_neg hin]
      simp

theorem percentDecode_ne_none (value : List Char) : percentDecode value ≠ none := by
  rw [percentDecode, Ne, Option.map_eq_none_iff]
  exact percentLoop_ne_none _ 0 [] (by omega)

/-! ### The token -/

/-- The value is longer than seven bytes and its seventh byte ends inside a character. -/
def Cut (value : List Char) : Prop :=
  7 < size value ∧ ∀ front rest, value = front ++ rest → size front ≠ 7

theorem bearer_eq_none {value : List Char} : bearer value = none ↔ Cut value := by
  by_cases hlen : 7 < size value
  · constructor
    · intro h
      refine ⟨hlen, ?_⟩
      intro front rest hval hsize
      have hfront := prefixAt_eq_some.mpr ⟨rest, hval, hsize⟩
      have hrest := suffixAt_eq_some.mpr ⟨front, hval, hsize⟩
      rw [bearer, if_pos hlen, hfront, hrest] at h
      cases h
    · rintro ⟨_, hcut⟩
      cases hfront : prefixAt value 7 with
      | none => rw [bearer, if_pos hlen, hfront, Option.bind_none]
      | some front =>
        obtain ⟨rest, hval, hsize⟩ := prefixAt_eq_some.mp hfront
        exact absurd hsize (hcut front rest hval)
  · constructor
    · intro h
      rw [bearer, if_neg hlen] at h
      cases h
    · intro h
      exact absurd h.1 hlen

/-- No `Authorization` value is cut, unless a line before it has given the token. -/
def SafeLines (ls : List (List Char)) : Prop :=
  ∀ before line after value, ls = before ++ line :: after → authValue line = some value →
    Cut value → ∃ l ∈ before, ∃ v token, authValue l = some v ∧ bearer v = some (some token)

theorem SafeLines.nil : SafeLines [] := by
  intro before line after value h
  cases before <;> cases h

/-- A line that gives no token leaves the question to the lines after it. -/
theorem safeLines_skip {line : List Char} {ls : List (List Char)}
    (hskip : ∀ value, authValue line = some value → bearer value = some none) :
    SafeLines (line :: ls) ↔ SafeLines ls := by
  constructor
  · intro h before l after value hls hval hcut
    obtain ⟨l', hl', v, token, hv, htok⟩ :=
      h (line :: before) l after value (by rw [hls, List.cons_append]) hval hcut
    cases List.mem_cons.mp hl' with
    | inl heq =>
      subst heq
      rw [hskip v hv] at htok
      cases htok
    | inr hmem => exact ⟨l', hmem, v, token, hv, htok⟩
  · intro h before l after value hls hval hcut
    cases before with
    | nil =>
      obtain ⟨rfl, _⟩ := List.cons.inj hls
      have hnone := bearer_eq_none.mpr hcut
      rw [hskip value hval] at hnone
      cases hnone
    | cons b before =>
      obtain ⟨_, htail⟩ := List.cons.inj hls
      obtain ⟨l', hl', hrest⟩ := h before l after value htail hval hcut
      exact ⟨l', List.mem_cons_of_mem _ hl', hrest⟩

/-- By induction on the lines, as the loop reads them. -/
theorem authToken_ne_none (ls : List (List Char)) : authToken ls ≠ none ↔ SafeLines ls := by
  induction ls with
  | nil => simp [authToken, SafeLines.nil]
  | cons line ls ih =>
    cases hval : authValue line with
    | none =>
      have heq : authToken (line :: ls) = authToken ls := by simp [authToken, hval]
      rw [heq, ih, safeLines_skip (by simp [hval])]
    | some value =>
      cases htok : bearer value with
      | none =>
        have heq : authToken (line :: ls) = none := by simp [authToken, hval, htok]
        constructor
        · intro h
          exact absurd heq h
        · intro h
          obtain ⟨l, hl, _⟩ := h [] line ls value rfl hval (bearer_eq_none.mp htok)
          cases hl
      | some result =>
        cases result with
        | none =>
          have heq : authToken (line :: ls) = authToken ls := by simp [authToken, hval, htok]
          rw [heq, ih, safeLines_skip]
          intro v hv
          rw [hval] at hv
          cases hv
          exact htok
        | some token =>
          have heq : authToken (line :: ls) = some (some token) := by
            simp [authToken, hval, htok]
          rw [heq]
          refine ⟨fun _ => ?_, fun _ => by simp⟩
          intro before l after v hls hv hcut
          cases before with
          | nil =>
            obtain ⟨rfl, _⟩ := List.cons.inj hls
            rw [hval] at hv
            cases hv
            rw [bearer_eq_none.mpr hcut] at htok
            cases htok
          | cons b before =>
            obtain ⟨rfl, _⟩ := List.cons.inj hls
            exact ⟨line, List.mem_cons_self, value, token, hval, htok⟩

/-! ### The connection -/

section

variable {ι : Type} (net : Net ι)

theorem parseRequest_ne_none (header : List Char) (body : List UInt8) (peerIp : Option ι) :
    parseRequest net header body peerIp ≠ none ↔ SafeLines (lines header) := by
  rw [← authToken_ne_none, Ne, Ne, not_iff_not]
  unfold parseRequest
  obtain ⟨path, hpath⟩ := Option.ne_none_iff_exists'.mp (percentDecode_ne_none
    ((splitOnce '?' (((splitWhitespace ((lines header).headD [])).drop 1).headD ['/'])).getD
      (((splitWhitespace ((lines header).headD [])).drop 1).headD ['/'], [])).1)
  simp only [hpath, Option.bind_some, Option.map_eq_none_iff, parseAuthToken]

/-- A connection is served without a panic exactly when, if it brings a complete request within the
limits, no `Authorization` value of it is cut before a token was found. -/
theorem handleStream_panics_iff (fails : Bool) (peerIp : Option ι) (reads : List (List UInt8)) :
    handleStream net fails peerIp reads ≠ none ↔
      ∀ header body, receive fails reads [] = some (.complete header body) →
        SafeLines (lines header) := by
  cases hrec : receive fails reads [] with
  | none => exact absurd hrec (receive_ne_none fails reads [])
  | some received =>
    cases received with
    | closed => simp [handleStream, hrec]
    | ioError => simp [handleStream, hrec]
    | refused status => simp [handleStream, hrec]
    | complete header body =>
      have heq : handleStream net fails peerIp reads =
          (parseRequest net header body peerIp).map .routed := by
        simp [handleStream, hrec]
      rw [heq, Ne, Option.map_eq_none_iff]
      constructor
      · intro h header' body' hsame
        cases hsame
        exact (parseRequest_ne_none net header body peerIp).mp h
      · intro h
        exact (parseRequest_ne_none net header body peerIp).mpr (h header body rfl)

end

/-- A request whose token is six letters and an e with an acute accent. -/
def cutRequest : List UInt8 :=
  encode "GET / HTTP/1.1\r\nAuthorization: abcdef\u00e9\r\n\r\n".toList

def noNet : Net Unit where
  parse := fun _ => none
  isLoopback := fun _ => false
  toText := fun _ => []

theorem cutRequest_panics : handleStream noNet false none [cutRequest] = none := by
  decide +kernel

end TkbCherry.Http
