import TkbCherry.Lib.Utf8
import TkbCherry.Lib.Text

/-!
# Reading a request

`handle_stream` and the helpers that take a request apart. `none` is a panic: an index beyond the
end of a buffer, or a slice of a text that is not on boundaries of characters.
-/

namespace TkbCherry.Http

set_option autoImplicit false

open Utf8

def MAX_HTTP_HEADER_BYTES : Nat := 64 * 1024

def MAX_HTTP_REQUEST_BODY_BYTES : Nat := 64 * 1024 * 1024

/-! ### `String::from_utf8_lossy` -/

/-- How many more bytes a first byte asks for, and the bounds of the next one. -/
def leading (b : UInt8) : Option (Nat × UInt8 × UInt8) :=
  if 0xC2 ≤ b ∧ b ≤ 0xDF then some (1, 0x80, 0xBF)
  else if b = 0xE0 then some (2, 0xA0, 0xBF)
  else if b = 0xED then some (2, 0x80, 0x9F)
  else if 0xE1 ≤ b ∧ b ≤ 0xEF then some (2, 0x80, 0xBF)
  else if b = 0xF0 then some (3, 0x90, 0xBF)
  else if 0xF1 ≤ b ∧ b ≤ 0xF3 then some (3, 0x80, 0xBF)
  else if b = 0xF4 then some (3, 0x80, 0x8F)
  else none

/-- The bits a first byte gives to its character. -/
def leadBits (more : Nat) (b : UInt8) : Nat :=
  match more with
  | 1 => b.toNat % 32
  | 2 => b.toNat % 16
  | _ => b.toNat % 8

/-- Inside a character: bytes still asked for, the bounds of the next, and the bits so far. A byte
out of bounds ends the character with a replacement and is read afresh. -/
structure Partial where
  more : Nat
  low : UInt8
  high : UInt8
  bits : Nat

def replacement : Char := Char.ofNat 0xFFFD

/-- A byte where a character may start. -/
def startByte (b : UInt8) : List Char × Option Partial :=
  if b < 0x80 then ([Char.ofNat b.toNat], none)
  else match leading b with
    | none => ([replacement], none)
    | some (more, low, high) => ([], some ⟨more, low, high, leadBits more b⟩)

def decodeLossy : Option Partial → List UInt8 → List Char
  | none, [] => []
  | some _, [] => [replacement]
  | none, b :: rest => (startByte b).1 ++ decodeLossy (startByte b).2 rest
  | some part, b :: rest =>
    if part.low ≤ b ∧ b ≤ part.high then
      if part.more = 1 then Char.ofNat (part.bits * 64 + b.toNat % 64) :: decodeLossy none rest
      else decodeLossy (some ⟨part.more - 1, 0x80, 0xBF, part.bits * 64 + b.toNat % 64⟩) rest
    else replacement :: ((startByte b).1 ++ decodeLossy (startByte b).2 rest)

def fromUtf8Lossy (bytes : List UInt8) : List Char := decodeLossy none bytes

/-! ### Texts -/

/-- `str::trim`. -/
def trim (text : List Char) : List Char :=
  ((text.dropWhile Text.isWhiteSpace).reverse.dropWhile Text.isWhiteSpace).reverse

def lower (text : List Char) : List Char := text.map Char.toLower

def eqIgnoreAsciiCase (a b : List Char) : Bool := lower a == lower b

/-- A line without the `\r` before its end; given backwards. -/
def chopReturn : List Char → List Char
  | '\r' :: front => front
  | front => front

/-- `str::lines`, with the characters of the line so far, backwards. -/
def linesFrom : List Char → List Char → List (List Char)
  | [], seen => if seen.isEmpty then [] else [seen.reverse]
  | c :: rest, seen =>
    if c = '\n' then (chopReturn seen).reverse :: linesFrom rest []
    else linesFrom rest (c :: seen)

def lines (text : List Char) : List (List Char) := linesFrom text []

/-- `str::split_once`. -/
def splitOnce (sep : Char) : List Char → Option (List Char × List Char)
  | [] => none
  | c :: rest =>
    if c = sep then some ([], rest) else (splitOnce sep rest).map fun (a, b) => (c :: a, b)

def splitWhitespace (text : List Char) : List (List Char) :=
  (text.splitOnP Text.isWhiteSpace).filter (!·.isEmpty)

/-! ### Slices of the buffer -/

/-- `&buffer[..stop]`. -/
def upTo (buffer : List UInt8) (stop : Nat) : Option (List UInt8) :=
  if stop ≤ buffer.length then some (buffer.take stop) else none

/-- `&buffer[start..stop]`. -/
def between (buffer : List UInt8) (start stop : Nat) : Option (List UInt8) :=
  if start ≤ stop ∧ stop ≤ buffer.length then some ((buffer.take stop).drop start) else none

/-! ### The headers -/

/-- `buffer.windows(4).position(|window| window == b"\r\n\r\n")`. -/
def findHeaderEnd : List UInt8 → Option Nat
  | [] => none
  | b :: rest =>
    if (b :: rest).take 4 = [13, 10, 13, 10] then some 0 else (findHeaderEnd rest).map (· + 1)

def digitValue (c : Char) : Option Nat :=
  if '0' ≤ c ∧ c ≤ '9' then some (c.toNat - 48) else none

/-- `str::parse::<usize>`: an optional plus, then digits, below 2^64. -/
def parseUsize (text : List Char) : Option Nat :=
  let digits := match text with
    | '+' :: rest => rest
    | text => text
  if digits.isEmpty then none
  else (digits.foldlM (fun n c => (digitValue c).map (n * 10 + ·)) 0).filter (· < 2 ^ 64)

def contentLengthOf (line : List Char) : Option Nat :=
  (splitOnce ':' line).bind fun (name, value) =>
    if eqIgnoreAsciiCase name "content-length".toList then parseUsize (trim value) else none

def parseContentLength (header : List Char) : Nat :=
  ((lines header).findSome? contentLengthOf).getD 0

/-- The value of a line that is an `Authorization` header. -/
def authValue (line : List Char) : Option (List Char) :=
  let trimmed := trim line
  if "authorization:".toList.isPrefixOf (lower trimmed) then
    some (match splitOnce ':' trimmed with
      | some (_, value) => trim value
      | none => [])
  else none

/-- What the two parts of a value give. -/
def tokenAfter (front rest : List Char) : Option (List Char) :=
  if eqIgnoreAsciiCase front "bearer ".toList && !(trim rest).isEmpty then some (trim rest) else none

/-- The token of a value, cut at its seventh byte. -/
def bearer (value : List Char) : Option (Option (List Char)) :=
  if 7 < size value then
    (prefixAt value 7).bind fun front => (suffixAt value 7).map (tokenAfter front)
  else some none

/-- The loop of `parse_auth_token`. -/
def authToken : List (List Char) → Option (Option (List Char))
  | [] => some none
  | line :: rest =>
    match authValue line with
    | none => authToken rest
    | some value =>
      match bearer value with
      | none => none
      | some (some token) => some (some token)
      | some none => authToken rest

def parseAuthToken (header : List Char) : Option (Option (List Char)) := authToken (lines header)

/-! ### The client's address -/

/-- What the standard library does with addresses. -/
structure Net (ι : Type) where
  parse : List Char → Option ι
  isLoopback : ι → Bool
  toText : ι → List Char

section

variable {ι : Type} (net : Net ι)

def headerIpOf (name : List Char) (takeLast : Bool) (line : List Char) : Option ι :=
  (splitOnce ':' line).bind fun (headerName, value) =>
    if eqIgnoreAsciiCase (trim headerName) name then
      let candidates := ((value.splitOn ',').map trim).filter (!·.isEmpty)
      (if takeLast then candidates.getLast? else candidates.head?).bind net.parse
    else none

def parseHeaderIp (header name : List Char) (takeLast : Bool) : Option ι :=
  (lines header).findSome? (headerIpOf net name takeLast)

def requestClientIp (header : List Char) (peerIp : Option ι) : List Char :=
  match peerIp with
  | none => "unknown".toList
  | some peer =>
    if !net.isLoopback peer then net.toText peer
    else net.toText (((parseHeaderIp net header "x-real-ip".toList false).or
      (parseHeaderIp net header "x-forwarded-for".toList true)).getD peer)

end

/-! ### The target -/

def hexNibble (b : UInt8) : Option UInt8 :=
  if 48 ≤ b ∧ b ≤ 57 then some (b - 48)
  else if 97 ≤ b ∧ b ≤ 102 then some (b - 97 + 10)
  else if 65 ≤ b ∧ b ≤ 70 then some (b - 65 + 10)
  else none

/-- The byte of an escape at the index; the inner option is what the code matches on. -/
def escapeAt (bytes : List UInt8) (index : Nat) : Option (Option UInt8) :=
  (bytes[index]?).bind fun b =>
    if b = 37 ∧ index + 2 < bytes.length then
      (bytes[index + 1]?).bind fun b₁ => (bytes[index + 2]?).bind fun b₂ =>
        some ((hexNibble b₁).bind fun high => (hexNibble b₂).map fun low => high <<< 4 ||| low)
    else some none

/-- The loop of `percent_decode`; the fuel is as many rounds as there are bytes. -/
def percentLoop (bytes : List UInt8) : Nat → Nat → List UInt8 → Option (List UInt8)
  | 0, index, out => if index < bytes.length then none else some out
  | fuel + 1, index, out =>
    if index < bytes.length then
      (escapeAt bytes index).bind fun escape =>
        match escape with
        | some b => percentLoop bytes fuel (index + 3) (out ++ [b])
        | none => (bytes[index]?).bind fun b =>
          percentLoop bytes fuel (index + 1) (out ++ [if b = 43 then 32 else b])
    else some out

def percentDecode (value : List Char) : Option (List Char) :=
  (percentLoop (encode value) (encode value).length 0 []).map fromUtf8Lossy

/-! ### The request -/

structure Request where
  method : List Char
  path : List Char
  query : List Char
  body : List UInt8
  authToken : Option (List Char)
  clientIp : List Char
deriving DecidableEq, Repr

section

variable {ι : Type} (net : Net ι)

def parseRequest (header : List Char) (body : List UInt8) (peerIp : Option ι) : Option Request :=
  let first := (lines header).headD []
  let parts := splitWhitespace first
  let method := parts.headD []
  let target := (parts.drop 1).headD ['/']
  let (path, query) := (splitOnce '?' target).getD (target, [])
  (percentDecode path).bind fun path =>
    (parseAuthToken header).map fun token =>
      { method, path, query, body, authToken := token,
        clientIp := requestClientIp net header peerIp }

/-- What was read from a connection. -/
inductive Received where
  | closed
  | ioError
  | refused (status : Nat)
  | complete (header : List Char) (body : List UInt8)

/-- Read until so many bytes are there or the peer has finished; `none` is an I/O error. An empty
read is the end. -/
def fill (fails : Bool) (expected : Nat) : List (List UInt8) → List UInt8 → Option (List UInt8)
  | [], buffer => if expected ≤ buffer.length then some buffer else if fails then none else some buffer
  | chunk :: reads, buffer =>
    if expected ≤ buffer.length then some buffer
    else if chunk.isEmpty then some buffer
    else fill fails expected reads (buffer ++ chunk)

/-- After the end of the headers was found. -/
def receiveBody (fails : Bool) (reads : List (List UInt8)) (buffer : List UInt8)
    (headerEnd : Nat) : Option Received :=
  if MAX_HTTP_HEADER_BYTES < headerEnd then some (.refused 431)
  else
    (upTo buffer headerEnd).bind fun bytes =>
      let header := fromUtf8Lossy bytes
      let contentLength := parseContentLength header
      if MAX_HTTP_REQUEST_BODY_BYTES < contentLength then some (.refused 413)
      else if 2 ^ 64 ≤ headerEnd + 4 + contentLength then some (.refused 413)
      else
        match fill fails (headerEnd + 4 + contentLength) reads buffer with
        | none => some .ioError
        | some buffer =>
          (between buffer (headerEnd + 4)
            (min (headerEnd + 4 + contentLength) buffer.length)).map (.complete header)

/-- The reads of a connection, in any split; after the last one the peer has finished, or reading
fails. -/
def receive (fails : Bool) : List (List UInt8) → List UInt8 → Option Received
  | [], _ => some (if fails then .ioError else .closed)
  | chunk :: reads, buffer =>
    if chunk.isEmpty then some .closed
    else
      match findHeaderEnd (buffer ++ chunk) with
      | some headerEnd => receiveBody fails reads (buffer ++ chunk) headerEnd
      | none =>
        if MAX_HTTP_HEADER_BYTES < (buffer ++ chunk).length then some (.refused 413)
        else receive fails reads (buffer ++ chunk)

/-- How a connection ends. -/
inductive Reply where
  | closed
  | ioError
  | answered (status : Nat)
  | routed (request : Request)
deriving DecidableEq, Repr

def handleStream (fails : Bool) (peerIp : Option ι) (reads : List (List UInt8)) : Option Reply :=
  (receive fails reads []).bind fun received =>
    match received with
    | .closed => some .closed
    | .ioError => some .ioError
    | .refused status => some (.answered status)
    | .complete header body => (parseRequest net header body peerIp).map .routed

end

end TkbCherry.Http
