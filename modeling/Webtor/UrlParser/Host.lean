/-
Module: Webtor.UrlParser.Host
Purpose: the host of a special URL, as `to_wss_url` reaches it through `Url::parse` and
  `host_str()`: `Host::parse` (an IPv6 literal in brackets, or a percent-decoded domain run
  through IDNA and then read as an IPv4 address when it ends in a number), `parse_ipv4number`,
  `parse_ipv4addr`, `ends_in_a_number`, `parse_ipv6addr`, and the `Display` of a host
  (dotted decimal, and IPv6 pieces in lower-case hex with the first longest run of at least two
  zero pieces written `::`).
Trusted boundary: the `url` crate is not under src/. Its host parser is modelled from the URL
  Standard's host parser as the crate writes it: the IPv6 parser reads characters where the
  crate reads bytes, which rejects the same inputs, since a byte of a non-ASCII character is
  neither a digit nor a separator. IDNA's `domain_to_ascii` is a parameter (`Idna`) with two
  laws: it is idempotent on its results, and it leaves a string of ASCII digits and dots as it is.
Main exports: ParseError, Idna, Ipv6Addr, Host, percentDecode, ipv4Radix, parseIpv4Number,
  parseIpv4Addr, endsInANumber, parseIpv6Addr, ipv4Serialize, ipv6Serialize, Host.parseDomain,
  Host.parse, Host.serialize
-/
import Webtor.Basic
import Webtor.Text.Str
import Webtor.Text.Utf8
import Webtor.Text.Digits

namespace Webtor.UrlParser

open Webtor.Text

/-- Equality of parse results is decidable, so that a run of the parser can be checked by
`decide`. -/
instance decEqExcept {ε α : Type} [DecidableEq ε] [DecidableEq α] : DecidableEq (Except ε α)
  | .error e, .error e' =>
      if same : e = e' then .isTrue (same ▸ rfl) else .isFalse fun eq => same (by injection eq)
  | .ok a, .ok a' =>
      if same : a = a' then .isTrue (same ▸ rfl) else .isFalse fun eq => same (by injection eq)
  | .error _, .ok _ => .isFalse fun eq => by cases eq
  | .ok _, .error _ => .isFalse fun eq => by cases eq

/-- `url::ParseError`: the variants the modelled parser returns. -/
inductive ParseError where
  | emptyHost
  | idnaError
  | invalidPort
  | invalidIpv4Address
  | invalidIpv6Address
  | invalidDomainCharacter
  | relativeUrlWithoutBase
deriving DecidableEq, Repr

/-- The `Display` of a `ParseError`. -/
def ParseError.message : ParseError → String
  | .emptyHost => "empty host"
  | .idnaError => "invalid international domain name"
  | .invalidPort => "invalid port number"
  | .invalidIpv4Address => "invalid IPv4 address"
  | .invalidIpv6Address => "invalid IPv6 address"
  | .invalidDomainCharacter => "invalid domain character"
  | .relativeUrlWithoutBase => "relative URL without a base"

/-- IDNA's `domain_to_ascii` as `Host::parse` calls it (`none` is an IDNA error), with the two
laws the host round trip rests on. -/
structure Idna where
  domainToAscii : List Char → Option (List Char)
  idempotent : ∀ domain ascii, domainToAscii domain = some ascii → domainToAscii ascii = some ascii
  keepsDigits : ∀ s : List Char, s ≠ [] → (∀ c ∈ s, c.isDigit ∨ c = '.') →
    domainToAscii s = some s

/-- An `Idna` that accepts lower-case ASCII letters, digits, `-` and `.` unchanged and rejects
every other domain: the two laws hold together. -/
def asciiIdna : Idna where
  domainToAscii cs :=
    if cs.all fun c => c.isLower || c.isDigit || c = '-' || c = '.' then some cs else none
  idempotent domain ascii mapped := by
    dsimp only at mapped ⊢
    split at mapped
    · cases mapped
      rw [if_pos ‹_›]
    · cases mapped
  keepsDigits s _ digits := by
    dsimp only
    rw [if_pos (List.all_eq_true.mpr fun c member => by
      rcases digits c member with digit | dot <;> simp [*])]

/-! ### Percent-decoding and domains -/

/-- The loop of `percent_decode` with `fuel` steps: `%` followed by two hexadecimal digits is
the byte they denote; any other byte stands for itself. -/
def percentDecodeLoop : Nat → List UInt8 → List UInt8
  | 0, bytes => bytes
  | _ + 1, [] => []
  | fuel + 1, b :: rest =>
      if b = 37 then
        match rest with
        | high :: low :: more =>
            match hexValue (Char.ofNat high.toNat), hexValue (Char.ofNat low.toNat) with
            | some h, some l => (h * 16 + l).toUInt8 :: percentDecodeLoop fuel more
            | _, _ => b :: percentDecodeLoop fuel rest
        | _ => b :: percentDecodeLoop fuel rest
      else b :: percentDecodeLoop fuel rest

/-- `percent_decode`: one step per byte is enough. -/
def percentDecode (bytes : List UInt8) : List UInt8 := percentDecodeLoop bytes.length bytes

/-- The characters `Host::parse` rejects in a domain after IDNA. -/
def isForbiddenDomainChar (c : Char) : Bool :=
  c.toNat ≤ 0x20 || c = '#' || c = '%' || c = '/' || c = ':' || c = '<' || c = '>' || c = '?' ||
    c = '@' || c = '[' || c.toNat = 0x5C || c = ']' || c = '^' || c.toNat = 0x7F || c = '|'

/-! ### IPv4 -/

/-- Whether `c` is a digit of `radix` (8, 10 or 16). -/
def isRadixDigit (radix : Nat) (c : Char) : Bool :=
  match hexValue c with
  | some d => d < radix
  | none => false

/-- The radix of `parse_ipv4number` and the digits it reads: a `0x` prefix reads hexadecimal,
a leading `0` before more digits octal. -/
def ipv4Radix (input : List Char) : List Char × Nat :=
  match input with
  | '0' :: 'x' :: rest => (rest, 16)
  | '0' :: 'X' :: rest => (rest, 16)
  | '0' :: d :: rest => (d :: rest, 8)
  | _ => (input, 10)

/-- `parse_ipv4number`: `none` is `Err(())`; `some none` is a valid number above `u32::MAX`. -/
def parseIpv4Number (input : List Char) : Option (Option Nat) :=
  if input = [] then none
  else
    let (digits, radix) := ipv4Radix input
    if digits = [] then some (some 0)
    else if digits.all (isRadixDigit radix) then
      some (if digitsValue radix digits < 2 ^ 32 then some (digitsValue radix digits) else none)
    else none

/-- `ends_in_a_number`: the last label (the one before a trailing dot) is all digits, or reads
as an IPv4 number. -/
def endsInANumber (input : List Char) : Bool :=
  let last : Option (List Char) := match (splitChars '.' input).reverse with
    | [] :: next :: _ => some next
    | [[]] => none
    | last :: _ => some last
    | [] => none
  match last with
  | none => false
  | some last => (last ≠ [] && last.all Char.isDigit) || (parseIpv4Number last).isSome

/-- `ipv4 += n << (8 * (3 - counter))` over the numbers before the last. -/
def ipv4Combine : Nat → List Nat → Nat → Nat
  | _, [], acc => acc
  | counter, n :: rest, acc => ipv4Combine (counter + 1) rest (acc + n * 256 ^ (3 - counter))

/-- `parse_ipv4addr`. The crate's `expect` on an empty number list is never reached from
`Host::parse`, whose input is never empty; the model returns the address error there. -/
def parseIpv4Addr (input : List Char) : Except ParseError UInt32 := do
  let parts := splitChars '.' input
  let parts := if parts.getLast? = some [] then parts.dropLast else parts
  if 4 < parts.length then throw .invalidIpv4Address
  let numbers ← parts.mapM fun part =>
    match parseIpv4Number part with
    | some (some n) => pure n
    | _ => throw .invalidIpv4Address
  match numbers.reverse with
  | [] => throw .invalidIpv4Address
  | last :: earlier =>
      if (2 ^ 32 - 1) / 256 ^ earlier.length < last then throw .invalidIpv4Address
      if earlier.any (255 < ·) then throw .invalidIpv4Address
      pure (ipv4Combine 0 earlier.reverse last).toUInt32

/-- The `Display` of an `Ipv4Addr`: its four octets in decimal. -/
def ipv4Serialize (addr : UInt32) : List Char :=
  Nat.toDigits 10 (addr.toNat / 2 ^ 24 % 256) ++ '.' ::
    Nat.toDigits 10 (addr.toNat / 2 ^ 16 % 256) ++ '.' ::
      Nat.toDigits 10 (addr.toNat / 2 ^ 8 % 256) ++ '.' :: Nat.toDigits 10 (addr.toNat % 256)

/-! ### IPv6 -/

/-- An IPv6 address: the crate's `[u16; 8]` of pieces. -/
structure Ipv6Addr where
  pieces : List UInt16
  length_eq : pieces.length = 8
deriving DecidableEq

namespace Ipv6Addr

/-- All pieces zero. -/
def zero : Ipv6Addr := ⟨List.replicate 8 0, rfl⟩

/-- `pieces[i]`. -/
def get (addr : Ipv6Addr) (i : Nat) : UInt16 := addr.pieces.getD i 0

/-- `pieces[i] = v`. -/
def set (addr : Ipv6Addr) (i : Nat) (v : UInt16) : Ipv6Addr :=
  ⟨addr.pieces.set i v, by rw [List.length_set, addr.length_eq]⟩

/-- `pieces.swap(i, j)`. -/
def swap (addr : Ipv6Addr) (i j : Nat) : Ipv6Addr := (addr.set i (addr.get j)).set j (addr.get i)

end Ipv6Addr

/-- Up to `budget` hexadecimal digits from the front: their value, how many, and the rest. -/
def readHex (value count : Nat) : Nat → List Char → Nat × Nat × List Char
  | 0, rest => (value, count, rest)
  | _ + 1, [] => (value, count, [])
  | budget + 1, c :: rest =>
      match hexValue c with
      | some digit => readHex (value * 16 + digit) (count + 1) budget rest
      | none => (value, count, c :: rest)

/-- The state of `parse_ipv6addr`'s first loop. -/
structure Ipv6Scan where
  pieces : Ipv6Addr
  piecePointer : Nat
  compressPointer : Option Nat

/-- `pieces[piece_pointer] = value; piece_pointer += 1`. -/
def Ipv6Scan.store (scan : Ipv6Scan) (value : UInt16) : Ipv6Scan :=
  { scan with pieces := scan.pieces.set scan.piecePointer value,
              piecePointer := scan.piecePointer + 1 }

/-- The first loop of `parse_ipv6addr`, over groups of up to four hex digits and `::`. It
returns its last state and, when an embedded IPv4 address starts, the input from the start of
that group. -/
def ipv6Groups : Nat → List Char → Ipv6Scan → Except ParseError (Ipv6Scan × Option (List Char))
  | 0, _, _ => .error .invalidIpv6Address
  | _ + 1, [], scan => .ok (scan, none)
  | fuel + 1, c :: rest, scan =>
      if scan.piecePointer = 8 then .error .invalidIpv6Address
      else if c = ':' then
        if scan.compressPointer.isSome then .error .invalidIpv6Address
        else ipv6Groups fuel rest
          { scan with piecePointer := scan.piecePointer + 1,
                      compressPointer := some (scan.piecePointer + 1) }
      else
        let (value, count, after) := readHex 0 0 4 (c :: rest)
        match after with
        | [] => .ok (scan.store value.toUInt16, none)
        | '.' :: _ =>
            if count = 0 then .error .invalidIpv6Address
            else if 6 < scan.piecePointer then .error .invalidIpv6Address
            else .ok (scan, some (c :: rest))
        | ':' :: more =>
            if more = [] then .error .invalidIpv6Address
            else ipv6Groups fuel more (scan.store value.toUInt16)
        | _ :: _ => .error .invalidIpv6Address

/-- One decimal number of an embedded IPv4 address: no leading zero, at most 255. -/
def readIpv4Piece : Option Nat → List Char → Except ParseError (Option Nat × List Char)
  | piece, [] => .ok (piece, [])
  | piece, c :: rest =>
      match decValue c with
      | none => .ok (piece, c :: rest)
      | some digit =>
          match piece with
          | none => readIpv4Piece (some digit) rest
          | some 0 => .error .invalidIpv6Address
          | some v =>
              if 255 < v * 10 + digit then .error .invalidIpv6Address
              else readIpv4Piece (some (v * 10 + digit)) rest

/-- The embedded IPv4 loop of `parse_ipv6addr`: four dotted numbers fill two pieces. -/
def ipv6Ipv4Part : Nat → List Char → Ipv6Addr → Nat → Nat → Except ParseError (Ipv6Addr × Nat)
  | 0, _, _, _, _ => .error .invalidIpv6Address
  | _ + 1, [], pieces, piecePointer, numbersSeen =>
      if numbersSeen = 4 then .ok (pieces, piecePointer) else .error .invalidIpv6Address
  | fuel + 1, c :: rest, pieces, piecePointer, numbersSeen => do
      let input ←
        if 0 < numbersSeen then
          if numbersSeen < 4 ∧ c = '.' then pure rest else throw .invalidIpv6Address
        else pure (c :: rest)
      let (piece, after) ← readIpv4Piece none input
      match piece with
      | none => throw .invalidIpv6Address
      | some v =>
          let pieces := pieces.set piecePointer (pieces.get piecePointer * 0x100 + v.toUInt16)
          let numbersSeen := numbersSeen + 1
          ipv6Ipv4Part fuel after pieces
            (if numbersSeen = 2 ∨ numbersSeen = 4 then piecePointer + 1 else piecePointer)
            numbersSeen

/-- The closing loop of `parse_ipv6addr`: the pieces after `::` move to the end. -/
def swapLoop (compress : Nat) : Ipv6Addr → Nat → Nat → Ipv6Addr
  | pieces, 0, _ => pieces
  | pieces, swaps + 1, piecePointer =>
      swapLoop compress (pieces.swap piecePointer (compress + swaps)) swaps (piecePointer - 1)

/-- The start of `parse_ipv6addr`: a leading `::` compresses from piece 1. -/
def ipv6Start (input : List Char) : Except ParseError (Ipv6Scan × List Char) :=
  match input with
  | ':' :: second :: rest =>
      if second = ':' then .ok (⟨Ipv6Addr.zero, 1, some 1⟩, rest) else .error .invalidIpv6Address
  | _ => .ok (⟨Ipv6Addr.zero, 0, none⟩, input)

/-- The end of `parse_ipv6addr`: the embedded IPv4 loop when one started, then the swap loop
after `::`, or the check that all eight pieces were given. -/
def ipv6Close (fuel : Nat) (scan : Ipv6Scan) (ipv4 : Option (List Char)) :
    Except ParseError Ipv6Addr := do
  let (pieces, piecePointer) ←
    match ipv4 with
    | none => pure (scan.pieces, scan.piecePointer)
    | some part =>
        if 6 < scan.piecePointer then throw .invalidIpv6Address
        else ipv6Ipv4Part fuel part scan.pieces scan.piecePointer 0
  match scan.compressPointer with
  | some compress => pure (swapLoop compress pieces (piecePointer - compress) 7)
  | none => if piecePointer = 8 then pure pieces else throw .invalidIpv6Address

/-- `parse_ipv6addr`, on the text between the brackets. -/
def parseIpv6Addr (input : List Char) : Except ParseError Ipv6Addr := do
  if input.length < 2 then throw .invalidIpv6Address
  let (scan, rest) ← ipv6Start input
  let (scan, ipv4) ← ipv6Groups (input.length + 1) rest scan
  ipv6Close (input.length + 1) scan ipv4

/-- `finish_sequence!` of `longest_zero_sequence`: a run of zeros from `start` ends at `stop`;
it replaces the best run when strictly longer. -/
def closeRun (start : Option Nat) (stop : Nat) (best : Option (Nat × Nat)) :
    Option (Nat × Nat) :=
  match start with
  | none => best
  | some s => if best.all (·.2 < stop - s) then some (s, stop - s) else best

/-- The scan of `longest_zero_sequence`: the start of the current run of zero pieces and the
best run so far, as `(start, length)`. -/
def zeroRuns : List UInt16 → Nat → Option Nat → Option (Nat × Nat) → Option (Nat × Nat)
  | [], i, start, best => closeRun start i best
  | p :: ps, i, start, best =>
      if p = 0 then zeroRuns ps (i + 1) (if start.isSome then start else some i) best
      else zeroRuns ps (i + 1) none (closeRun start i best)

/-- `longest_zero_sequence`: the first longest run of zero pieces as `(start, end)`, when it has
at least two pieces. -/
def longestZeroSequence (pieces : List UInt16) : Option (Nat × Nat) :=
  match zeroRuns pieces 0 none none with
  | some (start, length) => if length < 2 then none else some (start, start + length)
  | none => none

/-- A piece in lower-case hex (`{:x}`), followed by `:` unless it is the last. -/
def ipv6Piece (pieces : List UInt16) (i : Nat) : List Char :=
  Nat.toDigits 16 (pieces.getD i 0).toNat ++ (if i < 7 then [':'] else [])

/-- The loop of `write_ipv6` from piece `i`: the compressed run is written `:` (`::` at the
start) and skipped. -/
def writeIpv6 (pieces : List UInt16) (compress : Option (Nat × Nat)) : Nat → Nat → List Char
  | 0, _ => []
  | fuel + 1, i =>
      if 8 ≤ i then []
      else match compress with
        | some (start, stop) =>
            if i = start then
              (if i = 0 then [':', ':'] else [':']) ++
                (if stop < 8 then ipv6Piece pieces stop ++ writeIpv6 pieces compress fuel (stop + 1)
                 else [])
            else ipv6Piece pieces i ++ writeIpv6 pieces compress fuel (i + 1)
        | none => ipv6Piece pieces i ++ writeIpv6 pieces compress fuel (i + 1)

/-- `write_ipv6`. -/
def ipv6Serialize (addr : Ipv6Addr) : List Char :=
  writeIpv6 addr.pieces (longestZeroSequence addr.pieces) 8 0

/-! ### Hosts -/

/-- `url::Host<String>`. -/
inductive Host where
  | domain (name : String)
  | ipv4 (addr : UInt32)
  | ipv6 (addr : Ipv6Addr)
deriving DecidableEq

/-- The `Display` of a host, which `host_str()` returns. -/
def Host.serialize : Host → List Char
  | .domain name => name.data
  | .ipv4 addr => ipv4Serialize addr
  | .ipv6 addr => '[' :: ipv6Serialize addr ++ [']']

/-- The domain part of `Host::parse`, after percent-decoding: IDNA, then the checks on the
ASCII domain, which is read as an IPv4 address when it ends in a number. -/
def Host.parseDomain (idna : Idna) (domain : List Char) : Except ParseError Host :=
  match idna.domainToAscii domain with
  | none => .error .idnaError
  | some ascii =>
      if ascii = [] then .error .emptyHost
      else if ascii.any isForbiddenDomainChar then .error .invalidDomainCharacter
      else if endsInANumber ascii then (parseIpv4Addr ascii).map Host.ipv4
      else .ok (.domain ⟨ascii⟩)

/-- `Host::parse` of a special URL's host text. -/
def Host.parse (idna : Idna) (input : List Char) : Except ParseError Host :=
  match input with
  | '[' :: inner =>
      if input.getLast? = some ']' then (parseIpv6Addr inner.dropLast).map Host.ipv6
      else .error .invalidIpv6Address
  | _ => Host.parseDomain idna (fromUtf8Lossy (percentDecode (encodeChars input)))

example : Host.parse asciiIdna "0x7f.1".data = .ok (.ipv4 0x7F000001) := by decide

example : (Host.parse asciiIdna "[1:0:0:2:0:0:0:3]".data).map Host.serialize =
    .ok "[1:0:0:2::3]".data := by decide

end Webtor.UrlParser
