import WebhookRelay.Text.Blank
import WebhookRelay.Text.LowerCase
import WebhookRelay.Text.Split
import WebhookRelay.Url.Error
import WebhookRelay.Url.Percent
import WebhookRelay.Url.Punycode

/-!
# Hosts

A host is a domain name, an IPv4 or an IPv6 address. In a web URL a name whose last
part is a number is an IPv4 address, with parts in decimal, octal or hexadecimal; a
domain name is brought to lower-case ASCII. In other URLs a name is kept as it is.
-/

set_option autoImplicit false

namespace WebhookRelay

inductive Host where
  | domain (name : List Char)
  | ipv4 (address : Nat)
  | ipv6 (pieces : List Nat)
  deriving DecidableEq, Repr

namespace Host

/-! ## IPv4 -/

/-- A part of an IPv4 address: hexadecimal behind `0x`, octal behind `0`. -/
def ipv4Number? : List Char → Option Nat
  | [] => none
  | '0' :: 'x' :: rest => Hex.numberIn? 16 rest
  | '0' :: 'X' :: rest => Hex.numberIn? 16 rest
  | '0' :: c :: rest => Hex.numberIn? 8 (c :: rest)
  | digits => Hex.numberIn? 10 digits

def significantParts (name : List Char) : List (List Char) :=
  let parts := Text.splitOn '.' name
  if parts.length > 1 ∧ parts.getLast? = some [] then parts.dropLast else parts

def endsInNumber (name : List Char) : Bool :=
  match (significantParts name).getLast? with
  | none => false
  | some last =>
      (!last.isEmpty && last.all Decimal.isDigit) || (ipv4Number? last).isSome

def leadingBytes? : List Nat → (weight : Nat) → Option Nat
  | [], _ => some 0
  | n :: rest, weight =>
      if n < 256 then (leadingBytes? rest (weight / 256)).map (n * weight + ·) else none

def parseIpv4 (name : List Char) : Except UrlError Host :=
  match (significantParts name).mapM ipv4Number? with
  | none => .error .invalidIpv4
  | some numbers =>
      let leading := numbers.dropLast
      match numbers.getLast?, leadingBytes? leading 0x1000000 with
      | some last, some total =>
          if numbers.length ≤ 4 ∧ last < Nat.pow 256 (4 - leading.length) then
            .ok (.ipv4 (total + last))
          else .error .invalidIpv4
      | _, _ => .error .invalidIpv4

/-! ## IPv6 -/

def decimalByte? (digits : List Char) : Option Nat :=
  match digits with
  | '0' :: _ :: _ => none
  | _ => (Decimal.nat? digits).filter (· < 256)

def dottedPieces? (text : List Char) : Option (List Nat) :=
  match (Text.splitOn '.' text).mapM decimalByte? with
  | some [a, b, c, d] => some [a * 256 + b, c * 256 + d]
  | _ => none

def hexPiece? (text : List Char) : Option Nat :=
  if text.isEmpty ∨ 4 < text.length then none else Hex.number? text

/-- Pieces of which the last one may be an IPv4 address where `final` holds. -/
def pieces? (final : Bool) : List (List Char) → Option (List Nat)
  | [] => some []
  | [last] =>
      match hexPiece? last with
      | some piece => some [piece]
      | none => if final then dottedPieces? last else none
  | part :: rest => do
      let piece ← hexPiece? part
      let tail ← pieces? final rest
      return piece :: tail

def splitGap? : List Char → Option (List Char × List Char)
  | [] => none
  | ':' :: ':' :: rest => some ([], rest)
  | c :: rest => (splitGap? rest).map fun (before, after) => (c :: before, after)

def partsOf (text : List Char) : List (List Char) :=
  if text.isEmpty then [] else Text.splitOn ':' text

def parseIpv6 (text : List Char) : Except UrlError Host :=
  let found : Option (List Nat) :=
    match splitGap? text with
    | none => (pieces? true (partsOf text)).filter (·.length = 8)
    | some (before, after) => do
        let left ← pieces? false (partsOf before)
        let right ← pieces? true (partsOf after)
        let known := left.length + right.length
        if known ≤ 7 then some (left ++ List.replicate (8 - known) 0 ++ right) else none
  match found with
  | some pieces => .ok (.ipv6 pieces)
  | none => .error .invalidIpv6

/-! ## Domain names -/

def isInvisible (n : Nat) : Bool :=
  (0x200C ≤ n && n ≤ 0x200F) || (0x202A ≤ n && n ≤ 0x202E) || (0x2066 ≤ n && n ≤ 0x2069)

/-- Characters that no domain name holds: controls, blanks, marks of direction, private
ones and the signs that have a meaning in a URL. -/
def isForbidden (c : Char) : Bool :=
  let n := c.toNat
  n < 0x20 || (0x7F ≤ n && n < 0xA0) || Text.isBlank c || isInvisible n ||
    (0xE000 ≤ n && n ≤ 0xF8FF) || n = 0xFFFD || n % 0x10000 = 0xFFFE || n % 0x10000 = 0xFFFF ||
    ['%', '#', '/', ':', '<', '>', '?', '@', '[', '\\', ']', '^', '|'].contains c

def isAccent (c : Char) : Bool :=
  0x0300 ≤ c.toNat && c.toNat ≤ 0x036F

/-- Characters that a domain name drops: the soft hyphen, joiners without width and
variation selectors. -/
def isDropped (c : Char) : Bool :=
  let n := c.toNat
  n = 0xAD || n = 0x200B || n = 0x2060 || n = 0xFEFF || (0xFE00 ≤ n && n ≤ 0xFE0F)

def plainForm (c : Char) : Char :=
  let n := c.toNat
  if n = 0x3002 ∨ n = 0xFF61 then '.'
  else if 0xFF01 ≤ n ∧ n ≤ 0xFF5E then Char.ofNat (n - 0xFEE0)
  else c

def mapName (name : List Char) : List Char :=
  ((name.filter fun c => !isDropped c).map plainForm).flatMap fun c =>
    if c = 'İ' then ['i', '\u0307'] else [Text.lowerPartner c]

def encodedMark : List Char := ['x', 'n', '-', '-']

/-- The ASCII form of one label, which neither begins with an accent nor is encoded in
part. -/
def asciiLabel? (label : List Char) : Option (List Char) :=
  if label.head?.any isAccent then none
  else if label.all fun c => c.toNat < 128 then
    if label.take 4 = encodedMark then
      match Punycode.decode? (label.drop 4) with
      | some decoded =>
          if decoded.any (fun c => 128 ≤ c.toNat) && !decoded.any isForbidden &&
              Punycode.encode decoded = label.drop 4 && mapName decoded = decoded then
            some label
          else none
      | none => none
    else some label
  else if label.take 4 = encodedMark then none
  else some (encodedMark ++ Punycode.encode label)

def asciiName? (name : List Char) : Option (List Char) :=
  let mapped := mapName name
  if mapped.any isForbidden then none
  else ((Text.splitOn '.' mapped).mapM asciiLabel?).map (Text.join '.')

def parse (text : List Char) : Except UrlError Host :=
  match text with
  | '[' :: rest =>
      if rest.getLast? = some ']' then parseIpv6 rest.dropLast else .error .invalidIpv6
  | _ =>
      match (Text.ofUtf8? (Percent.decode text)).bind fun name => asciiName? name.toList with
      | none => .error .invalidDomainName
      | some [] => .error .emptyHost
      | some name => if endsInNumber name then parseIpv4 name else .ok (.domain name)

def parseOpaque (text : List Char) : Except UrlError Host :=
  match text with
  | '[' :: rest =>
      if rest.getLast? = some ']' then parseIpv6 rest.dropLast else .error .invalidIpv6
  | _ =>
      if text.any fun c => ['\x00', '\t', '\n', '\r', ' ', '#', '/', ':', '<', '>', '?', '@', '[',
          '\\', ']', '^', '|'].contains c then
        .error .invalidDomainCharacter
      else .ok (.domain (Percent.encode Percent.isControl text))

/-! ## Text -/

/-- The start and length of the first longest run of zero pieces. -/
def longestZeros : List Nat → (index : Nat) → Nat × Nat
  | [], index => (index, 0)
  | piece :: rest, index =>
      let run := ((piece :: rest).takeWhile (· = 0)).length
      let later := longestZeros rest (index + 1)
      if later.2 ≤ run then (index, run) else later

def hexText (n : Nat) : List Char :=
  match (Hex.fixed 4 n).dropWhile (· = '0') with
  | [] => ['0']
  | digits => digits

def joinColons (pieces : List Nat) : List Char :=
  Text.join ':' (pieces.map hexText)

def ipv6Text (pieces : List Nat) : List Char :=
  let (start, run) := longestZeros pieces 0
  if run < 2 then joinColons pieces
  else joinColons (pieces.take start) ++ ':' :: ':' :: joinColons (pieces.drop (start + run))

def chars : Host → List Char
  | .domain name => name
  | .ipv4 address =>
      let bytes := [0x1000000, 0x10000, 0x100, 1].map fun weight => address / weight % 256
      Text.join '.' (bytes.map Decimal.digits)
  | .ipv6 pieces => '[' :: ipv6Text pieces ++ [']']

end Host

end WebhookRelay
