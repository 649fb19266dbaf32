import WebhookRelay.Text.Bytes

/-!
# Base64url without padding

Three bytes are four letters; one or two bytes left over are two or three
letters whose unused low bits are zero. Reading refuses every other text, so each
byte string has one written form.
-/

set_option autoImplicit false

namespace WebhookRelay.Base64Url

def letter (n : Nat) : Char :=
  if n < 26 then Char.ofNat (65 + n)
  else if n < 52 then Char.ofNat (71 + n)
  else if n < 62 then Char.ofNat (n - 4)
  else if n = 62 then '-'
  else '_'

def letterValue? (c : Char) : Option Nat :=
  let n := c.toNat
  if 65 ≤ n ∧ n ≤ 90 then some (n - 65)
  else if 97 ≤ n ∧ n ≤ 122 then some (n - 71)
  else if 48 ≤ n ∧ n ≤ 57 then some (n + 4)
  else if c = '-' then some 62
  else if c = '_' then some 63
  else none

def encodeChars : Bytes → List Char
  | [] => []
  | [a] => [letter (a.toNat / 4), letter (a.toNat % 4 * 16)]
  | [a, b] =>
      [letter (a.toNat / 4), letter (a.toNat % 4 * 16 + b.toNat / 16),
        letter (b.toNat % 16 * 4)]
  | a :: b :: c :: rest =>
      letter (a.toNat / 4) :: letter (a.toNat % 4 * 16 + b.toNat / 16) ::
        letter (b.toNat % 16 * 4 + c.toNat / 64) :: letter (c.toNat % 64) ::
        encodeChars rest

def decodeChars? : List Char → Option Bytes
  | [] => some []
  | [_] => none
  | [p, q] => do
      let p ← letterValue? p
      let q ← letterValue? q
      if q % 16 = 0 then some [UInt8.ofNat (p * 4 + q / 16)] else none
  | [p, q, r] => do
      let p ← letterValue? p
      let q ← letterValue? q
      let r ← letterValue? r
      if r % 4 = 0 then
        some [UInt8.ofNat (p * 4 + q / 16), UInt8.ofNat (q % 16 * 16 + r / 4)]
      else none
  | p :: q :: r :: s :: rest => do
      let p ← letterValue? p
      let q ← letterValue? q
      let r ← letterValue? r
      let s ← letterValue? s
      let tail ← decodeChars? rest
      return UInt8.ofNat (p * 4 + q / 16) :: UInt8.ofNat (q % 16 * 16 + r / 4) ::
        UInt8.ofNat (r % 4 * 64 + s) :: tail

def encode (bytes : Bytes) : String :=
  String.ofList (encodeChars bytes)

def decode? (text : String) : Option Bytes :=
  decodeChars? text.toList

/-- Reading after every trailing `=` is dropped. -/
def decodeUnpadded? (text : String) : Option Bytes :=
  decodeChars? (text.toList.reverse.dropWhile (· = '=')).reverse

end WebhookRelay.Base64Url
