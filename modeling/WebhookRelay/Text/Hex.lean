import WebhookRelay.Text.Bytes

/-!
# Hexadecimal text

Lower-case digits, two per byte. Reading accepts both cases and nothing else.
-/

set_option autoImplicit false

namespace WebhookRelay.Hex

def digit (n : Nat) : Char :=
  if n < 10 then Char.ofNat (48 + n) else Char.ofNat (87 + n)

def digitValue? (c : Char) : Option Nat :=
  let n := c.toNat
  if 48 ≤ n ∧ n ≤ 57 then some (n - 48)
  else if 97 ≤ n ∧ n ≤ 102 then some (n - 87)
  else if 65 ≤ n ∧ n ≤ 70 then some (n - 55)
  else none

def encodeChars : Bytes → List Char
  | [] => []
  | byte :: rest =>
      digit (byte.toNat / 16) :: digit (byte.toNat % 16) :: encodeChars rest

def decodeChars? : List Char → Option Bytes
  | [] => some []
  | [_] => none
  | high :: low :: rest => do
      let h ← digitValue? high
      let l ← digitValue? low
      let tail ← decodeChars? rest
      return UInt8.ofNat (h * 16 + l) :: tail

def encode (bytes : Bytes) : String :=
  String.ofList (encodeChars bytes)

def decode? (text : String) : Option Bytes :=
  decodeChars? text.toList

def fixed : (width : Nat) → (n : Nat) → List Char
  | 0, _ => []
  | width + 1, n => fixed width (n / 16) ++ [digit (n % 16)]

def digitIn? (base : Nat) (c : Char) : Option Nat :=
  (digitValue? c).filter (· < base)

def numberIn? (base : Nat) (digits : List Char) : Option Nat :=
  digits.foldlM (fun total c => (digitIn? base c).map (total * base + ·)) 0

def number? (digits : List Char) : Option Nat :=
  digits.foldlM (fun total c => (digitValue? c).map (total * 16 + ·)) 0

theorem length_encodeChars (bytes : Bytes) :
    (encodeChars bytes).length = 2 * bytes.length := by
  induction bytes with
  | nil => rfl
  | cons byte rest ih => simp [encodeChars, ih]; omega

end WebhookRelay.Hex
