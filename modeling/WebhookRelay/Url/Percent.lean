import WebhookRelay.Text.Hex

/-!
# Percent encoding

A byte outside the safe characters of a URL component is written as a percent sign
and two digits. Each component has its own set of ASCII characters that are not
safe; what is beyond ASCII never is.
-/

set_option autoImplicit false

namespace WebhookRelay.Percent

def isControl (c : Char) : Bool :=
  c.toNat < 0x20 || c.toNat = 0x7F

def inFragmentSet (c : Char) : Bool :=
  isControl c || [' ', '"', '<', '>', '\x60'].contains c

def inPathSet (c : Char) : Bool :=
  inFragmentSet c || ['#', '?', '^', '\x7b', '\x7d'].contains c

def inQuerySet (c : Char) : Bool :=
  isControl c || [' ', '"', '#', '<', '>'].contains c

def inSpecialQuerySet (c : Char) : Bool :=
  inQuerySet c || c = '\''

def inUserInfoSet (c : Char) : Bool :=
  inPathSet c || ['/', ':', ';', '=', '@', '[', '\\', ']', '^', '|'].contains c

def upperDigit (n : Nat) : Char :=
  if n < 10 then Char.ofNat (48 + n) else Char.ofNat (55 + n)

def encodeByte (byte : UInt8) : List Char :=
  ['%', upperDigit (byte.toNat / 16), upperDigit (byte.toNat % 16)]

def encodeChar (unsafeSet : Char → Bool) (c : Char) : List Char :=
  if c.toNat < 0x80 ∧ ¬unsafeSet c then [c]
  else (Text.utf8 c.toString).flatMap encodeByte

def encode (unsafeSet : Char → Bool) (chars : List Char) : List Char :=
  chars.flatMap (encodeChar unsafeSet)

def decode : List Char → Bytes
  | [] => []
  | '%' :: a :: b :: rest =>
      match Hex.digitValue? a, Hex.digitValue? b with
      | some high, some low => UInt8.ofNat (high * 16 + low) :: decode rest
      | _, _ => 0x25 :: decode (a :: b :: rest)
  | c :: rest => Text.utf8 c.toString ++ decode rest

end WebhookRelay.Percent
