import WebhookRelay.Text.Hex

/-!
# Identifiers of 128 bits

Identifiers are written as 32 lower-case digits in five groups. Reading accepts the
grouped form, alone, in braces or as a name of the form `urn:uuid:`, and the digits
without groups.
-/

set_option autoImplicit false

namespace WebhookRelay

structure Uuid where
  value : Fin 0x100000000000000000000000000000000
  deriving DecidableEq, Repr

namespace Uuid

instance : Inhabited Uuid := ⟨⟨0⟩⟩

def ofNat (n : Nat) : Uuid :=
  ⟨⟨n % 0x100000000000000000000000000000000, Nat.mod_lt _ (by decide)⟩⟩

/-- The 32 digits in groups of 8, 4, 4, 4 and 12. -/
def group (digits : List Char) : List Char :=
  digits.take 8 ++ '-' :: (digits.drop 8).take 4 ++ '-' :: (digits.drop 12).take 4 ++
    '-' :: (digits.drop 16).take 4 ++ '-' :: digits.drop 20

def chars (id : Uuid) : List Char :=
  group (Hex.fixed 32 id.value)

def render (id : Uuid) : String :=
  String.ofList id.chars

def before (a b : Uuid) : Bool :=
  a.value < b.value

def ofDigits? (digits : List Char) : Option Uuid :=
  if digits.length = 32 then (Hex.number? digits).map ofNat else none

def ofGroups? (text : List Char) : Option Uuid :=
  let digits :=
    text.take 8 ++ (text.drop 9).take 4 ++ (text.drop 14).take 4 ++
      (text.drop 19).take 4 ++ text.drop 24
  if text = group digits then ofDigits? digits else none

def urnMark : List Char := "urn:uuid:".toList

def ofChars? (text : List Char) : Option Uuid :=
  match text.length with
  | 32 => ofDigits? text
  | 36 => ofGroups? text
  | 38 =>
      if text.head? = some '\x7b' ∧ text.getLast? = some '\x7d' then
        ofGroups? (text.tail.take 36)
      else none
  | 45 => if text.take 9 = urnMark then ofGroups? (text.drop 9) else none
  | _ => none

def parse? (text : String) : Option Uuid :=
  ofChars? text.toList

end Uuid

end WebhookRelay
