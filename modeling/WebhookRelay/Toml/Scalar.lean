import WebhookRelay.Json.Value
import WebhookRelay.Text.Hex
import WebhookRelay.Toml.DateTime

/-!
# Scalars in TOML

Booleans, integers of 64 bits in four bases, floating-point numbers and date-times.
In the tree, a number that is not finite is null and a date-time is an object with
one member.
-/

set_option autoImplicit false

namespace WebhookRelay.Toml

/-- Digits without the single underscores between them. -/
def digits? (isDigit : Char → Bool) : List Char → Option (List Char)
  | [] => none
  | [c] => if isDigit c then some [c] else none
  | c :: '_' :: rest => if isDigit c then (digits? isDigit rest).map (c :: ·) else none
  | c :: rest => if isDigit c then (digits? isDigit rest).map (c :: ·) else none

/-- Decimal digits of which the first is no zero unless it is the only one. -/
def leadingDigits? (chars : List Char) : Option (List Char) :=
  match digits? Decimal.isDigit chars with
  | some ('0' :: _ :: _) => none
  | digits => digits

def splitSign : List Char → Bool × List Char
  | '-' :: rest => (true, rest)
  | '+' :: rest => (false, rest)
  | chars => (false, chars)

def signed (negative : Bool) (n : Nat) : Int :=
  if negative then -n else n

def inBase? (base : Nat) (chars : List Char) : Option Int := do
  let digits ← digits? (fun c => (Hex.digitIn? base c).isSome) chars
  let n ← Hex.numberIn? base digits
  return n

def integer? : List Char → Option Int
  | '0' :: 'x' :: rest => inBase? 16 rest
  | '0' :: 'o' :: rest => inBase? 8 rest
  | '0' :: 'b' :: rest => inBase? 2 rest
  | chars => do
      let (negative, rest) := splitSign chars
      let digits ← leadingDigits? rest
      return signed negative (Decimal.ofDigits digits)

def isExponentMark (c : Char) : Bool :=
  c = 'e' || c = 'E'

def exponent? : List Char → Option Int
  | [] => some 0
  | _ :: rest => do
      let (negative, rest) := splitSign rest
      let digits ← digits? Decimal.isDigit rest
      return signed negative (Decimal.ofDigits digits)

def fractionDigits? : List Char → Option (List Char)
  | [] => some []
  | _ :: rest => digits? Decimal.isDigit rest

def decimal? (negative : Bool) (chars : List Char) : Option Binary64 := do
  let mantissa := chars.takeWhile fun c => !isExponentMark c
  let whole ← leadingDigits? (mantissa.takeWhile (· ≠ '.'))
  let part ← fractionDigits? (mantissa.dropWhile (· ≠ '.'))
  let exponent ← exponent? (chars.dropWhile fun c => !isExponentMark c)
  let x := Binary64.ofDecimal negative (Decimal.ofDigits (whole ++ part)) (exponent - part.length)
  if x.isFinite then return x else none

def float? (chars : List Char) : Option Json :=
  let (negative, rest) := splitSign chars
  if rest = "inf".toList ∨ rest = "nan".toList then some .null
  else (decimal? negative rest).map .float

/-- The member under which a date-time stands in the tree. -/
def dateTimeMember : String := "$__toml_private_datetime"

def scalar? (chars : List Char) : Option Json :=
  if chars = "true".toList then some (.bool true)
  else if chars = "false".toList then some (.bool false)
  else
    match integer? chars with
    | some n => if Decimal.inInt64 n then some (.int n) else none
    | none =>
        match float? chars with
        | some x => some x
        | none =>
            (DateTime.normal? chars).map fun text =>
              .obj [(dateTimeMember, .str (String.ofList text))]

end WebhookRelay.Toml
