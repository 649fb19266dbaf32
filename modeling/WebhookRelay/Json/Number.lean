import WebhookRelay.Json.Value
import WebhookRelay.Number.Decimal

/-!
# Numbers in JSON text

A literal is cut into its digits first. An integer that fits 64 bits stays exact.
Every other literal becomes a floating-point number from the leading digits that
fit an unsigned 64-bit integer, multiplied or divided once by a power of ten; a
result beyond the finite range is refused.
-/

set_option autoImplicit false

namespace WebhookRelay.Json

/-- The parts of a number literal. `exponent` is its sign and digits. -/
structure NumberLiteral where
  negative : Bool
  whole : List Char
  fraction : Option (List Char)
  exponent : Option (Bool × List Char)

def spanDigits (chars : List Char) : List Char × List Char :=
  (chars.takeWhile Decimal.isDigit, chars.dropWhile Decimal.isDigit)

def fraction? : List Char → Option (Option (List Char) × List Char)
  | '.' :: rest =>
      match spanDigits rest with
      | ([], _) => none
      | (digits, rest) => some (some digits, rest)
  | rest => some (none, rest)

def exponentSign : List Char → Bool × List Char
  | '+' :: rest => (true, rest)
  | '-' :: rest => (false, rest)
  | rest => (true, rest)

def exponentPart? (chars : List Char) :
    Option (Option (Bool × List Char) × List Char) :=
  match chars with
  | [] => some (none, [])
  | c :: rest =>
      if c = 'e' ∨ c = 'E' then
        let (positive, rest) := exponentSign rest
        match spanDigits rest with
        | ([], _) => none
        | (digits, rest) => some (some (positive, digits), rest)
      else some (none, chars)

/-- One zero, or digits that start with another digit. -/
def wholePart? (chars : List Char) : Option (List Char × List Char) :=
  match spanDigits chars with
  | ([], _) => none
  | ('0' :: _ :: _, _) => none
  | found => some found

def minusSign : List Char → Bool × List Char
  | '-' :: rest => (true, rest)
  | rest => (false, rest)

def numberLiteral? (chars : List Char) : Option (NumberLiteral × List Char) := do
  let (negative, rest) := minusSign chars
  let (whole, rest) ← wholePart? rest
  let (fraction, rest) ← fraction? rest
  let (exponent, rest) ← exponentPart? rest
  return ({ negative, whole, fraction, exponent }, rest)

/-- Appends digits to a significand as long as it fits 64 bits, and returns the
digits that are left. -/
def absorb (significand : Nat) : List Char → Nat × List Char
  | [] => (significand, [])
  | c :: rest =>
      let next := significand * 10 + Decimal.digitValue c
      if next ≤ Decimal.uint64Max then absorb next rest else (significand, c :: rest)

/-- Magnitude bits of the power of ten that one scaling step uses. -/
def powerOfTen (n : Nat) : Nat :=
  Binary64.magnitudeOfRatio (Nat.pow 10 n) 1

def largestPower : Nat := 308

/-- Scales magnitude bits by a power of ten; none beyond the finite range. -/
def scaleByTen : (fuel : Nat) → (magnitude : Nat) → (exponent : Int) → Option Nat
  | 0, magnitude, _ => some magnitude
  | fuel + 1, magnitude, exponent =>
      if exponent.natAbs ≤ largestPower then
        if 0 ≤ exponent then
          let scaled := Binary64.mulMagnitude magnitude (powerOfTen exponent.toNat)
          if scaled < Binary64.infinityBits then some scaled else none
        else some (Binary64.divMagnitude magnitude (powerOfTen exponent.natAbs))
      else if magnitude = 0 then some 0
      else if 0 ≤ exponent then none
      else
        scaleByTen fuel (Binary64.divMagnitude magnitude (powerOfTen largestPower))
          (exponent + largestPower)

def int32Max : Int := 2147483647

def int32Min : Int := -2147483648

def clampInt32 (n : Int) : Int :=
  max int32Min (min int32Max n)

def floatOf (negative : Bool) (significand : Nat) (exponent : Int) : Option Json :=
  (scaleByTen (exponent.natAbs / largestPower + 1)
    (Binary64.magnitudeOfRatio significand 1) exponent).map
    fun magnitude => .float (Binary64.ofMagnitude negative magnitude)

/-- The value of a literal; none when it is out of range. -/
def NumberLiteral.value? (literal : NumberLiteral) : Option Json :=
  let (significand, dropped) := absorb 0 literal.whole
  match literal.fraction, literal.exponent, dropped with
  | none, none, [] =>
      if !literal.negative then some (.int significand)
      else if significand = 0 ∨ significand > 0x8000000000000000 then
        some (.float (Binary64.ofDecimal true significand 0))
      else some (.int (-(significand : Int)))
  | fraction, exponent, dropped =>
      let places := fraction.getD []
      let (significand, ignored) := absorb significand places
      let start : Int := (dropped.length : Int) - (places.length - ignored.length : Nat)
      match exponent with
      | none => floatOf literal.negative significand start
      | some (positive, digits) =>
          let amount := Decimal.ofDigits digits
          if (amount : Int) > int32Max then
            if significand ≠ 0 ∧ positive then none
            else some (.float (Binary64.ofMagnitude literal.negative 0))
          else
            let exponent := if positive then start + amount else start - amount
            floatOf literal.negative significand (clampInt32 exponent)

end WebhookRelay.Json
