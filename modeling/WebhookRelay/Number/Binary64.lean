/-!
# Binary floating-point numbers of 64 bits

A number is its bit pattern. Arithmetic goes through exact ratios of natural
numbers, which are rounded once to the nearest representable number, a half to the
even one. Only what reading decimal numbers needs is here.
-/

set_option autoImplicit false

namespace WebhookRelay

structure Binary64 where
  bits : UInt64
  deriving DecidableEq, Repr, Inhabited

namespace Binary64

/-- Bits of positive infinity: every finite magnitude is below. -/
def infinityBits : Nat := 0x7FF0000000000000

def signBit : Nat := 0x8000000000000000

/-- Numerator and denominator of `significand * 2 ^ exponent`. -/
def ratioOf (significand : Nat) (exponent : Int) : Nat × Nat :=
  if 0 ≤ exponent then (significand * Nat.pow 2 exponent.toNat, 1)
  else (significand, Nat.pow 2 (-exponent).toNat)

/-- A quotient rounded to the nearest integer, a half to the even one. -/
def roundHalfEven (num den : Nat) : Nat :=
  let quotient := num / den
  let twice := 2 * (num % den)
  if twice < den then quotient
  else if den < twice then quotient + 1
  else quotient + quotient % 2

def leadingExponent (num den : Nat) : Int :=
  let guess : Int := (Nat.log2 num : Int) - (Nat.log2 den : Int)
  let reached :=
    if 0 ≤ guess then den * Nat.pow 2 guess.toNat ≤ num else den ≤ num * Nat.pow 2 (-guess).toNat
  if reached then guess else guess - 1

/-- The magnitude bits of the number nearest to a ratio, at most infinity. -/
def magnitudeOfRatio (num den : Nat) : Nat :=
  if num = 0 then 0
  else
    let exponent := max (leadingExponent num den - 52) (-1074)
    let significand :=
      if 0 ≤ exponent then roundHalfEven num (den * Nat.pow 2 exponent.toNat)
      else roundHalfEven (num * Nat.pow 2 (-exponent).toNat) den
    min ((exponent + 1074).toNat * 0x10000000000000 + significand) infinityBits

def parts (magnitude : Nat) : Nat × Int :=
  let biased : Nat := magnitude / 0x10000000000000
  let fraction : Nat := magnitude % 0x10000000000000
  if biased = 0 then (fraction, -1074) else (0x10000000000000 + fraction, (biased : Int) - 1075)

def mulMagnitude (a b : Nat) : Nat :=
  let (m, p) := parts a
  let (n, q) := parts b
  let (num, den) := ratioOf (m * n) (p + q)
  magnitudeOfRatio num den

def divMagnitude (a b : Nat) : Nat :=
  let (m, p) := parts a
  let (n, q) := parts b
  let (num, den) := ratioOf m (p - q)
  magnitudeOfRatio num (den * n)

def ofMagnitude (negative : Bool) (magnitude : Nat) : Binary64 :=
  ⟨UInt64.ofNat ((if negative then signBit else 0) + magnitude)⟩

def magnitude (x : Binary64) : Nat :=
  x.bits.toNat % signBit

def isNegative (x : Binary64) : Bool :=
  signBit ≤ x.bits.toNat

def isFinite (x : Binary64) : Bool :=
  x.magnitude < infinityBits

/-- The number nearest to `digits * 10 ^ exponent`. No power is computed for what is
beyond the largest number or far below the smallest one. -/
def ofDecimal (negative : Bool) (digits : Nat) (exponent : Int) : Binary64 :=
  let magnitude :=
    if digits = 0 ∨ exponent < -400 - digits.log2 then 0
    else if 400 < exponent then infinityBits
    else if 0 ≤ exponent then magnitudeOfRatio (digits * Nat.pow 10 exponent.toNat) 1
    else magnitudeOfRatio digits (Nat.pow 10 (-exponent).toNat)
  ofMagnitude negative magnitude

end Binary64

end WebhookRelay
