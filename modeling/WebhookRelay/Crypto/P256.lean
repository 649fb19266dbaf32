/-!
# The curve P-256

Points of `y² = x³ - 3x + b` over the prime field. Multiplication works with
Jacobian coordinates, where `(x, y, z)` stands for the point `(x / z², y / z³)` and
`z = 0` for the point at infinity, so that one inversion at the end suffices.
-/

set_option autoImplicit false

namespace WebhookRelay.P256

def prime : Nat := 0xffffffff00000001000000000000000000000000ffffffffffffffffffffffff

def order : Nat := 0xffffffff00000000ffffffffffffffffbce6faada7179e84f3b9cac2fc632551

def coefficient : Nat := 0x5ac635d8aa3a93e7b3ebbd55769886bc651d06b0cc53b0f63bce3c3e27d2604b

structure Point where
  x : Nat
  y : Nat
  deriving DecidableEq, Repr, Inhabited

def generator : Point :=
  ⟨0x6b17d1f2e12c4247f8bce6e563a440f277037d812deb33a0f4a13945d898c296,
    0x4fe342e2fe1a7f9b8ee7eb4a7c0f9e162bce33576b315ececbb6406837bf51f5⟩

/-- Coordinates below the prime that satisfy the equation. -/
def Point.onCurve (point : Point) : Bool :=
  point.x < prime && point.y < prime &&
    point.y * point.y % prime =
      (point.x * point.x * point.x + (prime - 3) * point.x + coefficient) % prime

structure Jacobian where
  x : Nat
  y : Nat
  z : Nat

def Jacobian.infinity : Jacobian := ⟨1, 1, 0⟩

def Jacobian.ofPoint (point : Point) : Jacobian := ⟨point.x, point.y, 1⟩

def sub (a b : Nat) : Nat := (a + (prime - b)) % prime

def mul (a b : Nat) : Nat := a * b % prime

def Jacobian.double (p : Jacobian) : Jacobian :=
  if p.z = 0 ∨ p.y = 0 then .infinity
  else
    let delta := mul p.z p.z
    let gamma := mul p.y p.y
    let beta := mul p.x gamma
    let alpha := 3 * mul (sub p.x delta) ((p.x + delta) % prime) % prime
    let x := sub (mul alpha alpha) (8 * beta % prime)
    let sum := (p.y + p.z) % prime
    let z := sub (sub (mul sum sum) gamma) delta
    let y := sub (mul alpha (sub (4 * beta % prime) x)) (8 * mul gamma gamma % prime)
    ⟨x, y, z⟩

def Jacobian.add (p q : Jacobian) : Jacobian :=
  if p.z = 0 then q
  else if q.z = 0 then p
  else
    let pz := mul p.z p.z
    let qz := mul q.z q.z
    let u1 := mul p.x qz
    let u2 := mul q.x pz
    let s1 := mul (mul p.y q.z) qz
    let s2 := mul (mul q.y p.z) pz
    if u1 = u2 then (if s1 = s2 then p.double else .infinity)
    else
      let h := sub u2 u1
      let r := sub s2 s1
      let hh := mul h h
      let hhh := mul h hh
      let v := mul u1 hh
      let x := sub (sub (mul r r) hhh) (2 * v % prime)
      ⟨x, sub (mul r (sub v x)) (mul s1 hhh), mul h (mul p.z q.z)⟩

/-- The multiple by the low `bits` binary digits of `n`. -/
def Jacobian.times : (bits : Nat) → (n : Nat) → Jacobian → Jacobian
  | 0, _, _ => .infinity
  | bits + 1, n, p =>
      let rest := Jacobian.times bits (n / 2) p.double
      if n % 2 = 1 then p.add rest else rest

/-- A power in a residue ring, by the low `bits` binary digits of the exponent. -/
def power (modulus : Nat) : (bits : Nat) → (base exponent : Nat) → Nat
  | 0, _, _ => 1 % modulus
  | bits + 1, base, exponent =>
      let rest := power modulus bits (base * base % modulus) (exponent / 2)
      if exponent % 2 = 1 then base * rest % modulus else rest

def inverse (modulus n : Nat) : Nat :=
  power modulus 256 (n % modulus) (modulus - 2)

/-- The affine form; none for the point at infinity. -/
def Jacobian.toPoint? (p : Jacobian) : Option Point :=
  if p.z = 0 then none
  else
    let i := inverse prime p.z
    let ii := mul i i
    some ⟨mul p.x ii, mul (mul p.y ii) i⟩

def multiply (n : Nat) (point : Point) : Jacobian :=
  Jacobian.times 256 n (Jacobian.ofPoint point)

end WebhookRelay.P256
