import WebhookRelay.Number.Decimal

/-!
# Punycode

The ASCII form of a domain label with characters beyond ASCII: first its ASCII
characters, then the others as differences in ascending order, each difference in
digits of base 36 whose thresholds adapt to the differences before.
-/

set_option autoImplicit false

namespace WebhookRelay.Punycode

def digit (n : Nat) : Char :=
  if n < 26 then Char.ofNat (97 + n) else Char.ofNat (22 + n)

def digitValue? (c : Char) : Option Nat :=
  let n := c.toNat
  if 97 ≤ n ∧ n ≤ 122 then some (n - 97)
  else if 65 ≤ n ∧ n ≤ 90 then some (n - 65)
  else if 48 ≤ n ∧ n ≤ 57 then some (n - 22)
  else none

def threshold (k bias : Nat) : Nat :=
  if k ≤ bias then 1 else if bias + 26 ≤ k then 26 else k - bias

def adaptLoop : (fuel : Nat) → (delta k : Nat) → Nat × Nat
  | 0, delta, k => (delta, k)
  | fuel + 1, delta, k => if 455 < delta then adaptLoop fuel (delta / 35) (k + 36) else (delta, k)

def adapt (delta points : Nat) (first : Bool) : Nat :=
  let scaled := if first then delta / 700 else delta / 2
  let (rest, k) := adaptLoop 64 (scaled + scaled / points) 0
  k + 36 * rest / (rest + 38)

def encodeNumber (bias : Nat) : (fuel : Nat) → (k n : Nat) → List Char
  | 0, _, _ => []
  | fuel + 1, k, n =>
      let t := threshold k bias
      if n < t then [digit n]
      else digit (t + (n - t) % (36 - t)) :: encodeNumber bias fuel (k + 36) ((n - t) / (36 - t))

structure EncodeState where
  output : List Char
  delta : Nat
  bias : Nat
  handled : Nat

def encodeAt (basic point : Nat) (state : EncodeState) (c : Char) : EncodeState :=
  if c.toNat < point then { state with delta := state.delta + 1 }
  else if c.toNat = point then
    { output := state.output ++ encodeNumber state.bias 64 36 state.delta
      delta := 0
      bias := adapt state.delta (state.handled + 1) (state.handled = basic)
      handled := state.handled + 1 }
  else state

/-- Handles the code points of a label in ascending order from `next` on. -/
def encodePoints (label : List Char) (basic : Nat) :
    (points : List Nat) → (next : Nat) → EncodeState → EncodeState
  | [], _, state => state
  | point :: rest, next, state =>
      let state := { state with delta := state.delta + (point - next) * (state.handled + 1) }
      let state := label.foldl (encodeAt basic point) state
      encodePoints label basic rest (point + 1) { state with delta := state.delta + 1 }

def insertPoint (n : Nat) : List Nat → List Nat
  | [] => [n]
  | m :: rest => if n < m then n :: m :: rest else if n = m then m :: rest else m :: insertPoint n rest

def encode (label : List Char) : List Char :=
  let ascii := label.filter fun c => c.toNat < 128
  let points := ((label.filter fun c => 128 ≤ c.toNat).map Char.toNat).foldr insertPoint []
  let start := if ascii.isEmpty then [] else ascii ++ ['-']
  (encodePoints label ascii.length points 128
    { output := start, delta := 0, bias := 72, handled := ascii.length }).output

def decodeNumber? (bias : Nat) : List Char → (k weight total : Nat) → Option (Nat × List Char)
  | [], _, _, _ => none
  | c :: rest, k, weight, total => do
      let value ← digitValue? c
      let total := total + value * weight
      let t := threshold k bias
      if value < t then some (total, rest)
      else decodeNumber? bias rest (k + 36) (weight * (36 - t)) total

def decodePoints? : (fuel : Nat) → List Char → (output : List Char) → (point i bias : Nat) →
    Option (List Char)
  | 0, _, _, _, _, _ => none
  | _ + 1, [], output, _, _, _ => some output
  | fuel + 1, digits, output, point, i, bias => do
      let (total, rest) ← decodeNumber? bias digits 36 1 i
      let count := output.length + 1
      let point := point + total / count
      let position := total % count
      if point < 0x110000 ∧ ¬(0xD800 ≤ point ∧ point ≤ 0xDFFF) then
        decodePoints? fuel rest
          (output.take position ++ Char.ofNat point :: output.drop position)
          point (position + 1) (adapt (total - i) count (i = 0))
      else none

def decode? (text : List Char) : Option (List Char) :=
  let lastPart := (text.reverse.takeWhile (· ≠ '-')).reverse
  let ascii := (text.take (text.length - lastPart.length)).dropLast
  decodePoints? (text.length + 1) lastPart ascii 128 0 72

end WebhookRelay.Punycode
