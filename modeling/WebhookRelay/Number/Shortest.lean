import WebhookRelay.Number.Binary64
import WebhookRelay.Number.Decimal

/-!
# Shortest decimal text of a binary number

The decimals that read back as a number fill an interval around it. The coarsest
power-of-ten grid with a point in that interval gives the fewest digits; of its
points the one nearest to the number is written.
-/

set_option autoImplicit false

namespace WebhookRelay.Shortest

/-- An interval of ratios with one denominator; `closed` says whether its ends
belong to it. -/
structure Interval where
  low : Nat
  value : Nat
  high : Nat
  den : Nat
  closed : Bool

/-- What rounds to the number with these finite, non-zero magnitude bits. -/
def Interval.ofMagnitude (magnitude : Nat) : Interval :=
  let (m, q) := Binary64.parts magnitude
  let below := if m = 0x10000000000000 ∧ -1074 < q then 1 else 2
  let (scale, den) := Binary64.ratioOf 1 (q - 2)
  { low := (4 * m - below) * scale, value := 4 * m * scale, high := (4 * m + 2) * scale,
    den, closed := m % 2 = 0 }

/-- The point `digits * 10 ^ k` as a numerator over the interval's denominator,
both scaled so that they are natural numbers. -/
def scaled (k : Int) (n : Nat) : Nat :=
  if 0 ≤ k then n else n * Nat.pow 10 (-k).toNat

def gridPoint (interval : Interval) (k : Int) (digits : Nat) : Nat :=
  if 0 ≤ k then digits * Nat.pow 10 k.toNat * interval.den else digits * interval.den

def inside (interval : Interval) (k : Int) (digits : Nat) : Bool :=
  let point := gridPoint interval k digits
  let low := scaled k interval.low
  let high := scaled k interval.high
  if interval.closed then low ≤ point && point ≤ high else low < point && point < high

def nearest? (interval : Interval) (k : Int) : Option Nat :=
  let value := scaled k interval.value
  let unit := gridPoint interval k 1
  let down := value / unit
  let up := down + 1
  match inside interval k down, inside interval k up with
  | false, false => none
  | true, false => some down
  | false, true => some up
  | true, true =>
      let rest := 2 * (value % unit)
      if rest < unit then some down
      else if unit < rest then some up
      else some (down + down % 2)

/-- Looks at `fuel` grids from the coarse one at exponent `k` on. -/
def search (interval : Interval) : (fuel : Nat) → (k : Int) → Nat × Int
  | 0, k => (0, k)
  | fuel + 1, k =>
      match nearest? interval k with
      | some digits => (digits, k)
      | none => search interval fuel (k - 1)

/-- Digits and exponent of the shortest decimal that reads back. -/
def decimal (magnitude : Nat) : Nat × Int :=
  search (Interval.ofMagnitude magnitude) 700 309

/-- The layout of a number: plain between these exponents of the leading digit, with
at least one digit behind the point, and with an exponent elsewhere. -/
def plainFrom : Int := -5

def plainTo : Int := 15

def layout (digits : List Char) (k : Int) : List Char :=
  let lead := k + (digits.length : Int) - 1
  if plainFrom ≤ lead ∧ lead ≤ plainTo then
    if 0 ≤ k then digits ++ List.replicate k.toNat '0' ++ ['.', '0']
    else if 0 ≤ lead then
      digits.take (lead.toNat + 1) ++ '.' :: digits.drop (lead.toNat + 1)
    else '0' :: '.' :: (List.replicate (-lead - 1).toNat '0' ++ digits)
  else
    let fraction := match digits.drop 1 with
      | [] => []
      | rest => '.' :: rest
    let sign := if lead < 0 then '-' else '+'
    digits.take 1 ++ fraction ++ 'e' :: sign :: Decimal.digits lead.natAbs

def chars (x : Binary64) : List Char :=
  let sign := if x.isNegative then ['-'] else []
  if x.magnitude = 0 then sign ++ ['0', '.', '0']
  else
    let (digits, k) := decimal x.magnitude
    sign ++ layout (Decimal.digits digits) k

end WebhookRelay.Shortest
