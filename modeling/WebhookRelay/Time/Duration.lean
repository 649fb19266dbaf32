import WebhookRelay.Number.Decimal

/-!
# Durations

A duration is a number of nanoseconds up to 2^64 - 1 seconds and 999 999 999
nanoseconds. Multiplication stops at that bound.
-/

set_option autoImplicit false

namespace WebhookRelay

def nanosPerSecond : Nat := 1000000000

structure Duration where
  nanos : Nat
  bounded : nanos ≤ 18446744073709551615999999999 := by decide
  deriving DecidableEq, Repr

namespace Duration

def maxNanos : Nat := 18446744073709551615999999999

def max : Duration := ⟨maxNanos, Nat.le_refl _⟩

def zero : Duration := ⟨0, Nat.zero_le _⟩

instance : Inhabited Duration := ⟨zero⟩

def saturating (nanos : Nat) : Duration :=
  ⟨min nanos maxNanos, Nat.min_le_right _ _⟩

def ofSeconds (seconds : UInt64) : Duration :=
  saturating (seconds.toNat * nanosPerSecond)

def ofParts? (seconds nanos : Nat) : Option Duration :=
  if inRange : seconds * nanosPerSecond + nanos ≤ maxNanos then
    some ⟨seconds * nanosPerSecond + nanos, inRange⟩
  else none

def ofMillis (millis : Nat) : Duration :=
  saturating (millis * 1000000)

def seconds (d : Duration) : Nat :=
  d.nanos / nanosPerSecond

def subsecond (d : Duration) : Nat :=
  d.nanos % nanosPerSecond

/-- A whole multiple, or the longest duration. -/
def scale (d : Duration) (factor : Nat) : Duration :=
  saturating (d.nanos * factor)

instance : LE Duration := ⟨fun a b => a.nanos ≤ b.nanos⟩

instance (a b : Duration) : Decidable (a ≤ b) := inferInstanceAs (Decidable (a.nanos ≤ b.nanos))

def shorter (a b : Duration) : Duration :=
  if a ≤ b then a else b

end Duration

end WebhookRelay
