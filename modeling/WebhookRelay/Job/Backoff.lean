import WebhookRelay.Time.Duration

/-!
# Backoff

The delay before a retry doubles with each attempt, up to the delay of the last
attempt that the policy allows. The doubling factor stops at 2^32 - 1 and a delay at
the longest duration.
-/

set_option autoImplicit false

namespace WebhookRelay

structure Backoff where
  baseDelay : Duration := .ofSeconds 60
  maxAttempts : UInt32 := 5
  deriving DecidableEq, Repr

namespace Backoff

instance : Inhabited Backoff := ⟨{}⟩

def largestFactor : Nat := 4294967295

def factor (exponent : Nat) : Nat :=
  if exponent < 32 then Nat.pow 2 exponent else largestFactor

def scaled (policy : Backoff) (exponent : Nat) : Duration :=
  policy.baseDelay.scale (factor exponent)

def maxDelay (policy : Backoff) : Duration :=
  policy.scaled (policy.maxAttempts.toNat - 1)

def delay (policy : Backoff) (attempt : UInt32) : Duration :=
  if attempt ≤ 1 then policy.baseDelay.shorter policy.maxDelay
  else (policy.scaled (attempt.toNat - 1)).shorter policy.maxDelay

def isExhausted (policy : Backoff) (attempts : UInt32) : Bool :=
  policy.maxAttempts ≤ attempts

end Backoff

end WebhookRelay
