import WebhookRelay.Proofs.Ticks
import Mathlib.Algebra.Group.Nat.Defs

/-!
# The delays of a backoff in closed form

A duration times a factor is exact in nanoseconds, or the longest duration where that is too
short to hold it.  Such products grow with both of their factors, so the shorter of two of them
is the product with the smaller factor, whichever of the two stop at the longest duration.  A
delay is therefore one product: the base delay is doubled once for every attempt after the
first one, at most as often as the last attempt allows and at most up to the factor 2^32 - 1.

The delay is also computed from whole seconds and the nanoseconds that are left, in words of
64 and 32 bits.  Of the steps of that computation only those may leave their words whose
failure the delay provides for.
-/

set_option autoImplicit false

namespace WebhookRelay

namespace Duration

variable {d e : Duration}

theorem eq_of_nanos (same : d.nanos = e.nanos) : d = e := by
  cases d
  cases e
  cases same
  rfl

/-- The duration of that many nanoseconds, or the longest one if there is none. -/
def exactly (nanos : Nat) : Duration :=
  if inRange : nanos ≤ maxNanos then ⟨nanos, inRange⟩ else max

theorem saturating_eq_exactly (nanos : Nat) : saturating nanos = exactly nanos := by
  apply eq_of_nanos
  unfold saturating exactly
  split
  · rename_i inRange
    exact Nat.min_eq_left inRange
  · rename_i beyond
    exact Nat.min_eq_right (Nat.le_of_not_le beyond)

theorem nanos_scale (d : Duration) (factor : Nat) :
    (d.scale factor).nanos = min (d.nanos * factor) maxNanos := rfl

theorem scale_one (d : Duration) : d.scale 1 = d := by
  apply eq_of_nanos
  rw [nanos_scale, Nat.mul_one]
  exact Nat.min_eq_left d.bounded

theorem scale_le_scale (shorter : d ≤ e) {low high : Nat} (smaller : low ≤ high) :
    d.scale low ≤ e.scale high := by
  have product : d.nanos * low ≤ e.nanos * high := Nat.mul_le_mul shorter smaller
  have least : min (d.nanos * low) maxNanos ≤ min (e.nanos * high) maxNanos := by omega
  exact least

/-- The shorter of two products is that with the smaller factor, also where one of them or
both are cut off. -/
theorem shorter_scale (d : Duration) (one other : Nat) :
    (d.scale one).shorter (d.scale other) = d.scale (min one other) := by
  apply eq_of_nanos
  have product : d.nanos * min one other = min (d.nanos * one) (d.nanos * other) :=
    (Nat.mul_min_mul_left ..).symm
  rw [nanos_shorter, nanos_scale, nanos_scale, nanos_scale, product]
  omega

end Duration

namespace Backoff

variable {policy : Backoff}

theorem factor_eq (exponent : Nat) : factor exponent = min (2 ^ exponent) (2 ^ 32 - 1) := by
  unfold factor largestFactor
  split
  · rename_i small
    have fits : 2 ^ exponent ≤ 2 ^ 31 := Nat.pow_le_pow_right (by decide) (by omega)
    have named : Nat.pow 2 exponent = 2 ^ exponent := rfl
    omega
  · rename_i large
    have exceeds : 2 ^ 32 ≤ 2 ^ exponent := Nat.pow_le_pow_right (by decide) (by omega)
    omega

theorem factor_mono {low high : Nat} (smaller : low ≤ high) : factor low ≤ factor high := by
  have powers : 2 ^ low ≤ 2 ^ high := Nat.pow_le_pow_right (by decide) smaller
  rw [factor_eq, factor_eq]
  omega

theorem factor_min (one other : Nat) :
    factor (min one other) = min (factor one) (factor other) := by
  rcases Nat.le_total one other with smaller | smaller
  · rw [Nat.min_eq_left smaller, Nat.min_eq_left (factor_mono smaller)]
  · rw [Nat.min_eq_right smaller, Nat.min_eq_right (factor_mono smaller)]

theorem shorter_scaled (policy : Backoff) (one other : Nat) :
    (policy.scaled one).shorter (policy.scaled other) = policy.scaled (min one other) := by
  rw [scaled, scaled, scaled, Duration.shorter_scale, factor_min]

theorem scaled_zero (policy : Backoff) : policy.scaled 0 = policy.baseDelay :=
  policy.baseDelay.scale_one

/-- How often the base delay is doubled before the attempt after this one. -/
def doublings (policy : Backoff) (attempt : UInt32) : Nat :=
  min (max attempt.toNat 1 - 1) (max policy.maxAttempts.toNat 1 - 1)

theorem delay_eq_scaled (policy : Backoff) (attempt : UInt32) :
    policy.delay attempt = policy.scaled (policy.doublings attempt) := by
  have least : max policy.maxAttempts.toNat 1 - 1 = policy.maxAttempts.toNat - 1 := by omega
  rw [delay, maxDelay, doublings, least]
  split
  · rename_i first
    have first : attempt.toNat ≤ 1 := UInt32.le_iff_toNat_le.mp first
    have undoubled : max attempt.toNat 1 - 1 = 0 := by omega
    rw [undoubled, ← shorter_scaled, scaled_zero]
  · have counted : max attempt.toNat 1 - 1 = attempt.toNat - 1 := by omega
    rw [counted, shorter_scaled]

theorem doublings_mono {attempt later : UInt32} (after : attempt ≤ later) :
    policy.doublings attempt ≤ policy.doublings later := by
  have after : attempt.toNat ≤ later.toNat := UInt32.le_iff_toNat_le.mp after
  unfold doublings
  omega

theorem doublings_last {attempt : UInt32} (last : policy.maxAttempts ≤ attempt) :
    policy.doublings attempt = policy.maxAttempts.toNat - 1 := by
  have last : policy.maxAttempts.toNat ≤ attempt.toNat := UInt32.le_iff_toNat_le.mp last
  unfold doublings
  omega

theorem scaled_mono {low high : Nat} (smaller : low ≤ high) :
    policy.scaled low ≤ policy.scaled high :=
  Duration.scale_le_scale (Nat.le_refl _) (factor_mono smaller)

end Backoff

/-! ## In words -/

namespace Word

def fit? (bits n : Nat) : Option Nat :=
  if n < 2 ^ bits then some n else none

def minus? (a b : Nat) : Option Nat :=
  if b ≤ a then some (a - b) else none

theorem fit?_of_lt {bits n : Nat} (fits : n < 2 ^ bits) : fit? bits n = some n :=
  if_pos fits

theorem fit?_eq_some {bits n word : Nat} :
    fit? bits n = some word ↔ n < 2 ^ bits ∧ n = word := by
  unfold fit?
  split
  · rename_i fits
    exact ⟨fun same => ⟨fits, Option.some.inj same⟩, fun word => congrArg some word.2⟩
  · rename_i exceeds
    exact ⟨nofun, fun word => absurd word.1 exceeds⟩

theorem fit?_of_le {bits n : Nat} (exceeds : 2 ^ bits ≤ n) : fit? bits n = none :=
  if_neg (Nat.not_lt.mpr exceeds)

end Word

namespace Duration

/-- The multiple of a duration from its whole seconds and the nanoseconds that are left; none
where it is too long. -/
def secondsScaled? (d : Duration) (factor carried rest : Nat) : Option Duration := do
  let seconds ← Word.fit? 64 (d.seconds * factor)
  let seconds ← Word.fit? 64 (seconds + carried)
  ofParts? seconds rest

/-- The same with the multiplied nanoseconds cut into seconds and a rest.  Their product is not
provided for: there is no outcome where it is not a word. -/
def wordScaled? (d : Duration) (factor : Nat) : Option (Option Duration) := do
  let nanos ← Word.fit? 64 (d.subsecond * factor)
  let rest ← Word.fit? 32 (nanos % nanosPerSecond)
  return d.secondsScaled? factor (nanos / nanosPerSecond) rest

theorem le_maxNanos_iff {seconds rest : Nat} (below : rest < nanosPerSecond) :
    seconds * nanosPerSecond + rest ≤ maxNanos ↔ seconds < 2 ^ 64 := by
  simp only [nanosPerSecond, maxNanos] at *
  omega

theorem nanos_mul (d : Duration) (factor : Nat) :
    d.nanos * factor =
      (d.seconds * factor + d.subsecond * factor / nanosPerSecond) * nanosPerSecond +
        d.subsecond * factor % nanosPerSecond := by
  have cut : d.seconds * nanosPerSecond + d.subsecond = d.nanos :=
    Nat.div_add_mod' d.nanos nanosPerSecond
  have carry := Nat.div_add_mod' (d.subsecond * factor) nanosPerSecond
  calc d.nanos * factor
      = (d.seconds * nanosPerSecond + d.subsecond) * factor := by rw [cut]
    _ = d.seconds * factor * nanosPerSecond + d.subsecond * factor := by
        rw [Nat.add_mul, Nat.mul_right_comm]
    _ = _ := by rw [Nat.add_mul, Nat.add_assoc, carry]

theorem secondsScaled?_eq (d : Duration) (factor : Nat) :
    (d.secondsScaled? factor (d.subsecond * factor / nanosPerSecond)
      (d.subsecond * factor % nanosPerSecond)).getD max = d.scale factor := by
  have below : d.subsecond * factor % nanosPerSecond < nanosPerSecond :=
    Nat.mod_lt _ (by decide)
  rw [scale, saturating_eq_exactly, nanos_mul, exactly]
  simp only [le_maxNanos_iff below, secondsScaled?, Option.bind_eq_bind]
  generalize d.subsecond * factor / nanosPerSecond = carried
  generalize d.subsecond * factor % nanosPerSecond = rest at below ⊢
  generalize d.seconds * factor = seconds
  by_cases fits : seconds + carried < 2 ^ 64
  · have inRange := (le_maxNanos_iff below).mpr fits
    rw [dif_pos fits, Word.fit?_of_lt (Nat.lt_of_le_of_lt (Nat.le_add_right _ _) fits),
      Option.bind_some, Word.fit?_of_lt fits, Option.bind_some, ofParts?, dif_pos inRange,
      Option.getD_some]
  · -- Either the seconds alone are no word or the sum with the carried ones is none.
    have exceeds : Word.fit? 64 (seconds + carried) = none :=
      Word.fit?_of_le (Nat.le_of_not_lt fits)
    rw [dif_neg fits]
    cases word : Word.fit? 64 seconds with
    | none => rfl
    | some same =>
        obtain ⟨-, rfl⟩ := Word.fit?_eq_some.mp word
        rw [Option.bind_some, exceeds]
        rfl

/-- The multiplied nanoseconds are a word, since the factor is one of 32 bits. -/
theorem wordScaled?_eq (d : Duration) {factor : Nat} (small : factor < 2 ^ 32) :
    ∃ product, d.wordScaled? factor = some product ∧ product.getD max = d.scale factor := by
  have subsecond : d.subsecond < nanosPerSecond := Nat.mod_lt _ (by decide)
  have rest : d.subsecond * factor % nanosPerSecond < nanosPerSecond :=
    Nat.mod_lt _ (by decide)
  have whole : nanosPerSecond = 1000000000 := rfl
  have product : d.subsecond * factor < 2 ^ 30 * 2 ^ 32 :=
    Nat.mul_lt_mul'' (by omega) small
  refine ⟨_, ?_, d.secondsScaled?_eq factor⟩
  rw [wordScaled?, Word.fit?_of_lt (by omega), Option.bind_eq_bind, Option.bind_some,
    Word.fit?_of_lt (by omega)]
  rfl

end Duration

namespace Backoff

variable {policy : Backoff}

def wordFactor (exponent : Nat) : Nat :=
  (Word.fit? 32 (2 ^ exponent)).getD (2 ^ 32 - 1)

def wordScaled? (policy : Backoff) (exponent : Nat) : Option Duration :=
  (policy.baseDelay.wordScaled? (wordFactor exponent)).map fun product =>
    product.getD Duration.max

/-- The delay after the attempt with this number in words; none where a step that is not
provided for leaves its word. -/
def wordDelay? (policy : Backoff) (attempt : UInt32) : Option Duration := do
  let longest ← policy.wordScaled? ((Word.minus? policy.maxAttempts.toNat 1).getD 0)
  if attempt ≤ 1 then return policy.baseDelay.shorter longest
  else
    let exponent ← Word.minus? attempt.toNat 1
    let scaled ← policy.wordScaled? exponent
    return scaled.shorter longest

theorem wordFactor_eq (exponent : Nat) : wordFactor exponent = factor exponent := by
  rw [factor_eq, wordFactor]
  by_cases fits : 2 ^ exponent < 2 ^ 32
  · rw [Word.fit?_of_lt fits, Option.getD_some]
    omega
  · rw [Word.fit?_of_le (Nat.le_of_not_lt fits), Option.getD_none]
    omega

theorem wordScaled?_eq (policy : Backoff) (exponent : Nat) :
    policy.wordScaled? exponent = some (policy.scaled exponent) := by
  have small : wordFactor exponent < 2 ^ 32 := by
    rw [wordFactor_eq, factor_eq]
    omega
  obtain ⟨product, multiplied, exact⟩ := policy.baseDelay.wordScaled?_eq small
  rw [wordScaled?, multiplied, Option.map_some, exact, wordFactor_eq]
  rfl

/-- No step leaves its word but those for which the delay provides. -/
theorem wordDelay?_eq (policy : Backoff) (attempt : UInt32) :
    policy.wordDelay? attempt = some (policy.delay attempt) := by
  have last : (Word.minus? policy.maxAttempts.toNat 1).getD 0 = policy.maxAttempts.toNat - 1 := by
    unfold Word.minus?
    split
    · rfl
    · rw [Option.getD_none]
      omega
  rw [wordDelay?, last, wordScaled?_eq, delay, maxDelay]
  split
  · rfl
  · rename_i later
    have later : 1 ≤ attempt.toNat := by
      have beyond := Nat.lt_of_not_le (mt UInt32.le_iff_toNat_le.mpr later)
      exact Nat.le_of_lt beyond
    rw [Word.minus?, if_pos later]
    simp only [Option.bind_eq_bind, Option.bind_some, wordScaled?_eq]
    rfl

end Backoff

/-! ## All delays -/

/-- The delay after an attempt is the base delay times a power of two, exact in nanoseconds or
the longest duration: the exponent counts the attempts after the first one up to the last one
that is allowed, and the power stops at 2^32 - 1.  Delays grow with the attempt and with the
base delay, from the base delay on up to the longest delay, which is that of the last attempt
and of all that follow.  The computation in words never fails, and gives the same. -/
theorem delays_double_up_to_the_last_attempt (policy : Backoff) (attempt : UInt32) :
    policy.delay attempt = Duration.exactly (policy.baseDelay.nanos *
      min (2 ^ min (max attempt.toNat 1 - 1) (max policy.maxAttempts.toNat 1 - 1))
        (2 ^ 32 - 1)) ∧
    (∀ later, attempt ≤ later → policy.delay attempt ≤ policy.delay later) ∧
    (∀ longer, policy.baseDelay ≤ longer →
      policy.delay attempt ≤ { policy with baseDelay := longer }.delay attempt) ∧
    policy.baseDelay ≤ policy.delay attempt ∧
    policy.delay attempt ≤ policy.maxDelay ∧
    (policy.maxAttempts ≤ attempt → policy.delay attempt = policy.maxDelay) ∧
    policy.wordDelay? attempt = some (policy.delay attempt) := by
  have closed := policy.delay_eq_scaled attempt
  refine ⟨?_, ?_, ?_, ?_, ?_, ?_, policy.wordDelay?_eq attempt⟩
  · rw [closed, Backoff.scaled, Duration.scale, Duration.saturating_eq_exactly,
      Backoff.factor_eq, Backoff.doublings]
  · intro later after
    rw [closed, Backoff.delay_eq_scaled]
    exact Backoff.scaled_mono (Backoff.doublings_mono after)
  · intro longer more
    rw [closed, Backoff.delay_eq_scaled]
    exact Duration.scale_le_scale more (Nat.le_refl _)
  · rw [closed, ← policy.scaled_zero]
    exact Backoff.scaled_mono (Nat.zero_le _)
  · rw [closed]
    refine Backoff.scaled_mono ?_
    unfold Backoff.doublings
    omega
  · intro last
    rw [closed, Backoff.doublings_last last]
    rfl

namespace Sample

/-- A base delay of so many seconds that not even its double is a duration. -/
def vastBackoff : Backoff := { baseDelay := .ofSeconds 9223372036854775808, maxAttempts := 40 }

theorem double_of_a_vast_delay_is_the_longest :
    vastBackoff.delay 2 = Duration.max ∧ (2 : UInt32) ≤ 3 ∧
      vastBackoff.delay 2 ≤ vastBackoff.delay 3 ∧ vastBackoff.baseDelay ≤ .max ∧
      vastBackoff.delay 2 ≤ { vastBackoff with baseDelay := .max }.delay 2 ∧
      vastBackoff.maxAttempts ≤ 41 ∧ vastBackoff.delay 41 = vastBackoff.maxDelay := by
  obtain ⟨closed, grows, widens, _⟩ := delays_double_up_to_the_last_attempt vastBackoff 2
  obtain ⟨_, _, _, _, _, last, _⟩ := delays_double_up_to_the_last_attempt vastBackoff 41
  refine ⟨closed.trans ?_, by decide, grows 3 (by decide), by decide, widens .max (by decide),
    by decide, last (by decide)⟩
  decide +kernel

end Sample

end WebhookRelay
