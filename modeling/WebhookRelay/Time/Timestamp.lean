import WebhookRelay.Time.Calendar
import WebhookRelay.Time.Duration

/-!
# Points in time

A timestamp is a second since 1970 in universal time and a fraction of it. Inside a
leap second the fraction runs on from one second to two, so such a timestamp lies
between its second and the next one. Addition and subtraction of a span leave a leap
second as if it were the second before it, unless they stay inside it.
-/

set_option autoImplicit false

namespace WebhookRelay

structure Timestamp where
  seconds : Int
  nanos : Nat
  deriving DecidableEq, Repr, Inhabited

namespace Timestamp

def secondsPerDay : Int := 86400

def minSeconds : Int := -8334601228800

def maxSeconds : Int := 8210266876799

/-- The first and the last supported point in time. -/
def earliest : Timestamp := ⟨minSeconds, 0⟩

def latest : Timestamp := ⟨maxSeconds, 999999999⟩

def ofSeconds (seconds : Int) : Timestamp := ⟨seconds, 0⟩

def inRange (t : Timestamp) : Bool :=
  minSeconds ≤ t.seconds && t.seconds ≤ maxSeconds && t.nanos < 2 * nanosPerSecond

def isLeap (t : Timestamp) : Bool :=
  nanosPerSecond ≤ t.nanos

def before (a b : Timestamp) : Bool :=
  a.seconds < b.seconds || (a.seconds = b.seconds && a.nanos < b.nanos)

def atMost (a b : Timestamp) : Bool :=
  !b.before a

def checked (seconds : Int) (nanos : Nat) : Option Timestamp :=
  if minSeconds ≤ seconds ∧ seconds ≤ maxSeconds then some ⟨seconds, nanos⟩ else none

def plusParts (seconds : Int) (nanos spanSeconds spanNanos : Nat) : Option Timestamp :=
  let total := nanos + spanNanos
  if total < nanosPerSecond then checked (seconds + spanSeconds) total
  else checked (seconds + spanSeconds + 1) (total - nanosPerSecond)

def plus? (t : Timestamp) (span : Duration) : Option Timestamp :=
  if t.isLeap then
    if 0 < span.seconds ∨
        (0 < span.subsecond ∧ 2 * nanosPerSecond ≤ t.nanos + span.subsecond) then
      plusParts t.seconds (t.nanos - nanosPerSecond) span.seconds span.subsecond
    else some ⟨t.seconds, t.nanos + span.subsecond⟩
  else plusParts t.seconds t.nanos span.seconds span.subsecond

def minusParts (seconds : Int) (nanos spanSeconds spanNanos : Nat) : Option Timestamp :=
  if spanNanos ≤ nanos then checked (seconds - spanSeconds) (nanos - spanNanos)
  else checked (seconds - spanSeconds - 1) (nanos + nanosPerSecond - spanNanos)

def minus? (t : Timestamp) (span : Duration) : Option Timestamp :=
  if t.isLeap then
    if 0 < span.seconds then
      minusParts (t.seconds + 1) (t.nanos - nanosPerSecond) span.seconds span.subsecond
    else some ⟨t.seconds, t.nanos - span.subsecond⟩
  else minusParts t.seconds t.nanos span.seconds span.subsecond

/-- The longest span of the time arithmetic: 2^63 - 1 milliseconds. -/
def longestSpan : Duration := ⟨9223372036854775807000000, by decide⟩

/-- The point a duration later, at most the latest one. -/
def plusSaturating (t : Timestamp) (d : Duration) : Timestamp :=
  (t.plus? (d.shorter longestSpan)).getD latest

def minusSaturating (t : Timestamp) (d : Duration) : Timestamp :=
  (t.minus? (d.shorter longestSpan)).getD earliest

end Timestamp

end WebhookRelay
