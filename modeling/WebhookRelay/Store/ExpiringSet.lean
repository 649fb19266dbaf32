import WebhookRelay.Time.Duration

/-!
# Expiring sets

A set of keys of which each is live until an instant of the monotonic clock. Only
the inserting operations remove what has expired; looking up and counting see live
keys alone. An expiry instant beyond the range of the clock cannot be stored, and
the operation that would need it has no result.
-/

set_option autoImplicit false

namespace WebhookRelay

/-- Nanoseconds on the monotonic clock. -/
abbrev Instant := Nat

namespace Instant

/-- The last instant of the clock: 2^63 - 1 seconds and a fraction. -/
def last : Instant := 9223372036854775807999999999

def plus? (now : Instant) (d : Duration) : Option Instant :=
  if now + d.nanos ≤ last then some (now + d.nanos) else none

def since (now earlier : Instant) : Nat :=
  now - earlier

end Instant

/-- Keys with the instants at which they expire, one entry per key. -/
structure ExpiringSet where
  entries : List (String × Instant) := []
  deriving Repr, DecidableEq

namespace ExpiringSet

instance : Inhabited ExpiringSet := ⟨{}⟩

def expiry? (set : ExpiringSet) (key : String) : Option Instant :=
  (set.entries.find? fun entry => entry.1 = key).map Prod.snd

def isLive (now : Instant) (entry : String × Instant) : Bool :=
  now < entry.2

def contains (set : ExpiringSet) (now : Instant) (key : String) : Bool :=
  match set.expiry? key with
  | some expiresAt => now < expiresAt
  | none => false

def size (set : ExpiringSet) (now : Instant) : Nat :=
  (set.entries.filter (isLive now)).length

def purge (set : ExpiringSet) (now : Instant) : ExpiringSet :=
  ⟨set.entries.filter (isLive now)⟩

def put (set : ExpiringSet) (key : String) (expiresAt : Instant) : ExpiringSet :=
  ⟨(key, expiresAt) :: set.entries.filter fun entry => entry.1 ≠ key⟩

def erase (set : ExpiringSet) (key : String) : ExpiringSet :=
  ⟨set.entries.filter fun entry => entry.1 ≠ key⟩

/-- Makes a key live for a duration from now on, whatever it was before. -/
def insert? (set : ExpiringSet) (now : Instant) (key : String) (ttl : Duration) :
    Option ExpiringSet :=
  (now.plus? ttl).map fun expiresAt => (set.purge now).put key expiresAt

/-- Makes a key live unless it is; says whether it was not. -/
def insertIfAbsent? (set : ExpiringSet) (now : Instant) (key : String) (ttl : Duration) :
    Option (Bool × ExpiringSet) :=
  let purged := set.purge now
  match purged.expiry? key with
  | some _ => some (false, purged)
  | none => (now.plus? ttl).map fun expiresAt => (true, purged.put key expiresAt)

end ExpiringSet

end WebhookRelay
