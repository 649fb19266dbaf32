import WebhookRelay.Key.VerifyingKey
import WebhookRelay.Store.ExpiringSet

/-!
# The key cache

A fetched key set is used until its time to live is over. A key id that it lacks
causes a new fetch, but not sooner than an interval after the last one. A look-up
first reads the cache; if that does not decide it, a second step either takes over a
set that someone else has installed meanwhile or fetches.
-/

set_option autoImplicit false

namespace WebhookRelay

structure KeyCacheConfig where
  ttl : Duration := .ofSeconds 600
  minRefreshInterval : Duration := .ofSeconds 30
  deriving DecidableEq, Repr

structure CachedKeys where
  keys : KeySet
  fetchedAt : Instant
  deriving DecidableEq, Repr

structure KeyCache where
  config : KeyCacheConfig := {}
  cached : Option CachedKeys := none
  deriving DecidableEq, Repr

inductive KeyReading where
  | found (key : VerifyingKey)
  | absent
  /-- A fetch is due; the instant of the set that was seen, if there was one. -/
  | stale (seenAt : Option Instant)
  deriving DecidableEq, Repr

namespace KeyCache

instance : Inhabited KeyCache := ⟨{}⟩

def isExpired (cache : KeyCache) (now : Instant) (entry : CachedKeys) : Bool :=
  cache.config.ttl.nanos ≤ now.since entry.fetchedAt

def read (cache : KeyCache) (now : Instant) (keyId : String) : KeyReading :=
  match cache.cached with
  | none => .stale none
  | some entry =>
      if cache.isExpired now entry then .stale (some entry.fetchedAt)
      else
        match entry.keys.find? keyId with
        | some key => .found key
        | none =>
            if now.since entry.fetchedAt < cache.config.minRefreshInterval.nanos then .absent
            else .stale (some entry.fetchedAt)

/-- A set that has been installed since the first step and is not expired. -/
def takeOver? (cache : KeyCache) (now : Instant) (seenAt : Option Instant) : Option KeySet :=
  match cache.cached with
  | none => none
  | some entry =>
      if some entry.fetchedAt ≠ seenAt ∧ ¬cache.isExpired now entry then some entry.keys
      else none

def install (cache : KeyCache) (now : Instant) (keys : KeySet) : KeyCache :=
  { cache with cached := some ⟨keys, now⟩ }

def invalidate (cache : KeyCache) : KeyCache :=
  { cache with cached := none }

/-- The number of keys held, expired or not. -/
def size (cache : KeyCache) : Nat :=
  match cache.cached with
  | none => 0
  | some entry => entry.keys.size

end KeyCache

end WebhookRelay
