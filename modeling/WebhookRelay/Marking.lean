import WebhookRelay.World

/-!
# Marking keys

A key is marked if it is not live yet. A store may do so in one call; otherwise the
key is looked up first and marked in a second call.
-/

set_option autoImplicit false

namespace WebhookRelay

inductive MarkMode where
  | atomic
  | stepwise
  deriving DecidableEq, Repr

/-- Marks a key unless it is live, and says whether it was not. -/
def markIfAbsent (marks : Marks) (mode : MarkMode) (key : String) (ttl : Duration) :
    Attempt StoreError Bool :=
  match mode with
  | .atomic => .mk (.ask (.tryMark marks key ttl))
  | .stepwise => do
      if ← .mk (.ask (.seen marks key)) then return false
      ExceptT.mk (.ask (.mark marks key ttl))
      return true

/-- The guard against bodies that come again, whatever their event id. -/
structure ReplayGuard where
  window : Duration := .ofSeconds 600
  mode : MarkMode := .atomic
  deriving DecidableEq, Repr

instance : Inhabited ReplayGuard := ⟨{}⟩

namespace ReplayGuard

/-- Remembers a fingerprint for the window, and says whether it was new. -/
def checkAndMark (guard_ : ReplayGuard) (fingerprint : String) : Attempt StoreError Bool :=
  markIfAbsent .fingerprints guard_.mode fingerprint guard_.window

def seen (fingerprint : String) : Attempt StoreError Bool :=
  .mk (.ask (.seen .fingerprints fingerprint))

def release (fingerprint : String) : Attempt StoreError Unit :=
  .mk (.ask (.unmark .fingerprints fingerprint))

end ReplayGuard

end WebhookRelay
