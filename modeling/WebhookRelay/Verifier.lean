import WebhookRelay.Marking

/-!
# Verification

A request is authentic if its signature header is well-formed and recent, and a
published key under its key id verifies the signature over the time and the body.
Where signatures may be used once only, its nonce must be new as well. The checks
come in this order, so that neither an unsigned nor a stale request causes a fetch,
and none but an authentic one uses up a nonce.
-/

set_option autoImplicit false

namespace WebhookRelay

structure SignatureClaim where
  signature : Option String := none
  keyId : Option String := none
  deriving DecidableEq, Repr

instance : Inhabited SignatureClaim := ⟨{}⟩

structure Verifier where
  tolerance : Duration := .ofSeconds 300
  skip : Bool := false
  nonceTtl : Duration := .ofSeconds 600
  /-- Whether there is a source of keys. -/
  hasKeys : Bool := true
  /-- How nonces are marked, where signatures may be used once only. -/
  nonces : Option MarkMode := none
  deriving DecidableEq, Repr

instance : Inhabited Verifier := ⟨{}⟩

structure Verified where
  keyId : Option String
  timestamp : Option Int
  skipped : Bool
  deriving DecidableEq, Repr

/-- Looks a key up in the cache, in one step or two. -/
def lookUpKey (keyId : String) : Attempt VerificationError VerifyingKey := do
  match ← ExceptT.lift (Program.ask (.readKeys keyId)) with
  | .found key => return key
  | .absent => throw (.keyNotFound keyId)
  | .stale seenAt =>
      let keys ← ExceptT.mk (Program.ask (.refreshKeys seenAt))
      match keys.find? keyId with
      | some key => return key
      | none => throw (.keyNotFound keyId)

namespace Verifier

/-- The age of a signature in whole seconds, in either direction. -/
def age (now timestamp : Int) : Nat :=
  (now - timestamp).natAbs

def checkNonce (verifier : Verifier) (signature keyId : String) :
    Attempt VerificationError Unit :=
  match verifier.nonces with
  | none => return ()
  | some mode => do
      let fresh ← Attempt.asking
        (markIfAbsent .nonces mode (signatureNonce signature keyId) verifier.nonceTtl).outcome
        fun error => .misconfigured s!"nonce store: {error.message}"
      if !fresh then throw .signatureReplayed

def verify (verifier : Verifier) (now : Int) (claim : SignatureClaim) (body : Bytes) :
    Attempt VerificationError Verified := do
  if verifier.skip then
    return { keyId := claim.keyId, timestamp := none, skipped := true }
  if !verifier.hasKeys then throw (.misconfigured "no key-set source configured")
  let some signature := claim.signature | throw .missingSignature
  let some keyId := claim.keyId | throw .missingKeyId
  match SignatureHeader.parse signature with
  | .error reason => throw (.malformedSignature reason)
  | .ok header =>
      let age := age now header.timestamp
      if verifier.tolerance.seconds < age then
        throw (.timestampExpired age verifier.tolerance.seconds)
      let key ← lookUpKey keyId
      if !key.verifies (signedMessage header.timestamp body) header.signature then
        throw .invalidSignature
      verifier.checkNonce signature keyId
      return { keyId := some keyId, timestamp := some header.timestamp, skipped := false }

end Verifier

end WebhookRelay
