import WebhookRelay.Number.Decimal

/-!
# Verification errors

Why a request is not taken as authentic, with the code that answers and audit
records carry. Two of them are our own failures and not the sender's.
-/

set_option autoImplicit false

namespace WebhookRelay

inductive MalformedHeader where
  | missingPart
  | timestampNotInteger
  | signatureNotBase64Url
  | emptySignature
  | other (reason : String)
  deriving DecidableEq, Repr

def MalformedHeader.message : MalformedHeader → String
  | .missingPart => "missing t or v1"
  | .timestampNotInteger => "timestamp is not an integer"
  | .signatureNotBase64Url => "signature is not base64url"
  | .emptySignature => "empty signature"
  | .other reason => reason

inductive VerificationError where
  | missingSignature
  | missingKeyId
  | malformedSignature (reason : MalformedHeader)
  | timestampExpired (ageSeconds toleranceSeconds : Nat)
  | keyNotFound (keyId : String)
  | invalidSignature
  | signatureReplayed
  | keySetUnavailable (reason : String)
  | misconfigured (reason : String)
  deriving DecidableEq, Repr

namespace VerificationError

def code : VerificationError → String
  | .missingSignature => "missing_signature"
  | .missingKeyId => "missing_key_id"
  | .malformedSignature _ => "malformed_signature"
  | .timestampExpired _ _ => "timestamp_expired"
  | .keyNotFound _ => "key_not_found"
  | .invalidSignature => "invalid_signature"
  | .signatureReplayed => "signature_replayed"
  | .keySetUnavailable _ => "key_set_unavailable"
  | .misconfigured _ => "verifier_misconfigured"

def message : VerificationError → String
  | .missingSignature => "Signature header missing"
  | .missingKeyId => "Key ID header missing"
  | .malformedSignature reason => s!"Malformed signature header: {reason.message}"
  | .timestampExpired age tolerance =>
      let age := Decimal.ofNat age
      let tolerance := Decimal.ofNat tolerance
      s!"Timestamp outside tolerance: {age}s (tolerance {tolerance}s)"
  | .keyNotFound keyId => s!"Key not found: {keyId}"
  | .invalidSignature => "Signature does not match"
  | .signatureReplayed => "Signature already used"
  | .keySetUnavailable reason => s!"Key set unavailable: {reason}"
  | .misconfigured reason => s!"Verifier misconfigured: {reason}"

def isInternal : VerificationError → Bool
  | .keySetUnavailable _ => true
  | .misconfigured _ => true
  | _ => false

end VerificationError

end WebhookRelay
