import WebhookRelay.Key.VerifyingKey

/-!
# Signing keys

The counterpart of a verifying key, for those who send webhooks. Its signatures
depend on the key and the message alone.
-/

set_option autoImplicit false

namespace WebhookRelay

structure SigningKey where
  keyId : String
  secret : Nat
  publicPoint : P256.Point
  deriving Repr

namespace SigningKey

/-- The key whose 32 secret bytes all have one value. -/
def ofSeed? (keyId : String) (seed : UInt8) : Option SigningKey :=
  let secret := Sha256.ofBigEndian (List.replicate 32 seed)
  (Ecdsa.publicKey? secret).map fun point => ⟨keyId, secret, point⟩

def jwk (key : SigningKey) : Jwk :=
  { keyType := "EC"
    curve := some "P-256"
    x := some (Base64Url.encode (Sha256.bigEndian 32 key.publicPoint.x))
    y := some (Base64Url.encode (Sha256.bigEndian 32 key.publicPoint.y))
    keyId := some key.keyId
    use := some "sig"
    algorithm := some "ES256" }

def signDer? (key : SigningKey) (message : Bytes) : Option Bytes :=
  (Ecdsa.sign? key.secret message).map Ecdsa.Signature.der

def header? (key : SigningKey) (timestamp : Int) (body : Bytes) : Option String :=
  (key.signDer? (signedMessage timestamp body)).map (SignatureHeader.format timestamp)

end SigningKey

end WebhookRelay
