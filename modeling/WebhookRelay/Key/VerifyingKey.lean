import WebhookRelay.Crypto.Ecdsa
import WebhookRelay.Key.Jwk
import WebhookRelay.Signature.Header

/-!
# Verifying keys

A published key is usable if it is a point of P-256 under a key id. A key set keeps
the last usable key of each id.
-/

set_option autoImplicit false

namespace WebhookRelay

structure VerifyingKey where
  keyId : String
  point : P256.Point
  deriving DecidableEq, Repr

inductive Axis where
  | x
  | y
  deriving DecidableEq, Repr

def Axis.name : Axis → String
  | .x => "x"
  | .y => "y"

inductive UnusableKey where
  | keyType (name : String)
  | curve
  | missingKeyId
  | missingCoordinate (axis : Axis)
  | coordinateNotBase64Url (axis : Axis)
  | coordinateLength (axis : Axis)
  | notOnCurve
  deriving DecidableEq, Repr

def UnusableKey.message : UnusableKey → String
  | .keyType name => s!"unsupported kty {name}"
  | .curve => "unsupported curve"
  | .missingKeyId => "missing kid"
  | .missingCoordinate axis => s!"missing {axis.name}"
  | .coordinateNotBase64Url axis => s!"{axis.name} is not base64url"
  | .coordinateLength axis => s!"{axis.name} must be 32 bytes"
  | .notOnCurve => "point is not on the curve"

namespace VerifyingKey

def coordinate (axis : Axis) : Option String → Except UnusableKey Nat
  | none => .error (.missingCoordinate axis)
  | some text =>
      match Base64Url.decodeUnpadded? text with
      | none => .error (.coordinateNotBase64Url axis)
      | some bytes =>
          if bytes.length = 32 then .ok (Sha256.ofBigEndian bytes)
          else .error (.coordinateLength axis)

def ofJwk (jwk : Jwk) : Except UnusableKey VerifyingKey := do
  if jwk.keyType ≠ "EC" then throw (.keyType jwk.keyType)
  if jwk.curve ≠ some "P-256" then throw .curve
  let some keyId := jwk.keyId | throw .missingKeyId
  let x ← coordinate .x jwk.x
  let y ← coordinate .y jwk.y
  let point : P256.Point := ⟨x, y⟩
  if point.onCurve then return ⟨keyId, point⟩ else throw .notOnCurve

def verifies (key : VerifyingKey) (message signature : Bytes) : Bool :=
  match Ecdsa.Signature.ofDer? signature with
  | none => false
  | some signature => Ecdsa.verifies key.point message signature

def uncompressed (key : VerifyingKey) : Bytes :=
  0x04 :: (Sha256.bigEndian 32 key.point.x ++ Sha256.bigEndian 32 key.point.y)

/-- The point by its first coordinate and the parity of the second. -/
def compressed (key : VerifyingKey) : Bytes :=
  (if key.point.y % 2 = 0 then 0x02 else 0x03) :: Sha256.bigEndian 32 key.point.x

end VerifyingKey

/-- Verifying keys, one for each key id. -/
structure KeySet where
  keys : List VerifyingKey := []
  deriving DecidableEq, Repr

namespace KeySet

instance : Inhabited KeySet := ⟨{}⟩

/-- Takes a key in, in place of an earlier one under its id. -/
def insert (set : KeySet) (key : VerifyingKey) : KeySet :=
  ⟨set.keys.filter (fun other => other.keyId ≠ key.keyId) ++ [key]⟩

def add (set : KeySet) (jwk : Jwk) : KeySet :=
  match VerifyingKey.ofJwk jwk with
  | .ok key => set.insert key
  | .error _ => set

def ofJwks (published : JwkSet) : KeySet :=
  published.keys.foldl add {}

def find? (set : KeySet) (keyId : String) : Option VerifyingKey :=
  set.keys.find? fun key => key.keyId = keyId

def size (set : KeySet) : Nat :=
  set.keys.length

end KeySet

end WebhookRelay
