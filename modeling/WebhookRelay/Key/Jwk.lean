import WebhookRelay.Json.Record

/-!
# Published keys

The JSON form of a key and of a key set. Only the key type is mandatory; members
that hold nothing are not written.
-/

set_option autoImplicit false

namespace WebhookRelay

structure Jwk where
  keyType : String
  curve : Option String := none
  x : Option String := none
  y : Option String := none
  keyId : Option String := none
  use : Option String := none
  algorithm : Option String := none
  deriving DecidableEq, Repr

structure JwkSet where
  keys : List Jwk := []
  deriving DecidableEq, Repr

instance : Inhabited JwkSet := ⟨{}⟩

open Json

namespace Jwk

def toJson (key : Jwk) : Json :=
  objOfPresent [
    ("kty", some (.str key.keyType)),
    ("crv", key.curve.map .str),
    ("x", key.x.map .str),
    ("y", key.y.map .str),
    ("kid", key.keyId.map .str),
    ("use", key.use.map .str),
    ("alg", key.algorithm.map .str)]

def fieldNames : List String :=
  ["kty", "crv", "x", "y", "kid", "use", "alg"]

def ofRaw? : Decoder Jwk := fun raw => do
  let fields ← recordWith? 6 fieldNames raw
  return {
    keyType := ← fields.required "kty" asText
    curve := ← fields.optional "crv" asText
    x := ← fields.optional "x" asText
    y := ← fields.optional "y" asText
    keyId := ← fields.optional "kid" asText
    use := ← fields.optional "use" asText
    algorithm := ← fields.optional "alg" asText }

end Jwk

namespace JwkSet

def toJson (set : JwkSet) : Json :=
  .obj [("keys", .arr (set.keys.map Jwk.toJson))]

def ofRaw? : Decoder JwkSet := fun raw => do
  let fields ← record? ["keys"] raw
  return { keys := ← fields.required "keys" (asList Jwk.ofRaw?) }

end JwkSet

end WebhookRelay
