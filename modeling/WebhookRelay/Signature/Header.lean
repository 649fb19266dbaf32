import WebhookRelay.Crypto.Sha256
import WebhookRelay.Signature.Error
import WebhookRelay.Text.Base64Url
import WebhookRelay.Text.Blank
import WebhookRelay.Text.Split

/-!
# Signature headers

A header is a list of parts between commas, each of the form `name=value`. The last
part named `t` holds the time of signing and the last part named `v1` the signature;
every other part is skipped. What is signed is the time, a point and the body.
-/

set_option autoImplicit false

namespace WebhookRelay

structure SignatureHeader where
  timestamp : Int
  signature : Bytes
  deriving DecidableEq, Repr

namespace SignatureHeader

def value? (name : List Char) (part : List Char) : Option (List Char) :=
  let trimmed := Text.trimChars part
  if trimmed.takeWhile (· ≠ '=') = name then
    match trimmed.dropWhile (· ≠ '=') with
    | _ :: value => some value
    | [] => none
  else none

def lastValue? (name : List Char) (parts : List (List Char)) : Option (List Char) :=
  (parts.filterMap (value? name)).getLast?

def ofChars (text : List Char) : Except MalformedHeader SignatureHeader :=
  let parts := Text.splitOn ',' text
  match lastValue? ['t'] parts, lastValue? ['v', '1'] parts with
  | some timestamp, some signature =>
      match Decimal.int64? timestamp with
      | none => .error .timestampNotInteger
      | some timestamp =>
          match Base64Url.decodeUnpadded? (String.ofList signature) with
          | none => .error .signatureNotBase64Url
          | some [] => .error .emptySignature
          | some signature => .ok { timestamp, signature }
  | _, _ => .error .missingPart

def parse (text : String) : Except MalformedHeader SignatureHeader :=
  ofChars text.toList

def formatChars (timestamp : Int) (signature : Bytes) : List Char :=
  't' :: '=' :: (Decimal.signedDigits timestamp ++
    ',' :: 'v' :: '1' :: '=' :: Base64Url.encodeChars signature)

def format (timestamp : Int) (signature : Bytes) : String :=
  String.ofList (formatChars timestamp signature)

end SignatureHeader

/-- The bytes that a signature covers. -/
def signedMessage (timestamp : Int) (body : Bytes) : Bytes :=
  (Decimal.signedDigits timestamp).map (fun c => UInt8.ofNat c.toNat) ++ 0x2E :: body

/-- The digest by which a body is recognised. -/
def bodyFingerprint (body : Bytes) : String :=
  Sha256.hexDigest body

/-- The digest by which a use of a signature is recognised. -/
def signatureNonce (signature keyId : String) : String :=
  Sha256.hexDigest (Text.utf8 (signature ++ "|" ++ keyId))

end WebhookRelay
