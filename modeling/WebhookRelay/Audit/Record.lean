import WebhookRelay.Event

/-!
# Audit records

What is kept of a rejected request. An id is any text.
-/

set_option autoImplicit false

namespace WebhookRelay

structure AuditRecord where
  id : String
  eventId : Option String
  reason : String
  signatureHeader : Option String
  keyId : Option String
  fingerprint : String
  createdAt : Timestamp
  deriving DecidableEq, Repr

namespace AuditRecord

open Json

def toJson (record : AuditRecord) : Json :=
  .obj [
    ("id", .str record.id),
    ("event_id", ofOption .str record.eventId),
    ("reason", .str record.reason),
    ("signature_header", ofOption .str record.signatureHeader),
    ("key_id", ofOption .str record.keyId),
    ("payload_fingerprint", .str record.fingerprint),
    ("created_at", time record.createdAt)]

def fieldNames : List String :=
  ["id", "event_id", "reason", "signature_header", "key_id", "payload_fingerprint",
    "created_at"]

def ofRaw? : Decoder AuditRecord := fun raw => do
  let fields ← record? fieldNames raw
  return {
    id := ← fields.required "id" asText
    eventId := ← fields.optional "event_id" asText
    reason := ← fields.required "reason" asText
    signatureHeader := ← fields.optional "signature_header" asText
    keyId := ← fields.optional "key_id" asText
    fingerprint := ← fields.required "payload_fingerprint" asText
    createdAt := ← fields.required "created_at" asTime }

def create (id : String) (now : Timestamp) (reason fingerprint : String) : AuditRecord :=
  { id, eventId := none, reason, signatureHeader := none, keyId := none, fingerprint,
    createdAt := now }

end AuditRecord

end WebhookRelay
