import WebhookRelay.Json.Record
import WebhookRelay.Json.Render
import WebhookRelay.Time.Rfc3339

/-!
# Order events

An event is stored once under its id. It is received until its delivery job exists
and processed from then on. The fields that identify an event are read from the
body, where an id is a non-empty text or a number.
-/

set_option autoImplicit false

namespace WebhookRelay

inductive EventStatus where
  | received
  | processed
  deriving DecidableEq, Repr

structure Event where
  eventId : String
  eventType : Option String
  orderId : String
  status : EventStatus
  fingerprint : String
  receivedAt : Timestamp
  processedAt : Option Timestamp
  deriving DecidableEq, Repr

namespace Json

def time (t : Timestamp) : Json := .str (Rfc3339.render t)

def asTime : Decoder Timestamp
  | .string (some text) => Rfc3339.parse? text
  | _ => none

end Json

def EventStatus.names : List (String × EventStatus) :=
  [("received", .received), ("processed", .processed)]

def EventStatus.name : EventStatus → String
  | .received => "received"
  | .processed => "processed"

namespace Event

open Json

def toJson (event : Event) : Json :=
  .obj [
    ("event_id", .str event.eventId),
    ("event_type", ofOption .str event.eventType),
    ("order_id", .str event.orderId),
    ("status", .str event.status.name),
    ("payload_fingerprint", .str event.fingerprint),
    ("received_at", time event.receivedAt),
    ("processed_at", ofOption time event.processedAt)]

def fieldNames : List String :=
  ["event_id", "event_type", "order_id", "status", "payload_fingerprint", "received_at",
    "processed_at"]

def ofRaw? : Decoder Event := fun raw => do
  let fields ← record? fieldNames raw
  return {
    eventId := ← fields.required "event_id" asText
    eventType := ← fields.optional "event_type" asText
    orderId := ← fields.required "order_id" asText
    status := ← fields.required "status" (asName EventStatus.names)
    fingerprint := ← fields.required "payload_fingerprint" asText
    receivedAt := ← fields.required "received_at" asTime
    processedAt := ← fields.optional "processed_at" asTime }

end Event

structure EventFields where
  eventId : String
  eventType : Option String
  orderId : String
  orderStatus : Option String
  deriving DecidableEq, Repr

namespace EventFields

/-- The text of a scalar: a text without its surrounding blanks, or a number as it is
written. An empty text counts as none. -/
def scalar? : Json → Option String
  | .str text =>
      let trimmed := Text.trim text
      if trimmed.isEmpty then none else some trimmed
  | .int n => some (Decimal.ofInt n)
  | .float x => some (String.ofList (Shortest.chars x))
  | _ => none

def eventId? (body : Json) : Option String :=
  (body.member? "event_id").bind scalar?

/-- The fields of a body; none without an event id or an order id. -/
def ofJson? (body : Json) : Option EventFields := do
  let eventId ← eventId? body
  let order ← body.member? "order"
  let orderId ← (order.member? "id").bind scalar?
  return {
    eventId
    eventType := (body.member? "event_type").bind scalar?
    orderId
    orderStatus := (order.member? "status").bind scalar? }

def eventIdOfBytes? (body : Bytes) : Option String :=
  (Json.parseBytes? body).bind eventId?

end EventFields

end WebhookRelay
