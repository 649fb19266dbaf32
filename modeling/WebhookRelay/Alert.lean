import WebhookRelay.Event

/-!
# Alerts

An alert tells an operator that deliveries of an event keep failing. The policy says
how many attempts it takes and for how long no second alert of the same kind is
raised.
-/

set_option autoImplicit false

namespace WebhookRelay

structure Alert where
  id : String
  eventId : String
  reason : String
  details : String
  attemptCount : UInt32
  createdAt : Timestamp
  deriving DecidableEq, Repr

namespace Alert

open Json

def toJson (alert : Alert) : Json :=
  .obj [
    ("id", .str alert.id),
    ("event_id", .str alert.eventId),
    ("reason", .str alert.reason),
    ("details", .str alert.details),
    ("attempt_count", .int alert.attemptCount.toNat),
    ("created_at", time alert.createdAt)]

def fieldNames : List String :=
  ["id", "event_id", "reason", "details", "attempt_count", "created_at"]

def ofRaw? : Decoder Alert := fun raw => do
  let fields ← record? fieldNames raw
  return {
    id := ← fields.required "id" asText
    eventId := ← fields.required "event_id" asText
    reason := ← fields.required "reason" asText
    details := ← fields.required "details" asText
    attemptCount := ← fields.required "attempt_count" asUInt32
    createdAt := ← fields.required "created_at" asTime }

def existsSince (alerts : List Alert) (eventId reason : String) (since : Timestamp) : Bool :=
  alerts.any fun alert =>
    alert.eventId = eventId && alert.reason = reason && since.before alert.createdAt

end Alert

structure AlertPolicy where
  minAttempts : UInt32 := 2
  dedupeWindow : Duration := .ofSeconds 3600
  deriving DecidableEq, Repr

instance : Inhabited AlertPolicy := ⟨{}⟩

structure FailureNotice where
  eventId : String
  reason : String
  details : String
  attemptCount : UInt32
  deriving DecidableEq, Repr

inductive AlertOutcome where
  | raised
  | belowThreshold
  | deduplicated
  | dropped
  deriving DecidableEq, Repr

def AlertOutcome.name : AlertOutcome → String
  | .raised => "Raised"
  | .belowThreshold => "BelowThreshold"
  | .deduplicated => "Deduplicated"
  | .dropped => "Dropped"

end WebhookRelay
