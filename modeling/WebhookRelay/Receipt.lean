import WebhookRelay.Json.Value
import WebhookRelay.Signature.Error
import WebhookRelay.Store.Error

/-!
# Receipts

What a sender of a webhook is told: the event is accepted, it is known already, or
why the request is refused, with the HTTP status and body of the answer.
-/

set_option autoImplicit false

namespace WebhookRelay

inductive ReceiveError where
  | invalidBody
  | verification (error : VerificationError)
  | missingRequiredFields
  | replayDetected
  | internal (reason : String)
  deriving DecidableEq, Repr

namespace ReceiveError

def code : ReceiveError → String
  | .invalidBody => "invalid_body"
  | .verification error => error.code
  | .missingRequiredFields => "missing_required_fields"
  | .replayDetected => "replay_detected"
  | .internal _ => "internal_error"

def message : ReceiveError → String
  | .invalidBody => "request body is empty or unreadable"
  | .verification error => error.message
  | .missingRequiredFields => "payload is missing event_id or order.id"
  | .replayDetected => "payload was already received"
  | .internal reason => s!"internal error: {reason}"

def status : ReceiveError → Nat
  | .invalidBody => 400
  | .missingRequiredFields => 400
  | .verification error => if error.isInternal then 500 else 401
  | .replayDetected => 409
  | .internal _ => 500

def body (error : ReceiveError) : Json :=
  .obj [("error", .str error.code)]

def ofStore (error : StoreError) : ReceiveError :=
  .internal error.message

end ReceiveError

end WebhookRelay
