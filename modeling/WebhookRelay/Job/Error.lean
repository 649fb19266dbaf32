/-!
# Queue errors

Failures of the job queue, the dead letters and a delivery.
-/

set_option autoImplicit false

namespace WebhookRelay

inductive QueueError where
  | store (reason : String)
  | delivery (reason : String)
  | jobNotFound (id : String)
  | duplicateJob (id : String)
  | entryNotFound (id : String)
  | alreadyReplayed (id : String)
  | serialization (reason : String)
  deriving DecidableEq, Repr

namespace QueueError

def message : QueueError → String
  | .store reason => s!"Store error: {reason}"
  | .delivery reason => s!"Delivery failed: {reason}"
  | .jobNotFound id => s!"Job not found: {id}"
  | .duplicateJob id => s!"Duplicate job: {id}"
  | .entryNotFound id => s!"Dead-letter entry not found: {id}"
  | .alreadyReplayed id => s!"Dead-letter entry already replayed: {id}"
  | .serialization reason => s!"Serialization error: {reason}"

def isDelivery : QueueError → Bool
  | .delivery _ => true
  | _ => false

def asStoreError : QueueError → QueueError
  | .store reason => .store reason
  | other => .store other.message

def deliveryText : QueueError → String
  | .delivery reason => reason
  | other => other.message

end QueueError

end WebhookRelay
