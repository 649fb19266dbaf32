import WebhookRelay.Event
import WebhookRelay.Job.Backoff
import WebhookRelay.Uuid

/-!
# Delivery jobs

A job carries an event's body to its target. It is active while it is pending or
retrying and ends as processed or failed. Each attempt is counted before it is made;
a failed one sets the time of the next or ends the job.
-/

set_option autoImplicit false

namespace WebhookRelay

inductive JobStatus where
  | pending
  | retrying
  | processed
  | failed
  deriving DecidableEq, Repr

namespace JobStatus

def name : JobStatus → String
  | .pending => "pending"
  | .retrying => "retrying"
  | .processed => "processed"
  | .failed => "failed"

def names : List (String × JobStatus) :=
  [("pending", .pending), ("retrying", .retrying), ("processed", .processed),
    ("failed", .failed)]

def isActive : JobStatus → Bool
  | .pending => true
  | .retrying => true
  | _ => false

end JobStatus

structure Job where
  id : Uuid
  eventId : String
  payload : String
  status : JobStatus
  attempts : UInt32
  nextRetryAt : Timestamp
  lastError : Option String
  lastAttemptAt : Option Timestamp
  createdAt : Timestamp
  deriving DecidableEq, Repr

namespace Json

def uuid (id : Uuid) : Json := .str id.render

def asUuid : Decoder Uuid
  | .string (some text) => Uuid.parse? text
  | _ => none

end Json

namespace Job

open Json

def create (id : Uuid) (now : Timestamp) (eventId payload : String) : Job :=
  { id, eventId, payload
    status := .pending
    attempts := 0
    nextRetryAt := now
    lastError := none
    lastAttemptAt := none
    createdAt := now }

def isDue (job : Job) (now : Timestamp) : Bool :=
  job.status.isActive && job.nextRetryAt.atMost now

def isTerminal (job : Job) : Bool :=
  !job.status.isActive

/-- Counts one more attempt, up to the largest count. -/
def beginAttempt (job : Job) : Job :=
  { job with attempts := if job.attempts = 4294967295 then job.attempts else job.attempts + 1 }

def recordSuccess (job : Job) (now : Timestamp) : Job :=
  { job with status := .processed, nextRetryAt := now }

def recordFailure (job : Job) (now : Timestamp) (error : String) (policy : Backoff) : Job :=
  let job := { job with lastError := some error, lastAttemptAt := some now }
  if policy.isExhausted job.attempts then { job with status := .failed }
  else
    { job with
      status := .retrying
      nextRetryAt := now.plusSaturating (policy.delay job.attempts) }

def toJson (job : Job) : Json :=
  .obj [
    ("id", uuid job.id),
    ("event_id", .str job.eventId),
    ("payload", .str job.payload),
    ("status", .str job.status.name),
    ("attempts", .int job.attempts.toNat),
    ("next_retry_at", time job.nextRetryAt),
    ("last_error", ofOption .str job.lastError),
    ("last_attempt_at", ofOption time job.lastAttemptAt),
    ("created_at", time job.createdAt)]

def fieldNames : List String :=
  ["id", "event_id", "payload", "status", "attempts", "next_retry_at", "last_error",
    "last_attempt_at", "created_at"]

def ofRaw? : Decoder Job := fun raw => do
  let fields ← record? fieldNames raw
  return {
    id := ← fields.required "id" asUuid
    eventId := ← fields.required "event_id" asText
    payload := ← fields.required "payload" asText
    status := ← fields.required "status" (asName JobStatus.names)
    attempts := ← fields.required "attempts" asUInt32
    nextRetryAt := ← fields.required "next_retry_at" asTime
    lastError := ← fields.optional "last_error" asText
    lastAttemptAt := ← fields.optional "last_attempt_at" asTime
    createdAt := ← fields.required "created_at" asTime }

end Job

end WebhookRelay
