import WebhookRelay.Job
import WebhookRelay.Job.Error

/-!
# Dead letters

An entry keeps a failed job for an operator, who may put it back on the queue once.
Storing an entry under a known id replaces it.
-/

set_option autoImplicit false

namespace WebhookRelay

structure DeadLetter where
  id : Uuid
  jobId : Uuid
  eventId : String
  payload : String
  attempts : UInt32
  lastError : Option String
  capturedAt : Timestamp
  replayedAt : Option Timestamp
  replayJobId : Option Uuid
  deriving DecidableEq, Repr

namespace DeadLetter

open Json

def ofJob (id : Uuid) (job : Job) (capturedAt : Timestamp) : DeadLetter :=
  { id
    jobId := job.id
    eventId := job.eventId
    payload := job.payload
    attempts := job.attempts
    lastError := job.lastError
    capturedAt
    replayedAt := none
    replayJobId := none }

def isReplayed (entry : DeadLetter) : Bool :=
  entry.replayedAt.isSome

def toJson (entry : DeadLetter) : Json :=
  .obj [
    ("id", uuid entry.id),
    ("job_id", uuid entry.jobId),
    ("event_id", .str entry.eventId),
    ("payload", .str entry.payload),
    ("attempts", .int entry.attempts.toNat),
    ("last_error", ofOption .str entry.lastError),
    ("captured_at", time entry.capturedAt),
    ("replayed_at", ofOption time entry.replayedAt),
    ("replay_job_id", ofOption uuid entry.replayJobId)]

def fieldNames : List String :=
  ["id", "job_id", "event_id", "payload", "attempts", "last_error", "captured_at",
    "replayed_at", "replay_job_id"]

def ofRaw? : Decoder DeadLetter := fun raw => do
  let fields ← record? fieldNames raw
  return {
    id := ← fields.required "id" asUuid
    jobId := ← fields.required "job_id" asUuid
    eventId := ← fields.required "event_id" asText
    payload := ← fields.required "payload" asText
    attempts := ← fields.required "attempts" asUInt32
    lastError := ← fields.optional "last_error" asText
    capturedAt := ← fields.required "captured_at" asTime
    replayedAt := ← fields.optional "replayed_at" asTime
    replayJobId := ← fields.optional "replay_job_id" asUuid }

end DeadLetter

structure DeadLetterStore where
  entries : List DeadLetter := []
  deriving Repr

namespace DeadLetterStore

instance : Inhabited DeadLetterStore := ⟨{}⟩

def find? (store : DeadLetterStore) (id : Uuid) : Option DeadLetter :=
  store.entries.find? fun entry => entry.id = id

def replace (store : DeadLetterStore) (entry : DeadLetter) : DeadLetterStore :=
  ⟨store.entries.map fun other => if other.id = entry.id then entry else other⟩

def put (store : DeadLetterStore) (entry : DeadLetter) : DeadLetterStore :=
  if (store.find? entry.id).isSome then store.replace entry
  else ⟨store.entries ++ [entry]⟩

def update (store : DeadLetterStore) (entry : DeadLetter) :
    Except QueueError DeadLetterStore :=
  if (store.find? entry.id).isSome then .ok (store.replace entry)
  else .error (.entryNotFound entry.id.render)

def containsJob (store : DeadLetterStore) (jobId : Uuid) : Bool :=
  store.entries.any fun entry => entry.jobId = jobId

/-- Order by the time of capture, then by id. -/
def earlierOrSame (a b : DeadLetter) : Bool :=
  a.capturedAt.before b.capturedAt ||
    (a.capturedAt = b.capturedAt && !b.id.before a.id)

def all (store : DeadLetterStore) : List DeadLetter :=
  store.entries.mergeSort earlierOrSame

end DeadLetterStore

end WebhookRelay
