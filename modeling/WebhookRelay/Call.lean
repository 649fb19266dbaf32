import WebhookRelay.Alert
import WebhookRelay.Audit.Trail
import WebhookRelay.DeadLetter
import WebhookRelay.Event.Store
import WebhookRelay.Http.Exchange
import WebhookRelay.Job.Store
import WebhookRelay.Key.Cache

/-!
# Calls

Every contact of the pipeline with its stores and the outside is one call. A call is
atomic: between two calls of one activity, any call of another may come.
-/

set_option autoImplicit false

namespace WebhookRelay

/-- The two stores of expiring marks: bodies seen and signatures used. -/
inductive Marks where
  | fingerprints
  | nonces
  deriving DecidableEq, Repr

inductive IdKind where
  | job
  | deadLetter
  | alert
  | audit
  deriving DecidableEq, Repr

inductive Call where
  | findEvent (eventId : String)
  | createEvent (event : Event)
  | markProcessed (eventId : String) (time : Timestamp)
  | seen (marks : Marks) (key : String)
  | mark (marks : Marks) (key : String) (ttl : Duration)
  | tryMark (marks : Marks) (key : String) (ttl : Duration)
  | unmark (marks : Marks) (key : String)
  | createJob (job : Job)
  | getJob (id : Uuid)
  | dueJobs (now : Timestamp) (limit : Nat)
  | updateJob (job : Job)
  | jobsByStatus (status : JobStatus)
  | jobsByEvent (eventId : String)
  | createEntry (entry : DeadLetter)
  | getEntry (id : Uuid)
  | containsJob (jobId : Uuid)
  | updateEntry (entry : DeadLetter)
  | listEntries
  | createAlert (alert : Alert)
  | recentAlert (eventId reason : String) (since : Timestamp)
  | createAudit (record : AuditRecord)
  | readKeys (keyId : String)
  | refreshKeys (seenAt : Option Instant)
  | newId (kind : IdKind)
  | deliver (job : Job)
  | exchange (request : OutgoingRequest)

@[reducible] def Call.Answer : Call → Type
  | .findEvent _ => Except StoreError (Option Event)
  | .createEvent _ => Except StoreError Unit
  | .markProcessed _ _ => Except StoreError Unit
  | .seen _ _ => Except StoreError Bool
  | .mark _ _ _ => Except StoreError Unit
  | .tryMark _ _ _ => Except StoreError Bool
  | .unmark _ _ => Except StoreError Unit
  | .createJob _ => Except QueueError Unit
  | .getJob _ => Except QueueError (Option Job)
  | .dueJobs _ _ => Except QueueError (List Job)
  | .updateJob _ => Except QueueError Unit
  | .jobsByStatus _ => Except QueueError (List Job)
  | .jobsByEvent _ => Except QueueError (List Job)
  | .createEntry _ => Except QueueError Unit
  | .getEntry _ => Except QueueError (Option DeadLetter)
  | .containsJob _ => Except QueueError Bool
  | .updateEntry _ => Except QueueError Unit
  | .listEntries => Except QueueError (List DeadLetter)
  | .createAlert _ => Except AuditError Unit
  | .recentAlert _ _ _ => Except AuditError Bool
  | .createAudit _ => Except AuditError Unit
  | .readKeys _ => KeyReading
  | .refreshKeys _ => Except VerificationError KeySet
  | .newId _ => Uuid
  | .deliver _ => Except QueueError Unit
  | .exchange _ => Exchange

inductive Site where
  | findEvent
  | createEvent
  | markProcessed
  | seen (marks : Marks)
  | mark (marks : Marks)
  | tryMark (marks : Marks)
  | unmark (marks : Marks)
  | createJob
  | getJob
  | dueJobs
  | updateJob
  | jobsByStatus
  | jobsByEvent
  | createEntry
  | getEntry
  | containsJob
  | updateEntry
  | listEntries
  | createAlert
  | recentAlert
  deriving DecidableEq, Repr

def Site.names : List (String × Site) :=
  [("events.find", .findEvent), ("events.create", .createEvent),
    ("events.mark_processed", .markProcessed),
    ("replay.seen", .seen .fingerprints), ("replay.mark", .mark .fingerprints),
    ("replay.try_mark", .tryMark .fingerprints), ("replay.unmark", .unmark .fingerprints),
    ("nonces.seen", .seen .nonces), ("nonces.mark", .mark .nonces),
    ("nonces.try_mark", .tryMark .nonces), ("nonces.unmark", .unmark .nonces),
    ("queue.create", .createJob), ("queue.get", .getJob), ("queue.list_due", .dueJobs),
    ("queue.update", .updateJob), ("queue.list_by_status", .jobsByStatus),
    ("queue.find_by_event_id", .jobsByEvent), ("dlq.create", .createEntry),
    ("dlq.get", .getEntry), ("dlq.contains_job", .containsJob), ("dlq.update", .updateEntry),
    ("dlq.list", .listEntries), ("alerts.create", .createAlert),
    ("alerts.exists_recent", .recentAlert)]

/-- How a call is refused. A race is lost to a request that stores the same event
first. -/
inductive Refusal where
  | store (error : StoreError)
  | queue (error : QueueError)
  | audit (error : AuditError)
  | race
  deriving DecidableEq, Repr

end WebhookRelay
