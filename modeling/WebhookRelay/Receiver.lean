import WebhookRelay.Receipt
import WebhookRelay.Verifier

/-!
# Receiving webhooks

A request is verified, read, recognised by its event id, guarded against replays of
its body, stored and enqueued. An event counts as processed once its job exists; a
duplicate of an event that is only received makes up for the missing job before it
is acknowledged. A resend whose signature was used before is authentic, so it is
acknowledged where its event is known.
-/

set_option autoImplicit false

namespace WebhookRelay

inductive Receipt where
  | accepted (eventId : String) (jobId : Uuid)
  | duplicate (eventId : String)
  deriving DecidableEq, Repr

structure Receiver where
  verifier : Verifier := {}
  replay : ReplayGuard := {}
  deriving DecidableEq, Repr

namespace Receiver

instance : Inhabited Receiver := ⟨{}⟩

structure Request where
  now : Timestamp
  claim : SignatureClaim
  body : Bytes

abbrev Receiving := Attempt ReceiveError

def store {α : Type} (request : Attempt StoreError α) : Receiving α :=
  Attempt.asking request.outcome .ofStore

def queue {α : Type} (request : Program (Except QueueError α)) : Receiving α :=
  Attempt.asking request fun error => .internal error.message

def enqueue (now : Timestamp) (eventId payload : String) : Receiving Uuid := do
  let id ← ExceptT.lift (Program.ask (.newId .job))
  queue (.ask (.createJob (.create id now eventId payload)))
  return id

/-- Notes that the event's job exists; a failure leaves that to a later duplicate. -/
def finish (now : Timestamp) (eventId : String) : Receiving Unit := do
  let _ ← ExceptT.lift (Program.ask (.markProcessed eventId now))

def acknowledge (now : Timestamp) (known : Event) (payload : String) : Receiving Receipt := do
  if known.status = .received then
    let jobs ← queue (.ask (.jobsByEvent known.eventId))
    if jobs.isEmpty then
      let _ ← enqueue now known.eventId payload
    finish now known.eventId
  return .duplicate known.eventId

def knownFields? (body : Bytes) : Option (String × EventFields) := do
  let text ← Text.ofUtf8? body
  let value ← Json.parse? text
  let fields ← EventFields.ofJson? value
  return (text, fields)

def knownEvent (body : Bytes) : Receiving (Option (Event × String)) :=
  match knownFields? body with
  | none => return none
  | some (text, fields) => do
      let event ← store (.mk (.ask (.findEvent fields.eventId)))
      return event.map fun event => (event, text)

def auditRejection (request : Request) (reason : String) : Receiving Unit := do
  let id ← ExceptT.lift (Program.ask (.newId .audit))
  let record : AuditRecord := {
    id := id.render
    eventId := EventFields.eventIdOfBytes? request.body
    reason
    signatureHeader := request.claim.signature
    keyId := request.claim.keyId
    fingerprint := bodyFingerprint request.body
    createdAt := request.now }
  Attempt.asking (.ask (.createAudit record))
    fun error => .internal s!"audit store: {error.message}"

def reject (request : Request) (error : VerificationError) : Receiving Receipt := do
  if error = .signatureReplayed then
    if let some (known, text) ← knownEvent request.body then
      return ← acknowledge request.now known text
  auditRejection request error.code
  throw (.verification error)

def readBody (body : Bytes) : Except ReceiveError (String × EventFields) :=
  match Text.ofUtf8? body with
  | none => .error .invalidBody
  | some text =>
      match Json.parse? text with
      | none => .error .invalidBody
      | some value =>
          match EventFields.ofJson? value with
          | none => .error .missingRequiredFields
          | some fields => .ok (text, fields)

def persist (now : Timestamp) (event : Event) (payload : String) : Receiving Receipt := do
  match ← ExceptT.lift (Program.ask (.createEvent event)) with
  | .ok () =>
      let jobId ← enqueue now event.eventId payload
      finish now event.eventId
      return .accepted event.eventId jobId
  | .error (.duplicate _) =>
      match ← store (.mk (.ask (.findEvent event.eventId))) with
      | some known => acknowledge now known payload
      | none => return .duplicate event.eventId
  | .error error =>
      let _ ← ExceptT.lift (ReplayGuard.release event.fingerprint).outcome
      throw (.ofStore error)

def takeIn (receiver : Receiver) (request : Request) : Receiving Receipt := do
  let (text, fields) ← liftExcept (readBody request.body)
  match ← store (.mk (.ask (.findEvent fields.eventId))) with
  | some known => acknowledge request.now known text
  | none =>
      let fingerprint := bodyFingerprint request.body
      if ← store (receiver.replay.checkAndMark fingerprint) then
        persist request.now {
          eventId := fields.eventId
          eventType := fields.eventType
          orderId := fields.orderId
          status := .received
          fingerprint
          receivedAt := request.now
          processedAt := none } text
      else
        auditRejection request ReceiveError.replayDetected.code
        throw .replayDetected
where
  liftExcept {α : Type} (result : Except ReceiveError α) : Receiving α :=
    .mk (.done result)

def receive (receiver : Receiver) (request : Request) : Receiving Receipt := do
  if request.body.isEmpty then throw .invalidBody
  match ← ExceptT.lift
      (receiver.verifier.verify request.now.seconds request.claim request.body).outcome with
  | .error error => reject request error
  | .ok _ => receiver.takeIn request

end Receiver

end WebhookRelay
