import WebhookRelay.Proofs.Scene

/-!
# The course of each program

Each program of the pipeline as the calls that it makes and what it does with each
answer.  Proofs about what a program does start from these equations, so they depend on
the calls alone and not on how a program is put together.
-/

set_option autoImplicit false

namespace WebhookRelay

def Program.andThen {ε α β : Type} (program : Program (Except ε α))
    (next : α → Program (Except ε β)) : Program (Except ε β) :=
  program.bind fun
    | .ok value => next value
    | .error error => .done (.error error)

/-! ## Verifying -/

theorem markIfAbsent_outcome (marks : Marks) (mode : MarkMode) (key : String)
    (ttl : Duration) :
    (markIfAbsent marks mode key ttl).outcome = match mode with
      | .atomic => .call (.tryMark marks key ttl) .done
      | .stepwise => .call (.seen marks key) fun
          | .error error => .done (.error error)
          | .ok true => .done (.ok false)
          | .ok false => .call (.mark marks key ttl) fun
              | .error error => .done (.error error)
              | .ok () => .done (.ok true) := by
  cases mode with
  | atomic => rfl
  | stepwise =>
      refine congrArg (Program.call _) (funext fun answer => ?_)
      cases answer with
      | error error => rfl
      | ok seen =>
          cases seen with
          | true => rfl
          | false =>
              refine congrArg (Program.call _) (funext fun answer => ?_)
              cases answer <;> rfl

theorem lookUpKey_outcome (keyId : String) :
    (lookUpKey keyId).outcome = .call (.readKeys keyId) fun
      | .found key => .done (.ok key)
      | .absent => .done (.error (.keyNotFound keyId))
      | .stale seenAt => .call (.refreshKeys seenAt) fun
          | .error error => .done (.error error)
          | .ok keys => match keys.find? keyId with
              | some key => .done (.ok key)
              | none => .done (.error (.keyNotFound keyId)) := by
  refine congrArg (Program.call _) (funext fun reading => ?_)
  cases reading with
  | found key => rfl
  | absent => rfl
  | stale seenAt =>
      refine congrArg (Program.call _) (funext fun answer => ?_)
      cases answer with
      | error error => rfl
      | ok keys =>
          show ExceptT.run (match keys.find? keyId with
            | some key => return key
            | none => throw (VerificationError.keyNotFound keyId)) =
              match keys.find? keyId with
              | some key => Program.done (Except.ok key)
              | none => Program.done (Except.error (VerificationError.keyNotFound keyId))
          cases keys.find? keyId <;> rfl

namespace Verifier

theorem checkNonce_outcome (verifier : Verifier) (signature keyId : String) :
    (verifier.checkNonce signature keyId).outcome = match verifier.nonces with
      | none => .done (.ok ())
      | some mode =>
          (markIfAbsent .nonces mode (signatureNonce signature keyId)
            verifier.nonceTtl).outcome.bind fun
              | .error error => .done (.error (.misconfigured s!"nonce store: {error.message}"))
              | .ok true => .done (.ok ())
              | .ok false => .done (.error .signatureReplayed) := by
  unfold checkNonce
  cases verifier.nonces with
  | none => rfl
  | some mode =>
      refine Eq.trans (Program.bind_assoc (markIfAbsent ..).outcome _ _) ?_
      refine congrArg (Program.bind _) (funext fun marked => ?_)
      cases marked with
      | error error => rfl
      | ok fresh => cases fresh <;> rfl

theorem verify_outcome_skipped {verifier : Verifier} (skips : verifier.skip = true) (now : Int)
    (claim : SignatureClaim) (body : Bytes) :
    (verifier.verify now claim body).outcome =
      .done (.ok { keyId := claim.keyId, timestamp := none, skipped := true }) := by
  unfold verify
  rw [if_pos skips]
  rfl

/-- What a claim must say for a key to be looked up. -/
structure Presents (verifier : Verifier) (now : Int) (claim : SignatureClaim)
    (signature keyId : String) (header : SignatureHeader) : Prop where
  hasKeys : verifier.hasKeys = true
  signed : claim.signature = some signature
  keyed : claim.keyId = some keyId
  parsed : SignatureHeader.parse signature = .ok header
  recent : age now header.timestamp ≤ verifier.tolerance.seconds

theorem verify_outcome {verifier : Verifier} (checks : verifier.skip = false) {now : Int}
    {claim : SignatureClaim} {signature keyId : String} {header : SignatureHeader}
    (presents : verifier.Presents now claim signature keyId header) (body : Bytes) :
    (verifier.verify now claim body).outcome =
      (lookUpKey keyId).outcome.andThen fun key =>
        if key.verifies (signedMessage header.timestamp body) header.signature then
          (verifier.checkNonce signature keyId).outcome.andThen fun _ =>
            .done (.ok {
              keyId := some keyId
              timestamp := some header.timestamp
              skipped := false })
        else .done (.error .invalidSignature) := by
  have recent : ¬verifier.tolerance.seconds < age now header.timestamp :=
    Nat.not_lt.mpr presents.recent
  unfold verify
  simp only [checks, presents.hasKeys, presents.signed, presents.keyed, presents.parsed,
    Bool.not_true, Bool.false_eq_true, if_false]
  rw [if_neg recent]
  refine congrArg (Program.bind _) (funext fun found => ?_)
  cases found with
  | error error => rfl
  | ok key =>
      cases verifies : key.verifies (signedMessage header.timestamp body) header.signature with
      | true =>
          refine Eq.trans ?_ (if_pos verifies).symm
          show ExceptT.run (if (!key.verifies _ _) = true then _ else _) = _
          rw [verifies]
          refine congrArg (Program.bind _) (funext fun checked => ?_)
          cases checked <;> rfl
      | false =>
          refine Eq.trans ?_ (if_neg (by simp [verifies])).symm
          show ExceptT.run (if (!key.verifies _ _) = true then _ else _) = _
          rw [verifies]
          rfl

theorem verify_outcome_unpresented {verifier : Verifier} (checks : verifier.skip = false)
    {now : Int} {claim : SignatureClaim}
    (unpresented : ∀ signature keyId header,
      ¬verifier.Presents now claim signature keyId header) (body : Bytes) :
    ∃ error, error ≠ VerificationError.signatureReplayed ∧
      (verifier.verify now claim body).outcome = .done (.error error) := by
  unfold verify
  rw [if_neg (by simp [checks])]
  cases hasKeys : verifier.hasKeys with
  | false => exact ⟨.misconfigured _, nofun, rfl⟩
  | true =>
      cases signed : claim.signature with
      | none => exact ⟨.missingSignature, nofun, rfl⟩
      | some signature =>
          cases keyed : claim.keyId with
          | none => exact ⟨.missingKeyId, nofun, rfl⟩
          | some keyId =>
              cases parsed : SignatureHeader.parse signature with
              | error reason => exact ⟨.malformedSignature reason, nofun, by simp [parsed]; rfl⟩
              | ok header =>
                  have stale : verifier.tolerance.seconds < age now header.timestamp :=
                    Nat.lt_of_not_le fun recent =>
                      unpresented signature keyId header ⟨hasKeys, signed, keyed, parsed, recent⟩
                  refine ⟨.timestampExpired (age now header.timestamp)
                    verifier.tolerance.seconds, nofun, ?_⟩
                  simp only [parsed, stale]
                  rfl

end Verifier

/-! ## Receiving -/

namespace Receiver

/-- The last call before a receipt, once the event has its job. -/
def settle (now : Timestamp) (eventId : String) (receipt : Receipt) :
    Program (Except ReceiveError Receipt) :=
  .call (.markProcessed eventId now) fun _ => .done (.ok receipt)

/-- Puts an event's job on the queue and goes on to the receipt. -/
def supply (now : Timestamp) (eventId payload : String) (receipt : Uuid → Receipt) :
    Program (Except ReceiveError Receipt) :=
  (enqueue now eventId payload).outcome.andThen fun id => settle now eventId (receipt id)

def refuse (request : Request) (error : VerificationError) :
    Program (Except ReceiveError Receipt) :=
  (auditRejection request error.code).outcome.andThen fun _ =>
    .done (.error (.verification error))

theorem enqueue_outcome (now : Timestamp) (eventId payload : String) :
    (enqueue now eventId payload).outcome =
      .call (.newId .job) fun id =>
        .call (.createJob (.create id now eventId payload)) fun
          | .ok () => .done (.ok id)
          | .error error => .done (.error (.internal error.message)) := by
  refine congrArg (Program.call _) (funext fun id => congrArg (Program.call _) (funext ?_))
  intro answer
  cases answer <;> rfl

theorem acknowledge_outcome_processed {known : Event} (processed : known.status = .processed)
    (now : Timestamp) (payload : String) :
    (acknowledge now known payload).outcome = .done (.ok (.duplicate known.eventId)) := by
  unfold acknowledge
  rw [processed]
  rfl

theorem acknowledge_outcome_received {known : Event} (received : known.status = .received)
    (now : Timestamp) (payload : String) :
    (acknowledge now known payload).outcome =
      .call (.jobsByEvent known.eventId) fun
        | .error error => .done (.error (.internal error.message))
        | .ok [] => supply now known.eventId payload fun _ => .duplicate known.eventId
        | .ok (_ :: _) => settle now known.eventId (.duplicate known.eventId) := by
  unfold acknowledge
  rw [if_pos received]
  refine congrArg (Program.call _) (funext fun answer => ?_)
  cases answer with
  | error error => rfl
  | ok jobs => cases jobs <;> rfl

theorem knownEvent_outcome (body : Bytes) :
    (knownEvent body).outcome = match knownFields? body with
      | none => .done (.ok none)
      | some (text, fields) => .call (.findEvent fields.eventId) fun
          | .ok found => .done (.ok (found.map fun event => (event, text)))
          | .error error => .done (.error (.ofStore error)) := by
  unfold knownEvent
  cases knownFields? body with
  | none => rfl
  | some known =>
      refine congrArg (Program.call _) (funext fun answer => ?_)
      cases answer <;> rfl

theorem reject_outcome_replayed (request : Request) :
    (reject request .signatureReplayed).outcome =
      (knownEvent request.body).outcome.andThen fun
        | some (known, text) => (acknowledge request.now known text).outcome
        | none => refuse request .signatureReplayed := by
  refine congrArg (Program.bind _) (funext fun found => ?_)
  cases found with
  | error error => rfl
  | ok found =>
      cases found with
      | none => rfl
      | some known => rfl

theorem reject_outcome_other {error : VerificationError} (other : error ≠ .signatureReplayed)
    (request : Request) : (reject request error).outcome = refuse request error := by
  unfold reject
  rw [if_neg other]
  rfl

theorem persist_outcome (now : Timestamp) (event : Event) (payload : String) :
    (persist now event payload).outcome = .call (.createEvent event) fun
      | .ok () => supply now event.eventId payload fun id => .accepted event.eventId id
      | .error (.duplicate _) => .call (.findEvent event.eventId) fun
          | .ok (some known) => (acknowledge now known payload).outcome
          | .ok none => .done (.ok (.duplicate event.eventId))
          | .error error => .done (.error (.ofStore error))
      | .error error => .call (.unmark .fingerprints event.fingerprint) fun _ =>
          .done (.error (.ofStore error)) := by
  refine congrArg (Program.call _) (funext fun answer => ?_)
  cases answer with
  | ok done => rfl
  | error error =>
      cases error with
      | duplicate key =>
          refine congrArg (Program.call _) (funext fun answer => ?_)
          cases answer with
          | error error => rfl
          | ok found => cases found <;> rfl
      | _ => rfl

def newEvent (request : Request) (fields : EventFields) : Event where
  eventId := fields.eventId
  eventType := fields.eventType
  orderId := fields.orderId
  status := .received
  fingerprint := bodyFingerprint request.body
  receivedAt := request.now
  processedAt := none

theorem takeIn_outcome_unreadable {receiver : Receiver} {request : Request}
    {error : ReceiveError} (unreadable : readBody request.body = .error error) :
    (receiver.takeIn request).outcome = .done (.error error) := by
  unfold takeIn
  rw [unreadable]
  rfl

theorem takeIn_outcome {receiver : Receiver} {request : Request} {text : String}
    {fields : EventFields} (readable : readBody request.body = .ok (text, fields)) :
    (receiver.takeIn request).outcome = .call (.findEvent fields.eventId) fun
      | .error error => .done (.error (.ofStore error))
      | .ok (some known) => (acknowledge request.now known text).outcome
      | .ok none =>
          (receiver.replay.checkAndMark (bodyFingerprint request.body)).outcome.bind fun
            | .error error => .done (.error (.ofStore error))
            | .ok true => (persist request.now (newEvent request fields) text).outcome
            | .ok false =>
                (auditRejection request ReceiveError.replayDetected.code).outcome.andThen
                  fun _ => .done (.error .replayDetected) := by
  unfold takeIn
  rw [readable]
  refine congrArg (Program.call _) (funext fun answer => ?_)
  cases answer with
  | error error => rfl
  | ok found =>
      cases found with
      | some known => rfl
      | none =>
          refine Eq.trans (Program.bind_assoc (receiver.replay.checkAndMark _).outcome _ _) ?_
          refine congrArg (Program.bind _) (funext fun marked => ?_)
          cases marked with
          | error error => rfl
          | ok fresh => cases fresh <;> rfl

theorem receive_outcome_empty {request : Request} (empty : request.body = [])
    (receiver : Receiver) : (receiver.receive request).outcome = .done (.error .invalidBody) := by
  unfold receive
  rw [empty]
  rfl

theorem receive_outcome {request : Request} (nonempty : request.body ≠ [])
    (receiver : Receiver) :
    (receiver.receive request).outcome =
      (receiver.verifier.verify request.now.seconds request.claim request.body).outcome.bind fun
        | .error error => (reject request error).outcome
        | .ok _ => (receiver.takeIn request).outcome := by
  unfold receive
  rw [if_neg (by simpa using nonempty)]
  refine Eq.trans (Program.bind_assoc _ _ _) ?_
  refine congrArg (Program.bind _) (funext fun verified => ?_)
  cases verified <;> rfl

end Receiver

/-! ## Dead letters -/

namespace DeadLetter

theorem captureJob_outcome (now : Timestamp) (job : Job) :
    (captureJob now job).outcome = .call (.containsJob job.id) fun
      | .error error => .done (.error error)
      | .ok true => .done (.ok 0)
      | .ok false => .call (.newId .deadLetter) fun id =>
          .call (.createEntry (ofJob id job now)) fun
            | .error error => .done (.error error)
            | .ok () => .done (.ok 1) := by
  refine congrArg (Program.call _) (funext fun answer => ?_)
  cases answer with
  | error error => rfl
  | ok captured =>
      cases captured with
      | true => rfl
      | false =>
          refine congrArg (Program.call _) (funext fun id => ?_)
          refine congrArg (Program.call _) (funext fun answer => ?_)
          cases answer <;> rfl

theorem captureAll_outcome (now : Timestamp) (job : Job) (rest : List Job) :
    (captureAll now (job :: rest)).outcome =
      (captureJob now job).outcome.andThen fun made =>
        (captureAll now rest).outcome.andThen fun more => .done (.ok (made + more)) := by
  refine congrArg (Program.bind _) (funext fun made => ?_)
  cases made with
  | error error => rfl
  | ok made =>
      refine congrArg (Program.bind _) (funext fun more => ?_)
      cases more <;> rfl

theorem capture_outcome (now : Timestamp) :
    (capture now).outcome = .call (.jobsByStatus .failed) fun
      | .error error => .done (.error error)
      | .ok failed => (captureAll now failed).outcome := by
  refine congrArg (Program.call _) (funext fun answer => ?_)
  cases answer <;> rfl

def replayedAs (entry : DeadLetter) (now : Timestamp) (jobId : Uuid) : DeadLetter :=
  { entry with replayedAt := some now, replayJobId := some jobId }

theorem replay_outcome (now : Timestamp) (id : Uuid) :
    (replay now id).outcome = .call (.getEntry id) fun
      | .error error => .done (.error error)
      | .ok none => .done (.error (.entryNotFound id.render))
      | .ok (some entry) =>
          if entry.isReplayed then .done (.error (.alreadyReplayed id.render))
          else .call (.newId .job) fun jobId =>
            .call (.createJob (.create jobId now entry.eventId entry.payload)) fun
              | .error error => .done (.error error)
              | .ok () => .call (.updateEntry (entry.replayedAs now jobId)) fun
                  | .error error => .done (.error error)
                  | .ok () => .done (.ok (.create jobId now entry.eventId entry.payload)) := by
  refine congrArg (Program.call _) (funext fun answer => ?_)
  cases answer with
  | error error => rfl
  | ok found =>
      cases found with
      | none => rfl
      | some entry =>
          cases replayed : entry.isReplayed with
          | true =>
              refine Eq.trans ?_ (if_pos replayed).symm
              show ExceptT.run (if entry.isReplayed then _ else _) = _
              rw [replayed]
              rfl
          | false =>
              refine Eq.trans ?_ (if_neg (by simp [replayed])).symm
              show ExceptT.run (if entry.isReplayed then _ else _) = _
              rw [replayed]
              refine congrArg (Program.call _) (funext fun jobId => ?_)
              refine congrArg (Program.call _) (funext fun answer => ?_)
              cases answer with
              | error error => rfl
              | ok done =>
                  refine congrArg (Program.call _) (funext fun answer => ?_)
                  cases answer <;> rfl

end DeadLetter

/-! ## Processing -/

namespace Processor

theorem attemptAll_outcome (processor : Processor) (deliver : Deliverer) (now : Timestamp)
    (job : Job) (rest : List Job) :
    (processor.attemptAll deliver now (job :: rest)).outcome =
      (processor.attempt deliver now job).bind fun job => .call (.updateJob job) fun
        | .error error => .done (.error error.asStoreError)
        | .ok () => (processor.attemptAll deliver now rest).outcome := by
  refine Eq.trans (Program.bind_assoc (processor.attempt deliver now job) _ _) ?_
  refine congrArg (Program.bind _) (funext fun job => ?_)
  refine congrArg (Program.call _) (funext fun answer => ?_)
  cases answer <;> rfl

theorem pass_outcome (processor : Processor) (deliver : Deliverer) (now : Timestamp) :
    (processor.pass deliver now).outcome = .call (.dueJobs now processor.batchSize) fun
      | .error error => .done (.error error.asStoreError)
      | .ok jobs =>
          (processor.attemptAll deliver now jobs).outcome.andThen fun _ =>
            .done (.ok jobs.length) := by
  refine congrArg (Program.call _) (funext fun answer => ?_)
  cases answer with
  | error error => rfl
  | ok jobs =>
      refine congrArg (Program.bind (processor.attemptAll deliver now jobs).outcome)
        (funext fun attempted => ?_)
      cases attempted <;> rfl

end Processor

end WebhookRelay
