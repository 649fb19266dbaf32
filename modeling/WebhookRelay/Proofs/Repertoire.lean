import WebhookRelay.Proofs.Ingestion

/-!
# The calls of each activity

Which calls receiving a request may take, which ones a capture and a replay of a dead
letter.  None of them delivers a job or stores a new state of one, and the jobs that they
create are new.  A request marks keys for the times that the receiver is set up with, and
the job that it creates carries its body.
-/

set_option autoImplicit false

namespace WebhookRelay

namespace Receiver

variable {receiver : Receiver} {request : Request}

def lifetime (receiver : Receiver) : Marks → Duration
  | .fingerprints => receiver.replay.window
  | .nonces => receiver.verifier.nonceTtl

/-- The calls that receiving a request may take. -/
def Asks (receiver : Receiver) (request : Request) : Call → Prop
  | .mark marks _ ttl | .tryMark marks _ ttl => ttl = receiver.lifetime marks
  | .createJob job => ∃ id eventId text,
      Text.utf8 text = request.body ∧ job = .create id request.now eventId text
  | .findEvent _ | .createEvent _ | .markProcessed _ _ | .jobsByEvent _ => True
  | .seen _ _ | .unmark _ _ | .readKeys _ | .refreshKeys _ => True
  | .newId _ | .createAudit _ => True
  | _ => False

/-- The same calls with what they carry: an event that is stored remembers the body. -/
def Takes (receiver : Receiver) (request : Request) : Call → Prop
  | .createEvent event => event.fingerprint = bodyFingerprint request.body
  | call => receiver.Asks request call

theorem Takes.asks {call : Call} (takes : receiver.Takes request call) :
    receiver.Asks request call := by
  cases call with
  | createEvent event => exact trivial
  | _ => exact takes

/-- The calls that answer a request whose event is known or that is turned away. -/
def Answers (request : Request) : Call → Prop
  | .createJob job => ∃ id eventId text,
      Text.utf8 text = request.body ∧ job = .create id request.now eventId text
  | .findEvent _ | .markProcessed _ _ | .jobsByEvent _ => True
  | .newId _ | .createAudit _ => True
  | _ => False

/-- The calls that come after the verdict about the signature: no key is looked up, and of
marks only fingerprints are touched. -/
def Concludes (receiver : Receiver) (request : Request) : Call → Prop
  | .createEvent event => event.fingerprint = bodyFingerprint request.body
  | .seen marks _ | .unmark marks _ => marks = .fingerprints
  | .mark marks _ ttl | .tryMark marks _ ttl =>
      marks = .fingerprints ∧ ttl = receiver.lifetime marks
  | call => Answers request call

theorem Answers.concludes {call : Call} (answers : Answers request call) :
    receiver.Concludes request call := by
  cases call <;> first | exact answers | exact answers.elim

theorem Concludes.takes {call : Call} (concludes : receiver.Concludes request call) :
    receiver.Takes request call := by
  cases call with
  | createEvent | createJob => exact concludes
  | mark | tryMark => exact concludes.2
  | findEvent | markProcessed | jobsByEvent | seen | unmark | newId | createAudit =>
      exact trivial
  | _ => exact concludes.elim

theorem settle_answers (now : Timestamp) (eventId : String) (receipt : Receipt) :
    (settle now eventId receipt).Uses (Answers request) :=
  ⟨trivial, fun _ => trivial⟩

theorem supply_answers {text : String} (same : Text.utf8 text = request.body) (eventId : String)
    (receipt : Uuid → Receipt) :
    (supply request.now eventId text receipt).Uses (Answers request) := by
  unfold supply
  rw [enqueue_outcome]
  refine ⟨trivial, fun id => ⟨⟨id, eventId, text, same, rfl⟩, fun answer => ?_⟩⟩
  cases answer with
  | error error => exact trivial
  | ok created => exact settle_answers ..

theorem acknowledge_answers {text : String} (same : Text.utf8 text = request.body)
    (known : Event) :
    (acknowledge request.now known text).outcome.Uses (Answers request) := by
  cases status : known.status with
  | processed =>
      rw [acknowledge_outcome_processed status]
      exact trivial
  | received =>
      rw [acknowledge_outcome_received status]
      refine ⟨trivial, fun answer => ?_⟩
      match answer with
      | .error error => exact trivial
      | .ok [] => exact supply_answers same ..
      | .ok (_ :: _) => exact settle_answers ..

theorem persist_concludes {text : String} (same : Text.utf8 text = request.body) {event : Event}
    (own : event.fingerprint = bodyFingerprint request.body) :
    (persist request.now event text).outcome.Uses (receiver.Concludes request) := by
  rw [persist_outcome]
  refine ⟨own, fun answer => ?_⟩
  match answer with
  | .ok () => exact (supply_answers same ..).imp fun _ => Answers.concludes
  | .error (.duplicate key) =>
      refine ⟨trivial, fun answer => ?_⟩
      match answer with
      | .error error => exact trivial
      | .ok none => exact trivial
      | .ok (some known) => exact (acknowledge_answers same known).imp fun _ => Answers.concludes
  | .error (.notFound key) => exact ⟨rfl, fun _ => trivial⟩
  | .error (.unavailable reason) => exact ⟨rfl, fun _ => trivial⟩

theorem auditRejection_answers (reason : String) :
    (auditRejection request reason).outcome.Uses (Answers request) :=
  ⟨trivial, fun _ => ⟨trivial, fun answer => by cases answer <;> exact trivial⟩⟩

theorem refuse_answers (error : VerificationError) :
    (refuse request error).Uses (Answers request) := by
  refine (auditRejection_answers _).bind fun audited => ?_
  cases audited <;> exact trivial

theorem reject_answers (error : VerificationError) :
    (reject request error).outcome.Uses (Answers request) := by
  by_cases replayed : error = .signatureReplayed
  · subst replayed
    rw [reject_outcome_replayed, knownEvent_outcome]
    cases known : knownFields? request.body with
    | none => exact refuse_answers _
    | some read =>
        refine ⟨trivial, fun answer => ?_⟩
        match answer with
        | .error error => exact trivial
        | .ok none => exact refuse_answers _
        | .ok (some event) => exact acknowledge_answers (utf8_of_knownFields known) event
  · rw [reject_outcome_other replayed]
    exact refuse_answers error

theorem takeIn_concludes (receiver : Receiver) (request : Request) :
    (receiver.takeIn request).outcome.Uses (receiver.Concludes request) := by
  cases readable : readBody request.body with
  | error error =>
      rw [takeIn_outcome_unreadable readable]
      exact trivial
  | ok read =>
      have same : Text.utf8 read.1 = request.body := utf8_of_readBody readable
      rw [takeIn_outcome readable]
      refine ⟨trivial, fun answer => ?_⟩
      match answer with
      | .error error => exact trivial
      | .ok (some known) => exact (acknowledge_answers same known).imp fun _ => Answers.concludes
      | .ok none =>
          have marks : (receiver.replay.checkAndMark
              (bodyFingerprint request.body)).outcome.Uses (receiver.Concludes request) := by
            refine markIfAbsent_uses ?_ ?_ ?_ _
            · exact rfl
            · exact ⟨rfl, rfl⟩
            · exact ⟨rfl, rfl⟩
          refine marks.bind fun marked => ?_
          match marked with
          | .error error => exact trivial
          | .ok true => exact persist_concludes same rfl
          | .ok false =>
              have audits : (auditRejection request
                  ReceiveError.replayDetected.code).outcome.Uses
                    (receiver.Concludes request) :=
                (auditRejection_answers _).imp fun _ => Answers.concludes
              refine audits.bind fun audited => ?_
              cases audited <;> exact trivial

theorem receive_takes (receiver : Receiver) (request : Request) :
    (receiver.receive request).outcome.Uses (receiver.Takes request) := by
  by_cases empty : request.body = []
  · rw [receive_outcome_empty empty]
    exact trivial
  · rw [receive_outcome empty]
    have marks (mode : MarkMode) (nonce : String) :
        (markIfAbsent .nonces mode nonce receiver.verifier.nonceTtl).outcome.Uses
          (receiver.Takes request) := by
      refine markIfAbsent_uses ?_ ?_ ?_ mode
      · exact trivial
      · exact rfl
      · exact rfl
    have verifies : (receiver.verifier.verify request.now.seconds request.claim
        request.body).outcome.Uses (receiver.Takes request) :=
      Verifier.verify_uses (fun _ => trivial) (fun _ => trivial)
        (fun mode _ nonce => marks mode nonce) _ _ _
    refine verifies.bind fun verified => ?_
    cases verified with
    | error error =>
        exact (reject_answers error).imp fun _ answers => answers.concludes.takes
    | ok verified => exact (takeIn_concludes receiver request).imp fun _ => Concludes.takes

theorem receive_asks (receiver : Receiver) (request : Request) :
    (receiver.receive request).outcome.Uses (receiver.Asks request) :=
  (receiver.receive_takes request).imp fun _ => Takes.asks

end Receiver

/-! ## Activities that leave stored jobs alone -/

/-- A call that neither delivers a job nor stores a new state of one; a job that it creates
is new. -/
def Call.Gentle : Call → Prop
  | .createJob job => ∃ id now eventId payload, job = .create id now eventId payload
  | .updateJob _ | .deliver _ => False
  | _ => True

theorem Receiver.Asks.gentle {receiver : Receiver} {request : Request} {call : Call}
    (asks : receiver.Asks request call) : call.Gentle := by
  cases call with
  | createJob job =>
      obtain ⟨id, eventId, text, _, same⟩ := asks
      exact ⟨id, _, eventId, text, same⟩
  | updateJob job => exact asks.elim
  | deliver job => exact asks.elim
  | _ => exact trivial

namespace DeadLetter

def Handles : Call → Prop
  | .jobsByStatus _ | .containsJob _ | .getEntry _ => True
  | .newId _ | .createEntry _ | .updateEntry _ => True
  | .createJob job => ∃ id now eventId payload, job = .create id now eventId payload
  | _ => False

theorem Handles.gentle {call : Call} (handles : Handles call) : call.Gentle := by
  cases call with
  | createJob job => exact handles
  | updateJob job => exact handles.elim
  | deliver job => exact handles.elim
  | _ => exact trivial

theorem captureAll_handles (now : Timestamp) (jobs : List Job) :
    (captureAll now jobs).outcome.Uses Handles := by
  induction jobs with
  | nil => exact trivial
  | cons job rest ih =>
      rw [captureAll_outcome]
      have captures : (captureJob now job).outcome.Uses Handles := by
        rw [captureJob_outcome]
        refine ⟨trivial, fun answer => ?_⟩
        match answer with
        | .error error => exact trivial
        | .ok true => exact trivial
        | .ok false =>
            exact ⟨trivial, fun id => ⟨trivial, fun answer => by cases answer <;> exact trivial⟩⟩
      refine captures.bind fun made => ?_
      cases made with
      | error error => exact trivial
      | ok made =>
          refine ih.bind fun more => ?_
          cases more <;> exact trivial

theorem capture_handles (now : Timestamp) : (capture now).outcome.Uses Handles := by
  rw [capture_outcome]
  refine ⟨trivial, fun answer => ?_⟩
  cases answer with
  | error error => exact trivial
  | ok failed => exact captureAll_handles now failed

theorem replay_handles (now : Timestamp) (id : Uuid) :
    (replay now id).outcome.Uses Handles := by
  rw [replay_outcome]
  refine ⟨trivial, fun answer => ?_⟩
  match answer with
  | .error error => exact trivial
  | .ok none => exact trivial
  | .ok (some entry) =>
      dsimp only
      split
      · exact trivial
      · refine ⟨trivial, fun jobId => ⟨⟨jobId, now, _, _, rfl⟩, fun answer => ?_⟩⟩
        cases answer with
        | error error => exact trivial
        | ok created => exact ⟨trivial, fun answer => by cases answer <;> exact trivial⟩

end DeadLetter

theorem Pipeline.program_gentle (pipeline : Pipeline) {task : Task}
    (other : ∀ now, task ≠ .pass now) : (pipeline.program task).Uses Call.Gentle := by
  cases task with
  | receive request =>
      have gentle := (pipeline.receiver.receive_asks request).imp fun _ => Receiver.Asks.gentle
      exact gentle.bind fun _ => trivial
  | pass now => exact absurd rfl (other now)
  | capture now =>
      have gentle := (DeadLetter.capture_handles now).imp fun _ => DeadLetter.Handles.gentle
      exact gentle.bind fun _ => trivial
  | replay now entryId =>
      have gentle := (DeadLetter.replay_handles now entryId).imp fun _ =>
        DeadLetter.Handles.gentle
      exact gentle.bind fun _ => trivial

end WebhookRelay
