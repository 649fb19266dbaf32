import WebhookRelay.Proofs.Provenance

/-!
# Receiving keeps the contract of the stores

A request reaches a store only after its body was verified.  One rejection comes after
that point: the signature was used before.  It is raised when the signature has been
checked, so a body that is made up for on that way was verified as well.  Whoever is
told that an event is known or accepted can rely on its job.
-/

set_option autoImplicit false

namespace WebhookRelay

def Receipt.eventId : Receipt → String
  | .accepted eventId _ => eventId
  | .duplicate eventId => eventId

/-- A receipt is given for events with a job. -/
def Acknowledges (truthful : Prop) (result : Except ReceiveError Receipt) (ledger : Ledger) :
    Prop :=
  ∀ receipt, result = .ok receipt → truthful → ledger.world.jobs.HasJob receipt.eventId

/-- The outcomes of verifying after which a body may reach a store. -/
def Vouches (verifier : Verifier) (body : Bytes)
    (result : Except VerificationError Verified) (ledger : Ledger) : Prop :=
  (∀ error, result = .error error → error = .signatureReplayed) →
    verifier.Admits ledger.history body

variable {verifier : Verifier} {truthful : Prop} {who : Nat} {ledger : Ledger}

/-- Programs beside the stores uphold any contract of the stores. -/
theorem Program.Uses.upholds {α : Type} {program : Program α} (aside : program.Aside) :
    program.Upholds (.ofStores verifier truthful) who (fun _ _ => True) ledger :=
  (Contract.ofStores_allowsPasses verifier truthful).upholds aside

theorem Acknowledges.of_error (error : ReceiveError) (ledger : Ledger) :
    Acknowledges truthful (.error error) ledger :=
  fun _ impossible => nomatch impossible

/-! ## Verifying -/

theorem lookUpKey_upholds (keyId : String) :
    (lookUpKey keyId).outcome.Upholds (.ofStores verifier truthful) who
      (fun result current => match result with
        | .ok key => ToldKey current.history who keyId key
        | .error error => error ≠ .signatureReplayed) ledger := by
  rw [lookUpKey_outcome]
  refine .call fun current _ _ => ⟨trivial, fun reading world performed _ _ => ?_⟩
  cases reading with
  | absent => exact .done fun _ _ _ => nofun
  | found key =>
      refine .done fun last later _ => .held (later.history.mem ?_)
      exact List.mem_append_right _ List.mem_cons_self
  | stale seenAt =>
      refine .call fun current _ _ => ⟨trivial, fun answer world performed _ _ => ?_⟩
      cases answer with
      | error error =>
          obtain ⟨reason, rfl⟩ := World.perform_refreshKeys_error performed
          exact .done fun _ _ _ => nofun
      | ok keys =>
          dsimp only
          cases found : keys.find? keyId with
          | none => exact .done fun _ _ _ => nofun
          | some key =>
              refine .done fun last later _ => .fetched seenAt keys (later.history.mem ?_) found
              exact List.mem_append_right _ List.mem_cons_self

/-- What verifying lets through was presented with a signature that a key verifies. -/
theorem verify_upholds {request : Receiver.Request}
    (begun : .begun who (.receive request) ∈ ledger.history)
    (sound : ledger.Sound verifier truthful) :
    (verifier.verify request.now.seconds request.claim request.body).outcome.Upholds
      (.ofStores verifier truthful) who (Vouches verifier request.body) ledger := by
  cases skips : verifier.skip with
  | true =>
      rw [Verifier.verify_outcome_skipped skips]
      exact .done fun _ _ _ _ => Or.inl skips
  | false =>
      by_cases presented : ∃ signature keyId header,
          verifier.Presents request.now.seconds request.claim signature keyId header
      · obtain ⟨signature, keyId, header, presents⟩ := presented
        rw [Verifier.verify_outcome skips presents]
        refine .bind sound (lookUpKey_upholds keyId) fun found current currentSound later told => ?_
        cases found with
        | error error => exact .done fun _ _ _ only => absurd (only error rfl) told
        | ok key =>
            dsimp only
            split
            · rename_i verifies
              have admits : verifier.Admits current.history request.body :=
                Or.inr (.intro who request signature keyId header key
                  (later.history.mem begun) rfl presents.signed presents.keyed
                  presents.parsed presents.recent told verifies)
              refine .bind currentSound (verifier.checkNonce_checks signature keyId).aside.upholds
                fun checked last _ after _ => ?_
              have stillAdmits := admits.mono after.history
              cases checked with
              | error error => exact .done fun _ final _ _ => stillAdmits.mono final.history
              | ok done => exact .done fun _ final _ _ => stillAdmits.mono final.history
            · exact .done fun _ _ _ only => nomatch only .invalidSignature rfl
      · obtain ⟨error, other, ended⟩ := Verifier.verify_outcome_unpresented skips
          (fun signature keyId header presents =>
            presented ⟨signature, keyId, header, presents⟩) request.body
        rw [ended]
        exact .done fun _ _ _ only => absurd (only error rfl) other

/-! ## Acknowledging and storing -/

namespace Receiver

theorem refuse_upholds (request : Request) (error : VerificationError)
    (sound : ledger.Sound verifier truthful) :
    (refuse request error).Upholds (.ofStores verifier truthful) who
      (Acknowledges truthful) ledger := by
  refine .bind sound (auditRejection_aside request error.code).upholds
    fun audited _ _ _ _ => ?_
  cases audited <;> exact .done fun current _ _ => .of_error _ current

theorem enqueue_upholds {payload : String} (now : Timestamp) (eventId : String)
    (admits : verifier.Admits ledger.history (Text.utf8 payload)) :
    (enqueue now eventId payload).outcome.Upholds (.ofStores verifier truthful) who
      (fun result current => ∀ id, result = .ok id → current.world.jobs.HasJob eventId)
      ledger := by
  rw [enqueue_outcome]
  refine .call fun _ _ _ => ⟨trivial, fun id _ _ drawn _ => ?_⟩
  refine .call fun current between _ =>
    ⟨admits.mono (drawn.history.trans between.history), fun answer world performed _ _ => ?_⟩
  cases answer with
  | error error => exact .done fun _ _ _ _ => nofun
  | ok done =>
      obtain ⟨_, _, ⟨_, impossible, _⟩ | ⟨_, _, jobs⟩⟩ := World.perform_createJob performed
      · cases impossible
      · refine .done fun last later _ _ _ => later.hasJob ?_
        refine ⟨.create id now eventId payload, ?_, rfl⟩
        rw [Ledger.answered, jobs]
        exact List.mem_append_right _ List.mem_cons_self

theorem settle_upholds (now : Timestamp) {eventId : String} {receipt : Receipt}
    (named : receipt.eventId = eventId) (hasJob : ledger.world.jobs.HasJob eventId) :
    (settle now eventId receipt).Upholds (.ofStores verifier truthful) who
      (Acknowledges truthful) ledger := by
  refine .call fun current between _ => ⟨between.hasJob hasJob, fun _ _ _ later _ => ?_⟩
  refine .done fun last final _ given same _ => ?_
  cases same
  rw [named]
  exact (later.trans final).hasJob hasJob

theorem supply_upholds (now : Timestamp) {eventId payload : String}
    {receipt : Uuid → Receipt} (named : ∀ id, (receipt id).eventId = eventId)
    (sound : ledger.Sound verifier truthful)
    (admits : verifier.Admits ledger.history (Text.utf8 payload)) :
    (supply now eventId payload receipt).Upholds (.ofStores verifier truthful) who
      (Acknowledges truthful) ledger := by
  refine .bind sound (enqueue_upholds now eventId admits)
    fun enqueued last _ _ hasJob => ?_
  cases enqueued with
  | error error => exact .done fun final _ _ => .of_error _ final
  | ok id => exact settle_upholds now (named id) (hasJob id rfl)

/-- What a look-up tells about an event that it finds: the event stays known, and it has
a job if it is processed. -/
structure Found (ledger : Ledger) (known : Event) : Prop where
  knows : ledger.world.events.Knows known.eventId
  settled : known.status = .processed → ledger.world.jobs.HasJob known.eventId

theorem found_of_answered (sound : ledger.Sound verifier truthful) {eventId : String}
    {known : Event} {world : World}
    (performed : ledger.world.perform (.findEvent eventId) = some (.ok (some known), world)) :
    Found (ledger.answered who (.findEvent eventId) (.ok (some known)) world) known := by
  have member := (EventStore.find?_eq_some (World.perform_findEvent performed).symm).1
  have grows : ledger.Grows (ledger.answered who (.findEvent eventId) (.ok (some known)) world) :=
    (sound.quiet performed (World.perform_sameStores rfl performed)).2
  refine ⟨grows.events _ (EventStore.knows_iff.mpr ⟨known, member, rfl⟩), fun processed => ?_⟩
  exact grows.hasJob (sound.processed known member processed)

theorem acknowledge_upholds (now : Timestamp) {known : Event} {payload : String}
    (found : Found ledger known)
    (admits : verifier.Admits ledger.history (Text.utf8 payload)) :
    (acknowledge now known payload).outcome.Upholds (.ofStores verifier truthful) who
      (Acknowledges truthful) ledger := by
  cases status : known.status with
  | processed =>
      rw [acknowledge_outcome_processed status]
      refine .done fun current later _ receipt same _ => ?_
      cases same
      exact later.hasJob (found.settled status)
  | received =>
      rw [acknowledge_outcome_received status]
      refine .call fun current between sound =>
        ⟨between.events _ found.knows, fun answer world performed later reached => ?_⟩
      match answer with
      | .error error => exact .done fun last _ _ => .of_error _ last
      | .ok [] =>
          exact supply_upholds now (fun _ => rfl) reached (admits.mono later.history)
      | .ok (job :: rest) =>
          have found := (World.perform_jobsByEvent performed).symm
          have unchanged := World.perform_sameStores rfl performed
          refine settle_upholds now rfl ?_
          exact (sound.quiet performed unchanged).2.hasJob (JobStore.hasJob_of_byEventId found)

theorem known_of_duplicate {event : Event} {key : String} {world : World} (isTruthful : truthful)
    (sound : ledger.Sound verifier truthful)
    (performed : ledger.world.perform (.createEvent event) =
      some (.error (.duplicate key), world)) :
    world.events.Knows event.eventId := by
  obtain ⟨_, _, ⟨_, events, _⟩ | ⟨events, error, same, reason⟩⟩ :=
    World.perform_createEvent performed
  · rw [events]
    exact EventStore.knows_iff.mpr ⟨event, by simp, rfl⟩
  · rw [events]
    cases same
    rcases reason key rfl with stored | planned
    · exact stored
    · exact absurd rfl (sound.planned isTruthful _ planned key)

theorem persist_upholds (now : Timestamp) {event : Event} {payload : String}
    (received : event.status = .received)
    (fingerprint : event.fingerprint = bodyFingerprint (Text.utf8 payload))
    (admits : verifier.Admits ledger.history (Text.utf8 payload)) :
    (persist now event payload).outcome.Upholds (.ofStores verifier truthful) who
      (Acknowledges truthful) ledger := by
  rw [persist_outcome]
  refine .call fun current between sound => ⟨⟨received, Text.utf8 payload, fingerprint,
    admits.mono between.history⟩, fun answer world performed later reached => ?_⟩
  match answer with
  | .ok () =>
      exact supply_upholds now (fun _ => rfl) reached (admits.mono later.history)
  | .error (.duplicate key) =>
      have known : truthful → world.events.Knows event.eventId :=
        fun isTruthful => known_of_duplicate isTruthful sound performed
      refine .call fun middle between middleSound =>
        ⟨trivial, fun answer world performed after _ => ?_⟩
      match answer with
      | .error error => exact .done fun last _ _ => .of_error _ last
      | .ok none =>
          refine .done fun last _ _ receipt _ isTruthful => ?_
          have stored := between.events event.eventId (known isTruthful)
          exact absurd stored (EventStore.not_knows (World.perform_findEvent performed).symm)
      | .ok (some known) =>
          have found := (World.perform_findEvent performed).symm
          exact acknowledge_upholds now (found_of_answered middleSound performed)
            (admits.mono (later.history.trans after.history))
  | .error (.notFound _) | .error (.unavailable _) =>
      refine .call fun _ _ _ => ⟨trivial, fun _ _ _ _ _ => ?_⟩
      exact .done fun last _ _ => .of_error _ last

theorem utf8_of_readBody {body : Bytes} {text : String} {fields : EventFields}
    (readable : readBody body = .ok (text, fields)) : Text.utf8 text = body := by
  unfold readBody at readable
  split at readable
  · cases readable
  · rename_i read same
    split at readable
    · cases readable
    · split at readable
      · cases readable
      · cases readable
        exact Text.utf8_of_ofUtf8? same

theorem utf8_of_knownFields {body : Bytes} {text : String} {fields : EventFields}
    (known : knownFields? body = some (text, fields)) : Text.utf8 text = body := by
  simp only [knownFields?, bind, Option.bind_eq_some_iff] at known
  obtain ⟨read, same, _, _, _, _, result⟩ := known
  cases result
  exact Text.utf8_of_ofUtf8? same

theorem takeIn_upholds (receiver : Receiver) {request : Request}
    (admits : verifier.Admits ledger.history request.body) :
    (receiver.takeIn request).outcome.Upholds (.ofStores verifier truthful) who
      (Acknowledges truthful) ledger := by
  cases readable : readBody request.body with
  | error error =>
      rw [takeIn_outcome_unreadable readable]
      exact .done fun last _ _ => .of_error _ last
  | ok read =>
      obtain ⟨text, fields⟩ := read
      have same : Text.utf8 text = request.body := utf8_of_readBody readable
      rw [← same] at admits
      rw [takeIn_outcome readable]
      refine .call fun current _ currentSound =>
        ⟨trivial, fun answer world performed later reached => ?_⟩
      match answer with
      | .error error => exact .done fun last _ _ => .of_error _ last
      | .ok (some known) =>
          exact acknowledge_upholds request.now (found_of_answered currentSound performed)
            (admits.mono later.history)
      | .ok none =>
          refine .bind reached (markIfAbsent_checks ..).aside.upholds
            fun marked last lastSound after _ => ?_
          match marked with
          | .error error => exact .done fun final _ _ => .of_error _ final
          | .ok true =>
              refine persist_upholds request.now rfl ?_
                (admits.mono (later.history.trans after.history))
              rw [same]
              rfl
          | .ok false =>
              refine .bind lastSound (auditRejection_aside request _).upholds
                fun audited _ _ _ _ => ?_
              cases audited <;> exact .done fun final _ _ => .of_error _ final

/-- A rejected request reaches a store only where its signature was used before. -/
theorem reject_upholds {request : Request} {error : VerificationError}
    (sound : ledger.Sound verifier truthful)
    (admits : error = .signatureReplayed → verifier.Admits ledger.history request.body) :
    (reject request error).outcome.Upholds (.ofStores verifier truthful) who
      (Acknowledges truthful) ledger := by
  by_cases replayed : error = .signatureReplayed
  · subst replayed
    replace admits := admits rfl
    rw [reject_outcome_replayed, knownEvent_outcome]
    cases known : knownFields? request.body with
    | none => exact refuse_upholds request _ sound
    | some read =>
        obtain ⟨text, fields⟩ := read
        rw [← utf8_of_knownFields known] at admits
        refine .call fun current _ currentSound =>
          ⟨trivial, fun answer world performed later reached => ?_⟩
        match answer with
        | .error error => exact .done fun last _ _ => .of_error _ last
        | .ok none => exact refuse_upholds request _ reached
        | .ok (some known) =>
            exact acknowledge_upholds request.now (found_of_answered currentSound performed)
              (admits.mono later.history)
  · rw [reject_outcome_other replayed]
    exact refuse_upholds request error sound

/-- Whatever others do meanwhile, receiving keeps the contract of the stores, and a
receipt is given for an event with a job. -/
theorem receive_upholds (receiver : Receiver) {request : Request}
    (begun : .begun who (.receive request) ∈ ledger.history)
    (sound : ledger.Sound receiver.verifier truthful) :
    (receiver.receive request).outcome.Upholds (.ofStores receiver.verifier truthful) who
      (Acknowledges truthful) ledger := by
  by_cases empty : request.body = []
  · rw [receive_outcome_empty empty]
    exact .done fun last _ _ => .of_error _ last
  · rw [receive_outcome empty]
    refine .bind sound (verify_upholds begun sound)
      fun verified current currentSound later vouched => ?_
    cases verified with
    | error error =>
        refine reject_upholds currentSound fun replayed => vouched ?_
        rintro other ⟨⟩
        exact replayed
    | ok verified => exact takeIn_upholds receiver (vouched fun _ => nofun)

end Receiver

end WebhookRelay
