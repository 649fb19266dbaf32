import WebhookRelay.Proofs.Recovery
import WebhookRelay.Proofs.Reliable

/-!
# How a request ends where no store fails

Where no store fails and every event that is stored is processed, a request can end in
three ways.  It is accepted, and its event and its job are stored.  It is acknowledged as a
duplicate, or it is refused, and then nothing is stored.  Which of the three it is depends
on the verdict about its signature, its body, the events that are known and the bodies that
were seen.
-/

set_option autoImplicit false

namespace WebhookRelay

def World.Settled (world : World) : Prop :=
  ∀ event ∈ world.events.events, event.status = .processed

/-- The body was seen before: there is an entry for its fingerprint, live or not. -/
def World.HasSeen (world : World) (body : Bytes) : Prop :=
  ∃ entry ∈ world.fingerprints.entries, entry.1 = bodyFingerprint body

/-- Nothing new was stored, and no new body was seen. -/
structure World.Unmoved (before after : World) : Prop where
  stores : before.SameStores after
  ids : after.ids.ids = before.ids.ids
  drawn : after.ids.drawn .job = before.ids.drawn .job
  seen : ∀ entry ∈ after.fingerprints.entries,
    ∃ old ∈ before.fingerprints.entries, old.1 = entry.1

namespace World

theorem Still.unmoved {before after : World} (still : before.Still after) :
    before.Unmoved after where
  stores := still.stores
  ids := still.ids
  drawn := still.drawn
  seen entry member := by
    have same : after.fingerprints = before.fingerprints := still.marks.same
    rw [same] at member
    exact ⟨entry, member, rfl⟩

theorem Unmoved.refl (world : World) : world.Unmoved world :=
  (Still.refl world).unmoved

theorem Unmoved.trans {first second third : World} (before : first.Unmoved second)
    (after : second.Unmoved third) : first.Unmoved third where
  stores := before.stores.trans after.stores
  ids := after.ids.trans before.ids
  drawn := after.drawn.trans before.drawn
  seen entry member := by
    obtain ⟨middle, middleMember, same⟩ := after.seen entry member
    obtain ⟨old, oldMember, sameOld⟩ := before.seen middle middleMember
    exact ⟨old, oldMember, sameOld.trans same⟩

end World

namespace Receiver

/-- The three ways in which a request ends after the verdict about its signature. -/
inductive Ends (request : Request) (verdict : Except VerificationError Verified)
    (world : World) : Except ReceiveError Receipt → World → Prop where
  | accepted (last : World) (text : String) (fields : EventFields)
      (verified : ∃ value, verdict = .ok value)
      (readable : readBody request.body = .ok (text, fields))
      (new : ¬world.events.Knows fields.eventId)
      (settled : last.Settled)
      (knows : ∀ eventId, last.events.Knows eventId ↔
        world.events.Knows eventId ∨ eventId = fields.eventId)
      (jobs : last.jobs.jobs = world.jobs.jobs ++
        [.create (world.ids.draw .job).1 request.now fields.eventId text])
      (ids : last.ids = (world.ids.draw .job).2)
      (seen : ∀ entry ∈ last.fingerprints.entries,
        entry.1 = bodyFingerprint request.body ∨ entry ∈ world.fingerprints.entries) :
      Ends request verdict world
        (.ok (.accepted fields.eventId (world.ids.draw .job).1)) last
  | acknowledged (last : World) (text : String) (fields : EventFields)
      (authentic : Verifier.IsAuthentic verdict)
      (readable : readBody request.body = .ok (text, fields))
      (known : world.events.Knows fields.eventId) (unmoved : world.Unmoved last) :
      Ends request verdict world (.ok (.duplicate fields.eventId)) last
  | refused (last : World) (error : ReceiveError)
      (unknown : ∀ text fields, readBody request.body = .ok (text, fields) →
        Verifier.IsAuthentic verdict → ¬world.events.Knows fields.eventId)
      (barred : ∀ text fields, readBody request.body = .ok (text, fields) →
        (∃ value, verdict = .ok value) → world.HasSeen request.body)
      (replayed : error = .replayDetected → ∃ text fields,
        readBody request.body = .ok (text, fields) ∧
          ¬world.events.Knows fields.eventId ∧ world.HasSeen request.body)
      (unmoved : world.Unmoved last) :
      Ends request verdict world (.error error) last

variable {world last : World} {request : Request}

/-! ## Refusing -/

def rejection (request : Request) (reason : String) (id : Uuid) : AuditRecord where
  id := id.render
  eventId := EventFields.eventIdOfBytes? request.body
  reason
  signatureHeader := request.claim.signature
  keyId := request.claim.keyId
  fingerprint := bodyFingerprint request.body
  createdAt := request.now

theorem auditRejection_outcome (request : Request) (reason : String) :
    (auditRejection request reason).outcome = .call (.newId .audit) fun id =>
      .call (.createAudit (rejection request reason id)) fun
        | .ok () => .done (.ok ())
        | .error error => .done (.error (.internal s!"audit store: {error.message}")) := by
  refine congrArg (Program.call _) (funext fun id => congrArg (Program.call _) (funext ?_))
  intro answer
  cases answer <;> rfl

theorem auditRejection_run {reason : String} {failure : ReceiveError}
    (run : (auditRejection request reason).outcome.run world = some (.error failure, last)) :
    ∃ reason, failure = .internal reason := by
  rw [auditRejection_outcome] at run
  obtain ⟨id, drawn, _, run⟩ := Program.run_call_eq_some.mp run
  obtain ⟨answer, written, _, run⟩ := Program.run_call_eq_some.mp run
  cases answer with
  | ok done => cases run
  | error error =>
      cases run
      exact ⟨_, rfl⟩

theorem refuse_run {error : VerificationError} {result : Except ReceiveError Receipt}
    (run : (refuse request error).run world = some (result, last)) :
    (∃ failure, result = .error failure ∧ failure ≠ .replayDetected) ∧ world.Unmoved last := by
  unfold refuse Program.andThen at run
  rw [Program.run_bind] at run
  obtain ⟨⟨audited, middle⟩, audits, run⟩ := Option.bind_eq_some_iff.mp run
  have still := ((auditRejection_idle request error.code).still audits).unmoved
  cases audited with
  | error failure =>
      obtain ⟨reason, rfl⟩ := auditRejection_run audits
      cases run
      exact ⟨⟨_, rfl, nofun⟩, still⟩
  | ok done =>
      cases run
      exact ⟨⟨_, rfl, nofun⟩, still⟩

/-! ## Storing a new event -/

theorem persist_run (reliable : world.Reliable) (now : Timestamp) {event : Event}
    (unknown : world.events.find? event.eventId = none)
    (fresh : world.jobs.find? (world.ids.draw .job).1 = none) (text : String) :
    (persist now event text).outcome.run world =
      some (.ok (.accepted event.eventId (world.ids.draw .job).1), { world with
        events := ⟨(world.events.events ++ [event]).map fun other =>
          if other.eventId = event.eventId then EventStore.processedAt now other else other⟩
        jobs := ⟨world.jobs.jobs ++
          [.create (world.ids.draw .job).1 now event.eventId text]⟩
        ids := (world.ids.draw .job).2 }) := by
  -- The worlds between the calls: the event is stored, and then an id is drawn.
  let storing : World := { world with events := ⟨world.events.events ++ [event]⟩ }
  let drawing : World := { storing with ids := (world.ids.draw .job).2 }
  have stored : world.perform (.createEvent event) = some (.ok (), storing) :=
    reliable.createEvent unknown
  have drawn : storing.perform (.newId .job) = some ((world.ids.draw .job).1, drawing) := rfl
  have afterStoring : storing.Reliable := reliable.performed stored
  have afterDrawing : drawing.Reliable := afterStoring.performed drawn
  have isFresh : drawing.jobs.find?
      (Job.create (world.ids.draw .job).1 now event.eventId text).id = none := fresh
  have created := afterDrawing.createJob isFresh
  have known : drawing.events.Knows event.eventId :=
    EventStore.knows_iff.mpr ⟨event, List.mem_append_right _ List.mem_cons_self, rfl⟩
  have marked := (afterDrawing.performed created).markProcessed known now
  rw [persist_outcome, Program.run_call stored]
  show (Program.andThen _ _).run _ = _
  rw [enqueue_outcome]
  refine (Program.run_call drawn).trans ?_
  refine (Program.run_call created).trans ?_
  exact Program.run_call marked

/-- A body that lacks something is no replay. -/
theorem readBody_error {body : Bytes} {error : ReceiveError}
    (unreadable : readBody body = .error error) : error ≠ .replayDetected := by
  rintro rfl
  unfold readBody at unreadable
  split at unreadable
  · cases unreadable
  · split at unreadable
    · cases unreadable
    · split at unreadable <;> cases unreadable

theorem readBody_of_knownFields {body : Bytes} {text : String} {fields : EventFields}
    (known : knownFields? body = some (text, fields)) : readBody body = .ok (text, fields) := by
  simp only [knownFields?, bind, Option.bind_eq_some_iff] at known
  obtain ⟨read, isText, value, isJson, found, hasFields, same⟩ := known
  cases same
  simp only [readBody, isText, isJson, hasFields]

/-! ## Acknowledging -/

theorem acknowledge_settled (settled : world.Settled) {eventId : String} {known : Event}
    (found : world.events.find? eventId = some known) (now : Timestamp) (text : String) :
    (acknowledge now known text).outcome = .done (.ok (.duplicate eventId)) := by
  obtain ⟨member, sameId⟩ := EventStore.find?_eq_some found
  rw [acknowledge_outcome_processed (settled known member), sameId]

/-! ## After the verdict -/

theorem ends_accepted {value : Verified} {text : String} {fields : EventFields}
    (settled : world.Settled) (readable : readBody request.body = .ok (text, fields))
    (unknown : world.events.find? fields.eventId = none) {marked : World}
    (stores : world.SameStores marked) (ids : marked.ids = world.ids)
    (seen : ∀ entry ∈ marked.fingerprints.entries,
      entry.1 = bodyFingerprint request.body ∨ entry ∈ world.fingerprints.entries)
    (reliable : marked.Reliable)
    (fresh : world.jobs.find? (world.ids.draw .job).1 = none)
    {result : Except ReceiveError Receipt}
    (run : (persist request.now (newEvent request fields) text).outcome.run marked =
      some (result, last)) : Ends request (.ok value) world result last := by
  have stillUnknown : marked.events.find? (newEvent request fields).eventId = none := by
    rw [stores.events]
    exact unknown
  have stillFresh : marked.jobs.find? (marked.ids.draw .job).1 = none := by
    rw [stores.jobs, ids]
    exact fresh
  rw [persist_run reliable request.now stillUnknown stillFresh text, ids] at run
  cases run
  refine .accepted _ text fields ⟨value, rfl⟩ readable (EventStore.not_knows unknown)
    ?_ ?_ ?_ rfl seen
  · intro event member
    obtain ⟨old, other⟩ | ⟨original, _, _, rfl⟩ := EventStore.mem_marked.mp member
    · rcases List.mem_append.mp old with before | new
      · rw [stores.events] at before
        exact settled event before
      · obtain rfl := List.mem_singleton.mp new
        exact absurd rfl other
    · rfl
  · intro eventId
    have ids (store : EventStore) : store.Knows eventId ↔
        eventId ∈ store.events.map Event.eventId := by
      rw [EventStore.knows_iff, List.mem_map]
    rw [ids, ids, List.map_map]
    have same : (fun other : Event => (if other.eventId = (newEvent request fields).eventId then
        EventStore.processedAt request.now other else other).eventId) = Event.eventId := by
      funext other
      split <;> rfl
    rw [show Event.eventId ∘ _ = Event.eventId from same, stores.events, List.map_append,
      List.mem_append]
    exact or_congr_right List.mem_singleton
  · show marked.jobs.jobs ++ _ = world.jobs.jobs ++ _
    rw [stores.jobs]
    rfl

theorem takeIn_ends {receiver : Receiver} {value : Verified} (reliable : world.Reliable)
    (settled : world.Settled) (fresh : world.jobs.find? (world.ids.draw .job).1 = none)
    {result : Except ReceiveError Receipt}
    (run : (receiver.takeIn request).outcome.run world = some (result, last)) :
    Ends request (.ok value) world result last := by
  cases readable : readBody request.body with
  | error error =>
      rw [takeIn_outcome_unreadable readable] at run
      cases run
      have unreadable {text : String} {fields : EventFields}
          (isReadable : readBody request.body = .ok (text, fields)) : False := by
        rw [readable] at isReadable
        cases isReadable
      exact .refused world error (fun _ _ isReadable => (unreadable isReadable).elim)
        (fun _ _ isReadable => (unreadable isReadable).elim)
        (fun same => absurd same (readBody_error readable)) (.refl world)
  | ok read =>
      obtain ⟨text, fields⟩ := read
      rw [takeIn_outcome readable, Program.run_call (reliable.findEvent _)] at run
      cases found : world.events.find? fields.eventId with
      | some known =>
          rw [found] at run
          dsimp only at run
          rw [acknowledge_settled settled found] at run
          cases run
          have isKnown : world.events.Knows fields.eventId := by
            rw [EventStore.Knows, found]
            rfl
          exact .acknowledged world text fields trivial readable isKnown (.refl world)
      | none =>
          rw [found] at run
          dsimp only at run
          rw [Program.run_bind] at run
          obtain ⟨⟨answer, marked⟩, marks, run⟩ := Option.bind_eq_some_iff.mp run
          obtain ⟨fresh', rfl, old, seen⟩ := reliable.markIfAbsent marks
          have untouched := (markIfAbsent_checks ..).untouched marks
          have markedReliable := reliable.run marks
          have new := EventStore.not_knows found
          cases fresh' with
          | true =>
              exact ends_accepted settled readable found untouched.stores untouched.ids seen
                markedReliable fresh run
          | false =>
              have hasSeen : world.HasSeen request.body := old rfl
              have unmoved : world.Unmoved marked := by
                refine ⟨untouched.stores, by rw [untouched.ids], by rw [untouched.ids], ?_⟩
                intro entry member
                rcases seen entry member with same | before
                · obtain ⟨former, formerMember, sameFormer⟩ := hasSeen
                  exact ⟨former, formerMember, sameFormer.trans same.symm⟩
                · exact ⟨entry, before, rfl⟩
              have bars (other : String) (otherFields : EventFields)
                  (isReadable : readBody request.body = .ok (other, otherFields)) :
                  ¬world.events.Knows otherFields.eventId := by
                rw [readable] at isReadable
                cases isReadable
                exact new
              dsimp only at run
              rw [Program.andThen, Program.run_bind] at run
              obtain ⟨⟨audited, final⟩, audits, run⟩ := Option.bind_eq_some_iff.mp run
              have still := ((auditRejection_idle request _).still audits).unmoved
              have ends (error : ReceiveError) : Ends request (.ok value) world (.error error)
                  final :=
                .refused final error (fun other otherFields isReadable _ =>
                    bars other otherFields isReadable)
                  (fun _ _ _ _ => hasSeen) (fun _ => ⟨text, fields, readable, new, hasSeen⟩)
                  (unmoved.trans still)
              cases audited with
              | error failure =>
                  cases run
                  exact ends failure
              | ok done =>
                  cases run
                  exact ends .replayDetected

theorem reject_ends {error : VerificationError} (reliable : world.Reliable)
    (settled : world.Settled) {result : Except ReceiveError Receipt}
    (run : (reject request error).outcome.run world = some (result, last)) :
    Ends request (.error error) world result last := by
  have unverified {value : Verified} : Except.error error ≠ .ok value := nofun
  -- A refusal of a request that is not authentic, or whose event is not known.
  have refuses (replayed : error = .signatureReplayed → ∀ text fields,
      readBody request.body = .ok (text, fields) → ¬world.events.Knows fields.eventId)
      (run : (refuse request error).run world = some (result, last)) :
      Ends request (.error error) world result last := by
    obtain ⟨⟨failure, rfl, unlike⟩, unmoved⟩ := refuse_run run
    refine .refused last failure (fun text fields readable authentic => ?_)
      (fun _ _ _ ⟨value, same⟩ => absurd same unverified) (fun same => absurd same unlike) unmoved
    exact replayed authentic text fields readable
  by_cases replayed : error = .signatureReplayed
  · subst replayed
    rw [reject_outcome_replayed, knownEvent_outcome] at run
    cases known : knownFields? request.body with
    | none =>
        rw [known] at run
        refine refuses (fun _ text fields readable => ?_) run
        rw [knownFields_of_readBody readable] at known
        cases known
    | some read =>
        obtain ⟨text, fields⟩ := read
        have readable := readBody_of_knownFields known
        rw [known] at run
        simp only [Program.andThen, Program.call_bind] at run
        rw [Program.run_call (reliable.findEvent _)] at run
        cases found : world.events.find? fields.eventId with
        | none =>
            rw [found] at run
            refine refuses (fun _ other otherFields isReadable => ?_) run
            rw [readable] at isReadable
            cases isReadable
            exact EventStore.not_knows found
        | some event =>
            rw [found] at run
            simp only [Option.map_some, Program.done_bind] at run
            rw [acknowledge_settled settled found] at run
            cases run
            have isKnown : world.events.Knows fields.eventId := by
              rw [EventStore.Knows, found]
              rfl
            exact .acknowledged world text fields rfl readable isKnown (.refl world)
  · rw [reject_outcome_other replayed] at run
    exact refuses (fun same => absurd same replayed) run

theorem Ends.since {before : World} {verdict : Except VerificationError Verified}
    {result : Except ReceiveError Receipt} (ends : Ends request verdict world result last)
    (still : before.Still world) (ids : world.ids = before.ids) :
    Ends request verdict before result last := by
  have marks : world.fingerprints = before.fingerprints := still.marks.same
  cases ends with
  | accepted last text fields verified readable new settled knows jobs drawn seen =>
      rw [still.stores.events] at new knows
      rw [still.stores.jobs] at jobs
      rw [ids] at jobs drawn ⊢
      rw [marks] at seen
      exact .accepted last text fields verified readable new settled knows jobs drawn seen
  | acknowledged last text fields authentic readable known unmoved =>
      rw [still.stores.events] at known
      exact .acknowledged last text fields authentic readable known (still.unmoved.trans unmoved)
  | refused last error unknown barred replayed unmoved =>
      unfold World.HasSeen at barred replayed
      rw [still.stores.events] at unknown replayed
      rw [marks] at barred replayed
      exact .refused last error unknown barred replayed (still.unmoved.trans unmoved)

/-- A request ends in one of the three ways after the verdict about it; one with an empty
body ends before that. -/
theorem receive_ends {receiver : Receiver} (reliable : world.Reliable)
    (settled : world.Settled) (fresh : world.jobs.find? (world.ids.draw .job).1 = none)
    {result : Except ReceiveError Receipt}
    (run : (receiver.receive request).outcome.run world = some (result, last)) :
    (request.body = [] ∧ result = .error .invalidBody ∧ last = world) ∨
      ∃ verdict verified, (receiver.verifier.verify request.now.seconds request.claim
          request.body).outcome.run world = some (verdict, verified) ∧
        Ends request verdict world result last := by
  by_cases empty : request.body = []
  · rw [receive_outcome_empty empty] at run
    cases run
    exact Or.inl ⟨empty, rfl, rfl⟩
  · rw [receive_outcome empty, Program.run_bind] at run
    obtain ⟨⟨verdict, verified⟩, verifies, run⟩ := Option.bind_eq_some_iff.mp run
    have still := (receiver.verifier.verify_idle ..).still verifies
    have ids := ((receiver.verifier.verify_checks ..).untouched verifies).ids
    have verifiedReliable := reliable.run verifies
    have verifiedSettled : verified.Settled := by
      unfold World.Settled
      rw [still.stores.events]
      exact settled
    have stillFresh : verified.jobs.find? (verified.ids.draw .job).1 = none := by
      rw [still.stores.jobs, ids]
      exact fresh
    refine Or.inr ⟨verdict, verified, verifies, Ends.since ?_ still ids⟩
    cases verdict with
    | error error => exact reject_ends verifiedReliable verifiedSettled run
    | ok value => exact takeIn_ends verifiedReliable verifiedSettled stillFresh run

end Receiver

end WebhookRelay
