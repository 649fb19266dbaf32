import WebhookRelay.Proofs.Repetition
import WebhookRelay.Proofs.Vouching

/-!
# Sending a failed request again

A verified request may fail at any of its calls, and then it leaves a part of its work
behind.  When it is sent again as it was, at once and with all stores working, that part
decides how it ends.  If the event is stored, the request is acknowledged, whatever else is
missing.  If it is not, the signature is spent all the same; where a signature may be used
once only, the request is turned away.  Otherwise it is accepted, unless the fingerprint of
its body is still kept, which it is for a stored event only where requests come one after
the other and run to their end.
-/

set_option autoImplicit false

namespace WebhookRelay

/-! ## The second attempt -/

def AuditTrail.Accepts (trail : AuditTrail) : Prop :=
  ∀ record, (trail.create record).1 = .ok ()

theorem AuditTrail.Works.accepts {trail : AuditTrail} (works : trail.Works) : trail.Accepts := by
  intro record
  have written : ((trail.create record).1, (trail.create record).2) = trail.create record := rfl
  exact (works.create written).1

theorem Program.Checks.audit {α : Type} {program : Program α} (checks : program.Checks)
    {world after : World} {value : α} (run : program.run world = some (value, after)) :
    after.audit = world.audit := by
  have silent : program.Uses Call.Silent := by
    refine checks.imp fun request isCheck => ?_
    cases request <;> first | rfl | cases isCheck
  exact @Uses.run_preserves _ _ (fun before after => after.audit = before.audit)
    (fun _ => rfl) (fun first second => second.trans first) World.perform_audit program silent
    _ _ _ run

namespace World

def mended (world : World) : World :=
  { world with refusals := fun _ => [] }

theorem mended_reliable (world : World) : world.mended.Reliable :=
  fun _ => rfl

theorem poised_mended (world : World) : world.Poised world.mended :=
  ⟨⟨rfl, rfl, rfl⟩, ⟨rfl, rfl⟩⟩

/-- All stores work, and what the rest of a request reads is as the failure left it. -/
structure Resumes (failed again : World) : Prop where
  stores : failed.SameStores again
  unmarked : failed.Unmarked .fingerprints again
  ids : again.ids = failed.ids
  audit : again.audit = failed.audit
  reliable : again.Reliable

theorem Resumes.fresh {failed again : World} (resumes : failed.Resumes again)
    (fresh : failed.jobs.find? (failed.ids.draw .job).1 = none) :
    again.jobs.find? (again.ids.draw .job).1 = none := by
  rw [resumes.stores.jobs, resumes.ids]
  exact fresh

theorem Resumes.accepts {failed again : World} (resumes : failed.Resumes again)
    (accepts : failed.audit.Accepts) : again.audit.Accepts := by
  rw [resumes.audit]
  exact accepts

theorem Resumes.unknown {failed again : World} (resumes : failed.Resumes again)
    {eventId : String} (unknown : ¬failed.events.Knows eventId) :
    again.events.find? eventId = none := by
  rw [resumes.stores.events]
  exact Option.not_isSome_iff_eq_none.mp unknown

def Bars (world : World) (body : Bytes) : Prop :=
  (world.fingerprints.purge world.clock).Has (bodyFingerprint body)

end World

/-- Verifying a claim again changes nothing that the rest of a request reads. -/
theorem Verifier.verify_resumes {verifier : Verifier} {now : Int} {claim : SignatureClaim}
    {body : Bytes} {verdict : Except VerificationError Verified} {failed again : World}
    (run : (verifier.verify now claim body).outcome.run failed.mended =
      some (verdict, again)) : failed.Resumes again := by
  have checks := verifier.verify_checks now claim body
  obtain ⟨stores, marks, _, _⟩ := (verifier.verify_idle now claim body).still run
  have audit : again.audit = failed.mended.audit := checks.audit run
  exact ⟨⟨stores.events, stores.jobs, stores.deadLetters⟩, ⟨marks.clock, marks.same⟩,
    (checks.untouched run).ids, audit, failed.mended_reliable.run run⟩

namespace Receiver

variable {receiver : Receiver} {request : Request} {world verified failed : World}
  {text : String} {fields : EventFields}

theorem acknowledge_reliable {known : Event} (reliable : world.Reliable)
    (member : known ∈ world.events.events)
    (fresh : world.jobs.find? (world.ids.draw .job).1 = none) (now : Timestamp)
    (text : String) :
    ∃ last, (acknowledge now known text).outcome.run world =
      some (.ok (.duplicate known.eventId), last) := by
  cases status : known.status with
  | processed =>
      rw [acknowledge_outcome_processed status]
      exact ⟨world, rfl⟩
  | received =>
      have ready : Ready world := ⟨fun site _ => reliable.letsThrough site, fresh⟩
      obtain ⟨last, run, _⟩ := acknowledge_run now text member status ready
      exact ⟨last, run⟩

theorem auditRejection_accepted (accepts : world.audit.Accepts) (request : Request)
    (reason : String) :
    ∃ last, (auditRejection request reason).outcome.run world = some (.ok (), last) := by
  let drawn : World := { world with ids := (world.ids.draw .audit).2 }
  have drawing : world.perform (.newId .audit) = some ((world.ids.draw .audit).1, drawn) := rfl
  let record := rejection request reason (world.ids.draw .audit).1
  let written : World := { drawn with audit := (world.audit.create record).2 }
  have writing : drawn.perform (.createAudit record) = some (.ok (), written) := by
    rw [← accepts record]
    rfl
  refine ⟨written, ?_⟩
  rw [auditRejection_outcome, Program.run_call drawing]
  exact Program.run_call writing

theorem takeIn_of_receive {value : Verified} {result : Except ReceiveError Receipt}
    (readable : readBody request.body = .ok (text, fields))
    (verifies : (receiver.verifier.verify request.now.seconds request.claim
      request.body).outcome.run world = some (.ok value, verified))
    (attempt : (receiver.receive request).outcome.run world = some (result, failed)) :
    (receiver.takeIn request).outcome.run verified = some (result, failed) := by
  rw [receive_outcome (nonempty_of_readBody readable), Program.run_bind, verifies] at attempt
  exact attempt

theorem receive_stored {verdict : Except VerificationError Verified}
    (readable : readBody request.body = .ok (text, fields))
    (verifies : (receiver.verifier.verify request.now.seconds request.claim
      request.body).outcome.run world = some (verdict, verified))
    (authentic : Verifier.IsAuthentic verdict) (resumes : failed.Resumes verified)
    (known : failed.events.Knows fields.eventId)
    (fresh : failed.jobs.find? (failed.ids.draw .job).1 = none) :
    ∃ last, (receiver.receive request).outcome.run world =
      some (.ok (.duplicate fields.eventId), last) := by
  have stillKnown : verified.events.Knows fields.eventId := by
    rw [resumes.stores.events]
    exact known
  obtain ⟨event, found⟩ := Option.isSome_iff_exists.mp stillKnown
  obtain ⟨member, same⟩ := EventStore.find?_eq_some found
  have performed := resumes.reliable.findEvent fields.eventId
  rw [found] at performed
  rw [receive_run_verified readable verifies authentic performed, ← same]
  exact acknowledge_reliable resumes.reliable member (resumes.fresh fresh) request.now text

/-- A request whose signature was used before is turned away, unless its event is stored. -/
theorem receive_spent (readable : readBody request.body = .ok (text, fields))
    (verifies : (receiver.verifier.verify request.now.seconds request.claim
      request.body).outcome.run world = some (.error .signatureReplayed, verified))
    (resumes : failed.Resumes verified) (accepts : failed.audit.Accepts)
    (unknown : ¬failed.events.Knows fields.eventId) :
    ∃ last, (receiver.receive request).outcome.run world =
      some (.error (.verification .signatureReplayed), last) := by
  have performed := resumes.reliable.findEvent fields.eventId
  rw [resumes.unknown unknown] at performed
  obtain ⟨last, audited⟩ := auditRejection_accepted (resumes.accepts accepts) request
    VerificationError.signatureReplayed.code
  refine ⟨last, ?_⟩
  rw [receive_outcome (nonempty_of_readBody readable), Program.run_bind, verifies]
  show (reject request .signatureReplayed).outcome.run verified = _
  rw [reject_outcome_replayed, knownEvent_outcome, knownFields_of_readBody readable]
  refine (Program.run_andThen (Program.run_call performed)).trans ?_
  exact Program.run_andThen audited

theorem takeIn_marked {looked marked : World} {isNew : Bool}
    (readable : readBody request.body = .ok (text, fields))
    (finds : world.perform (.findEvent fields.eventId) = some (.ok none, looked))
    (marks : (receiver.replay.checkAndMark (bodyFingerprint request.body)).outcome.run looked =
      some (.ok isNew, marked)) :
    (receiver.takeIn request).outcome.run world = (if isNew then
      (persist request.now (newEvent request fields) text).outcome
    else (auditRejection request ReceiveError.replayDetected.code).outcome.andThen
      fun _ => .done (.error .replayDetected)).run marked := by
  rw [takeIn_outcome readable, Program.run_call finds]
  show (Program.bind _ _).run looked = _
  rw [Program.run_bind, marks]
  cases isNew <;> rfl

/-- A verified request whose event is not stored is accepted, or the fingerprint of its body
is live and it is turned away as a replay. -/
theorem receive_unstored {value : Verified}
    (readable : readBody request.body = .ok (text, fields))
    (verifies : (receiver.verifier.verify request.now.seconds request.claim
      request.body).outcome.run world = some (.ok value, verified))
    (resumes : failed.Resumes verified) (accepts : failed.audit.Accepts)
    (unknown : ¬failed.events.Knows fields.eventId)
    (fresh : failed.jobs.find? (failed.ids.draw .job).1 = none)
    (inRange : failed.CanMark receiver.replay.window) :
    ∃ result last, (receiver.receive request).outcome.run world = some (result, last) ∧
      (result = .ok (.accepted fields.eventId (failed.ids.draw .job).1) ∨
        result = .error .replayDetected ∧ failed.Bars request.body) := by
  have performed := resumes.reliable.findEvent fields.eventId
  rw [resumes.unknown unknown] at performed
  have clear : verified.Clear Marks.fingerprints.sites :=
    fun site _ => resumes.reliable.letsThrough site
  have stillInRange : verified.CanMark receiver.replay.window := by
    rw [World.CanMark, resumes.unmarked.clock]
    exact inRange
  obtain ⟨isNew, marked, marks⟩ :=
    markIfAbsent_run receiver.replay.mode (bodyFingerprint request.body) clear stillInRange
  obtain ⟨stores, ids, _⟩ := (markIfAbsent_checks ..).untouched marks
  have goesOn := takeIn_marked readable performed marks
  have taken : (receiver.receive request).outcome.run world =
      (receiver.takeIn request).outcome.run verified := by
    rw [receive_outcome (nonempty_of_readBody readable), Program.run_bind, verifies]
    rfl
  rw [taken, goesOn]
  cases isNew with
  | true =>
      have stillUnknown : marked.events.find? (newEvent request fields).eventId = none := by
        rw [stores.events]
        exact resumes.unknown unknown
      have stillFresh : marked.jobs.find? (marked.ids.draw .job).1 = none := by
        rw [stores.jobs, ids]
        exact resumes.fresh fresh
      rw [← resumes.ids, ← ids]
      exact ⟨_, _, persist_run (resumes.reliable.run marks) request.now stillUnknown stillFresh
        text, Or.inl rfl⟩
  | false =>
      have stillAccepts : marked.audit.Accepts := by
        rw [(markIfAbsent_checks ..).audit marks]
        exact resumes.accepts accepts
      obtain ⟨last, audited⟩ :=
        auditRejection_accepted stillAccepts request ReceiveError.replayDetected.code
      have live := markIfAbsent_refused marks
      rw [resumes.unmarked.same, resumes.unmarked.clock] at live
      exact ⟨_, last, Program.run_andThen audited, Or.inr ⟨rfl, live⟩⟩

theorem resend_run {value : Verified} {result : Except ReceiveError Receipt}
    (readable : readBody request.body = .ok (text, fields))
    (verifies : (receiver.verifier.verify request.now.seconds request.claim
      request.body).outcome.run world = some (.ok value, verified))
    (attempt : (receiver.receive request).outcome.run world = some (result, failed))
    (fresh : failed.jobs.find? (failed.ids.draw .job).1 = none)
    (inRange : failed.CanMark receiver.replay.window) (accepts : failed.audit.Accepts) :
    ∃ result last, (receiver.receive request).outcome.run failed.mended =
        some (result, last) ∧
      (failed.events.Knows fields.eventId → result = .ok (.duplicate fields.eventId)) ∧
      (¬failed.events.Knows fields.eventId → receiver.verifier.SpendsSignatures →
        result = .error (.verification .signatureReplayed)) ∧
      (¬failed.events.Knows fields.eventId → ¬receiver.verifier.SpendsSignatures →
        result = .ok (.accepted fields.eventId (failed.ids.draw .job).1) ∨
          result = .error .replayDetected ∧ failed.Bars request.body) := by
  have taken := takeIn_of_receive readable verifies attempt
  have poised : verified.Poised failed :=
    (receiver.takeIn_concludes request).run_preserves World.Poised.refl World.Poised.trans
      World.perform_poised taken
  obtain ⟨verdict, again, verifiesAgain, spent, unspent⟩ :=
    Verifier.verify_again verifies (poised.trans failed.poised_mended)
      fun site _ => failed.mended_reliable.letsThrough site
  have resumes := Verifier.verify_resumes verifiesAgain
  by_cases known : failed.events.Knows fields.eventId
  · have authentic : Verifier.IsAuthentic verdict := by
      by_cases spends : receiver.verifier.SpendsSignatures
      · rw [spent spends]
        rfl
      · rw [unspent spends]
        trivial
    obtain ⟨last, run⟩ :=
      receive_stored readable verifiesAgain authentic resumes known fresh
    exact ⟨_, last, run, fun _ => rfl, fun unknown => absurd known unknown,
      fun unknown => absurd known unknown⟩
  · by_cases spends : receiver.verifier.SpendsSignatures
    · rw [spent spends] at verifiesAgain
      obtain ⟨last, run⟩ := receive_spent readable verifiesAgain resumes accepts known
      exact ⟨_, last, run, fun isKnown => absurd isKnown known, fun _ _ => rfl,
        fun _ keeps => absurd spends keeps⟩
    · rw [unspent spends] at verifiesAgain
      obtain ⟨result, last, run, ended⟩ :=
        receive_unstored readable verifiesAgain resumes accepts known fresh inRange
      exact ⟨result, last, run, fun isKnown => absurd isKnown known,
        fun _ stillSpends => absurd stillSpends spends, fun _ _ => ended⟩

end Receiver

section Vouching

variable {world : World} {carried : Bytes → Prop} {body : Bytes} {text : String}
  {fields : EventFields}

/-- A body whose fingerprint is kept and does not wait has a stored event, where no other body
has the same fingerprint. -/
theorem World.Vouched.knows_of_has {pending : List String}
    (vouched : world.Vouched carried pending)
    (readable : Receiver.readBody body = .ok (text, fields))
    (has : world.fingerprints.Has (bodyFingerprint body))
    (decided : bodyFingerprint body ∉ pending)
    (unique : ∀ other, carried other → bodyFingerprint other = bodyFingerprint body →
      other = body) : world.events.Knows fields.eventId := by
  obtain ⟨entry, member, same⟩ := has
  rcases vouched.stored entry member with
    waits | ⟨other, _, own, carries, fingerprint, reads, knows⟩
  · rw [same] at waits
    exact absurd waits decided
  · obtain rfl := unique other carries (fingerprint.trans same)
    rw [readable] at reads
    cases reads
    exact knows

theorem World.Vouched.knows (vouched : world.Vouched carried [])
    (readable : Receiver.readBody body = .ok (text, fields)) (bars : world.Bars body)
    (unique : ∀ other, carried other → bodyFingerprint other = bodyFingerprint body →
      other = body) : world.events.Knows fields.eventId := by
  obtain ⟨entry, member, same⟩ := bars
  exact vouched.knows_of_has readable ⟨entry, ExpiringSet.mem_purge member, same⟩
    List.not_mem_nil unique

end Vouching

/-- A verified request that ended with an internal error is sent again as it was, at the same
time and with all stores working.  If its event is stored, the request is acknowledged.  If
it is not and signatures may be used once only, the request is turned away, because its
signature is spent.  Otherwise it is accepted, unless the fingerprint of its body is live.
Where the first attempt came after requests, passes, captures and replays one after the
other, each request run to its end and no release refused, the second attempt is answered
as a success if and only if the event is stored or signatures may be used again. -/
theorem resend_succeeds_unless_its_signature_is_spent (pipeline : Pipeline)
    {world verified failed : World} {request : Receiver.Request} {text reason : String}
    {fields : EventFields} {value : Verified}
    (readable : Receiver.readBody request.body = .ok (text, fields))
    (verifies : (pipeline.receiver.verifier.verify request.now.seconds request.claim
      request.body).outcome.run world = some (.ok value, verified))
    (attempt : (pipeline.receiver.receive request).outcome.run world =
      some (.error (.internal reason), failed))
    (fresh : failed.jobs.find? (failed.ids.draw .job).1 = none)
    (inRange : failed.CanMark pipeline.receiver.replay.window)
    (accepts : failed.audit.Accepts) :
    ∃ result last, (pipeline.receiver.receive request).outcome.run failed.mended =
        some (result, last) ∧
      (failed.events.Knows fields.eventId → result = .ok (.duplicate fields.eventId)) ∧
      (¬failed.events.Knows fields.eventId → pipeline.receiver.verifier.SpendsSignatures →
        result = .error (.verification .signatureReplayed)) ∧
      (¬failed.events.Knows fields.eventId → ¬pipeline.receiver.verifier.SpendsSignatures →
        result = .ok (.accepted fields.eventId (failed.ids.draw .job).1) ∨
          result = .error .replayDetected ∧ failed.Bars request.body) ∧
      (∀ (start : World) (episodes : List Episode), start.Reliable →
        start.fingerprints.entries = [] → (∀ episode ∈ episodes, episode.Completes) →
        start.serve pipeline episodes = some world →
        (∀ episode ∈ episodes, ∀ body, episode.body? = some body →
          bodyFingerprint body = bodyFingerprint request.body → body = request.body) →
        ((∃ receipt, result = .ok receipt) ↔ failed.events.Knows fields.eventId ∨
          ¬pipeline.receiver.verifier.SpendsSignatures)) := by
  obtain ⟨result, last, run, stored, spent, unspent⟩ :=
    Receiver.resend_run readable verifies attempt fresh inRange accepts
  refine ⟨result, last, run, stored, spent, unspent, ?_⟩
  intro start episodes reliable unmarked complete served unique
  let carried (body : Bytes) : Prop :=
    body = request.body ∨ ∃ episode ∈ episodes, episode.body? = some body
  have blank : start.Vouched carried [] := by
    refine ⟨?_, ?_, reliable _⟩
    · simp [unmarked]
    · simp [reliable .createEvent]
  have before : world.Vouched carried [] :=
    blank.serve complete (fun episode member body own => Or.inr ⟨episode, member, own⟩) served
  have vouched : failed.Vouched carried [] :=
    Receiver.receive_vouched (Or.inl rfl) before attempt
  have alone (other : Bytes) (carries : carried other)
      (same : bodyFingerprint other = bodyFingerprint request.body) : other = request.body := by
    rcases carries with own | ⟨episode, member, brought⟩
    · exact own
    · exact unique episode member other brought same
  by_cases known : failed.events.Knows fields.eventId
  · exact iff_of_true ⟨_, stored known⟩ (Or.inl known)
  · by_cases spends : pipeline.receiver.verifier.SpendsSignatures
    · have ended := spent known spends
      refine iff_of_false ?_ ?_
      · rintro ⟨receipt, isOk⟩
        rw [ended] at isOk
        cases isOk
      · rintro (isKnown | keeps)
        · exact known isKnown
        · exact keeps spends
    · refine iff_of_true ?_ (Or.inr spends)
      -- A fingerprint that is kept would be that of a stored event.
      rcases unspent known spends with accepted | ⟨_, bars⟩
      · exact ⟨_, accepted⟩
      · exact absurd (vouched.knows readable bars alone) known

namespace Sample

def fullQueue : List Episode :=
  [.change (.refuse .createJob [some (.queue (.store "full"))])]

set_option maxRecDepth 100000 in
theorem resend_after_full_queue_is_acknowledged :
    ∃ world verified value failed last, keyedWorld.serve strictPipeline fullQueue = some world ∧
      (strictPipeline.receiver.verifier.verify 0 signedRequest.claim body).outcome.run world =
        some (.ok value, verified) ∧
      (strictPipeline.receiver.receive signedRequest).outcome.run world =
        some (.error (.internal "Store error: full"), failed) ∧
      (strictPipeline.receiver.receive signedRequest).outcome.run failed.mended =
        some (.ok (.duplicate "e"), last) := by
  let world : World := keyedWorld.refuse .createJob [some (.queue (.store "full"))]
  have served : keyedWorld.serve strictPipeline fullQueue = some world := rfl
  have verifying : ((strictPipeline.receiver.verifier.verify 0 signedRequest.claim
      body).outcome.run world).map (fun ended => ended.1.toOption.isSome) = some true := by
    decide +kernel
  have attempting : ∃ ended ∈ (strictPipeline.receiver.receive signedRequest).outcome.record world,
      ended.1 = .error (.internal "Store error: full") ∧
      (∀ made ∈ ended.2.1, made.request.Silent) ∧
      (ended.2.2.events.find? "e").isSome = true ∧
      ended.2.2.jobs.find? (ended.2.2.ids.draw .job).1 = none ∧
      ended.2.2.CanMark strictPipeline.receiver.replay.window := by decide +kernel
  obtain ⟨⟨verdict, verified⟩, verifies, isOk⟩ := Option.map_eq_some_iff.mp verifying
  obtain ⟨⟨result, calls, failed⟩, recorded, rfl, silent, known, fresh, inRange⟩ := attempting
  cases verdict with
  | error error => cases isOk
  | ok value =>
      have works : world.audit.Works := ⟨{}, rfl, List.forall_mem_nil _⟩
      have accepts : failed.audit.Accepts := by
        rw [Program.record_audit recorded silent]
        exact works.accepts
      have attempt := Program.run_of_record recorded
      have readable : Receiver.readBody signedRequest.body = .ok
          ("\x7b\"event_id\":\"e\",\"order\":\x7b\"id\":1\x7d\x7d", ⟨"e", none, "1", none⟩) := by
        decide +kernel
      obtain ⟨result, last, run, stored, _, _, succeeds⟩ :=
        resend_succeeds_unless_its_signature_is_spent strictPipeline readable verifies attempt
          fresh inRange accepts
      have complete : ∀ episode ∈ fullQueue, episode.Completes := by
        intro episode member
        rw [List.mem_singleton.mp member]
        exact ⟨trivial, nofun⟩
      have unique : ∀ episode ∈ fullQueue, ∀ other, episode.body? = some other →
          bodyFingerprint other = bodyFingerprint signedRequest.body →
          other = signedRequest.body := by
        intro episode member other brought
        rw [List.mem_singleton.mp member] at brought
        cases brought
      obtain ⟨receipt, rfl⟩ :=
        (succeeds keyedWorld fullQueue (fun _ => rfl) rfl complete served unique).mpr
          (Or.inl known)
      obtain rfl : receipt = .duplicate "e" := Except.ok.inj (stored known)
      exact ⟨world, verified, value, failed, last, served, verifies, attempt, run⟩

def unreadableEvents : List Episode :=
  [.change (.refuse .findEvent [some (.store (.unavailable "down"))])]

set_option maxRecDepth 100000 in
/-- The signature is spent before the request fails, and its event is not stored. -/
theorem resent_signature_is_refused :
    ∃ world verified value failed last,
      keyedWorld.serve strictPipeline unreadableEvents = some world ∧
      (strictPipeline.receiver.verifier.verify 0 signedRequest.claim body).outcome.run world =
        some (.ok value, verified) ∧
      (strictPipeline.receiver.receive signedRequest).outcome.run world =
        some (.error (.internal "Store unavailable: down"), failed) ∧
      (strictPipeline.receiver.receive signedRequest).outcome.run failed.mended =
        some (.error (.verification .signatureReplayed), last) := by
  let world : World :=
    keyedWorld.refuse .findEvent [some (.store (.unavailable "down"))]
  have served : keyedWorld.serve strictPipeline unreadableEvents = some world := rfl
  have verifying : ((strictPipeline.receiver.verifier.verify 0 signedRequest.claim
      body).outcome.run world).map (fun ended => ended.1.toOption.isSome) = some true := by
    decide +kernel
  have attempting : ∃ first ∈ (strictPipeline.receiver.receive signedRequest).outcome.run world,
      first.1 = .error (.internal "Store unavailable: down") ∧
      ∃ second ∈ (strictPipeline.receiver.receive signedRequest).outcome.run first.2.mended,
        second.1 = .error (.verification .signatureReplayed) := by decide +kernel
  obtain ⟨⟨verdict, verified⟩, verifies, isOk⟩ := Option.map_eq_some_iff.mp verifying
  obtain ⟨⟨_, failed⟩, attempt, rfl, ⟨_, last⟩, again, rfl⟩ := attempting
  cases verdict with
  | error error => cases isOk
  | ok value => exact ⟨world, verified, value, failed, last, served, verifies, attempt, again⟩

end Sample

end WebhookRelay
