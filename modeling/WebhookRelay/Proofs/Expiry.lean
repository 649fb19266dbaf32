import WebhookRelay.Proofs.Authenticity
import WebhookRelay.Proofs.Construction
import WebhookRelay.Proofs.Formats
import WebhookRelay.Proofs.Memory
import WebhookRelay.Proofs.Recovery
import WebhookRelay.Proofs.Repetition
import WebhookRelay.Proofs.WrittenValues

/-!
# Marks beyond the range of the clock

A request marks the digest of its body for the replay window and, where signatures may be
used once only, its nonce.  Both times come from the settings, which are checked from below
only, and a mark that would end beyond the range of the clock ends the process.  Every other
request is answered, whatever the state of the stores and whatever they refuse.
-/

set_option autoImplicit false

namespace WebhookRelay

/-- The marks that a service with these settings sets at an instant end within the range of
the clock. -/
structure Settings.MarksFit (settings : Settings) (clock : Instant) : Prop where
  window : (clock.plus? settings.replay.window).isSome = true
  nonces : settings.verifier.skipVerification = false → settings.verifier.nonceCheck = true →
    (clock.plus? settings.verifier.nonceTtl).isSome = true

namespace Receiver

variable {receiver : Receiver} {request : Request}

/-- The marks that a request may set: nonces are marked only where signatures are checked and
may be used once. -/
def SetsMarks (receiver : Receiver) : Call → Prop
  | .mark .fingerprints _ ttl | .tryMark .fingerprints _ ttl => ttl = receiver.replay.window
  | .mark .nonces _ ttl | .tryMark .nonces _ ttl =>
      ttl = receiver.verifier.nonceTtl ∧ receiver.verifier.skip = false ∧
        receiver.verifier.nonces ≠ none
  | _ => True

theorem Concludes.setsMarks {call : Call} (concludes : receiver.Concludes request call) :
    receiver.SetsMarks call := by
  cases call with
  | mark | tryMark =>
      obtain ⟨rfl, rfl⟩ := concludes
      rfl
  | _ => trivial

theorem verify_setsMarks (receiver : Receiver) (request : Request) :
    (receiver.verifier.verify request.now.seconds request.claim
      request.body).outcome.Uses receiver.SetsMarks := by
  cases checks : receiver.verifier.skip with
  | true =>
      rw [Verifier.verify_outcome_skipped checks]
      trivial
  | false =>
      apply Verifier.verify_uses
      · intro keyId
        trivial
      · intro seenAt
        trivial
      · intro mode once nonce
        have marks : receiver.verifier.nonces ≠ none := by simp [once]
        apply markIfAbsent_uses
        · trivial
        · exact ⟨rfl, checks, marks⟩
        · exact ⟨rfl, checks, marks⟩

theorem receive_setsMarks (receiver : Receiver) (request : Request) :
    (receiver.receive request).outcome.Uses receiver.SetsMarks := by
  by_cases empty : request.body = []
  · rw [receive_outcome_empty empty]
    trivial
  · rw [receive_outcome empty]
    apply (verify_setsMarks receiver request).bind
    intro verified
    cases verified with
    | error error =>
        apply (reject_answers error).imp
        intro call answers
        have concludes : receiver.Concludes request call := answers.concludes
        exact concludes.setsMarks
    | ok verified =>
        apply (takeIn_concludes receiver request).imp
        intro call concludes
        exact concludes.setsMarks

end Receiver

/-! ## Marks that do not fit -/

/-- At this instant nothing is stored yet, no key has such a mark, and no calls are refused. -/
structure World.Fresh (world : World) (clock : Instant) (marks : Marks) : Prop where
  reliable : world.Reliable
  clock : world.clock = clock
  events : world.events.events = []
  unmarked : (world.marks marks).entries = []

namespace World.Fresh

variable {world : World} {clock : Instant} {marks : Marks} {ttl : Duration}

theorem tryMark_beyond (fresh : world.Fresh clock marks)
    (beyond : ¬(clock.plus? ttl).isSome = true) (key : String) :
    world.perform (.tryMark marks key ttl) = none := by
  have absent : ¬((world.marks marks).purge world.clock).Has key := by
    simp [ExpiringSet.Has, ExpiringSet.purge, fresh.unmarked]
  apply fresh.reliable.tryMark_beyond absent
  rw [fresh.clock]
  simpa using beyond

theorem tryMark_within (fresh : world.Fresh clock marks)
    (within : (clock.plus? ttl).isSome = true) (key : String) :
    ∃ set, world.perform (.tryMark marks key ttl) = some (.ok true, world.setMarks set marks) := by
  obtain ⟨expiresAt, dated⟩ := Option.isSome_iff_exists.mp within
  rw [fresh.reliable.tryMark, World.tryMarkKey, fresh.clock, ExpiringSet.insertIfAbsent?]
  simp only [ExpiringSet.purge, ExpiringSet.expiry?, fresh.unmarked, dated]
  exact ⟨_, rfl⟩

theorem setMarks (fresh : world.Fresh clock marks) {other : Marks} (set : ExpiringSet)
    (unlike : marks ≠ other) : (world.setMarks set other).Fresh clock marks where
  reliable := by
    cases other <;> exact fresh.reliable
  clock := by
    cases other <;> exact fresh.clock
  events := by
    cases other <;> exact fresh.events
  unmarked := by
    rw [setMarks_other world set unlike.symm]
    exact fresh.unmarked

theorem fetched (fresh : world.Fresh clock marks) (published : JwkSet) :
    (world.fetched published).Fresh clock marks where
  reliable := fresh.reliable
  clock := fresh.clock
  events := fresh.events
  unmarked := by
    cases marks <;> exact fresh.unmarked

end World.Fresh

namespace Receiver

variable {receiver : Receiver} {request : Request} {world : World} {clock : Instant}

theorem takeIn_beyond (atomic : receiver.replay.mode = .atomic) {text : String}
    {fields : EventFields} (readable : readBody request.body = .ok (text, fields))
    (fresh : world.Fresh clock .fingerprints)
    (beyond : ¬(clock.plus? receiver.replay.window).isSome = true) :
    (receiver.takeIn request).outcome.run world = none := by
  have aborts := fresh.tryMark_beyond beyond (bodyFingerprint request.body)
  have unknown : world.events.find? fields.eventId = none := by
    simp [EventStore.find?, fresh.events]
  rw [takeIn_outcome readable, Program.run_call (fresh.reliable.findEvent fields.eventId), unknown]
  simp only [ReplayGuard.checkAndMark, markIfAbsent_outcome, atomic, Program.call_bind,
    Program.run, aborts]

/-- A request that is verified, with a nonce that can be marked or without one, is not
answered where the digest of its body cannot be marked. -/
theorem receive_beyond (receiver : Receiver) (request : Request)
    (atomic : receiver.replay.mode = .atomic) {text : String} {fields : EventFields}
    (readable : readBody request.body = .ok (text, fields))
    {verified : Verified} {middle : World}
    (verifies : (receiver.verifier.verify request.now.seconds request.claim
      request.body).outcome.run world = some (.ok verified, middle))
    (fresh : middle.Fresh clock .fingerprints)
    (beyond : ¬(clock.plus? receiver.replay.window).isSome = true) :
    (receiver.receive request).outcome.run world = none := by
  rw [receive_outcome (nonempty_of_readBody readable), Program.run_bind, verifies]
  exact takeIn_beyond atomic readable fresh beyond

theorem receive_unverified (receiver : Receiver) (request : Request) {text : String}
    {fields : EventFields} (readable : readBody request.body = .ok (text, fields))
    (aborts : (receiver.verifier.verify request.now.seconds request.claim
      request.body).outcome.run world = none) :
    (receiver.receive request).outcome.run world = none := by
  rw [receive_outcome (nonempty_of_readBody readable), Program.run_bind, aborts]
  rfl

end Receiver

namespace Verifier

variable {verifier : Verifier} {world : World} {clock : Instant}

theorem verify_unchecked (checks : verifier.skip = false) {now : Int} {claim : SignatureClaim}
    {body : Bytes} {signature keyId : String} {header : SignatureHeader} {key : VerifyingKey}
    {looked : World} (presents : verifier.Presents now claim signature keyId header)
    (looks : (lookUpKey keyId).outcome.run world = some (.ok key, looked))
    (verifies : key.verifies (signedMessage header.timestamp body) header.signature = true)
    (aborts : (verifier.checkNonce signature keyId).outcome.run looked = none) :
    (verifier.verify now claim body).outcome.run world = none := by
  rw [verify_outcome checks presents, Program.run_andThen looks, if_pos verifies,
    Program.andThen, Program.run_bind, aborts]
  rfl

theorem checkNonce_fresh (fresh : world.Fresh clock .nonces) (signature keyId : String) :
    (verifier.nonces = none ∧
      (verifier.checkNonce signature keyId).outcome.run world = some (.ok (), world)) ∨
    ∃ mode, verifier.nonces = some mode ∧ (mode = .atomic →
      if (clock.plus? verifier.nonceTtl).isSome then
        ∃ set, (verifier.checkNonce signature keyId).outcome.run world =
          some (.ok (), world.setMarks set .nonces)
      else (verifier.checkNonce signature keyId).outcome.run world = none) := by
  rw [checkNonce_outcome]
  cases nonces : verifier.nonces with
  | none => exact Or.inl ⟨rfl, rfl⟩
  | some mode =>
      refine Or.inr ⟨mode, rfl, ?_⟩
      rintro rfl
      simp only [markIfAbsent_outcome, Program.call_bind]
      split
      · rename_i within
        obtain ⟨set, marked⟩ := fresh.tryMark_within within (signatureNonce signature keyId)
        exact ⟨set, Program.run_call marked⟩
      · rename_i beyond
        simp only [Program.run, fresh.tryMark_beyond beyond (signatureNonce signature keyId)]

end Verifier

/-! ## The settings of a service -/

theorem Service.endpoint_of_build {settings : Settings} {service : Service}
    (built : build settings = .ok service) :
    service.endpoint = endpointOf settings ∧
      keySource? settings.verifier = .ok service.source := by
  unfold build at built
  split at built
  · cases built
  · rename_i source found
    split at built
    · cases built
    · cases built
      exact ⟨rfl, found⟩

theorem Service.source_of_build {settings : Settings} (valid : settings.validate = .ok ())
    (checks : settings.verifier.skipVerification = false) {service : Service}
    (built : build settings = .ok service) :
    settings.verifier.jwkSetUrl.isSome = true ∧
      ∃ url, service.source = some (.remote url settings.verifier.fetchTimeout) ∧
        url.isHttp = true := by
  obtain ⟨text, given, url, parsed, web⟩ :=
    (Settings.validate_ok_iff.mp valid).keySource checks
  obtain ⟨_, found⟩ := endpoint_of_build built
  have mapped : settings.verifier.jwkSetUrl.mapM Url.parse = .ok (some url) := by
    rw [Option.mem_def.mp given]
    simp [parsed, Functor.map, Except.map]
  rw [keySource?, mapped] at found
  exact ⟨Option.isSome_of_mem given, url, (Except.ok.inj found).symm, web⟩

/-! ## A request that sets all its marks -/

/-- A key set that is sent as its own text is fetched as it is. -/
theorem KeySource.fetch_written {network : Network} {url : Url} {published : JwkSet}
    (web : url.isHttp = true) (exact : Json.isExact published.toJson = true)
    (sent : ∀ request, network.exchange request =
      .response 200 (Text.utf8 published.toJson.render)) (timeout : Duration) :
    (KeySource.remote url timeout).fetch network = .ok published := by
  have read : Json.readBytes? JwkSet.ofRaw? (Text.utf8 published.toJson.render) =
      some published := by
    rw [Json.readBytes?_utf8, Json.readText?_render _ exact]
    exact JwkSet.recovers published
  have isSent : isSuccess 200 = true := rfl
  simp only [fetch, fetchRemote, web, sent, isSent, read, Bool.not_true, Bool.false_eq_true,
    if_false, if_true]

namespace Sample

/-- A network on which every address publishes the key of the signed request. -/
def publishing : Network :=
  ⟨fun _ => .response 200 (Text.utf8 (JwkSet.toJson ⟨[publishedKey]⟩).render)⟩

theorem body_readable : ∃ text fields, Receiver.readBody body = .ok (text, fields) := by
  have isRead : (Receiver.readBody body).isOk = true := by decide +kernel
  cases read : Receiver.readBody body with
  | error error =>
      rw [read] at isRead
      cases isRead
  | ok parts => exact ⟨parts.1, parts.2, rfl⟩

/-- The request carries a signature that is recent at its own time for every verifier, and
that the published key verifies. -/
theorem signedRequest_presents (verifier : Verifier) (hasKeys : verifier.hasKeys = true) :
    ∃ signature header key,
      verifier.Presents signedRequest.now.seconds signedRequest.claim signature "k" header ∧
      (KeySet.ofJwks ⟨[publishedKey]⟩).find? "k" = some key ∧
      key.verifies (signedMessage header.timestamp signedRequest.body) header.signature =
        true := by
  obtain ⟨signature, signed, header, parsed, atZero, key, found, verifies⟩ :
      ∃ signature ∈ signedRequest.claim.signature,
        ∃ header ∈ (SignatureHeader.parse signature).toOption, header.timestamp = 0 ∧
          ∃ key ∈ (KeySet.ofJwks ⟨[publishedKey]⟩).find? "k",
            key.verifies (signedMessage header.timestamp signedRequest.body)
              header.signature = true := by decide +kernel
  have isHeader : SignatureHeader.parse signature = .ok header := by
    cases ended : SignatureHeader.parse signature with
    | error reason => simp [ended, Except.toOption] at parsed
    | ok other =>
        rw [ended] at parsed
        exact congrArg Except.ok (Option.mem_some_iff.mp parsed)
  refine ⟨signature, header, key, ⟨hasKeys, signed, rfl, isHeader, ?_⟩, found, verifies⟩
  rw [atZero]
  exact Nat.zero_le _

end Sample

def Service.startedAt (service : Service) (clock : Instant) (network : Network)
    (files : Directory) : World :=
  { service.world network files with clock }

section Starting

variable {settings : Settings} {service : Service} {clock : Instant} {network : Network}
  {files : Directory}

theorem Service.fresh_startedAt (service : Service) (clock : Instant) (network : Network)
    (files : Directory) (marks : Marks) :
    (service.startedAt clock network files).Fresh clock marks where
  reliable := fun _ => rfl
  clock := rfl
  events := rfl
  unmarked := by cases marks <;> rfl

theorem Service.unverified_beyond (skips : settings.verifier.skipVerification = true)
    (beyond : ¬(clock.plus? settings.replay.window).isSome = true) :
    ((endpointOf settings).receiver.receive Sample.request).outcome.run
      (service.startedAt clock network files) = none := by
  obtain ⟨text, fields, readable⟩ := Sample.body_readable
  have fresh := service.fresh_startedAt clock network files .fingerprints
  have skipping : (endpointOf settings).receiver.verifier.skip = true := skips
  apply (endpointOf settings).receiver.receive_beyond Sample.request rfl readable _ fresh beyond
  · exact { keyId := none, timestamp := none, skipped := true }
  · rw [Verifier.verify_outcome_skipped skipping]
    rfl

theorem Service.fetches_first (clock : Instant) (files : Directory)
    (valid : settings.validate = .ok ())
    (checks : settings.verifier.skipVerification = false) (built : build settings = .ok service)
    {key : VerifyingKey}
    (found : (KeySet.ofJwks ⟨[Sample.publishedKey]⟩).find? "k" = some key) :
    (lookUpKey "k").outcome.run (service.startedAt clock Sample.publishing files) =
      some (.ok key,
        (service.startedAt clock Sample.publishing files).fetched ⟨[Sample.publishedKey]⟩) := by
  obtain ⟨_, url, source, web⟩ := source_of_build valid checks built
  have read : (service.startedAt clock Sample.publishing files).keys.read clock "k" =
      .stale none := rfl
  have answered : (service.startedAt clock Sample.publishing files).source.fetch
      Sample.publishing = .ok ⟨[Sample.publishedKey]⟩ := by
    show (service.source.getD default).fetch Sample.publishing = _
    rw [source]
    exact KeySource.fetch_written web (by decide) (fun _ => rfl) _
  obtain ⟨looked, looks⟩ := World.offers_of_published read answered found
  obtain ⟨held, _⟩ | ⟨published, same, _, rfl⟩ := lookUpKey_found looks
  · cases read.symm.trans held
  · cases answered.symm.trans same
    exact looks

/-- With signatures, the signed request fails to mark its nonce or its body. -/
theorem Service.verified_beyond (valid : settings.validate = .ok ())
    (checks : settings.verifier.skipVerification = false) (built : build settings = .ok service)
    (misfit : ¬settings.MarksFit clock) :
    ((endpointOf settings).receiver.receive Sample.signedRequest).outcome.run
      (service.startedAt clock Sample.publishing files) = none := by
  obtain ⟨hasKeys, _⟩ := source_of_build valid checks built
  obtain ⟨signature, header, key, presents, found, verifies⟩ := Sample.signedRequest_presents
    (endpointOf settings).receiver.verifier hasKeys
  obtain ⟨text, fields, readable⟩ := Sample.body_readable
  have looks := fetches_first clock files valid checks built found
  have fresh (marks : Marks) :=
    (service.fresh_startedAt clock Sample.publishing files marks).fetched ⟨[Sample.publishedKey]⟩
  generalize (service.startedAt clock Sample.publishing files).fetched
    ⟨[Sample.publishedKey]⟩ = looked at looks fresh
  have received {middle : World} (checked : ((endpointOf settings).receiver.verifier.checkNonce
      signature "k").outcome.run looked = some (.ok (), middle))
      (stillFresh : middle.Fresh clock .fingerprints)
      (beyond : ¬(clock.plus? settings.replay.window).isSome = true) :
      ((endpointOf settings).receiver.receive Sample.signedRequest).outcome.run
        (service.startedAt clock Sample.publishing files) = none := by
    have examined := Verifier.Examines.signed checks signature "k" header key looked (.ok ())
      presents looks verifies checked rfl
    exact (endpointOf settings).receiver.receive_beyond Sample.signedRequest rfl readable
      examined.run stillFresh beyond
  obtain ⟨unmarking, checked⟩ | ⟨mode, marking, ended⟩ :=
    ((endpointOf settings).receiver.verifier).checkNonce_fresh (fresh .nonces) signature "k"
  · apply received checked (fresh .fingerprints)
    intro window
    refine misfit ⟨window, fun _ once => ?_⟩
    cases unmarking.symm.trans (if_pos once)
  · have atomic : mode = .atomic := by
      cases once : settings.verifier.nonceCheck with
      | true => exact Option.some.inj (marking.symm.trans (if_pos once))
      | false => cases marking.symm.trans (if_neg (by simp [once]))
    have nonce := ended atomic
    split at nonce
    · rename_i within
      obtain ⟨set, checked⟩ := nonce
      apply received checked ((fresh .fingerprints).setMarks set nofun)
      intro window
      exact misfit ⟨window, fun _ _ => within⟩
    · exact (endpointOf settings).receiver.receive_unverified Sample.signedRequest readable
        (Verifier.verify_unchecked checks presents looks verifies nonce)

end Starting

/-- A service that is built from valid settings answers every request, whatever is stored and
whatever the stores refuse, as long as the marks that it sets end within the range of the
clock.  At any instant at which one of them would not, some request to the service as it
starts ends the process. -/
theorem requests_are_answered_iff_marks_fit {settings : Settings}
    (valid : settings.validate = .ok ()) {service : Service}
    (built : Service.build settings = .ok service) :
    (∀ world : World, settings.MarksFit world.clock → ∀ request,
      ∃ result last, (service.endpoint.receiver.receive request).outcome.run world =
        some (result, last)) ∧
    ∀ clock, ¬settings.MarksFit clock → ∃ network request, ∀ files,
      (service.endpoint.receiver.receive request).outcome.run
        (service.startedAt clock network files) = none := by
  obtain ⟨endpoint, _⟩ := Service.endpoint_of_build built
  rw [endpoint]
  refine ⟨?_, ?_⟩
  · intro world fit request
    apply (Receiver.receive_setsMarks _ request).answered
    intro call sets
    have nonceCheck (marks : (Service.endpointOf settings).receiver.verifier.nonces ≠ none) :
        settings.verifier.nonceCheck = true := by
      by_contra unchecked
      exact marks (if_neg unchecked)
    cases call with
    | mark marks key ttl | tryMark marks key ttl =>
        cases marks with
        | fingerprints =>
            cases sets
            exact fit.window
        | nonces =>
            obtain ⟨rfl, checks, marks⟩ := sets
            exact fit.nonces checks (nonceCheck marks)
    | _ => trivial
  · intro clock misfit
    cases checks : settings.verifier.skipVerification with
    | true =>
        have beyond : ¬(clock.plus? settings.replay.window).isSome = true := by
          intro window
          refine misfit ⟨window, ?_⟩
          rw [checks]
          exact nofun
        exact ⟨.unreachable, Sample.request, fun _ => Service.unverified_beyond checks beyond⟩
    | false =>
        exact ⟨Sample.publishing, Sample.signedRequest,
          fun _ => Service.verified_beyond valid checks built misfit⟩

namespace Sample

def defaultSettings : Settings where
  verifier := { jwkSetUrl := some "http://keys.test/set" }

theorem marks_fit_by_default :
    defaultSettings.validate = .ok () ∧ defaultSettings.MarksFit 0 ∧
      ∃ service, Service.build defaultSettings = .ok service ∧
        ∀ world : World, world.clock = 0 → ∃ result last,
          (service.endpoint.receiver.receive signedRequest).outcome.run world =
            some (result, last) := by
  have valid : defaultSettings.validate = .ok () := by decide +kernel
  have fit : defaultSettings.MarksFit 0 := ⟨by decide +kernel, fun _ _ => by decide +kernel⟩
  obtain ⟨service, built⟩ := (Service.build_ok_iff defaultSettings).mpr ⟨by
    rintro url given
    obtain rfl := Option.mem_some_iff.mp given
    exact ⟨_, rfl⟩, nofun, by decide +kernel⟩
  refine ⟨valid, fit, service, built, ?_⟩
  intro world atStart
  obtain ⟨answers, _⟩ := requests_are_answered_iff_marks_fit valid built
  exact answers world (atStart ▸ fit) signedRequest

def boundlessSettings : Settings where
  verifier := { skipVerification := true }
  replay := { windowSecs := 18446744073709551615 }

/-- The settings are valid, and the first request ends the process. -/
theorem longest_window_ends_the_process :
    boundlessSettings.validate = .ok () ∧ ∃ service,
      Service.build boundlessSettings = .ok service ∧
      (service.endpoint.receiver.receive request).outcome.run
        (service.startedAt 0 .unreachable {}) = none := by
  have valid : boundlessSettings.validate = .ok () := by decide +kernel
  have beyond : ¬(Instant.plus? 0 boundlessSettings.replay.window).isSome = true := by
    decide +kernel
  exact ⟨valid, _, rfl, Service.unverified_beyond rfl beyond⟩

end Sample

end WebhookRelay
