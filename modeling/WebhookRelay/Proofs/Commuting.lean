import WebhookRelay.Proofs.Reordering

/-!
# Requests for different events

A request sees little of what is stored: the event of its own event id, whether that event has
a job, and whether its own keys are marked.  In all worlds that look the same to it, a request
does the same: it ends alike and makes the same changes, or it cannot be answered in any of
them.  A request for another event is out of its sight, so two such requests are answered the
same in either order, and their changes can be made in either order.
-/

set_option autoImplicit false

namespace WebhookRelay

/-! ## Calls on stores in memory -/

namespace World.Regular

variable {world : World} {marks : Marks} {key : String}

theorem seen (regular : world.Regular) (marked : world.Marked marks key) :
    world.perform (.seen marks key) = some (.ok true, world) := by
  rw [regular.reliable.seen, (regular.unique marks).contains_iff.mpr marked]

theorem unseen (regular : world.Regular) (unmarked : ¬world.Marked marks key) :
    world.perform (.seen marks key) = some (.ok false, world) := by
  have absent : (world.marks marks).contains world.clock key = false := by
    rw [← Bool.not_eq_true, (regular.unique marks).contains_iff]
    exact unmarked
  rw [regular.reliable.seen, absent]

theorem tryMark_marked (regular : world.Regular) (marked : world.Marked marks key)
    (ttl : Duration) :
    world.perform (.tryMark marks key ttl) = some (.ok false, world.make (.purge marks)) := by
  rw [regular.reliable.tryMark, tryMarkKey, ExpiringSet.insertIfAbsent?_live marked]
  rfl

theorem tryMark_unmarked (regular : world.Regular) (unmarked : ¬world.Marked marks key)
    (ttl : Duration) :
    world.perform (.tryMark marks key ttl) = (world.clock.plus? ttl).map fun expiresAt =>
      (.ok true, world.make (.mark marks key expiresAt)) := by
  rw [regular.reliable.tryMark, tryMarkKey, ExpiringSet.insertIfAbsent?_absent unmarked]
  cases world.clock.plus? ttl <;> rfl

theorem mark (regular : world.Regular) (ttl : Duration) :
    world.perform (.mark marks key ttl) = (world.clock.plus? ttl).map fun expiresAt =>
      (.ok (), world.make (.mark marks key expiresAt)) := by
  rw [perform, regular.reliable.unlessRefused, markKey, ExpiringSet.insert?]
  cases world.clock.plus? ttl <;> rfl

/-- A store that marks in one call purges its marks even where the key is live. -/
def purges (mode : MarkMode) (marks : Marks) : List Change :=
  match mode with
  | .atomic => [.purge marks]
  | .stepwise => []

theorem markIfAbsent_marked (regular : world.Regular) (marked : world.Marked marks key)
    (mode : MarkMode) (ttl : Duration) :
    (markIfAbsent marks mode key ttl).outcome.run world =
      some (.ok false, world.makeAll (purges mode marks)) := by
  rw [markIfAbsent_outcome]
  cases mode with
  | atomic => exact Program.run_call (regular.tryMark_marked marked ttl)
  | stepwise => exact Program.run_call (regular.seen marked)

theorem markIfAbsent_unmarked (regular : world.Regular) (unmarked : ¬world.Marked marks key)
    (mode : MarkMode) (ttl : Duration) :
    (markIfAbsent marks mode key ttl).outcome.run world =
      (world.clock.plus? ttl).map fun expiresAt =>
        (.ok true, world.make (.mark marks key expiresAt)) := by
  rw [markIfAbsent_outcome]
  have tried := regular.tryMark_unmarked unmarked ttl
  have marking : world.perform (.mark marks key ttl) = _ := regular.mark ttl
  cases dated : world.clock.plus? ttl with
  | none =>
      rw [dated] at tried marking
      cases mode with
      | atomic => simp only [Program.run, tried, Option.map_none]
      | stepwise =>
          rw [Program.run_call (regular.unseen unmarked)]
          simp only [Program.run, marking, Option.map_none]
  | some expiresAt =>
      rw [dated] at tried marking
      cases mode with
      | atomic => exact Program.run_call tried
      | stepwise =>
          rw [Program.run_call (regular.unseen unmarked)]
          exact Program.run_call marking

end World.Regular

theorem World.make_date_unknown {world : World} {eventId : String}
    (unknown : ¬world.events.Knows eventId) (time : Timestamp) :
    world.make (.date eventId time) = world := by
  have same : world.events.events.map (fun event =>
      if event.eventId = eventId then EventStore.processedAt time event else event) =
        world.events.events := by
    conv_rhs => rw [← List.map_id world.events.events]
    apply List.map_congr_left
    intro event member
    have different : ¬event.eventId = eventId := by
      intro isEvent
      exact unknown (EventStore.knows_iff.mpr ⟨event, member, isEvent⟩)
    exact if_neg different
  simp only [World.make, same]

/-! ## Runs that make changes -/

namespace Receiver

variable {request : Request} {world : World}

theorem settle_makes (regular : world.Regular) (now : Timestamp) (eventId : String)
    (receipt : Receipt) :
    (settle now eventId receipt).run world =
      some (.ok receipt, world.make (.date eventId now)) := by
  by_cases known : world.events.Knows eventId
  · exact Program.run_call (regular.reliable.markProcessed known now)
  · rw [World.make_date_unknown known]
    exact Program.run_call (regular.reliable.markProcessed_unknown known now)

theorem enqueue_makes (regular : world.Regular) (spare : world.Spare 1) (now : Timestamp)
    (eventId payload : String) :
    (enqueue now eventId payload).outcome.run world =
      some (.ok (world.ids.draw .job).1, world.make (.enqueue now eventId payload)) := by
  have drawn : world.perform (.newId .job) =
      some ((world.ids.draw .job).1, { world with ids := (world.ids.draw .job).2 }) := rfl
  have stillReliable : World.Reliable { world with ids := (world.ids.draw .job).2 } :=
    regular.reliable
  have fresh : world.jobs.find?
      (Job.create (world.ids.draw .job).1 now eventId payload).id = none := spare.next
  rw [enqueue_outcome, Program.run_call drawn, Program.run_call (stillReliable.createJob fresh)]
  rfl

theorem supply_makes (regular : world.Regular) (spare : world.Spare 1) (now : Timestamp)
    (eventId payload : String) (receipt : Uuid → Receipt) :
    (supply now eventId payload receipt).run world =
      some (.ok (receipt (world.ids.draw .job).1),
        world.makeAll [.enqueue now eventId payload, .date eventId now]) := by
  rw [supply, Program.run_andThen (enqueue_makes regular spare now eventId payload)]
  exact settle_makes (regular.make _) now eventId _

theorem turnAway_makes (regular : world.Regular) (request : Request) (error : ReceiveError) :
    (turnAway request error).run world =
      some (.error error, world.make (.record request error.code)) := by
  let drawn : World := { world with ids := (world.ids.draw .audit).2 }
  have drawing : world.perform (.newId .audit) = some ((world.ids.draw .audit).1, drawn) := rfl
  let record := rejection request error.code (world.ids.draw .audit).1
  obtain ⟨trail, created, _, _⟩ := regular.works.create_eq record
  have writing : drawn.perform (.createAudit record) =
      some (.ok (), world.make (.record request error.code)) := by
    have accepted : (world.audit.create record).1 = .ok () := by rw [created]
    rw [← accepted]
    rfl
  have audited : (auditRejection request error.code).outcome.run world =
      some (.ok (), world.make (.record request error.code)) := by
    rw [auditRejection_outcome, Program.run_call drawing]
    exact Program.run_call writing
  exact Program.run_andThen audited

end Receiver

/-! ## What a request does wherever it sees the same -/

/-- To the request the other world is as good as this one. -/
structure World.Double (request : Receiver.Request) (world other : World) : Prop where
  alike : world.Alike request other
  regular : other.Regular
  spare : other.Spare 1

theorem World.Double.findEvent {request : Receiver.Request} {world other : World}
    (double : world.Double request other) {eventId : String} (names : request.Names eventId) :
    other.perform (.findEvent eventId) =
      some (.ok (world.events.find? eventId), other) := by
  rw [double.regular.reliable.findEvent, double.alike.event eventId names]

/-- In all worlds that look to the request like this one, the program cannot be run to its end,
or it makes the same changes in all of them, which are about the request and draw so many job
ids at most, and it ends with the same as far as it is told. -/
def Program.Does {α β : Type} (request : Receiver.Request) (draws : Nat) (told : α → β)
    (program : Program α) (world : World) : Prop :=
  (∀ other, world.Double request other → program.run other = none) ∨
  ∃ changes value, (∀ change ∈ changes, change.Within request) ∧
    Change.drawsAll changes ≤ draws ∧
    ∀ other, world.Double request other → ∃ result,
      program.run other = some (result, other.makeAll changes) ∧ told result = value

namespace Program.Does

variable {α β γ : Type} {request : Receiver.Request} {draws : Nat} {told : α → β}
  {world : World}

theorem done (value : α) : (Program.done value).Does request draws told world :=
  Or.inr ⟨[], told value, List.forall_mem_nil _, Nat.zero_le _, fun _ _ => ⟨value, rfl, rfl⟩⟩

theorem of_run {program : Program α} (changes : List Change) (value : β)
    (within : ∀ change ∈ changes, change.Within request)
    (drawn : Change.drawsAll changes ≤ draws)
    (runs : ∀ other, world.Double request other → ∃ result,
      program.run other = some (result, other.makeAll changes) ∧ told result = value) :
    program.Does request draws told world :=
  Or.inr ⟨changes, value, within, drawn, runs⟩

/-- A call that changes nothing and leads on to the same program, whatever its answer. -/
theorem leads {call : Call} {next : call.Answer → Program α} {program : Program α}
    (leads : ∀ other, world.Double request other → ∃ answer,
      other.perform call = some (answer, other) ∧ next answer = program)
    (rest : program.Does request draws told world) :
    (Program.call call next).Does request draws told world := by
  have same (other : World) (double : world.Double request other) :
      (Program.call call next).run other = program.run other := by
    obtain ⟨answer, performed, rfl⟩ := leads other double
    exact Program.run_call performed
  obtain stuck | ⟨changes, value, within, drawn, runs⟩ := rest
  · refine Or.inl fun other double => ?_
    rw [same other double]
    exact stuck other double
  · refine .of_run changes value within drawn fun other double => ?_
    rw [same other double]
    exact runs other double

theorem call {call : Call} {answer : call.Answer} {next : call.Answer → Program α}
    (answers : ∀ other, world.Double request other → other.perform call = some (answer, other))
    (rest : (next answer).Does request draws told world) :
    (Program.call call next).Does request draws told world :=
  leads (fun other double => ⟨answer, answers other double, rfl⟩) rest

/-- One program after another that draws no job ids. -/
theorem bind {first : Program γ} {next : γ → Program α}
    (before : first.Does request 0 id world)
    (rest : ∀ value world, (next value).Does request draws told world) :
    (first.bind next).Does request draws told world := by
  obtain stuck | ⟨changes, value, within, none, runs⟩ := before
  · refine Or.inl fun other double => ?_
    rw [Program.run_bind, stuck other double]
    rfl
  · have goesOn (other : World) (double : world.Double request other) :
        (first.bind next).run other = (next value).run (other.makeAll changes) ∧
          (world.makeAll changes).Double request (other.makeAll changes) := by
      obtain ⟨result, run, rfl⟩ := runs other double
      obtain ⟨alike, regular, spare⟩ := double
      have left : other.Spare (Change.drawsAll changes + 1) := spare.fewer (by omega)
      refine ⟨?_, alike.makeAll changes, regular.makeAll changes, left.makeAll⟩
      rw [Program.run_bind, run]
      rfl
    obtain stuck | ⟨more, ended, alsoWithin, drawn, last⟩ := rest value (world.makeAll changes)
    · refine Or.inl fun other double => ?_
      obtain ⟨same, also⟩ := goesOn other double
      rw [same]
      exact stuck _ also
    · refine .of_run (changes ++ more) ended ?_ ?_ fun other double => ?_
      · intro change member
        rcases List.mem_append.mp member with early | late
        · exact within change early
        · exact alsoWithin change late
      · rw [Change.drawsAll_append]
        omega
      · obtain ⟨same, also⟩ := goesOn other double
        rw [same, World.makeAll_append]
        exact last _ also

theorem andThen {ε δ : Type} {first : Program (Except ε γ)} {next : γ → Program (Except ε δ)}
    {told : Except ε δ → β} (before : first.Does request 0 id world)
    (rest : ∀ value world, (next value).Does request draws told world) :
    (first.andThen next).Does request draws told world := by
  apply before.bind
  intro value middle
  cases value with
  | ok value => exact rest value middle
  | error error => exact .done _

end Program.Does

/-! ## Verifying -/

/-- The cached keys are not expired, and the key that the request claims is among them. -/
def World.HasKeyOf (world : World) (request : Receiver.Request) : Prop :=
  ∀ keyId, request.claim.keyId = some keyId → ∃ entry, world.keys.cached = some entry ∧
    world.keys.isExpired world.clock entry = false ∧ (entry.keys.find? keyId).isSome = true

theorem World.HasKeyOf.read {world : World} {request : Receiver.Request}
    (hasKey : world.HasKeyOf request) {keyId : String}
    (claimed : request.claim.keyId = some keyId) :
    ∃ key, world.keys.read world.clock keyId = .found key := by
  obtain ⟨entry, cached, current, published⟩ := hasKey keyId claimed
  obtain ⟨key, found⟩ := Option.isSome_iff_exists.mp published
  refine ⟨key, ?_⟩
  simp [KeyCache.read, cached, current, found]

section Marking

variable {request : Receiver.Request} {marks : Marks} {key : String}

theorem markIfAbsent_does (owns : request.Owns marks key) (mode : MarkMode) (ttl : Duration)
    (world : World) :
    (markIfAbsent marks mode key ttl).outcome.Does request 0 id world := by
  by_cases marked : world.Marked marks key
  · apply Program.Does.of_run (World.Regular.purges mode marks) (.ok false)
    · intro change member
      cases mode with
      | atomic =>
          rw [List.mem_singleton.mp member]
          trivial
      | stepwise => cases member
    · cases mode <;> exact Nat.le_refl 0
    · intro other double
      have also : other.Marked marks key := (double.alike.marked marks key owns).mpr marked
      exact ⟨.ok false, double.regular.markIfAbsent_marked also mode ttl, rfl⟩
  · have runs (other : World) (double : world.Double request other) :
        (markIfAbsent marks mode key ttl).outcome.run other =
          (world.clock.plus? ttl).map fun expiresAt =>
            (.ok true, other.make (.mark marks key expiresAt)) := by
      rw [← double.alike.clock]
      apply double.regular.markIfAbsent_unmarked
      rw [double.alike.marked marks key owns]
      exact marked
    cases dated : world.clock.plus? ttl with
    | none =>
        refine Or.inl fun other double => ?_
        rw [runs other double, dated]
        rfl
    | some expiresAt =>
        apply Program.Does.of_run [.mark marks key expiresAt] (.ok true)
        · intro change member
          rw [List.mem_singleton.mp member]
          exact owns
        · exact Nat.le_refl 0
        · intro other double
          rw [runs other double, dated]
          exact ⟨.ok true, rfl, rfl⟩

end Marking

namespace Verifier

variable {request : Receiver.Request}

theorem checkNonce_does (verifier : Verifier) {signature keyId : String}
    (owns : request.Owns .nonces (signatureNonce signature keyId)) (world : World) :
    (verifier.checkNonce signature keyId).outcome.Does request 0 id world := by
  rw [checkNonce_outcome]
  cases verifier.nonces with
  | none => exact .done _
  | some mode =>
      apply (markIfAbsent_does owns mode verifier.nonceTtl world).bind
      intro marked middle
      match marked with
      | .error error => exact .done _
      | .ok true => exact .done _
      | .ok false => exact .done _

theorem verify_does (verifier : Verifier) {world : World} (hasKey : world.HasKeyOf request) :
    (verifier.verify request.now.seconds request.claim request.body).outcome.Does request 0 id
      world := by
  cases checks : verifier.skip with
  | true =>
      rw [verify_outcome_skipped checks]
      exact .done _
  | false =>
      by_cases presented : ∃ signature keyId header,
        verifier.Presents request.now.seconds request.claim signature keyId header
      · obtain ⟨signature, keyId, header, presents⟩ := presented
        obtain ⟨key, reading⟩ := hasKey.read presents.keyed
        have owns : request.Owns .nonces (signatureNonce signature keyId) :=
          ⟨signature, keyId, presents.signed, presents.keyed, rfl⟩
        have answers (other : World) (double : world.Double request other) :
            other.perform (.readKeys keyId) = some (KeyReading.found key, other) := by
          show some (other.keys.read other.clock keyId, other) = _
          rw [double.alike.keys, double.alike.clock, reading]
        have looks : (lookUpKey keyId).outcome.Does request 0 id world := by
          rw [lookUpKey_outcome]
          exact Program.Does.call answers (.done _)
        rw [verify_outcome checks presents]
        apply looks.andThen
        intro key middle
        split
        · apply (verifier.checkNonce_does owns middle).andThen
          intro checked last
          exact .done _
        · exact .done _
      · have unpresented (signature keyId : String) (header : SignatureHeader) :
            ¬verifier.Presents request.now.seconds request.claim signature keyId header :=
          fun presents => presented ⟨signature, keyId, header, presents⟩
        obtain ⟨error, _, ended⟩ := verify_outcome_unpresented checks unpresented request.body
        rw [ended]
        exact .done _

end Verifier

/-! ## Receiving -/

def Receipt.unnumbered : Receipt → Receipt
  | .accepted eventId _ => .accepted eventId default
  | .duplicate eventId => .duplicate eventId

namespace Receiver

variable {request : Request}

def told (result : Except ReceiveError Receipt) : Except ReceiveError Receipt :=
  result.map Receipt.unnumbered

theorem turnAway_does (error : ReceiveError) (world : World) :
    (turnAway request error).Does request 1 told world := by
  apply Program.Does.of_run [.record request error.code] (.error error)
  · intro change member
    rw [List.mem_singleton.mp member]
    trivial
  · exact Nat.zero_le 1
  · intro other double
    exact ⟨_, turnAway_makes double.regular request error, rfl⟩

theorem settle_does {eventId : String} (names : request.Names eventId) (receipt : Receipt)
    (world : World) : (settle request.now eventId receipt).Does request 1 told world := by
  apply Program.Does.of_run [.date eventId request.now] (told (.ok receipt))
  · intro change member
    rw [List.mem_singleton.mp member]
    exact names
  · exact Nat.zero_le 1
  · intro other double
    exact ⟨_, settle_makes double.regular request.now eventId receipt, rfl⟩

theorem supply_within {eventId : String} (names : request.Names eventId) (payload : String) :
    ∀ change ∈ [Change.enqueue request.now eventId payload, .date eventId request.now],
      change.Within request := by
  intro change member
  rcases List.mem_cons.mp member with rfl | last
  · exact names
  · rw [List.mem_singleton.mp last]
    exact names

theorem supply_does {eventId : String} (names : request.Names eventId) (payload : String)
    (receipt : Uuid → Receipt)
    (alike : ∀ id, (receipt id).unnumbered = (receipt default).unnumbered) (world : World) :
    (supply request.now eventId payload receipt).Does request 1 told world := by
  apply Program.Does.of_run _ (told (.ok (receipt default))) (supply_within names payload)
  · exact Nat.le_refl 1
  · intro other double
    have runs := supply_makes double.regular double.spare request.now eventId payload receipt
    exact ⟨_, runs, congrArg Except.ok (alike _)⟩

theorem names_known {eventId : String} (names : request.Names eventId) {world : World}
    {known : Event} (found : world.events.find? eventId = some known) :
    request.Names known.eventId := by
  rw [(EventStore.find?_eq_some found).2]
  exact names

theorem acknowledge_does {known : Event} (names : request.Names known.eventId)
    (payload : String) (world : World) :
    (acknowledge request.now known payload).outcome.Does request 1 told world := by
  cases status : known.status with
  | processed =>
      rw [acknowledge_outcome_processed status]
      exact .done _
  | received =>
      rw [acknowledge_outcome_received status]
      by_cases hasJob : world.jobs.HasJob known.eventId
      · apply Program.Does.leads _ (settle_does names (.duplicate known.eventId) world)
        intro other double
        have also := (double.alike.jobs known.eventId names).mpr hasJob
        refine ⟨_, double.regular.reliable.jobsByEvent known.eventId, ?_⟩
        cases found : other.jobs.byEventId known.eventId with
        | nil => exact absurd also (JobStore.byEventId_eq_nil.mp found)
        | cons job rest => rfl
      · apply Program.Does.leads _ (supply_does names payload (fun _ => .duplicate known.eventId)
          (fun _ => rfl) world)
        intro other double
        have none : ¬other.jobs.HasJob known.eventId := by
          rw [double.alike.jobs known.eventId names]
          exact hasJob
        refine ⟨_, double.regular.reliable.jobsByEvent known.eventId, ?_⟩
        rw [JobStore.byEventId_eq_nil.mpr none]

theorem persist_does {event : Event} (names : request.Names event.eventId) (payload : String)
    (world : World) :
    (persist request.now event payload).outcome.Does request 1 told world := by
  rw [persist_outcome]
  cases found : world.events.find? event.eventId with
  | some known =>
      have answers (other : World) (double : world.Double request other) :
          other.perform (.createEvent event) =
            some (.error (.duplicate event.eventId), other) := by
        have also := (double.alike.event event.eventId names).trans found
        exact double.regular.reliable.createEvent_known also
      apply Program.Does.call answers
      apply Program.Does.call fun other double => double.findEvent names
      rw [found]
      exact acknowledge_does (names_known names found) payload world
  | none =>
      apply Program.Does.of_run (.store event :: _) (told (.ok (.accepted event.eventId default)))
      · intro change member
        rcases List.mem_cons.mp member with rfl | later
        · exact names
        · exact supply_within names payload change later
      · exact Nat.le_refl 1
      · intro other double
        have absent := (double.alike.event event.eventId names).trans found
        have created := double.regular.reliable.createEvent absent
        have left : other.Spare ((Change.store event).draws + 1) := double.spare
        have runs := supply_makes (double.regular.make (.store event)) left.make request.now
          event.eventId payload fun id => .accepted event.eventId id
        exact ⟨_, (Program.run_call created).trans runs, rfl⟩

theorem reject_does (error : VerificationError) (world : World) :
    (reject request error).outcome.Does request 1 told world := by
  by_cases replayed : error = .signatureReplayed
  · subst replayed
    rw [reject_outcome_replayed, knownEvent_outcome]
    cases known : knownFields? request.body with
    | none => exact turnAway_does (.verification .signatureReplayed) world
    | some read =>
        obtain ⟨text, fields⟩ := read
        have names : request.Names fields.eventId :=
          names_iff.mpr ⟨text, fields, readBody_of_knownFields known, rfl⟩
        apply Program.Does.call fun other double => double.findEvent names
        cases found : world.events.find? fields.eventId with
        | none => exact turnAway_does (.verification .signatureReplayed) world
        | some event => exact acknowledge_does (names_known names found) text world
  · rw [reject_outcome_other replayed]
    exact turnAway_does (.verification error) world

theorem takeIn_does (receiver : Receiver) (world : World) :
    (receiver.takeIn request).outcome.Does request 1 told world := by
  cases readable : readBody request.body with
  | error error =>
      rw [takeIn_outcome_unreadable readable]
      exact .done _
  | ok read =>
      obtain ⟨text, fields⟩ := read
      have names : request.Names fields.eventId := names_iff.mpr ⟨text, fields, readable, rfl⟩
      rw [takeIn_outcome readable]
      apply Program.Does.call fun other double => double.findEvent names
      cases found : world.events.find? fields.eventId with
      | some known => exact acknowledge_does (names_known names found) text world
      | none =>
          have owns : request.Owns .fingerprints (bodyFingerprint request.body) := rfl
          apply (markIfAbsent_does owns receiver.replay.mode receiver.replay.window world).bind
          intro marked middle
          match marked with
          | .error error => exact .done _
          | .ok true =>
            have isNamed : request.Names (newEvent request fields).eventId := names
            exact persist_does isNamed text middle
          | .ok false => exact turnAway_does .replayDetected middle

theorem receive_does (receiver : Receiver) {world : World} (hasKey : world.HasKeyOf request) :
    (receiver.receive request).outcome.Does request 1 told world := by
  by_cases empty : request.body = []
  · rw [receive_outcome_empty empty]
    exact .done _
  · rw [receive_outcome empty]
    apply (receiver.verifier.verify_does hasKey).bind
    intro verified middle
    cases verified with
    | error error => exact reject_does error middle
    | ok verified => exact takeIn_does receiver middle

end Receiver

/-! ## Either order -/

theorem Program.runAll_pair {α : Type} (first second : Program α) (world : World) :
    Program.runAll [first, second] world = (first.run world).bind fun ended =>
      (second.run ended.2).map fun last => ([ended.1, last.1], last.2) := by
  simp only [Program.runAll, Option.bind_eq_bind, Option.pure_def]
  cases first.run world with
  | none => rfl
  | some ended =>
      simp only [Option.bind_some]
      cases second.run ended.2 <;> rfl

/-- Two requests are told the same in the one order as in the other, and what is left is the
same. -/
def Receiver.EndAlike (one other : List (Except ReceiveError Receipt) × World) : Prop :=
  one.1.map told = (other.1.map told).reverse ∧ one.2.SameUpToIds other.2

namespace World

variable {request one other : Receiver.Request} {world : World}

/-- What another request has done is out of sight, if it leaves enough job ids. -/
theorem double_makeAll (regular : world.Regular) (spare : world.Spare 2)
    (apart : other.Apart request) {changes : List Change}
    (within : ∀ change ∈ changes, change.Within other) (drawn : Change.drawsAll changes ≤ 1) :
    world.Double request (world.makeAll changes) where
  alike := alike_makeAll apart within
  regular := regular.makeAll changes
  spare := by
    have left : world.Spare (Change.drawsAll changes + 1) := spare.fewer (by omega)
    exact left.makeAll

/-- Programs that do what two requests for different events see fit can be run in either
order. -/
theorem runAll_swap (regular : world.Regular) (spare : world.Spare 2) (apart : one.Apart other)
    {first second : Program (Except ReceiveError Receipt)}
    (does : first.Does one 1 Receiver.told world)
    (otherDoes : second.Does other 1 Receiver.told world) :
    Option.Rel Receiver.EndAlike (Program.runAll [first, second] world)
      (Program.runAll [second, first] world) := by
  have left : world.Spare 1 := spare.fewer (by omega)
  have itself (request : Receiver.Request) : world.Double request world :=
    ⟨.refl request world, regular, left⟩
  rw [Program.runAll_pair, Program.runAll_pair]
  obtain stuck | ⟨changes, value, within, drawn, runs⟩ := does
  · obtain alsoStuck | ⟨more, late, alsoWithin, alsoDrawn, alsoRuns⟩ := otherDoes
    · rw [stuck world (itself one), alsoStuck world (itself other)]
      exact .none
    · obtain ⟨result, run, _⟩ := alsoRuns world (itself other)
      have unseen := double_makeAll regular spare apart.symm alsoWithin alsoDrawn
      rw [stuck world (itself one), run, Option.bind_some, stuck _ unseen]
      exact .none
  · have unseen := double_makeAll regular spare apart within drawn
    obtain ⟨result, run, isTold⟩ := runs world (itself one)
    obtain alsoStuck | ⟨more, late, alsoWithin, alsoDrawn, alsoRuns⟩ := otherDoes
    · rw [run, Option.bind_some, alsoStuck world (itself other), alsoStuck _ unseen]
      exact .none
    · have alsoUnseen := double_makeAll regular spare apart.symm alsoWithin alsoDrawn
      obtain ⟨alsoResult, alsoRun, alsoTold⟩ := alsoRuns world (itself other)
      obtain ⟨later, laterRun, laterTold⟩ := runs _ alsoUnseen
      obtain ⟨alsoLater, alsoLaterRun, alsoLaterTold⟩ := alsoRuns _ unseen
      simp only [run, alsoRun, Option.bind_some, laterRun, alsoLaterRun, Option.map_some]
      refine .some ⟨?_, makeAll_swap regular apart within alsoWithin⟩
      simp only [List.map_cons, List.map_nil, List.reverse_cons, List.reverse_nil,
        List.nil_append, List.cons_append]
      rw [isTold, alsoLaterTold, laterTold, alsoTold]

end World

theorem Receiver.runAll_answered {receiver : Receiver} {world : World}
    (inRange : ∀ marks, world.CanMark (receiver.lifetime marks)) (one other : Request) :
    ∃ results last, Program.runAll [(receiver.receive one).outcome,
      (receiver.receive other).outcome] world = some (results, last) := by
  obtain ⟨first, middle, run⟩ := receiver.answered inRange one
  have clock : middle.clock = world.clock := Program.run_clock run
  have stillInRange (marks : Marks) : middle.CanMark (receiver.lifetime marks) := by
    rw [World.CanMark, clock]
    exact inRange marks
  obtain ⟨second, last, alsoRun⟩ := receiver.answered stillInRange other
  refine ⟨[first, second], last, ?_⟩
  rw [Program.runAll_pair, run, Option.bind_some, alsoRun]
  rfl

/-- Two requests for different events, with different nonces and different digests of their
bodies, come to stores in memory.  These were empty at first, and the pipeline may have done
anything with them since.  The keys that the requests claim are in the cache and not expired,
and the next two job ids are new.  Either order of handling the requests at one instant tells
each of them the same, up to the id of its job, and leaves the same events, the same jobs up to
their ids, the same live fingerprints and nonces and the same audit records up to their ids;
if one order ends the process, so does the other.  Neither does where the marks that the
receiver sets end within the range of the clock. -/
theorem requests_for_different_events_commute (pipeline : Pipeline) {start : World}
    (regular : start.Regular) {moves : List Move} (mild : ∀ next ∈ moves, next.Mild)
    {scene : Scene} (played : (Scene.opening start).play pipeline moves = some scene)
    (spare : scene.world.Spare 2) {one other : Receiver.Request} (apart : one.Apart other)
    (hasKey : scene.world.HasKeyOf one) (otherHasKey : scene.world.HasKeyOf other) :
    Option.Rel Receiver.EndAlike
      (Program.runAll [(pipeline.receiver.receive one).outcome,
        (pipeline.receiver.receive other).outcome] scene.world)
      (Program.runAll [(pipeline.receiver.receive other).outcome,
        (pipeline.receiver.receive one).outcome] scene.world) ∧
    ((∀ marks, scene.world.CanMark (pipeline.receiver.lifetime marks)) →
      ∃ results last, Program.runAll [(pipeline.receiver.receive one).outcome,
        (pipeline.receiver.receive other).outcome] scene.world = some (results, last)) := by
  have stillRegular := regular.play mild played
  have does := pipeline.receiver.receive_does hasKey
  have otherDoes := pipeline.receiver.receive_does otherHasKey
  refine ⟨World.runAll_swap stillRegular spare apart does otherDoes, ?_⟩
  intro inRange
  exact Receiver.runAll_answered inRange one other

namespace Sample

/-- A request for another event, which claims a key and lacks a signature. -/
def unsignedRequest : Receiver.Request where
  now := ⟨1, 0⟩
  claim := { keyId := some "k" }
  body := Text.utf8 "\x7b\"event_id\":\"f\",\"order\":\x7b\"id\":2\x7d\x7d"

theorem names_read {request : Receiver.Request} {eventId named : String}
    (read : (Receiver.readBody request.body).toOption.map (fun read => read.2.eventId) =
      some eventId) (names : request.Names named) : named = eventId := by
  obtain ⟨text, fields, readable, rfl⟩ := Receiver.names_iff.mp names
  rw [readable] at read
  exact Option.some.inj read

theorem signed_unsigned_apart : signedRequest.Apart unsignedRequest where
  events eventId names otherNames := by
    have one : (Receiver.readBody signedRequest.body).toOption.map
        (fun read => read.2.eventId) = some "e" := by decide +kernel
    have other : (Receiver.readBody unsignedRequest.body).toOption.map
        (fun read => read.2.eventId) = some "f" := by decide +kernel
    have same := (names_read one names).symm.trans (names_read other otherNames)
    exact absurd same (by decide)
  keys marks key owns otherOwns := by
    cases marks with
    | fingerprints =>
        have different : bodyFingerprint signedRequest.body ≠
            bodyFingerprint unsignedRequest.body := by decide +kernel
        exact different (owns.symm.trans otherOwns)
    | nonces =>
        obtain ⟨signature, keyId, signed, _⟩ := otherOwns
        cases signed

set_option maxRecDepth 100000 in
/-- One request comes again after its event was stored, the other one is turned away. -/
theorem signed_and_unsigned_requests_commute :
    ∃ scene, (Scene.opening { source := .held ⟨[publishedKey]⟩ false }).play {} receiving =
        some scene ∧
      Option.Rel Receiver.EndAlike
        (Program.runAll [(Receiver.receive {} signedRequest).outcome,
          (Receiver.receive {} unsignedRequest).outcome] scene.world)
        (Program.runAll [(Receiver.receive {} unsignedRequest).outcome,
          (Receiver.receive {} signedRequest).outcome] scene.world) ∧
      ∃ results last, Program.runAll [(Receiver.receive {} signedRequest).outcome,
        (Receiver.receive {} unsignedRequest).outcome] scene.world = some (results, last) := by
  obtain ⟨scene, played, spare, start, entry, cached, current, published⟩ :
      ∃ scene ∈ (Scene.opening { source := .held ⟨[publishedKey]⟩ false }).play {} receiving,
        scene.world.Spare 2 ∧ scene.world.clock = 0 ∧
          ∃ entry ∈ scene.world.keys.cached,
            scene.world.keys.isExpired scene.world.clock entry = false ∧
              (entry.keys.find? "k").isSome = true := by decide +kernel
  have regular : World.Regular { source := .held ⟨[publishedKey]⟩ false } :=
    .of_empty (fun _ => rfl) ⟨{}, rfl, List.forall_mem_nil _⟩ fun marks => by cases marks <;> rfl
  have mild : ∀ next ∈ receiving, next.Mild := by simp [receiving, Move.Mild]
  have hasKey : scene.world.HasKeyOf signedRequest := by
    intro keyId claimed
    cases claimed
    exact ⟨entry, cached, current, published⟩
  have otherHasKey : scene.world.HasKeyOf unsignedRequest := by
    intro keyId claimed
    cases claimed
    exact ⟨entry, cached, current, published⟩
  obtain ⟨alike, answered⟩ := requests_for_different_events_commute {} regular mild played spare
    signed_unsigned_apart hasKey otherHasKey
  refine ⟨scene, played, alike, answered fun marks => ?_⟩
  rw [World.CanMark, start]
  cases marks <;> decide +kernel

end Sample

end WebhookRelay
