import WebhookRelay.Proofs.Authenticity
import WebhookRelay.Proofs.Sequence
import WebhookRelay.Proofs.Unhindered

/-!
# Making up for what was left undone

Where a call was refused, an event may be stored without its job or stay undated.  The
next authentic request for it that meets no refusal creates the job unless it is there,
dates the event, and is answered as a duplicate.  With what requests and passes in turn
preserve, every event then has exactly one job.
-/

set_option autoImplicit false

namespace WebhookRelay

/-! ## What verifying leaves alone -/

namespace World

variable {world after : World}

def acknowledgeSites : List Site :=
  [.jobsByEvent, .createJob, .markProcessed]

def requestSites : List Site :=
  Marks.nonces.sites ++ .findEvent :: acknowledgeSites

/-- Nothing has changed that storing an event or a job depends on. -/
structure Untouched (before after : World) : Prop where
  stores : before.SameStores after
  ids : after.ids = before.ids
  plans : ∀ site ∈ Site.findEvent :: acknowledgeSites,
    after.refusals site = before.refusals site

theorem Untouched.refl (world : World) : world.Untouched world :=
  ⟨.refl world, rfl, fun _ _ => rfl⟩

theorem Untouched.trans {first second third : World} (before : first.Untouched second)
    (after : second.Untouched third) : first.Untouched third :=
  ⟨before.stores.trans after.stores, after.ids.trans before.ids,
    fun site member => (after.plans site member).trans (before.plans site member)⟩

theorem untouched_of_checks {request : Call} (checks : request.checks = true)
    {answer : request.Answer} (performed : world.perform request = some (answer, after)) :
    world.Untouched after where
  stores := perform_sameStores (Call.writes_of_aside (Call.aside_of_checks checks)) performed
  ids := by
    refine perform_ids performed fun kind drawn => ?_
    subst drawn
    cases checks
  plans site member := by
    refine perform_refusals_other performed fun own => ?_
    cases request with
    | seen | mark | tryMark =>
        cases own
        simp [acknowledgeSites] at member
    | readKeys | refreshKeys => cases own
    | _ => cases checks

end World

theorem Program.Checks.untouched {α : Type} {program : Program α} (checks : program.Checks)
    {world after : World} {value : α} (run : program.run world = some (value, after)) :
    world.Untouched after := by
  induction program generalizing world with
  | done result =>
      cases run
      exact .refl _
  | call request next ih =>
      obtain ⟨answer, middle, performed, run⟩ := Program.run_call_eq_some.mp run
      have first := World.untouched_of_checks checks.1 performed
      exact first.trans (ih answer (checks.2 answer) run)

/-! ## The repair -/

namespace Receiver

structure Ready (world : World) : Prop where
  clear : world.Clear World.acknowledgeSites
  fresh : world.jobs.find? (world.ids.draw .job).1 = none

structure Repaired (known : Event) (now : Timestamp) (world : World) : Prop where
  dated : EventStore.processedAt now known ∈ world.events.events
  hasJob : world.jobs.HasJob known.eventId

theorem settle_run {world : World} {known : Event} (now : Timestamp) (receipt : Receipt)
    (member : known ∈ world.events.events) (through : world.LetsThrough .markProcessed)
    (hasJob : world.jobs.HasJob known.eventId) :
    ∃ final, (settle now known.eventId receipt).run world = some (.ok receipt, final) ∧
      Repaired known now final := by
  have isKnown : world.events.Knows known.eventId :=
    EventStore.knows_iff.mpr ⟨known, member, rfl⟩
  obtain ⟨final, performed⟩ := World.markProcessed_through through isKnown now
  obtain ⟨jobs, _, ⟨_, impossible, _⟩ | ⟨_, _, events⟩⟩ :=
    World.perform_markProcessed performed
  · cases impossible
  · refine ⟨final, Program.run_call performed, ?_, ?_⟩
    · rw [events]
      exact EventStore.mem_marked.mpr (Or.inr ⟨known, member, rfl, rfl⟩)
    · rw [jobs]
      exact hasJob

theorem enqueue_run {world : World} (now : Timestamp) (eventId payload : String)
    (through : world.LetsThrough .createJob)
    (fresh : world.jobs.find? (world.ids.draw .job).1 = none) :
    ∃ id after, (enqueue now eventId payload).outcome.run world = some (.ok id, after) ∧
      after.events = world.events ∧ after.jobs.HasJob eventId ∧
      ∀ site, site ≠ .createJob → after.refusals site = world.refusals site := by
  rw [enqueue_outcome]
  have drawn : world.perform (.newId .job) =
      some ((world.ids.draw .job).1, { world with ids := (world.ids.draw .job).2 }) := rfl
  have stillThrough : World.LetsThrough
      { world with ids := (world.ids.draw .job).2 } .createJob := through.mono rfl
  have isFresh : world.jobs.find?
      (Job.create (world.ids.draw .job).1 now eventId payload).id = none := fresh
  obtain ⟨after, performed⟩ := World.createJob_through stillThrough isFresh
  obtain ⟨events, _, ⟨_, impossible, _⟩ | ⟨_, _, jobs⟩⟩ := World.perform_createJob performed
  · cases impossible
  · refine ⟨(world.ids.draw .job).1, after, ?_, events, ?_, ?_⟩
    · rw [Program.run_call drawn, Program.run_call performed]
      rfl
    · refine ⟨.create (world.ids.draw .job).1 now eventId payload, ?_, rfl⟩
      rw [jobs]
      exact List.mem_append_right _ List.mem_cons_self
    · intro site other
      exact World.perform_refusals_other performed fun same =>
        other (Option.some.inj same).symm

/-- From a received event, with or without a job, to a dated one with its job. -/
theorem acknowledge_run {world : World} {known : Event}
    (now : Timestamp) (payload : String) (member : known ∈ world.events.events)
    (received : known.status = .received) (ready : Ready world) :
    ∃ final, (acknowledge now known payload).outcome.run world =
        some (.ok (.duplicate known.eventId), final) ∧ Repaired known now final := by
  rw [acknowledge_outcome_received received]
  obtain ⟨looked, performed⟩ :=
    World.jobsByEvent_through (ready.clear .jobsByEvent (by decide)) known.eventId
  obtain ⟨events, jobs, _⟩ := World.perform_sameStores rfl performed
  have ids : looked.ids = world.ids := World.perform_ids performed fun _ => nofun
  have stillMember : known ∈ looked.events.events := events ▸ member
  -- The look-up has used up its own entry, so it says nothing about a second look-up.
  have clear : looked.Clear [.createJob, .markProcessed] :=
    (ready.clear.subset (by decide)).performed performed (by simp [Call.site?])
  have marks : looked.LetsThrough .markProcessed := clear .markProcessed (by decide)
  rw [Program.run_call performed]
  cases found : world.jobs.byEventId known.eventId with
  | cons job rest =>
      have hasJob : looked.jobs.HasJob known.eventId := by
        rw [jobs]
        exact JobStore.hasJob_of_byEventId found
      exact settle_run now _ stillMember marks hasJob
  | nil =>
      have fresh : looked.jobs.find? (looked.ids.draw .job).1 = none := by
        rw [jobs, ids]
        exact ready.fresh
      obtain ⟨id, after, enqueued, sameEvents, hasJob, plans⟩ :=
        enqueue_run now known.eventId payload (clear .createJob (by decide)) fresh
      obtain ⟨final, settled, repaired⟩ := settle_run now (.duplicate known.eventId)
        (sameEvents ▸ stillMember) (marks.mono (plans .markProcessed nofun)) hasJob
      exact ⟨final, (Program.run_andThen enqueued).trans settled, repaired⟩

theorem knownFields_of_readBody {body : Bytes} {text : String} {fields : EventFields}
    (readable : readBody body = .ok (text, fields)) :
    knownFields? body = some (text, fields) := by
  unfold readBody at readable
  split at readable
  · cases readable
  · rename_i read isText
    split at readable
    · cases readable
    · rename_i value isJson
      split at readable
      · cases readable
      · rename_i found hasFields
        cases readable
        simp only [knownFields?, isText, isJson, hasFields, bind, Option.bind_some]
        rfl

theorem nonempty_of_readBody {body : Bytes} {text : String} {fields : EventFields}
    (readable : readBody body = .ok (text, fields)) : body ≠ [] := by
  rintro rfl
  have unreadable : readBody [] = .error .invalidBody := by decide +kernel
  rw [unreadable] at readable
  cases readable

/-- An authentic request is about to be handled, and no call that it makes will be refused. -/
structure Unhindered (receiver : Receiver) (request : Request) (world : World) : Prop where
  trusts : receiver.verifier.Trusts world request.now.seconds request.claim request.body
  clear : world.Clear World.requestSites
  fresh : world.jobs.find? (world.ids.draw .job).1 = none
  inRange : receiver.verifier.nonces ≠ none → world.CanMark receiver.verifier.nonceTtl

theorem receive_run_verified {receiver : Receiver} {world verified : World}
    {request : Request} {text : String} {fields : EventFields}
    {verdict : Except VerificationError Verified}
    (readable : readBody request.body = .ok (text, fields))
    (verifies : (receiver.verifier.verify request.now.seconds request.claim
      request.body).outcome.run world = some (verdict, verified))
    (authentic : Verifier.IsAuthentic verdict) {known : Event} {looked : World}
    (found : verified.perform (.findEvent fields.eventId) = some (.ok (some known), looked)) :
    (receiver.receive request).outcome.run world =
      (acknowledge request.now known text).outcome.run looked := by
  rw [receive_outcome (nonempty_of_readBody readable), Program.run_bind, verifies]
  cases verdict with
  | ok value =>
      show (receiver.takeIn request).outcome.run verified = _
      rw [takeIn_outcome readable, Program.run_call found]
  -- Reading the body again finds the fields that a verified request would have had.
  | error error =>
      obtain rfl : error = .signatureReplayed := authentic
      show (reject request .signatureReplayed).outcome.run verified = _
      rw [reject_outcome_replayed, knownEvent_outcome, knownFields_of_readBody readable]
      show (Program.bind _ _).run verified = _
      rw [Program.run_bind, Program.run_call found]
      rfl

/-- An authentic request for a received event, handled without refusals, is answered as a
duplicate and makes up for what was left undone. -/
theorem receive_run {receiver : Receiver} {world : World} {request : Request}
    {text : String} {fields : EventFields} {known : Event}
    (readable : readBody request.body = .ok (text, fields))
    (found : world.events.find? fields.eventId = some known)
    (received : known.status = .received) (unhindered : receiver.Unhindered request world) :
    ∃ final, (receiver.receive request).outcome.run world =
        some (.ok (.duplicate known.eventId), final) ∧
      Repaired known request.now final := by
  obtain ⟨trusts, clear, fresh, inRange⟩ := unhindered
  obtain ⟨verdict, verified, verifies, authentic⟩ :=
    Verifier.verify_run trusts (clear.subset (List.subset_append_left _ _)) inRange
  have untouched := (receiver.verifier.verify_checks ..).untouched verifies
  have stillClear : verified.Clear (.findEvent :: World.acknowledgeSites) :=
    (clear.subset (List.subset_append_right _ _)).mono untouched.plans
  obtain ⟨looked, performed⟩ :=
    World.findEvent_through (stillClear .findEvent List.mem_cons_self) fields.eventId
  rw [untouched.stores.events, found] at performed
  obtain ⟨events, jobs, _⟩ := World.perform_sameStores rfl performed
  have ids : looked.ids = verified.ids := World.perform_ids performed fun _ => nofun
  have ready : Ready looked := by
    constructor
    · refine (stillClear.subset (List.subset_cons_self _ _)).performed performed ?_
      simp [Call.site?, World.acknowledgeSites]
    · rw [jobs, ids, untouched.stores.jobs, untouched.ids]
      exact fresh
  have member : known ∈ looked.events.events := by
    rw [events, untouched.stores.events]
    exact (EventStore.find?_eq_some found).1
  rw [receive_run_verified readable verifies authentic performed]
  exact acknowledge_run request.now text member received ready

end Receiver

/-! ## Requests in turn -/

theorem Orderly.repaired {pipeline : Pipeline} {world : World} (orderly : Orderly world)
    {request : Receiver.Request} {text : String} {fields : EventFields} {event : Event}
    (readable : Receiver.readBody request.body = .ok (text, fields))
    (found : world.events.find? fields.eventId = some event)
    (received : event.status = .received)
    (unhindered : pipeline.receiver.Unhindered request world) :
    ∃ final, (pipeline.receiver.receive request).outcome.run world =
        some (.ok (.duplicate fields.eventId), final) ∧
      final.events.find? fields.eventId = some (EventStore.processedAt request.now event) ∧
      (final.jobs.byEventId fields.eventId).length = 1 := by
  obtain ⟨_, sameId⟩ := EventStore.find?_eq_some found
  obtain ⟨final, run, dated, hasJob⟩ :=
    Receiver.receive_run readable found received unhindered
  have taken : world.take pipeline (.run (.receive request)) = some final := by
    simp only [World.take, Pipeline.program, Program.run_bind, run]
    rfl
  have ingests : Episode.Ingests (.run (.receive request)) := trivial
  obtain ⟨finalOrderly, _⟩ := orderly.take ingests taken
  rw [sameId] at run hasJob
  refine ⟨final, run, ?_, ?_⟩
  · have same : (EventStore.processedAt request.now event).eventId = fields.eventId := sameId
    rw [← same]
    exact finalOrderly.find?_eq_some dated
  · have atMost := finalOrderly.length_byEventId_le fields.eventId
    have atLeast : 0 < (final.jobs.byEventId fields.eventId).length := by
      obtain ⟨job, stored, same⟩ := hasJob
      exact List.length_pos_of_mem (JobStore.mem_byEventId.mpr ⟨stored, same⟩)
    omega

/-- Requests and passes that come one after the other, from empty stores, whichever calls
are refused and wherever a request or a pass is broken off: an event has at most one job,
a job has its event, an event is processed if and only if it is dated, and then it has
its job and stays as it is.  Where an event is left as received, an authentic request for
it that meets no refusal ends with it processed and with exactly one job. -/
theorem requests_in_turn_keep_order (pipeline : Pipeline) {world : World}
    (blank : world.Blank) {episodes : List Episode}
    (ingests : ∀ episode ∈ episodes, episode.Ingests)
    {last : World} (served : world.serve pipeline episodes = some last) :
    (∀ eventId, (last.jobs.byEventId eventId).length ≤ 1) ∧
    (∀ job ∈ last.jobs.jobs, last.events.Knows job.eventId) ∧
    (∀ event ∈ last.events.events,
      (event.status = .processed → last.jobs.HasJob event.eventId) ∧
      (event.status = .processed ↔ event.processedAt.isSome = true)) ∧
    (∀ more final, (∀ episode ∈ more, episode.Ingests) → last.serve pipeline more = some final →
      ∀ eventId event, last.events.find? eventId = some event →
        event.processedAt.isSome = true → final.events.find? eventId = some event) ∧
    (∀ request text fields event,
      Receiver.readBody request.body = .ok (text, fields) →
      last.events.find? fields.eventId = some event → event.status = .received →
      pipeline.receiver.Unhindered request last →
      ∃ final, (pipeline.receiver.receive request).outcome.run last =
          some (.ok (.duplicate fields.eventId), final) ∧
        final.events.find? fields.eventId = some (EventStore.processedAt request.now event) ∧
        (final.jobs.byEventId fields.eventId).length = 1) := by
  obtain ⟨orderly, _⟩ := blank.orderly.serve ingests served
  refine ⟨orderly.length_byEventId_le, ?_, ?_, ?_, ?_⟩
  · intro job member
    exact orderly.stored job.identity (List.mem_map_of_mem member)
  · intro event member
    exact ⟨orderly.processed event member, orderly.dated event member⟩
  · intro more final ingestsMore servedMore eventId event found dated
    obtain ⟨finalOrderly, follows⟩ := orderly.serve ingestsMore servedMore
    obtain ⟨member, rfl⟩ := EventStore.find?_eq_some found
    exact finalOrderly.find?_eq_some (follows.frozen event member dated)
  · intro request text fields event readable found received unhindered
    exact orderly.repaired readable found received unhindered

namespace Sample

def strictPipeline : Pipeline where
  receiver := { verifier := { nonces := some .atomic } }

def keyedWorld : World where
  source := .held ⟨[publishedKey]⟩ false

/-- The request comes while the queue is full, and a pass finds nothing to deliver. -/
def interrupted : List Episode :=
  [.change (.refuse .createJob [some (.queue (.store "full"))]),
    .run (.receive signedRequest), .run (.pass ⟨1, 0⟩)]

set_option maxRecDepth 100000 in
theorem interrupted_event_gets_its_job :
    ∃ last final event, keyedWorld.serve strictPipeline interrupted = some last ∧
      last.events.find? "e" = some event ∧ event.status = .received ∧
      last.jobs.byEventId "e" = [] ∧
      (strictPipeline.receiver.receive signedRequest).outcome.run last =
        some (.ok (.duplicate "e"), final) ∧
      final.events.find? "e" = some (EventStore.processedAt ⟨0, 0⟩ event) ∧
      (final.jobs.byEventId "e").length = 1 := by
  obtain ⟨last, served, ⟨event, found, received⟩, without, clear, fresh, inRange, verdict,
      verifies, authentic⟩ :
      ∃ last ∈ keyedWorld.serve strictPipeline interrupted,
        (∃ event ∈ last.events.find? "e", event.status = .received) ∧
        last.jobs.byEventId "e" = [] ∧
        last.Clear World.requestSites ∧
        last.jobs.find? (last.ids.draw .job).1 = none ∧
        last.CanMark (.ofSeconds 600) ∧
        ∃ ended ∈ (strictPipeline.receiver.verifier.verify 0 signedRequest.claim
          body).outcome.run last, Verifier.IsAuthentic ended.1 := by decide +kernel
  have readable : Receiver.readBody signedRequest.body = .ok
      ("\x7b\"event_id\":\"e\",\"order\":\x7b\"id\":1\x7d\x7d", ⟨"e", none, "1", none⟩) := by
    decide +kernel
  have unhindered : strictPipeline.receiver.Unhindered signedRequest last :=
    ⟨Verifier.trusts_of_verify_run verifies authentic, clear, fresh, fun _ => inRange⟩
  obtain ⟨_, _, _, _, repairs⟩ :=
    requests_in_turn_keep_order strictPipeline ⟨rfl, rfl, rfl⟩
      (by simp [interrupted, Episode.Ingests, Task.Ingests]) served
  obtain ⟨final, run, dated, single⟩ :=
    repairs signedRequest _ _ event readable found received unhindered
  exact ⟨last, final, event, served, found, received, without, run, dated, single⟩

end Sample

end WebhookRelay
