import WebhookRelay.Proofs.Recovery
import WebhookRelay.Proofs.Repertoire

/-!
# The payload of an event's job

An event remembers the fingerprint of the body that it was stored for, and its job carries
a body as its payload.  Where requests and passes come one after the other, the two agree,
with one exception: when the job of a stored event is missing, the next request for the
event makes up for it with the body that it has itself, and nobody compares that body with
the fingerprint.
-/

set_option autoImplicit false

namespace WebhookRelay

/-! ## What a task adds to the stores -/

/-- What an event remembers of its origin for good. -/
structure EventOrigin where
  eventId : String
  fingerprint : String
  deriving DecidableEq, Repr

def Event.origin (event : Event) : EventOrigin where
  eventId := event.eventId
  fingerprint := event.fingerprint

def EventStore.origins (store : EventStore) : List EventOrigin :=
  store.events.map Event.origin

theorem EventStore.knows_iff_origin {store : EventStore} {eventId : String} :
    store.Knows eventId ↔ ∃ origin ∈ store.origins, origin.eventId = eventId := by
  simp [EventStore.knows_iff, origins, Event.origin]

theorem EventStore.origins_marked (store : EventStore) (eventId : String) (time : Timestamp) :
    (⟨store.events.map fun event => if event.eventId = eventId then
      EventStore.processedAt time event else event⟩ : EventStore).origins = store.origins := by
  rw [origins, List.map_map]
  refine List.map_congr_left fun event _ => ?_
  simp only [Function.comp]
  split <;> rfl

/-- Events and jobs are only added, and what is new about them comes from a body that is
carried. -/
structure World.Adds (carried : Bytes → Prop) (before after : World) : Prop where
  events : ∃ added, after.events.origins = before.events.origins ++ added ∧
    ∀ origin ∈ added, ∃ body, carried body ∧ origin.fingerprint = bodyFingerprint body
  jobs : ∃ added, after.jobs.identities = before.jobs.identities ++ added ∧
    ∀ identity ∈ added, ∃ body, carried body ∧ Text.utf8 identity.payload = body

/-- A call stores nothing but what comes from a body that is carried, and it changes no job
into another one. -/
def World.Carries (carried : Bytes → Prop) (world : World) : Call → Prop
  | .createEvent event => ∃ body, carried body ∧ event.fingerprint = bodyFingerprint body
  | .createJob job => ∃ body, carried body ∧ Text.utf8 job.payload = body
  | .updateJob job => job.identity ∈ world.jobs.identities
  | _ => True

namespace World

variable {carried : Bytes → Prop} {world after : World}

theorem Adds.of_same (events : after.events.origins = world.events.origins)
    (jobs : after.jobs.identities = world.jobs.identities) : world.Adds carried after where
  events := ⟨[], by rw [events, List.append_nil], nofun⟩
  jobs := ⟨[], by rw [jobs, List.append_nil], nofun⟩

theorem Adds.of_stores (events : after.events = world.events) (jobs : after.jobs = world.jobs) :
    world.Adds carried after :=
  .of_same (congrArg EventStore.origins events) (congrArg JobStore.identities jobs)

theorem Adds.trans {first second third : World} (before : first.Adds carried second)
    (after : second.Adds carried third) : first.Adds carried third := by
  obtain ⟨⟨early, events, earlyOrigins⟩, ⟨earlyJobs, jobs, earlyPayloads⟩⟩ := before
  obtain ⟨⟨late, moreEvents, lateOrigins⟩, ⟨lateJobs, moreJobs, latePayloads⟩⟩ := after
  refine ⟨⟨early ++ late, ?_, ?_⟩, ⟨earlyJobs ++ lateJobs, ?_, ?_⟩⟩
  · rw [moreEvents, events, List.append_assoc]
  · intro origin member
    rcases List.mem_append.mp member with new | newer
    · exact earlyOrigins origin new
    · exact lateOrigins origin newer
  · rw [moreJobs, jobs, List.append_assoc]
  · intro identity member
    rcases List.mem_append.mp member with new | newer
    · exact earlyPayloads identity new
    · exact latePayloads identity newer

theorem perform_adds (distinct : world.jobs.Distinct) {request : Call} {answer : request.Answer}
    (carries : world.Carries carried request)
    (performed : world.perform request = some (answer, after)) :
    after.jobs.Distinct ∧ world.Adds carried after := by
  have stays (jobs : after.jobs = world.jobs) : after.jobs.Distinct := by
    rw [jobs]
    exact distinct
  cases writes : request.writes with
  | false =>
      have same := perform_sameStores writes performed
      exact ⟨stays same.jobs, .of_stores same.events same.jobs⟩
  | true =>
      cases request with
      | createEvent event =>
          obtain ⟨jobs, _, ⟨_, events, _⟩ | ⟨events, _⟩⟩ := perform_createEvent performed
          · refine ⟨stays jobs, ⟨⟨[event.origin], ?_, ?_⟩, ⟨[], ?_, nofun⟩⟩⟩
            · rw [events, EventStore.origins, List.map_append]
              rfl
            · intro origin member
              rw [List.mem_singleton.mp member]
              exact carries
            · rw [jobs, List.append_nil]
          · exact ⟨stays jobs, .of_stores events jobs⟩
      | markProcessed eventId time =>
          obtain ⟨jobs, _, ⟨_, _, events⟩ | ⟨_, _, events⟩⟩ := perform_markProcessed performed
          · exact ⟨stays jobs, .of_stores events jobs⟩
          · refine ⟨stays jobs, .of_same ?_ (congrArg JobStore.identities jobs)⟩
            rw [events, EventStore.origins_marked]
      | createJob job =>
          obtain ⟨events, _, ⟨_, _, jobs⟩ | ⟨_, absent, jobs⟩⟩ := perform_createJob performed
          · exact ⟨stays jobs, .of_stores events jobs⟩
          · refine ⟨?_, ⟨[], ?_, nofun⟩, ⟨[job.identity], ?_, ?_⟩⟩
            · rw [jobs]
              exact distinct.append absent
            · rw [events, List.append_nil]
            · rw [jobs, JobStore.identities, List.map_append]
              rfl
            · intro identity member
              rw [List.mem_singleton.mp member]
              exact carries
      | updateJob job =>
          obtain ⟨events, _, ⟨_, _, jobs⟩ | ⟨_, jobs⟩⟩ := perform_updateJob performed
          · exact ⟨stays jobs, .of_stores events jobs⟩
          · have identities : after.jobs.identities = world.jobs.identities := by
              rw [jobs]
              exact JobStore.identities_replace distinct carries
            refine ⟨distinct.of_identities identities, .of_same ?_ identities⟩
            rw [events]
      | createEntry entry =>
          obtain ⟨events, jobs, _⟩ := perform_createEntry performed
          exact ⟨stays jobs, .of_stores events jobs⟩
      | updateEntry entry =>
          obtain ⟨events, jobs, _⟩ := perform_updateEntry performed
          exact ⟨stays jobs, .of_stores events jobs⟩
      | _ => cases writes

end World

def Contract.carrying (carried : Bytes → Prop) : Contract where
  sound ledger := ledger.world.jobs.Distinct
  allows _ ledger request := ledger.world.Carries carried request
  later before after := before.world.Adds carried after.world
  between := Eq
  later_refl _ := .of_same rfl rfl
  later_trans := .trans
  between_refl _ := rfl
  between_trans := Eq.trans
  later_of_between same := same ▸ .of_same rfl rfl
  keeps distinct carries performed := World.perform_adds distinct carries performed

theorem Contract.carrying_allowsPasses (carried : Bytes → Prop) :
    (Contract.carrying carried).AllowsPasses where
  aside {_ _ request} aside := by
    cases request <;> first | exact trivial | cases aside
  reads := trivial
  updates known := known
  keepsJobs adds := by
    obtain ⟨added, jobs, _⟩ := adds.jobs
    exact ⟨added, jobs.symm⟩

/-! ## What an episode adds -/

def Task.body? : Task → Option Bytes
  | .receive request => some request.body
  | _ => none

def Episode.body? : Episode → Option Bytes
  | .run task | .breakOff task _ => task.body?
  | .change _ => none

section

variable {pipeline : Pipeline} {world middle last : World}

theorem Receiver.receive_carrying (receiver : Receiver) (request : Request) {ledger : Ledger} :
    (receiver.receive request).outcome.Upholds
      (.carrying fun body => (Task.receive request).body? = some body) 0 (fun _ _ => True)
      ledger := by
  refine .of_uses (receiver.receive_takes request) ?_
  intro call current takes _
  cases call with
  | createEvent event => exact ⟨request.body, rfl, takes⟩
  | createJob job =>
      obtain ⟨id, eventId, text, same, rfl⟩ := takes
      exact ⟨request.body, rfl, same⟩
  | updateJob job => exact takes.elim
  | _ => exact trivial

theorem Task.Ingests.carrying {task : Task} (ingests : task.Ingests)
    (distinct : world.jobs.Distinct) :
    (pipeline.program task).Upholds (.carrying fun body => task.body? = some body) 0
      (fun _ _ => True) ⟨world, []⟩ := by
  cases task with
  | receive request =>
      exact .bind distinct (pipeline.receiver.receive_carrying request)
        fun _ _ _ _ _ => .done fun _ _ _ => trivial
  | pass now =>
      exact .bind distinct (Processor.pass_upholds (Contract.carrying_allowsPasses _)
        pipeline.processor pipeline.delivers now) fun _ _ _ _ _ => .done fun _ _ _ => trivial
  | capture now => exact ingests.elim
  | replay now entryId => exact ingests.elim

theorem World.take_adds (distinct : world.jobs.Distinct) {episode : Episode}
    (ingests : episode.Ingests) (taken : world.take pipeline episode = some last) :
    world.Adds (fun body => episode.body? = some body) last := by
  cases episode with
  | change circumstance =>
      cases taken
      have same := world.under_sameStores circumstance
      exact .of_stores same.events same.jobs
  | run task =>
      obtain ⟨⟨outcome, final⟩, run, rfl⟩ := Option.map_eq_some_iff.mp taken
      obtain ⟨ledger, rfl, _, adds, _⟩ := (ingests.carrying distinct).run distinct run
      exact adds
  | breakOff task calls =>
      obtain ⟨ledger, rfl, _, adds⟩ := (ingests.carrying distinct).runFor distinct taken
      exact adds

/-! ## Bodies that take the place of others -/

/-- The jobs of an event that is stored carry a body that it was stored for. -/
def World.Matches (world : World) (eventId : String) : Prop :=
  ∀ job ∈ world.jobs.jobs, ∀ event ∈ world.events.events,
    job.eventId = eventId → event.eventId = eventId →
      bodyFingerprint (Text.utf8 job.payload) = event.fingerprint

instance (world : World) (eventId : String) : Decidable (world.Matches eventId) :=
  inferInstanceAs (Decidable (∀ job ∈ _, ∀ event ∈ _, _ → _ → _))

/-- A stored event without a job gets one from a body that it was not stored for. -/
def World.Substitutes (before after : World) (eventId : String) (body : Bytes) : Prop :=
  ¬before.jobs.HasJob eventId ∧ after.jobs.HasJob eventId ∧
    ∃ event ∈ before.events.events, event.eventId = eventId ∧
      event.fingerprint ≠ bodyFingerprint body

/-- In one of the episodes another body takes the place of the one that the event was
stored for. -/
def World.Substituted (pipeline : Pipeline) (world : World) (episodes : List Episode)
    (eventId : String) : Prop :=
  ∃ early episode late before after body, episodes = early ++ episode :: late ∧
    world.serve pipeline early = some before ∧ before.take pipeline episode = some after ∧
    episode.body? = some body ∧ before.Substitutes after eventId body

theorem World.not_substituted_nil {eventId : String} :
    ¬world.Substituted pipeline [] eventId := by
  rintro ⟨early, _, _, _, _, _, split, _⟩
  exact List.append_ne_nil_of_right_ne_nil early (List.cons_ne_nil _ _) split.symm

theorem World.substituted_cons {episode : Episode} {rest : List Episode} {eventId : String}
    (taken : world.take pipeline episode = some middle) :
    world.Substituted pipeline (episode :: rest) eventId ↔
      (∃ body, episode.body? = some body ∧ world.Substitutes middle eventId body) ∨
        middle.Substituted pipeline rest eventId := by
  constructor
  · rintro ⟨early, other, late, before, after, body, split, served, takenLater, brings, place⟩
    cases early with
    | nil =>
        cases split
        cases served
        obtain rfl := Option.some.inj (taken.symm.trans takenLater)
        exact .inl ⟨body, brings, place⟩
    | cons first early =>
        cases split
        simp only [World.serve, bind, taken, Option.bind_some] at served
        exact .inr ⟨early, other, late, before, after, body, rfl, served, takenLater, brings,
          place⟩
  · rintro (⟨body, brings, place⟩ |
      ⟨early, other, late, before, after, body, rfl, served, takenLater, brings, place⟩)
    · exact ⟨[], episode, rest, world, middle, body, rfl, rfl, taken, brings, place⟩
    · refine ⟨episode :: early, other, late, before, after, body, rfl, ?_, takenLater, brings,
        place⟩
      simp only [World.serve, bind, taken, Option.bind_some]
      exact served

theorem World.matches_iff {eventId : String} : world.Matches eventId ↔
    ∀ identity ∈ world.jobs.identities, ∀ origin ∈ world.events.origins,
      identity.eventId = eventId → origin.eventId = eventId →
        bodyFingerprint (Text.utf8 identity.payload) = origin.fingerprint := by
  simp [Matches, JobStore.identities, EventStore.origins, Job.identity, Event.origin]

theorem World.Blank.matches {eventId : String} (blank : world.Blank) : world.Matches eventId := by
  intro job member
  rw [blank.jobs] at member
  cases member

/-! ## What is new and what was there -/

variable {eventId : String} {carried : Bytes → Prop}

theorem Orderly.not_knows_of_added (orderly : Orderly last) {added : List EventOrigin}
    (origins : last.events.origins = world.events.origins ++ added) {origin : EventOrigin}
    (member : origin ∈ added) : ¬world.events.Knows origin.eventId := by
  have ids : last.events.events.map Event.eventId =
      world.events.origins.map EventOrigin.eventId ++ added.map EventOrigin.eventId := by
    rw [← List.map_append, ← origins, EventStore.origins, List.map_map]
    rfl
  have apart := (List.nodup_append'.mp (ids ▸ orderly.events)).2.2
  intro known
  obtain ⟨old, oldMember, same⟩ := EventStore.knows_iff_origin.mp known
  exact apart (List.mem_map_of_mem oldMember) (same ▸ List.mem_map_of_mem member)

theorem Orderly.not_hasJob_of_added (orderly : Orderly last) {added : List JobIdentity}
    (identities : last.jobs.identities = world.jobs.identities ++ added)
    {identity : JobIdentity} (member : identity ∈ added) :
    ¬world.jobs.HasJob identity.eventId := by
  have single := orderly.single
  rw [identities, List.map_append] at single
  have apart := (List.nodup_append'.mp single).2.2
  intro hasJob
  obtain ⟨old, oldMember, same⟩ := JobStore.hasJob_iff.mp hasJob
  exact apart (List.mem_map_of_mem oldMember) (same ▸ List.mem_map_of_mem member)

/-- Where a body has taken the place of another one, job and event do not match. -/
theorem World.Adds.not_matches {body : Bytes} (adds : world.Adds (some body = some ·) last)
    (place : world.Substitutes last eventId body) : ¬last.Matches eventId := by
  obtain ⟨without, hasJob, event, stored, sameEvent, other⟩ := place
  obtain ⟨⟨newOrigins, origins, _⟩, ⟨newJobs, identities, carries⟩⟩ := adds
  obtain ⟨identity, member, sameJob⟩ := JobStore.hasJob_iff.mp hasJob
  rw [identities] at member
  have isNew : identity ∈ newJobs := by
    refine (List.mem_append.mp member).resolve_left fun old => ?_
    exact without (JobStore.hasJob_iff.mpr ⟨identity, old, sameJob⟩)
  obtain ⟨brought, isBody, payload⟩ := carries identity isNew
  obtain rfl := Option.some.inj isBody
  have still : event.origin ∈ last.events.origins := by
    rw [origins]
    exact List.mem_append_left _ (List.mem_map_of_mem stored)
  intro matching
  refine other (.symm ?_)
  rw [← payload]
  exact World.matches_iff.mp matching identity (identities ▸ member) event.origin still
    sameJob sameEvent

/-- Jobs and events go on matching exactly where no body takes the place of another. -/
theorem Orderly.matches_iff {brought : Option Bytes} (orderly : Orderly world)
    (orderlyAfter : Orderly last) (adds : world.Adds (brought = some ·) last) :
    last.Matches eventId ↔ world.Matches eventId ∧
      ¬∃ body, brought = some body ∧ world.Substitutes last eventId body := by
  constructor
  · intro matching
    refine ⟨?_, ?_⟩
    · obtain ⟨⟨newOrigins, origins, _⟩, ⟨newJobs, identities, _⟩⟩ := adds
      rw [World.matches_iff, origins, identities] at matching
      rw [World.matches_iff]
      intro identity member origin originMember
      exact matching identity (List.mem_append_left _ member) origin
        (List.mem_append_left _ originMember)
    · rintro ⟨body, rfl, place⟩
      exact adds.not_matches place matching
  · rintro ⟨matching, unsubstituted⟩
    obtain ⟨⟨newOrigins, origins, fromBody⟩, ⟨newJobs, identities, carries⟩⟩ := adds
    rw [World.matches_iff] at matching ⊢
    intro identity member origin originMember sameJob sameEvent
    rw [identities] at member
    rw [origins] at originMember
    rcases List.mem_append.mp member with oldJob | newJob <;>
      rcases List.mem_append.mp originMember with oldEvent | newEvent
    · exact matching identity oldJob origin oldEvent sameJob sameEvent
    -- A job has had its event from the start.
    · have known := orderly.stored identity oldJob
      rw [sameJob, ← sameEvent] at known
      exact absurd known (orderlyAfter.not_knows_of_added origins newEvent)
    -- The job that the event lacked has come just now, so its body is the one to compare.
    · obtain ⟨body, isBody, payload⟩ := carries identity newJob
      have without := orderlyAfter.not_hasJob_of_added identities newJob
      obtain ⟨event, stored, rfl⟩ := List.mem_map.mp oldEvent
      by_contra other
      rw [payload] at other
      refine unsubstituted ⟨body, isBody, sameJob ▸ without, ?_, event, stored, sameEvent,
        Ne.symm other⟩
      rw [JobStore.hasJob_iff, identities]
      exact ⟨identity, member, sameJob⟩
    -- Both are new and come from one body.
    · obtain ⟨body, isBody, payload⟩ := carries identity newJob
      obtain ⟨same, isSame, stamped⟩ := fromBody origin newEvent
      obtain rfl := Option.some.inj (isBody.symm.trans isSame)
      rw [payload, stamped]

theorem Orderly.matches_serve {episodes : List Episode} (orderly : Orderly world)
    (ingests : ∀ episode ∈ episodes, episode.Ingests)
    (served : world.serve pipeline episodes = some last) :
    last.Matches eventId ↔
      world.Matches eventId ∧ ¬world.Substituted pipeline episodes eventId := by
  induction episodes generalizing world with
  | nil =>
      cases served
      exact (and_iff_left World.not_substituted_nil).symm
  | cons episode rest ih =>
      simp only [World.serve, bind, Option.bind_eq_some_iff] at served
      obtain ⟨middle, taken, served⟩ := served
      have ingestsFirst := ingests episode List.mem_cons_self
      obtain ⟨middleOrderly, _⟩ := orderly.take ingestsFirst taken
      rw [ih middleOrderly (fun other member => ingests other (List.mem_cons_of_mem _ member))
        served, orderly.matches_iff middleOrderly (World.take_adds orderly.ids ingestsFirst taken),
        World.substituted_cons taken, not_or, and_assoc]

/-- Requests and passes that come one after the other, from empty stores, whichever calls
are refused and wherever a request or a pass is broken off: the job of an event carries
the body that the event was stored for, unless the event was left without its job and a
request with another body has made up for it. -/
theorem job_carries_the_stored_body_unless_substituted (pipeline : Pipeline) {world : World}
    (blank : world.Blank) {episodes : List Episode}
    (ingests : ∀ episode ∈ episodes, episode.Ingests)
    {last : World} (served : world.serve pipeline episodes = some last) (eventId : String) :
    last.Matches eventId ↔ ¬world.Substituted pipeline episodes eventId := by
  rw [blank.orderly.matches_serve ingests served]
  exact and_iff_right blank.matches

end

namespace Sample

def otherBody : Bytes :=
  Text.utf8 "\x7b\"event_id\":\"e\",\"order\":\x7b\"id\":2\x7d\x7d"

/-- The queue is full when the event comes, and not when it comes again with a body. -/
def comingAgain (body : Bytes) : List Episode :=
  [.change (.refuse .createJob [some (.queue (.store "full"))]),
    .run (.receive request), .run (.receive { request with body })]

set_option maxRecDepth 100000 in
theorem same_body_is_no_substitute :
    ∃ last, ({} : World).serve pipeline (comingAgain body) = some last ∧
      (last.jobs.byEventId "e").length = 1 ∧
      ¬({} : World).Substituted pipeline (comingAgain body) "e" := by
  obtain ⟨last, served, single, matching⟩ :
      ∃ last ∈ ({} : World).serve pipeline (comingAgain body),
        (last.jobs.byEventId "e").length = 1 ∧ last.Matches "e" := by decide +kernel
  have unsubstituted := (job_carries_the_stored_body_unless_substituted pipeline ⟨rfl, rfl, rfl⟩
    (by simp [comingAgain, Episode.Ingests, Task.Ingests]) served "e").mp matching
  exact ⟨last, served, single, unsubstituted⟩

set_option maxRecDepth 100000 in
/-- The job has the second body, and the event the fingerprint of the first. -/
theorem other_body_takes_the_place_of_the_stored_one :
    ({} : World).Blank ∧ (∀ episode ∈ comingAgain otherBody, episode.Ingests) ∧
    ∃ last ∈ ({} : World).serve pipeline (comingAgain otherBody),
      ∃ job ∈ last.jobs.jobs, ∃ event ∈ last.events.events, job.eventId = event.eventId ∧
        Text.utf8 job.payload = otherBody ∧ event.fingerprint = bodyFingerprint body ∧
        bodyFingerprint (Text.utf8 job.payload) ≠ event.fingerprint := by
  refine ⟨⟨rfl, rfl, rfl⟩, by simp [comingAgain, Episode.Ingests, Task.Ingests], ?_⟩
  decide +kernel

end Sample

end WebhookRelay
