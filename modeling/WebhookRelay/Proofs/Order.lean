import WebhookRelay.Proofs.Passes

/-!
# One activity at a time

Where no other activity comes between two calls, what a request has read is still true
when it writes.  Then an event gets one job only, and once it is marked as processed it
stays as it is.  The contract of this module says so for each call, refused or not, and
receiving and passes of the processor uphold it.
-/

set_option autoImplicit false

namespace WebhookRelay

/-! ## Orderly worlds -/

/-- Every job has its event and every event at most one job; an event is processed when
it has a date, and then it has its job. -/
structure Orderly (world : World) : Prop where
  events : (world.events.events.map Event.eventId).Nodup
  ids : world.jobs.Distinct
  single : (world.jobs.identities.map JobIdentity.eventId).Nodup
  stored : ∀ identity ∈ world.jobs.identities, world.events.Knows identity.eventId
  processed : ∀ event ∈ world.events.events, event.status = .processed →
    world.jobs.HasJob event.eventId
  dated : ∀ event ∈ world.events.events,
    event.status = .processed ↔ event.processedAt.isSome = true

/-- No job and no event is lost, and dated events do not change. -/
structure Follows (before after : World) : Prop where
  jobs : before.jobs.identities <+: after.jobs.identities
  known : ∀ eventId, before.events.Knows eventId → after.events.Knows eventId
  frozen : ∀ event ∈ before.events.events, event.processedAt.isSome = true →
    event ∈ after.events.events

theorem Follows.refl (world : World) : Follows world world :=
  ⟨List.prefix_rfl, fun _ known => known, fun _ member _ => member⟩

theorem Follows.trans {first second third : World} (before : Follows first second)
    (after : Follows second third) : Follows first third where
  jobs := before.jobs.trans after.jobs
  known eventId known := after.known eventId (before.known eventId known)
  frozen event member dated := after.frozen event (before.frozen event member dated) dated

def World.Undated (world : World) (eventId : String) : Prop :=
  ∀ event ∈ world.events.events, event.eventId = eventId → event.processedAt = none

def World.Permits (world : World) : Call → Prop
  | .createEvent event => event.status = .received ∧ event.processedAt = none
  | .markProcessed eventId _ => world.jobs.HasJob eventId ∧ world.Undated eventId
  | .createJob job => world.events.Knows job.eventId ∧ ¬world.jobs.HasJob job.eventId
  | .updateJob job => job.identity ∈ world.jobs.identities
  | _ => True

theorem World.permits_aside {world : World} {request : Call} (aside : request.aside = true) :
    world.Permits request := by
  cases request <;> first | exact trivial | cases aside

namespace Orderly

variable {world after : World}

theorem unique (orderly : Orderly world) {event other : Event}
    (member : event ∈ world.events.events) (otherMember : other ∈ world.events.events)
    (same : event.eventId = other.eventId) : event = other :=
  List.inj_on_of_nodup_map orderly.events member otherMember same

theorem find?_eq_some (orderly : Orderly world) {event : Event}
    (member : event ∈ world.events.events) : world.events.find? event.eventId = some event := by
  have known : world.events.Knows event.eventId :=
    EventStore.knows_iff.mpr ⟨event, member, rfl⟩
  obtain ⟨found, same⟩ := Option.isSome_iff_exists.mp known
  obtain ⟨foundMember, sameId⟩ := EventStore.find?_eq_some same
  rw [same, orderly.unique foundMember member sameId]

theorem length_byEventId_le (orderly : Orderly world) (eventId : String) :
    (world.jobs.byEventId eventId).length ≤ 1 := by
  have once := List.nodup_iff_count_le_one.mp orderly.single eventId
  rw [JobStore.length_byEventId]
  rw [List.count, List.countP_map] at once
  exact once

theorem undated (orderly : Orderly world) {event : Event}
    (member : event ∈ world.events.events) (received : event.status = .received) :
    world.Undated event.eventId := by
  intro other otherMember same
  obtain rfl : other = event := orderly.unique otherMember member same
  have notDated : ¬other.processedAt.isSome = true := by
    intro dated
    have processed := (orderly.dated other member).mpr dated
    rw [received] at processed
    cases processed
  simpa using notDated

theorem not_hasJob (orderly : Orderly world) {eventId : String}
    (unknown : ¬world.events.Knows eventId) : ¬world.jobs.HasJob eventId := by
  intro hasJob
  obtain ⟨identity, member, same⟩ := JobStore.hasJob_iff.mp hasJob
  have known := orderly.stored identity member
  rw [same] at known
  exact unknown known

/-! ## What each call preserves -/

theorem frame (orderly : Orderly world) (events : after.events = world.events)
    (jobs : after.jobs.identities = world.jobs.identities) :
    Orderly after ∧ Follows world after := by
  refine ⟨⟨?_, ?_, ?_, ?_, ?_, ?_⟩, ?_, ?_, ?_⟩
  · rw [events]
    exact orderly.events
  · exact orderly.ids.of_identities jobs
  · rw [jobs]
    exact orderly.single
  · rw [events, jobs]
    exact orderly.stored
  · rw [events]
    intro event member processed
    have hasJob := orderly.processed event member processed
    rw [JobStore.hasJob_iff, jobs]
    exact JobStore.hasJob_iff.mp hasJob
  · rw [events]
    exact orderly.dated
  · exact jobs ▸ List.prefix_rfl
  · rw [events]
    exact fun _ known => known
  · rw [events]
    exact fun _ member _ => member

theorem quiet (orderly : Orderly world) (same : world.SameStores after) :
    Orderly after ∧ Follows world after := by
  refine orderly.frame same.events ?_
  rw [same.jobs]

/-- What a change of the events alone has to keep. -/
theorem changeEvents (orderly : Orderly world) (jobs : after.jobs = world.jobs)
    (once : (after.events.events.map Event.eventId).Nodup)
    (known : ∀ eventId, world.events.Knows eventId → after.events.Knows eventId)
    (processed : ∀ event ∈ after.events.events, event.status = .processed →
      world.jobs.HasJob event.eventId)
    (dated : ∀ event ∈ after.events.events,
      event.status = .processed ↔ event.processedAt.isSome = true)
    (frozen : ∀ event ∈ world.events.events, event.processedAt.isSome = true →
      event ∈ after.events.events) : Orderly after ∧ Follows world after := by
  refine ⟨⟨once, ?_, ?_, ?_, ?_, dated⟩, ?_, known, frozen⟩
  · rw [jobs]
    exact orderly.ids
  · rw [jobs]
    exact orderly.single
  · rw [jobs]
    exact fun identity member => known _ (orderly.stored identity member)
  · rw [jobs]
    exact processed
  · exact jobs ▸ List.prefix_rfl

theorem createEvent (orderly : Orderly world) {event : Event}
    (permitted : world.Permits (.createEvent event)) {answer : Except StoreError Unit}
    (performed : world.perform (.createEvent event) = some (answer, after)) :
    Orderly after ∧ Follows world after := by
  obtain ⟨jobs, _, ⟨unknown, events, _⟩ | ⟨events, _⟩⟩ := World.perform_createEvent performed
  · obtain ⟨received, undated⟩ := permitted
    have new : event.eventId ∉ world.events.events.map Event.eventId := by
      intro member
      obtain ⟨other, otherMember, same⟩ := List.mem_map.mp member
      have known := EventStore.knows_iff.mpr ⟨other, otherMember, same⟩
      exact EventStore.not_knows unknown known
    refine orderly.changeEvents jobs ?_ ?_ ?_ ?_ ?_
    · rw [events, List.map_append]
      refine List.nodup_append.mpr ⟨orderly.events, List.nodup_singleton _, ?_⟩
      rintro id member other single rfl
      obtain rfl := List.mem_singleton.mp single
      exact new member
    · rw [events]
      exact fun _ known => known.append event
    · rw [events]
      intro other member processed
      rcases List.mem_append.mp member with old | added
      · exact orderly.processed other old processed
      · obtain rfl := List.mem_singleton.mp added
        rw [received] at processed
        cases processed
    · rw [events]
      intro other member
      rcases List.mem_append.mp member with old | added
      · exact orderly.dated other old
      · obtain rfl := List.mem_singleton.mp added
        rw [received, undated]
        exact ⟨nofun, nofun⟩
    · rw [events]
      exact fun _ member _ => List.mem_append_left _ member
  · refine orderly.frame events ?_
    rw [jobs]

theorem markProcessed (orderly : Orderly world) {eventId : String} {time : Timestamp}
    (permitted : world.Permits (.markProcessed eventId time))
    {answer : Except StoreError Unit}
    (performed : world.perform (.markProcessed eventId time) = some (answer, after)) :
    Orderly after ∧ Follows world after := by
  obtain ⟨jobs, _, ⟨_, _, events⟩ | ⟨_, _, events⟩⟩ := World.perform_markProcessed performed
  · refine orderly.frame events ?_
    rw [jobs]
  · obtain ⟨hasJob, undated⟩ := permitted
    refine orderly.changeEvents jobs ?_ ?_ ?_ ?_ ?_
    · have sameIds : after.events.events.map Event.eventId =
          world.events.events.map Event.eventId := by
        rw [events, List.map_map]
        refine List.map_congr_left fun event _ => ?_
        simp only [Function.comp]
        split <;> rfl
      rw [sameIds]
      exact orderly.events
    · rw [events]
      exact fun _ known => known.marked eventId time
    · rw [events]
      intro event member processed
      obtain ⟨old, _⟩ | ⟨original, _, rfl, rfl⟩ := EventStore.mem_marked.mp member
      · exact orderly.processed event old processed
      · exact hasJob
    · rw [events]
      intro event member
      obtain ⟨old, _⟩ | ⟨original, _, _, rfl⟩ := EventStore.mem_marked.mp member
      · exact orderly.dated event old
      · exact ⟨fun _ => rfl, fun _ => rfl⟩
    -- A dated event is not marked again, so it stays as it is.
    · rw [events]
      intro event member dated
      refine EventStore.mem_marked.mpr (Or.inl ⟨member, fun same => ?_⟩)
      rw [undated event member same] at dated
      cases dated

theorem createJob (orderly : Orderly world) {job : Job}
    (permitted : world.Permits (.createJob job)) {answer : Except QueueError Unit}
    (performed : world.perform (.createJob job) = some (answer, after)) :
    Orderly after ∧ Follows world after := by
  obtain ⟨events, _, ⟨_, _, jobs⟩ | ⟨_, absent, jobs⟩⟩ := World.perform_createJob performed
  · refine orderly.frame events ?_
    rw [jobs]
  · obtain ⟨known, without⟩ := permitted
    have identities : after.jobs.identities = world.jobs.identities ++ [job.identity] := by
      rw [jobs, JobStore.identities, List.map_append]
      rfl
    refine ⟨⟨?_, ?_, ?_, ?_, ?_, ?_⟩, ?_, ?_, ?_⟩
    · rw [events]
      exact orderly.events
    · rw [jobs]
      exact orderly.ids.append absent
    · rw [identities, List.map_append]
      refine List.nodup_append.mpr ⟨orderly.single, List.nodup_singleton _, ?_⟩
      rintro eventId member other single rfl
      obtain rfl := List.mem_singleton.mp single
      obtain ⟨identity, identityMember, same⟩ := List.mem_map.mp member
      exact without (JobStore.hasJob_iff.mpr ⟨identity, identityMember, same⟩)
    · rw [events, identities]
      intro identity member
      rcases List.mem_append.mp member with old | added
      · exact orderly.stored identity old
      · obtain rfl := List.mem_singleton.mp added
        exact known
    · rw [events]
      intro event member processed
      obtain ⟨identity, old, same⟩ :=
        JobStore.hasJob_iff.mp (orderly.processed event member processed)
      rw [JobStore.hasJob_iff, identities]
      exact ⟨identity, List.mem_append_left _ old, same⟩
    · rw [events]
      exact orderly.dated
    · rw [identities]
      exact List.prefix_append _ _
    · rw [events]
      exact fun _ known => known
    · rw [events]
      exact fun _ member _ => member

theorem performed (orderly : Orderly world) {request : Call}
    (permitted : world.Permits request) {answer : request.Answer}
    (performed : world.perform request = some (answer, after)) :
    Orderly after ∧ Follows world after := by
  cases writes : request.writes with
  | false => exact orderly.quiet (World.perform_sameStores writes performed)
  | true =>
      cases request with
      | createEvent event => exact orderly.createEvent permitted performed
      | markProcessed eventId time => exact orderly.markProcessed permitted performed
      | createJob job => exact orderly.createJob permitted performed
      | updateJob job =>
          obtain ⟨events, _, ⟨_, _, jobs⟩ | ⟨_, jobs⟩⟩ := World.perform_updateJob performed
          · refine orderly.frame events ?_
            rw [jobs]
          · refine orderly.frame events ?_
            rw [jobs]
            exact JobStore.identities_replace orderly.ids permitted
      | createEntry entry =>
          obtain ⟨events, jobs, _⟩ := World.perform_createEntry performed
          refine orderly.frame events ?_
          rw [jobs]
      | updateEntry entry =>
          obtain ⟨events, jobs, _⟩ := World.perform_updateEntry performed
          refine orderly.frame events ?_
          rw [jobs]
      | _ => cases writes

end Orderly

def Contract.alone : Contract where
  sound ledger := Orderly ledger.world
  allows _ ledger request := ledger.world.Permits request
  later before after := Follows before.world after.world
  between := Eq
  later_refl ledger := .refl ledger.world
  later_trans := .trans
  between_refl _ := rfl
  between_trans := Eq.trans
  later_of_between same := same ▸ .refl _
  keeps orderly permitted performed := orderly.performed permitted performed

theorem Contract.alone_allowsPasses : Contract.alone.AllowsPasses where
  aside aside := World.permits_aside aside
  reads := trivial
  updates known := known
  keepsJobs follows := follows.jobs

end WebhookRelay
