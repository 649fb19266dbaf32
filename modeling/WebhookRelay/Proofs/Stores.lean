import Mathlib.Data.List.Nodup
import WebhookRelay.Proofs.Effects

/-!
# What the stores keep

A job never changes its id, its event, its payload or its age, and neither jobs nor
events are ever removed.  What is read from a store is in it.
-/

set_option autoImplicit false

namespace WebhookRelay

/-! ## Jobs -/

structure JobIdentity where
  id : Uuid
  eventId : String
  payload : String
  createdAt : Timestamp
  deriving DecidableEq, Repr

namespace Job

def identity (job : Job) : JobIdentity :=
  { id := job.id, eventId := job.eventId, payload := job.payload, createdAt := job.createdAt }

@[simp] theorem identity_beginAttempt (job : Job) : job.beginAttempt.identity = job.identity :=
  rfl

@[simp] theorem identity_recordSuccess (job : Job) (now : Timestamp) :
    (job.recordSuccess now).identity = job.identity := rfl

@[simp] theorem identity_recordFailure (job : Job) (now : Timestamp) (error : String)
    (policy : Backoff) : (job.recordFailure now error policy).identity = job.identity := by
  unfold recordFailure
  dsimp only
  split <;> rfl

end Job

namespace JobStore

variable {store : JobStore}

def identities (store : JobStore) : List JobIdentity :=
  store.jobs.map Job.identity

def HasJob (store : JobStore) (eventId : String) : Prop :=
  ∃ job ∈ store.jobs, job.eventId = eventId

def Distinct (store : JobStore) : Prop :=
  (store.jobs.map Job.id).Nodup

theorem hasJob_iff {eventId : String} :
    store.HasJob eventId ↔ ∃ identity ∈ store.identities, identity.eventId = eventId := by
  simp [HasJob, identities, Job.identity]

theorem mem_due {job : Job} {now : Timestamp} {limit : Nat}
    (member : job ∈ store.due now limit) : job ∈ store.jobs := by
  have sorted := List.mem_mergeSort.mp (List.mem_of_mem_take member)
  exact (List.mem_filter.mp sorted).1

theorem mem_byStatus {job : Job} {status : JobStatus}
    (member : job ∈ store.byStatus status) : job ∈ store.jobs :=
  (List.mem_filter.mp (List.mem_mergeSort.mp member)).1

theorem mem_byEventId {job : Job} {eventId : String} :
    job ∈ store.byEventId eventId ↔ job ∈ store.jobs ∧ job.eventId = eventId := by
  simp [byEventId, List.mem_mergeSort]

/-- How many jobs an event has is a matter of identities. -/
theorem length_byEventId (store : JobStore) (eventId : String) :
    (store.byEventId eventId).length =
      store.identities.countP fun identity => identity.eventId = eventId := by
  rw [byEventId, List.length_mergeSort, ← List.countP_eq_length_filter, identities,
    List.countP_map]
  rfl

theorem byEventId_eq_nil {eventId : String} :
    store.byEventId eventId = [] ↔ ¬store.HasJob eventId := by
  simp [List.eq_nil_iff_forall_not_mem, mem_byEventId, HasJob]

theorem hasJob_of_byEventId {eventId : String} {job : Job} {rest : List Job}
    (found : store.byEventId eventId = job :: rest) : store.HasJob eventId := by
  have member : job ∈ store.byEventId eventId := by
    rw [found]
    exact List.mem_cons_self
  obtain ⟨stored, same⟩ := mem_byEventId.mp member
  exact ⟨job, stored, same⟩

theorem find?_eq_none {id : Uuid} : store.find? id = none ↔ id ∉ store.jobs.map Job.id := by
  simp [find?]

theorem Distinct.append {job : Job} (distinct : store.Distinct)
    (absent : store.find? job.id = none) : Distinct ⟨store.jobs ++ [job]⟩ := by
  have new : job.id ∉ store.jobs.map Job.id := find?_eq_none.mp absent
  simp only [Distinct, List.map_append, List.map_cons, List.map_nil]
  exact List.nodup_append.mpr ⟨distinct, List.nodup_singleton _,
    fun id member other single same => by
      obtain rfl := List.mem_singleton.mp single
      exact new (same ▸ member)⟩

theorem identities_replace {job : Job} (distinct : store.Distinct)
    (known : job.identity ∈ store.identities) :
    (store.jobs.map fun other => if other.id = job.id then job else other).map Job.identity =
      store.identities := by
  obtain ⟨original, member, same⟩ := List.mem_map.mp known
  rw [List.map_map]
  refine List.map_congr_left fun other otherMember => ?_
  simp only [Function.comp]
  split
  · rename_i sameId
    have originalId : original.id = job.id := congrArg JobIdentity.id same
    have equal : original = other :=
      List.inj_on_of_nodup_map distinct member otherMember (originalId.trans sameId.symm)
    rw [← same, equal]
  · rfl

theorem Distinct.of_identities {other : JobStore} (distinct : store.Distinct)
    (same : other.identities = store.identities) : other.Distinct := by
  have ids (jobs : List Job) : jobs.map Job.id = (jobs.map Job.identity).map JobIdentity.id := by
    rw [List.map_map]
    rfl
  unfold Distinct
  rw [ids]
  change (other.identities.map JobIdentity.id).Nodup
  rw [same, identities, ← ids]
  exact distinct

end JobStore

/-! ## Events -/

namespace EventStore

variable {store : EventStore}

def Knows (store : EventStore) (eventId : String) : Prop :=
  (store.find? eventId).isSome

theorem knows_iff {eventId : String} :
    store.Knows eventId ↔ ∃ event ∈ store.events, event.eventId = eventId := by
  simp [Knows, find?]

theorem not_knows {eventId : String} (absent : store.find? eventId = none) :
    ¬store.Knows eventId := by
  intro known
  rw [Knows, absent] at known
  cases known

theorem find?_eq_some {eventId : String} {event : Event}
    (found : store.find? eventId = some event) :
    event ∈ store.events ∧ event.eventId = eventId :=
  ⟨List.mem_of_find?_eq_some found, by simpa using List.find?_some found⟩

theorem Knows.append {eventId : String} (knows : store.Knows eventId) (event : Event) :
    Knows ⟨store.events ++ [event]⟩ eventId := by
  obtain ⟨known, member, same⟩ := knows_iff.mp knows
  exact knows_iff.mpr ⟨known, List.mem_append_left _ member, same⟩

theorem mem_marked {eventId : String} {time : Timestamp} {event : Event} :
    (event ∈ store.events.map fun other =>
      if other.eventId = eventId then processedAt time other else other) ↔
      (event ∈ store.events ∧ event.eventId ≠ eventId) ∨
        ∃ original ∈ store.events, original.eventId = eventId ∧
          event = processedAt time original := by
  rw [List.mem_map]
  constructor
  · rintro ⟨original, member, rfl⟩
    by_cases same : original.eventId = eventId
    · exact Or.inr ⟨original, member, same, if_pos same⟩
    · rw [if_neg same]
      exact Or.inl ⟨member, same⟩
  · rintro (⟨member, other⟩ | ⟨original, member, same, rfl⟩)
    · exact ⟨event, member, if_neg other⟩
    · exact ⟨original, member, if_pos same⟩

theorem Knows.marked {known : String} (knows : store.Knows known) (eventId : String)
    (time : Timestamp) :
    Knows ⟨store.events.map fun other =>
      if other.eventId = eventId then processedAt time other else other⟩ known := by
  obtain ⟨event, member, same⟩ := knows_iff.mp knows
  refine knows_iff.mpr ⟨_, List.mem_map_of_mem member, ?_⟩
  rw [← same]
  split <;> rfl

end EventStore

/-! ## Dead letters -/

namespace DeadLetterStore

variable {store : DeadLetterStore}

theorem mem_replace {entry other : DeadLetter}
    (member : other ∈ (store.replace entry).entries) :
    other = entry ∨ other ∈ store.entries := by
  obtain ⟨original, originalMember, rfl⟩ := List.mem_map.mp member
  split
  · exact Or.inl rfl
  · exact Or.inr originalMember

theorem mem_put {entry other : DeadLetter} (member : other ∈ (store.put entry).entries) :
    other = entry ∨ other ∈ store.entries := by
  unfold put at member
  split at member
  · exact mem_replace member
  · rcases List.mem_append.mp member with earlier | added
    · exact Or.inr earlier
    · exact Or.inl (List.mem_singleton.mp added)

theorem find?_eq_some {id : Uuid} {entry : DeadLetter}
    (found : store.find? id = some entry) : entry ∈ store.entries :=
  List.mem_of_find?_eq_some found

end DeadLetterStore

structure World.Blank (world : World) : Prop where
  events : world.events.events = []
  jobs : world.jobs.jobs = []
  deadLetters : world.deadLetters.entries = []

end WebhookRelay
