import WebhookRelay.Proofs.Parts

/-!
# What calls change

Six calls may change the stores of events, jobs and dead letters; every other call
leaves the three as they are.  For each of the six there is one statement of what it
can do, refusals included, and for the calls that read a store what they answer.
New ids are drawn by nothing but the call for one.
-/

set_option autoImplicit false

namespace WebhookRelay

/-- Whether a call may change the stores of events, jobs or dead letters. -/
def Call.writes : Call → Bool
  | .createEvent _ => true
  | .markProcessed _ _ => true
  | .createJob _ => true
  | .updateJob _ => true
  | .createEntry _ => true
  | .updateEntry _ => true
  | _ => false

/-- Whether a call has nothing to do with those stores: it is about marks, keys, records,
alerts, new ids or deliveries. -/
def Call.aside : Call → Bool
  | .seen _ _ | .mark _ _ _ | .tryMark _ _ _ | .unmark _ _ => true
  | .createAlert _ | .recentAlert _ _ _ | .createAudit _ => true
  | .readKeys _ | .refreshKeys _ | .newId _ | .deliver _ | .exchange _ => true
  | _ => false

/-- Whether a call is about keys or marks, which is all that verifying takes. -/
def Call.checks : Call → Bool
  | .seen _ _ | .mark _ _ _ | .tryMark _ _ _ => true
  | .readKeys _ | .refreshKeys _ => true
  | _ => false

theorem Call.aside_of_checks {call : Call} (checks : call.checks = true) :
    call.aside = true := by
  cases call <;> first | rfl | cases checks

theorem Call.writes_of_aside {call : Call} (aside : call.aside = true) :
    call.writes = false := by
  cases call <;> first | rfl | cases aside

namespace World

structure SameStores (before after : World) : Prop where
  events : after.events = before.events
  jobs : after.jobs = before.jobs
  deadLetters : after.deadLetters = before.deadLetters

namespace SameStores

theorem refl (world : World) : world.SameStores world := ⟨rfl, rfl, rfl⟩

theorem trans {first second third : World} (before : first.SameStores second)
    (after : second.SameStores third) : first.SameStores third :=
  ⟨after.events.trans before.events, after.jobs.trans before.jobs,
    after.deadLetters.trans before.deadLetters⟩

end SameStores

/-! ## Calls that leave the three stores alone -/

variable {call : Call} {world after : World} {answer : call.Answer}

theorem takeRefusal_sameStores (world : World) (site : Site) :
    world.SameStores (world.takeRefusal site).2 :=
  have taken := differs_takeRefusal none world site
  ⟨taken.events (by simp), taken.jobs (by simp), taken.deadLetters (by simp)⟩

theorem perform_sameStores (quiet : call.writes = false)
    (performed : world.perform call = some (answer, after)) : world.SameStores after := by
  have differs := perform_differs performed
  cases call with
  | createEvent | markProcessed | createJob | updateJob | createEntry | updateEntry =>
      cases quiet
  | _ => refine ⟨differs.events ?_, differs.jobs ?_, differs.deadLetters ?_⟩ <;> simp [Call.part?]

/-! ## New ids -/

theorem perform_ids (performed : world.perform call = some (answer, after))
    (noId : ∀ kind, call ≠ .newId kind) : after.ids = world.ids := by
  have differs := perform_differs performed
  cases call with
  | newId kind => exact absurd rfl (noId kind)
  | _ => exact differs.ids (by simp [Call.part?])

theorem perform_supply (performed : world.perform call = some (answer, after)) :
    after.ids.ids = world.ids.ids ∧ ∀ kind, world.ids.drawn kind ≤ after.ids.drawn kind := by
  cases call with
  | newId own =>
      cases performed
      refine ⟨rfl, fun kind => ?_⟩
      show world.ids.drawn kind ≤ if kind = own then world.ids.drawn own + 1 else _
      split
      · rename_i same
        rw [same]
        exact Nat.le_succ _
      · exact Nat.le_refl _
  | _ =>
      rw [perform_ids performed (by simp)]
      exact ⟨rfl, fun _ => Nat.le_refl _⟩

/-! ## Calls that read a store -/

section Reading

variable {world after : World}

theorem perform_findEvent {eventId : String} {found : Option Event}
    (performed : world.perform (.findEvent eventId) = some (.ok found, after)) :
    found = world.events.find? eventId := by
  rw [unlessRefused_reading performed, (world.takeRefusal_sameStores _).events]

theorem perform_jobsByEvent {eventId : String} {jobs : List Job}
    (performed : world.perform (.jobsByEvent eventId) = some (.ok jobs, after)) :
    jobs = world.jobs.byEventId eventId := by
  rw [unlessRefused_reading performed, (world.takeRefusal_sameStores _).jobs]

theorem perform_jobsByStatus {status : JobStatus} {jobs : List Job}
    (performed : world.perform (.jobsByStatus status) = some (.ok jobs, after)) :
    jobs = world.jobs.byStatus status := by
  rw [unlessRefused_reading performed, (world.takeRefusal_sameStores _).jobs]

theorem perform_dueJobs {now : Timestamp} {limit : Nat} {jobs : List Job}
    (performed : world.perform (.dueJobs now limit) = some (.ok jobs, after)) :
    jobs = world.jobs.due now limit := by
  rw [unlessRefused_reading performed, (world.takeRefusal_sameStores _).jobs]

theorem perform_getEntry {id : Uuid} {found : Option DeadLetter}
    (performed : world.perform (.getEntry id) = some (.ok found, after)) :
    found = world.deadLetters.find? id := by
  rw [unlessRefused_reading performed, (world.takeRefusal_sameStores _).deadLetters]

theorem perform_containsJob {jobId : Uuid} {contained : Bool}
    (performed : world.perform (.containsJob jobId) = some (.ok contained, after)) :
    contained = world.deadLetters.containsJob jobId := by
  rw [unlessRefused_reading performed, (world.takeRefusal_sameStores _).deadLetters]

/-- A look-up that fetches fails only where no key set can be had. -/
theorem perform_refreshKeys_error {seenAt : Option Instant} {error : VerificationError}
    (performed : world.perform (.refreshKeys seenAt) = some (.error error, after)) :
    ∃ reason, error = .keySetUnavailable reason := by
  have failed : (world.refreshKeys seenAt).1 = .error error :=
    congrArg Prod.fst (Option.some.inj performed)
  unfold refreshKeys fetchKeys at failed
  split at failed
  · cases failed
  · dsimp only at failed
    split at failed
    · cases failed
      exact ⟨_, rfl⟩
    · cases failed

end Reading

/-! ## Calls that change a store -/

section Writing

variable {world after : World}

/-- An event is stored if its id is new; a call that stores none answers an error.
A duplicate is answered where the event is stored or that very answer was planned. -/
theorem perform_createEvent {event : Event} {answer : Except StoreError Unit}
    (performed : world.perform (.createEvent event) = some (answer, after)) :
    after.jobs = world.jobs ∧ after.deadLetters = world.deadLetters ∧
      ((world.events.find? event.eventId = none ∧
          after.events = ⟨world.events.events ++ [event]⟩ ∧
          (answer = .ok () ∨ answer = .error (.duplicate event.eventId) ∧
            some .race ∈ world.refusals .createEvent)) ∨
        (after.events = world.events ∧ ∃ error, answer = .error error ∧
          ∀ key, error = .duplicate key → (world.events.find? event.eventId).isSome ∨
            some (.store (.duplicate key)) ∈ world.refusals .createEvent)) := by
  have taken := world.takeRefusal_sameStores .createEvent
  simp only [perform, createEvent, changing, EventStore.create, taken.events] at performed
  split at performed
  · rename_i error planned
    cases performed
    refine ⟨taken.jobs, taken.deadLetters, Or.inr ⟨taken.events, error, rfl, ?_⟩⟩
    rintro key rfl
    exact Or.inr (takeRefusal_planned planned)
  · rename_i planned
    cases performed
    refine ⟨taken.jobs, taken.deadLetters, ?_⟩
    by_cases stored : (world.events.find? event.eventId).isSome
    · refine Or.inr ⟨by simp [stored], _, rfl, fun _ _ => Or.inl stored⟩
    · refine Or.inl ⟨by simpa using stored, by simp [stored], Or.inr ⟨rfl, ?_⟩⟩
      exact takeRefusal_planned planned
  · by_cases stored : (world.events.find? event.eventId).isSome
    · rw [if_pos stored] at performed
      cases performed
      exact ⟨taken.jobs, taken.deadLetters,
        Or.inr ⟨taken.events, _, rfl, fun _ _ => Or.inl stored⟩⟩
    · rw [if_neg stored] at performed
      cases performed
      exact ⟨taken.jobs, taken.deadLetters,
        Or.inl ⟨by simpa using stored, rfl, Or.inl rfl⟩⟩

theorem perform_markProcessed {eventId : String} {time : Timestamp}
    {answer : Except StoreError Unit}
    (performed : world.perform (.markProcessed eventId time) = some (answer, after)) :
    after.jobs = world.jobs ∧ after.deadLetters = world.deadLetters ∧
      ((∃ error, answer = .error error ∧ after.events = world.events) ∨
        (answer = .ok () ∧ (world.events.find? eventId).isSome ∧
          after.events = ⟨world.events.events.map fun event =>
            if event.eventId = eventId then EventStore.processedAt time event else event⟩)) := by
  have taken := world.takeRefusal_sameStores .markProcessed
  obtain ⟨error, refused, rfl⟩ | ⟨events, marked, rfl, rfl⟩ := unlessRefused_changing performed
  · exact ⟨taken.jobs, taken.deadLetters, Or.inl ⟨error, refused, taken.events⟩⟩
  · refine ⟨taken.jobs, taken.deadLetters, Or.inr ?_⟩
    rw [taken.events, EventStore.markProcessed] at marked
    split at marked
    · rename_i stored
      cases marked
      exact ⟨rfl, stored, rfl⟩
    · cases marked

theorem perform_createJob {job : Job} {answer : Except QueueError Unit}
    (performed : world.perform (.createJob job) = some (answer, after)) :
    after.events = world.events ∧ after.deadLetters = world.deadLetters ∧
      ((∃ error, answer = .error error ∧ after.jobs = world.jobs) ∨
        (answer = .ok () ∧ world.jobs.find? job.id = none ∧
          after.jobs = ⟨world.jobs.jobs ++ [job]⟩)) := by
  have taken := world.takeRefusal_sameStores .createJob
  obtain ⟨error, refused, rfl⟩ | ⟨jobs, created, rfl, rfl⟩ := unlessRefused_changing performed
  · exact ⟨taken.events, taken.deadLetters, Or.inl ⟨error, refused, taken.jobs⟩⟩
  · refine ⟨taken.events, taken.deadLetters, Or.inr ?_⟩
    rw [taken.jobs, JobStore.create] at created
    split at created
    · cases created
    · rename_i absent
      cases created
      exact ⟨rfl, by simpa using absent, rfl⟩

theorem perform_updateJob {job : Job} {answer : Except QueueError Unit}
    (performed : world.perform (.updateJob job) = some (answer, after)) :
    after.events = world.events ∧ after.deadLetters = world.deadLetters ∧
      ((∃ error, answer = .error error ∧ after.jobs = world.jobs) ∨
        (answer = .ok () ∧ after.jobs = ⟨world.jobs.jobs.map fun other =>
          if other.id = job.id then job else other⟩)) := by
  have taken := world.takeRefusal_sameStores .updateJob
  obtain ⟨error, refused, rfl⟩ | ⟨jobs, updated, rfl, rfl⟩ := unlessRefused_changing performed
  · exact ⟨taken.events, taken.deadLetters, Or.inl ⟨error, refused, taken.jobs⟩⟩
  · refine ⟨taken.events, taken.deadLetters, Or.inr ?_⟩
    rw [taken.jobs, JobStore.update] at updated
    split at updated
    · cases updated
      exact ⟨rfl, rfl⟩
    · cases updated

theorem perform_createEntry {entry : DeadLetter} {answer : Except QueueError Unit}
    (performed : world.perform (.createEntry entry) = some (answer, after)) :
    after.events = world.events ∧ after.jobs = world.jobs ∧
      ((∃ error, answer = .error error ∧ after.deadLetters = world.deadLetters) ∨
        (answer = .ok () ∧ after.deadLetters = world.deadLetters.put entry)) := by
  have taken := world.takeRefusal_sameStores .createEntry
  simp only [perform] at performed
  obtain ⟨error, refused, rfl⟩ | put := unlessRefused_cases performed
  · exact ⟨taken.events, taken.jobs, Or.inl ⟨error, refused, taken.deadLetters⟩⟩
  · cases put
    exact ⟨taken.events, taken.jobs, Or.inr ⟨rfl, by rw [taken.deadLetters]⟩⟩

theorem perform_updateEntry {entry : DeadLetter} {answer : Except QueueError Unit}
    (performed : world.perform (.updateEntry entry) = some (answer, after)) :
    after.events = world.events ∧ after.jobs = world.jobs ∧
      ((∃ error, answer = .error error ∧ after.deadLetters = world.deadLetters) ∨
        (answer = .ok () ∧ after.deadLetters = world.deadLetters.replace entry)) := by
  have taken := world.takeRefusal_sameStores .updateEntry
  obtain ⟨error, refused, rfl⟩ | ⟨deadLetters, updated, answered, rfl⟩ :=
    unlessRefused_changing performed
  · exact ⟨taken.events, taken.jobs, Or.inl ⟨error, refused, taken.deadLetters⟩⟩
  · refine ⟨taken.events, taken.jobs, Or.inr ⟨answered, ?_⟩⟩
    rw [taken.deadLetters, DeadLetterStore.update] at updated
    split at updated
    · cases updated
      rfl
    · cases updated

end Writing

end World

end WebhookRelay
