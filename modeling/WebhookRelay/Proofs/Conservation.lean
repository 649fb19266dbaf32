import WebhookRelay.Proofs.Deliveries

/-!
# What becomes of an accepted event

Requests and passes of one processor come one after the other, and no store fails.  An
event that was accepted has one job from then on.  As long as the job is active it was
delivered in vain as often as it was attempted; in the end its last delivery has succeeded,
or all the attempts that it had were in vain.
-/

set_option autoImplicit false

namespace WebhookRelay

variable {world last : World} {calls : List Answered}

/-! ## Accepting -/

namespace Program

variable {α β : Type}

def EndsIn (promise : α → Prop) : Program α → Prop
  | .done value => promise value
  | .call _ next => ∀ answer, (next answer).EndsIn promise

theorem EndsIn.after {promise : β → Prop} {next : α → Program β}
    (ends : ∀ value, (next value).EndsIn promise) (program : Program α) :
    (program.bind next).EndsIn promise := by
  induction program with
  | done value => exact ends value
  | call request rest ih => exact ih

theorem EndsIn.record {promise : α → Prop} {program : Program α} {value : α}
    (ends : program.EndsIn promise)
    (recorded : program.record world = some (value, calls, last)) : promise value := by
  induction program generalizing world calls with
  | done result =>
      cases recorded
      exact ends
  | call request next ih =>
      obtain ⟨answer, middle, later, _, goesOn, _⟩ := record_call_eq_some.mp recorded
      exact ih answer (ends answer) goesOn

end Program

namespace Receiver

def AcceptsNone : Except ReceiveError Receipt → Prop
  | .ok (.accepted _ _) => False
  | _ => True

theorem supply_acceptsNone (now : Timestamp) (eventId payload : String) :
    (supply now eventId payload fun _ => .duplicate eventId).EndsIn AcceptsNone := by
  refine .after (fun enqueued => ?_) _
  cases enqueued with
  | error error => exact trivial
  | ok id => exact fun _ => trivial

theorem acknowledge_acceptsNone (now : Timestamp) (known : Event) (payload : String) :
    (acknowledge now known payload).outcome.EndsIn AcceptsNone := by
  cases status : known.status with
  | processed =>
      rw [acknowledge_outcome_processed status]
      exact trivial
  | received =>
      rw [acknowledge_outcome_received status]
      intro answer
      match answer with
      | .error error => exact trivial
      | .ok [] => exact supply_acceptsNone now known.eventId payload
      | .ok (_ :: _) => exact fun _ => trivial

theorem refuse_acceptsNone (request : Request) (error : VerificationError) :
    (refuse request error).EndsIn AcceptsNone := by
  refine .after (fun audited => ?_) _
  cases audited <;> exact trivial

theorem reject_acceptsNone (request : Request) (error : VerificationError) :
    (reject request error).outcome.EndsIn AcceptsNone := by
  by_cases replayed : error = .signatureReplayed
  · subst replayed
    rw [reject_outcome_replayed]
    refine .after (fun found => ?_) _
    match found with
    | .error error => exact trivial
    | .ok none => exact refuse_acceptsNone request _
    | .ok (some known) => exact acknowledge_acceptsNone request.now known.1 known.2
  · rw [reject_outcome_other replayed]
    exact refuse_acceptsNone request error

theorem supply_accepted {now : Timestamp} {eventId payload named : String} {id : Uuid}
    (recorded : (supply now eventId payload fun id => .accepted eventId id).record world =
      some (.ok (.accepted named id), calls, last)) :
    ⟨id, named, payload, now⟩ ∈ last.jobs.identities := by
  unfold supply at recorded
  rw [enqueue_outcome] at recorded
  obtain ⟨drawn, numbered, _, newId, recorded, _⟩ := Program.record_call_eq_some.mp recorded
  obtain ⟨answer, stored, _, creates, recorded, _⟩ := Program.record_call_eq_some.mp recorded
  cases answer with
  | error error => cases recorded
  | ok created =>
      obtain ⟨marked, final, _, marks, recorded, _⟩ := Program.record_call_eq_some.mp recorded
      cases recorded
      obtain ⟨_, _, ⟨_, impossible, _⟩ | ⟨_, _, jobs⟩⟩ := World.perform_createJob creates
      · cases impossible
      · rw [(World.perform_markProcessed marks).1, jobs, JobStore.identities, List.map_append]
        exact List.mem_append_right _ List.mem_cons_self

theorem persist_accepted {now : Timestamp} {event : Event} {payload named : String} {id : Uuid}
    (recorded : (persist now event payload).outcome.record world =
      some (.ok (.accepted named id), calls, last)) :
    ⟨id, named, payload, now⟩ ∈ last.jobs.identities := by
  rw [persist_outcome] at recorded
  obtain ⟨answer, middle, later, _, recorded, _⟩ := Program.record_call_eq_some.mp recorded
  match answer with
  | .ok () => exact supply_accepted recorded
  | .error (.duplicate key) =>
      obtain ⟨found, _, _, _, recorded, _⟩ := Program.record_call_eq_some.mp recorded
      match found with
      | .error error => cases recorded
      | .ok none => cases recorded
      | .ok (some known) => exact ((acknowledge_acceptsNone now known payload).record recorded).elim
  | .error (.notFound key) =>
      obtain ⟨_, _, _, _, recorded, _⟩ := Program.record_call_eq_some.mp recorded
      cases recorded
  | .error (.unavailable reason) =>
      obtain ⟨_, _, _, _, recorded, _⟩ := Program.record_call_eq_some.mp recorded
      cases recorded

theorem receive_accepted {receiver : Receiver} {request : Request} {named : String} {id : Uuid}
    (recorded : (receiver.receive request).outcome.record world =
      some (.ok (.accepted named id), calls, last)) :
    ∃ text, Text.utf8 text = request.body ∧
      ⟨id, named, text, request.now⟩ ∈ last.jobs.identities := by
  by_cases empty : request.body = []
  · rw [receive_outcome_empty empty] at recorded
    cases recorded
  · rw [receive_outcome empty] at recorded
    obtain ⟨verified, _, _, _, _, recorded, _⟩ := Program.record_bind recorded
    cases verified with
    | error error => exact ((reject_acceptsNone request error).record recorded).elim
    | ok verified =>
        dsimp only at recorded
        cases readable : readBody request.body with
        | error error =>
            rw [takeIn_outcome_unreadable readable] at recorded
            cases recorded
        | ok read =>
            rw [takeIn_outcome readable] at recorded
            obtain ⟨answer, _, _, _, recorded, _⟩ := Program.record_call_eq_some.mp recorded
            match answer with
            | .error error => cases recorded
            | .ok (some known) =>
                exact ((acknowledge_acceptsNone _ known _).record recorded).elim
            | .ok none =>
                obtain ⟨marked, _, _, _, _, recorded, _⟩ := Program.record_bind recorded
                match marked with
                | .error error => cases recorded
                | .ok true => exact ⟨read.1, utf8_of_readBody readable, persist_accepted recorded⟩
                | .ok false =>
                    obtain ⟨audited, _, _, _, _, recorded, _⟩ := Program.record_bind recorded
                    cases audited <;> cases recorded

/-- A request delivers nothing, and a job that it creates is the first one of its event. -/
theorem receive_tallied (receiver : Receiver) (request : Request) {limit : UInt32}
    (allowed : 1 ≤ limit) (orderly : Orderly world) {made : List Delivery}
    (tallied : Tallied limit world.jobs made) {result : Except ReceiveError Receipt}
    (run : (receiver.receive request).outcome.run world = some (result, last)) :
    Tallied limit last.jobs made := by
  have gentle := (receiver.receive_asks request).imp fun _ => Receiver.Asks.gentle
  have upholds : (receiver.receive request).outcome.Upholds .alone 0 (fun _ _ => True)
      ⟨world, []⟩ := receiver.receive_inTurn request orderly
  refine Program.Upholds.run_preserves (fun world => Tallied limit world.jobs made) ?_
    gentle upholds orderly run tallied
  intro current call answer after orderly permitted gentle performed tallied
  obtain same | ⟨job, rfl, _, added⟩ | ⟨job, rfl, _⟩ := World.perform_jobs performed
  · rw [same]
    exact tallied
  · obtain ⟨id, now, eventId, payload, rfl⟩ := gentle
    rw [added]
    exact tallied.create allowed id now payload permitted.2
  · exact gentle.elim

end Receiver

/-! ## Chronicles -/

/-- The request of the chapter was accepted, and the job of the event got this id. -/
def Chapter.Accepted (chapter : Chapter) (request : Receiver.Request) (eventId : String)
    (jobId : Uuid) : Prop :=
  chapter.task = .receive request ∧
    chapter.outcome = .received (.ok (.accepted eventId jobId))

/-- A task delivers jobs that it found active, no event twice, each with one more attempt
begun. -/
def Chapter.DeliversActive (chapter : Chapter) : Prop :=
  ∃ batch, Processor.Current batch chapter.before.jobs ∧ (batch.map Job.eventId).Nodup ∧
    (deliveries chapter.calls).map Delivery.job = batch.map Job.beginAttempt

namespace Chronicle

def delivered (chronicle : Chronicle) : List Delivery :=
  deliveries (chronicle.chapters.flatMap Chapter.calls)

def deliveredOf (chronicle : Chronicle) (eventId : String) : List Delivery :=
  deliveriesOf eventId chronicle.delivered

/-- What is written down agrees with what is stored. -/
structure Conserves (limit : UInt32) (chronicle : Chronicle) : Prop where
  reliable : chronicle.world.Reliable
  orderly : Orderly chronicle.world
  tallied : Tallied limit chronicle.world.jobs chronicle.delivered
  accepted : ∀ chapter ∈ chronicle.chapters, ∀ request eventId jobId,
    chapter.Accepted request eventId jobId → ∃ text, Text.utf8 text = request.body ∧
      ⟨jobId, eventId, text, request.now⟩ ∈ chronicle.world.jobs.identities
  delivers : ∀ chapter ∈ chronicle.chapters, chapter.DeliversActive

variable {receiver : Receiver} {processor : Processor} {limit : UInt32}
  {pipeline : Pipeline} {chronicle after : Chronicle}

theorem delivered_append (chronicle : Chronicle) (world : World) (chapter : Chapter) :
    delivered { world, chapters := chronicle.chapters ++ [chapter] } =
      chronicle.delivered ++ deliveries chapter.calls := by
  simp only [delivered, List.flatMap_append, List.flatMap_singleton, deliveries_append]

theorem conserves_opening (blank : world.Blank) (reliable : world.Reliable) :
    Conserves limit (opening world) where
  reliable := reliable
  orderly := blank.orderly
  tallied := .empty blank.jobs
  accepted := by simp [opening]
  delivers := by simp [opening]

namespace Conserves

/-- What a chapter has to tell for the accounts to agree after it. -/
theorem chapter (conserves : chronicle.Conserves limit) {chapter : Chapter}
    (reliable : last.Reliable) (orderly : Orderly last)
    (jobs : chronicle.world.jobs.identities <+: last.jobs.identities)
    (tallied : Tallied limit last.jobs (chronicle.delivered ++ deliveries chapter.calls))
    (accepted : ∀ request eventId jobId, chapter.Accepted request eventId jobId →
      ∃ text, Text.utf8 text = request.body ∧
        ⟨jobId, eventId, text, request.now⟩ ∈ last.jobs.identities)
    (delivers : chapter.DeliversActive) :
    Conserves limit { world := last, chapters := chronicle.chapters ++ [chapter] } where
  reliable := reliable
  orderly := orderly
  tallied := by
    rw [delivered_append]
    exact tallied
  accepted := by
    intro other member request eventId jobId isAccepted
    rcases List.mem_append.mp member with old | new
    · obtain ⟨text, same, stored⟩ :=
        conserves.accepted other old request eventId jobId isAccepted
      exact ⟨text, same, jobs.mem stored⟩
    · obtain rfl := List.mem_singleton.mp new
      exact accepted request eventId jobId isAccepted
  delivers := by
    intro other member
    rcases List.mem_append.mp member with old | new
    · exact conserves.delivers other old
    · obtain rfl := List.mem_singleton.mp new
      exact delivers

theorem receive (conserves : chronicle.Conserves limit) (allowed : 1 ≤ limit)
    {request : Receiver.Request} {outcome : Outcome} (reliable : last.Reliable)
    (orderly : Orderly last)
    (jobs : chronicle.world.jobs.identities <+: last.jobs.identities)
    (recorded : (pipeline.program (.receive request)).record chronicle.world =
      some (outcome, calls, last)) :
    Conserves limit { world := last, chapters := chronicle.chapters ++
      [⟨.receive request, chronicle.world, calls, outcome⟩] } := by
  have noPass (now : Timestamp) : Task.receive request ≠ .pass now := nofun
  have gentle := pipeline.program_gentle noPass
  have nothing : deliveries calls = [] := deliveries_of_gentle (gentle.record recorded)
  rw [Pipeline.program] at recorded
  obtain ⟨result, early, final, late, receives, ends, rfl⟩ := Program.record_bind recorded
  cases ends
  refine conserves.chapter reliable orderly jobs ?_ ?_ ?_
  · rw [nothing, List.append_nil]
    exact pipeline.receiver.receive_tallied request allowed conserves.orderly
      conserves.tallied (Program.run_of_record receives)
  · rintro other eventId jobId ⟨isTask, isOutcome⟩
    cases isTask
    cases isOutcome
    exact Receiver.receive_accepted receives
  · exact ⟨[], nofun, List.nodup_nil, by rw [nothing]; rfl⟩

theorem pass (conserves : chronicle.Conserves processor.backoff.maxAttempts)
    {now : Timestamp} {outcome : Outcome} (reliable : last.Reliable) (orderly : Orderly last)
    (jobs : chronicle.world.jobs.identities <+: last.jobs.identities)
    (recorded : (Pipeline.program { receiver, processor } (.pass now)).record
      chronicle.world = some (outcome, calls, last)) :
    Conserves processor.backoff.maxAttempts { world := last, chapters := chronicle.chapters ++
      [⟨.pass now, chronicle.world, calls, outcome⟩] } := by
  rw [Pipeline.program] at recorded
  obtain ⟨result, early, final, late, passes, ends, rfl⟩ := Program.record_bind recorded
  cases ends
  rw [List.append_nil]
  obtain ⟨tallied, delivers⟩ := Processor.pass_record passes conserves.reliable
    conserves.orderly conserves.tallied
  exact conserves.chapter reliable orderly jobs tallied (fun _ _ _ => nofun) delivers

theorem next (conserves : chronicle.Conserves processor.backoff.maxAttempts)
    (allowed : 1 ≤ processor.backoff.maxAttempts) {episode : Episode} (smooth : episode.Smooth)
    (written : chronicle.next { receiver, processor } episode = some after) :
    after.Conserves processor.backoff.maxAttempts := by
  obtain ⟨orderly, follows⟩ := conserves.orderly.take smooth.ingests (next_take written)
  obtain ⟨task, outcome, calls, last, rfl, recorded, rfl⟩ | ⟨circumstance, rfl, rfl⟩ :=
    next_cases written
  · have reliable := conserves.reliable.run (Program.run_of_record recorded)
    cases task with
    | receive request =>
        exact conserves.receive allowed reliable orderly follows.jobs recorded
    | pass now => exact conserves.pass reliable orderly follows.jobs recorded
    | capture now => exact smooth.elim
    | replay now entryId => exact smooth.elim
  · have stores := chronicle.world.under_sameStores circumstance
    refine ⟨conserves.reliable.under smooth, orderly, ?_, ?_, conserves.delivers⟩
    · show Tallied _ (chronicle.world.under circumstance).jobs chronicle.delivered
      rw [stores.jobs]
      exact conserves.tallied
    · show ∀ chapter ∈ chronicle.chapters, _
      rw [stores.jobs]
      exact conserves.accepted

theorem write (conserves : chronicle.Conserves processor.backoff.maxAttempts)
    (allowed : 1 ≤ processor.backoff.maxAttempts) {episodes : List Episode}
    (smooth : ∀ episode ∈ episodes, episode.Smooth)
    (written : chronicle.write { receiver, processor } episodes = some after) :
    after.Conserves processor.backoff.maxAttempts := by
  refine write_preserves (Conserves processor.backoff.maxAttempts) ?_ conserves written
  intro episode member before middle kept begun
  exact kept.next allowed (smooth episode member) begun

theorem job (conserves : chronicle.Conserves limit) {chapter : Chapter}
    (member : chapter ∈ chronicle.chapters) {request : Receiver.Request} {eventId : String}
    {jobId : Uuid} (accepted : chapter.Accepted request eventId jobId) :
    ∃ job, chronicle.world.jobs.byEventId eventId = [job] ∧ job.id = jobId ∧
      Text.utf8 job.payload = request.body ∧
      job.Accounted limit (chronicle.deliveredOf eventId) ∧
      ∀ delivery ∈ chronicle.deliveredOf eventId,
        Text.utf8 delivery.job.payload = request.body := by
  obtain ⟨text, same, stored⟩ := conserves.accepted chapter member request eventId jobId accepted
  obtain ⟨job, jobMember, isJob⟩ := List.mem_map.mp stored
  have ofEvent : job.eventId = eventId := congrArg JobIdentity.eventId isJob
  have payload : job.payload = text := congrArg JobIdentity.payload isJob
  refine ⟨job, ?_, congrArg JobIdentity.id isJob, by rw [payload, same], ?_, ?_⟩
  · have found : job ∈ chronicle.world.jobs.byEventId eventId :=
      JobStore.mem_byEventId.mpr ⟨jobMember, ofEvent⟩
    have atMost := conserves.orderly.length_byEventId_le eventId
    obtain ⟨other, isOther⟩ := List.length_eq_one_iff.mp
      (Nat.le_antisymm atMost (List.length_pos_of_mem found))
    rw [isOther] at found ⊢
    rw [List.mem_singleton.mp found]
  · rw [← ofEvent]
    exact conserves.tallied.accounted job jobMember
  · intro delivery deliveryMember
    obtain ⟨made, sameEvent⟩ := List.mem_filter.mp deliveryMember
    have carried := conserves.tallied.carried job jobMember delivery made
      ((of_decide_eq_true sameEvent).trans ofEvent.symm)
    rw [carried, payload, same]

end Conserves

theorem chapters_write {episodes : List Episode}
    (written : chronicle.write pipeline episodes = some after) :
    chronicle.chapters <+: after.chapters := by
  refine write_preserves (fun other => chronicle.chapters <+: other.chapters) ?_
    List.prefix_rfl written
  intro episode _ before middle kept begun
  obtain ⟨task, outcome, calls, world, rfl, _, rfl⟩ | ⟨circumstance, rfl, rfl⟩ :=
    next_cases begun
  · exact kept.trans (List.prefix_append _ _)
  · exact kept

theorem deliveredOf_prefix (grown : chronicle.chapters <+: after.chapters) (eventId : String) :
    chronicle.deliveredOf eventId <+: after.deliveredOf eventId := by
  obtain ⟨more, same⟩ := grown
  unfold deliveredOf delivered
  rw [← same, List.flatMap_append, deliveries_append, deliveriesOf_append]
  exact List.prefix_append _ _

end Chronicle

/-- Requests and passes of one processor, one after the other, from empty stores that do not
fail, with any changes of time, keys and network between them; deliveries end in any way.  An
event that was accepted has one job, which carries the body of its request.  An active job was
delivered in vain as often as it was attempted, which is less often than it may be; a processed
one succeeded with its last delivery and not before; and a failed one was delivered in vain as
often as it may be.  Every delivery carries the accepted body, a pass delivers only jobs that
it found active, each once, and after the job has ended the event is never delivered again. -/
theorem accepted_events_are_conserved (receiver : Receiver) (processor : Processor)
    (allowed : 1 ≤ processor.backoff.maxAttempts) {world : World} (blank : world.Blank)
    (reliable : world.Reliable) {episodes more : List Episode}
    (smooth : ∀ episode ∈ episodes ++ more, episode.Smooth) {chronicle later : Chronicle}
    (written : (Chronicle.opening world).write { receiver, processor } episodes = some chronicle)
    (continued : chronicle.write { receiver, processor } more = some later) :
    (∀ chapter ∈ chronicle.chapters, ∀ request eventId jobId,
      chapter.Accepted request eventId jobId →
      ∃ job, chronicle.world.jobs.byEventId eventId = [job] ∧ job.id = jobId ∧
        Text.utf8 job.payload = request.body ∧
        job.Accounted processor.backoff.maxAttempts (chronicle.deliveredOf eventId) ∧
        (∀ delivery ∈ chronicle.deliveredOf eventId,
          Text.utf8 delivery.job.payload = request.body) ∧
        (job.isTerminal = true →
          later.deliveredOf eventId = chronicle.deliveredOf eventId)) ∧
    ∀ chapter ∈ chronicle.chapters, chapter.DeliversActive := by
  have conserves : chronicle.Conserves processor.backoff.maxAttempts :=
    (Chronicle.conserves_opening blank reliable).write allowed
      (fun episode member => smooth episode (List.mem_append_left _ member)) written
  have conservesLater : later.Conserves processor.backoff.maxAttempts :=
    conserves.write allowed
      (fun episode member => smooth episode (List.mem_append_right _ member)) continued
  have grown := Chronicle.chapters_write continued
  refine ⟨fun chapter member request eventId jobId accepted => ?_, conserves.delivers⟩
  obtain ⟨job, only, sameId, carries, accounted, delivered⟩ := conserves.job member accepted
  refine ⟨job, only, sameId, carries, accounted, delivered, fun ended => ?_⟩
  obtain ⟨_, _, _, _, accountedLater, _⟩ := conservesLater.job (grown.mem member) accepted
  exact accounted.ended ended accountedLater (Chronicle.deliveredOf_prefix grown eventId)

namespace Sample

def flakyWorld : World where
  courier := { outcomes := [("*", [some (.delivery "down"), none])] }

/-- A request, a pass that delivers its job in vain and one that delivers it. -/
def delivering : List Episode :=
  [.run (.receive request), .run (.pass ⟨0, 0⟩), .run (.pass ⟨1000000, 0⟩)]

def afterwards : List Episode :=
  [.run (.pass ⟨2000000, 0⟩)]

set_option maxRecDepth 100000 in
theorem retried_event_is_delivered_once :
    ∃ chronicle later, (Chronicle.opening flakyWorld).write pipeline delivering = some chronicle ∧
      chronicle.write pipeline afterwards = some later ∧
      ∃ job, chronicle.world.jobs.byEventId "e" = [job] ∧ job.status = .processed ∧
        ∃ first second, later.deliveredOf "e" = [first, second] ∧ first.failed ∧
          second.result = .ok () ∧ Text.utf8 second.job.payload = body := by
  obtain ⟨chronicle, written, ended, receipt, later, continued, _⟩ :
      ∃ chronicle ∈ (Chronicle.opening flakyWorld).write pipeline delivering,
        (∀ job ∈ chronicle.world.jobs.jobs, job.status = .processed ∧ job.attempts = 2) ∧
        (∀ chapter ∈ chronicle.chapters.head?,
          chapter.outcome.receipt? = some (.accepted "e" (.ofNat 0))) ∧
        ∃ later ∈ chronicle.write pipeline afterwards, True := by decide +kernel
  have smooth : ∀ episode ∈ delivering ++ afterwards, episode.Smooth := by
    simp [delivering, afterwards, Episode.Smooth, Task.Ingests]
  have reliable : flakyWorld.Reliable := fun _ => rfl
  obtain ⟨conserved, _⟩ := accepted_events_are_conserved { verifier := { skip := true } } {}
    (by decide) ⟨rfl, rfl, rfl⟩ reliable smooth written continued
  -- The first chapter is the one of the request.
  obtain ⟨first, member, isTask, isFirst⟩ : ∃ first ∈ chronicle.chapters,
      first.task = .receive request ∧ first ∈ chronicle.chapters.head? := by
    have started := Option.mem_def.mp written
    rw [delivering, Chronicle.write] at started
    obtain ⟨middle, begun, rest⟩ := Option.bind_eq_some_iff.mp started
    obtain ⟨task, outcome, calls, world, same, _, isMiddle⟩ | ⟨_, impossible, _⟩ :=
      Chronicle.next_cases begun
    · obtain ⟨more, grown⟩ := Chronicle.chapters_write rest
      rw [← grown, isMiddle]
      cases same
      exact ⟨_, List.mem_cons_self, rfl, rfl⟩
    · cases impossible
  have accepted : first.Accepted request "e" (.ofNat 0) :=
    ⟨isTask, Outcome.receipt?_eq_some.mp (receipt first isFirst)⟩
  obtain ⟨job, only, _, carries, accounted, delivered, final⟩ :=
    conserved first member request "e" _ accepted
  have jobMember : job ∈ chronicle.world.jobs.byEventId "e" := by
    rw [only]
    exact List.mem_cons_self
  obtain ⟨processed, twice⟩ := ended job (JobStore.mem_byEventId.mp jobMember).1
  unfold Job.Accounted at accounted
  rw [processed] at accounted
  obtain ⟨earlier, last, same, succeeded, failures, counted, _⟩ := accounted
  rw [twice] at counted
  obtain ⟨vain, rfl⟩ := List.length_eq_one_iff.mp (Nat.succ.inj counted)
  refine ⟨chronicle, later, written, continued, job, only, processed, vain, last, ?_, ?_,
    succeeded, ?_⟩
  · rw [final, same]
    · rfl
    · rw [Job.isTerminal, processed]
      rfl
  · exact failures vain List.mem_cons_self
  · rw [delivered last]
    · rfl
    · rw [same]
      exact List.mem_cons_of_mem _ List.mem_cons_self

end Sample

end WebhookRelay
