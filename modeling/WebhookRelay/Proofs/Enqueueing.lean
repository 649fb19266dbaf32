import WebhookRelay.Proofs.Outcomes

/-!
# What a request enqueues

A request puts a job on the queue for the event that its own body names, with the body as
the payload, whichever of its ways it goes: the event is new, or it was stored by another
request whose job is missing.  Nothing has to be known of the stores for that, since a store
that finds an event finds it under the id that was asked for.  So it holds of any schedule,
whatever the stores held before it and whatever happens meanwhile.
-/

set_option autoImplicit false

namespace WebhookRelay

/-- The job is new, it is for the event that the body of the request names, and it carries
the body. -/
def Receiver.Request.Enqueues (request : Receiver.Request) (job : Job) : Prop :=
  ∃ id eventId text, request.Names eventId ∧ Text.utf8 text = request.body ∧
    job = .create id request.now eventId text

def Ledger.Enqueued (ledger : Ledger) (who : Nat) (job : Job) : Prop :=
  .answered who (.createJob job) (.ok ()) ∈ ledger.history

theorem Ledger.Enqueued.mono {before after : Ledger} {who : Nat} {job : Job}
    (enqueued : before.Enqueued who job) (earlier : before.history <+: after.history) :
    after.Enqueued who job :=
  earlier.mem enqueued

/-! ## Activities of which only the calls are known -/

/-- Nothing is known of the ledger between two calls but that history goes on. -/
def Contract.ofCalls (kind : Call → Prop) : Contract where
  sound _ := True
  allows _ _ request := kind request
  later before after := before.history <+: after.history
  between before after := before.history <+: after.history
  later_refl _ := List.prefix_rfl
  later_trans := List.IsPrefix.trans
  between_refl _ := List.prefix_rfl
  between_trans := List.IsPrefix.trans
  later_of_between earlier := earlier
  keeps _ _ _ := ⟨trivial, List.prefix_append _ _⟩

theorem Program.Uses.ofCalls {α : Type} {kind : Call → Prop} {who : Nat} {ledger : Ledger}
    {program : Program α} (uses : program.Uses kind) :
    program.Upholds (.ofCalls kind) who (fun _ _ => True) ledger :=
  .of_uses uses fun allowed _ => allowed

theorem Program.uses_any {α : Type} (program : Program α) : program.Uses fun _ => True := by
  induction program with
  | done value => exact trivial
  | call request next ih => exact ⟨trivial, ih⟩

/-! ## Receiving -/

namespace Receiver

/-- The calls of a request, of which only the jobs that it enqueues matter. -/
def Submits (request : Request) : Call → Prop
  | .createJob job => request.Enqueues job
  | _ => True

theorem submits_of_aside {request : Request} {call : Call} (aside : call.aside = true) :
    Submits request call := by
  cases call <;> first | exact trivial | cases aside

theorem submits_aside {α : Type} {request : Request} {program : Program α} {who : Nat}
    {ledger : Ledger} (aside : program.Aside) :
    program.Upholds (.ofCalls (Submits request)) who (fun _ _ => True) ledger :=
  (aside.imp fun _ => submits_of_aside).ofCalls

/-- Who is told that an event is accepted has enqueued its job. -/
def Earns (who : Nat) (result : Except ReceiveError Receipt) (ledger : Ledger) : Prop :=
  ∀ eventId id, result = .ok (.accepted eventId id) →
    ∃ job, job.id = id ∧ job.eventId = eventId ∧ ledger.Enqueued who job

theorem Earns.mono {who : Nat} {result : Except ReceiveError Receipt} {before after : Ledger}
    (earns : Earns who result before) (earlier : before.history <+: after.history) :
    Earns who result after := by
  intro eventId id accepted
  obtain ⟨job, sameId, sameEvent, enqueued⟩ := earns eventId id accepted
  exact ⟨job, sameId, sameEvent, enqueued.mono earlier⟩

variable {request : Request} {who : Nat} {ledger : Ledger} {eventId text : String}

theorem settle_earns {receipt : Receipt} (earns : Earns who (.ok receipt) ledger) :
    (settle request.now eventId receipt).Upholds (.ofCalls (Submits request)) who (Earns who)
      ledger := by
  refine .call fun current _ _ => ⟨trivial, fun answer world performed later _ => ?_⟩
  exact .done fun last final _ => earns.mono (later.trans final)

theorem supply_earns (names : request.Names eventId) (carries : Text.utf8 text = request.body)
    {receipt : Uuid → Receipt}
    (fits : ∀ drawn name id, receipt drawn = .accepted name id → name = eventId ∧ id = drawn) :
    (supply request.now eventId text receipt).Upholds (.ofCalls (Submits request)) who
      (Earns who) ledger := by
  unfold supply
  rw [enqueue_outcome]
  refine .call fun current _ _ => ⟨trivial, fun drawn world performed later _ => ?_⟩
  refine .call fun current _ _ =>
    ⟨⟨drawn, eventId, text, names, carries, rfl⟩, fun answer world performed later _ => ?_⟩
  match answer with
  | .error error => exact .done fun _ _ _ => nofun
  | .ok () =>
      refine settle_earns fun name id same => ?_
      obtain ⟨rfl, rfl⟩ := fits drawn name id (Except.ok.inj same)
      exact ⟨_, rfl, rfl, List.mem_append_right _ List.mem_cons_self⟩

theorem acknowledge_earns {known : Event} (names : request.Names known.eventId)
    (carries : Text.utf8 text = request.body) :
    (acknowledge request.now known text).outcome.Upholds (.ofCalls (Submits request)) who
      (Earns who) ledger := by
  cases status : known.status with
  | processed =>
      rw [acknowledge_outcome_processed status]
      exact .done fun _ _ _ => nofun
  | received =>
      rw [acknowledge_outcome_received status]
      refine .call fun current _ _ => ⟨trivial, fun answer world performed later _ => ?_⟩
      match answer with
      | .error error => exact .done fun _ _ _ => nofun
      | .ok [] => exact supply_earns names carries fun _ _ _ => nofun
      | .ok (_ :: _) => exact settle_earns nofun

theorem names_found {known : Event} {current : Ledger} {world : World}
    (names : request.Names eventId)
    (performed : current.world.perform (.findEvent eventId) = some (.ok (some known), world)) :
    request.Names known.eventId := by
  rw [(EventStore.find?_eq_some (World.perform_findEvent performed).symm).2]
  exact names

theorem persist_earns {event : Event} (names : request.Names event.eventId)
    (carries : Text.utf8 text = request.body) :
    (persist request.now event text).outcome.Upholds (.ofCalls (Submits request)) who
      (Earns who) ledger := by
  rw [persist_outcome]
  refine .call fun current _ _ => ⟨trivial, fun answer world performed later _ => ?_⟩
  match answer with
  | .ok () =>
      refine supply_earns names carries fun drawn name id same => ?_
      cases same
      exact ⟨rfl, rfl⟩
  | .error (.duplicate key) =>
      refine .call fun current _ _ => ⟨trivial, fun answer world performed later _ => ?_⟩
      match answer with
      | .error error => exact .done fun _ _ _ => nofun
      | .ok none => exact .done fun _ _ _ => nofun
      | .ok (some known) => exact acknowledge_earns (names_found names performed) carries
  | .error (.notFound _) | .error (.unavailable _) =>
      refine .call fun current _ _ => ⟨trivial, fun answer world performed later _ => ?_⟩
      exact .done fun _ _ _ => nofun

theorem refuse_earns (error : VerificationError) :
    (refuse request error).Upholds (.ofCalls (Submits request)) who (Earns who) ledger := by
  refine .bind trivial (submits_aside (auditRejection_aside request _))
    fun audited _ _ _ _ => ?_
  cases audited <;> exact .done fun _ _ _ => nofun

theorem reject_earns (error : VerificationError) :
    (reject request error).outcome.Upholds (.ofCalls (Submits request)) who (Earns who)
      ledger := by
  by_cases replayed : error = .signatureReplayed
  · subst replayed
    rw [reject_outcome_replayed, knownEvent_outcome]
    cases known : knownFields? request.body with
    | none => exact refuse_earns _
    | some read =>
        obtain ⟨text, fields⟩ := read
        refine .call fun current _ _ => ⟨trivial, fun answer world performed later _ => ?_⟩
        match answer with
        | .error error => exact .done fun _ _ _ => nofun
        | .ok none => exact refuse_earns _
        | .ok (some event) =>
            have names : request.Names fields.eventId :=
              names_iff.mpr ⟨text, fields, readBody_of_knownFields known, rfl⟩
            exact acknowledge_earns (names_found names performed) (utf8_of_knownFields known)
  · rw [reject_outcome_other replayed]
    exact refuse_earns error

theorem takeIn_earns (receiver : Receiver) :
    (receiver.takeIn request).outcome.Upholds (.ofCalls (Submits request)) who (Earns who)
      ledger := by
  cases readable : readBody request.body with
  | error error =>
      rw [takeIn_outcome_unreadable readable]
      exact .done fun _ _ _ => nofun
  | ok read =>
      obtain ⟨text, fields⟩ := read
      have names : request.Names fields.eventId := names_iff.mpr ⟨text, fields, readable, rfl⟩
      have carries : Text.utf8 text = request.body := utf8_of_readBody readable
      rw [takeIn_outcome readable]
      refine .call fun current _ _ => ⟨trivial, fun answer world performed later _ => ?_⟩
      match answer with
      | .error error => exact .done fun _ _ _ => nofun
      | .ok (some known) => exact acknowledge_earns (names_found names performed) carries
      | .ok none =>
          refine .bind trivial (submits_aside (markIfAbsent_checks ..).aside)
            fun marked _ _ _ _ => ?_
          match marked with
          | .error error => exact .done fun _ _ _ => nofun
          | .ok true => exact persist_earns names carries
          | .ok false =>
              refine .bind trivial (submits_aside (auditRejection_aside request _))
                fun audited _ _ _ _ => ?_
              cases audited <;> exact .done fun _ _ _ => nofun

theorem receive_earns (receiver : Receiver) (request : Request) :
    (receiver.receive request).outcome.Upholds (.ofCalls (Submits request)) who (Earns who)
      ledger := by
  by_cases empty : request.body = []
  · rw [receive_outcome_empty empty]
    exact .done fun _ _ _ => nofun
  · rw [receive_outcome empty]
    refine .bind trivial (submits_aside (receiver.verifier.verify_checks ..).aside)
      fun verified _ _ _ _ => ?_
    cases verified with
    | error error => exact reject_earns error
    | ok verified => exact takeIn_earns receiver

end Receiver

/-! ## Schedules -/

def Task.Submits : Task → Call → Prop
  | .receive request => Receiver.Submits request
  | _ => fun _ => True

/-- What an activity can tell at its end about the job that it has enqueued. -/
def Outcome.Earned (who : Nat) : Outcome → Ledger → Prop
  | .received result => Receiver.Earns who result
  | _ => fun _ => True

theorem Pipeline.program_earns (pipeline : Pipeline) (task : Task) {who : Nat}
    {ledger : Ledger} :
    (pipeline.program task).Upholds (.ofCalls task.Submits) who (Outcome.Earned who) ledger := by
  cases task with
  | receive request =>
      exact .bind trivial (pipeline.receiver.receive_earns request)
        fun result current _ _ earns => .done fun last later _ => earns.mono later
  | pass now | capture now | replay now entryId =>
      exact .bind trivial (Program.uses_any _).ofCalls fun _ _ _ _ _ => .done fun _ _ _ => trivial

namespace Scene

def tasks (scene : Scene) : List Task :=
  scene.activities.map Activity.task

variable {pipeline : Pipeline} {scene after : Scene} {who : Nat}

theorem tasks_eq_some {activity : Activity} (found : scene.activities[who]? = some activity) :
    scene.tasks[who]? = some activity.task := by
  rw [tasks, List.getElem?_map, found]
  rfl

theorem tasks_prefix {next : Move} (moved : scene.move pipeline next = some after) :
    scene.tasks <+: after.tasks := by
  obtain ⟨task, rfl, rfl⟩ | ⟨who, task, request, rest, answer, world, rfl, found, performed,
    rfl⟩ | ⟨circumstance, rfl, rfl⟩ := move_cases moved
  · exact ⟨[task], by simp [tasks]⟩
  · have begun : scene.tasks[who]? = some task := tasks_eq_some found
    obtain ⟨place, same⟩ := List.getElem?_eq_some_iff.mp begun
    have unchanged : scene.tasks.set who task = scene.tasks := by
      rw [← same]
      exact List.set_getElem_self place
    show scene.tasks <+: (scene.activities.set who _).map Activity.task
    rw [List.map_set]
    exact unchanged ▸ List.prefix_rfl
  · exact List.prefix_rfl

theorem tasks_keep {next : Move} (moved : scene.move pipeline next = some after) {task : Task}
    (begun : scene.tasks[who]? = some task) : after.tasks[who]? = some task := by
  obtain ⟨more, same⟩ := tasks_prefix moved
  rw [← same, List.getElem?_append_left (List.getElem?_eq_some_iff.mp begun).1]
  exact begun

theorem tasks_of_start {world : World} {task : Task} {moves : List Move}
    (played : (opening world).play pipeline (.start task :: moves) = some scene) :
    scene.tasks[0]? = some task := by
  simp only [play, bind, Option.bind_eq_some_iff] at played
  obtain ⟨middle, started, rest⟩ := played
  cases started
  refine play_preserves (fun scene => scene.tasks[0]? = some task) ?_ rfl rest
  exact fun _ _ _ _ begun moved => tasks_keep moved begun

/-- Each activity goes on as its task demands, and so it did in all calls so far. -/
structure Abides (scene : Scene) : Prop where
  upholds : ∀ {who : Nat} {activity : Activity}, scene.activities[who]? = some activity →
    activity.rest.Upholds (.ofCalls activity.task.Submits) who (Outcome.Earned who)
      scene.toLedger
  called : ∀ {who : Nat} {request : Call} {answer : request.Answer},
    .answered who request answer ∈ scene.history →
      ∃ task, scene.tasks[who]? = some task ∧ task.Submits request

theorem Abides.move (abides : scene.Abides) {next : Move}
    (moved : scene.move pipeline next = some after) : after.Abides := by
  have keeps {who : Nat} {request : Call} {answer : request.Answer}
      (made : .answered who request answer ∈ scene.history) :
      ∃ task, after.tasks[who]? = some task ∧ task.Submits request := by
    obtain ⟨task, begun, submits⟩ := abides.called made
    exact ⟨task, tasks_keep moved begun, submits⟩
  obtain ⟨task, rfl, rfl⟩ | ⟨who, task, request, rest, answer, world, rfl, found, performed,
    rfl⟩ | ⟨circumstance, rfl, rfl⟩ := move_cases moved
  · refine ⟨fun {other activity} running => ?_, fun {other request answer} made => ?_⟩
    · obtain old | ⟨rfl, rfl⟩ := getElem?_added running
      · exact (abides.upholds old).mono (List.prefix_append _ _)
      · exact pipeline.program_earns task
    · rcases List.mem_append.mp made with before | begun
      · exact keeps before
      · cases List.mem_singleton.mp begun
  · obtain ⟨allowed, remaining⟩ := abides.upholds found scene.toLedger List.prefix_rfl trivial
    refine ⟨fun {other activity} running => ?_, fun {other call reply} made => ?_⟩
    · obtain ⟨_, old⟩ | ⟨rfl, rfl⟩ := getElem?_replaced running
      · exact (abides.upholds old).mono (List.prefix_append _ _)
      · exact remaining answer world performed
    · rcases List.mem_append.mp made with before | called
      · exact keeps before
      · cases List.mem_singleton.mp called
        exact ⟨task, tasks_keep moved (tasks_eq_some found), allowed⟩
  · exact ⟨fun running => (abides.upholds running).mono List.prefix_rfl, keeps⟩

theorem abides_opening (world : World) : (opening world).Abides where
  upholds running := by simp [opening] at running
  called made := by simp [opening] at made

theorem abides_of_play {world : World} {moves : List Move}
    (played : (opening world).play pipeline moves = some scene) : scene.Abides := by
  refine play_preserves Abides ?_ (abides_opening world) played
  exact fun _ _ _ _ abides moved => abides.move moved

theorem Abides.enqueues (abides : scene.Abides) {request : Receiver.Request}
    (begun : scene.tasks[who]? = some (.receive request)) {job : Job}
    (enqueued : scene.Enqueued who job) : request.Enqueues job := by
  obtain ⟨task, also, submits⟩ := abides.called enqueued
  cases begun.symm.trans also
  exact submits

theorem Abides.enqueued (abides : scene.Abides) {eventId : String} {id : Uuid}
    (accepted : scene.outcome who = some (.received (.ok (.accepted eventId id)))) :
    ∃ job, job.id = id ∧ job.eventId = eventId ∧ scene.Enqueued who job := by
  unfold outcome at accepted
  split at accepted
  · rename_i task result found
    cases accepted
    have earned : Outcome.Earned who (.received (.ok (.accepted eventId id))) scene.toLedger :=
      abides.upholds found scene.toLedger List.prefix_rfl trivial
    exact earned eventId id rfl
  · cases accepted

end Scene

end WebhookRelay
