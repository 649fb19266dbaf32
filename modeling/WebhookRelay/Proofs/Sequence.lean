import WebhookRelay.Proofs.Order

/-!
# Requests and passes in turn

Requests that are received one after the other, with passes of the processor between
them, keep a world orderly whichever calls are refused and wherever one of them is broken
off.  An event may be left without its job, or with a job but without its date; the next
request for it starts from either.
-/

set_option autoImplicit false

namespace WebhookRelay

variable {who : Nat} {ledger : Ledger}

namespace Program.Upholds

variable {α : Type} {promise : α → Ledger → Prop}

theorem doneAlone {value : α} (promised : promise value ledger) :
    (Program.done value).Upholds .alone who promise ledger := by
  intro current unchanged _
  subst unchanged
  exact promised

theorem callAlone {request : Call} {next : request.Answer → Program α}
    (step : Orderly ledger.world → ledger.world.Permits request ∧
      ∀ answer world, ledger.world.perform request = some (answer, world) →
        (next answer).Upholds .alone who promise (ledger.answered who request answer world)) :
    (Program.call request next).Upholds .alone who promise ledger := by
  intro current unchanged orderly
  subst unchanged
  exact step orderly

end Program.Upholds

theorem Program.Aside.thenAlone {α β : Type} {program : Program α} {after : α → Program β}
    {promise : β → Ledger → Prop} (aside : program.Aside) (orderly : Orderly ledger.world)
    (rest : ∀ value current, Orderly current.world →
      (after value).Upholds .alone who promise current) :
    (program.bind after).Upholds .alone who promise ledger := by
  refine .bind orderly (Contract.alone_allowsPasses.upholds aside) ?_
  intro value current currentOrderly _ _
  exact rest value current currentOrderly

/-! ## Receiving in turn -/

namespace Receiver

theorem enqueue_inTurn (now : Timestamp) {eventId : String} (payload : String)
    (known : ledger.world.events.Knows eventId)
    (without : ¬ledger.world.jobs.HasJob eventId) :
    (enqueue now eventId payload).outcome.Upholds .alone who
      (fun result current => current.world.events = ledger.world.events ∧
        ∀ id, result = .ok id → current.world.jobs.HasJob eventId) ledger := by
  rw [enqueue_outcome]
  refine .callAlone fun _ => ⟨trivial, fun id drawn newId => ?_⟩
  obtain ⟨events, jobs, _⟩ := World.perform_sameStores rfl newId
  refine .callAlone fun _ => ⟨?_, fun answer world performed => ?_⟩
  · show drawn.events.Knows eventId ∧ ¬drawn.jobs.HasJob eventId
    rw [events, jobs]
    exact ⟨known, without⟩
  · obtain ⟨sameEvents, _, created⟩ := World.perform_createJob performed
    have same : world.events = ledger.world.events := sameEvents.trans events
    cases answer with
    | error error => exact .doneAlone ⟨same, nofun⟩
    | ok done =>
        obtain ⟨_, impossible, _⟩ | ⟨_, _, added⟩ := created
        · cases impossible
        · have hasJob : world.jobs.HasJob eventId := by
            refine ⟨.create id now eventId payload, ?_, rfl⟩
            rw [added]
            exact List.mem_append_right _ List.mem_cons_self
          exact .doneAlone ⟨same, fun _ _ => hasJob⟩

theorem settle_inTurn (now : Timestamp) {eventId : String} {receipt : Receipt}
    (hasJob : ledger.world.jobs.HasJob eventId) (undated : ledger.world.Undated eventId) :
    (settle now eventId receipt).Upholds .alone who (fun _ _ => True) ledger :=
  .callAlone fun _ => ⟨⟨hasJob, undated⟩, fun _ _ _ => .doneAlone trivial⟩

theorem supply_inTurn (now : Timestamp) {known : Event} {payload : String}
    {receipt : Uuid → Receipt} (orderly : Orderly ledger.world)
    (member : known ∈ ledger.world.events.events) (received : known.status = .received)
    (without : ¬ledger.world.jobs.HasJob known.eventId) :
    (supply now known.eventId payload receipt).Upholds .alone who
      (fun _ _ => True) ledger := by
  have isKnown : ledger.world.events.Knows known.eventId :=
    EventStore.knows_iff.mpr ⟨known, member, rfl⟩
  refine .bind orderly (enqueue_inTurn now payload isKnown without)
    fun enqueued current _ _ ⟨sameEvents, hasJob⟩ => ?_
  cases enqueued with
  | error error => exact .doneAlone trivial
  | ok id =>
      refine settle_inTurn now (hasJob id rfl) ?_
      rw [World.Undated, sameEvents]
      exact orderly.undated member received

/-- A duplicate makes up for a missing job, and only for a missing one. -/
theorem acknowledge_inTurn (now : Timestamp) {known : Event} (payload : String)
    (member : known ∈ ledger.world.events.events) :
    (acknowledge now known payload).outcome.Upholds .alone who (fun _ _ => True) ledger := by
  cases status : known.status with
  | processed =>
      rw [acknowledge_outcome_processed status]
      exact .doneAlone trivial
  | received =>
      rw [acknowledge_outcome_received status]
      refine .callAlone fun orderly => ⟨trivial, fun answer world performed => ?_⟩
      have quiet := World.perform_sameStores rfl performed
      have orderlyAfter := (orderly.quiet quiet).1
      have stillMember : known ∈ world.events.events := by
        rw [quiet.events]
        exact member
      match answer with
      | .error error => exact .doneAlone trivial
      | .ok (job :: rest) =>
          have found : world.jobs.byEventId known.eventId = job :: rest := by
            rw [quiet.jobs]
            exact (World.perform_jobsByEvent performed).symm
          exact settle_inTurn now (JobStore.hasJob_of_byEventId found)
            (orderlyAfter.undated stillMember status)
      | .ok [] =>
          have without : world.jobs.byEventId known.eventId = [] := by
            rw [quiet.jobs]
            exact (World.perform_jobsByEvent performed).symm
          exact supply_inTurn now orderlyAfter stillMember status
            (JobStore.byEventId_eq_nil.mp without)

theorem member_of_answered {eventId : String} {known : Event} {world : World}
    (performed : ledger.world.perform (.findEvent eventId) = some (.ok (some known), world)) :
    known ∈ world.events.events := by
  rw [(World.perform_sameStores rfl performed).events]
  exact (EventStore.find?_eq_some (World.perform_findEvent performed).symm).1

theorem persist_inTurn (now : Timestamp) {event : Event} (payload : String)
    (received : event.status = .received) (undated : event.processedAt = none) :
    (persist now event payload).outcome.Upholds .alone who (fun _ _ => True) ledger := by
  rw [persist_outcome]
  refine .callAlone fun orderly =>
    ⟨⟨received, undated⟩, fun answer world performed => ?_⟩
  have orderlyAfter := (orderly.createEvent ⟨received, undated⟩ performed).1
  match answer with
  | .ok () =>
      obtain ⟨jobs, _, ⟨unknown, events, _⟩ | ⟨_, _, impossible, _⟩⟩ :=
        World.perform_createEvent performed
      · have member : event ∈ world.events.events := by
          rw [events]
          exact List.mem_append_right _ List.mem_cons_self
        have without : ¬world.jobs.HasJob event.eventId := by
          rw [jobs]
          exact orderly.not_hasJob (EventStore.not_knows unknown)
        exact supply_inTurn now orderlyAfter member received without
      · cases impossible
  | .error (.duplicate key) =>
      refine .callAlone fun _ => ⟨trivial, fun answer world found => ?_⟩
      match answer with
      | .error error => exact .doneAlone trivial
      | .ok none => exact .doneAlone trivial
      | .ok (some known) => exact acknowledge_inTurn now payload (member_of_answered found)
  | .error (.notFound key) =>
      exact .callAlone fun _ => ⟨trivial, fun _ _ _ => .doneAlone trivial⟩
  | .error (.unavailable reason) =>
      exact .callAlone fun _ => ⟨trivial, fun _ _ _ => .doneAlone trivial⟩

theorem takeIn_inTurn (receiver : Receiver) (request : Request) :
    (receiver.takeIn request).outcome.Upholds .alone who (fun _ _ => True) ledger := by
  cases readable : readBody request.body with
  | error error =>
      rw [takeIn_outcome_unreadable readable]
      exact .doneAlone trivial
  | ok read =>
      rw [takeIn_outcome readable]
      refine .callAlone fun orderly => ⟨trivial, fun answer world performed => ?_⟩
      have orderlyAfter := (orderly.quiet (World.perform_sameStores rfl performed)).1
      match answer with
      | .error error => exact .doneAlone trivial
      | .ok (some known) =>
          exact acknowledge_inTurn request.now read.1 (member_of_answered performed)
      | .ok none =>
          refine (markIfAbsent_checks ..).aside.thenAlone orderlyAfter
            fun marked current currentOrderly => ?_
          match marked with
          | .error error => exact .doneAlone trivial
          | .ok true => exact persist_inTurn request.now read.1 rfl rfl
          | .ok false =>
              refine (auditRejection_aside ..).thenAlone currentOrderly fun audited _ _ => ?_
              cases audited <;> exact .doneAlone trivial

theorem refuse_inTurn (request : Request) (error : VerificationError)
    (orderly : Orderly ledger.world) :
    (refuse request error).Upholds .alone who (fun _ _ => True) ledger := by
  refine (auditRejection_aside request error.code).thenAlone orderly fun audited _ _ => ?_
  cases audited <;> exact .doneAlone trivial

theorem reject_inTurn (request : Request) (error : VerificationError)
    (orderly : Orderly ledger.world) :
    (reject request error).outcome.Upholds .alone who (fun _ _ => True) ledger := by
  by_cases replayed : error = .signatureReplayed
  · subst replayed
    rw [reject_outcome_replayed, knownEvent_outcome]
    cases knownFields? request.body with
    | none => exact refuse_inTurn request _ orderly
    | some read =>
        refine .callAlone fun orderly => ⟨trivial, fun answer world performed => ?_⟩
        match answer with
        | .error error => exact .doneAlone trivial
        | .ok none =>
            have unchanged := World.perform_sameStores rfl performed
            exact refuse_inTurn request _ (orderly.quiet unchanged).1
        | .ok (some known) =>
            exact acknowledge_inTurn request.now read.1 (member_of_answered performed)
  · rw [reject_outcome_other replayed]
    exact refuse_inTurn request error orderly

theorem receive_inTurn (receiver : Receiver) (request : Request)
    (orderly : Orderly ledger.world) :
    (receiver.receive request).outcome.Upholds .alone who (fun _ _ => True) ledger := by
  by_cases empty : request.body = []
  · rw [receive_outcome_empty empty]
    exact .doneAlone trivial
  · rw [receive_outcome empty]
    refine (receiver.verifier.verify_checks ..).aside.thenAlone orderly
      fun verified current currentOrderly => ?_
    cases verified with
    | error error => exact reject_inTurn request error currentOrderly
    | ok verified => exact takeIn_inTurn receiver request

end Receiver

/-! ## Episodes -/

/-- The world after the first calls of a program, or after all of them. -/
def Program.runFor {α : Type} : Nat → Program α → World → Option World
  | _, .done _, world => some world
  | 0, .call _ _, world => some world
  | calls + 1, .call request next, world =>
      match world.perform request with
      | none => none
      | some (answer, world) => (next answer).runFor calls world

/-- One thing after the other: a task that is run to its end, one that is broken off
after some of its calls, or a change outside. -/
inductive Episode where
  | run (task : Task)
  | breakOff (task : Task) (calls : Nat)
  | change (circumstance : Circumstance)

def Task.Ingests : Task → Prop
  | .receive _ => True
  | .pass _ => True
  | _ => False

def Episode.Ingests : Episode → Prop
  | .run task => task.Ingests
  | .breakOff task _ => task.Ingests
  | .change _ => True

def World.take (pipeline : Pipeline) (world : World) : Episode → Option World
  | .run task => ((pipeline.program task).run world).map Prod.snd
  | .breakOff task calls => (pipeline.program task).runFor calls world
  | .change circumstance => some (world.under circumstance)

def World.serve (pipeline : Pipeline) (world : World) : List Episode → Option World
  | [] => some world
  | episode :: rest => do
      let world ← world.take pipeline episode
      world.serve pipeline rest

/-- A program that runs alone keeps what it upholds wherever it is broken off. -/
theorem Program.Upholds.runFor {α : Type} {contract : Contract} {promise : α → Ledger → Prop}
    {program : Program α} {calls : Nat} {world : World}
    (upholds : program.Upholds contract who promise ledger) (sound : contract.sound ledger)
    (run : program.runFor calls ledger.world = some world) :
    ∃ last : Ledger, last.world = world ∧ contract.sound last ∧ contract.later ledger last := by
  induction program generalizing ledger calls with
  | done value =>
      simp only [Program.runFor, Option.some.injEq] at run
      exact ⟨ledger, run, sound, contract.later_refl ledger⟩
  | call request next ih =>
      cases calls with
      | zero =>
          simp only [Program.runFor, Option.some.injEq] at run
          exact ⟨ledger, run, sound, contract.later_refl ledger⟩
      | succ calls =>
          obtain ⟨allowed, rest⟩ := upholds ledger (contract.between_refl ledger) sound
          simp only [Program.runFor] at run
          split at run
          · cases run
          · rename_i answer middle performed
            obtain ⟨middleSound, middleLater⟩ := contract.keeps sound allowed performed
            obtain ⟨last, same, lastSound, lastLater⟩ :=
              ih answer (rest answer middle performed) middleSound run
            exact ⟨last, same, lastSound, contract.later_trans middleLater lastLater⟩

theorem World.Blank.orderly {world : World} (blank : world.Blank) : Orderly world where
  events := by simp [blank.events]
  ids := by simp [JobStore.Distinct, blank.jobs]
  single := by simp [JobStore.identities, blank.jobs]
  stored := by simp [JobStore.identities, blank.jobs]
  processed := by simp [blank.events]
  dated := by simp [blank.events]

variable {pipeline : Pipeline} {world last : World}

theorem Task.Ingests.inTurn {task : Task} (ingests : task.Ingests)
    (orderly : Orderly ledger.world) :
    (pipeline.program task).Upholds .alone who (fun _ _ => True) ledger := by
  cases task with
  | receive request =>
      exact .bind orderly (pipeline.receiver.receive_inTurn request orderly)
        fun _ _ _ _ _ => .doneAlone trivial
  | pass now =>
      exact .bind orderly (Processor.pass_upholds Contract.alone_allowsPasses
        pipeline.processor pipeline.delivers now) fun _ _ _ _ _ => .doneAlone trivial
  | capture now => exact ingests.elim
  | replay now entryId => exact ingests.elim

theorem Orderly.take (orderly : Orderly world) {episode : Episode} (ingests : episode.Ingests)
    (taken : world.take pipeline episode = some last) :
    Orderly last ∧ Follows world last := by
  have upholds {task : Task} (ingests : task.Ingests) :
      (pipeline.program task).Upholds .alone 0 (fun _ _ => True) ⟨world, []⟩ :=
    ingests.inTurn orderly
  cases episode with
  | change circumstance =>
      cases taken
      exact orderly.quiet (world.under_sameStores circumstance)
  | run task =>
      obtain ⟨⟨outcome, final⟩, run, rfl⟩ := Option.map_eq_some_iff.mp taken
      obtain ⟨ledger, rfl, orderly, follows, _⟩ := (upholds ingests).run orderly run
      exact ⟨orderly, follows⟩
  | breakOff task calls =>
      obtain ⟨ledger, rfl, orderly, follows⟩ := (upholds ingests).runFor orderly taken
      exact ⟨orderly, follows⟩

theorem Orderly.serve {episodes : List Episode} (orderly : Orderly world)
    (ingests : ∀ episode ∈ episodes, episode.Ingests)
    (served : world.serve pipeline episodes = some last) :
    Orderly last ∧ Follows world last := by
  induction episodes generalizing world with
  | nil =>
      cases served
      exact ⟨orderly, .refl _⟩
  | cons episode rest ih =>
      simp only [World.serve, bind, Option.bind_eq_some_iff] at served
      obtain ⟨middle, taken, served⟩ := served
      obtain ⟨middleOrderly, before⟩ := orderly.take (ingests episode List.mem_cons_self) taken
      obtain ⟨lastOrderly, after⟩ := ih middleOrderly
        (fun other member => ingests other (List.mem_cons_of_mem _ member)) served
      exact ⟨lastOrderly, before.trans after⟩

end WebhookRelay
