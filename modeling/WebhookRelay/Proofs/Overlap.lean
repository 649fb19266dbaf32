import Mathlib.Algebra.BigOperators.Group.Finset.Piecewise
import WebhookRelay.Proofs.Upkeep

/-!
# Overlapping requests for one event

A request that stores an event owes it a job, and so does a request that looks up the
jobs of an event and finds none.  The second is meant for events whose first request
failed, but it also finds none while the first request is on its way from storing the
event to its job.  Then both pay what they owe: over a whole schedule an event gets one
job for being stored and one more for every look-up that missed.
-/

set_option autoImplicit false

namespace WebhookRelay

/-! ## Owing jobs -/

namespace Call

def stores (eventId : String) : (request : Call) → request.Answer → Bool
  | .createEvent event, .ok () => event.eventId = eventId
  | _, _ => false

def misses (eventId : String) : (request : Call) → request.Answer → Bool
  | .jobsByEvent other, .ok [] => other = eventId
  | _, _ => false

def refusesJob (eventId : String) : (request : Call) → request.Answer → Bool
  | .createJob job, .error _ => job.eventId = eventId
  | _, _ => false

def pays (eventId : String) : Call → Bool
  | .createJob job => job.eventId = eventId
  | _ => false

/-- What is owed after a call that was answered. -/
def owedAfter (eventId : String) (owed : Nat) (request : Call) (answer : request.Answer) : Nat :=
  owed - (request.pays eventId).toNat + (request.stores eventId answer).toNat +
    (request.misses eventId answer).toNat

end Call

namespace Program

variable {α β : Type} {eventId : String}

/-- Along every path a program calls for the jobs that it owes, those owed from before
and those that it comes to owe, and for no others. -/
def Pays (eventId : String) : Nat → Program α → Prop
  | owed, .done _ => owed = 0
  | owed, .call request next =>
      (request.pays eventId).toNat ≤ owed ∧
        ∀ answer, (next answer).Pays eventId (request.owedAfter eventId owed answer)

theorem Pays.bind {program : Program α} {after : α → Program β} {owed : Nat}
    (pays : program.Pays eventId owed) (rest : ∀ value, (after value).Pays eventId 0) :
    (program.bind after).Pays eventId owed := by
  induction program generalizing owed with
  | done value =>
      obtain rfl : owed = 0 := pays
      exact rest value
  | call request next ih => exact ⟨pays.1, fun answer => ih answer (pays.2 answer)⟩

theorem owedAfter_aside {request : Call} (aside : request.aside = true)
    (answer : request.Answer) (owed : Nat) : request.owedAfter eventId owed answer = owed := by
  cases request <;> first | rfl | cases aside

theorem pays_aside {request : Call} (aside : request.aside = true) :
    request.pays eventId = false := by
  cases request <;> first | rfl | cases aside

theorem Uses.pays {program : Program α}
    (aside : program.Uses fun request => request.aside = true) : program.Pays eventId 0 := by
  induction program with
  | done value => exact rfl
  | call request next ih =>
      refine ⟨by simp [pays_aside aside.1], fun answer => ?_⟩
      rw [owedAfter_aside aside.1]
      exact ih answer (aside.2 answer)

end Program

/-! ## Receiving pays what it owes -/

namespace Receiver

variable {eventId : String}

theorem refuse_pays (request : Request) (error : VerificationError) :
    (refuse request error).Pays eventId 0 := by
  refine (auditRejection_aside request error.code).pays.bind fun audited => ?_
  cases audited <;> exact rfl

theorem enqueue_pays (now : Timestamp) (own payload : String) :
    (enqueue now own payload).outcome.Pays eventId (decide (own = eventId)).toNat := by
  rw [enqueue_outcome]
  refine ⟨Nat.zero_le _, fun id => ⟨?_, fun answer => ?_⟩⟩
  · exact Nat.le_refl _
  · cases answer <;> exact Nat.sub_self _

theorem settle_pays (now : Timestamp) (own : String) (receipt : Receipt) :
    (settle now own receipt).Pays eventId 0 :=
  ⟨Nat.zero_le _, fun _ => rfl⟩

theorem supply_pays (now : Timestamp) (own payload : String) (receipt : Uuid → Receipt) :
    (supply now own payload receipt).Pays eventId (decide (own = eventId)).toNat := by
  refine (enqueue_pays now own payload).bind fun enqueued => ?_
  cases enqueued with
  | error error => exact rfl
  | ok id => exact settle_pays now own (receipt id)

theorem acknowledge_pays (now : Timestamp) (known : Event) (payload : String) :
    (acknowledge now known payload).outcome.Pays eventId 0 := by
  cases status : known.status with
  | processed =>
      rw [acknowledge_outcome_processed status]
      exact rfl
  | received =>
      rw [acknowledge_outcome_received status]
      refine ⟨Nat.zero_le _, fun answer => ?_⟩
      match answer with
      | .error error => exact rfl
      | .ok (job :: rest) => exact settle_pays now known.eventId _
      | .ok [] =>
          have owed : Call.owedAfter eventId 0 (.jobsByEvent known.eventId) (.ok []) =
              (decide (known.eventId = eventId)).toNat := by
            simp [Call.owedAfter, Call.pays, Call.stores, Call.misses]
          rw [owed]
          exact supply_pays now known.eventId payload _

theorem persist_pays (now : Timestamp) (event : Event) (payload : String) :
    (persist now event payload).outcome.Pays eventId 0 := by
  rw [persist_outcome]
  refine ⟨Nat.zero_le _, fun answer => ?_⟩
  match answer with
  | .ok () =>
      have owed : Call.owedAfter eventId 0 (.createEvent event) (.ok ()) =
          (decide (event.eventId = eventId)).toNat := by
        simp [Call.owedAfter, Call.pays, Call.stores, Call.misses]
      rw [owed]
      exact supply_pays now event.eventId payload _
  | .error (.duplicate key) =>
      refine ⟨Nat.zero_le _, fun answer => ?_⟩
      match answer with
      | .error error => exact rfl
      | .ok none => exact rfl
      | .ok (some known) => exact acknowledge_pays now known payload
  | .error (.notFound key) => exact ⟨Nat.zero_le _, fun _ => rfl⟩
  | .error (.unavailable reason) => exact ⟨Nat.zero_le _, fun _ => rfl⟩

theorem takeIn_pays (receiver : Receiver) (request : Request) :
    (receiver.takeIn request).outcome.Pays eventId 0 := by
  cases readable : readBody request.body with
  | error error =>
      rw [takeIn_outcome_unreadable readable]
      exact rfl
  | ok read =>
      rw [takeIn_outcome readable]
      refine ⟨Nat.zero_le _, fun answer => ?_⟩
      match answer with
      | .error error => exact rfl
      | .ok (some known) => exact acknowledge_pays request.now known read.1
      | .ok none =>
          refine (markIfAbsent_checks ..).aside.pays.bind fun marked => ?_
          match marked with
          | .error error => exact rfl
          | .ok true => exact persist_pays request.now _ read.1
          | .ok false =>
              refine (auditRejection_aside request _).pays.bind fun audited => ?_
              cases audited <;> exact rfl

theorem reject_pays (request : Request) (error : VerificationError) :
    (reject request error).outcome.Pays eventId 0 := by
  by_cases replayed : error = .signatureReplayed
  · subst replayed
    rw [reject_outcome_replayed, knownEvent_outcome]
    cases knownFields? request.body with
    | none => exact refuse_pays request _
    | some read =>
        refine ⟨Nat.zero_le _, fun answer => ?_⟩
        match answer with
        | .error error => exact rfl
        | .ok none => exact refuse_pays request _
        | .ok (some known) => exact acknowledge_pays request.now known read.1
  · rw [reject_outcome_other replayed]
    exact refuse_pays request error

theorem receive_pays (receiver : Receiver) (request : Request) :
    (receiver.receive request).outcome.Pays eventId 0 := by
  by_cases empty : request.body = []
  · rw [receive_outcome_empty empty]
    exact rfl
  · rw [receive_outcome empty]
    refine (receiver.verifier.verify_checks ..).aside.pays.bind fun verified => ?_
    cases verified with
    | error error => exact reject_pays request error
    | ok verified => exact takeIn_pays receiver request

end Receiver

/-! ## Counting over a schedule -/

def Ledger.count (ledger : Ledger) (counted : (request : Call) → request.Answer → Bool) : Nat :=
  ledger.history.countP fun
    | .answered _ request answer => counted request answer
    | .begun _ _ => false

theorem Ledger.count_answered (ledger : Ledger) (who : Nat) (request : Call)
    (answer : request.Answer) (world : World)
    (counted : (request : Call) → request.Answer → Bool) :
    (ledger.answered who request answer world).count counted =
      ledger.count counted + (counted request answer).toNat := by
  have single : (if counted request answer = true then 1 else 0) =
      (counted request answer).toNat := by
    split
    · simp [*]
    · simp [*]
  simp only [count, answered, List.countP_append, List.countP_singleton]
  exact congrArg _ single

theorem Ledger.count_begun (ledger : Ledger) (who : Nat) (task : Task) (world : World)
    (counted : (request : Call) → request.Answer → Bool) :
    Ledger.count ⟨world, ledger.history ++ [.begun who task]⟩ counted = ledger.count counted := by
  simp [count]

def Move.Receives : Move → Prop
  | .start (.receive _) => True
  | .start _ => False
  | _ => True

def Scene.Ended (scene : Scene) : Prop :=
  ∀ activity ∈ scene.activities, ∃ outcome, activity.rest = .done outcome

/-- The jobs of an event, those that were refused and those that are still owed are as
many as the times that it was stored and the look-ups that missed. -/
structure Balanced (eventId : String) (scene : Scene) : Prop where
  sheet : ∃ owed : Nat → Nat,
    (∀ (who : Nat) (activity : Activity), scene.activities[who]? = some activity →
      activity.rest.Pays eventId (owed who)) ∧
    (scene.world.jobs.byEventId eventId).length +
        scene.count (Call.refusesJob eventId) +
        ∑ who ∈ Finset.range scene.activities.length, owed who =
      scene.count (Call.stores eventId) + scene.count (Call.misses eventId)
  once : scene.count (Call.stores eventId) ≤ 1
  stored : scene.count (Call.stores eventId) = 0 ∨ scene.world.events.Knows eventId

variable {verifier : Verifier} {truthful : Prop} {eventId : String}

/-- A call that pays adds one job, unless the job is refused; no other call adds any. -/
theorem jobs_paid (eventId : String) {ledger : Ledger}
    (sound : ledger.Sound verifier truthful) {request : Call}
    (allowed : ledger.Allows verifier request) {answer : request.Answer} {world : World}
    (performed : ledger.world.perform request = some (answer, world)) :
    (world.jobs.byEventId eventId).length + (request.refusesJob eventId answer).toNat =
      (ledger.world.jobs.byEventId eventId).length + (request.pays eventId).toNat := by
  cases request with
  | createJob job =>
      obtain ⟨_, _, ⟨error, rfl, jobs⟩ | ⟨rfl, _, jobs⟩⟩ := World.perform_createJob performed
      · rw [jobs]
        rfl
      · simp only [JobStore.length_byEventId, JobStore.identities, jobs, List.map_append,
          List.countP_append, List.map_cons, List.map_nil, List.countP_singleton]
        by_cases own : job.eventId = eventId
        · simp [Call.refusesJob, Call.pays, Job.identity, own]
        · simp [Call.refusesJob, Call.pays, Job.identity, own]
  | updateJob job =>
      obtain ⟨_, _, ⟨_, _, jobs⟩ | ⟨_, jobs⟩⟩ := World.perform_updateJob performed
      · rw [jobs]
        rfl
      · have same : world.jobs.identities = ledger.world.jobs.identities := by
          rw [jobs]
          exact JobStore.identities_replace sound.distinct allowed
        rw [JobStore.length_byEventId, same, ← JobStore.length_byEventId]
        rfl
  | createEvent event =>
      rw [(World.perform_createEvent performed).1]
      rfl
  | markProcessed own time =>
      rw [(World.perform_markProcessed performed).1]
      rfl
  | createEntry entry =>
      rw [(World.perform_createEntry performed).2.1]
      rfl
  | updateEntry entry =>
      rw [(World.perform_updateEntry performed).2.1]
      rfl
  | _ =>
      rw [(World.perform_sameStores rfl performed).jobs]
      rfl

/-- An event is stored once: where the call succeeds, the event was unknown before. -/
theorem stores_unknown {ledger : Ledger} {request : Call} {answer : request.Answer}
    {world : World} (performed : ledger.world.perform request = some (answer, world))
    (stores : request.stores eventId answer = true) :
    ¬ledger.world.events.Knows eventId ∧ world.events.Knows eventId := by
  cases request with
  | createEvent event =>
      cases answer with
      | error error => cases stores
      | ok done =>
          obtain rfl : event.eventId = eventId := by simpa [Call.stores] using stores
          obtain ⟨_, _, ⟨unknown, events, _⟩ | ⟨_, error, impossible, _⟩⟩ :=
            World.perform_createEvent performed
          · refine ⟨EventStore.not_knows unknown, ?_⟩
            rw [events]
            exact EventStore.knows_iff.mpr ⟨event, by simp, rfl⟩
          · cases impossible
  | _ => cases stores

/-- A look-up that misses comes after the event was stored and before its first job. -/
theorem misses_in_between {ledger : Ledger} {request : Call}
    (allowed : ledger.Allows verifier request) {answer : request.Answer} {world : World}
    (performed : ledger.world.perform request = some (answer, world))
    (misses : request.misses eventId answer = true) :
    ledger.world.events.Knows eventId ∧ ¬ledger.world.jobs.HasJob eventId := by
  cases request with
  | jobsByEvent own =>
      cases answer with
      | error error => cases misses
      | ok jobs =>
          cases jobs with
          | cons job rest => cases misses
          | nil =>
              obtain rfl : own = eventId := by simpa [Call.misses] using misses
              have empty := (World.perform_jobsByEvent performed).symm
              exact ⟨allowed, JobStore.byEventId_eq_nil.mp empty⟩
  | _ => cases misses

theorem sum_update {running who : Nat} (isRunning : who < running) (owed : Nat → Nat)
    (value : Nat) :
    ∑ other ∈ Finset.range running, Function.update owed who value other + owed who =
      ∑ other ∈ Finset.range running, owed other + value := by
  have member : who ∈ Finset.range running := Finset.mem_range.mpr isRunning
  have before := Finset.sum_eq_add_sum_sdiff_singleton_of_mem member owed
  have after := Finset.sum_update_of_mem member owed value
  omega

namespace Balanced

variable {scene after : Scene} {pipeline : Pipeline}

theorem opening {world : World} (blank : world.Blank) (eventId : String) :
    Balanced eventId (Scene.opening world) where
  sheet := by
    refine ⟨fun _ => 0, ?_, ?_⟩
    · intro who activity found
      simp [Scene.opening] at found
    · simp [Scene.opening, Ledger.count, JobStore.length_byEventId, JobStore.identities,
        blank.jobs]
  once := by simp [Scene.opening, Ledger.count]
  stored := Or.inl rfl

theorem start (balanced : Balanced eventId scene) {pipeline : Pipeline}
    (request : Receiver.Request) : Balanced eventId {
      world := scene.world
      history := scene.history ++ [.begun scene.activities.length (.receive request)]
      activities := scene.activities ++
        [⟨.receive request, pipeline.program (.receive request)⟩] } := by
  obtain ⟨⟨owed, pays, sheet⟩, once, stored⟩ := balanced
  have same := scene.count_begun scene.activities.length (.receive request) scene.world
  refine ⟨⟨Function.update owed scene.activities.length 0, ?_, ?_⟩, ?_, ?_⟩
  · intro who activity running
    obtain old | ⟨rfl, rfl⟩ := getElem?_added running
    · have earlier := (List.getElem?_eq_some_iff.mp old).1
      rw [Function.update_of_ne (Nat.ne_of_lt earlier)]
      exact pays who activity old
    · rw [Function.update_self]
      exact (pipeline.receiver.receive_pays request).bind fun _ => rfl
  · have unchanged : ∀ who ∈ Finset.range scene.activities.length,
        Function.update owed scene.activities.length 0 who = owed who := by
      intro who member
      exact Function.update_of_ne (Nat.ne_of_lt (Finset.mem_range.mp member)) ..
    rw [same, same, same, List.length_append, List.length_singleton, Finset.sum_range_succ,
      Finset.sum_congr rfl unchanged, Function.update_self]
    exact sheet
  · rw [same]
    exact once
  · rw [same]
    exact stored

theorem proceed (balanced : Balanced eventId scene)
    (sound : scene.Sound verifier truthful) {who : Nat} {task : Task} {request : Call}
    {rest : request.Answer → Program Outcome} {answer : request.Answer} {world : World}
    (found : scene.activities[who]? = some ⟨task, .call request rest⟩)
    (allowed : scene.Allows verifier request)
    (performed : scene.world.perform request = some (answer, world)) :
    Balanced eventId {
      toLedger := scene.toLedger.answered who request answer world
      activities := scene.activities.set who ⟨task, rest answer⟩ } := by
  obtain ⟨⟨owed, pays, sheet⟩, once, stored⟩ := balanced
  have running : who < scene.activities.length := (List.getElem?_eq_some_iff.mp found).1
  obtain ⟨enough, paysAfter⟩ := pays who _ found
  have count := scene.toLedger.count_answered who request answer world
  have paid := jobs_paid eventId sound allowed performed
  refine ⟨⟨Function.update owed who (request.owedAfter eventId (owed who) answer), ?_, ?_⟩,
    ?_, ?_⟩
  · intro other activity still
    obtain ⟨different, old⟩ | ⟨rfl, rfl⟩ := getElem?_replaced still
    · rw [Function.update_of_ne different]
      exact pays other activity old
    · rw [Function.update_self]
      exact paysAfter answer
  -- The debt of the activity changes by what the call stores, misses and pays.
  · have debts := sum_update running owed (request.owedAfter eventId (owed who) answer)
    rw [List.length_set, count, count, count]
    have owedAfter : request.owedAfter eventId (owed who) answer =
        owed who - (request.pays eventId).toNat + (request.stores eventId answer).toNat +
          (request.misses eventId answer).toNat := rfl
    have jobs : (scene.toLedger.answered who request answer world).world = world := rfl
    rw [jobs]
    omega
  · rw [count]
    cases stores : request.stores eventId answer with
    | false => exact once
    | true =>
        have unknown := (stores_unknown performed stores).1
        have before := stored.resolve_right unknown
        rw [before]
        exact Nat.le_refl 1
  · cases stores : request.stores eventId answer with
    | true => exact Or.inr (stores_unknown performed stores).2
    | false =>
        have grows : scene.Grows (scene.toLedger.answered who request answer world) :=
          (sound.answered allowed performed).2
        rw [count, stores]
        exact stored.imp_right (grows.events eventId)

end Balanced

theorem balanced (pipeline : Pipeline) {world : World} (blank : world.Blank)
    {moves : List Move} (receives : ∀ next ∈ moves, next.Receives) {scene : Scene}
    (played : (Scene.opening world).play pipeline moves = some scene) (eventId : String) :
    Scene.Governed (.ofStores pipeline.receiver.verifier False) (Outcome.Kept False) scene ∧
      Balanced eventId scene := by
  have governed : Scene.Governed (.ofStores pipeline.receiver.verifier False)
      (Outcome.Kept False) (Scene.opening world) :=
    Scene.governed_opening (blank.sound _ False.elim)
  refine Scene.play_preserves (fun current =>
    Scene.Governed (.ofStores pipeline.receiver.verifier False) (Outcome.Kept False) current ∧
      Balanced eventId current) ?_ ⟨governed, .opening blank eventId⟩ played
  intro next member before after ⟨governed, balanced⟩ moved
  have fair : next.Fair fun circumstance => False → circumstance.Truthful := by
    cases next with
    | change circumstance => exact False.elim
    | _ => exact trivial
  refine ⟨(governed.move (pipeline.shares False) fair moved).1, ?_⟩
  obtain ⟨task, rfl, rfl⟩ | ⟨who, task, request, rest, answer, world, rfl, found, performed,
    rfl⟩ | ⟨circumstance, rfl, rfl⟩ := Scene.move_cases moved
  · cases task with
    | receive request => exact balanced.start request
    | _ => exact (receives _ member).elim
  · have allowed := (governed.upholds found before.toLedger (.refl _) governed.sound).1
    exact balanced.proceed governed.sound found allowed performed
  · obtain ⟨⟨owed, pays, sheet⟩, once, stored⟩ := balanced
    have same := before.world.under_sameStores circumstance
    refine ⟨⟨owed, pays, ?_⟩, once, ?_⟩
    · show ((before.world.under circumstance).jobs.byEventId eventId).length + _ + _ = _
      rw [same.jobs]
      exact sheet
    · show _ ∨ (before.world.under circumstance).events.Knows eventId
      rw [same.events]
      exact stored

/-- An event gets at most one job as long as no look-up of its jobs has missed.  Once all
requests have ended and no job was refused, that is the only way: each look-up that
missed has made one job more.  And a look-up misses only in between, when the event is
stored and its first job is not. -/
theorem at_most_one_job_iff_no_look_up_misses (pipeline : Pipeline) {world : World}
    (blank : world.Blank) {moves : List Move} (receives : ∀ next ∈ moves, next.Receives)
    {scene : Scene} (played : (Scene.opening world).play pipeline moves = some scene)
    (eventId : String) :
    (scene.count (Call.misses eventId) = 0 →
      (scene.world.jobs.byEventId eventId).length ≤ 1) ∧
    (scene.Ended → scene.count (Call.refusesJob eventId) = 0 →
      scene.count (Call.stores eventId) ≠ 0 →
      ((scene.world.jobs.byEventId eventId).length ≤ 1 ↔
        scene.count (Call.misses eventId) = 0)) ∧
    ∀ who after, scene.move pipeline (.proceed who) = some after →
      after.count (Call.misses eventId) ≠ scene.count (Call.misses eventId) →
      scene.world.events.Knows eventId ∧ ¬scene.world.jobs.HasJob eventId := by
  obtain ⟨governed, ⟨owed, pays, sheet⟩, once, _⟩ :=
    balanced pipeline blank receives played eventId
  refine ⟨fun none => by omega, fun ended unrefused stored => ?_, fun who after moved missed => ?_⟩
  -- An activity that has ended owes nothing, so the balance has no debts in it.
  · have settled : ∑ who ∈ Finset.range scene.activities.length, owed who = 0 := by
      refine Finset.sum_eq_zero fun who member => ?_
      have found := List.getElem?_eq_getElem (Finset.mem_range.mp member)
      obtain ⟨outcome, done⟩ := ended _ (List.getElem_mem (Finset.mem_range.mp member))
      have nothing := pays who _ found
      rw [done] at nothing
      exact nothing
    constructor <;> intro _ <;> omega
  · obtain ⟨_, impossible, _⟩ | ⟨_, task, request, rest, answer, world, same, found, performed,
      rfl⟩ | ⟨_, impossible, _⟩ := Scene.move_cases moved
    · cases impossible
    · cases same
      have allowed := (governed.upholds found scene.toLedger (.refl _) governed.sound).1
      refine misses_in_between allowed performed ?_
      rw [Ledger.count_answered] at missed
      simpa using missed
    · cases impossible

namespace Sample

def overlapping : List Move :=
  overtaking ++ List.replicate 3 (.proceed 0)

def successive : List Move :=
  .start (.receive request) :: List.replicate 6 (.proceed 0) ++
    .start (.receive request) :: List.replicate 1 (.proceed 1)

set_option maxRecDepth 100000 in
/-- No call fails, yet two requests for one event leave two jobs. -/
theorem overlapping_requests_create_two_jobs :
    ∃ scene, (Scene.opening {}).play pipeline overlapping = some scene ∧
      scene.receipt? 0 = some (.accepted "e" (.ofNat 1)) ∧
      scene.receipt? 1 = some (.duplicate "e") ∧
      (scene.world.jobs.byEventId "e").length = 2 := by
  have result : ((Scene.opening {}).play pipeline overlapping).map (fun scene =>
      (scene.receipt? 0, scene.receipt? 1,
        scene.world.jobs.identities.countP fun identity => identity.eventId = "e")) =
      some (some (.accepted "e" (.ofNat 1)), some (.duplicate "e"), 2) := by
    decide +kernel
  obtain ⟨scene, played, same⟩ := Option.map_eq_some_iff.mp result
  simp only [Prod.mk.injEq] at same
  obtain ⟨first, second, jobs⟩ := same
  exact ⟨scene, played, first, second, (JobStore.length_byEventId _ _).trans jobs⟩

set_option maxRecDepth 100000 in
theorem successive_requests_create_one_job :
    ∃ scene, (Scene.opening {}).play pipeline successive = some scene ∧
      scene.receipt? 1 = some (.duplicate "e") ∧
      (scene.world.jobs.byEventId "e").length ≤ 1 := by
  have result : ((Scene.opening {}).play pipeline successive).map (fun scene =>
      (scene.receipt? 1, scene.count (Call.misses "e"))) = some (some (.duplicate "e"), 0) := by
    decide +kernel
  obtain ⟨scene, played, same⟩ := Option.map_eq_some_iff.mp result
  simp only [Prod.mk.injEq] at same
  have receives : ∀ next ∈ successive, next.Receives := by simp [successive, Move.Receives]
  have one := at_most_one_job_iff_no_look_up_misses pipeline ⟨rfl, rfl, rfl⟩ receives played "e"
  exact ⟨scene, played, same.1, one.1 same.2⟩

end Sample

end WebhookRelay
