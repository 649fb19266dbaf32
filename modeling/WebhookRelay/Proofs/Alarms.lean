import WebhookRelay.Proofs.Lifecycle
import WebhookRelay.Proofs.Turns
import WebhookRelay.Config.Validation
import WebhookRelay.Service

/-!
# Alerts of failed deliveries

A failed attempt is reported before it is stored, and a report that reaches the threshold of
the alert policy finds an alert of the event or raises one.  So a job that has failed has an
alert if the threshold is within the number of attempts that a job is given.  Where the
threshold is beyond that number, no report ever reaches it.
-/

set_option autoImplicit false

namespace WebhookRelay

/-! ## Settings -/

theorem Settings.one_le_maxAttempts {settings : Settings} (valid : settings.validate = .ok ()) :
    1 ≤ settings.queue.maxAttempts := by
  rw [UInt32.le_iff_toNat_le]
  exact (validate_ok_iff.mp valid).maxAttempts

theorem Service.processor_of_build {settings : Settings} {service : Service}
    (built : build settings = .ok service) : service.processor = processorOf settings := by
  unfold build at built
  split at built
  · cases built
  · split at built
    · cases built
    · cases built
      rfl

/-! ## Reports -/

def World.Alerted (world : World) (eventId : String) : Prop :=
  ∃ alert ∈ world.alerts, alert.eventId = eventId ∧ alert.reason = Processor.deliveryFailed

structure World.SparesAlerts (world : World) : Prop where
  raising : world.refusals .createAlert = []
  looking : world.refusals .recentAlert = []

/-- A change outside after which alerts are refused as little as before. -/
def Circumstance.SparesAlerts : Circumstance → Prop
  | .refuse site _ => site ≠ .createAlert ∧ site ≠ .recentAlert
  | _ => True

namespace World.SparesAlerts

variable {world after : World}

theorem performed (spares : world.SparesAlerts) {request : Call} {answer : request.Answer}
    (performed : world.perform request = some (answer, after)) : after.SparesAlerts := by
  have none (site : Site) (empty : world.refusals site = []) : after.refusals site = [] := by
    have suffix := World.perform_refusals performed site
    rw [empty] at suffix
    exact List.suffix_nil.mp suffix
  exact ⟨none _ spares.raising, none _ spares.looking⟩

theorem under (spares : world.SparesAlerts) {circumstance : Circumstance}
    (fair : circumstance.SparesAlerts) : (world.under circumstance).SparesAlerts := by
  cases circumstance with
  | refuse site plan =>
      have other (own : Site) (different : site ≠ own) :
          (world.refuse site plan).refusals own = world.refusals own :=
        if_neg different.symm
      refine ⟨?_, ?_⟩
      · exact (other _ fair.1).trans spares.raising
      · exact (other _ fair.2).trans spares.looking
  | _ => exact ⟨spares.raising, spares.looking⟩

theorem takeRefusal_of_nil {site : Site} (empty : world.refusals site = []) :
    world.takeRefusal site = (none, world) := by
  rw [World.takeRefusal, empty]

theorem recentAlert (spares : world.SparesAlerts) (eventId reason : String)
    (since : Timestamp) : world.perform (.recentAlert eventId reason since) =
      some (.ok (Alert.existsSince world.alerts eventId reason since), world) := by
  simp only [World.perform, World.unlessRefused, takeRefusal_of_nil spares.looking]
  rfl

theorem createAlert (spares : world.SparesAlerts) (alert : Alert) :
    world.perform (.createAlert alert) =
      some (.ok (), { world with alerts := world.alerts ++ [alert] }) := by
  simp only [World.perform, World.unlessRefused, takeRefusal_of_nil spares.raising]
  rfl

end World.SparesAlerts

theorem World.alerted_of_existsSince {world : World} {eventId : String} {since : Timestamp}
    (found : Alert.existsSince world.alerts eventId Processor.deliveryFailed since = true) :
    world.Alerted eventId := by
  obtain ⟨alert, member, isRecent⟩ := List.any_eq_true.mp found
  simp only [Bool.and_eq_true, decide_eq_true_eq] at isRecent
  exact ⟨alert, member, isRecent.1.1, isRecent.1.2⟩

/-- A failed attempt is reported where its number is at least the threshold: if the event has
a recent alert nothing more is done, and else an alert is raised. -/
theorem Processor.observe_course {processor : Processor} {policy : AlertPolicy}
    (alerts : processor.alerts = some policy) (now : Timestamp) (job : Job)
    (error : String) :
    processor.observe now job error =
      if job.attempts < policy.minAttempts then .done ()
      else .call (.recentAlert job.eventId deliveryFailed (policy.windowStart now)) fun
        | .error _ => .done ()
        | .ok true => .done ()
        | .ok false => .call (.newId .alert) fun id =>
            .call (.createAlert {
              id := id.render
              eventId := job.eventId
              reason := deliveryFailed
              details := error
              attemptCount := job.attempts
              createdAt := now }) fun _ => .done () := by
  unfold observe
  rw [alerts]
  dsimp only
  unfold AlertPolicy.notify
  by_cases below : job.attempts < policy.minAttempts
  · rw [if_pos below, if_pos below]
    rfl
  · rw [if_neg below, if_neg below]
    refine congrArg (Program.call _) (funext fun answer => ?_)
    match answer with
    | .error error => rfl
    | .ok true => rfl
    | .ok false =>
        refine congrArg (Program.call _) (funext fun id => ?_)
        refine congrArg (Program.call _) (funext fun answer => ?_)
        cases answer <;> rfl

/-! ## The contract -/

/-- The jobs are well kept and the alert store works.  If the threshold is within the number
of attempts, failed jobs have alerts; if it is beyond, there are none. -/
structure World.Alarmed (limit threshold : UInt32) (world : World) : Prop where
  tidy : world.jobs.Tidy limit
  spares : world.SparesAlerts
  alerted : threshold ≤ limit → ∀ job ∈ world.jobs.jobs, job.status = .failed →
    world.Alerted job.eventId
  silent : limit < threshold → world.alerts = []

def World.Warns (processor : Processor) (threshold : UInt32) (world : World) : Call → Prop
  | .updateJob job => (∃ stored ∈ world.jobs.jobs, stored.status.isActive = true ∧
      ∃ now result, job = processor.attempted now stored result) ∧
      (threshold ≤ processor.backoff.maxAttempts → job.status = .failed →
        world.Alerted job.eventId)
  | .createJob job => ∃ id now eventId payload, job = .create id now eventId payload
  | .createAlert _ => threshold ≤ processor.backoff.maxAttempts
  | _ => True

theorem World.Alerted.mono {world after : World} {eventId : String}
    (alerted : world.Alerted eventId) (kept : world.alerts <+: after.alerts) :
    after.Alerted eventId := by
  obtain ⟨alert, member, own⟩ := alerted
  exact ⟨alert, kept.mem member, own⟩

section Calls

variable {processor : Processor} {threshold : UInt32} {world after : World}

theorem World.perform_alerts {request : Call} {answer : request.Answer}
    (performed : world.perform request = some (answer, after)) :
    world.alerts <+: after.alerts ∧
      ((∀ alert, request ≠ .createAlert alert) → after.alerts = world.alerts) := by
  have differs := perform_differs performed
  cases request with
  | createAlert alert =>
      refine ⟨?_, fun other => absurd rfl (other alert)⟩
      have taken := (differs_takeRefusal none world .createAlert).alerts (by simp)
      simp only [perform] at performed
      obtain ⟨_, _, rfl⟩ | raised := unlessRefused_cases performed
      · exact taken ▸ List.prefix_rfl
      · cases raised
        show world.alerts <+: (world.takeRefusal .createAlert).2.alerts ++ [alert]
        rw [taken]
        exact List.prefix_append _ _
  | _ =>
      rw [differs.alerts (by simp [Call.part?])]
      exact ⟨List.prefix_rfl, fun _ => rfl⟩

namespace World.Alarmed

theorem performed (allowed : 1 ≤ processor.backoff.maxAttempts)
    (alarmed : world.Alarmed processor.backoff.maxAttempts threshold) {request : Call}
    (warns : world.Warns processor threshold request) {answer : request.Answer}
    (performed : world.perform request = some (answer, after)) :
    after.Alarmed processor.backoff.maxAttempts threshold := by
  obtain ⟨kept, unchanged⟩ := perform_alerts performed
  have spares := alarmed.spares.performed performed
  have silent (beyond : processor.backoff.maxAttempts < threshold) : after.alerts = [] := by
    rw [unchanged, alarmed.silent beyond]
    rintro alert rfl
    exact absurd warns (UInt32.not_le.mpr beyond)
  have stillAlerted {job : Job} (within : threshold ≤ processor.backoff.maxAttempts)
      (member : job ∈ world.jobs.jobs) (failed : job.status = .failed) :
      after.Alerted job.eventId :=
    (alarmed.alerted within job member failed).mono kept
  obtain same | ⟨job, rfl, absent, added⟩ | ⟨job, rfl, replaced⟩ := perform_jobs performed
  · refine ⟨?_, spares, fun within job member failed => ?_, silent⟩
    · rw [same]
      exact alarmed.tidy
    · rw [same] at member
      exact stillAlerted within member failed
  · have tidy := @JobStore.Tidy.gentle processor none _ world after alarmed.tidy
      (.createJob job) warns answer performed
    refine ⟨tidy.1, spares, fun within other member failed => ?_, silent⟩
    rw [added] at member
    rcases List.mem_append.mp member with old | new
    · exact stillAlerted within old failed
    · obtain rfl := List.mem_singleton.mp new
      obtain ⟨id, now, eventId, payload, rfl⟩ := warns
      cases failed
  · obtain ⟨⟨stored, storedMember, active, now, result, isAttempted⟩, warned⟩ := warns
    have allows : world.jobs.Allows processor now (.updateJob job) :=
      ⟨stored, storedMember, active, result, isAttempted⟩
    have tidy := (alarmed.tidy.passed allowed allows performed).1
    refine ⟨tidy, spares, fun within other member failed => ?_, silent⟩
    rw [replaced] at member
    obtain ⟨old, oldMember, rfl⟩ := List.mem_map.mp member
    by_cases own : old.id = job.id
    · rw [if_pos own] at failed ⊢
      exact (warned within failed).mono kept
    · rw [if_neg own] at failed ⊢
      exact stillAlerted within oldMember failed

end World.Alarmed

end Calls

def Contract.warning (processor : Processor) (threshold : UInt32)
    (allowed : 1 ≤ processor.backoff.maxAttempts) : Contract where
  sound ledger := ledger.world.Alarmed processor.backoff.maxAttempts threshold
  allows _ ledger request := ledger.world.Warns processor threshold request
  later _ _ := True
  between := Eq
  later_refl _ := trivial
  later_trans _ _ := trivial
  between_refl _ := rfl
  between_trans := Eq.trans
  later_of_between _ := trivial
  keeps alarmed warns performed := ⟨alarmed.performed allowed warns performed, trivial⟩

section Tasks

variable {processor : Processor} {policy : AlertPolicy}
  {allowed : 1 ≤ processor.backoff.maxAttempts} {who : Nat}

theorem Contract.warning_undisturbed {threshold : UInt32} :
    (Contract.warning processor threshold allowed).Undisturbed :=
  fun _ _ same => same

namespace Processor

theorem observe_warns (alerts : processor.alerts = some policy) (now : Timestamp)
    {job : Job} (atMost : job.attempts ≤ processor.backoff.maxAttempts)
    (last : job.status = .failed → processor.backoff.maxAttempts ≤ job.attempts)
    (error : String) {ledger : Ledger} :
    (processor.observe now job error).Upholds
      (.warning processor policy.minAttempts allowed) who
      (fun _ current => current.world.jobs = ledger.world.jobs ∧
        (policy.minAttempts ≤ processor.backoff.maxAttempts → job.status = .failed →
          current.world.Alerted job.eventId)) ledger := by
  rw [observe_course alerts]
  by_cases below : job.attempts < policy.minAttempts
  · rw [if_pos below]
    -- Nothing is raised, but a job that failed for good is not below the threshold.
    refine .ended Contract.warning_undisturbed fun _ => ⟨rfl, fun within failed => ?_⟩
    have reached := UInt32.le_trans within (last failed)
    exact absurd below (UInt32.not_lt.mpr reached)
  · rw [if_neg below]
    have within : policy.minAttempts ≤ processor.backoff.maxAttempts :=
      UInt32.le_trans (UInt32.not_lt.mp below) atMost
    refine .asks Contract.warning_undisturbed fun sound => ⟨trivial, ?_⟩
    intro answer world performed reached
    rw [sound.spares.recentAlert] at performed
    cases performed
    cases found : Alert.existsSince ledger.world.alerts job.eventId deliveryFailed
        (policy.windowStart now) with
    | true =>
        refine .ended Contract.warning_undisturbed fun _ => ⟨rfl, fun _ _ => ?_⟩
        exact World.alerted_of_existsSince found
    | false =>
        refine .asks Contract.warning_undisturbed fun _ => ⟨trivial, ?_⟩
        intro id drawn drew sparing
        have sameJobs : drawn.jobs = ledger.world.jobs :=
          (World.perform_sameStores rfl drew).jobs
        refine .asks Contract.warning_undisturbed fun _ => ⟨within, ?_⟩
        intro answer raised performed _
        replace performed := (sparing.spares.createAlert _).symm.trans performed
        cases performed
        refine .ended Contract.warning_undisturbed fun _ => ⟨sameJobs, fun _ _ => ?_⟩
        exact ⟨_, List.mem_append_right _ List.mem_cons_self, rfl, rfl⟩

theorem attempts_warn (alerts : processor.alerts = some policy) {deliver : Deliverer}
    (delivers : ∀ job, (deliver job).Uses Call.delivers) :
    (Contract.warning processor policy.minAttempts allowed).CoversAttempts processor deliver
      who := by
  intro now job ledger sound member active
  have kept := sound.tidy.kept job member
  have below := kept.lt_limit allowed active
  have counted := Job.toNat_beginAttempt below
  have atMost : job.beginAttempt.attempts ≤ processor.backoff.maxAttempts := by
    rw [UInt32.le_iff_toNat_le, counted]
    exact UInt32.lt_iff_toNat_lt.mp below
  have stored {current : Ledger} (same : current.world.jobs = ledger.world.jobs) :
      ∀ result, ∃ stored ∈ current.world.jobs.jobs, stored.status.isActive = true ∧
        ∃ at' result', processor.attempted now job result =
          processor.attempted at' stored result' := by
    intro result
    rw [same]
    exact ⟨job, member, active, now, result, rfl⟩
  rw [attempt_course]
  have delivering : (deliver job.beginAttempt).Upholds
      (.warning processor policy.minAttempts allowed) who
      (fun _ current => ledger.world.SameStores current.world) ledger := by
    refine Program.Uses.upholds_preserved Contract.warning_undisturbed
      World.SameStores.refl World.SameStores.trans ?_ ?_ (delivers job.beginAttempt)
    · intro current request isDelivery _
      cases request with
      | deliver job => exact trivial
      | exchange request => exact trivial
      | _ => cases isDelivery
    · intro request answer before after isDelivery performed
      have quiet := Call.writes_of_aside (Call.aside_of_delivers isDelivery)
      exact World.perform_sameStores quiet performed
  refine .bind sound delivering ?_
  intro result current currentSound _ same
  cases result with
  | ok done =>
      refine .ended Contract.warning_undisturbed fun _ => ⟨same.jobs, id_attempted .., ?_⟩
      refine ⟨stored same.jobs (.ok ()), fun _ failed => ?_⟩
      rw [status_attempted_ok] at failed
      cases failed
  | error error =>
      have isLast (failed : (processor.attempted now job (.error error)).status = .failed) :
          processor.backoff.maxAttempts ≤
            (processor.attempted now job (.error error)).attempts := by
        rw [attempts_attempted]
        rw [status_attempted_error] at failed
        split at failed
        · assumption
        · cases failed
      have notMore : (processor.attempted now job (.error error)).attempts ≤
          processor.backoff.maxAttempts := by
        rw [attempts_attempted]
        exact atMost
      refine .bind currentSound
        (observe_warns alerts now notMore isLast error.deliveryText) ?_
      intro _ last _ _ ⟨unchanged, alerted⟩
      have sameJobs := unchanged.trans same.jobs
      exact .ended Contract.warning_undisturbed fun _ =>
        ⟨sameJobs, id_attempted .., stored sameJobs (.error error), alerted⟩

end Processor

theorem Receiver.Asks.warns {receiver : Receiver} {request : Request} {call : Call}
    (asks : receiver.Asks request call) {threshold : UInt32} (world : World) :
    world.Warns processor threshold call := by
  cases call with
  | createJob job =>
      obtain ⟨id, eventId, text, _, isNew⟩ := asks
      exact ⟨id, _, eventId, text, isNew⟩
  | updateJob job => exact asks.elim
  | createAlert alert => exact asks.elim
  | _ => exact trivial

theorem DeadLetter.Handles.warns {call : Call} (handles : Handles call) {threshold : UInt32}
    (world : World) : world.Warns processor threshold call := by
  cases call with
  | createJob job => exact handles
  | updateJob job => exact handles.elim
  | createAlert alert => exact handles.elim
  | _ => exact trivial

theorem Pipeline.warns {pipeline : Pipeline} (own : pipeline.processor = processor)
    (alerts : processor.alerts = some policy) :
    (Contract.warning processor policy.minAttempts allowed).Serves pipeline
      Circumstance.SparesAlerts where
  upholds := by
    intro ledger task sound
    have undisturbed : (Contract.warning processor policy.minAttempts allowed).Undisturbed :=
      Contract.warning_undisturbed
    cases task with
    | receive request =>
        have asks := pipeline.receiver.receive_asks request
        exact .told undisturbed sound (.of_uses asks fun isAsked _ => isAsked.warns _)
          Outcome.received
    | pass now =>
        subst own
        exact .told undisturbed sound (Processor.pass_covered undisturbed
          (Processor.attempts_warn alerts pipeline.delivers) (fun _ => trivial)
          (fun sound => sound.tidy.distinct) now) Outcome.passed
    | capture now =>
        have handles := DeadLetter.capture_handles now
        exact .told undisturbed sound (.of_uses handles fun isHandled _ => isHandled.warns _)
          Outcome.captured
    | replay now entryId =>
        have handles := DeadLetter.replay_handles now entryId
        exact .told undisturbed sound (.of_uses handles fun isHandled _ => isHandled.warns _)
          Outcome.replayed
  changes := by
    intro ledger circumstance sound fair
    have same := (ledger.world.under_sameStores circumstance).jobs
    have sameAlerts : (ledger.world.under circumstance).alerts = ledger.world.alerts := by
      cases circumstance <;> rfl
    refine ⟨⟨?_, sound.spares.under fair, ?_, ?_⟩, trivial⟩
    · show (ledger.world.under circumstance).jobs.Tidy _
      rw [same]
      exact sound.tidy
    · intro within job member failed
      replace member : job ∈ (ledger.world.under circumstance).jobs.jobs := member
      rw [same] at member
      obtain ⟨alert, alertMember, isAlert⟩ := sound.alerted within job member failed
      refine ⟨alert, ?_, isAlert⟩
      show alert ∈ (ledger.world.under circumstance).alerts
      rw [sameAlerts]
      exact alertMember
    · intro beyond
      exact sameAlerts.trans (sound.silent beyond)

end Tasks

/-- With settings that are valid, a service that is built from them and an alert store that
does not fail, in every run of requests, passes, captures and replays, one after the other
and broken off anywhere: a job that has failed has an alert of its event, if the threshold
for alerts is at most the number of attempts that jobs are given.  Otherwise no alert is ever
raised. -/
theorem failed_jobs_have_alerts {settings : Settings} (valid : settings.validate = .ok ())
    {service : Service} (built : Service.build settings = .ok service) {pipeline : Pipeline}
    (wired : pipeline.processor = service.processor) {world last : World}
    (noJobs : world.jobs.jobs = []) (noAlerts : world.alerts = [])
    (spares : world.SparesAlerts) {episodes : List Episode}
    (fair : ∀ episode ∈ episodes, episode.Fair Circumstance.SparesAlerts)
    (served : world.serve pipeline episodes = some last) :
    (settings.alerts.minAttempts ≤ settings.queue.maxAttempts →
      ∀ job ∈ last.jobs.jobs, job.status = .failed →
        ∃ alert ∈ last.alerts, alert.eventId = job.eventId ∧
          alert.reason = Processor.deliveryFailed) ∧
    (settings.queue.maxAttempts < settings.alerts.minAttempts → last.alerts = []) := by
  have allowed : 1 ≤ (Service.processorOf settings).backoff.maxAttempts :=
    Settings.one_le_maxAttempts valid
  have own : pipeline.processor = Service.processorOf settings :=
    wired.trans (Service.processor_of_build built)
  have start : (Contract.warning (Service.processorOf settings) settings.alerts.minAttempts
      allowed).sound ⟨world, []⟩ := by
    refine ⟨⟨?_, ?_⟩, spares, ?_, fun _ => noAlerts⟩
    · simp [JobStore.Distinct, noJobs]
    · simp [noJobs]
    · simp [noJobs]
  have serves : (Contract.warning (Service.processorOf settings) settings.alerts.minAttempts
      allowed).Serves pipeline Circumstance.SparesAlerts := Pipeline.warns own rfl
  obtain ⟨ledger, rfl, alarmed, _⟩ := serves.serve start fair served
  exact ⟨alarmed.alerted, alarmed.silent⟩

namespace Sample

def frugalSettings (threshold : UInt32) : Settings where
  verifier := { skipVerification := true }
  queue := { maxAttempts := 1 }
  alerts := { minAttempts := threshold }

def frugalService (threshold : UInt32) : Service where
  endpoint := Service.endpointOf (frugalSettings threshold)
  processor := Service.processorOf (frugalSettings threshold)
  sender := { config := Service.deliveryOf {}, target := none }
  pollInterval := .ofSeconds 2
  cache := { ttl := .ofSeconds 600, minRefreshInterval := .ofSeconds 30 }
  source := none
  auditFile := none

def frugalPipeline (threshold : UInt32) : Pipeline where
  receiver := (frugalService threshold).endpoint.receiver
  processor := (frugalService threshold).processor
  deliver := (frugalService threshold).sender.deliverer
  delivers := Sender.deliverer_delivers _

def frugalWorld (threshold : UInt32) : World :=
  (frugalService threshold).world .unreachable {}

def attemptedOnce : List Episode :=
  [.run (.receive request), .run (.pass ⟨0, 0⟩)]

set_option maxRecDepth 100000 in
theorem lone_attempt_is_alerted :
    (frugalSettings 1).validate = .ok () ∧
      Service.build (frugalSettings 1) = .ok (frugalService 1) ∧
      (frugalWorld 1).SparesAlerts ∧
      (∀ episode ∈ attemptedOnce, episode.Fair Circumstance.SparesAlerts) ∧
      ∃ last, (frugalWorld 1).serve (frugalPipeline 1) attemptedOnce = some last ∧
        ∃ job ∈ last.jobs.jobs, job.status = .failed ∧
          ∃ alert ∈ last.alerts, alert.eventId = job.eventId ∧
            alert.reason = Processor.deliveryFailed := by
  have valid : (frugalSettings 1).validate = .ok () := by decide +kernel
  have built : Service.build (frugalSettings 1) = .ok (frugalService 1) := by rfl
  have spares : (frugalWorld 1).SparesAlerts := ⟨rfl, rfl⟩
  have fair : ∀ episode ∈ attemptedOnce, episode.Fair Circumstance.SparesAlerts := by
    simp [attemptedOnce, Episode.Fair]
  obtain ⟨last, served, job, member, failed⟩ :
      ∃ last ∈ (frugalWorld 1).serve (frugalPipeline 1) attemptedOnce,
        ∃ job ∈ last.jobs.jobs, job.status = .failed := by decide +kernel
  obtain ⟨alerted, _⟩ := failed_jobs_have_alerts valid built
    (rfl : (frugalPipeline 1).processor = _) rfl rfl spares fair served
  exact ⟨valid, built, spares, fair, last, served, job, member, failed,
    alerted (by decide) job member failed⟩

set_option maxRecDepth 100000 in
/-- With one attempt and a threshold of two, a job fails without an alert. -/
theorem lone_attempt_is_below_the_threshold :
    (frugalSettings 2).validate = .ok () ∧
      Service.build (frugalSettings 2) = .ok (frugalService 2) ∧
      (frugalPipeline 2).processor = (frugalService 2).processor ∧
      (frugalWorld 2).SparesAlerts ∧
      ∃ last ∈ (frugalWorld 2).serve (frugalPipeline 2) attemptedOnce,
        ∃ job ∈ last.jobs.jobs, job.status = .failed ∧
          ¬∃ alert ∈ last.alerts, alert.eventId = job.eventId ∧
            alert.reason = Processor.deliveryFailed := by
  refine ⟨by decide +kernel, rfl, rfl, ⟨rfl, rfl⟩, ?_⟩
  decide +kernel

end Sample

end WebhookRelay
