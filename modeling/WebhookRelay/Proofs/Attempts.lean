import Mathlib.Data.List.Forall2
import WebhookRelay.Proofs.Repertoire

/-!
# Attempts at delivering a job

What an attempt makes of a job, and what a job's status says about its attempts.  An
active job has attempts left, so that one more attempt is counted as one, and the job is
retried unless that was the last attempt.
-/

set_option autoImplicit false

namespace WebhookRelay

namespace Processor

def attempted (processor : Processor) (now : Timestamp) (job : Job) :
    Except QueueError Unit → Job
  | .ok () => job.beginAttempt.recordSuccess now
  | .error error => job.beginAttempt.recordFailure now error.deliveryText processor.backoff

theorem attempt_course (processor : Processor) (deliver : Deliverer) (now : Timestamp)
    (job : Job) :
    processor.attempt deliver now job = (deliver job.beginAttempt).bind fun
      | .ok () => .done (processor.attempted now job (.ok ()))
      | .error error =>
          (processor.observe now (processor.attempted now job (.error error))
            error.deliveryText).bind fun _ =>
              .done (processor.attempted now job (.error error)) := by
  refine congrArg (Program.bind _) (funext fun result => ?_)
  cases result <;> rfl

theorem attempt_courier (processor : Processor) (now : Timestamp) (job : Job) :
    processor.attempt .courier now job = .call (.deliver job.beginAttempt) fun
      | .ok () => .done (processor.attempted now job (.ok ()))
      | .error error =>
          (processor.observe now (processor.attempted now job (.error error))
            error.deliveryText).bind fun _ =>
              .done (processor.attempted now job (.error error)) := by
  rw [attempt_course]
  refine congrArg (Program.call _) (funext fun result => ?_)
  cases result <;> rfl

theorem observe_gentle (processor : Processor) (now : Timestamp) (job : Job)
    (error : String) : (processor.observe now job error).Uses
      fun request => request.aside = true ∧ request.Gentle := by
  refine observe_uses (fun _ _ _ => ?_) ?_ (fun _ => ?_) processor now job error <;>
    exact ⟨rfl, trivial⟩

def Works : Call → Prop
  | .dueJobs _ _ | .updateJob _ => True
  | .deliver _ | .exchange _ => True
  | .recentAlert _ _ _ | .newId _ | .createAlert _ => True
  | _ => False

theorem works_of_delivers {request : Call} (delivers : request.delivers) : Works request := by
  cases request <;> first | exact trivial | exact delivers.elim

theorem attempt_works (processor : Processor) {deliver : Deliverer}
    (delivers : ∀ job, (deliver job).Uses Call.delivers) (now : Timestamp) (job : Job) :
    (processor.attempt deliver now job).Uses Works := by
  rw [attempt_course]
  refine ((delivers job.beginAttempt).imp fun _ => works_of_delivers).bind fun result => ?_
  cases result with
  | ok done => exact trivial
  | error error =>
      have observes : (processor.observe now (processor.attempted now job (.error error))
          error.deliveryText).Uses Works :=
        observe_uses (fun _ _ _ => trivial) trivial (fun _ => trivial) ..
      exact observes.bind fun _ => trivial

theorem attemptAll_works (processor : Processor) {deliver : Deliverer}
    (delivers : ∀ job, (deliver job).Uses Call.delivers) (now : Timestamp) (jobs : List Job) :
    (processor.attemptAll deliver now jobs).outcome.Uses Works := by
  induction jobs with
  | nil => exact trivial
  | cons job rest ih =>
      rw [attemptAll_outcome]
      refine (processor.attempt_works delivers now job).bind fun after => ⟨trivial, ?_⟩
      intro answer
      cases answer with
      | error error => exact trivial
      | ok done => exact ih

theorem pass_works (processor : Processor) {deliver : Deliverer}
    (delivers : ∀ job, (deliver job).Uses Call.delivers) (now : Timestamp) :
    (processor.pass deliver now).outcome.Uses Works := by
  rw [pass_outcome]
  refine ⟨trivial, fun answer => ?_⟩
  cases answer with
  | error error => exact trivial
  | ok jobs =>
      refine (processor.attemptAll_works delivers now jobs).bind fun attempted => ?_
      cases attempted <;> exact trivial

@[simp] theorem identity_attempted (processor : Processor) (now : Timestamp) (job : Job)
    (result : Except QueueError Unit) :
    (processor.attempted now job result).identity = job.identity := by
  cases result <;> simp [attempted]

@[simp] theorem id_attempted (processor : Processor) (now : Timestamp) (job : Job)
    (result : Except QueueError Unit) : (processor.attempted now job result).id = job.id :=
  congrArg JobIdentity.id (processor.identity_attempted now job result)

@[simp] theorem eventId_attempted (processor : Processor) (now : Timestamp) (job : Job)
    (result : Except QueueError Unit) :
    (processor.attempted now job result).eventId = job.eventId :=
  congrArg JobIdentity.eventId (processor.identity_attempted now job result)

@[simp] theorem payload_attempted (processor : Processor) (now : Timestamp) (job : Job)
    (result : Except QueueError Unit) :
    (processor.attempted now job result).payload = job.payload :=
  congrArg JobIdentity.payload (processor.identity_attempted now job result)

@[simp] theorem attempts_attempted (processor : Processor) (now : Timestamp) (job : Job)
    (result : Except QueueError Unit) :
    (processor.attempted now job result).attempts = job.beginAttempt.attempts := by
  cases result with
  | ok done => rfl
  | error error =>
      simp only [attempted, Job.recordFailure]
      split <;> rfl

theorem status_attempted_ok (processor : Processor) (now : Timestamp) (job : Job) :
    (processor.attempted now job (.ok ())).status = .processed := rfl

/-- A failed attempt ends the job if it was the last one, and else the job is retried. -/
theorem status_attempted_error (processor : Processor) (now : Timestamp) (job : Job)
    (error : QueueError) :
    (processor.attempted now job (.error error)).status =
      if processor.backoff.maxAttempts ≤ job.beginAttempt.attempts then .failed
      else .retrying := by
  simp only [attempted, Job.recordFailure, Backoff.isExhausted, decide_eq_true_eq]
  split <;> rfl

end Processor

namespace Job

/-- What a job's status says about its attempts, of which there are at most so many. -/
def WellKept (limit : UInt32) (job : Job) : Prop :=
  match job.status with
  | .pending => job.attempts = 0 ∧ job.lastError = none
  | .retrying => 1 ≤ job.attempts ∧ job.attempts < limit
  | .processed => 1 ≤ job.attempts ∧ job.attempts ≤ limit
  | .failed => job.attempts = limit

variable {limit : UInt32} {job : Job}

theorem wellKept_create (limit : UInt32) (id : Uuid) (now : Timestamp)
    (eventId payload : String) : (create id now eventId payload).WellKept limit :=
  ⟨rfl, rfl⟩

theorem WellKept.lt_limit (kept : job.WellKept limit) (allowed : 1 ≤ limit)
    (active : job.status.isActive = true) : job.attempts < limit := by
  unfold WellKept at kept
  cases status : job.status with
  | pending =>
      rw [status] at kept
      rw [kept.1]
      exact UInt32.lt_of_lt_of_le (by decide) allowed
  | retrying =>
      rw [status] at kept
      exact kept.2
  | processed =>
      rw [status] at active
      cases active
  | failed =>
      rw [status] at active
      cases active

theorem toNat_beginAttempt (below : job.attempts < limit) :
    job.beginAttempt.attempts.toNat = job.attempts.toNat + 1 := by
  have bound := UInt32.lt_iff_toNat_lt.mp below
  have range := limit.toNat_lt
  have notLast : job.attempts ≠ 4294967295 := by
    intro last
    rw [last] at bound
    have most : (4294967295 : UInt32).toNat = 4294967295 := rfl
    omega
  simp only [beginAttempt, notLast, if_false, UInt32.toNat_add]
  have one : (1 : UInt32).toNat = 1 := rfl
  omega

variable {processor : Processor}

theorem WellKept.attempted (allowed : 1 ≤ processor.backoff.maxAttempts)
    (kept : job.WellKept processor.backoff.maxAttempts) (active : job.status.isActive = true)
    (now : Timestamp) (result : Except QueueError Unit) :
    (processor.attempted now job result).WellKept processor.backoff.maxAttempts := by
  have below := kept.lt_limit allowed active
  have counted := toNat_beginAttempt below
  have room := UInt32.lt_iff_toNat_lt.mp below
  have one : (1 : UInt32).toNat = 1 := rfl
  have counts : 1 ≤ job.beginAttempt.attempts := by
    rw [UInt32.le_iff_toNat_le]
    omega
  have atMost : job.beginAttempt.attempts ≤ processor.backoff.maxAttempts := by
    rw [UInt32.le_iff_toNat_le]
    omega
  unfold WellKept
  cases result with
  | ok done =>
      rw [processor.status_attempted_ok]
      simp only [Processor.attempts_attempted]
      exact ⟨counts, atMost⟩
  | error error =>
      rw [processor.status_attempted_error]
      by_cases exhausted : processor.backoff.maxAttempts ≤ job.beginAttempt.attempts
      · rw [if_pos exhausted]
        simp only [Processor.attempts_attempted]
        exact UInt32.le_antisymm atMost exhausted
      · rw [if_neg exhausted]
        simp only [Processor.attempts_attempted]
        exact ⟨counts, UInt32.not_le.mp exhausted⟩

end Job

/-! ## Changes of the job store -/

theorem JobStore.isActive_of_due {store : JobStore} {job : Job} {now : Timestamp} {limit : Nat}
    (member : job ∈ store.due now limit) : job.status.isActive = true := by
  have sorted := List.mem_mergeSort.mp (List.mem_of_mem_take member)
  have due := (List.mem_filter.mp sorted).2
  unfold Job.isDue at due
  exact (Bool.and_eq_true_iff.mp due).1

theorem JobStore.Distinct.due {store : JobStore} (distinct : store.Distinct) (now : Timestamp)
    (limit : Nat) : ((store.due now limit).map Job.id).Nodup := by
  have filtered : ((store.jobs.filter fun job => job.isDue now).map Job.id).Nodup :=
    distinct.sublist (List.filter_sublist.map Job.id)
  have sorted := ((List.mergeSort_perm _ JobStore.dueFirst).map Job.id).nodup_iff.mpr filtered
  exact sorted.sublist ((List.take_sublist _ _).map Job.id)

namespace Processor

/-- The jobs of a batch are stored as they are, and they are active. -/
def Current (jobs : List Job) (store : JobStore) : Prop :=
  ∀ job ∈ jobs, job ∈ store.jobs ∧ job.status.isActive = true

theorem Current.mono {jobs : List Job} {before after : JobStore} (current : Current jobs before)
    (kept : before.jobs <+: after.jobs) : Current jobs after :=
  fun job member => ⟨kept.mem (current job member).1, (current job member).2⟩

theorem current_due (store : JobStore) (now : Timestamp) (limit : Nat) :
    Current (store.due now limit) store :=
  fun _ member => ⟨JobStore.mem_due member, JobStore.isActive_of_due member⟩

theorem Current.replace {job updated : Job} {rest : List Job} {store : JobStore}
    (current : Current (job :: rest) store) (distinct : ((job :: rest).map Job.id).Nodup)
    (sameId : updated.id = job.id) :
    Current rest
      ⟨store.jobs.map fun other => if other.id = updated.id then updated else other⟩ := by
  intro other otherMember
  obtain ⟨member, active⟩ := current other (List.mem_cons_of_mem _ otherMember)
  have otherId : other.id ≠ updated.id := by
    rw [sameId]
    intro same
    exact (List.nodup_cons.mp distinct).1 (same ▸ List.mem_map_of_mem otherMember)
  exact ⟨List.mem_map.mpr ⟨other, member, if_neg otherId⟩, active⟩

end Processor

/-- The only changes of the job store: a job is added, or the state of one is replaced. -/
theorem World.perform_jobs {world after : World} {request : Call} {answer : request.Answer}
    (performed : world.perform request = some (answer, after)) :
    after.jobs = world.jobs ∨
      (∃ job, request = .createJob job ∧ world.jobs.find? job.id = none ∧
        after.jobs = ⟨world.jobs.jobs ++ [job]⟩) ∨
      ∃ job, request = .updateJob job ∧ after.jobs =
        ⟨world.jobs.jobs.map fun other => if other.id = job.id then job else other⟩ := by
  cases writes : request.writes with
  | false => exact Or.inl (perform_sameStores writes performed).jobs
  | true =>
      cases request with
      | createEvent event => exact Or.inl (perform_createEvent performed).1
      | markProcessed eventId time => exact Or.inl (perform_markProcessed performed).1
      | createEntry entry => exact Or.inl (perform_createEntry performed).2.1
      | updateEntry entry => exact Or.inl (perform_updateEntry performed).2.1
      | createJob job =>
          obtain ⟨_, _, ⟨_, _, same⟩ | ⟨_, absent, added⟩⟩ := perform_createJob performed
          · exact Or.inl same
          · exact Or.inr (Or.inl ⟨job, rfl, absent, added⟩)
      | updateJob job =>
          obtain ⟨_, _, ⟨_, _, same⟩ | ⟨_, replaced⟩⟩ := perform_updateJob performed
          · exact Or.inl same
          · exact Or.inr (Or.inr ⟨job, rfl, replaced⟩)
      | _ => cases writes

end WebhookRelay
