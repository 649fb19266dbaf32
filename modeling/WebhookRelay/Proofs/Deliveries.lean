import WebhookRelay.Proofs.Attempts
import WebhookRelay.Proofs.Chronicle

/-!
# Two accounts of the same attempts

The deliveries that were made of an event and the state of its job tell of the same
attempts.  An attempt is written into both, so between two tasks they agree: an active job
was delivered as often as it says and in vain, a processed one succeeded with its last
delivery, and a failed one has used up all its attempts.
-/

set_option autoImplicit false

namespace WebhookRelay

/-! ## Deliveries -/

structure Delivery where
  job : Job
  result : Except QueueError Unit

def Answered.delivery? : Answered → Option Delivery
  | ⟨.deliver job, result⟩ => some ⟨job, result⟩
  | _ => none

def deliveries (calls : List Answered) : List Delivery :=
  calls.filterMap Answered.delivery?

def deliveriesOf (eventId : String) (made : List Delivery) : List Delivery :=
  made.filter fun delivery => delivery.job.eventId = eventId

theorem deliveries_append (early late : List Answered) :
    deliveries (early ++ late) = deliveries early ++ deliveries late :=
  List.filterMap_append

theorem deliveries_of_gentle {calls : List Answered}
    (gentle : ∀ made ∈ calls, made.request.Gentle) : deliveries calls = [] := by
  refine List.filterMap_eq_nil_iff.mpr fun made member => ?_
  obtain ⟨request, answer⟩ := made
  cases request with
  | deliver job => exact (gentle _ member).elim
  | _ => rfl

def Delivery.failed (delivery : Delivery) : Prop :=
  ∃ error, delivery.result = .error error

/-! ## Two accounts of the same attempts -/

/-- What the status of a job says about the deliveries that were made of it. -/
def Job.Accounted (limit : UInt32) (job : Job) (made : List Delivery) : Prop :=
  match job.status with
  | .pending | .retrying =>
      made.length = job.attempts.toNat ∧ job.attempts < limit ∧
        ∀ delivery ∈ made, delivery.failed
  | .processed => ∃ earlier last, made = earlier ++ [last] ∧ last.result = .ok () ∧
      (∀ delivery ∈ earlier, delivery.failed) ∧
      earlier.length + 1 = job.attempts.toNat ∧ job.attempts ≤ limit
  | .failed => made.length = limit.toNat ∧ ∀ delivery ∈ made, delivery.failed

namespace Job

variable {limit : UInt32} {job : Job} {made : List Delivery} {processor : Processor}

theorem accounted_create (allowed : 1 ≤ limit) (id : Uuid) (now : Timestamp)
    (eventId payload : String) : (create id now eventId payload).Accounted limit [] :=
  ⟨rfl, UInt32.lt_of_lt_of_le (show (0 : UInt32) < 1 by decide) allowed,
    fun _ member => nomatch member⟩

theorem Accounted.active (accounted : job.Accounted limit made)
    (active : job.status.isActive = true) :
    made.length = job.attempts.toNat ∧ job.attempts < limit ∧
      ∀ delivery ∈ made, delivery.failed := by
  unfold Accounted at accounted
  cases status : job.status with
  | pending =>
      rw [status] at accounted
      exact accounted
  | retrying =>
      rw [status] at accounted
      exact accounted
  | processed =>
      rw [status] at active
      cases active
  | failed =>
      rw [status] at active
      cases active

theorem Accounted.attempted (accounted : job.Accounted processor.backoff.maxAttempts made)
    (active : job.status.isActive = true) (now : Timestamp) (delivery : Delivery) :
    (processor.attempted now job delivery.result).Accounted processor.backoff.maxAttempts
      (made ++ [delivery]) := by
  obtain ⟨counted, below, failures⟩ := accounted.active active
  have oneMore := toNat_beginAttempt below
  have room := UInt32.lt_iff_toNat_lt.mp below
  unfold Accounted
  cases ended : delivery.result with
  | ok done =>
      rw [processor.status_attempted_ok]
      refine ⟨made, delivery, rfl, ended, failures, ?_, ?_⟩
      · rw [Processor.attempts_attempted, oneMore, counted]
      · rw [Processor.attempts_attempted, UInt32.le_iff_toNat_le, oneMore]
        exact room
  | error error =>
      have allFailed : ∀ other ∈ made ++ [delivery], other.failed := by
        intro other member
        rcases List.mem_append.mp member with old | new
        · exact failures other old
        · obtain rfl := List.mem_singleton.mp new
          exact ⟨error, ended⟩
      have length : (made ++ [delivery]).length = job.beginAttempt.attempts.toNat := by
        rw [oneMore, List.length_append, counted]
        rfl
      rw [processor.status_attempted_error]
      by_cases exhausted : processor.backoff.maxAttempts ≤ job.beginAttempt.attempts
      · rw [if_pos exhausted]
        refine ⟨?_, allFailed⟩
        have atLeast := UInt32.le_iff_toNat_le.mp exhausted
        omega
      · rw [if_neg exhausted]
        refine ⟨?_, ?_, allFailed⟩
        · rw [Processor.attempts_attempted]
          exact length
        · rw [Processor.attempts_attempted]
          exact UInt32.not_le.mp exhausted

theorem Accounted.length_le (accounted : job.Accounted limit made) :
    made.length ≤ limit.toNat := by
  cases active : job.status.isActive with
  | true =>
      obtain ⟨counted, below, _⟩ := accounted.active active
      rw [counted]
      exact Nat.le_of_lt (UInt32.lt_iff_toNat_lt.mp below)
  | false =>
      unfold Accounted at accounted
      cases status : job.status with
      | pending | retrying =>
          rw [status] at active
          cases active
      | processed =>
          rw [status] at accounted
          obtain ⟨earlier, last, rfl, _, _, counted, atMost⟩ := accounted
          rw [List.length_append, List.length_singleton, counted]
          exact UInt32.le_iff_toNat_le.mp atMost
      | failed =>
          rw [status] at accounted
          exact Nat.le_of_eq accounted.1

theorem Accounted.last_of_ok {before after : List Delivery} {delivery : Delivery}
    (accounted : job.Accounted limit (before ++ delivery :: after))
    (succeeded : delivery.result = .ok ()) : after = [] := by
  have notFailed : ¬delivery.failed := by
    rintro ⟨error, same⟩
    rw [succeeded] at same
    cases same
  have member : delivery ∈ before ++ delivery :: after :=
    List.mem_append_right _ List.mem_cons_self
  unfold Accounted at accounted
  split at accounted
  · exact absurd (accounted.2.2 delivery member) notFailed
  · exact absurd (accounted.2.2 delivery member) notFailed
  · obtain ⟨failures, final, same, _, allFailed, _, _⟩ := accounted
    rcases List.eq_nil_or_concat after with rfl | ⟨front, ending, rfl⟩
    · rfl
    · rw [List.concat_eq_append, ← List.cons_append, ← List.append_assoc] at same
      obtain ⟨rfl, _⟩ := List.append_inj' same rfl
      exact absurd (allFailed delivery (List.mem_append_right _ List.mem_cons_self)) notFailed
  · exact absurd (accounted.2 delivery member) notFailed

/-- Where the job has ended, its deliveries have ended: later accounts hold the same ones. -/
theorem Accounted.ended (accounted : job.Accounted limit made) (ended : job.isTerminal = true)
    {other : Job} {later : List Delivery} (laterAccounted : other.Accounted limit later)
    (grown : made <+: later) : later = made := by
  obtain ⟨more, rfl⟩ := grown
  suffices nothing : more = [] by rw [nothing, List.append_nil]
  unfold Accounted at accounted
  cases status : job.status with
  | pending | retrying =>
      rw [isTerminal, status] at ended
      cases ended
  | processed =>
      rw [status] at accounted
      obtain ⟨earlier, last, rfl, succeeded, _, _, _⟩ := accounted
      rw [List.append_assoc] at laterAccounted
      exact laterAccounted.last_of_ok succeeded
  | failed =>
      rw [status] at accounted
      have atMost := laterAccounted.length_le
      rw [List.length_append, accounted.1] at atMost
      exact List.length_eq_zero_iff.mp (by omega)

end Job

/-- The jobs of a store and the deliveries that were made are accounts of the same
attempts, and what was delivered is what the job carries. -/
structure Tallied (limit : UInt32) (store : JobStore) (made : List Delivery) : Prop where
  accounted : ∀ job ∈ store.jobs, job.Accounted limit (deliveriesOf job.eventId made)
  carried : ∀ job ∈ store.jobs, ∀ delivery ∈ made, delivery.job.eventId = job.eventId →
    delivery.job.payload = job.payload
  known : ∀ delivery ∈ made, store.HasJob delivery.job.eventId

theorem Orderly.sole {world : World} (orderly : Orderly world) {job other : Job}
    (member : job ∈ world.jobs.jobs) (otherMember : other ∈ world.jobs.jobs)
    (same : job.eventId = other.eventId) : job = other := by
  have single : (world.jobs.jobs.map Job.eventId).Nodup := by
    have once := orderly.single
    rw [JobStore.identities, List.map_map] at once
    exact once
  exact List.inj_on_of_nodup_map single member otherMember same

variable {processor : Processor} {now : Timestamp} {made : List Delivery}

theorem deliveriesOf_append (eventId : String) (early late : List Delivery) :
    deliveriesOf eventId (early ++ late) =
      deliveriesOf eventId early ++ deliveriesOf eventId late :=
  List.filter_append ..

namespace Tallied

theorem empty {limit : UInt32} {store : JobStore} (none : store.jobs = []) :
    Tallied limit store [] := by
  refine ⟨?_, ?_, ?_⟩ <;> simp [none]

/-- What an attempt at a stored job makes of both accounts. -/
theorem attempted {world : World} (orderly : Orderly world)
    (tallied : Tallied processor.backoff.maxAttempts world.jobs made) {job : Job}
    (member : job ∈ world.jobs.jobs) (active : job.status.isActive = true) (now : Timestamp)
    (result : Except QueueError Unit) :
    Tallied processor.backoff.maxAttempts
      ⟨world.jobs.jobs.map fun other =>
        if other.id = (processor.attempted now job result).id then
          processor.attempted now job result else other⟩
      (made ++ [⟨job.beginAttempt, result⟩]) := by
  have isJob {other : Job} (otherMember : other ∈ world.jobs.jobs)
      (same : other.id = (processor.attempted now job result).id) : other = job := by
    rw [Processor.id_attempted] at same
    exact List.inj_on_of_nodup_map orderly.ids otherMember member same
  have isOther {other : Job} (otherMember : other ∈ world.jobs.jobs)
      (unlike : other.id ≠ (processor.attempted now job result).id) :
      ¬job.eventId = other.eventId := by
    intro same
    rw [orderly.sole member otherMember same, Processor.id_attempted] at unlike
    exact unlike rfl
  refine ⟨?_, ?_, ?_⟩
  · intro updated updatedMember
    obtain ⟨other, otherMember, rfl⟩ := List.mem_map.mp updatedMember
    rw [deliveriesOf_append]
    by_cases same : other.id = (processor.attempted now job result).id
    · rw [if_pos same, Processor.eventId_attempted]
      have own : deliveriesOf job.eventId [⟨job.beginAttempt, result⟩] =
          [⟨job.beginAttempt, result⟩] := by
        simp [deliveriesOf, Job.beginAttempt]
      rw [own]
      exact (tallied.accounted job member).attempted active now ⟨job.beginAttempt, result⟩
    · rw [if_neg same]
      have foreign : deliveriesOf other.eventId [⟨job.beginAttempt, result⟩] = [] := by
        simp [deliveriesOf, Job.beginAttempt, isOther otherMember same]
      rw [foreign, List.append_nil]
      exact tallied.accounted other otherMember
  · intro updated updatedMember delivery deliveryMember ofEvent
    obtain ⟨other, otherMember, rfl⟩ := List.mem_map.mp updatedMember
    have carried (equal : delivery.job.eventId = other.eventId) :
        delivery.job.payload = other.payload := by
      rcases List.mem_append.mp deliveryMember with old | new
      · exact tallied.carried other otherMember delivery old equal
      · obtain rfl := List.mem_singleton.mp new
        rw [← orderly.sole member otherMember equal]
        rfl
    by_cases same : other.id = (processor.attempted now job result).id
    · rw [if_pos same] at ofEvent ⊢
      rw [isJob otherMember same] at carried
      rw [Processor.eventId_attempted] at ofEvent
      rw [Processor.payload_attempted]
      exact carried ofEvent
    · rw [if_neg same] at ofEvent ⊢
      exact carried ofEvent
  · intro delivery deliveryMember
    have known : world.jobs.HasJob delivery.job.eventId := by
      rcases List.mem_append.mp deliveryMember with old | new
      · exact tallied.known delivery old
      · obtain rfl := List.mem_singleton.mp new
        exact ⟨job, member, rfl⟩
    rw [JobStore.hasJob_iff] at known ⊢
    rw [JobStore.identities, JobStore.identities_replace orderly.ids]
    · exact known
    · rw [Processor.identity_attempted]
      exact List.mem_map_of_mem member

theorem create {store : JobStore} {limit : UInt32} (allowed : 1 ≤ limit)
    (tallied : Tallied limit store made) (id : Uuid) (now : Timestamp)
    {eventId : String} (payload : String) (without : ¬store.HasJob eventId) :
    Tallied limit ⟨store.jobs ++ [.create id now eventId payload]⟩ made := by
  have foreign : ∀ delivery ∈ made, delivery.job.eventId ≠ eventId := by
    rintro delivery member rfl
    exact without (tallied.known delivery member)
  refine ⟨?_, ?_, ?_⟩
  · intro job member
    rcases List.mem_append.mp member with old | new
    · exact tallied.accounted job old
    · obtain rfl := List.mem_singleton.mp new
      have nothing : deliveriesOf eventId made = [] := by
        refine List.filter_eq_nil_iff.mpr fun delivery deliveryMember => ?_
        rw [decide_eq_true_eq]
        exact foreign delivery deliveryMember
      show (Job.create id now eventId payload).Accounted limit (deliveriesOf eventId made)
      rw [nothing]
      exact Job.accounted_create allowed ..
  · intro job member delivery deliveryMember ofEvent
    rcases List.mem_append.mp member with old | new
    · exact tallied.carried job old delivery deliveryMember ofEvent
    · obtain rfl := List.mem_singleton.mp new
      exact absurd ofEvent (foreign delivery deliveryMember)
  · intro delivery member
    obtain ⟨job, stored, same⟩ := tallied.known delivery member
    exact ⟨job, List.mem_append_left _ stored, same⟩

end Tallied

/-! ## Passes -/

namespace Processor

variable {world last : World} {calls : List Answered}

theorem isSome_find?_attempted (processor : Processor) {store : JobStore} {job : Job}
    (member : job ∈ store.jobs) (now : Timestamp) (result : Except QueueError Unit) :
    (store.find? (processor.attempted now job result).id).isSome = true := by
  rw [id_attempted, Option.isSome_iff_ne_none]
  intro absent
  exact JobStore.find?_eq_none.mp absent (List.mem_map_of_mem member)

theorem attempt_record {job after : Job}
    (recorded : (processor.attempt .courier now job).record world = some (after, calls, last)) :
    ∃ result, after = processor.attempted now job result ∧
      deliveries calls = [⟨job.beginAttempt, result⟩] ∧ world.SameStores last := by
  rw [attempt_courier] at recorded
  obtain ⟨result, middle, later, performed, goesOn, rfl⟩ :=
    Program.record_call_eq_some.mp recorded
  have delivered : world.SameStores middle := World.perform_sameStores rfl performed
  cases result with
  | ok done =>
      cases goesOn
      exact ⟨.ok (), rfl, rfl, delivered⟩
  | error error =>
      obtain ⟨observed, early, reached, late, observes, ends, rfl⟩ := Program.record_bind goesOn
      cases ends
      have quiet : deliveries early = [] := by
        refine deliveries_of_gentle fun made member => ?_
        exact ((observe_gentle ..).record observes made member).2
      have reported := (observe_aside ..).sameStores (Program.run_of_record observes)
      refine ⟨.error error, rfl, ?_, delivered.trans reported⟩
      rw [List.append_nil]
      exact congrArg (List.cons _) quiet

/-- A batch is delivered once, each job of it with one more attempt begun, and every
attempt goes into both accounts. -/
theorem attemptAll_record {batch : List Job} {result : Except QueueError Unit}
    (recorded : (processor.attemptAll .courier now batch).outcome.record world =
      some (result, calls, last))
    (reliable : world.Reliable) (orderly : Orderly world)
    (current : Current batch world.jobs) (once : (batch.map Job.id).Nodup)
    (tallied : Tallied processor.backoff.maxAttempts world.jobs made) :
    Tallied processor.backoff.maxAttempts last.jobs (made ++ deliveries calls) ∧
      (deliveries calls).map Delivery.job = batch.map Job.beginAttempt := by
  induction batch generalizing world calls made with
  | nil =>
      cases recorded
      refine ⟨?_, rfl⟩
      rw [show deliveries [] = [] from rfl, List.append_nil]
      exact tallied
  | cons job rest ih =>
      rw [attemptAll_outcome] at recorded
      obtain ⟨after, early, middle, late, attempts, goesOn, rfl⟩ :=
        Program.record_bind recorded
      obtain ⟨ended, rfl, delivered, quiet⟩ := attempt_record attempts
      have middleReliable := reliable.run (Program.run_of_record attempts)
      have middleOrderly := (orderly.quiet quiet).1
      rw [← quiet.jobs] at current tallied
      obtain ⟨member, active⟩ := current job List.mem_cons_self
      have isKnown : (processor.attempted now job ended).identity ∈ middle.jobs.identities := by
        rw [identity_attempted]
        exact List.mem_map_of_mem member
      have stored := processor.isSome_find?_attempted member now ended
      -- What was attempted is stored, and the rest of the batch is current in the new world.
      obtain ⟨answer, updated, later, performed, goesOn, rfl⟩ :=
        Program.record_call_eq_some.mp goesOn
      rw [middleReliable.updateJob stored] at performed
      cases performed
      have updates := middleReliable.updateJob stored
      have permitted : middle.Permits (.updateJob (processor.attempted now job ended)) := isKnown
      obtain ⟨tallied, jobs⟩ := ih goesOn (middleReliable.performed updates)
        (middleOrderly.performed permitted updates).1
        (current.replace once (id_attempted processor now job ended))
        (List.nodup_cons.mp once).2 (tallied.attempted middleOrderly member active now ended)
      have same : deliveries (early ++ ⟨.updateJob (processor.attempted now job ended), .ok ()⟩ ::
          later) = ⟨job.beginAttempt, ended⟩ :: deliveries later := by
        rw [deliveries_append, delivered]
        rfl
      rw [same]
      refine ⟨?_, congrArg (List.cons _) jobs⟩
      rw [List.append_cons]
      exact tallied

theorem pass_record {result : Except QueueError Nat}
    (recorded : (processor.pass .courier now).outcome.record world = some (result, calls, last))
    (reliable : world.Reliable) (orderly : Orderly world)
    (tallied : Tallied processor.backoff.maxAttempts world.jobs made) :
    Tallied processor.backoff.maxAttempts last.jobs (made ++ deliveries calls) ∧
      ∃ batch, Current batch world.jobs ∧ (batch.map Job.eventId).Nodup ∧
        (deliveries calls).map Delivery.job = batch.map Job.beginAttempt := by
  rw [pass_outcome] at recorded
  obtain ⟨answer, middle, later, performed, goesOn, rfl⟩ :=
    Program.record_call_eq_some.mp recorded
  rw [reliable.dueJobs] at performed
  cases performed
  obtain ⟨attempted, early, reached, late, attempts, ends, rfl⟩ := Program.record_bind goesOn
  have noMore : late = [] ∧ last = reached := by
    cases attempted <;> cases ends <;> exact ⟨rfl, rfl⟩
  obtain ⟨rfl, rfl⟩ := noMore
  have current := current_due world.jobs now processor.batchSize
  have once := orderly.ids.due now processor.batchSize
  obtain ⟨tallied, jobs⟩ := attemptAll_record attempts reliable orderly current once tallied
  have same : deliveries (⟨.dueJobs now processor.batchSize,
      .ok (world.jobs.due now processor.batchSize)⟩ :: (early ++ [])) = deliveries early := by
    rw [List.append_nil]
    rfl
  rw [same]
  refine ⟨tallied, _, current, ?_, jobs⟩
  -- Different jobs of an orderly world belong to different events.
  refine List.Nodup.map_on ?_ once.of_map
  intro job member other otherMember sameEvent
  exact orderly.sole (current job member).1 (current other otherMember).1 sameEvent

end Processor

end WebhookRelay
