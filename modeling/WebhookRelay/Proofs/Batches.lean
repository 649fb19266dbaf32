import WebhookRelay.Proofs.Deliveries

/-!
# Batches

A pass takes its jobs in turn.  A turn delivers the job, tells an observer if that failed,
and stores the outcome; the first outcome that cannot be stored ends the batch.  Who is told
of failures makes no difference to the jobs, so a batch is looked at here with any observer
that keeps away from the queue, the processor's own being one of them.
-/

set_option autoImplicit false

namespace WebhookRelay

/-- The program makes these calls, and with their answers it ends with this value. -/
inductive Program.Makes {α : Type} : Program α → List Answered → α → Prop where
  | done (value : α) : Makes (.done value) [] value
  | call {request : Call} {next : request.Answer → Program α} (answer : request.Answer)
      {later : List Answered} {value : α} (goesOn : Makes (next answer) later value) :
      Makes (.call request next) (⟨request, answer⟩ :: later) value

theorem Program.makes_of_record {α : Type} {program : Program α} {world last : World}
    {calls : List Answered} {value : α}
    (recorded : program.record world = some (value, calls, last)) :
    program.Makes calls value := by
  induction program generalizing world calls with
  | done ended =>
      cases recorded
      exact .done _
  | call request next ih =>
      obtain ⟨answer, middle, later, _, goesOn, rfl⟩ := record_call_eq_some.mp recorded
      exact .call answer (ih answer goesOn)

/-! ## Observers -/

/-- Who is told of failed attempts: of the time, the job after the attempt and the text of
the error. -/
abbrev Observer := Timestamp → Job → String → Program Unit

/-- A call that neither changes the job queue nor delivers a job, and sets no mark. -/
def Call.apart : Call → Prop
  | .createJob _ | .updateJob _ | .deliver _ => False
  | .mark _ _ _ | .tryMark _ _ _ => False
  | _ => True

def Observer.Apart (observer : Observer) : Prop :=
  ∀ now job text, (observer now job text).Uses Call.apart

namespace Processor

def attemptTelling (processor : Processor) (observer : Observer) (deliver : Deliverer)
    (now : Timestamp) (job : Job) : Program Job := do
  let job := job.beginAttempt
  match ← deliver job with
  | .ok () => return job.recordSuccess now
  | .error error =>
      let text := error.deliveryText
      let job := job.recordFailure now text processor.backoff
      observer now job text
      return job

def attemptAllTelling (processor : Processor) (observer : Observer) (deliver : Deliverer)
    (now : Timestamp) : List Job → Attempt QueueError Unit
  | [] => return ()
  | job :: rest => do
      let job ← ExceptT.lift (processor.attemptTelling observer deliver now job)
      Attempt.asking (.ask (.updateJob job)) QueueError.asStoreError
      attemptAllTelling processor observer deliver now rest

def passTelling (processor : Processor) (observer : Observer) (deliver : Deliverer)
    (now : Timestamp) : Attempt QueueError Nat := do
  let jobs ← Attempt.asking (.ask (.dueJobs now processor.batchSize)) QueueError.asStoreError
  processor.attemptAllTelling observer deliver now jobs
  return jobs.length

variable (processor : Processor) (observer : Observer) (deliver : Deliverer) (now : Timestamp)

theorem attemptAll_eq_telling (jobs : List Job) : processor.attemptAll deliver now jobs =
    processor.attemptAllTelling processor.observe deliver now jobs := by
  induction jobs with
  | nil => rfl
  | cons job rest ih =>
      unfold attemptAll attemptAllTelling
      rw [ih]
      rfl

theorem pass_eq_telling :
    processor.pass deliver now = processor.passTelling processor.observe deliver now := by
  unfold pass passTelling
  simp only [attemptAll_eq_telling]

theorem observe_apart : Observer.Apart processor.observe := by
  intro time job text
  apply observe_uses <;> intros <;> trivial

theorem attemptTelling_course (job : Job) :
    processor.attemptTelling observer deliver now job = (deliver job.beginAttempt).bind fun
      | .ok () => .done (processor.attempted now job (.ok ()))
      | .error error =>
          (observer now (processor.attempted now job (.error error)) error.deliveryText).bind
            fun _ => .done (processor.attempted now job (.error error)) := by
  refine congrArg (Program.bind _) (funext fun result => ?_)
  cases result <;> rfl

theorem attemptAllTelling_outcome (job : Job) (rest : List Job) :
    (processor.attemptAllTelling observer deliver now (job :: rest)).outcome =
      (processor.attemptTelling observer deliver now job).bind fun job =>
        .call (.updateJob job) fun
          | .error error => .done (.error error.asStoreError)
          | .ok () => (processor.attemptAllTelling observer deliver now rest).outcome := by
  refine Eq.trans (Program.bind_assoc (processor.attemptTelling observer deliver now job) _ _) ?_
  refine congrArg (Program.bind _) (funext fun job => ?_)
  refine congrArg (Program.call _) (funext fun answer => ?_)
  cases answer <;> rfl

theorem passTelling_outcome :
    (processor.passTelling observer deliver now).outcome =
      .call (.dueJobs now processor.batchSize) fun
        | .error error => .done (.error error.asStoreError)
        | .ok jobs =>
            (processor.attemptAllTelling observer deliver now jobs).outcome.andThen fun _ =>
              .done (.ok jobs.length) := by
  refine congrArg (Program.call _) (funext fun answer => ?_)
  cases answer with
  | error error => rfl
  | ok jobs =>
      refine congrArg (Program.bind (processor.attemptAllTelling observer deliver now jobs).outcome)
        (funext fun attempted => ?_)
      cases attempted <;> rfl

end Processor

/-! ## Turns -/

/-- A turn of a batch: what was called, and with what result. -/
structure JobTurn where
  job : Job
  delivering : List Answered
  result : Except QueueError Unit
  telling : List Answered
  stored : Except QueueError Unit

namespace JobTurn

def outcome (processor : Processor) (now : Timestamp) (turn : JobTurn) : Job :=
  processor.attempted now turn.job turn.result

/-- The calls of a turn: the delivery, the report of its failure, and the update. -/
def calls (processor : Processor) (now : Timestamp) (turn : JobTurn) : List Answered :=
  turn.delivering ++ turn.telling ++ [⟨.updateJob (turn.outcome processor now), turn.stored⟩]

/-- The job was delivered with one more attempt counted; if that failed, and only then, the
observer was told, with the job as it is after the attempt and the text of the error. -/
structure Taken (processor : Processor) (observer : Observer) (deliver : Deliverer)
    (now : Timestamp) (turn : JobTurn) : Prop where
  delivered : (deliver turn.job.beginAttempt).Makes turn.delivering turn.result
  untold : turn.result = .ok () → turn.telling = []
  told : ∀ error, turn.result = .error error →
    (observer now (turn.outcome processor now) error.deliveryText).Makes turn.telling ()
  counted : (turn.outcome processor now).attempts.toNat =
    min (turn.job.attempts.toNat + 1) 4294967295

end JobTurn

theorem Job.toNat_beginAttempt_min (job : Job) :
    job.beginAttempt.attempts.toNat = min (job.attempts.toNat + 1) 4294967295 := by
  have range := job.attempts.toNat_lt
  have most : (4294967295 : UInt32).toNat = 4294967295 := rfl
  by_cases last : job.attempts = 4294967295
  · simp [beginAttempt, last]
  · have below : job.attempts.toNat ≠ 4294967295 := by
      intro same
      exact last (UInt32.toNat_inj.mp (same.trans most.symm))
    have one : (1 : UInt32).toNat = 1 := rfl
    simp only [beginAttempt, last, if_false, UInt32.toNat_add]
    omega

/-- The batch after these turns: they took the listed jobs in order, and the first outcome
that was not stored ended it.  The jobs of the other turns are stored with their outcomes,
and all other jobs as they were. -/
structure Batch (processor : Processor) (observer : Observer) (deliver : Deliverer)
    (now : Timestamp) (listed : List Job) (before : JobStore) (turns : List JobTurn)
    (result : Except QueueError Unit) (after : JobStore) : Prop where
  inOrder : turns.map JobTurn.job <+: listed
  taken : ∀ turn ∈ turns, turn.Taken processor observer deliver now
  ended :
    (result = .ok () ∧ turns.map JobTurn.job = listed ∧ ∀ turn ∈ turns, turn.stored = .ok ()) ∨
    ∃ earlier failing error reason, turns = earlier ++ [failing] ∧
      (∀ turn ∈ earlier, turn.stored = .ok ()) ∧ failing.stored = .error error ∧
      error.asStoreError = .store reason ∧ result = .error (.store reason)
  stored : ∀ turn ∈ turns, turn.stored = .ok () → turn.outcome processor now ∈ after.jobs
  kept : ∀ job ∈ before.jobs,
    (∀ turn ∈ turns, turn.stored = .ok () → turn.job.id ≠ job.id) → job ∈ after.jobs
  ids : after.jobs.map Job.id = before.jobs.map Job.id

theorem QueueError.asStoreError_eq (error : QueueError) :
    ∃ reason, error.asStoreError = .store reason := by
  cases error <;> exact ⟨_, rfl⟩

namespace Batch

variable {processor : Processor} {observer : Observer} {deliver : Deliverer} {now : Timestamp}
  {before after : JobStore} {turn : JobTurn}

theorem nil : Batch processor observer deliver now [] before [] (.ok ()) before where
  inOrder := List.prefix_rfl
  taken := by simp
  ended := Or.inl ⟨rfl, rfl, by simp⟩
  stored := by simp
  kept _ member _ := member
  ids := rfl

/-- A turn whose outcome is not stored ends the batch and leaves the jobs as they are. -/
theorem stopped (rest : List Job) {error : QueueError}
    (taken : turn.Taken processor observer deliver now) (refused : turn.stored = .error error) :
    Batch processor observer deliver now (turn.job :: rest) before [turn]
      (.error error.asStoreError) before where
  inOrder := by simp
  taken other member := by
    obtain rfl := List.mem_singleton.mp member
    exact taken
  ended := by
    obtain ⟨reason, same⟩ := error.asStoreError_eq
    exact Or.inr ⟨[], turn, error, reason, rfl, by simp, refused, same, congrArg _ same⟩
  stored other member isStored := by
    obtain rfl := List.mem_singleton.mp member
    rw [refused] at isStored
    cases isStored
  kept _ member _ := member
  ids := rfl

theorem cons {rest : List Job} {turns : List JobTurn} {result : Except QueueError Unit}
    (taken : turn.Taken processor observer deliver now) (done : turn.stored = .ok ())
    (member : turn.job ∈ before.jobs) (once : ((turn.job :: rest).map Job.id).Nodup)
    (later : Batch processor observer deliver now rest
      ⟨before.jobs.map fun other =>
        if other.id = (turn.outcome processor now).id then turn.outcome processor now
        else other⟩ turns result after) :
    Batch processor observer deliver now (turn.job :: rest) before (turn :: turns) result
      after := by
  have sameId : (turn.outcome processor now).id = turn.job.id := processor.id_attempted ..
  have apart : ∀ other ∈ turns, other.job.id ≠ turn.job.id := by
    intro other otherMember same
    have listed := later.inOrder.subset (List.mem_map_of_mem otherMember)
    have fresh := (List.nodup_cons.mp once).1
    exact fresh (same ▸ List.mem_map_of_mem listed)
  refine ⟨?_, ?_, ?_, ?_, ?_, ?_⟩
  · simpa using later.inOrder
  · intro other otherMember
    rcases List.mem_cons.mp otherMember with rfl | isLater
    · exact taken
    · exact later.taken other isLater
  · rcases later.ended with ⟨ok, all, stored⟩ | ⟨earlier, failing, error, reason, rfl, stored, rest⟩
    · refine Or.inl ⟨ok, by rw [List.map_cons, all], ?_⟩
      simpa [done] using stored
    · refine Or.inr ⟨turn :: earlier, failing, error, reason, rfl, ?_, rest⟩
      simpa [done] using stored
  · intro other otherMember stored
    rcases List.mem_cons.mp otherMember with rfl | isLater
    · -- No later turn has the same job, so what was stored first is kept to the end.
      apply later.kept
      · exact List.mem_map.mpr ⟨other.job, member, if_pos sameId.symm⟩
      · intro another anotherMember _
        rw [sameId]
        exact apart another anotherMember
    · exact later.stored other isLater stored
  · intro job jobMember others
    apply later.kept
    · refine List.mem_map.mpr ⟨job, jobMember, if_neg ?_⟩
      rw [sameId]
      exact (others turn List.mem_cons_self done).symm
    · intro other otherMember
      exact others other (List.mem_cons_of_mem _ otherMember)
  · rw [later.ids, List.map_map]
    apply List.map_congr_left
    intro other _
    simp only [Function.comp]
    split
    · rename_i same
      exact same.symm
    · rfl

end Batch

/-! ## What a batch depends on -/

namespace World

/-- The jobs, what is planned for storing them, and what decides about deliveries. -/
structure SameQueue (before after : World) : Prop where
  jobs : after.jobs = before.jobs
  updates : after.refusals .updateJob = before.refusals .updateJob
  courier : after.courier = before.courier
  network : after.network = before.network

variable {world other after : World}

theorem SameQueue.refl (world : World) : world.SameQueue world := ⟨rfl, rfl, rfl, rfl⟩

theorem SameQueue.symm (same : world.SameQueue other) : other.SameQueue world :=
  ⟨same.jobs.symm, same.updates.symm, same.courier.symm, same.network.symm⟩

theorem SameQueue.trans {first second third : World} (before : first.SameQueue second)
    (after : second.SameQueue third) : first.SameQueue third :=
  ⟨after.jobs.trans before.jobs, after.updates.trans before.updates,
    after.courier.trans before.courier, after.network.trans before.network⟩

theorem perform_apart {request : Call} {answer : request.Answer} (apart : request.apart)
    (performed : world.perform request = some (answer, after)) : world.SameQueue after := by
  have differs := perform_differs performed
  cases request with
  | createJob | updateJob | deliver | mark | tryMark => exact apart.elim
  | _ =>
      refine ⟨differs.jobs ?_, perform_refusals_other performed ?_, differs.courier ?_,
        differs.network⟩ <;> simp [Call.part?, Call.site?]

theorem SameQueue.takeRefusal (same : world.SameQueue other) :
    (other.takeRefusal .updateJob).1 = (world.takeRefusal .updateJob).1 ∧
      (world.takeRefusal .updateJob).2.SameQueue (other.takeRefusal .updateJob).2 := by
  have taken := differs_takeRefusal none world .updateJob
  have otherTaken := differs_takeRefusal none other .updateJob
  refine ⟨?_, ?_, ?_, ?_, ?_⟩
  · simp only [World.takeRefusal, same.updates]
    split <;> rfl
  · rw [taken.jobs (by simp), otherTaken.jobs (by simp), same.jobs]
  · simp only [takeRefusal_refusals, same.updates]
  · rw [taken.courier (by simp), otherTaken.courier (by simp), same.courier]
  · rw [taken.network, otherTaken.network, same.network]

theorem SameQueue.updateJob (same : world.SameQueue other) {job : Job}
    {answer : Except QueueError Unit}
    (performed : world.perform (.updateJob job) = some (answer, after)) :
    ∃ last, other.perform (.updateJob job) = some (answer, last) ∧ after.SameQueue last := by
  obtain ⟨refusal, taken⟩ := same.takeRefusal
  simp only [perform, unlessRefused, changing] at performed ⊢
  rw [refusal]
  split at performed
  · cases performed
    exact ⟨_, rfl, taken⟩
  · rw [taken.jobs]
    split at performed
    · cases performed
      exact ⟨_, rfl, rfl, taken.updates, taken.courier, taken.network⟩
    · cases performed
      exact ⟨_, rfl, taken⟩

theorem SameQueue.delivers (same : world.SameQueue other) {request : Call}
    (delivers : request.delivers) {answer : request.Answer}
    (performed : world.perform request = some (answer, after)) :
    ∃ last, other.perform request = some (answer, last) ∧ after.SameQueue last := by
  cases request with
  | deliver job =>
      cases performed
      refine ⟨{ other with courier := (world.courier.deliver job).2 }, ?_, same.jobs,
        same.updates, rfl, same.network⟩
      simp only [perform, same.courier]
      rfl
  | exchange request =>
      cases performed
      refine ⟨other, ?_, same⟩
      simp only [perform, same.network]
  | _ => exact delivers.elim

end World

/-! ## Running a batch -/

namespace Processor

variable {processor : Processor} {observer : Observer} {deliver : Deliverer} {now : Timestamp}
  {world last : World} {calls : List Answered}

theorem attemptTelling_record (delivers : ∀ job, (deliver job).Uses Call.delivers)
    (apart : observer.Apart) {job after : Job}
    (recorded : (processor.attemptTelling observer deliver now job).record world =
      some (after, calls, last)) :
    ∃ delivering result telling, after = processor.attempted now job result ∧
      calls = delivering ++ telling ∧ last.jobs = world.jobs ∧
      ∀ stored, JobTurn.Taken processor observer deliver now
        ⟨job, delivering, result, telling, stored⟩ := by
  rw [attemptTelling_course] at recorded
  obtain ⟨result, delivering, middle, telling, made, goesOn, rfl⟩ := Program.record_bind recorded
  have delivered := Program.makes_of_record made
  have counted (stored : Except QueueError Unit) :
      (JobTurn.outcome processor now ⟨job, delivering, result, telling, stored⟩).attempts.toNat =
        min (job.attempts.toNat + 1) 4294967295 := by
    rw [JobTurn.outcome, attempts_attempted, Job.toNat_beginAttempt_min]
  have aside : (deliver job.beginAttempt).Aside :=
    (delivers job.beginAttempt).imp fun _ => Call.aside_of_delivers
  have same := (aside.sameStores (Program.run_of_record made)).jobs
  cases result with
  | ok done =>
      cases goesOn
      exact ⟨delivering, .ok (), [], rfl, rfl, same, fun stored =>
        ⟨delivered, fun _ => rfl, nofun, counted stored⟩⟩
  | error error =>
      obtain ⟨told, early, reached, late, observes, ends, rfl⟩ := Program.record_bind goesOn
      cases ends
      rw [List.append_nil] at counted ⊢
      have quiet : last.jobs = middle.jobs := by
        have uses := apart now (processor.attempted now job (.error error)) error.deliveryText
        exact (uses.run_preserves World.SameQueue.refl World.SameQueue.trans
          World.perform_apart (Program.run_of_record observes)).jobs
      refine ⟨delivering, .error error, early, rfl, rfl, quiet.trans same, fun stored => ?_⟩
      refine ⟨delivered, nofun, ?_, counted stored⟩
      rintro _ ⟨⟩
      exact Program.makes_of_record observes

/-- What is recorded of a batch is the calls of its turns. -/
theorem attemptAllTelling_record (delivers : ∀ job, (deliver job).Uses Call.delivers)
    (apart : observer.Apart) {jobs : List Job} {result : Except QueueError Unit}
    (recorded : (processor.attemptAllTelling observer deliver now jobs).outcome.record world =
      some (result, calls, last))
    (current : ∀ job ∈ jobs, job ∈ world.jobs.jobs) (once : (jobs.map Job.id).Nodup) :
    ∃ turns, calls = turns.flatMap (JobTurn.calls processor now) ∧
      Batch processor observer deliver now jobs world.jobs turns result last.jobs := by
  induction jobs generalizing world calls with
  | nil =>
      cases recorded
      exact ⟨[], rfl, .nil⟩
  | cons job rest ih =>
      rw [attemptAllTelling_outcome] at recorded
      obtain ⟨after, early, middle, late, attempts, goesOn, rfl⟩ := Program.record_bind recorded
      obtain ⟨delivering, ended, telling, rfl, rfl, same, taken⟩ :=
        attemptTelling_record delivers apart attempts
      obtain ⟨answer, updated, later, performed, onward, rfl⟩ :=
        Program.record_call_eq_some.mp goesOn
      obtain ⟨_, _, changes⟩ := World.perform_updateJob performed
      rw [← same] at current ⊢
      rcases changes with ⟨error, rfl, unchanged⟩ | ⟨rfl, replaced⟩
      · cases onward
        refine ⟨[⟨job, delivering, ended, telling, .error error⟩], ?_, ?_⟩
        · simp [JobTurn.calls, JobTurn.outcome]
        · rw [unchanged]
          exact .stopped rest (taken _) rfl
      · have currentRest : ∀ other ∈ rest, other ∈ updated.jobs.jobs := by
          intro other otherMember
          have otherId : other.id ≠ job.id := by
            intro sameId
            exact (List.nodup_cons.mp once).1 (sameId ▸ List.mem_map_of_mem otherMember)
          rw [replaced, id_attempted]
          exact List.mem_map.mpr
            ⟨other, current other (List.mem_cons_of_mem _ otherMember), if_neg otherId⟩
        obtain ⟨turns, rfl, batch⟩ := ih onward currentRest (List.nodup_cons.mp once).2
        rw [replaced] at batch
        refine ⟨⟨job, delivering, ended, telling, .ok ()⟩ :: turns, ?_, ?_⟩
        · simp [JobTurn.calls, JobTurn.outcome]
        · exact .cons (taken _) rfl (current job List.mem_cons_self) once batch

/-! ## Who is told makes no difference -/

variable {other : World} {one two : Observer}

theorem deliveries_alike {α : Type} {program : Program α} (uses : program.Uses Call.delivers)
    (same : world.SameQueue other) :
    ∃ value last final, program.run world = some (value, last) ∧
      program.run other = some (value, final) ∧ last.SameQueue final := by
  induction program generalizing world other with
  | done value => exact ⟨value, world, other, rfl, rfl, same⟩
  | call request next ih =>
      have fits : world.Fits request := by
        cases request <;> first | exact trivial | exact uses.1.elim
      obtain ⟨answer, middle, performed⟩ := fits.answered
      obtain ⟨reached, alike, stillSame⟩ := same.delivers uses.1 performed
      obtain ⟨value, last, final, run, otherRun, ended⟩ := ih answer (uses.2 answer) stillSame
      exact ⟨value, last, final, (Program.run_call performed).trans run,
        (Program.run_call alike).trans otherRun, ended⟩

theorem observer_run (apart : observer.Apart) (job : Job) (text : String) (world : World) :
    ∃ last, (observer now job text).run world = some ((), last) ∧ world.SameQueue last := by
  have uses := apart now job text
  have fits : ∀ request : Call, request.apart → world.Fits request := by
    intro request isApart
    cases request <;> first | exact trivial | exact isApart.elim
  obtain ⟨_, last, run⟩ := uses.answered fits
  exact ⟨last, run, uses.run_preserves World.SameQueue.refl World.SameQueue.trans
    World.perform_apart run⟩

theorem attemptTelling_alike (processor : Processor) (now : Timestamp)
    (delivers : ∀ job, (deliver job).Uses Call.delivers)
    (apart : one.Apart) (otherApart : two.Apart) (same : world.SameQueue other) (job : Job) :
    ∃ after last final,
      (processor.attemptTelling one deliver now job).run world = some (after, last) ∧
      (processor.attemptTelling two deliver now job).run other = some (after, final) ∧
      last.SameQueue final := by
  obtain ⟨result, last, final, run, otherRun, ended⟩ :=
    deliveries_alike (delivers job.beginAttempt) same
  refine ⟨processor.attempted now job result, ?_⟩
  simp only [attemptTelling_course, Program.run_bind, run, otherRun, Option.bind_some]
  cases result with
  | ok done => exact ⟨last, final, rfl, rfl, ended⟩
  | error error =>
      obtain ⟨told, toldRun, kept⟩ := observer_run apart
        (processor.attempted now job (.error error)) error.deliveryText last
      obtain ⟨otherTold, otherToldRun, otherKept⟩ := observer_run otherApart
        (processor.attempted now job (.error error)) error.deliveryText final
      refine ⟨told, otherTold, ?_, ?_, kept.symm.trans (ended.trans otherKept)⟩
      · rw [Program.run_bind, toldRun]
        rfl
      · rw [Program.run_bind, otherToldRun]
        rfl

/-- A batch ends with the same result and the same jobs, whoever is told of failures. -/
theorem attemptAllTelling_alike (processor : Processor) (now : Timestamp)
    (delivers : ∀ job, (deliver job).Uses Call.delivers)
    (apart : one.Apart) (otherApart : two.Apart) (same : world.SameQueue other)
    (jobs : List Job) :
    ∃ result last final,
      (processor.attemptAllTelling one deliver now jobs).outcome.run world =
        some (result, last) ∧
      (processor.attemptAllTelling two deliver now jobs).outcome.run other =
        some (result, final) ∧ last.SameQueue final := by
  induction jobs generalizing world other with
  | nil => exact ⟨.ok (), world, other, rfl, rfl, same⟩
  | cons job rest ih =>
      obtain ⟨after, middle, reached, run, otherRun, stillSame⟩ :=
        attemptTelling_alike processor now delivers apart otherApart same job
      have fits : middle.Fits (.updateJob after) := trivial
      obtain ⟨answer, updated, performed⟩ := fits.answered
      obtain ⟨otherUpdated, alike, updatedSame⟩ := stillSame.updateJob performed
      simp only [attemptAllTelling_outcome, Program.run_bind, run, otherRun, Option.bind_some]
      rw [Program.run_call performed, Program.run_call alike]
      cases answer with
      | error error => exact ⟨_, updated, otherUpdated, rfl, rfl, updatedSame⟩
      | ok done => exact ih updatedSame

end Processor

/-- A pass over any queue, with any outcomes of deliveries and any failures of the store.  It
takes the listed jobs in turn, each once: it is delivered with one more attempt counted; if
that failed, and only then, the observer is told, before the outcome is stored.  If storing
fails, the pass ends with an error of the store, the jobs of earlier turns are stored with
their outcomes and all others as they were; otherwise the pass ends with the number of
listed jobs.  Where the listing itself fails, nothing is attempted.  The result and the jobs
do not depend on the observer, of which the processor's own is one. -/
theorem pass_stores_outcomes_up_to_the_first_failure (processor : Processor)
    {deliver : Deliverer} (delivers : ∀ job, (deliver job).Uses Call.delivers)
    {observer : Observer} (apart : observer.Apart) (now : Timestamp) {world : World}
    (distinct : world.jobs.Distinct) :
    processor.pass deliver now = processor.passTelling processor.observe deliver now ∧
    Observer.Apart processor.observe ∧
    ∃ result calls last,
      (processor.passTelling observer deliver now).outcome.record world =
        some (result, calls, last) ∧
      ((∃ error reason, calls = [⟨.dueJobs now processor.batchSize, .error error⟩] ∧
          error.asStoreError = .store reason ∧ result = .error (.store reason) ∧
          last.jobs = world.jobs) ∨
        ∃ listed turns ended, listed = world.jobs.due now processor.batchSize ∧
          (listed.map Job.id).Nodup ∧
          calls = ⟨.dueJobs now processor.batchSize, .ok listed⟩ ::
            turns.flatMap (JobTurn.calls processor now) ∧
          Batch processor observer deliver now listed world.jobs turns ended last.jobs ∧
          result = ended.map fun _ => listed.length) ∧
      ∀ other : Observer, other.Apart → ∃ final,
        (processor.passTelling other deliver now).outcome.run world = some (result, final) ∧
          final.jobs = last.jobs := by
  refine ⟨processor.pass_eq_telling deliver now, processor.observe_apart, ?_⟩
  simp only [Processor.passTelling_outcome]
  have fits : world.Fits (.dueJobs now processor.batchSize) := trivial
  obtain ⟨answer, middle, performed⟩ := fits.answered
  have unchanged : middle.jobs = world.jobs := (World.perform_sameStores rfl performed).jobs
  cases answer with
  | error error =>
      obtain ⟨reason, same⟩ := error.asStoreError_eq
      refine ⟨.error error.asStoreError, [⟨.dueJobs now processor.batchSize, .error error⟩],
        middle, ?_, ?_, ?_⟩
      · exact Program.record_call_eq_some.mpr ⟨_, middle, [], performed, rfl, rfl⟩
      · exact Or.inl ⟨error, reason, rfl, same, congrArg _ same, unchanged⟩
      · intro other _
        exact ⟨middle, Program.run_call performed, rfl⟩
  | ok listed =>
      obtain rfl := World.perform_dueJobs performed
      have once := distinct.due now processor.batchSize
      have current : ∀ job ∈ world.jobs.due now processor.batchSize, job ∈ middle.jobs.jobs := by
        intro job member
        rw [unchanged]
        exact JobStore.mem_due member
      -- One run serves as the record; every other observer's run is compared with it.
      obtain ⟨ended, last, _, run, _⟩ := processor.attemptAllTelling_alike now delivers apart
        apart (.refl middle) (world.jobs.due now processor.batchSize)
      obtain ⟨calls, recorded⟩ := Program.record_of_run run
      obtain ⟨turns, rfl, batch⟩ :=
        Processor.attemptAllTelling_record delivers apart recorded current once
      rw [unchanged] at batch
      refine ⟨ended.map fun _ => (world.jobs.due now processor.batchSize).length, _, last,
        Program.record_call_eq_some.mpr ⟨_, middle, _, performed, ?_, rfl⟩,
        Or.inr ⟨_, turns, ended, rfl, once, rfl, batch, rfl⟩, ?_⟩
      · rw [← List.append_nil (turns.flatMap _)]
        apply Program.record_bind_eq recorded
        cases ended <;> rfl
      · intro other otherApart
        obtain ⟨result, same, final, sameRun, otherRun, alike⟩ :=
          processor.attemptAllTelling_alike now delivers apart otherApart (.refl middle)
            (world.jobs.due now processor.batchSize)
        cases run.symm.trans sameRun
        refine ⟨final, ?_, alike.jobs⟩
        refine (Program.run_call performed).trans ?_
        show (Program.bind _ _).run middle = _
        rw [Program.run_bind, otherRun]
        cases ended <;> rfl

namespace Sample

/-- Three jobs are due, the second delivery fails, and its outcome is not stored. -/
def crowdedWorld : World := {
  jobs := ⟨[.create (.ofNat 1) (.ofSeconds 1) "a" "one",
    .create (.ofNat 2) (.ofSeconds 2) "b" "two",
    .create (.ofNat 3) (.ofSeconds 3) "c" "three"]⟩
  courier := { outcomes := [("*", [none, some (.delivery "down"), none])] }
  refusals := fun site =>
    if site = .updateJob then [none, some (.queue (.jobNotFound "gone"))] else [] }

def alertingProcessor : Processor := { alerts := some { minAttempts := 1 } }

def nobody : Observer := fun _ _ _ => .done ()

theorem crowdedWorld_due :
    crowdedWorld.jobs.due (.ofSeconds 4) alertingProcessor.batchSize =
      crowdedWorld.jobs.jobs := by
  have sorted : crowdedWorld.jobs.jobs.Pairwise fun a b => JobStore.dueFirst a b = true := by
    decide +kernel
  have allDue : crowdedWorld.jobs.jobs.filter (fun job => job.isDue (.ofSeconds 4)) =
      crowdedWorld.jobs.jobs := by decide +kernel
  unfold JobStore.due
  rw [allDue, List.mergeSort_of_pairwise sorted]
  rfl

theorem unstored_outcome_ends_the_batch :
    crowdedWorld.jobs.Distinct ∧ ∃ calls last final,
      (alertingProcessor.pass .courier (.ofSeconds 4)).outcome.record crowdedWorld =
        some (.error (.store "Job not found: gone"), calls, last) ∧
      (deliveries calls).map (fun delivery => delivery.job.eventId) = ["a", "b"] ∧
      last.alerts.length = 1 ∧
      last.jobs.jobs.map Job.status = [.processed, .pending, .pending] ∧
      (alertingProcessor.passTelling nobody .courier (.ofSeconds 4)).outcome.run crowdedWorld =
        some (.error (.store "Job not found: gone"), final) ∧
      final.jobs = last.jobs := by
  have distinct : crowdedWorld.jobs.Distinct := by
    show List.Nodup _
    decide +kernel
  obtain ⟨same, _, result, calls, last, recorded, _, alike⟩ :=
    pass_stores_outcomes_up_to_the_first_failure alertingProcessor Deliverer.courier_delivers
      alertingProcessor.observe_apart (.ofSeconds 4) distinct
  obtain ⟨final, run, jobs⟩ := alike nobody fun _ _ _ => trivial
  rw [← same] at recorded
  obtain ⟨⟨ended, made, reached⟩, found, failed, delivered, alerts, statuses⟩ :
      ∃ one ∈ (alertingProcessor.attemptAll .courier (.ofSeconds 4)
          crowdedWorld.jobs.jobs).outcome.record crowdedWorld,
        one.1 = .error (.store "Job not found: gone") ∧
        (deliveries one.2.1).map (fun delivery => delivery.job.eventId) = ["a", "b"] ∧
        one.2.2.alerts.length = 1 ∧
        one.2.2.jobs.jobs.map Job.status = [.processed, .pending, .pending] := by
    decide +kernel
  have whole : (alertingProcessor.pass .courier (.ofSeconds 4)).outcome.record crowdedWorld =
      some (ended.map fun _ => 3, ⟨.dueJobs (.ofSeconds 4) alertingProcessor.batchSize,
        .ok crowdedWorld.jobs.jobs⟩ :: (made ++ []), reached) := by
    rw [Processor.pass_outcome]
    refine Program.record_call_eq_some.mpr ⟨_, crowdedWorld, _, ?_, ?_, rfl⟩
    · rw [← crowdedWorld_due]
      rfl
    · apply Program.record_bind_eq (Option.mem_def.mp found)
      cases ended <;> rfl
  cases recorded.symm.trans whole
  cases failed
  refine ⟨distinct, _, last, final, recorded, ?_, alerts, statuses, run, jobs⟩
  rw [List.append_nil]
  exact delivered

end Sample

end WebhookRelay
