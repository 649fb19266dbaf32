import WebhookRelay.Proofs.Attempts

/-!
# The life of a job

One processor makes its passes, one after the other, while requests, captures and replays
of dead letters run at the same time.  A pass works on copies that it took when it began,
and it stores whole jobs.  No other activity stores a new state of a job, and a batch has
no job twice, so every copy is still what is stored when it is written back: an update is
never lost, whichever calls are refused.
-/

set_option autoImplicit false

namespace WebhookRelay

/-! ## Steps of the job store -/

/-- What one step makes of a stored job: nothing, or what one more attempt of the pass that
takes the step makes of it. -/
inductive Job.Advances (processor : Processor) (writer : Option Timestamp) (before : Job) :
    Job → Prop where
  | same : before.Advances processor writer before
  | attempted (now : Timestamp) (result : Except QueueError Unit) (own : writer = some now)
      (active : before.status.isActive = true)
      (counted : (processor.attempted now before result).attempts.toNat =
        before.attempts.toNat + 1) :
      before.Advances processor writer (processor.attempted now before result)

/-- What one step makes of all stored jobs: each of them advances or stays as it is, in its
place, and the jobs that are added are new. -/
def JobStore.Steps (processor : Processor) (writer : Option Timestamp)
    (before after : JobStore) : Prop :=
  ∃ kept added, after.jobs = kept ++ added ∧
    List.Forall₂ (Job.Advances processor writer) before.jobs kept ∧
    ∀ job ∈ added, ∃ id now eventId payload, job = .create id now eventId payload

namespace JobStore

variable {processor : Processor} {writer : Option Timestamp} {store after : JobStore}

theorem forall₂_same (jobs : List Job) :
    List.Forall₂ (Job.Advances processor writer) jobs jobs :=
  List.forall₂_same.mpr fun _ _ => .same

theorem Steps.of_eq (same : after = store) : store.Steps processor writer after :=
  ⟨store.jobs, [], by simp [same], forall₂_same _, by simp⟩

theorem identity_of_advances {before after : Job}
    (advances : before.Advances processor writer after) : after.identity = before.identity := by
  cases advances with
  | same => rfl
  | attempted now result => simp

theorem identities_of_advanced {before after : List Job}
    (advanced : List.Forall₂ (Job.Advances processor writer) before after) :
    after.map Job.identity = before.map Job.identity := by
  induction advanced with
  | nil => rfl
  | cons advances _ ih => rw [List.map_cons, List.map_cons, ih, identity_of_advances advances]

theorem mem_of_advanced {before after : List Job}
    (advanced : List.Forall₂ (Job.Advances processor writer) before after) {job : Job}
    (member : job ∈ before) (ended : job.isTerminal = true) : job ∈ after := by
  induction advanced with
  | nil => cases member
  | @cons old new _ _ advances _ ih =>
      rcases List.mem_cons.mp member with rfl | later
      · cases advances with
        | same => exact List.mem_cons_self
        | attempted now result own active counted =>
            rw [Job.isTerminal, active] at ended
            cases ended
      · exact List.mem_cons_of_mem _ (ih later)

theorem Steps.identities (steps : store.Steps processor writer after) :
    store.identities <+: after.identities := by
  obtain ⟨kept, added, same, advanced, _⟩ := steps
  refine ⟨added.map Job.identity, ?_⟩
  rw [JobStore.identities, JobStore.identities, same, List.map_append,
    identities_of_advanced advanced]

theorem Steps.terminal (steps : store.Steps processor writer after) {job : Job}
    (member : job ∈ store.jobs) (ended : job.isTerminal = true) : job ∈ after.jobs := by
  obtain ⟨kept, added, same, advanced, _⟩ := steps
  rw [same]
  exact List.mem_append_left _ (mem_of_advanced advanced member ended)

theorem forall₂_replace (distinct : store.Distinct) {job stored : Job}
    (member : stored ∈ store.jobs) (sameId : job.id = stored.id)
    (advances : stored.Advances processor writer job) :
    List.Forall₂ (Job.Advances processor writer) store.jobs
      (store.jobs.map fun other => if other.id = job.id then job else other) := by
  rw [List.forall₂_map_right_iff, List.forall₂_same]
  intro other otherMember
  by_cases own : other.id = job.id
  · have equal : other = stored :=
      List.inj_on_of_nodup_map distinct otherMember member (own.trans sameId)
    rw [if_pos own, equal]
    exact advances
  · rw [if_neg own]
    exact .same

structure Tidy (limit : UInt32) (store : JobStore) : Prop where
  distinct : store.Distinct
  kept : ∀ job ∈ store.jobs, job.WellKept limit

def Allows (processor : Processor) (now : Timestamp) (store : JobStore) : Call → Prop
  | .updateJob job => ∃ stored ∈ store.jobs, stored.status.isActive = true ∧
      ∃ result, job = processor.attempted now stored result
  | .deliver job => ∃ stored ∈ store.jobs, stored.status.isActive = true ∧
      job = stored.beginAttempt
  | .createJob _ => False
  | _ => True

variable {limit : UInt32} {world last : World}

theorem Tidy.passed (allowed : 1 ≤ processor.backoff.maxAttempts)
    (tidy : world.jobs.Tidy processor.backoff.maxAttempts) {now : Timestamp} {request : Call}
    (allows : world.jobs.Allows processor now request) {answer : request.Answer}
    (performed : world.perform request = some (answer, last)) :
    last.jobs.Tidy processor.backoff.maxAttempts ∧
      world.jobs.Steps processor (some now) last.jobs := by
  obtain same | ⟨job, rfl, _, _⟩ | ⟨job, rfl, replaced⟩ := World.perform_jobs performed
  · rw [same]
    exact ⟨tidy, .of_eq rfl⟩
  · exact allows.elim
  · obtain ⟨stored, member, active, result, rfl⟩ := allows
    have below := (tidy.kept stored member).lt_limit allowed active
    have counted : (processor.attempted now stored result).attempts.toNat =
        stored.attempts.toNat + 1 := by
      rw [Processor.attempts_attempted, Job.toNat_beginAttempt below]
    have advanced := forall₂_replace tidy.distinct member (processor.id_attempted now stored result)
      (.attempted now result rfl active counted)
    rw [replaced]
    refine ⟨⟨?_, ?_⟩, ⟨_, [], (List.append_nil _).symm, advanced, by simp⟩⟩
    · refine tidy.distinct.of_identities ?_
      refine identities_replace tidy.distinct ?_
      rw [Processor.identity_attempted]
      exact List.mem_map_of_mem member
    · intro job jobMember
      obtain ⟨other, otherMember, rfl⟩ := List.mem_map.mp jobMember
      split
      · exact (tidy.kept stored member).attempted allowed active now result
      · exact tidy.kept other otherMember

/-- An activity that leaves stored jobs alone can only add new ones. -/
theorem Tidy.gentle (tidy : world.jobs.Tidy limit) {request : Call} (gentle : request.Gentle)
    {answer : request.Answer} (performed : world.perform request = some (answer, last)) :
    last.jobs.Tidy limit ∧ world.jobs.jobs <+: last.jobs.jobs ∧
      world.jobs.Steps processor writer last.jobs := by
  obtain same | ⟨job, rfl, absent, added⟩ | ⟨job, rfl, _⟩ := World.perform_jobs performed
  · rw [same]
    exact ⟨tidy, List.prefix_rfl, .of_eq rfl⟩
  · obtain ⟨id, now, eventId, payload, rfl⟩ := gentle
    rw [added]
    refine ⟨⟨tidy.distinct.append absent, ?_⟩, List.prefix_append _ _,
      ⟨_, _, rfl, forall₂_same _, ?_⟩⟩
    · intro job member
      rcases List.mem_append.mp member with old | new
      · exact tidy.kept job old
      · obtain rfl := List.mem_singleton.mp new
        exact Job.wellKept_create ..
    · intro job member
      obtain rfl := List.mem_singleton.mp member
      exact ⟨id, now, eventId, payload, rfl⟩
  · exact gentle.elim

end JobStore

/-! ## Passes among other activities -/

section Passing

variable {processor : Processor} {now : Timestamp}
  {allowed : 1 ≤ processor.backoff.maxAttempts} {who : Nat} {ledger : Ledger}

/-- The contract of a pass while all others can only add jobs. -/
def Contract.passing (processor : Processor) (now : Timestamp)
    (allowed : 1 ≤ processor.backoff.maxAttempts) : Contract where
  sound ledger := ledger.world.jobs.Tidy processor.backoff.maxAttempts
  allows _ ledger request := ledger.world.jobs.Allows processor now request
  later _ _ := True
  between before after := before.world.jobs.jobs <+: after.world.jobs.jobs
  later_refl _ := trivial
  later_trans _ _ := trivial
  between_refl _ := List.prefix_rfl
  between_trans := List.IsPrefix.trans
  later_of_between _ := trivial
  keeps tidy allows performed := ⟨(tidy.passed allowed allows performed).1, trivial⟩

theorem Program.Uses.upholds_passing {α : Type} {program : Program α}
    (uses : program.Uses fun request => request.aside = true ∧ request.Gentle) :
    program.Upholds (.passing processor now allowed) who
      (fun _ current => ledger.world.jobs.jobs <+: current.world.jobs.jobs) ledger := by
  induction program generalizing ledger with
  | done value => exact fun _ between _ => between
  | call request next ih =>
      obtain ⟨⟨aside, gentle⟩, rest⟩ := uses
      intro current between sound
      refine ⟨?_, fun answer world performed => ?_⟩
      · show current.world.jobs.Allows processor now request
        cases request with
        | deliver job => exact gentle.elim
        | createJob job => cases aside
        | updateJob job => cases aside
        | _ => exact trivial
      · have same := World.perform_sameStores (Call.writes_of_aside aside) performed
        refine (ih answer (rest answer)).weaken fun value last _ reached => ?_
        refine between.trans ?_
        rw [← same.jobs]
        exact reached

namespace Processor

theorem attempt_passing {job : Job} {rest : List Job}
    (stored : Current (job :: rest) ledger.world.jobs) :
    (processor.attempt .courier now job).Upholds (.passing processor now allowed) who
      (fun after current => (∃ result, after = processor.attempted now job result) ∧
        Current (job :: rest) current.world.jobs) ledger := by
  rw [attempt_courier]
  refine .call fun current between sound => ⟨?_, fun result world performed _ reached => ?_⟩
  · obtain ⟨member, active⟩ := (stored.mono between) job List.mem_cons_self
    exact ⟨job, member, active, rfl⟩
  · have same : world.jobs = current.world.jobs := (World.perform_sameStores rfl performed).jobs
    have still : Current (job :: rest) world.jobs := by
      rw [same]
      exact stored.mono between
    cases result with
    | ok done => exact fun last after _ => ⟨⟨_, rfl⟩, still.mono after⟩
    | error error =>
        refine .bind reached (observe_gentle ..).upholds_passing fun _ last _ _ kept => ?_
        exact fun final after _ => ⟨⟨_, rfl⟩, still.mono (kept.trans after)⟩

/-- A pass stores what it has made of its copies while they are still what is stored. -/
theorem attemptAll_passing {jobs : List Job} (sound : ledger.world.jobs.Tidy processor.backoff.maxAttempts)
    (stored : Current jobs ledger.world.jobs) (distinct : (jobs.map Job.id).Nodup) :
    (processor.attemptAll .courier now jobs).outcome.Upholds (.passing processor now allowed) who
      (fun _ _ => True) ledger := by
  induction jobs generalizing ledger with
  | nil => exact fun _ _ _ => trivial
  | cons job rest ih =>
      rw [attemptAll_outcome]
      refine .bind sound (attempt_passing stored) fun after current _ _ ⟨made, still⟩ => ?_
      obtain ⟨result, rfl⟩ := made
      refine .call fun last between _ => ⟨?_, fun answer world performed _ reached => ?_⟩
      · obtain ⟨member, active⟩ := (still.mono between) job List.mem_cons_self
        exact ⟨job, member, active, result, rfl⟩
      · cases answer with
        | error error => exact fun _ _ _ => trivial
        | ok done =>
            obtain ⟨_, _, ⟨_, impossible, _⟩ | ⟨_, replaced⟩⟩ :=
              World.perform_updateJob performed
            · cases impossible
            · have others : Current rest world.jobs := by
                rw [replaced]
                exact (still.mono between).replace distinct (id_attempted ..)
              exact ih reached others (List.nodup_cons.mp distinct).2

theorem pass_passing (processor : Processor) (now : Timestamp)
    (allowed : 1 ≤ processor.backoff.maxAttempts) :
    (processor.pass .courier now).outcome.Upholds (.passing processor now allowed) who
      (fun _ _ => True) ledger := by
  rw [pass_outcome]
  refine .call fun current _ sound => ⟨trivial, fun answer world performed _ reached => ?_⟩
  cases answer with
  | error error => exact fun _ _ _ => trivial
  | ok jobs =>
      have same : world.jobs = current.world.jobs :=
        (World.perform_sameStores rfl performed).jobs
      obtain rfl : jobs = world.jobs.due now processor.batchSize := by
        rw [same]
        exact World.perform_dueJobs performed
      have batch := current_due world.jobs now processor.batchSize
      refine .bind reached (attemptAll_passing reached batch (reached.distinct.due ..))
        fun attempted _ _ _ _ => ?_
      cases attempted <;> exact fun _ _ _ => trivial

end Processor

end Passing

/-! ## Schedules of one processor -/

def Activity.passes : Activity → Bool
  | ⟨.pass _, .call _ _⟩ => true
  | _ => false

namespace Scene

/-- The processor begins a pass when its last one has ended. -/
def admits (scene : Scene) : Move → Bool
  | .start (.pass _) => scene.activities.all fun activity => !activity.passes
  | _ => true

/-- Plays a schedule of one processor and any number of other activities. -/
def conduct (pipeline : Pipeline) (scene : Scene) : List Move → Option Scene
  | [] => some scene
  | next :: rest =>
      if scene.admits next then do
        let scene ← scene.move pipeline next
        scene.conduct pipeline rest
      else none

/-- The time of the pass whose next call a move makes, if it makes the call of a pass. -/
def writer (scene : Scene) : Move → Option Timestamp
  | .proceed who =>
      match scene.activities[who]? with
      | some ⟨.pass now, _⟩ => some now
      | _ => none
  | _ => none

variable {receiver : Receiver} {processor : Processor}
  {allowed : 1 ≤ processor.backoff.maxAttempts} {scene after : Scene}

/-- The jobs are well kept, and all that is under way will keep them so. -/
structure Tended (processor : Processor) (allowed : 1 ≤ processor.backoff.maxAttempts)
    (scene : Scene) : Prop where
  tidy : scene.world.jobs.Tidy processor.backoff.maxAttempts
  gentle : ∀ {who : Nat} {task : Task} {rest : Program Outcome},
    scene.activities[who]? = some ⟨task, rest⟩ → (∀ now, task ≠ .pass now) →
      rest.Uses Call.Gentle
  passing : ∀ {who : Nat} {now : Timestamp} {rest : Program Outcome},
    scene.activities[who]? = some ⟨.pass now, rest⟩ →
      rest.Upholds (.passing processor now allowed) who (fun _ _ => True) scene.toLedger
  alone : ∀ {one other : Nat} {first second : Activity},
    scene.activities[one]? = some first → scene.activities[other]? = some second →
      first.passes = true → second.passes = true → one = other

theorem tended_opening {world : World} (empty : world.jobs.jobs = []) :
    Tended processor allowed (opening world) where
  tidy := ⟨by simp [JobStore.Distinct, opening, empty], by simp [opening, empty]⟩
  gentle found := by simp [opening] at found
  passing found := by simp [opening] at found
  alone found := by simp [opening] at found

theorem Tended.start (tended : scene.Tended processor allowed) {task : Task}
    (admitted : scene.admits (.start task) = true) :
    Tended processor allowed {
      world := scene.world
      history := scene.history ++ [.begun scene.activities.length task]
      activities := scene.activities ++
        [⟨task, Pipeline.program { receiver, processor } task⟩] } := by
  -- A pass is admitted only where all others have ended.
  have resting {who : Nat} {activity : Activity}
      (running : scene.activities[who]? = some activity) (passes : activity.passes = true)
      {now : Timestamp} (same : task = .pass now) : False := by
    subst same
    have rests := List.all_eq_true.mp admitted activity (List.mem_of_getElem? running)
    rw [passes] at rests
    cases rests
  have isPass (passes : Activity.passes ⟨task, Pipeline.program { receiver, processor } task⟩ =
      true) : ∃ now, task = .pass now := by
    cases task with
    | pass now => exact ⟨now, rfl⟩
    | _ => cases passes
  refine ⟨tended.tidy, fun running other => ?_, fun running => ?_,
    fun one other passes otherPasses => ?_⟩
  · obtain old | ⟨_, same⟩ := getElem?_added running
    · exact tended.gentle old other
    · cases same
      exact Pipeline.program_gentle _ other
  · obtain old | ⟨_, same⟩ := getElem?_added running
    · exact (tended.passing old).mono List.prefix_rfl
    · cases same
      exact .bind tended.tidy (Processor.pass_passing processor _ allowed)
        fun _ _ _ _ _ => fun _ _ _ => trivial
  · obtain old | ⟨own, rfl⟩ := getElem?_added one
    · obtain otherOld | ⟨_, rfl⟩ := getElem?_added other
      · exact tended.alone old otherOld passes otherPasses
      · obtain ⟨now, same⟩ := isPass otherPasses
        exact (resting old passes same).elim
    · obtain otherOld | ⟨otherOwn, _⟩ := getElem?_added other
      · obtain ⟨now, same⟩ := isPass passes
        exact (resting otherOld otherPasses same).elim
      · exact own.trans otherOwn.symm

theorem Tended.proceed (tended : scene.Tended processor allowed) {who : Nat} {task : Task}
    {request : Call} {rest : request.Answer → Program Outcome} {answer : request.Answer}
    {world : World} (running : scene.activities[who]? = some ⟨task, .call request rest⟩)
    (performed : scene.world.perform request = some (answer, world)) :
    Tended processor allowed {
        toLedger := scene.toLedger.answered who request answer world
        activities := scene.activities.set who ⟨task, rest answer⟩ } ∧
      scene.world.jobs.Steps processor (scene.writer (.proceed who)) world.jobs := by
  have alone {one other : Nat} {first second : Activity}
      (one' : (scene.activities.set who ⟨task, rest answer⟩)[one]? = some first)
      (other' : (scene.activities.set who ⟨task, rest answer⟩)[other]? = some second)
      (passes : first.passes = true) (otherPasses : second.passes = true) : one = other := by
    have before {place : Nat} {activity : Activity}
        (running' : (scene.activities.set who ⟨task, rest answer⟩)[place]? = some activity)
        (passes : activity.passes = true) :
        ∃ old, scene.activities[place]? = some old ∧ old.passes = true := by
      obtain ⟨_, old⟩ | ⟨rfl, rfl⟩ := getElem?_replaced running'
      · exact ⟨_, old, passes⟩
      · refine ⟨_, running, ?_⟩
        cases task with
        | pass now => rfl
        | _ => cases passes
    obtain ⟨_, old, oldPasses⟩ := before one' passes
    obtain ⟨_, otherOld, otherOldPasses⟩ := before other' otherPasses
    exact tended.alone old otherOld oldPasses otherOldPasses
  by_cases isPass : ∃ now, task = .pass now
  · obtain ⟨now, rfl⟩ := isPass
    obtain ⟨allows, goesOn⟩ :=
      tended.passing running scene.toLedger List.prefix_rfl tended.tidy
    obtain ⟨tidy, steps⟩ := tended.tidy.passed allowed allows performed
    have isWriter : scene.writer (.proceed who) = some now := by
      rw [writer, running]
    refine ⟨⟨tidy, fun running' other => ?_, fun {place _ _} running' => ?_, alone⟩, ?_⟩
    · obtain ⟨_, old⟩ | ⟨_, same⟩ := getElem?_replaced running'
      · exact tended.gentle old other
      · cases same
        exact absurd rfl (other now)
    -- Every other pass has ended, so it has nothing left to uphold.
    · obtain ⟨distinct, old⟩ | ⟨rfl, same⟩ := getElem?_replaced running'
      · rename_i rest'
        cases rest' with
        | done value => exact fun _ _ _ => trivial
        | call request' next' => exact absurd (tended.alone old running rfl rfl) distinct
      · cases same
        exact goesOn answer world performed
    · rw [isWriter]
      exact steps
  · have other (now : Timestamp) : task ≠ .pass now := fun same => isPass ⟨now, same⟩
    have gentle := tended.gentle running other
    obtain ⟨tidy, kept, steps⟩ := tended.tidy.gentle gentle.1 performed
    refine ⟨⟨tidy, fun running' otherTask => ?_, fun running' => ?_, alone⟩, steps⟩
    · obtain ⟨_, old⟩ | ⟨_, same⟩ := getElem?_replaced running'
      · exact tended.gentle old otherTask
      · cases same
        exact gentle.2 answer
    · obtain ⟨_, old⟩ | ⟨_, same⟩ := getElem?_replaced running'
      · exact (tended.passing old).mono kept
      · cases same
        exact absurd rfl (other _)

/-- One move keeps the jobs, and each job takes one step at most. -/
theorem Tended.move (tended : scene.Tended processor allowed) {next : Move}
    (admitted : scene.admits next = true)
    (moved : scene.move { receiver, processor } next = some after) :
    after.Tended processor allowed ∧
      scene.world.jobs.Steps processor (scene.writer next) after.world.jobs := by
  obtain ⟨task, rfl, rfl⟩ | ⟨who, task, request, rest, answer, world, rfl, running, performed,
    rfl⟩ | ⟨circumstance, rfl, rfl⟩ := move_cases moved
  · exact ⟨tended.start admitted, .of_eq rfl⟩
  · exact tended.proceed running performed
  · have same := (scene.world.under_sameStores circumstance).jobs
    refine ⟨⟨?_, tended.gentle, fun running => ?_, tended.alone⟩, .of_eq same⟩
    · show (scene.world.under circumstance).jobs.Tidy _
      rw [same]
      exact tended.tidy
    · have kept : scene.world.jobs.jobs <+: (scene.world.under circumstance).jobs.jobs :=
        same ▸ List.prefix_rfl
      exact (tended.passing running).mono kept

theorem Tended.conduct {moves : List Move} (tended : scene.Tended processor allowed)
    (conducted : scene.conduct { receiver, processor } moves = some after) :
    after.Tended processor allowed ∧
      scene.world.jobs.identities <+: after.world.jobs.identities ∧
      ∀ job ∈ scene.world.jobs.jobs, job.isTerminal = true → job ∈ after.world.jobs.jobs := by
  induction moves generalizing scene with
  | nil =>
      cases conducted
      exact ⟨tended, List.prefix_rfl, fun _ member _ => member⟩
  | cons next rest ih =>
      simp only [Scene.conduct] at conducted
      split at conducted
      · rename_i admitted
        obtain ⟨middle, moved, conducted⟩ := Option.bind_eq_some_iff.mp conducted
        obtain ⟨middleTended, steps⟩ := tended.move admitted moved
        obtain ⟨lastTended, identities, terminal⟩ := ih middleTended conducted
        refine ⟨lastTended, steps.identities.trans identities, fun job member ended => ?_⟩
        exact terminal job (steps.terminal member ended) ended
      · cases conducted

end Scene

/-- What one processor does with jobs that requests and replays create at any time, whatever
is refused and however deliveries end.  The status of every job tells how often it was
attempted.  A step leaves a job as it is, or it is the step of a pass that counts one more
attempt of an active job; jobs are added but never taken away, and never given another id,
event, payload or age.  What is handed over for delivery is an active job as it is stored,
and a job that has ended stays as it is for good. -/
theorem jobs_keep_to_their_lifecycle (receiver : Receiver) (processor : Processor)
    (allowed : 1 ≤ processor.backoff.maxAttempts) {world : World}
    (empty : world.jobs.jobs = []) {moves : List Move} {scene : Scene}
    (conducted : (Scene.opening world).conduct { receiver, processor } moves = some scene) :
    (∀ job ∈ scene.world.jobs.jobs, job.WellKept processor.backoff.maxAttempts) ∧
    scene.world.jobs.Distinct ∧
    (∀ next after, scene.conduct { receiver, processor } [next] = some after →
      scene.world.jobs.Steps processor (scene.writer next) after.world.jobs) ∧
    (∀ (who : Nat) (task : Task) (job : Job) rest,
      scene.activities[who]? = some (Activity.mk task (.call (.deliver job) rest)) →
      ∃ stored ∈ scene.world.jobs.jobs,
        stored.status.isActive = true ∧ job = stored.beginAttempt) ∧
    (∀ more last, scene.conduct { receiver, processor } more = some last →
      scene.world.jobs.identities <+: last.world.jobs.identities ∧
      ∀ job ∈ scene.world.jobs.jobs, job.isTerminal = true → job ∈ last.world.jobs.jobs) := by
  have opening : (Scene.opening world).Tended processor allowed := Scene.tended_opening empty
  obtain ⟨tended, _⟩ := opening.conduct conducted
  refine ⟨tended.tidy.kept, tended.tidy.distinct, ?_, ?_, ?_⟩
  · intro next after moved
    simp only [Scene.conduct] at moved
    split at moved
    · rename_i admitted
      obtain ⟨middle, moved, same⟩ := Option.bind_eq_some_iff.mp moved
      cases same
      exact (tended.move admitted moved).2
    · cases moved
  · intro who task job rest running
    by_cases isPass : ∃ now, task = Task.pass now
    · obtain ⟨now, rfl⟩ := isPass
      exact (tended.passing running scene.toLedger List.prefix_rfl tended.tidy).1
    · exact (tended.gentle running fun now same => isPass ⟨now, same⟩).1.elim
  · intro more last conductedMore
    exact (tended.conduct conductedMore).2

namespace Sample

def downWorld : World where
  courier := { outcomes := [("*", [some (.delivery "down")])] }

/-- A request is received, and while a pass attempts its job the request comes again. -/
def attempting : List Move :=
  .start (.receive request) :: List.replicate 6 (.proceed 0) ++
    [.start (.pass ⟨0, 0⟩), .proceed 1, .start (.receive request), .proceed 2, .proceed 1,
      .proceed 1]

set_option maxRecDepth 100000 in
theorem failed_attempt_keeps_the_lifecycle :
    ∃ scene, (Scene.opening downWorld).conduct pipeline attempting = some scene ∧
      ∃ job ∈ scene.world.jobs.jobs, job.status = .retrying ∧
        1 ≤ job.attempts ∧ job.attempts < 5 := by
  obtain ⟨scene, conducted, job, member, retrying⟩ :
      ∃ scene ∈ (Scene.opening downWorld).conduct pipeline attempting,
        ∃ job ∈ scene.world.jobs.jobs, job.status = .retrying := by decide +kernel
  obtain ⟨wellKept, _⟩ := jobs_keep_to_their_lifecycle { verifier := { skip := true } } {}
    (by decide) rfl conducted
  have counted := wellKept job member
  rw [Job.WellKept, retrying] at counted
  exact ⟨scene, conducted, job, member, retrying, counted⟩

end Sample

end WebhookRelay
