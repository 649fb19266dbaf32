import Mathlib.Data.List.Induction
import WebhookRelay.Proofs.Batches
import WebhookRelay.Proofs.Retries

/-!
# Draining the queue

Passes come one after the other, while other writers add jobs that are due later.  A store
lists the jobs that are due sorted by the time of their next attempt and by age, and says
nothing about the order of jobs that agree in both.  A job that was attempted is put off, so
the jobs that were due at first stay ahead of all others until each of them had its attempt.
-/

set_option autoImplicit false

namespace WebhookRelay

/-! ## Listings -/

namespace JobStore

/-- Order by the time of the next attempt and by age; between jobs that agree in both,
sorting leaves the order as it was. -/
def dueBefore (a b : Job) : Bool :=
  a.nextRetryAt.before b.nextRetryAt ||
    (a.nextRetryAt = b.nextRetryAt && a.createdAt.atMost b.createdAt)

/-- The jobs may be listed as due, the store yielding its jobs in some order. -/
def Lists (store : JobStore) (now : Timestamp) (limit : Nat) (listed : List Job) : Prop :=
  ∃ order : List Job, order.Perm store.jobs ∧
    listed = ((order.filter fun job => job.isDue now).mergeSort dueBefore).take limit

theorem dueBefore_iff {a b : Job} : dueBefore a b = true ↔
    a.nextRetryAt.before b.nextRetryAt = true ∨
      a.nextRetryAt = b.nextRetryAt ∧ a.createdAt.atMost b.createdAt = true := by
  simp [dueBefore]

theorem dueBefore_trans (a b c : Job) (first : dueBefore a b = true)
    (second : dueBefore b c = true) : dueBefore a c = true := by
  rw [dueBefore_iff] at *
  simp only [Timestamp.before_iff, Timestamp.atMost_iff, Timestamp.eq_iff] at *
  omega

theorem dueBefore_total (a b : Job) : (dueBefore a b || dueBefore b a) = true := by
  rw [Bool.or_eq_true, dueBefore_iff, dueBefore_iff]
  simp only [Timestamp.before_iff, Timestamp.atMost_iff, Timestamp.eq_iff]
  omega

theorem dueFirst_iff {a b : Job} : dueFirst a b = true ↔
    a.nextRetryAt.before b.nextRetryAt = true ∨ a.nextRetryAt = b.nextRetryAt ∧
      (a.createdAt.before b.createdAt = true ∨
        a.createdAt = b.createdAt ∧ a.id.value.val ≤ b.id.value.val) := by
  simp only [dueFirst, olderOrSame, Uuid.before, Bool.or_eq_true, Bool.and_eq_true,
    Bool.not_eq_true', decide_eq_true_eq, decide_eq_false_iff_not, Fin.lt_def, Nat.not_lt]

theorem dueBefore_of_dueFirst {a b : Job} (sorted : dueFirst a b = true) :
    dueBefore a b = true := by
  rw [dueFirst_iff] at sorted
  rw [dueBefore_iff]
  simp only [Timestamp.before_iff, Timestamp.atMost_iff, Timestamp.eq_iff] at *
  omega

theorem pairwise_dueFirst (jobs : List Job) :
    (jobs.mergeSort dueFirst).Pairwise fun a b => dueFirst a b = true := by
  apply List.pairwise_mergeSort
  · intro a b c first second
    rw [dueFirst_iff] at *
    simp only [Timestamp.before_iff, Timestamp.eq_iff] at *
    omega
  · intro a b
    rw [Bool.or_eq_true, dueFirst_iff, dueFirst_iff]
    simp only [Timestamp.before_iff, Timestamp.eq_iff]
    omega

theorem lists_due (store : JobStore) (now : Timestamp) (limit : Nat) :
    store.Lists now limit (store.due now limit) := by
  have sorted := pairwise_dueFirst (store.jobs.filter fun job => job.isDue now)
  have perm := List.mergeSort_perm (store.jobs.filter fun job => job.isDue now) dueFirst
  refine ⟨(store.jobs.filter fun job => job.isDue now).mergeSort dueFirst ++
    store.jobs.filter fun job => !job.isDue now, ?_, ?_⟩
  · exact (perm.append_right _).trans (List.filter_append_perm _ _)
  · have allDue : ((store.jobs.filter fun job => job.isDue now).mergeSort dueFirst).filter
        (fun job => job.isDue now) = (store.jobs.filter fun job => job.isDue now).mergeSort
          dueFirst := by
      apply List.filter_eq_self.mpr
      intro job member
      exact (List.mem_filter.mp (List.mem_mergeSort.mp member)).2
    have noneDue : (store.jobs.filter fun job => !job.isDue now).filter
        (fun job => job.isDue now) = [] := by
      simp [List.filter_filter]
    rw [List.filter_append, allDue, noneDue, List.append_nil,
      List.mergeSort_of_pairwise (sorted.imp dueBefore_of_dueFirst)]
    rfl

end JobStore

/-! ## Jobs that wait -/

def stillWaiting (waiting : List Job) (done : List Uuid) : List Job :=
  waiting.filter fun job => job.id ∉ done

/-- Of the jobs that are due at a time, the store has those that still wait, as they were. -/
def JobStore.Owes (store : JobStore) (time : Timestamp) (waiting : List Job)
    (done : List Uuid) : Prop :=
  (store.jobs.filter fun job => job.isDue time).Perm (stillWaiting waiting done)

/-- No waiting job comes a second time before each of them came once. -/
def InTurn (waiting : List Job) (ids : List Uuid) : Prop :=
  ∀ earlier id later, ids = earlier ++ id :: later → id ∈ waiting.map Job.id →
    id ∈ earlier → ∀ job ∈ waiting, job.id ∈ earlier

section Waiting

variable {waiting : List Job} {done : List Uuid} {time now : Timestamp} {store : JobStore}

theorem mem_stillWaiting {job : Job} :
    job ∈ stillWaiting waiting done ↔ job ∈ waiting ∧ job.id ∉ done := by
  simp [stillWaiting]

theorem stillWaiting_append (more : List Uuid) : stillWaiting waiting (done ++ more) =
    (stillWaiting waiting done).filter fun job => job.id ∉ more := by
  simp only [stillWaiting, List.filter_filter, List.mem_append, not_or]
  congr 1
  funext job
  by_cases isDone : job.id ∈ done <;> simp [isDone]

theorem InTurn.nil : InTurn waiting [] := by
  intro earlier id later same
  simp at same

theorem InTurn.snoc {id : Uuid} (inTurn : InTurn waiting done)
    (allowed : id ∈ waiting.map Job.id → id ∈ done → ∀ job ∈ waiting, job.id ∈ done) :
    InTurn waiting (done ++ [id]) := by
  intro earlier other later same
  rcases List.eq_nil_or_concat later with rfl | ⟨front, last, rfl⟩
  · obtain ⟨rfl, single⟩ := List.append_inj' same rfl
    cases single
    exact allowed
  · rw [List.concat_eq_append, ← List.cons_append, ← List.append_assoc] at same
    obtain ⟨same, _⟩ := List.append_inj' same rfl
    exact inTurn earlier other front same

theorem InTurn.append (inTurn : InTurn waiting done) {listed : List Job}
    (allowed : ∀ before job after, listed = before ++ job :: after →
      job.id ∈ waiting.map Job.id → job.id ∈ done ++ before.map Job.id →
      ∀ other ∈ waiting, other.id ∈ done ++ before.map Job.id) :
    InTurn waiting (done ++ listed.map Job.id) := by
  induction listed using List.reverseRecOn with
  | nil => simpa using inTurn
  | append_singleton front last ih =>
      rw [List.map_append, ← List.append_assoc]
      apply InTurn.snoc
      · apply ih
        intro before job after same
        apply allowed before job (after ++ [last])
        rw [same, List.append_assoc, List.cons_append]
      · exact allowed front last [] rfl

theorem Job.isDue_mono {job : Job} (since : time.atMost now = true)
    (due : job.isDue time = true) : job.isDue now = true := by
  simp only [isDue, Bool.and_eq_true] at *
  exact ⟨due.1, Timestamp.atMost_trans due.2 since⟩

theorem JobStore.isDue_of_dueBefore {a b : Job} (sorted : dueBefore a b = true)
    (active : a.isDue now = true) (due : b.isDue time = true) : a.isDue time = true := by
  simp only [Job.isDue, Bool.and_eq_true] at *
  refine ⟨active.1, ?_⟩
  rw [dueBefore_iff] at sorted
  simp only [Timestamp.before_iff, Timestamp.atMost_iff, Timestamp.eq_iff] at *
  omega

/-- What a listing holds, seen from an earlier time: it is the front of all that is due, in
which the jobs that were due then stand ahead of the others. -/
theorem JobStore.Lists.front {limit : Nat} {listed : List Job}
    (lists : store.Lists now limit listed) (since : time.atMost now = true) :
    ∃ rest, (listed.length = limit ∨ rest = []) ∧
      ((listed ++ rest).filter fun job : Job => job.isDue time).Perm
        (store.jobs.filter fun job => job.isDue time) ∧
      (listed ++ rest).Pairwise fun a b : Job => b.isDue time = true → a.isDue time = true := by
  obtain ⟨order, perm, rfl⟩ := lists
  have sortedPerm := List.mergeSort_perm (order.filter fun job => job.isDue now) dueBefore
  have sorted := List.pairwise_mergeSort dueBefore_trans dueBefore_total
    (order.filter fun job => job.isDue now)
  have allDue : ∀ job ∈ (order.filter fun job => job.isDue now).mergeSort dueBefore,
      job.isDue now = true := by
    intro job member
    exact (List.mem_filter.mp (List.mem_mergeSort.mp member)).2
  generalize (order.filter fun job => job.isDue now).mergeSort dueBefore = all at *
  refine ⟨all.drop limit, ?_, ?_, ?_⟩
  · rw [List.length_take, List.drop_eq_nil_iff]
    omega
  · rw [List.take_append_drop]
    have nested : (order.filter fun job => job.isDue now).filter (fun job => job.isDue time) =
        order.filter fun job => job.isDue time := by
      rw [List.filter_filter]
      apply List.filter_congr
      intro job _
      cases due : job.isDue time with
      | false => rfl
      | true => simp [Job.isDue_mono since due]
    have filtered := sortedPerm.filter fun job => job.isDue time
    rw [nested] at filtered
    exact filtered.trans (perm.filter _)
  · rw [List.take_append_drop]
    apply sorted.imp_of_mem
    intro a b member _ ordered
    exact isDue_of_dueBefore ordered (allDue a member)

theorem JobStore.Owes.not_again (owes : store.Owes time waiting done)
    (once : (waiting.map Job.id).Nodup) {before after : List Job} {job : Job}
    (perm : ((before ++ job :: after).filter fun job => job.isDue time).Perm
      (store.jobs.filter fun job => job.isDue time))
    (ordered : (before ++ job :: after).Pairwise
      fun a b => b.isDue time = true → a.isDue time = true)
    (due : job.isDue time = true) : job.id ∉ done ++ before.map Job.id := by
  have waits := perm.trans owes
  have isListed : job ∈ (before ++ job :: after).filter fun job => job.isDue time := by
    simp [due]
  have listedOnce := (waits.map Job.id).nodup_iff.mpr
    (once.sublist (List.filter_sublist.map Job.id))
  rw [List.filter_append, List.filter_cons, if_pos due, List.map_append, List.map_cons]
    at listedOnce
  intro again
  rcases List.mem_append.mp again with isDone | isBefore
  · exact (mem_stillWaiting.mp (waits.mem_iff.mp isListed)).2 isDone
  · obtain ⟨former, member, same⟩ := List.mem_map.mp isBefore
    have formerDue := (List.pairwise_append.mp ordered).2.2 former member job
      List.mem_cons_self due
    have apart := (List.nodup_append.mp listedOnce).2.2 former.id
      (List.mem_map_of_mem (List.mem_filter.mpr ⟨member, formerDue⟩)) job.id List.mem_cons_self
    exact apart same

/-- Before a listed job that was not due at the earlier time stand all that still wait. -/
theorem JobStore.Owes.all_before (owes : store.Owes time waiting done)
    {before after : List Job} {job : Job}
    (perm : ((before ++ job :: after).filter fun job => job.isDue time).Perm
      (store.jobs.filter fun job => job.isDue time))
    (ordered : (before ++ job :: after).Pairwise
      fun a b => b.isDue time = true → a.isDue time = true)
    (notDue : ¬job.isDue time = true) :
    ∀ other ∈ waiting, other.id ∈ done ++ before.map Job.id := by
  intro other otherWaits
  rw [List.mem_append]
  by_cases isDone : other.id ∈ done
  · exact Or.inl isDone
  · have isListed := (perm.trans owes).mem_iff.mpr (mem_stillWaiting.mpr ⟨otherWaits, isDone⟩)
    obtain ⟨member, otherDue⟩ := List.mem_filter.mp isListed
    rcases List.mem_append.mp member with isBefore | isAfter
    · exact Or.inr (List.mem_map_of_mem isBefore)
    · exfalso
      apply notDue
      rcases List.mem_cons.mp isAfter with rfl | later
      · exact otherDue
      · have tail := (List.pairwise_append.mp ordered).2.1
        exact (List.pairwise_cons.mp tail).1 other later otherDue

/-- A listing takes the waiting jobs in turn: nobody comes again before all came. -/
theorem JobStore.Lists.inTurn {limit : Nat} {listed : List Job}
    (lists : store.Lists now limit listed) (since : time.atMost now = true)
    (owes : store.Owes time waiting done) (once : (waiting.map Job.id).Nodup)
    (inTurn : InTurn waiting done) : InTurn waiting (done ++ listed.map Job.id) := by
  obtain ⟨rest, _, perm, ordered⟩ := lists.front since
  apply inTurn.append
  rintro before job after rfl _ again
  rw [List.append_assoc, List.cons_append] at perm ordered
  by_cases due : job.isDue time = true
  · exact absurd again (owes.not_again once perm ordered due)
  · exact owes.all_before perm ordered due

/-- After a listing fewer jobs wait: as many as it has room for. -/
theorem JobStore.Lists.length_stillWaiting_le {limit : Nat} {listed : List Job}
    (lists : store.Lists now limit listed) (since : time.atMost now = true)
    (owes : store.Owes time waiting done) :
    (stillWaiting waiting (done ++ listed.map Job.id)).length ≤
      (stillWaiting waiting done).length - limit := by
  obtain ⟨rest, full, perm, ordered⟩ := lists.front since
  have waits := (perm.trans owes).symm
  rw [stillWaiting_append, waits.length_eq, (waits.filter _).length_eq, List.filter_append,
    List.filter_append, List.length_append, List.length_append]
  have nothing : ((listed.filter fun job => job.isDue time).filter
      fun job => job.id ∉ listed.map Job.id) = [] := by
    apply List.filter_eq_nil_iff.mpr
    intro job member
    have isListed := List.mem_map_of_mem (f := Job.id) (List.mem_filter.mp member).1
    simpa using isListed
  have fewer : ((rest.filter fun job => job.isDue time).filter
      fun job => job.id ∉ listed.map Job.id).length ≤
        (rest.filter fun job => job.isDue time).length := List.length_filter_le _ _
  rw [nothing, List.length_nil]
  rcases full with full | rfl
  · by_cases left : ∃ job ∈ rest, job.isDue time = true
    · -- A waiting job was left over, so all listed jobs were waiting.
      obtain ⟨job, member, due⟩ := left
      have allDue : (listed.filter fun job => job.isDue time) = listed := by
        apply List.filter_eq_self.mpr
        intro other otherMember
        exact (List.pairwise_append.mp ordered).2.2 other otherMember job member due
      rw [allDue]
      omega
    · have none : (rest.filter fun job => job.isDue time) = [] := by
        apply List.filter_eq_nil_iff.mpr
        intro job member due
        exact left ⟨job, member, due⟩
      simp [none]
  · simp

end Waiting

/-! ## Runs among other writers -/

/-- What a call may answer, where a store lists due jobs in any of the ways that it may. -/
inductive World.Answers (world : World) : (request : Call) → request.Answer → World → Prop where
  | performed {request : Call} {answer : request.Answer} {after : World}
      (performed : world.perform request = some (answer, after)) :
      Answers world request answer after
  | listed {now : Timestamp} {limit : Nat} {jobs listed : List Job} {after : World}
      (performed : world.perform (.dueJobs now limit) = some (.ok jobs, after))
      (lists : world.jobs.Lists now limit listed) :
      Answers world (.dueJobs now limit) (.ok listed) after

/-- A run among others, who may act before each of its calls and at its end. -/
inductive Program.RunsAmong {α : Type} (others : World → World → Prop) :
    Program α → World → List Answered → α → World → Prop where
  | done {value : α} {before after : World} (acted : others before after) :
      RunsAmong others (.done value) before [] value after
  | call {request : Call} {next : request.Answer → Program α} {before found middle after : World}
      {answer : request.Answer} {later : List Answered} {value : α}
      (acted : others before found) (answers : found.Answers request answer middle)
      (goesOn : RunsAmong others (next answer) middle later value after) :
      RunsAmong others (.call request next) before (⟨request, answer⟩ :: later) value after

namespace Program

variable {α β : Type} {others : World → World → Prop} {before after : World}
  {calls : List Answered}

theorem runsAmong_call {request : Call} {next : request.Answer → Program α} {value : α}
    (run : (call request next).RunsAmong others before calls value after) :
    ∃ found answer middle later, others before found ∧ found.Answers request answer middle ∧
      (next answer).RunsAmong others middle later value after ∧
      calls = ⟨request, answer⟩ :: later := by
  cases run with
  | call acted answers goesOn => exact ⟨_, _, _, _, acted, answers, goesOn, rfl⟩

theorem runsAmong_bind (refl : ∀ world, others world world) {program : Program α}
    {next : α → Program β} {value : β}
    (run : (program.bind next).RunsAmong others before calls value after) :
    ∃ first early middle late, program.RunsAmong others before early first middle ∧
      (next first).RunsAmong others middle late value after ∧ calls = early ++ late := by
  induction program generalizing before calls with
  | done first => exact ⟨first, [], before, calls, .done (refl before), run, rfl⟩
  | call request rest ih =>
      obtain ⟨found, answer, reached, later, acted, answers, goesOn, rfl⟩ := runsAmong_call run
      obtain ⟨first, early, middle, late, begun, ended, rfl⟩ := ih answer goesOn
      exact ⟨first, _, middle, late, .call acted answers begun, ended, rfl⟩

theorem runsAmong_of_record (refl : ∀ world, others world world) {program : Program α}
    {value : α} (recorded : program.record before = some (value, calls, after)) :
    program.RunsAmong others before calls value after := by
  induction program generalizing before calls with
  | done ended =>
      cases recorded
      exact .done (refl after)
  | call request next ih =>
      obtain ⟨answer, middle, later, performed, goesOn, rfl⟩ := record_call_eq_some.mp recorded
      exact .call (refl before) (.performed performed) (ih answer goesOn)

theorem Uses.runsAmong_preserves {kind : Call → Prop} (leads : World → World → Prop)
    (trans : ∀ {first second third}, leads first second → leads second third →
      leads first third)
    (change : ∀ {world after}, others world after → leads world after)
    (step : ∀ {request : Call} {answer : request.Answer} {world after : World}, kind request →
      world.Answers request answer after → leads world after)
    {program : Program α} (uses : program.Uses kind) {value : α}
    (run : program.RunsAmong others before calls value after) :
    leads before after ∧ ∀ made ∈ calls, kind made.request := by
  induction run with
  | done acted => exact ⟨change acted, by simp⟩
  | call acted answers goesOn ih =>
      obtain ⟨onward, kinds⟩ := ih (uses.2 _)
      refine ⟨trans (change acted) (trans (step uses.1 answers) onward), ?_⟩
      intro made member
      rcases List.mem_cons.mp member with rfl | isLater
      · exact uses.1
      · exact kinds made isLater

end Program

/-- Others have added jobs that are due later than a time, whatever they did besides. -/
def World.Joined (time : Timestamp) (before after : World) : Prop :=
  ∃ added : List Job, after.jobs.jobs.Perm (before.jobs.jobs ++ added) ∧
    ∀ job ∈ added, time.before job.nextRetryAt = true

namespace World

variable {time : Timestamp} {world after : World} {waiting : List Job} {done : List Uuid}

theorem joined_of_jobs (same : after.jobs = world.jobs) : Joined time world after :=
  ⟨[], by simp [same], by simp⟩

theorem Joined.refl (time : Timestamp) (world : World) : Joined time world world :=
  joined_of_jobs rfl

theorem Joined.trans {first second third : World} (before : Joined time first second)
    (after : Joined time second third) : Joined time first third := by
  obtain ⟨early, perm, later⟩ := before
  obtain ⟨late, latePerm, lateLater⟩ := after
  refine ⟨early ++ late, ?_, ?_⟩
  · rw [← List.append_assoc]
    exact latePerm.trans (perm.append_right late)
  · intro job member
    rcases List.mem_append.mp member with isEarly | isLate
    · exact later job isEarly
    · exact lateLater job isLate

theorem Joined.owes (joined : Joined time world after)
    (owes : world.jobs.Owes time waiting done) : after.jobs.Owes time waiting done := by
  obtain ⟨added, perm, later⟩ := joined
  have none : (added.filter fun job => job.isDue time) = [] := by
    apply List.filter_eq_nil_iff.mpr
    intro job member
    simp [Job.isDue, Timestamp.not_atMost_of_before (later job member)]
  have filtered := perm.filter fun job => job.isDue time
  rw [List.filter_append, none, List.append_nil] at filtered
  exact filtered.trans owes

end World

theorem JobStore.Owes.replace {store : JobStore} {time : Timestamp} {waiting : List Job}
    {done : List Uuid} (owes : store.Owes time waiting done) {job : Job}
    (notDue : job.isDue time = false) :
    JobStore.Owes ⟨store.jobs.map fun other => if other.id = job.id then job else other⟩ time
      waiting (done ++ [job.id]) := by
  have left (jobs : List Job) :
      (jobs.map fun other => if other.id = job.id then job else other).filter
        (fun other => other.isDue time) =
      (jobs.filter fun other => other.isDue time).filter fun other => other.id ∉ [job.id] := by
    induction jobs with
    | nil => rfl
    | cons other rest ih =>
        by_cases same : other.id = job.id
        · cases due : other.isDue time <;> simp [same, due, notDue, ih]
        · cases due : other.isDue time <;> simp [same, due, ih]
  unfold Owes
  rw [left, stillWaiting_append]
  exact List.Perm.filter _ owes

/-! ## Passes -/

def deliveredIds (made : List Delivery) : List Uuid :=
  made.map fun delivery => delivery.job.id

theorem World.Answers.joined {time : Timestamp} {world after : World} {request : Call}
    {answer : request.Answer} (quiet : request.writes = false)
    (answers : world.Answers request answer after) : Joined time world after := by
  cases answers with
  | performed performed => exact joined_of_jobs (perform_sameStores quiet performed).jobs
  | listed performed lists => exact joined_of_jobs (perform_sameStores quiet performed).jobs

namespace Processor

variable {processor : Processor} {time now : Timestamp} {before after : World}
  {calls : List Answered} {waiting : List Job} {done : List Uuid}

theorem attempt_among {job attempted : Job}
    (run : (processor.attempt .courier now job).RunsAmong (World.Joined time) before calls
      attempted after) :
    ∃ result, attempted = processor.attempted now job result ∧
      deliveredIds (deliveries calls) = [job.id] ∧ World.Joined time before after := by
  rw [attempt_courier] at run
  obtain ⟨found, result, middle, later, acted, answers, goesOn, rfl⟩ := Program.runsAmong_call run
  have reached := acted.trans (answers.joined rfl)
  cases result with
  | ok done =>
      cases goesOn with
      | done acted => exact ⟨.ok (), rfl, rfl, reached.trans acted⟩
  | error error =>
      obtain ⟨_, early, told, late, observes, ends, rfl⟩ :=
        Program.runsAmong_bind (World.Joined.refl time) goesOn
      obtain ⟨joined, gentle⟩ := (observe_gentle ..).runsAmong_preserves (World.Joined time)
        World.Joined.trans (fun acted => acted)
        (fun kind answers => answers.joined (Call.writes_of_aside kind.1)) observes
      have quiet : deliveries early = [] := by
        apply deliveries_of_gentle
        intro made member
        exact (gentle made member).2
      cases ends with
      | done acted =>
          refine ⟨.error error, rfl, ?_, (reached.trans joined).trans acted⟩
          rw [List.append_nil]
          exact congrArg (fun made => job.id :: deliveredIds made) quiet

/-- A batch that stores all its outcomes delivers what is listed, and those no longer wait. -/
theorem attemptAll_among (positive : 0 < processor.backoff.baseDelay.nanos)
    (since : time.atMost now = true) (early : now.before .latest = true) {listed : List Job}
    (run : (processor.attemptAll .courier now listed).outcome.RunsAmong (World.Joined time)
      before calls (.ok ()) after)
    (owes : before.jobs.Owes time waiting done) :
    deliveredIds (deliveries calls) = listed.map Job.id ∧
      after.jobs.Owes time waiting (done ++ listed.map Job.id) := by
  induction listed generalizing before calls done with
  | nil =>
      cases run with
      | done acted =>
          refine ⟨rfl, ?_⟩
          simpa using acted.owes owes
  | cons job rest ih =>
      rw [attemptAll_outcome] at run
      obtain ⟨attempted, first, middle, second, attempts, goesOn, rfl⟩ :=
        Program.runsAmong_bind (World.Joined.refl time) run
      obtain ⟨result, rfl, delivered, joined⟩ := attempt_among attempts
      obtain ⟨found, answer, stored, later, acted, answers, onward, rfl⟩ :=
        Program.runsAmong_call goesOn
      cases answers with
      | performed performed =>
          obtain ⟨_, _, ⟨error, rfl, _⟩ | ⟨rfl, replaced⟩⟩ := World.perform_updateJob performed
          · cases onward
          · have notDue := not_isDue_attempted positive since early job result
            have stillOwes := (acted.owes (joined.owes owes)).replace notDue
            rw [← replaced, id_attempted] at stillOwes
            obtain ⟨rests, ends⟩ := ih onward stillOwes
            refine ⟨?_, ?_⟩
            · rw [deliveries_append, deliveredIds, List.map_append, ← deliveredIds, delivered]
              exact congrArg (List.cons job.id) rests
            · simpa using ends

/-- A pass delivers jobs in turn, and as many fewer wait as its batch has room for. -/
theorem pass_among (positive : 0 < processor.backoff.baseDelay.nanos)
    (since : time.atMost now = true) (early : now.before .latest = true) {count : Nat}
    (run : (processor.pass .courier now).outcome.RunsAmong (World.Joined time) before calls
      (.ok count) after)
    (owes : before.jobs.Owes time waiting done) (once : (waiting.map Job.id).Nodup)
    (inTurn : InTurn waiting done) :
    after.jobs.Owes time waiting (done ++ deliveredIds (deliveries calls)) ∧
      InTurn waiting (done ++ deliveredIds (deliveries calls)) ∧
      (stillWaiting waiting (done ++ deliveredIds (deliveries calls))).length ≤
        (stillWaiting waiting done).length - processor.batchSize := by
  rw [pass_outcome] at run
  obtain ⟨found, answer, middle, later, acted, answers, goesOn, rfl⟩ := Program.runsAmong_call run
  have foundOwes := acted.owes owes
  have joined : World.Joined time found middle := answers.joined rfl
  have middleOwes := joined.owes foundOwes
  have lists : ∀ listed, answer = .ok listed →
      found.jobs.Lists now processor.batchSize listed := by
    rintro listed rfl
    cases answers with
    | performed performed =>
        rw [World.perform_dueJobs performed]
        exact JobStore.lists_due ..
    | listed performed lists => exact lists
  cases answer with
  | error error => cases goesOn
  | ok listed =>
      obtain ⟨ended, first, reached, second, attempts, ends, rfl⟩ :=
        Program.runsAmong_bind (World.Joined.refl time) goesOn
      cases ended with
      | error error => cases ends
      | ok _ =>
          cases ends with
          | done acted =>
              obtain ⟨delivered, reachedOwes⟩ :=
                attemptAll_among positive since early attempts middleOwes
              have same : deliveredIds (deliveries (⟨.dueJobs now processor.batchSize,
                  .ok listed⟩ :: (first ++ []))) = listed.map Job.id := by
                rw [List.append_nil]
                exact delivered
              rw [same]
              have isListed := lists listed rfl
              exact ⟨acted.owes reachedOwes, isListed.inTurn since foundOwes once inTurn,
                isListed.length_stillWaiting_le since foundOwes⟩

/-- A pass that is alone with the store, which lists due jobs in one of the ways it may. -/
theorem pass_listing {listed jobs : List Job} {middle : World}
    (performed : before.perform (.dueJobs now processor.batchSize) = some (.ok jobs, middle))
    (lists : before.jobs.Lists now processor.batchSize listed)
    (recorded : (processor.attemptAll .courier now listed).outcome.record middle =
      some (.ok (), calls, after)) :
    (processor.pass .courier now).outcome.RunsAmong (World.Joined time) before
      (⟨.dueJobs now processor.batchSize, .ok listed⟩ :: calls) (.ok listed.length) after := by
  rw [pass_outcome]
  apply Program.RunsAmong.call (World.Joined.refl time before) (.listed performed lists)
  apply Program.runsAmong_of_record (World.Joined.refl time)
  rw [← List.append_nil calls]
  exact Program.record_bind_eq recorded rfl

/-- Passes one after the other, none of which fails, among others who add jobs that are due
later than a time. -/
inductive Passes (processor : Processor) (time : Timestamp) :
    World → List Timestamp → List Delivery → World → Prop where
  | none {before after : World} (acted : World.Joined time before after) :
      Passes processor time before [] [] after
  | pass {before middle after : World} {now : Timestamp} {rest : List Timestamp}
      {calls : List Answered} {count : Nat} {later : List Delivery}
      (run : (processor.pass .courier now).outcome.RunsAmong (World.Joined time) before calls
        (.ok count) middle)
      (goesOn : Passes processor time middle rest later after) :
      Passes processor time before (now :: rest) (deliveries calls ++ later) after

theorem passes_drain (positive : 0 < processor.backoff.baseDelay.nanos)
    (once : (waiting.map Job.id).Nodup) {times : List Timestamp} {made : List Delivery}
    (since : ∀ now ∈ times, time.atMost now = true)
    (early : ∀ now ∈ times, now.before .latest = true)
    (passes : processor.Passes time before times made after)
    (owes : before.jobs.Owes time waiting done) (inTurn : InTurn waiting done) :
    InTurn waiting (done ++ deliveredIds made) ∧
      (stillWaiting waiting (done ++ deliveredIds made)).length ≤
        (stillWaiting waiting done).length - times.length * processor.batchSize := by
  induction passes generalizing done with
  | none acted => simpa [deliveredIds] using inTurn
  | @pass _ _ _ now rest calls _ later run goesOn ih =>
      obtain ⟨middleOwes, middleTurn, fewer⟩ := pass_among positive
        (since now List.mem_cons_self) (early now List.mem_cons_self) run owes once inTurn
      obtain ⟨lastTurn, fewest⟩ := ih
        (fun other member => since other (List.mem_cons_of_mem _ member))
        (fun other member => early other (List.mem_cons_of_mem _ member)) middleOwes middleTurn
      have ids : done ++ deliveredIds (deliveries calls ++ later) =
          done ++ deliveredIds (deliveries calls) ++ deliveredIds later := by
        simp [deliveredIds]
      rw [ids]
      refine ⟨lastTurn, ?_⟩
      rw [List.length_cons, Nat.add_mul, Nat.one_mul]
      omega

end Processor

/-- Passes at times from `time` on, whatever becomes of their deliveries, in whatever order
the store yields jobs that agree in due time and age, while others add jobs that are due
later than `time`.  With room for all jobs that were due at `time`, they attempt each of
them; and in any case none of those jobs is attempted a second time before each of them was
attempted once. -/
theorem due_jobs_are_attempted_in_turn (processor : Processor)
    (positive : 0 < processor.backoff.baseDelay.nanos) (room : 1 ≤ processor.batchSize)
    {time : Timestamp} {world last : World} (distinct : world.jobs.Distinct)
    {times : List Timestamp} {made : List Delivery}
    (since : ∀ now ∈ times, time.atMost now = true)
    (early : ∀ now ∈ times, now.before .latest = true)
    (passes : processor.Passes time world times made last) :
    ((((world.jobs.jobs.filter fun job => job.isDue time).length + processor.batchSize - 1) /
        processor.batchSize ≤ times.length) →
      ∀ job ∈ world.jobs.jobs, job.isDue time = true →
        ∃ delivery ∈ made, delivery.job.id = job.id) ∧
    ∀ earlier delivery later, made = earlier ++ delivery :: later →
      (∃ job ∈ world.jobs.jobs, job.isDue time = true ∧ job.id = delivery.job.id) →
      (∃ former ∈ earlier, former.job.id = delivery.job.id) →
      ∀ job ∈ world.jobs.jobs, job.isDue time = true →
        ∃ former ∈ earlier, former.job.id = job.id := by
  have once : ((world.jobs.jobs.filter fun job => job.isDue time).map Job.id).Nodup :=
    distinct.sublist (List.filter_sublist.map Job.id)
  have owes : world.jobs.Owes time (world.jobs.jobs.filter fun job => job.isDue time) [] := by
    simp [JobStore.Owes, stillWaiting]
  obtain ⟨inTurn, left⟩ := Processor.passes_drain positive once since early passes owes .nil
  rw [List.nil_append] at inTurn left
  refine ⟨?_, ?_⟩
  · intro enough job member due
    have total : (world.jobs.jobs.filter fun job => job.isDue time).length ≤
        times.length * processor.batchSize := by
      have below := (Nat.div_lt_iff_lt_mul room).mp (Nat.lt_succ_of_le enough)
      rw [Nat.succ_mul] at below
      omega
    have nobody : stillWaiting (world.jobs.jobs.filter fun job => job.isDue time)
        (deliveredIds made) = [] := by
      apply List.length_eq_zero_iff.mp
      have atFirst : (stillWaiting (world.jobs.jobs.filter fun job => job.isDue time)
          []).length ≤ (world.jobs.jobs.filter fun job => job.isDue time).length :=
        List.length_filter_le _ _
      omega
    by_contra unattempted
    have waits : job ∈ stillWaiting (world.jobs.jobs.filter fun job => job.isDue time)
        (deliveredIds made) := by
      refine mem_stillWaiting.mpr ⟨List.mem_filter.mpr ⟨member, due⟩, ?_⟩
      intro isDelivered
      exact unattempted (List.mem_map.mp isDelivered)
    rw [nobody] at waits
    cases waits
  · rintro earlier delivery later rfl ⟨waiter, waiterMember, waiterDue, same⟩ again job member due
    have allCame := inTurn (deliveredIds earlier) delivery.job.id (deliveredIds later)
      (by simp [deliveredIds])
      (List.mem_map.mpr ⟨waiter, List.mem_filter.mpr ⟨waiterMember, waiterDue⟩, same⟩)
      (List.mem_map.mpr again) job (List.mem_filter.mpr ⟨member, due⟩)
    exact List.mem_map.mp allCame

namespace Sample

def waitingJobs : List Job :=
  [.create (.ofNat 1) (.ofSeconds 1) "a" "one", .create (.ofNat 2) (.ofSeconds 2) "b" "two",
    .create (.ofNat 3) (.ofSeconds 3) "c" "three"]

def waitingWorld : World := {
  jobs := ⟨waitingJobs⟩
  courier := { outcomes := [("*", [some (.delivery "down")])] } }

def pairProcessor : Processor := { batchSize := 2 }

theorem lists_sorted {store : JobStore} {order : List Job} {now : Timestamp}
    (perm : order.Perm store.jobs) (due : order.filter (fun job => job.isDue now) = order)
    (sorted : order.Pairwise fun a b => JobStore.dueBefore a b = true) (limit : Nat) :
    store.Lists now limit (order.take limit) := by
  refine ⟨order, perm, ?_⟩
  rw [due, List.mergeSort_of_pairwise sorted]

/-- The second pass attempts the third job before it comes back to the first. -/
theorem third_job_has_its_turn :
    ∃ made last, pairProcessor.Passes (.ofSeconds 4) waitingWorld
        [.ofSeconds 4, .ofSeconds 100] made last ∧
      deliveredIds made = [.ofNat 1, .ofNat 2, .ofNat 3, .ofNat 1] ∧
      waitingWorld.jobs.Distinct ∧
      ∀ job ∈ waitingJobs, job.isDue (.ofSeconds 4) = true →
        ∃ delivery ∈ made, delivery.job.id = job.id := by
  have distinct : waitingWorld.jobs.Distinct := by
    show List.Nodup _
    decide +kernel
  obtain ⟨⟨ended, calls, middle⟩, recorded, ok, ids, due, sorted,
      ⟨endedAgain, moreCalls, last⟩, recordedAgain, okAgain, moreIds⟩ :
      ∃ one ∈ (pairProcessor.attemptAll .courier (.ofSeconds 4)
          (waitingJobs.take 2)).outcome.record waitingWorld,
        one.1 = .ok () ∧ deliveredIds (deliveries one.2.1) = [.ofNat 1, .ofNat 2] ∧
        (one.2.2.jobs.jobs.drop 2 ++ one.2.2.jobs.jobs.take 2).filter
          (fun job => job.isDue (.ofSeconds 100)) =
            one.2.2.jobs.jobs.drop 2 ++ one.2.2.jobs.jobs.take 2 ∧
        (one.2.2.jobs.jobs.drop 2 ++ one.2.2.jobs.jobs.take 2).Pairwise
          (fun a b => JobStore.dueBefore a b = true) ∧
        ∃ two ∈ (pairProcessor.attemptAll .courier (.ofSeconds 100)
            ((one.2.2.jobs.jobs.drop 2 ++ one.2.2.jobs.jobs.take 2).take 2)).outcome.record
              one.2.2,
          two.1 = .ok () ∧ deliveredIds (deliveries two.2.1) = [.ofNat 3, .ofNat 1] := by
    decide +kernel
  cases ok
  cases okAgain
  have reliable : waitingWorld.Reliable := fun _ => rfl
  have middleReliable := reliable.run (Program.run_of_record (Option.mem_def.mp recorded))
  have first : waitingWorld.jobs.Lists (.ofSeconds 4) 2 (waitingJobs.take 2) :=
    lists_sorted (.refl _) (by decide +kernel) (by decide +kernel) 2
  have second := lists_sorted (List.perm_append_comm.trans (.of_eq (List.take_append_drop ..)))
    due sorted 2
  have passes : pairProcessor.Passes (.ofSeconds 4) waitingWorld [.ofSeconds 4, .ofSeconds 100]
      _ last :=
    .pass (Processor.pass_listing (reliable.dueJobs _ _) first (Option.mem_def.mp recorded))
      (.pass (Processor.pass_listing (middleReliable.dueJobs _ _) second
        (Option.mem_def.mp recordedAgain)) (.none (.refl _ _)))
  obtain ⟨drained, _⟩ := due_jobs_are_attempted_in_turn pairProcessor (by decide) (by decide)
    distinct (by decide +kernel) (by decide +kernel) passes
  refine ⟨_, last, passes, ?_, distinct, drained ?_⟩
  · have same : deliveredIds (deliveries calls ++ (deliveries moreCalls ++ [])) =
        deliveredIds (deliveries calls) ++ deliveredIds (deliveries moreCalls) := by
      simp [deliveredIds]
    exact same.trans (by rw [ids, moreIds]; rfl)
  · decide +kernel

end Sample

end WebhookRelay
