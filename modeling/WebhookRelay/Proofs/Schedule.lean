import WebhookRelay.Proofs.Draining
import WebhookRelay.Proofs.Ticks

/-!
# The schedule of retries

One processor makes passes at any times, among others who add jobs.  Nobody else stores a new
state of a job, so what a pass lists is what the last attempt left, and a job that waits for
its delay is left alone until a pass comes at a time that is late enough.  Such a pass lists the
job, unless its batch is full of jobs that sort before it.  All this is read off the log of the
passes: which states were stored, which jobs were delivered and which were listed.
-/

set_option autoImplicit false

namespace WebhookRelay

/-! ## Logs -/

/-- Calls with their answers, each with the time of the pass that made it. -/
abbrev PassLog := List (Timestamp × Answered)

namespace PassLog

/-- A place of the log where a state of a job was stored. -/
def Stores (log : PassLog) (place : Nat) (time : Timestamp) (job : Job) : Prop :=
  log[place]? = some (time, ⟨.updateJob job, .ok ()⟩)

def Delivers (log : PassLog) (place : Nat) (time : Timestamp) (job : Job) : Prop :=
  ∃ result, log[place]? = some (time, ⟨.deliver job, result⟩)

def ListsDue (log : PassLog) (place : Nat) (time : Timestamp) (listed : List Job) : Prop :=
  ∃ asked limit, log[place]? = some (time, ⟨.dueJobs asked limit, .ok listed⟩)

def Stands (log : PassLog) (job : Job) (first last : Nat) : Prop :=
  ∀ place time other, first < place → place < last → log.Stores place time other →
    other.id = job.id → other = job

/-- Since the last delivery of a job, which was in a pass at this time, no state of it was
stored. -/
def Begun (log : PassLog) (time : Timestamp) (id : Uuid) (place : Nat) : Prop :=
  ∃ start job, start < place ∧ log.Delivers start time job ∧ job.id = id ∧
    ∀ between other state, start < between → between < place →
      log.Stores between other state → state.id ≠ id

theorem getElem?_snoc {α : Type} {list : List α} {last value : α} {place : Nat} :
    (list ++ [last])[place]? = some value ↔
      list[place]? = some value ∨ place = list.length ∧ last = value := by
  rcases Nat.lt_trichotomy place list.length with inside | rfl | beyond
  · rw [List.getElem?_append_left inside]
    constructor
    · exact Or.inl
    · rintro (found | ⟨rfl, _⟩)
      · exact found
      · exact absurd inside (Nat.lt_irrefl _)
  · simp
  · have none : list[place]? = none := List.getElem?_eq_none (Nat.le_of_lt beyond)
    rw [List.getElem?_eq_none (by simp; omega), none]
    simp
    omega

variable {log : PassLog} {place : Nat} {time now : Timestamp} {job : Job} {id : Uuid}
  {entry : Timestamp × Answered}

theorem lt_length {value : Timestamp × Answered} (found : log[place]? = some value) :
    place < log.length :=
  (List.getElem?_eq_some_iff.mp found).1

theorem Stores.snoc (stores : log.Stores place time job) (entry : Timestamp × Answered) :
    Stores (log ++ [entry]) place time job :=
  getElem?_snoc.mpr (Or.inl stores)

theorem Stands.of_snoc {first last before : Nat}
    (stands : Stands (log ++ [entry]) job first last) (within : before ≤ last) :
    log.Stands job first before := by
  intro place time other after ahead stores
  exact stands place time other after (Nat.lt_of_lt_of_le ahead within) (stores.snoc entry)

theorem Begun.extend (begun : log.Begun time id place) (within : place ≤ log.length)
    (entry : Timestamp × Answered) : Begun (log ++ [entry]) time id place := by
  obtain ⟨start, delivered, ahead, ⟨result, found⟩, same, none⟩ := begun
  refine ⟨start, delivered, ahead, ⟨result, getElem?_snoc.mpr (Or.inl found)⟩, same, ?_⟩
  intro between other state after before stores
  rcases getElem?_snoc.mp stores with old | ⟨rfl, _⟩
  · exact none between other state after before old
  · exact absurd before (Nat.not_lt.mpr within)

theorem Begun.snoc (begun : log.Begun time id log.length) (entry : Timestamp × Answered)
    (apart : ∀ other state, entry = (other, ⟨.updateJob state, .ok ()⟩) → state.id ≠ id) :
    Begun (log ++ [entry]) time id (log ++ [entry]).length := by
  obtain ⟨start, delivered, ahead, ⟨result, found⟩, same, none⟩ := begun
  refine ⟨start, delivered, by simp; omega, ⟨result, getElem?_snoc.mpr (Or.inl found)⟩,
    same, ?_⟩
  intro between other state after _ stores
  rcases getElem?_snoc.mp stores with old | ⟨_, new⟩
  · exact none between other state after (lt_length old) old
  · exact apart other state new

theorem ListsDue.alone {listed : List Job} (lists : log.ListsDue place time listed) :
    (∀ moment other, ¬log.Stores place moment other) ∧
      ∀ moment other, ¬log.Delivers place moment other := by
  obtain ⟨asked, limit, found⟩ := lists
  refine ⟨?_, ?_⟩
  · intro moment other stores
    rw [Stores, found] at stores
    cases stores
  · rintro moment other ⟨result, delivers⟩
    rw [found] at delivers
    cases delivers

theorem begun_snoc (log : PassLog) (now : Timestamp) (job : Job)
    (result : Except QueueError Unit) :
    Begun (log ++ [(now, (⟨.deliver job, result⟩ : Answered))]) now job.id
      (log ++ [(now, (⟨.deliver job, result⟩ : Answered))]).length := by
  refine ⟨log.length, job, by simp, ?_, rfl, ?_⟩
  · exact ⟨result, getElem?_snoc.mpr (Or.inr ⟨rfl, rfl⟩)⟩
  · intro between other state after before
    simp at before
    omega

end PassLog

/-! ## Listings -/

/-- The jobs that are listed in place of one that is due: other jobs that are due and sort
before it, as many as are listed at most. -/
structure Crowds (limit : Nat) (now : Timestamp) (job : Job) (listed : List Job) : Prop where
  full : listed.length = limit
  once : (listed.map Job.id).Nodup
  others : ∀ other ∈ listed, other.id ≠ job.id
  due : ∀ other ∈ listed, other.isDue now = true
  before : ∀ other ∈ listed, JobStore.dueBefore other job = true

/-- The jobs of a batch are stored as they are, and they are due. -/
def Processor.Awaits (now : Timestamp) (listed : List Job) (store : JobStore) : Prop :=
  ∀ job ∈ listed, job ∈ store.jobs ∧ job.isDue now = true

/-- A listing is the front of all that is due, sorted and without repetition. -/
theorem JobStore.Lists.sorted {store : JobStore} {now : Timestamp} {limit : Nat}
    {listed : List Job} (lists : store.Lists now limit listed) (distinct : store.Distinct) :
    ∃ rest, (listed.length = limit ∨ rest = []) ∧
      (∀ job, job ∈ listed ++ rest ↔ job ∈ store.jobs ∧ job.isDue now = true) ∧
      ((listed ++ rest).map Job.id).Nodup ∧
      (listed ++ rest).Pairwise fun a b : Job => dueBefore a b = true := by
  obtain ⟨order, perm, rfl⟩ := lists
  have sortedPerm := List.mergeSort_perm (order.filter fun job => job.isDue now) dueBefore
  refine ⟨((order.filter fun job => job.isDue now).mergeSort dueBefore).drop limit, ?_⟩
  rw [List.take_append_drop]
  refine ⟨?_, ?_, ?_, List.pairwise_mergeSort dueBefore_trans dueBefore_total _⟩
  · rw [List.length_take, List.drop_eq_nil_iff]
    omega
  · intro job
    rw [sortedPerm.mem_iff, List.mem_filter, perm.mem_iff]
  · apply (sortedPerm.map Job.id).nodup_iff.mpr
    have ordered : (order.map Job.id).Nodup := (perm.map Job.id).nodup_iff.mpr distinct
    exact ordered.sublist (List.filter_sublist.map Job.id)

theorem JobStore.Lists.awaits {store : JobStore} {now : Timestamp} {limit : Nat}
    {listed : List Job} (lists : store.Lists now limit listed) (distinct : store.Distinct) :
    Processor.Awaits now listed store ∧ (listed.map Job.id).Nodup := by
  obtain ⟨rest, _, all, once, _⟩ := lists.sorted distinct
  rw [List.map_append] at once
  exact ⟨fun job member => (all job).mp (List.mem_append_left _ member),
    (List.nodup_append.mp once).1⟩

/-- A due job is listed, unless others crowd it out. -/
theorem JobStore.Lists.selects {store : JobStore} {now : Timestamp} {limit : Nat}
    {listed : List Job} (lists : store.Lists now limit listed) (distinct : store.Distinct)
    {job : Job} (member : job ∈ store.jobs) (due : job.isDue now = true) :
    job ∈ listed ∨ Crowds limit now job listed := by
  obtain ⟨rest, full, all, once, ordered⟩ := lists.sorted distinct
  rcases List.mem_append.mp ((all job).mpr ⟨member, due⟩) with front | back
  · exact Or.inl front
  · have apart := List.nodup_append.mp (List.map_append .. ▸ once)
    refine Or.inr ⟨?_, apart.1, ?_, ?_, ?_⟩
    · rcases full with full | rfl
      · exact full
      · cases back
    · intro other front
      exact apart.2.2 other.id (List.mem_map_of_mem front) job.id (List.mem_map_of_mem back)
    · intro other front
      exact ((all other).mp (List.mem_append_left _ front)).2
    · intro other front
      exact (List.pairwise_append.mp ordered).2.2 other front job back

/-! ## What the log says about the store -/

/-- Others have added jobs under new ids, whatever they did besides. -/
def World.Grown (before after : World) : Prop :=
  (before.jobs.Distinct → after.jobs.Distinct) ∧
    ∃ added : List Job, after.jobs.jobs.Perm (before.jobs.jobs ++ added)

theorem World.grown_of_jobs {before after : World} (same : after.jobs = before.jobs) :
    before.Grown after := by
  refine ⟨?_, [], ?_⟩ <;> simp [same]

theorem World.Grown.refl (world : World) : world.Grown world :=
  grown_of_jobs rfl

theorem World.Grown.trans {first second third : World} (before : first.Grown second)
    (after : second.Grown third) : first.Grown third := by
  obtain ⟨keeps, early, perm⟩ := before
  obtain ⟨keepsLater, late, latePerm⟩ := after
  refine ⟨fun distinct => keepsLater (keeps distinct), early ++ late, ?_⟩
  rw [← List.append_assoc]
  exact latePerm.trans (perm.append_right late)

theorem World.Grown.mem {before after : World} (grown : before.Grown after) {job : Job}
    (member : job ∈ before.jobs.jobs) : job ∈ after.jobs.jobs := by
  obtain ⟨_, added, perm⟩ := grown
  exact perm.mem_iff.mpr (List.mem_append_left _ member)

/-- What the log of a processor's passes says about the jobs that are stored after it. -/
structure Processor.Follows (processor : Processor) (log : PassLog) (store : JobStore) :
    Prop where
  distinct : store.Distinct
  /-- A state that is stored comes of an attempt, which began in the same pass. -/
  outcome : ∀ {place time job}, log.Stores place time job →
    (∃ earlier result, job = processor.attempted time earlier result) ∧
      log.Begun time job.id place
  /-- What was stored last about a job is what is stored. -/
  current : ∀ {place time job}, log.Stores place time job → log.Stands job place log.length →
    job ∈ store.jobs
  /-- A job is delivered when what was stored last is due. -/
  delivers : ∀ {place time job later now delivered}, log.Stores place time job →
    place < later → log.Delivers later now delivered → delivered.id = job.id →
    log.Stands job place later → job.isDue now = true
  /-- What was stored last is listed when it is due. -/
  lists : ∀ {place time job later now listed}, log.Stores place time job → place < later →
    log.ListsDue later now listed → log.Stands job place later → job.isDue now = true →
    job ∈ listed ∨ Crowds processor.batchSize now job listed

theorem Job.lt_of_beginAttempt_lt {job : Job} {limit : UInt32}
    (below : job.beginAttempt.attempts < limit) : job.attempts < limit := by
  have more : job.attempts.toNat ≤ job.beginAttempt.attempts.toNat := by
    unfold beginAttempt
    have range := job.attempts.toNat_lt
    split
    · exact Nat.le_refl _
    · rename_i notLast
      have other : job.attempts.toNat ≠ 4294967295 := fun same =>
        notLast (UInt32.toNat.inj same)
      have one : (1 : UInt32).toNat = 1 := rfl
      rw [UInt32.toNat_add]
      omega
  exact UInt32.lt_iff_toNat_lt.mpr (Nat.lt_of_le_of_lt more (UInt32.lt_iff_toNat_lt.mp below))

namespace Processor

variable {processor : Processor} {log : PassLog} {store : JobStore} {now : Timestamp}

theorem follows_empty (distinct : store.Distinct) : processor.Follows [] store where
  distinct := distinct
  outcome found := by cases found
  current found := by cases found
  delivers found := by cases found
  lists found := by cases found

theorem Follows.grown {before after : World} (follows : processor.Follows log before.jobs)
    (grown : before.Grown after) : processor.Follows log after.jobs :=
  { follows with
    distinct := grown.1 follows.distinct
    current := fun stores stands => grown.mem (follows.current stores stands) }

theorem Follows.sole (follows : processor.Follows log store) {job other : Job}
    (member : job ∈ store.jobs) (otherMember : other ∈ store.jobs) (same : job.id = other.id) :
    job = other :=
  List.inj_on_of_nodup_map follows.distinct member otherMember same

theorem Follows.note (follows : processor.Follows log store) (entry : Timestamp × Answered)
    (stores : ∀ time job, entry ≠ (time, ⟨.updateJob job, .ok ()⟩))
    (delivers : ∀ time job result, entry = (time, ⟨.deliver job, result⟩) →
      ∃ stored ∈ store.jobs, stored.id = job.id ∧ stored.isDue time = true)
    (lists : ∀ time asked limit listed, entry = (time, ⟨.dueJobs asked limit, .ok listed⟩) →
      store.Lists time processor.batchSize listed) :
    processor.Follows (log ++ [entry]) store := by
  have old : ∀ {place time job}, PassLog.Stores (log ++ [entry]) place time job →
      log.Stores place time job := by
    intro place time job found
    rcases PassLog.getElem?_snoc.mp found with found | ⟨_, new⟩
    · exact found
    · exact absurd new (stores time job)
  refine ⟨follows.distinct, ?_, ?_, ?_, ?_⟩
  · intro place time job found
    obtain ⟨result, begun⟩ := follows.outcome (old found)
    exact ⟨result, begun.extend (Nat.le_of_lt (PassLog.lt_length (old found))) entry⟩
  · intro place time job found stands
    exact follows.current (old found) (stands.of_snoc (by simp))
  · intro place time job later moment delivered found after delivery same stands
    obtain ⟨result, delivery⟩ := delivery
    rcases PassLog.getElem?_snoc.mp delivery with delivery | ⟨rfl, new⟩
    · exact follows.delivers (old found) after ⟨result, delivery⟩ same
        (stands.of_snoc (Nat.le_refl _))
    · obtain ⟨stored, member, sameId, due⟩ := delivers _ _ _ new
      have current := follows.current (old found) (stands.of_snoc (Nat.le_refl _))
      rw [← follows.sole member current (sameId.trans same)]
      exact due
  · intro place time job later moment listed found after listing stands due
    obtain ⟨asked, limit, listing⟩ := listing
    rcases PassLog.getElem?_snoc.mp listing with listing | ⟨rfl, new⟩
    · exact follows.lists (old found) after ⟨asked, limit, listing⟩
        (stands.of_snoc (Nat.le_refl _)) due
    · have current := follows.current (old found) (stands.of_snoc (Nat.le_refl _))
      exact (lists _ _ _ _ new).selects follows.distinct current due

theorem Follows.replace (follows : processor.Follows log store) {job earlier : Job}
    (result : Except QueueError Unit) (outcome : job = processor.attempted now earlier result)
    (begun : log.Begun now job.id log.length)
    (known : ∃ stored ∈ store.jobs, stored.id = job.id) :
    processor.Follows (log ++ [(now, ⟨.updateJob job, .ok ()⟩)])
      ⟨store.jobs.map fun other => if other.id = job.id then job else other⟩ := by
  have replaced : job ∈ store.jobs.map fun other => if other.id = job.id then job else other := by
    obtain ⟨stored, member, same⟩ := known
    exact List.mem_map.mpr ⟨stored, member, if_pos same⟩
  have split : ∀ {place time state},
      PassLog.Stores (log ++ [(now, ⟨.updateJob job, .ok ()⟩)]) place time state →
      log.Stores place time state ∨ place = log.length ∧ time = now ∧ state = job := by
    intro place time state found
    rcases PassLog.getElem?_snoc.mp found with found | ⟨last, new⟩
    · exact Or.inl found
    · cases new
      exact Or.inr ⟨last, rfl, rfl⟩
  refine ⟨?_, ?_, ?_, ?_, ?_⟩
  · have ids : (store.jobs.map fun other => if other.id = job.id then job else other).map
        Job.id = store.jobs.map Job.id := by
      rw [List.map_map]
      apply List.map_congr_left
      intro other _
      simp only [Function.comp]
      split
      · rename_i same
        exact same.symm
      · rfl
    exact (congrArg List.Nodup ids).mpr follows.distinct
  · intro place time state found
    rcases split found with old | ⟨rfl, rfl, rfl⟩
    · obtain ⟨result, since⟩ := follows.outcome old
      exact ⟨result, since.extend (Nat.le_of_lt (PassLog.lt_length old)) _⟩
    · exact ⟨⟨earlier, result, outcome⟩, begun.extend (Nat.le_refl _) _⟩
  · intro place time state found stands
    rcases split found with old | ⟨rfl, rfl, rfl⟩
    · by_cases same : job.id = state.id
      · have isLast := stands log.length now job (PassLog.lt_length old) (by simp)
          (PassLog.getElem?_snoc.mpr (Or.inr ⟨rfl, rfl⟩)) same
        rw [← isLast]
        exact replaced
      · have current := follows.current old (stands.of_snoc (by simp))
        exact List.mem_map.mpr ⟨state, current, if_neg fun other => same other.symm⟩
    · exact replaced
  · intro place time state later moment delivered found after delivery same stands
    obtain ⟨answer, delivery⟩ := delivery
    rcases PassLog.getElem?_snoc.mp delivery with delivery | ⟨_, new⟩
    · rcases split found with old | ⟨rfl, _, _⟩
      · exact follows.delivers old after ⟨answer, delivery⟩ same (stands.of_snoc (Nat.le_refl _))
      · exact absurd after (Nat.lt_asymm (PassLog.lt_length delivery))
    · cases new
  · intro place time state later moment listed found after listing stands due
    obtain ⟨asked, limit, listing⟩ := listing
    rcases PassLog.getElem?_snoc.mp listing with listing | ⟨_, new⟩
    · rcases split found with old | ⟨rfl, _, _⟩
      · exact follows.lists old after ⟨asked, limit, listing⟩ (stands.of_snoc (Nat.le_refl _)) due
      · exact absurd after (Nat.lt_asymm (PassLog.lt_length listing))
    · cases new

/-! ## Passes -/

/-- A call that neither delivers, nor lists due jobs, nor stores a state of one. -/
def Aside (request : Call) : Prop :=
  request.aside = true ∧ request.Gentle

theorem Follows.note_aside (follows : processor.Follows log store) {made : Answered}
    (aside : Aside made.request) (now : Timestamp) :
    processor.Follows (log ++ [(now, made)]) store := by
  apply follows.note
  · rintro time job same
    cases same
    exact aside.2
  · rintro time job result same
    cases same
    exact aside.2.elim
  · rintro time asked limit listed same
    cases same
    cases aside.1

theorem Follows.note_asides (follows : processor.Follows log store) {calls : List Answered}
    (asides : ∀ made ∈ calls, Aside made.request) (now : Timestamp) {time : Timestamp}
    {id : Uuid} (begun : log.Begun time id log.length) :
    processor.Follows (log ++ calls.map (now, ·)) store ∧
      PassLog.Begun (log ++ calls.map (now, ·)) time id (log ++ calls.map (now, ·)).length := by
  induction calls generalizing log with
  | nil => exact ⟨by simpa using follows, by simpa using begun⟩
  | cons made rest ih =>
      have aside := asides made List.mem_cons_self
      have next := begun.snoc (now, made) (by
        rintro other state same
        cases same
        exact aside.2.elim)
      have noted := ih (follows.note_aside aside now)
        (fun other member => asides other (List.mem_cons_of_mem _ member)) next
      simpa using noted

variable {before after : World} {calls : List Answered}

theorem Awaits.grown {listed : List Job} (awaits : Awaits now listed before.jobs)
    (grown : before.Grown after) : Awaits now listed after.jobs :=
  fun job member => ⟨grown.mem (awaits job member).1, (awaits job member).2⟩

theorem World.Answers.jobs {world : World} {request : Call} {answer : request.Answer}
    (quiet : request.writes = false) (answers : world.Answers request answer after) :
    after.jobs = world.jobs := by
  cases answers with
  | performed performed => exact (World.perform_sameStores quiet performed).jobs
  | listed performed lists => exact (World.perform_sameStores quiet performed).jobs

/-- An attempt at a job that is due is begun by its delivery; others only add jobs. -/
theorem attempt_follows {job attempted : Job}
    (run : (processor.attempt .courier now job).RunsAmong World.Grown before calls attempted
      after)
    (follows : processor.Follows log before.jobs) (member : job ∈ before.jobs.jobs)
    (due : job.isDue now = true) :
    (∃ result, attempted = processor.attempted now job result) ∧ before.Grown after ∧
      processor.Follows (log ++ calls.map (now, ·)) after.jobs ∧
      PassLog.Begun (log ++ calls.map (now, ·)) now job.id
        (log ++ calls.map (now, ·)).length := by
  rw [attempt_courier] at run
  obtain ⟨found, result, middle, later, acted, answers, goesOn, rfl⟩ := Program.runsAmong_call run
  have same := World.Answers.jobs rfl answers
  have reached := acted.trans (World.grown_of_jobs same)
  have begun := PassLog.begun_snoc log now job.beginAttempt result
  have noted : processor.Follows (log ++ [(now, ⟨.deliver job.beginAttempt, result⟩)])
      middle.jobs := by
    rw [same]
    apply (follows.grown acted).note
    · rintro time other new
      cases new
    · rintro time delivered answer new
      cases new
      exact ⟨job, acted.mem member, rfl, due⟩
    · rintro time asked limit listed new
      cases new
  rw [List.map_cons, List.append_cons]
  cases result with
  | ok done =>
      cases goesOn with
      | done late =>
          rw [List.map_nil, List.append_nil]
          exact ⟨⟨.ok (), rfl⟩, reached.trans late, noted.grown late, begun⟩
  | error error =>
      obtain ⟨_, told, between, rest, observes, ends, rfl⟩ :=
        Program.runsAmong_bind World.Grown.refl goesOn
      obtain ⟨grown, asides⟩ := (observe_gentle ..).runsAmong_preserves World.Grown
        World.Grown.trans id
        (fun kind answers => World.grown_of_jobs
          (World.Answers.jobs (Call.writes_of_aside kind.1) answers)) observes
      obtain ⟨noted, begun⟩ := noted.note_asides asides now begun
      cases ends with
      | done late =>
          rw [List.append_nil]
          exact ⟨⟨.error error, rfl⟩, reached.trans (grown.trans late),
            noted.grown (grown.trans late), begun⟩

theorem attemptAll_follows {listed : List Job} {result : Except QueueError Unit}
    (run : (processor.attemptAll .courier now listed).outcome.RunsAmong World.Grown before calls
      result after)
    (follows : processor.Follows log before.jobs) (awaits : Awaits now listed before.jobs)
    (once : (listed.map Job.id).Nodup) :
    processor.Follows (log ++ calls.map (now, ·)) after.jobs := by
  induction listed generalizing before calls log with
  | nil =>
      cases run with
      | done acted => simpa using follows.grown acted
  | cons job rest ih =>
      rw [attemptAll_outcome] at run
      obtain ⟨attempted, first, middle, second, attempts, goesOn, rfl⟩ :=
        Program.runsAmong_bind World.Grown.refl run
      obtain ⟨member, due⟩ := awaits job List.mem_cons_self
      obtain ⟨⟨outcome, rfl⟩, grown, noted, begun⟩ := attempt_follows attempts follows member due
      obtain ⟨found, answer, stored, later, acted, answers, onward, rfl⟩ :=
        Program.runsAmong_call goesOn
      have reached := grown.trans acted
      rw [List.map_append, ← List.append_assoc, List.map_cons, List.append_cons]
      cases answers with
      | performed performed =>
          obtain ⟨_, _, ⟨error, rfl, same⟩ | ⟨rfl, replaced⟩⟩ := World.perform_updateJob performed
          · have refused := (noted.grown acted).note (now,
              ⟨.updateJob (processor.attempted now job outcome), .error error⟩)
              (fun _ _ new => by cases new) (fun _ _ _ new => by cases new)
              (fun _ _ _ _ new => by cases new)
            cases onward with
            | done late =>
                rw [← same] at refused
                simpa using refused.grown late
          · have storedNow := (noted.grown acted).replace outcome rfl
              (by rw [id_attempted]; exact begun)
              ⟨job, reached.mem member, (id_attempted ..).symm⟩
            rw [← replaced] at storedNow
            refine ih onward storedNow ?_ (List.nodup_cons.mp once).2
            intro other otherMember
            obtain ⟨otherStored, otherDue⟩ := awaits other (List.mem_cons_of_mem _ otherMember)
            rw [replaced]
            refine ⟨List.mem_map.mpr ⟨other, reached.mem otherStored, if_neg ?_⟩, otherDue⟩
            rw [id_attempted]
            intro sameId
            exact (List.nodup_cons.mp once).1 (sameId ▸ List.mem_map_of_mem otherMember)

theorem pass_follows {result : Except QueueError Nat}
    (run : (processor.pass .courier now).outcome.RunsAmong World.Grown before calls result after)
    (follows : processor.Follows log before.jobs) :
    processor.Follows (log ++ calls.map (now, ·)) after.jobs := by
  rw [pass_outcome] at run
  obtain ⟨found, answer, middle, later, acted, answers, goesOn, rfl⟩ := Program.runsAmong_call run
  have same := World.Answers.jobs rfl answers
  have lists : ∀ listed, answer = .ok listed →
      found.jobs.Lists now processor.batchSize listed := by
    rintro listed rfl
    cases answers with
    | performed performed =>
        rw [World.perform_dueJobs performed]
        exact JobStore.lists_due ..
    | listed performed lists => exact lists
  have grown := follows.grown acted
  have noted : processor.Follows (log ++ [(now, ⟨.dueJobs now processor.batchSize, answer⟩)])
      middle.jobs := by
    rw [same]
    apply grown.note
    · rintro time job new
      cases new
    · rintro time job delivered new
      cases new
    · rintro time asked limit listed new
      cases new
      exact lists listed rfl
  rw [List.map_cons, List.append_cons]
  cases answer with
  | error error =>
      cases goesOn with
      | done late => simpa using noted.grown late
  | ok listed =>
      obtain ⟨ended, first, reached, second, attempts, ends, rfl⟩ :=
        Program.runsAmong_bind World.Grown.refl goesOn
      obtain ⟨awaits, once⟩ := (lists listed rfl).awaits grown.distinct
      have followed := attemptAll_follows attempts noted (same ▸ awaits) once
      have noMore : second = [] ∧ reached.Grown after := by
        cases ended with
        | error error =>
            cases ends with
            | done late => exact ⟨rfl, late⟩
        | ok done =>
            cases ends with
            | done late => exact ⟨rfl, late⟩
      obtain ⟨rfl, late⟩ := noMore
      rw [List.append_nil]
      exact followed.grown late

/-- Passes one after the other at any times, however they end, among others who add jobs; with
the log of their calls. -/
inductive Course (processor : Processor) : World → PassLog → World → Prop where
  | done {before after : World} (acted : before.Grown after) : Course processor before [] after
  | pass {before middle after : World} {now : Timestamp} {calls : List Answered}
      {result : Except QueueError Nat} {later : PassLog}
      (run : (processor.pass .courier now).outcome.RunsAmong World.Grown before calls result
        middle)
      (goesOn : Course processor middle later after) :
      Course processor before (calls.map (now, ·) ++ later) after

theorem course_follows {made : PassLog} (course : processor.Course before made after)
    (follows : processor.Follows log before.jobs) :
    processor.Follows (log ++ made) after.jobs := by
  induction course generalizing log with
  | done acted => simpa using follows.grown acted
  | pass run goesOn ih =>
      rw [← List.append_assoc]
      exact ih (pass_follows run follows)

def keepLog (processor : Processor) : List Timestamp → World → Option (PassLog × World)
  | [], world => some ([], world)
  | now :: rest, world => do
      let (_, calls, world) ← (processor.pass .courier now).outcome.record world
      let (log, world) ← processor.keepLog rest world
      return (calls.map (now, ·) ++ log, world)

theorem course_of_keepLog {times : List Timestamp} {made : PassLog}
    (kept : processor.keepLog times before = some (made, after)) :
    processor.Course before made after := by
  induction times generalizing before made with
  | nil =>
      cases kept
      exact .done (.refl _)
  | cons now rest ih =>
      obtain ⟨⟨result, calls, middle⟩, recorded, kept⟩ := Option.bind_eq_some_iff.mp kept
      obtain ⟨⟨later, last⟩, goesOn, same⟩ := Option.bind_eq_some_iff.mp kept
      cases same
      exact .pass (Program.runsAmong_of_record World.Grown.refl recorded) (ih goesOn)

/-- A state that is retried comes of a failed attempt, and is due after the delay. -/
theorem retrying_attempted {earlier : Job} {result : Except QueueError Unit}
    (retrying : (processor.attempted now earlier result).status = .retrying) :
    (∃ error, result = .error error) ∧
      (processor.attempted now earlier result).nextRetryAt = now.plusSaturating
        (processor.backoff.delay (processor.attempted now earlier result).attempts) ∧
      earlier.attempts.toNat + 1 = (processor.attempted now earlier result).attempts.toNat := by
  cases result with
  | ok done => cases retrying
  | error error =>
      rw [status_attempted_error] at retrying
      have left : ¬processor.backoff.maxAttempts ≤ earlier.beginAttempt.attempts := by
        intro exhausted
        rw [if_pos exhausted] at retrying
        cases retrying
      refine ⟨⟨error, rfl⟩, ?_, ?_⟩
      · simp [attempted, Job.recordFailure, Backoff.isExhausted, left]
      · rw [attempts_attempted]
        exact (Job.toNat_beginAttempt (Job.lt_of_beginAttempt_lt (UInt32.not_le.mp left))).symm

end Processor

theorem Processor.Follows.stands {processor : Processor} {log : PassLog} {store : JobStore}
    (follows : processor.Follows log store) {place later : Nat} {time : Timestamp} {job : Job}
    (stores : log.Stores place time job)
    (next : ∀ between moment delivered, place < between → between < later →
      log.Delivers between moment delivered → delivered.id ≠ job.id) :
    log.Stands job place later := by
  intro between moment state after before stored same
  obtain ⟨_, start, delivered, ahead, delivers, sameId, none⟩ := follows.outcome stored
  -- The attempt at the other state began before this one was stored, or it is the next.
  exfalso
  rcases Nat.lt_trichotomy start place with earlier | rfl | since
  · exact none place time job earlier after stores same.symm
  · obtain ⟨result, found⟩ := delivers
    rw [PassLog.Stores, found] at stores
    cases stores
  · exact next start _ delivered since (Nat.lt_trans ahead before) delivers (sameId.trans same)

/-- A processor makes passes at any times, also backwards, whatever becomes of its calls, while
others add jobs.  Where a failed attempt at a time leaves a job to be retried, the next delivery
of the job is in a pass that is not before the end of the delay or, if that is never, the last
point in time.  From that time on every listing of due jobs has the job, as long as no other
state of it was stored, unless the batch is full of due jobs that sort before it. -/
theorem retries_keep_their_delay {processor : Processor} {world last : World} {log : PassLog}
    (course : processor.Course world log last) (distinct : world.jobs.Distinct) {place : Nat}
    {time : Timestamp} {job : Job} (stores : log.Stores place time job)
    (retrying : job.status = .retrying) (plain : time.Plain) :
    (∃ earlier error, job = processor.attempted time earlier (.error error) ∧
      earlier.attempts.toNat + 1 = job.attempts.toNat) ∧
    (∀ later now delivered, place < later → log.Delivers later now delivered →
      delivered.id = job.id →
      (∀ between moment other, place < between → between < later →
        log.Delivers between moment other → other.id ≠ job.id) → now.Plain →
      min (time.ticks + (processor.backoff.delay job.attempts).nanos) Timestamp.latest.ticks ≤
        now.ticks) ∧
    ∀ later now listed, place < later → log.ListsDue later now listed →
      log.Stands job place later → now.Plain →
      min (time.ticks + (processor.backoff.delay job.attempts).nanos) Timestamp.latest.ticks ≤
        now.ticks →
      job ∈ listed ∨ Crowds processor.batchSize now job listed := by
  have follows : processor.Follows log last.jobs := by
    have followed := Processor.course_follows course (Processor.follows_empty distinct)
    rwa [List.nil_append] at followed
  obtain ⟨⟨earlier, result, rfl⟩, _⟩ := follows.outcome stores
  obtain ⟨⟨error, rfl⟩, putOff, counted⟩ := Processor.retrying_attempted retrying
  obtain ⟨duePlain, dueTicks⟩ := plain.plusSaturating
    (processor.backoff.delay (processor.attempted time earlier (.error error)).attempts)
  rw [← putOff] at duePlain dueTicks
  rw [← dueTicks]
  refine ⟨⟨earlier, error, rfl, counted⟩, ?_, ?_⟩
  · intro later now delivered after delivers same next nowPlain
    have due := follows.delivers stores after delivers same (follows.stands stores next)
    rw [Job.isDue, Bool.and_eq_true] at due
    exact (duePlain.atMost_iff_ticks nowPlain).mp due.2
  · intro later now listed after lists stands nowPlain since
    apply follows.lists stores after lists stands
    rw [Job.isDue, retrying]
    exact (duePlain.atMost_iff_ticks nowPlain).mpr since

namespace Sample

inductive Trace where
  | stored (job : Job)
  | delivered (job : Job)
  | listed (jobs : List Job)
  | other
  deriving DecidableEq

def traceOf : Answered → Trace
  | ⟨.updateJob job, .ok ()⟩ => .stored job
  | ⟨.deliver job, _⟩ => .delivered job
  | ⟨.dueJobs _ _, .ok listed⟩ => .listed listed
  | _ => .other

section Traces

variable {log : PassLog} {place : Nat} {time : Timestamp} {job : Job} {listed : List Job}

theorem stores_of_traceOf (found : (log.map fun entry => (entry.1, traceOf entry.2))[place]? =
    some (time, .stored job)) : log.Stores place time job := by
  rw [List.getElem?_map] at found
  obtain ⟨⟨moment, request, answer⟩, isAt, same⟩ := Option.map_eq_some_iff.mp found
  rw [Prod.mk.injEq] at same
  obtain ⟨rfl, traced⟩ := same
  unfold traceOf at traced
  split at traced
  all_goals cases traced
  all_goals rename_i made
  all_goals cases made
  exact isAt

theorem delivers_of_traceOf (found : (log.map fun entry => (entry.1, traceOf entry.2))[place]? =
    some (time, .delivered job)) : log.Delivers place time job := by
  rw [List.getElem?_map] at found
  obtain ⟨⟨moment, request, answer⟩, isAt, same⟩ := Option.map_eq_some_iff.mp found
  rw [Prod.mk.injEq] at same
  obtain ⟨rfl, traced⟩ := same
  unfold traceOf at traced
  split at traced
  all_goals cases traced
  all_goals rename_i made
  all_goals cases made
  exact ⟨_, isAt⟩

theorem listsDue_of_traceOf (found : (log.map fun entry => (entry.1, traceOf entry.2))[place]? =
    some (time, .listed listed)) : log.ListsDue place time listed := by
  rw [List.getElem?_map] at found
  obtain ⟨⟨moment, request, answer⟩, isAt, same⟩ := Option.map_eq_some_iff.mp found
  rw [Prod.mk.injEq] at same
  obtain ⟨rfl, traced⟩ := same
  unfold traceOf at traced
  split at traced
  all_goals cases traced
  all_goals rename_i made
  all_goals cases made
  exact ⟨_, _, isAt⟩

end Traces

def hopelessJob : Job := .create (.ofNat 1) (.ofSeconds 1) "a" "one"

def hopelessWorld : World := {
  jobs := ⟨[hopelessJob]⟩
  courier := { outcomes := [("*", [some (.delivery "down")])] } }

def retriedJob : Job := { hopelessJob with
  status := .retrying
  attempts := 1
  nextRetryAt := .ofSeconds 64
  lastError := some "down"
  lastAttemptAt := some (.ofSeconds 4) }

/-- The job fails at second 4.  A pass at an earlier time leaves it alone, and one a minute
later lists it and tries it again. -/
theorem retry_after_a_minute :
    ∃ log last, Processor.Course {} hopelessWorld log last ∧ hopelessWorld.jobs.Distinct ∧
      log.Stores 2 (.ofSeconds 4) retriedJob ∧ log.ListsDue 3 (.ofSeconds 3) [] ∧
      log.ListsDue 4 (.ofSeconds 64) [retriedJob] ∧
      log.Delivers 5 (.ofSeconds 64) retriedJob.beginAttempt ∧
      (Timestamp.ofSeconds 4).Plain ∧ (Timestamp.ofSeconds 64).Plain ∧
      min ((Timestamp.ofSeconds 4).ticks + 60000000000) Timestamp.latest.ticks ≤
        (Timestamp.ofSeconds 64).ticks ∧
      (retriedJob ∈ [retriedJob] ∨ Crowds 50 (.ofSeconds 64) retriedJob [retriedJob]) := by
  have distinct : hopelessWorld.jobs.Distinct := by
    show List.Nodup _
    decide +kernel
  have plain : (Timestamp.ofSeconds 4).Plain := by decide
  have plainLater : (Timestamp.ofSeconds 64).Plain := by decide
  obtain ⟨⟨log, last⟩, kept, traced⟩ :
      ∃ one ∈ Processor.keepLog {} [.ofSeconds 4, .ofSeconds 3, .ofSeconds 64] hopelessWorld,
        (one.1.map fun entry => (entry.1, traceOf entry.2)).take 6 =
          [(.ofSeconds 4, .listed [hopelessJob]),
            (.ofSeconds 4, .delivered hopelessJob.beginAttempt),
            (.ofSeconds 4, .stored retriedJob),
            (.ofSeconds 3, .listed []),
            (.ofSeconds 64, .listed [retriedJob]),
            (.ofSeconds 64, .delivered retriedJob.beginAttempt)] := by
    decide +kernel
  have course := Processor.course_of_keepLog kept
  have places : ∀ place < 6, (log.map fun entry => (entry.1, traceOf entry.2))[place]? =
      [(Timestamp.ofSeconds 4, Trace.listed [hopelessJob]),
        (.ofSeconds 4, .delivered hopelessJob.beginAttempt), (.ofSeconds 4, .stored retriedJob),
        (.ofSeconds 3, .listed []), (.ofSeconds 64, .listed [retriedJob]),
        (.ofSeconds 64, .delivered retriedJob.beginAttempt)][place]? := by
    intro place early
    rw [← traced, List.getElem?_take_of_lt early]
  have stores := stores_of_traceOf (places 2 (by decide))
  have listsEarly := listsDue_of_traceOf (places 3 (by decide))
  have lists := listsDue_of_traceOf (places 4 (by decide))
  have delivers := delivers_of_traceOf (places 5 (by decide))
  have delay : (Backoff.delay ({} : Processor).backoff retriedJob.attempts).nanos =
      60000000000 := by
    decide +kernel
  obtain ⟨_, waits, selects⟩ := retries_keep_their_delay course distinct stores rfl plain
  rw [delay] at waits selects
  have between : ∀ place, 2 < place → place < 5 → (∀ moment other,
      ¬log.Stores place moment other) ∧ ∀ moment other, ¬log.Delivers place moment other := by
    intro place after before
    rcases (by omega : place = 3 ∨ place = 4) with rfl | rfl
    · exact listsEarly.alone
    · exact lists.alone
  refine ⟨log, last, course, distinct, stores, listsEarly, lists, delivers, plain, plainLater,
    ?_, ?_⟩
  · exact waits 5 _ _ (by decide) delivers rfl
      (fun place moment other after before found =>
        absurd found ((between place after before).2 moment other)) plainLater
  · exact selects 4 _ _ (by decide) lists
      (fun place moment other after before found =>
        absurd found ((between place after (Nat.lt_trans before (by decide))).1 moment other))
      plainLater (by decide +kernel)

end Sample

end WebhookRelay
