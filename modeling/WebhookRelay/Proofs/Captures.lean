import WebhookRelay.Proofs.Filing
import WebhookRelay.Proofs.Reliable

/-!
# Captures are exact

A capture makes one entry for each failed job that has none, in the order in which it reads
the jobs, and nothing else.  Where a store fails it stops, and what it has made by then
stays; the next capture makes the rest.
-/

set_option autoImplicit false

namespace WebhookRelay

/-! ## Jobs without an entry -/

theorem JobStore.status_of_mem_byStatus {store : JobStore} {job : Job} {status : JobStatus}
    (member : job ∈ store.byStatus status) : job.status = status := by
  have filtered := List.mem_mergeSort.mp member
  simpa using (List.mem_filter.mp filtered).2

theorem JobStore.Distinct.byStatus {store : JobStore} (distinct : store.Distinct)
    (status : JobStatus) : ((store.byStatus status).map Job.id).Nodup := by
  have filtered : ((store.jobs.filter fun job => job.status = status).map Job.id).Nodup :=
    distinct.sublist (List.filter_sublist.map Job.id)
  exact ((List.mergeSort_perm _ JobStore.olderOrSame).map Job.id).nodup_iff.mpr filtered

namespace DeadLetterStore

def missing (store : DeadLetterStore) (jobs : List Job) : List Job :=
  jobs.filter fun job => !store.containsJob job.id

variable {store after : DeadLetterStore} {jobs more : List Job} {new : List DeadLetter}

theorem missing_append (store : DeadLetterStore) (jobs more : List Job) :
    store.missing (jobs ++ more) = store.missing jobs ++ store.missing more :=
  List.filter_append ..

theorem containsJob_added (added : after.entries = store.entries ++ new) (jobId : Uuid) :
    after.containsJob jobId =
      (store.containsJob jobId || new.any fun entry => entry.jobId = jobId) := by
  rw [containsJob, containsJob, added, List.any_append]

theorem missing_of_others (added : after.entries = store.entries ++ new)
    (others : ∀ entry ∈ new, ∀ job ∈ jobs, entry.jobId ≠ job.id) :
    after.missing jobs = store.missing jobs := by
  refine List.filter_congr fun job member => ?_
  have without : (new.any fun entry => entry.jobId = job.id) = false := by
    rw [List.any_eq_false]
    intro entry entryMember
    simpa using others entry entryMember job member
  rw [containsJob_added added, without, Bool.or_false]

theorem missing_stays_nil (added : after.entries = store.entries ++ new)
    (none : store.missing jobs = []) : after.missing jobs = [] := by
  rw [missing, List.filter_eq_nil_iff] at none ⊢
  intro job member
  have contained := none job member
  rw [containsJob_added added]
  simp only [Bool.not_eq_true', Bool.not_eq_false] at contained ⊢
  rw [contained, Bool.true_or]

end DeadLetterStore

/-- The failed jobs that have no entry, in the order in which a capture reads them. -/
def World.uncaptured (world : World) : List Job :=
  world.deadLetters.missing (world.jobs.byStatus .failed)

theorem World.uncaptured_eq_nil {world : World} : world.uncaptured = [] ↔
    ∀ job ∈ world.jobs.jobs, job.status = .failed →
      ∃ entry ∈ world.deadLetters.entries, entry.jobId = job.id := by
  simp [uncaptured, DeadLetterStore.missing, JobStore.byStatus, List.mem_mergeSort,
    DeadLetterStore.containsJob]

/-! ## One job after the other -/

/-- What a capture of some jobs makes of the world: as long as no id for an entry was drawn
twice, there is one new entry for each of the first jobs that had none, and for all of them
if the capture succeeds. -/
structure World.Captures (now : Timestamp) (jobs : List Job) (before : World)
    (result : Except QueueError Nat) (after : World) : Prop where
  sameEvents : after.events = before.events
  sameJobs : after.jobs = before.jobs
  adds : after.ids.Unrepeated .deadLetter → ∃ made new,
    before.deadLetters.missing jobs = made ++ after.deadLetters.missing jobs ∧
    after.deadLetters.entries = before.deadLetters.entries ++ new ∧
    List.Forall₂ (fun job entry => entry = DeadLetter.ofJob entry.id job now) made new ∧
    ∀ count, result = .ok count →
      count = new.length ∧ after.deadLetters.missing jobs = []

namespace World.Captures

variable {now : Timestamp} {jobs more : List Job} {before middle after : World}
  {result : Except QueueError Nat}

theorem unchanged (same : before.SameStores after)
    (none : ∀ count, result = .ok count → count = 0 ∧ before.deadLetters.missing jobs = []) :
    before.Captures now jobs result after := by
  refine ⟨same.events, same.jobs, fun _ => ⟨[], [], ?_, ?_, .nil, ?_⟩⟩ <;>
    rw [same.deadLetters]
  · rfl
  · rw [List.append_nil]
  · exact none

theorem single {job : Job} {id : Uuid} (events : after.events = before.events)
    (jobs : after.jobs = before.jobs) (without : before.deadLetters.containsJob job.id = false)
    (added : after.ids.Unrepeated .deadLetter → after.deadLetters.entries =
      before.deadLetters.entries ++ [DeadLetter.ofJob id job now]) :
    before.Captures now [job] (.ok 1) after := by
  refine ⟨events, jobs, fun unrepeated => ?_⟩
  have appended := added unrepeated
  have complete : after.deadLetters.missing [job] = [] := by
    simp [DeadLetterStore.missing, DeadLetterStore.containsJob_added appended,
      DeadLetter.ofJob]
  refine ⟨[job], [DeadLetter.ofJob id job now], ?_, appended, .cons rfl .nil, ?_⟩
  · rw [complete]
    simp [DeadLetterStore.missing, without]
  · intro count isCount
    cases isCount
    exact ⟨rfl, complete⟩

theorem about {made : List Job} {new : List DeadLetter}
    (captured : List.Forall₂ (fun job entry => entry = DeadLetter.ofJob entry.id job now)
      made new) : ∀ entry ∈ new, ∃ job ∈ made, entry.jobId = job.id := by
  induction captured with
  | nil => nofun
  | cons isCapture _ ih =>
      intro entry member
      rcases List.mem_cons.mp member with rfl | later
      · exact ⟨_, List.mem_cons_self, by rw [isCapture]; rfl⟩
      · obtain ⟨job, jobMember, same⟩ := ih entry later
        exact ⟨job, List.mem_cons_of_mem _ jobMember, same⟩

theorem leaves (distinct : ((jobs ++ more).map Job.id).Nodup) {made : List Job}
    {new : List DeadLetter}
    (missed : before.deadLetters.missing jobs = made ++ after.deadLetters.missing jobs)
    (added : after.deadLetters.entries = before.deadLetters.entries ++ new)
    (captured : List.Forall₂ (fun job entry => entry = DeadLetter.ofJob entry.id job now)
      made new) : after.deadLetters.missing more = before.deadLetters.missing more := by
  refine DeadLetterStore.missing_of_others added fun entry entryMember other otherMember => ?_
  obtain ⟨job, jobMember, same⟩ := about captured entry entryMember
  have isMissing : job ∈ before.deadLetters.missing jobs := by
    rw [missed]
    exact List.mem_append_left _ jobMember
  have member : job ∈ jobs := (List.mem_filter.mp isMissing).1
  rw [List.map_append] at distinct
  have different := (List.nodup_append.mp distinct).2.2 job.id (List.mem_map_of_mem member)
    other.id (List.mem_map_of_mem otherMember)
  rw [same]
  exact different

/-- A capture that stops has not come to the jobs after that. -/
theorem stopped {error : QueueError} (distinct : ((jobs ++ more).map Job.id).Nodup)
    (captures : before.Captures now jobs (.error error) after) :
    before.Captures now (jobs ++ more) (.error error) after := by
  refine ⟨captures.sameEvents, captures.sameJobs, fun unrepeated => ?_⟩
  obtain ⟨made, new, missed, added, captured, _⟩ := captures.adds unrepeated
  refine ⟨made, new, ?_, added, captured, nofun⟩
  rw [DeadLetterStore.missing_append, DeadLetterStore.missing_append, missed,
    leaves distinct missed added captured, List.append_assoc]

theorem followed {count : Nat} (distinct : ((jobs ++ more).map Job.id).Nodup)
    (first : before.Captures now jobs (.ok count) middle)
    (second : middle.Captures now more result after) (later : middle.FilesOn after) :
    before.Captures now (jobs ++ more) (result.map (count + ·)) after := by
  refine ⟨second.sameEvents.trans first.sameEvents, second.sameJobs.trans first.sameJobs,
    fun unrepeated => ?_⟩
  have earlier := unrepeated.earlier later.supply later.drawn
  obtain ⟨made, new, missed, added, captured, counted⟩ := first.adds earlier
  obtain ⟨isCount, complete⟩ := counted count rfl
  obtain ⟨made', new', missed', added', captured', counted'⟩ := second.adds unrepeated
  have stillComplete : after.deadLetters.missing jobs = [] :=
    DeadLetterStore.missing_stays_nil added' complete
  refine ⟨made ++ made', new ++ new', ?_, ?_, List.rel_append captured captured', ?_⟩
  · rw [DeadLetterStore.missing_append, DeadLetterStore.missing_append, stillComplete,
      List.nil_append, missed, complete, List.append_nil, List.append_assoc, ← missed',
      leaves distinct missed added captured]
  · rw [added', added, List.append_assoc]
  · intro total isTotal
    cases result with
    | error error => cases isTotal
    | ok rest =>
        cases isTotal
        obtain ⟨isRest, restComplete⟩ := counted' rest rfl
        refine ⟨by rw [isCount, isRest, List.length_append], ?_⟩
        rw [DeadLetterStore.missing_append, stillComplete, restComplete, List.append_nil]

end World.Captures

theorem World.enters_of_newId {world drawn : World} {id : Uuid} {job : Job}
    (filed : world.ids.Unrepeated .deadLetter → Filed world)
    (drew : world.perform (.newId .deadLetter) = some (id, drawn))
    (unrepeated : drawn.ids.Unrepeated .deadLetter) (member : job ∈ world.jobs.jobs)
    (without : world.deadLetters.containsJob job.id = false) (failed : job.status = .failed)
    (now : Timestamp) : drawn.Enters (.ofJob id job now) := by
  have same := World.perform_sameStores rfl drew
  have supply : drawn.ids.ids = world.ids.ids := (World.perform_supply drew).1
  have isId : id = world.ids.ids .deadLetter (world.ids.drawn .deadLetter) := by
    cases drew
    rfl
  have oneMore : drawn.ids.drawn .deadLetter = world.ids.drawn .deadLetter + 1 := by
    cases drew
    rfl
  have earlier : world.ids.Unrepeated .deadLetter := unrepeated.earlier supply (by omega)
  refine ⟨⟨world.ids.drawn .deadLetter, ?_, ?_⟩, ?_, job, ?_, failed, now, rfl⟩
  · omega
  · rw [supply]
    exact isId
  · rw [same.deadLetters]
    intro other otherMember
    refine ⟨?_, DeadLetterStore.not_containsJob without other otherMember⟩
    intro sameId
    obtain ⟨place, isPlace, isOther⟩ := (filed earlier).numbered other otherMember
    have different := unrepeated (world.ids.drawn .deadLetter) (by omega) place isPlace
    rw [supply, ← isOther, ← isId] at different
    exact different sameId
  · rw [same.jobs]
    exact member

namespace DeadLetter

variable {who : Nat} {ledger : Ledger} {now : Timestamp}

theorem captureJob_files {job : Job} (member : job ∈ ledger.world.jobs.jobs)
    (failed : job.status = .failed) :
    (captureJob now job).outcome.Upholds .filing who
      (fun result current => ledger.world.Captures now [job] result current.world) ledger := by
  rw [captureJob_outcome]
  refine .asks Contract.filing_undisturbed fun _ => ⟨trivial, ?_⟩
  intro answer world performed looked
  have same := World.perform_sameStores rfl performed
  match answer with
  | .error error =>
      exact .ended Contract.filing_undisturbed fun _ => .unchanged same nofun
  | .ok true =>
      have contained := World.perform_containsJob performed
      refine .ended Contract.filing_undisturbed fun _ => .unchanged same ?_
      intro count isCount
      cases isCount
      exact ⟨rfl, by simp [DeadLetterStore.missing, ← contained]⟩
  | .ok false =>
      have without := World.perform_containsJob performed
      refine .asks Contract.filing_undisturbed fun _ => ⟨trivial, ?_⟩
      intro id drawn drew _
      replace drew : world.perform (.newId .deadLetter) = some (id, drawn) := drew
      have sameDrawn := same.trans (World.perform_sameStores rfl drew)
      have stillMember : job ∈ world.jobs.jobs := by
        rw [same.jobs]
        exact member
      have stillWithout : world.deadLetters.containsJob job.id = false := by
        rw [same.deadLetters]
        exact without.symm
      have enters (unrepeated : drawn.ids.Unrepeated .deadLetter) :
          drawn.Enters (ofJob id job now) :=
        World.enters_of_newId looked.2 drew unrepeated stillMember stillWithout failed now
      refine .asks Contract.filing_undisturbed fun _ => ⟨enters, ?_⟩
      intro answer last created _
      replace created : drawn.perform (.createEntry (ofJob id job now)) =
          some (answer, last) := created
      obtain ⟨events, jobs, ⟨error, refused, unchanged⟩ | ⟨done, put⟩⟩ :=
        World.perform_createEntry created
      · rw [refused]
        exact .ended Contract.filing_undisturbed fun _ =>
          .unchanged (sameDrawn.trans ⟨events, jobs, unchanged⟩) nofun
      · have ids : last.ids = drawn.ids := World.perform_ids created fun _ => nofun
        have appended (unrepeated : last.ids.Unrepeated .deadLetter) :
            last.deadLetters.entries =
              ledger.world.deadLetters.entries ++ [ofJob id job now] := by
          have isNew := (enters (ids ▸ unrepeated)).2.1
          rw [put, DeadLetterStore.put_of_new fun other isOther => (isNew other isOther).1,
            sameDrawn.deadLetters]
        rw [done]
        exact .ended Contract.filing_undisturbed fun _ =>
          .single (events.trans sameDrawn.events) (jobs.trans sameDrawn.jobs) without.symm
            appended

theorem captureAll_files {jobs : List Job}
    (stored : ∀ job ∈ jobs, job ∈ ledger.world.jobs.jobs ∧ job.status = .failed)
    (distinct : (jobs.map Job.id).Nodup) (sound : Contract.filing.sound ledger) :
    (captureAll now jobs).outcome.Upholds .filing who
      (fun result current => ledger.world.Captures now jobs result current.world) ledger := by
  induction jobs generalizing ledger with
  | nil =>
      refine .ended Contract.filing_undisturbed fun _ => .unchanged (.refl _) ?_
      intro count isCount
      cases isCount
      exact ⟨rfl, rfl⟩
  | cons job rest ih =>
      obtain ⟨member, failed⟩ := stored job List.mem_cons_self
      rw [captureAll_outcome]
      refine .bind sound (captureJob_files member failed) ?_
      intro made middle middleSound _ first
      cases made with
      | error error =>
          exact .ended Contract.filing_undisturbed fun _ => first.stopped distinct
      | ok count =>
          -- What the first job leaves of the file is what the rest of the batch finds.
          have stillStored : ∀ other ∈ rest,
              other ∈ middle.world.jobs.jobs ∧ other.status = .failed := by
            rw [first.sameJobs]
            intro other otherMember
            exact stored other (List.mem_cons_of_mem _ otherMember)
          have others := ih stillStored (List.nodup_cons.mp distinct).2 middleSound
          refine .bind middleSound (others.since (Contract.filing.later_refl middle)) ?_
          intro more last _ _ ⟨later, second⟩
          have both := first.followed distinct second later
          cases more with
          | error error => exact .ended Contract.filing_undisturbed fun _ => both
          | ok total => exact .ended Contract.filing_undisturbed fun _ => both

theorem capture_files (now : Timestamp) :
    (capture now).outcome.Upholds .filing who
      (fun result current =>
        ledger.world.Captures now (ledger.world.jobs.byStatus .failed) result current.world)
      ledger := by
  rw [capture_outcome]
  refine .asks Contract.filing_undisturbed fun sound => ⟨trivial, ?_⟩
  intro answer world performed reached
  have same := World.perform_sameStores rfl performed
  cases answer with
  | error error => exact .ended Contract.filing_undisturbed fun _ => .unchanged same nofun
  | ok failed =>
      have read : failed = ledger.world.jobs.byStatus .failed :=
        World.perform_jobsByStatus performed
      have stored : ∀ job ∈ failed, job ∈ world.jobs.jobs ∧ job.status = .failed := by
        rw [read, same.jobs]
        intro job member
        exact ⟨JobStore.mem_byStatus member, JobStore.status_of_mem_byStatus member⟩
      have distinct : (failed.map Job.id).Nodup := by
        rw [read]
        exact sound.1.byStatus .failed
      refine (captureAll_files stored distinct reached).weaken ?_
      intro result current _ captures
      rw [← read]
      refine ⟨captures.sameEvents.trans same.events, captures.sameJobs.trans same.jobs, ?_⟩
      intro unrepeated
      obtain ⟨made, new, missed, added, captured, counted⟩ := captures.adds unrepeated
      rw [show (Ledger.answered ledger who _ _ world).world.deadLetters =
        ledger.world.deadLetters from same.deadLetters] at missed added
      exact ⟨made, new, missed, added, captured, counted⟩

end DeadLetter

/-! ## Captures of which nothing is refused, and captures that find nothing -/

section Runs

variable {world after : World} {now : Timestamp}

theorem World.Reliable.createEntry (reliable : world.Reliable) (entry : DeadLetter) :
    world.perform (.createEntry entry) =
      some (.ok (), { world with deadLetters := world.deadLetters.put entry }) := by
  simp only [World.perform, reliable.unlessRefused]

theorem World.unlessRefused_reading_rest {ε α : Type} {site : Site}
    {errorOf : Refusal → Option ε} {value : World → α} {answer : Except ε α}
    (performed : unlessRefused site errorOf world (reading value) = some (answer, after)) :
    after = { world with refusals := after.refusals } := by
  have taken : (world.takeRefusal site).2 =
      { world with refusals := (world.takeRefusal site).2.refusals } := by
    unfold takeRefusal
    split <;> rfl
  obtain ⟨_, _, rfl⟩ | read := unlessRefused_cases performed
  · exact taken
  · obtain ⟨_, rfl⟩ := reading_eq_some.mp read
    exact taken

namespace DeadLetter

theorem captureAll_nothing {jobs : List Job} {result : Except QueueError Nat}
    (none : world.deadLetters.missing jobs = [])
    (run : (captureAll now jobs).outcome.run world = some (result, after)) :
    after = { world with refusals := after.refusals } ∧
      ∀ count, result = .ok count → count = 0 := by
  induction jobs generalizing world after result with
  | nil =>
      cases run
      exact ⟨rfl, fun count isCount => by cases isCount; rfl⟩
  | cons job rest ih =>
      have contained : world.deadLetters.containsJob job.id = true := by
        have all := List.filter_eq_nil_iff.mp none job List.mem_cons_self
        simpa using all
      have others : world.deadLetters.missing rest = [] := by
        rw [DeadLetterStore.missing, List.filter_eq_nil_iff] at none ⊢
        exact fun other member => none other (List.mem_cons_of_mem _ member)
      rw [captureAll_outcome, captureJob_outcome] at run
      obtain ⟨answer, middle, performed, run⟩ := Program.run_call_eq_some.mp run
      have rest' : middle = { world with refusals := middle.refusals } :=
        World.unlessRefused_reading_rest performed
      cases answer with
      | error error =>
          cases run
          exact ⟨rest', nofun⟩
      | ok found =>
          obtain rfl : found = true := by
            rw [World.perform_containsJob performed]
            exact contained
          replace run : ((captureAll now rest).outcome.andThen
              fun more => .done (.ok (0 + more))).run middle = some (result, after) := run
          rw [Program.andThen, Program.run_bind] at run
          obtain ⟨⟨more, last⟩, ran, run⟩ := Option.bind_eq_some_iff.mp run
          have stillNone : middle.deadLetters.missing rest = [] := by
            rw [rest']
            exact others
          obtain ⟨unchanged, zero⟩ := ih stillNone ran
          have onlyPlans : last = { world with refusals := last.refusals } := by
            rw [unchanged, rest']
          cases more with
          | error error =>
              cases run
              exact ⟨onlyPlans, nofun⟩
          | ok total =>
              cases run
              refine ⟨onlyPlans, fun count isCount => ?_⟩
              cases isCount
              rw [zero total rfl]

/-- A capture that finds no job without an entry uses up what was planned for its calls and
does nothing else. -/
theorem capture_nothing {result : Except QueueError Nat} (none : world.uncaptured = [])
    (run : (capture now).outcome.run world = some (result, after)) :
    after = { world with refusals := after.refusals } ∧
      ∀ count, result = .ok count → count = 0 := by
  rw [capture_outcome] at run
  obtain ⟨answer, middle, performed, run⟩ := Program.run_call_eq_some.mp run
  have rest : middle = { world with refusals := middle.refusals } :=
    World.unlessRefused_reading_rest performed
  cases answer with
  | error error =>
      cases run
      exact ⟨rest, nofun⟩
  | ok failed =>
      have stillNone : middle.deadLetters.missing failed = [] := by
        rw [World.perform_jobsByStatus performed, rest]
        exact none
      obtain ⟨unchanged, zero⟩ := captureAll_nothing stillNone run
      exact ⟨by rw [unchanged, rest], zero⟩

theorem captureAll_reliable (reliable : world.Reliable) (jobs : List Job) :
    ∃ count last, (captureAll now jobs).outcome.run world = some (.ok count, last) := by
  induction jobs generalizing world with
  | nil => exact ⟨0, world, rfl⟩
  | cons job rest ih =>
      have captured : ∃ made middle, middle.Reliable ∧
          (captureJob now job).outcome.run world = some (.ok made, middle) := by
        have looked : world.perform (.containsJob job.id) =
            some (.ok (world.deadLetters.containsJob job.id), world) := by
          rw [World.perform, reliable.unlessRefused, World.reading]
        rw [captureJob_outcome, Program.run_call looked]
        cases world.deadLetters.containsJob job.id with
        | true => exact ⟨0, world, reliable, rfl⟩
        | false =>
            have drew : world.perform (.newId .deadLetter) =
                some ((world.ids.draw .deadLetter).1,
                  { world with ids := (world.ids.draw .deadLetter).2 }) := rfl
            have drawnReliable := reliable.performed drew
            have created := drawnReliable.createEntry
              (ofJob (world.ids.draw .deadLetter).1 job now)
            exact ⟨1, _, drawnReliable.performed created,
              (Program.run_call drew).trans (Program.run_call created)⟩
      obtain ⟨made, middle, middleReliable, ran⟩ := captured
      obtain ⟨more, last, ranRest⟩ := ih middleReliable
      refine ⟨made + more, last, ?_⟩
      rw [captureAll_outcome, Program.run_andThen ran, Program.run_andThen ranRest]
      rfl

theorem capture_reliable (reliable : world.Reliable) (now : Timestamp) :
    ∃ count last, (capture now).outcome.run world = some (.ok count, last) := by
  have read : world.perform (.jobsByStatus .failed) =
      some (.ok (world.jobs.byStatus .failed), world) := by
    rw [World.perform, reliable.unlessRefused, World.reading]
  rw [capture_outcome, Program.run_call read]
  exact captureAll_reliable reliable _

end DeadLetter

end Runs

end WebhookRelay
