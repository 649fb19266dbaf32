import WebhookRelay.Proofs.Captures
import WebhookRelay.Proofs.Lifecycle

/-!
# Dead letters in turn

Requests, passes, captures and replays that are run one after the other keep the file of dead
letters in order.  A replay notes the job that it has just created, so no other entry can
name it; a pass stores nothing but new states of active jobs, so what an entry says of a
failed job stays true.
-/

set_option autoImplicit false

namespace WebhookRelay

namespace DeadLetter

variable {who : Nat} {ledger : Ledger}

/-- A replay notes the job that it has just created, which no other entry can name. -/
theorem replay_files (now : Timestamp) (id : Uuid) :
    (replay now id).outcome.Upholds .filing who (fun _ _ => True) ledger := by
  rw [replay_outcome]
  refine .asks Contract.filing_undisturbed fun _ => ⟨trivial, ?_⟩
  intro answer world performed _
  match answer with
  | .error error => exact .ended Contract.filing_undisturbed fun _ => trivial
  | .ok none => exact .ended Contract.filing_undisturbed fun _ => trivial
  | .ok (some entry) =>
      have same := World.perform_sameStores rfl performed
      have member : entry ∈ world.deadLetters.entries := by
        rw [same.deadLetters]
        exact DeadLetterStore.find?_eq_some (World.perform_getEntry performed).symm
      dsimp only
      split
      · exact .ended Contract.filing_undisturbed fun _ => trivial
      refine .asks Contract.filing_undisturbed fun _ => ⟨trivial, ?_⟩
      intro jobId drawn drew filed
      have sameDrawn : world.SameStores drawn := World.perform_sameStores rfl drew
      refine .asks Contract.filing_undisturbed fun _ => ⟨trivial, ?_⟩
      intro answer created performed _
      replace performed : drawn.perform
          (.createJob (.create jobId now entry.eventId entry.payload)) =
          some (answer, created) := performed
      obtain ⟨_, deadLetters, ⟨error, refused, _⟩ | ⟨done, absent, added⟩⟩ :=
        World.perform_createJob performed
      · rw [refused]
        exact .ended Contract.filing_undisturbed fun _ => trivial
      rw [done]
      refine .asks Contract.filing_undisturbed fun _ => ⟨?_, ?_⟩
      · intro unrepeated
        replace unrepeated : created.ids.Unrepeated .deadLetter := unrepeated
        obtain ⟨supply, before⟩ := World.perform_supply performed
        have unrepeatedBefore := unrepeated.earlier supply (before .deadLetter)
        refine ⟨entry, ?_, now, jobId, rfl, ?_, ?_⟩
        · show entry ∈ created.deadLetters.entries
          rw [deadLetters, sameDrawn.deadLetters]
          exact member
        · show created.jobs.Requeues jobId entry.eventId entry.payload
          rw [added]
          exact ⟨_, List.mem_append_right _ List.mem_cons_self, rfl, rfl, rfl⟩
        · show ∀ other ∈ created.deadLetters.entries, other.replayJobId ≠ some jobId
          rw [deadLetters]
          -- An entry that names the job would name one that was not on the queue before.
          intro other otherMember named
          obtain ⟨job, jobMember, sameId, _⟩ :=
            (filed.2 unrepeatedBefore).replayed other otherMember jobId named
          refine JobStore.find?_eq_none.mp absent ?_
          exact List.mem_map.mpr ⟨job, jobMember, sameId⟩
      · intro answer _ _ _
        cases answer with
        | error error => exact .ended Contract.filing_undisturbed fun _ => trivial
        | ok done => exact .ended Contract.filing_undisturbed fun _ => trivial

end DeadLetter

/-! ## All tasks in turn -/

theorem Receiver.Asks.files {receiver : Receiver} {request : Request} {call : Call}
    (asks : receiver.Asks request call) (world : World) : world.Files call := by
  cases call with
  | updateJob job => exact asks.elim
  | createEntry entry => exact asks.elim
  | updateEntry entry => exact asks.elim
  | _ => exact trivial

namespace Pipeline

variable {who : Nat}

theorem attempts_files (pipeline : Pipeline) :
    Contract.filing.CoversAttempts pipeline.processor pipeline.deliver who := by
  intro now job ledger sound member active
  have mayStore (result : Except QueueError Unit) (current : Ledger)
      (same : ledger.world.SameStores current.world) :
      current.world.jobs = ledger.world.jobs ∧
        (pipeline.processor.attempted now job result).id = job.id ∧
        current.world.Files (.updateJob (pipeline.processor.attempted now job result)) := by
    refine ⟨same.jobs, pipeline.processor.id_attempted now job result, ?_⟩
    refine ⟨job, ?_, active, pipeline.processor.identity_attempted now job result⟩
    rw [same.jobs]
    exact member
  have beside {α : Type} {program : Program α} {current : Ledger} (aside : program.Aside) :
      program.Upholds Contract.filing who
        (fun _ last => current.world.SameStores last.world) current :=
    aside.upholds_sameStores Contract.filing_undisturbed
      fun isAside _ => World.files_of_aside isAside
  have delivers : (pipeline.deliver job.beginAttempt).Aside :=
    (pipeline.delivers job.beginAttempt).imp fun _ => Call.aside_of_delivers
  rw [Processor.attempt_course]
  refine .bind sound (beside delivers) ?_
  intro result current currentSound _ same
  cases result with
  | ok done =>
      exact .ended Contract.filing_undisturbed fun _ => mayStore (.ok ()) current same
  | error error =>
      refine .bind currentSound (beside (Processor.observe_aside ..)) ?_
      intro _ last _ _ after
      exact .ended Contract.filing_undisturbed fun _ =>
        mayStore (.error error) last (same.trans after)

theorem files (pipeline : Pipeline) : Contract.filing.Serves pipeline fun _ => True where
  upholds := by
    intro ledger task sound
    have undisturbed := Contract.filing_undisturbed
    cases task with
    | receive request =>
        have asks := pipeline.receiver.receive_asks request
        exact .told undisturbed sound (.of_uses asks fun own _ => own.files _) Outcome.received
    | pass now =>
        exact .told undisturbed sound (Processor.pass_covered undisturbed
          pipeline.attempts_files (fun _ => trivial) (fun sound => sound.1) now) Outcome.passed
    | capture now =>
        exact .told undisturbed sound (DeadLetter.capture_files now) Outcome.captured
    | replay now entryId =>
        exact .told undisturbed sound (DeadLetter.replay_files now entryId) Outcome.replayed
  changes := by
    intro ledger circumstance sound _
    have same := ledger.world.under_sameStores circumstance
    have ids : (ledger.world.under circumstance).ids = ledger.world.ids := by
      cases circumstance <;> rfl
    have jobs : ledger.world.jobs.Keeps (ledger.world.under circumstance).jobs := by
      rw [same.jobs]
      exact .refl _
    have supply := congrArg IdSupply.ids ids
    have drawn : ledger.world.ids.drawn .deadLetter ≤
        (ledger.world.under circumstance).ids.drawn .deadLetter := by
      exact ids ▸ Nat.le_refl _
    refine ⟨⟨?_, ?_⟩, ⟨jobs, supply, drawn, ?_⟩⟩
    · show (ledger.world.under circumstance).jobs.Distinct
      rw [same.jobs]
      exact sound.1
    · intro unrepeated
      exact (sound.2 (ids ▸ unrepeated)).frame jobs same.deadLetters supply drawn
    · intro _
      exact same.deadLetters ▸ List.prefix_rfl

end Pipeline

/-! ## Runs of all tasks -/

/-- After any run of requests, passes, captures and replays, one after the other, whatever is
refused and wherever a task is broken off, the file is in order: each entry mirrors a failed
job, no two entries are about one job, the fields of a replay are set together and name a job
with the entry's event and payload, and no two entries name one.  A capture then adds an entry
for each of the first jobs that have none, and for all of them if it succeeds; what it leaves
out is what the next capture finds.  It succeeds where nothing is refused.  If all failed jobs
have entries, it does nothing.  Entries that were made stay as they were captured. -/
theorem captures_are_exact (pipeline : Pipeline) {world last : World}
    (distinct : world.jobs.Distinct) (empty : world.deadLetters.entries = [])
    {episodes : List Episode} (served : world.serve pipeline episodes = some last)
    (unrepeated : last.ids.Unrepeated .deadLetter) :
    Filed last ∧
    (∀ now result after, (DeadLetter.capture now).outcome.run last = some (result, after) →
      after.ids.Unrepeated .deadLetter →
      after.jobs = last.jobs ∧ after.events = last.events ∧
      ∃ made new, last.uncaptured = made ++ after.uncaptured ∧
        after.deadLetters.entries = last.deadLetters.entries ++ new ∧
        List.Forall₂ (fun job entry => entry = DeadLetter.ofJob entry.id job now) made new ∧
        ∀ count, result = .ok count → count = new.length ∧
          ∀ job ∈ after.jobs.jobs, job.status = .failed →
            ∃ entry ∈ after.deadLetters.entries, entry.jobId = job.id) ∧
    (last.uncaptured = [] → ∀ now result after,
      (DeadLetter.capture now).outcome.run last = some (result, after) →
      after = { last with refusals := after.refusals } ∧
        ∀ count, result = .ok count → count = 0) ∧
    (last.Reliable → ∀ now, ∃ count after,
      (DeadLetter.capture now).outcome.run last = some (.ok count, after)) ∧
    (∀ more final, last.serve pipeline more = some final →
      final.ids.Unrepeated .deadLetter →
      last.deadLetters.entries.map DeadLetter.captured <+:
        final.deadLetters.entries.map DeadLetter.captured) := by
  have start : Contract.filing.sound ⟨world, []⟩ := by
    refine ⟨distinct, fun _ => ⟨?_, ?_, ?_, ?_, ?_⟩⟩ <;> simp [empty]
  obtain ⟨ledger, rfl, sound, _⟩ :=
    pipeline.files.serve start (fun episode _ => by cases episode <;> exact trivial) served
  refine ⟨sound.2 unrepeated, ?_, ?_, ?_, ?_⟩
  · intro now result after run stillUnrepeated
    have files : (DeadLetter.capture now).outcome.Upholds .filing 0
        (fun result current =>
          ledger.world.Captures now (ledger.world.jobs.byStatus .failed) result current.world)
        ledger := DeadLetter.capture_files now
    obtain ⟨final, rfl, _, _, captures⟩ := files.run sound run
    obtain ⟨made, new, missed, added, captured, counted⟩ := captures.adds stillUnrepeated
    have rest : final.world.deadLetters.missing (ledger.world.jobs.byStatus .failed) =
        final.world.uncaptured := by
      rw [World.uncaptured, captures.sameJobs]
    rw [rest] at missed counted
    refine ⟨captures.sameJobs, captures.sameEvents, made, new, missed, added, captured, ?_⟩
    intro count isCount
    obtain ⟨isLength, complete⟩ := counted count isCount
    exact ⟨isLength, World.uncaptured_eq_nil.mp complete⟩
  · intro none now result after run
    exact DeadLetter.capture_nothing none run
  · intro reliable now
    exact DeadLetter.capture_reliable reliable now
  · intro more final servedMore stillUnrepeated
    obtain ⟨later, rfl, _, kept⟩ :=
      pipeline.files.serve sound (fun episode _ => by cases episode <;> exact trivial) servedMore
    exact kept.entries stillUnrepeated

namespace Sample

def impatientPipeline : Pipeline :=
  { pipeline with processor := { backoff := { maxAttempts := 1 } } }

/-- A job fails, and then the store of dead letters fails. -/
def interruptedCapture : List Episode :=
  [.run (.receive request), .run (.pass ⟨0, 0⟩),
    .change (.refuse .createEntry [some (.queue (.store "full"))]), .run (.capture ⟨1, 0⟩)]

set_option maxRecDepth 100000 in
theorem interrupted_capture_is_completed :
    downWorld.jobs.Distinct ∧ downWorld.deadLetters.entries = [] ∧
    ∃ last after, downWorld.serve impatientPipeline interruptedCapture = some last ∧
      last.ids.Unrepeated .deadLetter ∧ after.ids.Unrepeated .deadLetter ∧
      last.deadLetters.entries = [] ∧ last.uncaptured.length = 1 ∧
      (DeadLetter.capture ⟨2, 0⟩).outcome.run last = some (.ok 1, after) ∧
      Filed last ∧ ∀ job ∈ after.jobs.jobs, job.status = .failed →
        ∃ entry ∈ after.deadLetters.entries, entry.jobId = job.id := by
  obtain ⟨last, served, unrepeated, none, rest, ⟨result, after⟩, run, isOne, still⟩ :
      ∃ last ∈ downWorld.serve impatientPipeline interruptedCapture,
        last.ids.Unrepeated .deadLetter ∧ last.deadLetters.entries = [] ∧
        last.uncaptured.length = 1 ∧
        ∃ ended ∈ (DeadLetter.capture ⟨2, 0⟩).outcome.run last,
          ended.1 = .ok 1 ∧ ended.2.ids.Unrepeated .deadLetter := by decide +kernel
  obtain rfl : result = .ok 1 := isOne
  have distinct : downWorld.jobs.Distinct := List.nodup_nil
  obtain ⟨filed, exactly, _⟩ :=
    captures_are_exact impatientPipeline distinct rfl served unrepeated
  obtain ⟨_, _, _, _, _, _, _, counted⟩ := exactly ⟨2, 0⟩ _ after run still
  exact ⟨distinct, rfl, last, after, served, unrepeated, still, none, rest, run, filed,
    (counted 1 rfl).2⟩

end Sample

end WebhookRelay
