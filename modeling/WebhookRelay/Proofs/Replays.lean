import WebhookRelay.Proofs.Chronicle
import WebhookRelay.Proofs.Filing

/-!
# Replays of a dead letter

A replay puts a job on the queue and then notes it in the entry, and it looks at the note
before it begins.  So the entry is replayed once, unless the note is lost: if the second
store fails, the replay ends with an error, its job is on the queue, and the entry looks as
if it had never been replayed.  The jobs that replays of an entry create are one for each
lost note and one for the note that stands.
-/

set_option autoImplicit false

namespace WebhookRelay

/-! ## Calls that leave the file alone -/

def Call.SparesFile : Call → Prop
  | .createEntry _ | .updateEntry _ => False
  | _ => True

theorem World.perform_sparesFile {world after : World} {request : Call}
    {answer : request.Answer} (spares : request.SparesFile)
    (performed : world.perform request = some (answer, after)) :
    after.deadLetters = world.deadLetters := by
  obtain same | ⟨entry, rfl, _⟩ | ⟨entry, rfl, _⟩ := perform_deadLetters performed
  · exact same
  · exact spares.elim
  · exact spares.elim

theorem Program.Uses.run_sparesFile {α : Type} {program : Program α} {value : α}
    {world after : World} (uses : program.Uses Call.SparesFile)
    (run : program.run world = some (value, after)) : after.deadLetters = world.deadLetters :=
  @Uses.run_preserves _ _ (fun before after => after.deadLetters = before.deadLetters)
    (fun _ => rfl) (fun before after => after.trans before) World.perform_sparesFile _ uses
    _ _ _ run

theorem Receiver.Asks.sparesFile {receiver : Receiver} {request : Request} {call : Call}
    (asks : receiver.Asks request call) : call.SparesFile := by
  cases call with
  | createEntry entry => exact asks.elim
  | updateEntry entry => exact asks.elim
  | _ => exact trivial

theorem Processor.Works.sparesFile {call : Call} (works : Processor.Works call) :
    call.SparesFile := by
  cases call with
  | createEntry entry => exact works.elim
  | updateEntry entry => exact works.elim
  | _ => exact trivial

/-! ## Entries that are stored anew -/

namespace DeadLetterStore

variable {store : DeadLetterStore} {entry old : DeadLetter}

theorem id_replaced (one entry : DeadLetter) :
    (if one.id = entry.id then entry else one).id = one.id := by
  by_cases own : one.id = entry.id
  · rw [if_pos own, own]
  · rw [if_neg own]

theorem find?_replace (id : Uuid) : (store.replace entry).find? id =
    (store.find? id).map fun one => if one.id = entry.id then entry else one := by
  have sameTest : ((fun one : DeadLetter => decide (one.id = id)) ∘ fun one =>
      if one.id = entry.id then entry else one) = fun one => decide (one.id = id) :=
    funext fun one => congrArg (fun other : Uuid => decide (other = id)) (id_replaced one entry)
  rw [find?, find?, replace, List.find?_map, sameTest]

theorem find?_replace_other {id : Uuid} (other : entry.id ≠ id) :
    (store.replace entry).find? id = store.find? id := by
  rw [find?_replace]
  cases found : store.find? id with
  | none => rfl
  | some one =>
      have notOwn : one.id ≠ entry.id := by
        rw [id_of_find? found]
        exact other.symm
      rw [Option.map_some, if_neg notOwn]

theorem find?_replace_self (found : store.find? entry.id = some old) :
    (store.replace entry).find? entry.id = some entry := by
  rw [find?_replace, found, Option.map_some, if_pos (id_of_find? found)]

end DeadLetterStore

/-! ## What a replay does -/

def Answered.created? : Answered → Option Job
  | ⟨.createJob job, .ok ()⟩ => some job
  | _ => none

/-- The call was to note a replay in its entry and failed. -/
def Answered.losesNote : Answered → Bool
  | ⟨.updateEntry _, .error _⟩ => true
  | _ => false

inductive ReplayEnds (entryId : Uuid) (now : Timestamp) (before after : World)
    (calls : List Answered) : Except QueueError Job → Prop where
  /-- No job is created. -/
  | nothing (error : QueueError) (uncreated : calls.filterMap Answered.created? = [])
      (kept : calls.any Answered.losesNote = false)
      (same : after.deadLetters = before.deadLetters) :
      ReplayEnds entryId now before after calls (.error error)
  /-- A job is created and the entry does not know. -/
  | lost (error : QueueError) (entry : DeadLetter) (jobId : Uuid)
      (found : before.deadLetters.find? entryId = some entry)
      (unreplayed : entry.isReplayed = false)
      (created : calls.filterMap Answered.created? =
        [.create jobId now entry.eventId entry.payload])
      (loses : calls.any Answered.losesNote = true)
      (same : after.deadLetters = before.deadLetters) :
      ReplayEnds entryId now before after calls (.error error)
  /-- A job is created and noted. -/
  | noted (entry : DeadLetter) (jobId : Uuid)
      (found : before.deadLetters.find? entryId = some entry)
      (unreplayed : entry.isReplayed = false)
      (created : calls.filterMap Answered.created? =
        [.create jobId now entry.eventId entry.payload])
      (kept : calls.any Answered.losesNote = false)
      (replaced : after.deadLetters =
        before.deadLetters.replace (entry.replayedAs now jobId)) :
      ReplayEnds entryId now before after calls
        (.ok (.create jobId now entry.eventId entry.payload))

theorem DeadLetter.replay_ends {now : Timestamp} {entryId : Uuid} {world last : World}
    {calls : List Answered} {result : Except QueueError Job}
    (recorded : (replay now entryId).outcome.record world = some (result, calls, last)) :
    ReplayEnds entryId now world last calls result := by
  rw [replay_outcome] at recorded
  obtain ⟨answer, looked, afterLook, performed, goesOn, rfl⟩ :=
    Program.record_call_eq_some.mp recorded
  have same := (World.perform_sameStores rfl performed).deadLetters
  match answer with
  | .error error =>
      cases goesOn
      exact .nothing error rfl rfl same
  | .ok none =>
      cases goesOn
      exact .nothing _ rfl rfl same
  | .ok (some entry) =>
      have found := (World.perform_getEntry performed).symm
      dsimp only at goesOn
      by_cases replayed : entry.isReplayed = true
      · rw [if_pos replayed] at goesOn
        cases goesOn
        exact .nothing _ rfl rfl same
      rw [if_neg replayed] at goesOn
      have unreplayed : entry.isReplayed = false := Bool.eq_false_iff.mpr replayed
      obtain ⟨jobId, drawn, afterDraw, drew, drawnOn, rfl⟩ :=
        Program.record_call_eq_some.mp goesOn
      have sameDrawn := (World.perform_sameStores rfl drew).deadLetters.trans same
      obtain ⟨answer, created, afterCreate, creates, createdOn, rfl⟩ :=
        Program.record_call_eq_some.mp drawnOn
      have sameCreated := (World.perform_createJob creates).2.1.trans sameDrawn
      cases answer with
      | error error =>
          cases createdOn
          exact .nothing error rfl rfl sameCreated
      -- From here on the job is on the queue, and its entry does not know of it yet.
      | ok done =>
          obtain ⟨answer, noted, afterNote, notes, notedOn, rfl⟩ :=
            Program.record_call_eq_some.mp createdOn
          obtain ⟨_, _, ⟨error, refused, unchanged⟩ | ⟨stored, replaced⟩⟩ :=
            World.perform_updateEntry notes
          · subst refused
            cases notedOn
            exact .lost error entry jobId found unreplayed rfl rfl
              (unchanged.trans sameCreated)
          · subst stored
            cases notedOn
            refine .noted entry jobId found unreplayed rfl rfl ?_
            rw [replaced, sameCreated]

/-! ## Chronicles -/

def Task.replays (entryId : Uuid) : Task → Bool
  | .replay _ id => id = entryId
  | _ => false

namespace Chapter

def requeued (entryId : Uuid) (chapter : Chapter) : List Job :=
  if chapter.task.replays entryId then chapter.calls.filterMap Answered.created? else []

/-- The chapter replayed the entry and could not note it. -/
def losesNote (entryId : Uuid) (chapter : Chapter) : Bool :=
  chapter.task.replays entryId && chapter.calls.any Answered.losesNote

def failsReplay (chapter : Chapter) : Bool :=
  match chapter.outcome with
  | .replayed (.error _) => true
  | _ => false

end Chapter

def DeadLetterStore.note (store : DeadLetterStore) (entryId : Uuid) : Nat :=
  if (store.find? entryId).any DeadLetter.isReplayed then 1 else 0

namespace Chronicle

def requeued (chronicle : Chronicle) (entryId : Uuid) : List Job :=
  chronicle.chapters.flatMap (Chapter.requeued entryId)

def lostNotes (chronicle : Chronicle) (entryId : Uuid) : Nat :=
  chronicle.chapters.countP (Chapter.losesNote entryId)

/-- The jobs that replays of an entry created and the notes of them agree. -/
structure Accounts (start : DeadLetterStore) (entryId : Uuid) (chronicle : Chronicle) :
    Prop where
  entry : (chronicle.world.deadLetters.find? entryId).map DeadLetter.captured =
    (start.find? entryId).map DeadLetter.captured
  balance : (chronicle.requeued entryId).length + start.note entryId =
    chronicle.lostNotes entryId + chronicle.world.deadLetters.note entryId
  requeued : ∀ job ∈ chronicle.requeued entryId, ∃ entry, start.find? entryId = some entry ∧
    job.eventId = entry.eventId ∧ job.payload = entry.payload
  lost : ∀ chapter ∈ chronicle.chapters, chapter.losesNote entryId = true ↔
    chapter.failsReplay = true ∧ chapter.requeued entryId ≠ []

namespace Accounts

variable {start : DeadLetterStore} {entryId : Uuid} {chronicle : Chronicle} {last : World}

/-- What one more chapter has to tell for the accounts to agree after it. -/
theorem chapter (accounts : chronicle.Accounts start entryId) {chapter : Chapter}
    (entry : (last.deadLetters.find? entryId).map DeadLetter.captured =
      (chronicle.world.deadLetters.find? entryId).map DeadLetter.captured)
    (balance : (chapter.requeued entryId).length + chronicle.world.deadLetters.note entryId =
      (if chapter.losesNote entryId then 1 else 0) + last.deadLetters.note entryId)
    (requeued : ∀ job ∈ chapter.requeued entryId, ∃ entry,
      chronicle.world.deadLetters.find? entryId = some entry ∧
      job.eventId = entry.eventId ∧ job.payload = entry.payload)
    (lost : chapter.losesNote entryId = true ↔
      chapter.failsReplay = true ∧ chapter.requeued entryId ≠ []) :
    Accounts start entryId { world := last, chapters := chronicle.chapters ++ [chapter] } := by
  refine ⟨entry.trans accounts.entry, ?_, ?_, ?_⟩
  · have sofar := accounts.balance
    simp only [Chronicle.requeued, lostNotes, List.flatMap_append, List.flatMap_singleton,
      List.length_append, List.countP_append, List.countP_singleton] at sofar ⊢
    omega
  · intro job member
    simp only [Chronicle.requeued, List.flatMap_append, List.flatMap_singleton] at member
    rcases List.mem_append.mp member with earlier | new
    · exact accounts.requeued job earlier
    · obtain ⟨current, found, sameEvent, samePayload⟩ := requeued job new
      have captured := accounts.entry
      rw [found, Option.map_some] at captured
      obtain ⟨original, isOriginal, same⟩ := Option.map_eq_some_iff.mp captured.symm
      have eventId : original.captured.eventId = current.captured.eventId :=
        congrArg DeadLetter.eventId same
      have payload : original.captured.payload = current.captured.payload :=
        congrArg DeadLetter.payload same
      exact ⟨original, isOriginal, sameEvent.trans eventId.symm,
        samePayload.trans payload.symm⟩
  · intro other member
    rcases List.mem_append.mp member with earlier | new
    · exact accounts.lost other earlier
    · obtain rfl := List.mem_singleton.mp new
      exact lost

theorem other (accounts : chronicle.Accounts start entryId) {chapter : Chapter}
    (elsewhere : chapter.task.replays entryId = false)
    (same : last.deadLetters.find? entryId = chronicle.world.deadLetters.find? entryId) :
    Accounts start entryId { world := last, chapters := chronicle.chapters ++ [chapter] } := by
  have none : chapter.requeued entryId = [] := by
    rw [Chapter.requeued, elsewhere]
    rfl
  have keeps : chapter.losesNote entryId = false := by
    rw [Chapter.losesNote, elsewhere]
    rfl
  refine accounts.chapter ?_ ?_ ?_ ?_
  · rw [same]
  · rw [none, keeps, DeadLetterStore.note, DeadLetterStore.note, same]
    rfl
  · rw [none]
    nofun
  · rw [none, keeps]
    exact ⟨nofun, fun ⟨_, requeues⟩ => absurd rfl requeues⟩

theorem replay (accounts : chronicle.Accounts start entryId) {now : Timestamp}
    {calls : List Answered} {result : Except QueueError Job}
    (ends : ReplayEnds entryId now chronicle.world last calls result) :
    Accounts start entryId { world := last, chapters := chronicle.chapters ++
      [⟨.replay now entryId, chronicle.world, calls, .replayed result⟩] } := by
  have own : (Task.replay now entryId).replays entryId = true := decide_eq_true rfl
  have requeued (outcome : Outcome) : Chapter.requeued entryId
      ⟨.replay now entryId, chronicle.world, calls, outcome⟩ =
        calls.filterMap Answered.created? := if_pos own
  have loses (outcome : Outcome) : Chapter.losesNote entryId
      ⟨.replay now entryId, chronicle.world, calls, outcome⟩ =
        calls.any Answered.losesNote := by
    rw [Chapter.losesNote, own, Bool.true_and]
  cases ends with
  | nothing error uncreated kept same =>
      refine accounts.chapter ?_ ?_ ?_ ?_
      · rw [same]
      · rw [requeued, loses, uncreated, kept, same]
        rfl
      · rw [requeued, uncreated]
        nofun
      · rw [requeued, loses, uncreated, kept]
        exact ⟨nofun, fun ⟨_, requeues⟩ => absurd rfl requeues⟩
  | lost error entry jobId found unreplayed created lost same =>
      refine accounts.chapter ?_ ?_ ?_ ?_
      · rw [same]
      · rw [requeued, loses, created, lost, same]
        rfl
      · rw [requeued, created]
        intro job member
        rw [List.mem_singleton.mp member]
        exact ⟨entry, found, rfl, rfl⟩
      · rw [requeued, loses, created, lost]
        exact ⟨fun _ => ⟨rfl, nofun⟩, fun _ => rfl⟩
  | noted entry jobId found unreplayed created kept replaced =>
      have isEntry : entry.id = entryId := DeadLetterStore.id_of_find? found
      have foundSelf : chronicle.world.deadLetters.find? (entry.replayedAs now jobId).id =
          some entry := by
        rw [← found, ← isEntry]
        rfl
      have stored : last.deadLetters.find? entryId = some (entry.replayedAs now jobId) := by
        rw [replaced, ← isEntry]
        exact DeadLetterStore.find?_replace_self foundSelf
      have unnoted : chronicle.world.deadLetters.note entryId = 0 := by
        simp [DeadLetterStore.note, found, unreplayed]
      have isNoted : last.deadLetters.note entryId = 1 := by
        simp [DeadLetterStore.note, stored, DeadLetter.isReplayed, DeadLetter.replayedAs]
      refine accounts.chapter ?_ ?_ ?_ ?_
      · rw [stored, found]
        rfl
      · rw [requeued, loses, created, kept, unnoted, isNoted]
        rfl
      · rw [requeued, created]
        intro job member
        rw [List.mem_singleton.mp member]
        exact ⟨entry, found, rfl, rfl⟩
      · rw [loses, kept]
        exact ⟨nofun, fun ⟨impossible, _⟩ => by cases impossible⟩

theorem next {pipeline : Pipeline} {after : Chronicle}
    (accounts : chronicle.Accounts start entryId) {episode : Episode}
    (noCapture : ∀ now, episode ≠ .run (.capture now))
    (written : chronicle.next pipeline episode = some after) :
    after.Accounts start entryId := by
  obtain ⟨task, outcome, calls, last, rfl, recorded, rfl⟩ | ⟨circumstance, rfl, rfl⟩ :=
    next_cases written
  · have run := Program.run_of_record recorded
    cases task with
    | receive request =>
        have asks := pipeline.receiver.receive_asks request
        have uses : (pipeline.program (.receive request)).Uses Call.SparesFile :=
          (asks.imp fun _ => Receiver.Asks.sparesFile).bind fun _ => trivial
        refine accounts.other rfl ?_
        rw [uses.run_sparesFile run]
    | pass now =>
        have works := pipeline.processor.pass_works pipeline.delivers now
        have uses : (pipeline.program (.pass now)).Uses Call.SparesFile :=
          (works.imp fun _ => Processor.Works.sparesFile).bind fun _ => trivial
        refine accounts.other rfl ?_
        rw [uses.run_sparesFile run]
    | capture now => exact absurd rfl (noCapture now)
    | replay now id =>
        rw [Pipeline.program] at recorded
        obtain ⟨result, early, final, late, replays, ended, rfl⟩ :=
          Program.record_bind recorded
        cases ended
        rw [List.append_nil]
        have ends := DeadLetter.replay_ends replays
        by_cases own : id = entryId
        · subst own
          exact accounts.replay ends
        · refine accounts.other (decide_eq_false own) ?_
          cases ends with
          | nothing error uncreated kept same => rw [same]
          | lost error entry jobId found unreplayed created lost same => rw [same]
          | noted entry jobId found unreplayed created kept replaced =>
              have isOther : (entry.replayedAs now jobId).id ≠ entryId := by
                have isId : entry.id = id := DeadLetterStore.id_of_find? found
                intro same
                exact own (isId.symm.trans same)
              rw [replaced, DeadLetterStore.find?_replace_other isOther]
  · have same := (chronicle.world.under_sameStores circumstance).deadLetters
    refine ⟨?_, ?_, accounts.requeued, accounts.lost⟩
    · show ((chronicle.world.under circumstance).deadLetters.find? entryId).map _ = _
      rw [same]
      exact accounts.entry
    · show (chronicle.requeued entryId).length + _ = chronicle.lostNotes entryId +
        (chronicle.world.under circumstance).deadLetters.note entryId
      rw [same]
      exact accounts.balance

theorem opening (world : World) :
    Accounts world.deadLetters entryId (Chronicle.opening world) where
  entry := rfl
  balance := by simp [Chronicle.requeued, lostNotes, Chronicle.opening]
  requeued := by simp [Chronicle.requeued, Chronicle.opening]
  lost := by simp [Chronicle.opening]

end Accounts

end Chronicle

/-- Replays of one entry, in any order and with any calls refused, among requests, passes and
replays of other entries: they create at most one job, and none where they end with an error,
exactly if no note of a replay of the entry is lost.  There is one job for each lost note and
one for the note that stands, and all of them carry the event and the payload of the entry. -/
theorem entry_is_replayed_once_iff_no_note_is_lost (pipeline : Pipeline) (entryId : Uuid)
    {world : World} {episodes : List Episode}
    (noCaptures : ∀ episode ∈ episodes, ∀ now, episode ≠ .run (.capture now))
    {chronicle : Chronicle}
    (written : (Chronicle.opening world).write pipeline episodes = some chronicle) :
    (((chronicle.requeued entryId).length ≤ 1 ∧
      ∀ chapter ∈ chronicle.chapters, chapter.failsReplay = true →
        chapter.requeued entryId = []) ↔ chronicle.lostNotes entryId = 0) ∧
    (chronicle.requeued entryId).length + world.deadLetters.note entryId =
      chronicle.lostNotes entryId + chronicle.world.deadLetters.note entryId ∧
    ∀ job ∈ chronicle.requeued entryId, ∃ entry,
      world.deadLetters.find? entryId = some entry ∧
      job.eventId = entry.eventId ∧ job.payload = entry.payload := by
  have accounts : chronicle.Accounts world.deadLetters entryId := by
    refine Chronicle.write_preserves (fun chronicle => chronicle.Accounts world.deadLetters entryId)
      ?_ (.opening world) written
    intro episode member before after accounts
    exact accounts.next (noCaptures episode member)
  have noteAtMost : chronicle.world.deadLetters.note entryId ≤ 1 := by
    unfold DeadLetterStore.note
    split <;> omega
  refine ⟨⟨?_, ?_⟩, accounts.balance, accounts.requeued⟩
  · rintro ⟨_, failed⟩
    rw [Chronicle.lostNotes, List.countP_eq_zero]
    intro chapter member loses
    obtain ⟨fails, requeues⟩ := (accounts.lost chapter member).mp loses
    exact requeues (failed chapter member fails)
  · intro none
    have balance := accounts.balance
    refine ⟨by omega, ?_⟩
    intro chapter member fails
    rw [Chronicle.lostNotes, List.countP_eq_zero] at none
    by_contra requeues
    exact none chapter member ((accounts.lost chapter member).mpr ⟨fails, requeues⟩)

namespace Sample

def deadLetter : DeadLetter where
  id := Uuid.ofNat 7
  jobId := Uuid.ofNat 8
  eventId := "e"
  payload := "p"
  attempts := 5
  lastError := some "down"
  capturedAt := ⟨0, 0⟩
  replayedAt := none
  replayJobId := none

def filedWorld : World where
  deadLetters := ⟨[deadLetter]⟩

/-- The entry is replayed twice while a store fails at its next call. -/
def replayedTwice (site : Site) : List Episode :=
  [.change (.refuse site [some (.queue (.store "down"))]),
    .run (.replay ⟨1, 0⟩ deadLetter.id), .run (.replay ⟨2, 0⟩ deadLetter.id)]

set_option maxRecDepth 100000 in
theorem refused_replay_is_not_repeated :
    ∃ chronicle, (Chronicle.opening filedWorld).write pipeline (replayedTwice .createJob) =
        some chronicle ∧
      chronicle.lostNotes deadLetter.id = 0 ∧ (chronicle.requeued deadLetter.id).length = 1 ∧
      ∀ chapter ∈ chronicle.chapters, chapter.failsReplay = true →
        chapter.requeued deadLetter.id = [] := by
  obtain ⟨chronicle, written, none, one⟩ :
      ∃ chronicle ∈ (Chronicle.opening filedWorld).write pipeline (replayedTwice .createJob),
        chronicle.lostNotes deadLetter.id = 0 ∧
        (chronicle.requeued deadLetter.id).length = 1 := by decide +kernel
  have once := (entry_is_replayed_once_iff_no_note_is_lost pipeline deadLetter.id
    (by simp [replayedTwice]) written).1.mpr none
  exact ⟨chronicle, written, none, one, once.2⟩

set_option maxRecDepth 100000 in
/-- The first replay ends with an error although its job is on the queue, and the second one
creates another job. -/
theorem unnoted_replay_is_repeated :
    (∀ episode ∈ replayedTwice .updateEntry, ∀ now, episode ≠ .run (.capture now)) ∧
    ∃ chronicle ∈ (Chronicle.opening filedWorld).write pipeline (replayedTwice .updateEntry),
      (chronicle.requeued deadLetter.id).length = 2 ∧ chronicle.world.jobs.jobs.length = 2 ∧
      ∃ chapter ∈ chronicle.chapters, chapter.failsReplay = true ∧
        chapter.requeued deadLetter.id ≠ [] := by
  refine ⟨by simp [replayedTwice], ?_⟩
  decide +kernel

end Sample

end WebhookRelay
