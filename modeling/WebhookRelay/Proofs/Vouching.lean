import WebhookRelay.Proofs.Attempts
import WebhookRelay.Proofs.Rejections
import WebhookRelay.Proofs.Substitution

/-!
# Fingerprints of stored events

A fingerprint that is kept without its event is left behind by a request that was broken
off, that is still running, or whose release was refused.  Where requests come one after
the other and none of that happens, a fingerprint is kept for stored events only.
-/

set_option autoImplicit false

namespace WebhookRelay

/-! ## Calls that keep what is kept vouched for -/

namespace World

variable {world after : World} {carried : Bytes → Prop} {pending later : List String}

theorem perform_knows {call : Call} {answer : call.Answer} {eventId : String}
    (knows : world.events.Knows eventId)
    (performed : world.perform call = some (answer, after)) : after.events.Knows eventId := by
  have unchanged (events : after.events = world.events) : after.events.Knows eventId := by
    rw [events]
    exact knows
  cases writes : call.writes with
  | false => exact unchanged (perform_sameStores writes performed).events
  | true =>
      cases call with
      | createEvent event =>
          obtain ⟨_, _, ⟨_, events, _⟩ | ⟨events, _⟩⟩ := perform_createEvent performed
          · rw [events]
            exact knows.append event
          · exact unchanged events
      | markProcessed own time =>
          obtain ⟨_, _, ⟨_, _, events⟩ | ⟨_, _, events⟩⟩ := perform_markProcessed performed
          · exact unchanged events
          · rw [events]
            exact knows.marked own time
      | createJob job => exact unchanged (perform_createJob performed).1
      | updateJob job => exact unchanged (perform_updateJob performed).1
      | createEntry entry => exact unchanged (perform_createEntry performed).1
      | updateEntry entry => exact unchanged (perform_updateEntry performed).1
      | _ => cases writes

/-- The fingerprint is that of a body which was carried and whose event is stored. -/
def VouchesFor (carried : Bytes → Prop) (world : World) (fingerprint : String) : Prop :=
  ∃ body text fields, carried body ∧ bodyFingerprint body = fingerprint ∧
    Receiver.readBody body = .ok (text, fields) ∧ world.events.Knows fields.eventId

/-- Each fingerprint that is kept, live or not, is that of a stored event, except for those
that are pending.  No release will be refused, and no store will pretend to know an
event. -/
structure Vouched (carried : Bytes → Prop) (pending : List String) (world : World) : Prop where
  stored : ∀ entry ∈ world.fingerprints.entries, entry.1 ∈ pending ∨
    world.VouchesFor carried entry.1
  truthful : ∀ refusal ∈ world.refusals .createEvent, Refusal.Truthful refusal
  releases : world.refusals (.unmark .fingerprints) = []

namespace Vouched

theorem performed (vouched : world.Vouched carried pending) {call : Call}
    {answer : call.Answer} (performed : world.perform call = some (answer, after))
    (subset : pending ⊆ later) (entries : ∀ entry ∈ after.fingerprints.entries,
      entry.1 ∈ later ∨ entry ∈ world.fingerprints.entries) : after.Vouched carried later where
  stored entry member := by
    rcases entries entry member with new | old
    · exact Or.inl new
    · rcases vouched.stored entry old with waits | ⟨body, text, fields, carries, own, reads, knows⟩
      · exact Or.inl (subset waits)
      · exact Or.inr ⟨body, text, fields, carries, own, reads, perform_knows knows performed⟩
  truthful refusal member := by
    apply vouched.truthful
    exact (perform_refusals performed .createEvent).subset member
  releases := by
    have suffix := perform_refusals performed (.unmark .fingerprints)
    rw [vouched.releases] at suffix
    exact List.suffix_nil.mp suffix

theorem same (vouched : world.Vouched carried pending) {call : Call} {answer : call.Answer}
    (unmarked : world.Unmarked .fingerprints after)
    (performed : world.perform call = some (answer, after)) : after.Vouched carried pending := by
  refine vouched.performed performed (List.Subset.refl _) fun entry member => Or.inr ?_
  have same : after.fingerprints = world.fingerprints := unmarked.same
  rw [← same]
  exact member

theorem elsewhere (vouched : world.Vouched carried pending) {call : Call} {answer : call.Answer}
    (elsewhere : call.touches .fingerprints = false)
    (performed : world.perform call = some (answer, after)) : after.Vouched carried pending :=
  vouched.same (perform_unmarked elsewhere performed) performed

variable {α : Type} {program : Program α} {value : α}

theorem run (vouched : world.Vouched carried pending)
    (uses : program.Uses fun call => call.touches .fingerprints = false)
    (run : program.run world = some (value, after)) : after.Vouched carried pending :=
  @Program.Uses.run_preserves _ _
    (fun before after => before.Vouched carried pending → after.Vouched carried pending)
    (fun _ kept => kept) (fun first second kept => second (first kept))
    (fun elsewhere performed kept => kept.elsewhere elsewhere performed) program uses _ _ _ run
    vouched

theorem runFor (vouched : world.Vouched carried pending)
    (uses : program.Uses fun call => call.touches .fingerprints = false) {calls : Nat}
    (run : program.runFor calls world = some after) : after.Vouched carried pending := by
  induction program generalizing world calls with
  | done result =>
      simp only [Program.runFor, Option.some.injEq] at run
      rw [← run]
      exact vouched
  | call request next ih =>
      cases calls with
      | zero =>
          simp only [Program.runFor, Option.some.injEq] at run
          rw [← run]
          exact vouched
      | succ calls =>
          simp only [Program.runFor] at run
          split at run
          · cases run
          · rename_i answer middle performed
            exact ih answer (vouched.elsewhere uses.1 performed) (uses.2 answer) run

/-- Only a fingerprint that is new becomes pending. -/
theorem markIfAbsent {mode : MarkMode} {key : String} {ttl : Duration}
    {result : Except StoreError Bool} (vouched : world.Vouched carried pending)
    (run : (markIfAbsent .fingerprints mode key ttl).outcome.run world =
      some (result, after)) :
    after.Vouched carried (key :: pending) ∧
      (result ≠ .ok true → after.Vouched carried pending) := by
  -- A key that was put is pending, and purging makes nothing pending.
  have puts {request : Call} {answer : request.Answer} {before last : World}
      (vouched : before.Vouched carried pending)
      (performed : before.perform request = some (answer, last))
      (inserted : before.fingerprints.insert? before.clock key ttl = some last.fingerprints) :
      last.Vouched carried (key :: pending) := by
    refine vouched.performed performed (List.subset_cons_self _ _) fun entry member => ?_
    rcases ExpiringSet.mem_insert? inserted member with own | old
    · exact Or.inl (List.mem_cons.mpr (Or.inl own))
    · exact Or.inr old
  have waits {last : World} (vouched : last.Vouched carried pending) :
      last.Vouched carried (key :: pending) :=
    ⟨fun entry member => (vouched.stored entry member).imp_left (List.mem_cons_of_mem _),
      vouched.truthful, vouched.releases⟩
  rw [markIfAbsent_outcome] at run
  cases mode with
  | atomic =>
      obtain ⟨answer, middle, performed, ended⟩ := Program.run_call_eq_some.mp run
      match answer with
      | .error error =>
          cases ended
          have settled := vouched.same (perform_tryMark_error performed) performed
          exact ⟨waits settled, fun _ => settled⟩
      | .ok true =>
          cases ended
          have put := ExpiringSet.insertIfAbsent?_fresh (perform_tryMark_inserts performed)
          exact ⟨puts vouched performed put.2, fun old => absurd rfl old⟩
      | .ok false =>
          cases ended
          have purged : after.fingerprints = world.fingerprints.purge world.clock :=
            (ExpiringSet.insertIfAbsent?_known (perform_tryMark_inserts performed)).1
          have settled : after.Vouched carried pending := by
            refine vouched.performed performed (List.Subset.refl _) fun entry member => ?_
            rw [purged] at member
            exact Or.inr (ExpiringSet.mem_purge member)
          exact ⟨waits settled, fun _ => settled⟩
  | stepwise =>
      obtain ⟨answer, looked, performed, goesOn⟩ := Program.run_call_eq_some.mp run
      have settled : looked.Vouched carried pending := vouched.elsewhere rfl performed
      match answer with
      | .error error =>
          cases goesOn
          exact ⟨waits settled, fun _ => settled⟩
      | .ok true =>
          cases goesOn
          exact ⟨waits settled, fun _ => settled⟩
      | .ok false =>
          obtain ⟨answer, middle, marked, ended⟩ := Program.run_call_eq_some.mp goesOn
          cases answer with
          | error error =>
              cases ended
              have still := settled.same (perform_mark_error marked) marked
              exact ⟨waits still, fun _ => still⟩
          | ok done =>
              cases ended
              exact ⟨puts settled marked (perform_mark marked), fun old => absurd rfl old⟩

/-- A pending fingerprint is that of an event which has just been stored, or it is to be
released. -/
theorem createEvent {request : Receiver.Request} {text : String} {fields : EventFields}
    {answer : Except StoreError Unit}
    (vouched : world.Vouched carried (bodyFingerprint request.body :: pending))
    (carries : carried request.body)
    (readable : Receiver.readBody request.body = .ok (text, fields))
    (unknown : world.events.find? fields.eventId = none)
    (performed : world.perform (.createEvent (Receiver.newEvent request fields)) =
      some (answer, after)) :
    (answer = .ok () ∨ ∃ key, answer = .error (.duplicate key)) ∧
        after.Vouched carried pending ∨
      ∃ error, answer = .error error ∧ (∀ key, error ≠ .duplicate key) ∧
        after.Vouched carried (bodyFingerprint request.body :: pending) := by
  have still : after.Vouched carried (bodyFingerprint request.body :: pending) :=
    vouched.elsewhere rfl performed
  obtain ⟨_, _, ⟨_, events, answered⟩ | ⟨_, error, refused, known⟩⟩ :=
    perform_createEvent performed
  · refine Or.inl ⟨?_, ?_, still.truthful, still.releases⟩
    · rcases answered with stored | ⟨lost, _⟩
      · exact Or.inl stored
      · exact Or.inr ⟨_, lost⟩
    · intro entry member
      rcases still.stored entry member with waits | stored
      · rcases List.mem_cons.mp waits with own | waits
        · have knows : after.events.Knows fields.eventId := by
            rw [events, EventStore.knows_iff]
            exact ⟨_, List.mem_append_right _ List.mem_cons_self, rfl⟩
          exact Or.inr ⟨request.body, text, fields, carries, own.symm, readable, knows⟩
        · exact Or.inl waits
      · exact Or.inr stored
  · refine Or.inr ⟨error, refused, ?_, still⟩
    rintro key rfl
    rcases known key rfl with isKnown | planned
    · have absent : world.events.find? (Receiver.newEvent request fields).eventId = none := unknown
      rw [absent] at isKnown
      cases isKnown
    · exact vouched.truthful _ planned key rfl

theorem release {key : String} {answer : Except StoreError Unit}
    (vouched : world.Vouched carried (key :: pending))
    (performed : world.perform (.unmark .fingerprints key) = some (answer, after)) :
    after.Vouched carried pending := by
  have taken : world.takeRefusal (.unmark .fingerprints) = (none, world) := by
    unfold takeRefusal
    rw [vouched.releases]
  have erased : after.fingerprints = world.fingerprints.erase key := by
    simp only [perform, unlessRefused, taken] at performed
    cases performed
    rfl
  have kept := vouched.performed performed (List.Subset.refl _) fun entry member => by
    rw [erased] at member
    exact Or.inr (List.mem_filter.mp member).1
  refine ⟨fun entry member => ?_, kept.truthful, kept.releases⟩
  rcases kept.stored entry member with waits | stored
  · rcases List.mem_cons.mp waits with own | waits
    · rw [erased] at member
      have other := (List.mem_filter.mp member).2
      simp [own] at other
    · exact Or.inl waits
  · exact Or.inr stored

end Vouched

end World

/-! ## Runs that keep no other fingerprints -/

theorem Receiver.Answers.elsewhere {request : Receiver.Request} {call : Call}
    (answers : Receiver.Answers request call) : call.touches .fingerprints = false := by
  cases call with
  | mark | tryMark | unmark => exact answers.elim
  | _ => rfl

theorem DeadLetter.Handles.elsewhere {call : Call} (handles : DeadLetter.Handles call) :
    call.touches .fingerprints = false := by
  cases call with
  | mark | tryMark | unmark => exact handles.elim
  | _ => rfl

theorem Processor.Works.elsewhere {call : Call} (works : Processor.Works call) :
    call.touches .fingerprints = false := by
  cases call with
  | mark | tryMark | unmark => exact works.elim
  | _ => rfl

section Vouching

variable {world last : World} {carried : Bytes → Prop} {pending : List String}

namespace Receiver

variable {request : Request} {result : Except ReceiveError Receipt}

theorem persist_vouched {text : String} {fields : EventFields} (carries : carried request.body)
    (readable : readBody request.body = .ok (text, fields))
    (vouched : world.Vouched carried (bodyFingerprint request.body :: pending))
    (unknown : world.events.find? fields.eventId = none)
    (run : (persist request.now (newEvent request fields) text).outcome.run world =
      some (result, last)) :
    last.Vouched carried pending := by
  rw [persist_outcome] at run
  obtain ⟨answer, middle, created, goesOn⟩ := Program.run_call_eq_some.mp run
  have same : Text.utf8 text = request.body := utf8_of_readBody readable
  rcases vouched.createEvent carries readable unknown created with
    ⟨rfl | ⟨key, rfl⟩, settled⟩ | ⟨error, rfl, other, still⟩
  · exact settled.run ((supply_answers same ..).imp fun _ => Answers.elsewhere) goesOn
  · obtain ⟨found, looked, finds, goesOn⟩ := Program.run_call_eq_some.mp goesOn
    have stillSettled := settled.elsewhere rfl finds
    match found with
    | .error error =>
        cases goesOn
        exact stillSettled
    | .ok none =>
        cases goesOn
        exact stillSettled
    | .ok (some known) =>
        have answers := acknowledge_answers same known
        exact stillSettled.run (answers.imp fun _ => Answers.elsewhere) goesOn
  · have releases : ∃ answer, middle.perform
        (.unmark .fingerprints (bodyFingerprint request.body)) = some (answer, last) := by
      cases error with
      | duplicate key => exact absurd rfl (other key)
      | notFound key | unavailable reason =>
          obtain ⟨answer, final, released, ended⟩ := Program.run_call_eq_some.mp goesOn
          cases ended
          exact ⟨answer, released⟩
    obtain ⟨answer, released⟩ := releases
    exact still.release released

theorem takeIn_vouched {receiver : Receiver} (carries : carried request.body)
    (vouched : world.Vouched carried pending)
    (run : (receiver.takeIn request).outcome.run world = some (result, last)) :
    last.Vouched carried pending := by
  cases readable : readBody request.body with
  | error error =>
      rw [takeIn_outcome_unreadable readable] at run
      cases run
      exact vouched
  | ok read =>
      obtain ⟨text, fields⟩ := read
      have same : Text.utf8 text = request.body := utf8_of_readBody readable
      rw [takeIn_outcome readable] at run
      obtain ⟨found, looked, finds, goesOn⟩ := Program.run_call_eq_some.mp run
      have settled := vouched.elsewhere rfl finds
      match found with
      | .error error =>
          cases goesOn
          exact settled
      | .ok (some known) =>
          have answers := acknowledge_answers same known
          exact settled.run (answers.imp fun _ => Answers.elsewhere) goesOn
      | .ok none =>
          dsimp only at goesOn
          rw [Program.run_bind] at goesOn
          obtain ⟨⟨marked, middle⟩, marks, goesOn⟩ := Option.bind_eq_some_iff.mp goesOn
          obtain ⟨waits, kept⟩ := settled.markIfAbsent marks
          match marked with
          | .error error =>
              cases goesOn
              exact kept nofun
          | .ok false =>
              have audits : (auditRejection request
                  ReceiveError.replayDetected.code).outcome.Uses (Answers request) :=
                auditRejection_answers _
              refine (kept nofun).run ((audits.imp fun _ => Answers.elsewhere).bind ?_) goesOn
              intro audited
              cases audited <;> exact trivial
          | .ok true =>
              have unknown : middle.events.find? fields.eventId = none := by
                rw [((markIfAbsent_checks ..).untouched marks).stores.events,
                  (World.perform_sameStores rfl finds).events]
                exact (World.perform_findEvent finds).symm
              exact persist_vouched carries readable waits unknown goesOn

theorem receive_vouched {receiver : Receiver} (carries : carried request.body)
    (vouched : world.Vouched carried pending)
    (run : (receiver.receive request).outcome.run world = some (result, last)) :
    last.Vouched carried pending := by
  by_cases empty : request.body = []
  · rw [receive_outcome_empty empty] at run
    cases run
    exact vouched
  · rw [receive_outcome empty, Program.run_bind] at run
    obtain ⟨⟨verdict, verified⟩, verifies, run⟩ := Option.bind_eq_some_iff.mp run
    have idle := receiver.verifier.verify_idle request.now.seconds request.claim request.body
    have settled := vouched.run (idle.imp fun _ quiet => quiet.2.1) verifies
    cases verdict with
    | error error =>
        exact settled.run ((reject_answers error).imp fun _ => Answers.elsewhere) run
    | ok value => exact takeIn_vouched carries settled run

end Receiver

def Circumstance.Releasing : Circumstance → Prop
  | .refuse site _ => site ≠ .unmark .fingerprints
  | _ => True

def Episode.Completes : Episode → Prop
  | .run _ => True
  | .breakOff (.receive _) _ => False
  | .breakOff _ _ => True
  | .change circumstance => circumstance.Truthful ∧ circumstance.Releasing

theorem Pipeline.program_elsewhere (pipeline : Pipeline) {task : Task}
    (other : ∀ request, task ≠ .receive request) :
    (pipeline.program task).Uses fun call => call.touches .fingerprints = false := by
  cases task with
  | receive request => exact absurd rfl (other request)
  | pass now =>
      have works := pipeline.processor.pass_works pipeline.delivers now
      exact (works.imp fun _ => Processor.Works.elsewhere).bind fun _ => trivial
  | capture now =>
      have handles := DeadLetter.capture_handles now
      exact (handles.imp fun _ => DeadLetter.Handles.elsewhere).bind fun _ => trivial
  | replay now entryId =>
      have handles := DeadLetter.replay_handles now entryId
      exact (handles.imp fun _ => DeadLetter.Handles.elsewhere).bind fun _ => trivial

theorem World.Vouched.take {pipeline : Pipeline} (vouched : world.Vouched carried pending)
    {episode : Episode} (completes : episode.Completes)
    (carries : ∀ body, episode.body? = some body → carried body)
    (taken : world.take pipeline episode = some last) : last.Vouched carried pending := by
  cases episode with
  | run task =>
      obtain ⟨⟨outcome, final⟩, run, rfl⟩ := Option.map_eq_some_iff.mp taken
      cases task with
      | receive request =>
          rw [Pipeline.program, Program.run_bind] at run
          obtain ⟨⟨result, final⟩, run, ended⟩ := Option.bind_eq_some_iff.mp run
          cases ended
          exact Receiver.receive_vouched (carries request.body rfl) vouched run
      | pass | capture | replay =>
          refine vouched.run (pipeline.program_elsewhere ?_) run
          rintro _ ⟨⟩
  | breakOff task calls =>
      cases task with
      | receive request => exact completes.elim
      | pass | capture | replay =>
          refine vouched.runFor (pipeline.program_elsewhere ?_) taken
          rintro _ ⟨⟩
  | change circumstance =>
      obtain ⟨truthful, releasing⟩ := completes
      cases taken
      refine ⟨fun entry member => ?_, ?_, ?_⟩
      · have marks : (world.under circumstance).fingerprints = world.fingerprints :=
          world.under_marks circumstance .fingerprints
        rw [marks] at member
        rw [World.VouchesFor, (world.under_sameStores circumstance).events]
        exact vouched.stored entry member
      · exact Circumstance.planned truthful vouched.truthful
      · cases circumstance with
        | refuse site plan =>
            have other : Site.unmark .fingerprints ≠ site := Ne.symm releasing
            simp only [World.under, World.refuse, if_neg other]
            exact vouched.releases
        | _ => exact vouched.releases

theorem World.Vouched.serve {pipeline : Pipeline} {episodes : List Episode}
    (vouched : world.Vouched carried pending) (complete : ∀ episode ∈ episodes, episode.Completes)
    (carries : ∀ episode ∈ episodes, ∀ body, episode.body? = some body → carried body)
    (served : world.serve pipeline episodes = some last) : last.Vouched carried pending := by
  induction episodes generalizing world with
  | nil =>
      cases served
      exact vouched
  | cons episode rest ih =>
      simp only [World.serve, bind, Option.bind_eq_some_iff] at served
      obtain ⟨middle, taken, served⟩ := served
      have first := vouched.take (complete episode List.mem_cons_self)
        (carries episode List.mem_cons_self) taken
      exact ih first (fun other member => complete other (List.mem_cons_of_mem _ member))
        (fun other member => carries other (List.mem_cons_of_mem _ member)) served

end Vouching

end WebhookRelay
