import WebhookRelay.Proofs.Liveness
import WebhookRelay.Proofs.Outcomes
import WebhookRelay.Proofs.Resending

/-!
# Taking back a mark

A request marks the fingerprint of its body before it stores the event.  Where the event cannot
be stored and the mark is taken back, the request leaves the stores, the audit trail and the
live fingerprints as it found them.  From then on the fingerprint is kept only for the stored
event, so the same body is accepted whenever it comes again, inside the replay window or later,
as long as its new mark ends within the range of the clock.  Where it would not, the process
ends.
-/

set_option autoImplicit false

namespace WebhookRelay

/-! ## What is undone -/

namespace World

variable {world marked after : World} {marks : Marks} {key : String} {ttl : Duration}

theorem perform_unmark
    (performed : world.perform (.unmark marks key) = some (.ok (), after)) :
    after.marks marks = (world.marks marks).erase key := by
  have taken := world.takeRefusal_unmarked (.unmark marks) marks
  rw [perform] at performed
  obtain ⟨_, impossible, _⟩ | changed := unlessRefused_cases performed
  · cases impossible
  · cases changed
    rw [setMarks_marks, taken.same]

theorem perform_createEvent_error {event : Event} {error : StoreError}
    (other : ∀ key, error ≠ .duplicate key)
    (performed : world.perform (.createEvent event) = some (.error error, after)) :
    world.SameStores after := by
  obtain ⟨jobs, deadLetters, ⟨_, _, stored | ⟨lost, _⟩⟩ | ⟨events, _⟩⟩ :=
    perform_createEvent performed
  · cases stored
  · cases lost
    exact absurd rfl (other _)
  · exact ⟨events, jobs, deadLetters⟩

/-- The stores, the audit trail and the live fingerprints are as they were. -/
structure Restored (before after : World) : Prop where
  stores : before.SameStores after
  audit : after.audit = before.audit
  live : LiveAlike .fingerprints before after

theorem Restored.trans {first second third : World} (before : first.Restored second)
    (after : second.Restored third) : first.Restored third :=
  ⟨before.stores.trans after.stores, after.audit.trans before.audit,
    before.live.trans after.live⟩

/-- Taking back the mark of a key that was not live leaves the keys live that were. -/
theorem OneMoreLive.takenBack (oneMore : OneMoreLive marks key ttl world marked)
    (unique : (world.marks marks).Unique)
    (absent : (world.marks marks).contains world.clock key = false)
    (clock : after.clock = marked.clock)
    (erased : after.marks marks = (marked.marks marks).erase key) :
    LiveAlike marks world after where
  clock := clock.trans oneMore.clock
  live time since other := by
    rw [erased]
    by_cases own : other = key
    · subst own
      rw [ExpiringSet.contains_erase_self, unique.contains_later since absent]
    · rw [ExpiringSet.contains_erase_other _ own, oneMore.live time since]
      simp [own]

end World

theorem markIfAbsent_beyond {world : World} {marks : Marks} {key : String} {ttl : Duration}
    (reliable : world.Reliable) (absent : ¬(world.marks marks).Has key)
    (beyond : ¬world.CanMark ttl) (mode : MarkMode) :
    (markIfAbsent marks mode key ttl).outcome.run world = none := by
  have noExpiry : world.clock.plus? ttl = none := by simpa [World.CanMark] using beyond
  rw [markIfAbsent_outcome]
  cases mode with
  | atomic =>
      have notLive : ¬((world.marks marks).purge world.clock).Has key := by
        rintro ⟨entry, member, same⟩
        exact absent ⟨entry, ExpiringSet.mem_purge member, same⟩
      simp only [Program.run, reliable.tryMark_beyond notLive noExpiry]
  | stepwise =>
      have notLive : (world.marks marks).contains world.clock key = false := by
        rw [← Bool.not_eq_true]
        exact fun live => absent (ExpiringSet.has_of_contains live)
      have looked := reliable.seen marks key
      rw [notLive] at looked
      have aborts : world.perform (.mark marks key ttl) = none := by
        rw [World.perform, reliable.unlessRefused, World.markKey, ExpiringSet.insert?, noExpiry]
        rfl
      rw [Program.run_call looked]
      simp only [Program.run, aborts]

/-- A run uses up what is planned to be refused, and plans nothing. -/
theorem Program.run_refusals {α : Type} {program : Program α} {world after : World} {value : α}
    (run : program.run world = some (value, after)) (site : Site) :
    after.refusals site <:+ world.refusals site := by
  induction program generalizing world with
  | done result =>
      cases run
      exact List.suffix_refl _
  | call request next ih =>
      obtain ⟨answer, middle, performed, run⟩ := Program.run_call_eq_some.mp run
      exact (ih answer run).trans (World.perform_refusals performed site)

/-! ## The first attempt -/

namespace Receiver

variable {receiver : Receiver} {request : Request} {world failed : World} {event : Event}
  {error : StoreError}

/-- Taking in a new event that the store does not take: its fingerprint is marked as new before
that, and the mark is taken back after it. -/
inductive TakesBack (receiver : Receiver) (request : Request) (event : Event)
    (error : StoreError) (world failed : World) : Prop where
  | intro (text : String) (fields : EventFields) (looked marked refused : World)
      (readable : readBody request.body = .ok (text, fields))
      (isNew : event = newEvent request fields)
      (finds : world.perform (.findEvent fields.eventId) = some (.ok none, looked))
      (marks : (receiver.replay.checkAndMark (bodyFingerprint request.body)).outcome.run looked =
        some (.ok true, marked))
      (fails : marked.perform (.createEvent event) = some (.error error, refused))
      (undoes : refused.perform (.unmark .fingerprints (bodyFingerprint request.body)) =
        some (.ok (), failed))

section Recorded

variable {result : Except ReceiveError Receipt} {calls : List Answered} {key : String}

theorem persist_takesBack {text : String} {fields : EventFields}
    (same : Text.utf8 text = request.body)
    (recorded : (persist request.now (newEvent request fields) text).outcome.record world =
      some (result, calls, failed))
    (other : ∀ key, error ≠ .duplicate key)
    (lost : ⟨.createEvent event, .error error⟩ ∈ calls)
    (released : ⟨.unmark .fingerprints key, .ok ()⟩ ∈ calls) :
    result = .error (.ofStore error) ∧ event = newEvent request fields ∧ ∃ refused,
      world.perform (.createEvent event) = some (.error error, refused) ∧
      refused.perform (.unmark .fingerprints (bodyFingerprint request.body)) =
        some (.ok (), failed) := by
  rw [persist_outcome] at recorded
  obtain ⟨answer, refused, later, performed, goesOn, rfl⟩ :=
    Program.record_call_eq_some.mp recorded
  -- Only the first call stores an event, so its answer is the error.
  match answer with
  | .ok () =>
      rcases List.mem_cons.mp lost with first | after
      · cases first
      · exact ((supply_answers same ..).record goesOn _ after).elim
  | .error (.duplicate name) =>
      rcases List.mem_cons.mp lost with first | after
      · cases first
        exact absurd rfl (other name)
      · obtain ⟨found, looked, rest, _, ends, rfl⟩ := Program.record_call_eq_some.mp goesOn
        rcases List.mem_cons.mp after with second | last
        · cases second
        · match found with
          | .error error =>
              cases ends
              exact absurd last List.not_mem_nil
          | .ok none =>
              cases ends
              exact absurd last List.not_mem_nil
          | .ok (some known) =>
              exact ((acknowledge_answers same known).record ends _ last).elim
  | .error (.notFound reason) | .error (.unavailable reason) =>
      obtain ⟨answer, last, rest, releases, ended, rfl⟩ :=
        Program.record_call_eq_some.mp goesOn
      cases ended
      rcases List.mem_cons.mp lost with first | after
      · cases first
        rcases List.mem_cons.mp released with impossible | second
        · cases impossible
        · cases List.mem_singleton.mp second
          exact ⟨rfl, rfl, refused, performed, releases⟩
      · cases List.mem_singleton.mp after

theorem takeIn_takesBack
    (recorded : (receiver.takeIn request).outcome.record world = some (result, calls, failed))
    (other : ∀ key, error ≠ .duplicate key)
    (lost : ⟨.createEvent event, .error error⟩ ∈ calls)
    (released : ⟨.unmark .fingerprints key, .ok ()⟩ ∈ calls) :
    result = .error (.ofStore error) ∧ receiver.TakesBack request event error world failed := by
  cases readable : readBody request.body with
  | error error =>
      rw [takeIn_outcome_unreadable readable] at recorded
      cases recorded
      cases lost
  | ok read =>
      obtain ⟨text, fields⟩ := read
      have same : Text.utf8 text = request.body := utf8_of_readBody readable
      rw [takeIn_outcome readable] at recorded
      obtain ⟨found, looked, later, finds, goesOn, rfl⟩ :=
        Program.record_call_eq_some.mp recorded
      rcases List.mem_cons.mp lost with impossible | loses
      · cases impossible
      rcases List.mem_cons.mp released with impossible | releases
      · cases impossible
      match found with
      | .error error =>
          cases goesOn
          exact absurd loses List.not_mem_nil
      | .ok (some known) =>
          exact ((acknowledge_answers same known).record goesOn _ loses).elim
      | .ok none =>
          obtain ⟨fresh, early, marked, late, marks, ends, rfl⟩ := Program.record_bind goesOn
          have checks (call : Call) (answer : call.Answer) (member : ⟨call, answer⟩ ∈ early) :
              call.checks = true := (markIfAbsent_checks ..).record marks _ member
          have losesLate := (List.mem_append.mp loses).resolve_left fun member =>
            nomatch checks _ _ member
          have releasesLate := (List.mem_append.mp releases).resolve_left fun member =>
            nomatch checks _ _ member
          match fresh with
          | .error error =>
              cases ends
              exact absurd losesLate List.not_mem_nil
          | .ok false =>
              obtain ⟨audited, during, middle, after, audits, ended, rfl⟩ :=
                Program.record_bind ends
              rcases List.mem_append.mp losesLate with member | member
              · exact ((auditRejection_answers _).record audits _ member).elim
              · cases audited <;> cases ended <;> exact absurd member List.not_mem_nil
          | .ok true =>
              obtain ⟨ended, isNew, refused, fails, undoes⟩ :=
                persist_takesBack same ends other losesLate releasesLate
              exact ⟨ended, .intro text fields looked marked refused readable isNew finds
                (Program.run_of_record marks) fails undoes⟩

theorem receive_takesBack
    (recorded : (receiver.receive request).outcome.record world = some (result, calls, failed))
    (other : ∀ key, error ≠ .duplicate key)
    (lost : ⟨.createEvent event, .error error⟩ ∈ calls)
    (released : ⟨.unmark .fingerprints key, .ok ()⟩ ∈ calls) :
    result = .error (.ofStore error) ∧ ∃ value verified,
      (receiver.verifier.verify request.now.seconds request.claim request.body).outcome.run
        world = some (.ok value, verified) ∧
      receiver.TakesBack request event error verified failed := by
  by_cases empty : request.body = []
  · rw [receive_outcome_empty empty] at recorded
    cases recorded
    exact absurd lost List.not_mem_nil
  · rw [receive_outcome empty] at recorded
    obtain ⟨verdict, early, verified, late, verifies, goesOn, rfl⟩ :=
      Program.record_bind recorded
    have checks (call : Call) (answer : call.Answer) (member : ⟨call, answer⟩ ∈ early) :
        call.checks = true := (receiver.verifier.verify_checks ..).record verifies _ member
    have losesLate := (List.mem_append.mp lost).resolve_left fun member =>
      nomatch checks _ _ member
    have releasesLate := (List.mem_append.mp released).resolve_left fun member =>
      nomatch checks _ _ member
    cases verdict with
    | error error => exact ((reject_answers error).record goesOn _ losesLate).elim
    | ok value =>
        obtain ⟨ended, takesBack⟩ := takeIn_takesBack goesOn other losesLate releasesLate
        exact ⟨ended, value, verified, Program.run_of_record verifies, takesBack⟩

end Recorded

theorem verify_restored {verdict : Except VerificationError Verified} {verified : World}
    (verifies : (receiver.verifier.verify request.now.seconds request.claim
      request.body).outcome.run world = some (verdict, verified)) : world.Restored verified := by
  have still := (receiver.verifier.verify_idle ..).still verifies
  exact ⟨still.stores, (receiver.verifier.verify_checks ..).audit verifies, still.marks.liveAlike⟩

theorem TakesBack.restored (takesBack : receiver.TakesBack request event error world failed)
    (unique : world.fingerprints.Unique) (other : ∀ key, error ≠ .duplicate key) :
    world.Restored failed := by
  obtain ⟨text, fields, looked, marked, refused, _, _, finds, marks, fails, undoes⟩ := takesBack
  have looking : world.Unmarked .fingerprints looked := World.perform_unmarked rfl finds
  have failing : marked.Unmarked .fingerprints refused := World.perform_unmarked rfl fails
  have stillUnique : (looked.marks .fingerprints).Unique := by
    rw [looking.same]
    exact unique
  obtain ⟨new, _, oneMore⟩ | ⟨_, notNew, _⟩ := markIfAbsent_settles stillUnique marks
  · have erased := World.perform_unmark undoes
    rw [failing.same] at erased
    have clock : failed.clock = marked.clock :=
      (World.perform_clock undoes).trans failing.clock
    have checks := markIfAbsent_checks .fingerprints receiver.replay.mode
      (bodyFingerprint request.body) receiver.replay.window
    refine ⟨?_, ?_, looking.liveAlike.trans
      (oneMore.takenBack stillUnique new.absent clock erased)⟩
    · have found : world.SameStores looked := World.perform_sameStores rfl finds
      have undone : refused.SameStores failed := World.perform_sameStores rfl undoes
      exact found.trans ((checks.untouched marks).stores.trans
        ((World.perform_createEvent_error other fails).trans undone))
    · rw [World.perform_audit rfl undoes, World.perform_audit rfl fails, checks.audit marks,
        World.perform_audit rfl finds]
  · exact absurd rfl notNew

theorem TakesBack.forgets (takesBack : receiver.TakesBack request event error world failed) :
    ¬failed.fingerprints.Has (bodyFingerprint request.body) := by
  obtain ⟨_, _, _, _, _, _, _, _, _, _, undoes⟩ := takesBack
  have erased : failed.fingerprints = _ := World.perform_unmark undoes
  rw [erased]
  exact ExpiringSet.not_has_erase _ _

/-! ## The second attempt -/

/-- A new event whose fingerprint is not kept is taken in where all stores work, unless its
mark would end beyond the range of the clock. -/
theorem takeIn_unkept (receiver : Receiver) (reliable : world.Reliable) {text : String}
    {fields : EventFields} (readable : readBody request.body = .ok (text, fields))
    (unknown : world.events.find? fields.eventId = none)
    (unkept : ¬world.fingerprints.Has (bodyFingerprint request.body))
    (fresh : world.jobs.find? (world.ids.draw .job).1 = none) :
    (world.CanMark receiver.replay.window → ∃ last,
      (receiver.takeIn request).outcome.run world =
        some (.ok (.accepted fields.eventId (world.ids.draw .job).1), last) ∧
      last.jobs.jobs = world.jobs.jobs ++
        [.create (world.ids.draw .job).1 request.now fields.eventId text]) ∧
    (¬world.CanMark receiver.replay.window →
      (receiver.takeIn request).outcome.run world = none) := by
  have performed := reliable.findEvent fields.eventId
  rw [unknown] at performed
  refine ⟨fun inRange => ?_, fun beyond => ?_⟩
  · have clear : world.Clear Marks.fingerprints.sites :=
      fun site _ => reliable.letsThrough site
    obtain ⟨isNew, marked, marks⟩ :=
      markIfAbsent_run receiver.replay.mode (bodyFingerprint request.body) clear inRange
    obtain ⟨stores, ids, _⟩ := (markIfAbsent_checks ..).untouched marks
    cases isNew with
    | false =>
        obtain ⟨entry, member, same⟩ := markIfAbsent_refused marks
        exact absurd ⟨entry, ExpiringSet.mem_purge member, same⟩ unkept
    | true =>
        have stillUnknown : marked.events.find? (newEvent request fields).eventId = none := by
          rw [stores.events]
          exact unknown
        have stillFresh : marked.jobs.find? (marked.ids.draw .job).1 = none := by
          rw [stores.jobs, ids]
          exact fresh
        have persists :=
          persist_run (reliable.run marks) request.now stillUnknown stillFresh text
        rw [ids, stores.jobs] at persists
        exact ⟨_, (takeIn_marked readable performed marks).trans persists, rfl⟩
  · have absent : ¬(world.marks .fingerprints).Has (bodyFingerprint request.body) := unkept
    have aborts := markIfAbsent_beyond reliable absent beyond receiver.replay.mode
    rw [takeIn_outcome readable, Program.run_call performed]
    show (Program.bind _ _).run world = none
    rw [Program.run_bind]
    exact congrArg (fun run => Option.bind run _) aborts

theorem receive_unkept (reliable : world.Reliable) {text : String} {fields : EventFields}
    (readable : readBody request.body = .ok (text, fields))
    (verifies : receiver.Verifies request world)
    (unknown : world.events.find? fields.eventId = none)
    (unkept : ¬world.fingerprints.Has (bodyFingerprint request.body))
    (fresh : world.jobs.find? (world.ids.draw .job).1 = none) :
    (world.CanMark receiver.replay.window → ∃ last,
      (receiver.receive request).outcome.run world =
        some (.ok (.accepted fields.eventId (world.ids.draw .job).1), last) ∧
      last.jobs.jobs = world.jobs.jobs ++
        [.create (world.ids.draw .job).1 request.now fields.eventId text]) ∧
    (¬world.CanMark receiver.replay.window →
      (receiver.receive request).outcome.run world = none) := by
  obtain ⟨value, verified, verifies⟩ := verifies
  have still := (receiver.verifier.verify_idle ..).still verifies
  have ids := ((receiver.verifier.verify_checks ..).untouched verifies).ids
  have fingerprints : verified.fingerprints = world.fingerprints := still.marks.same
  have stillUnknown : verified.events.find? fields.eventId = none := by
    rw [still.stores.events]
    exact unknown
  have stillUnkept : ¬verified.fingerprints.Has (bodyFingerprint request.body) := by
    rw [fingerprints]
    exact unkept
  have stillFresh : verified.jobs.find? (verified.ids.draw .job).1 = none := by
    rw [still.stores.jobs, ids]
    exact fresh
  have takes := takeIn_unkept receiver (reliable.run verifies) readable stillUnknown stillUnkept
    stillFresh
  rw [World.CanMark, still.marks.clock, ids, still.stores.jobs] at takes
  rw [receive_outcome (nonempty_of_readBody readable), Program.run_bind, verifies]
  exact takes

end Receiver

/-- What may come before a body is sent again: tasks and changes one after the other, where
requests run to their end, no store pretends to know an event, no release is refused and no
other body has the same fingerprint. -/
structure Pipeline.Interlude (pipeline : Pipeline) (body : Bytes) (failed : World)
    (episodes : List Episode) (later : World) : Prop where
  truthful : ∀ refusal ∈ failed.refusals .createEvent, Refusal.Truthful refusal
  releases : failed.refusals (.unmark .fingerprints) = []
  completes : ∀ episode ∈ episodes, episode.Completes
  apart : ∀ episode ∈ episodes, ∀ other, episode.body? = some other →
    bodyFingerprint other = bodyFingerprint body → other = body
  served : failed.serve pipeline episodes = some later

/-- A fingerprint that is not kept is kept again only once the event of its body is stored. -/
theorem Pipeline.Interlude.unkept {pipeline : Pipeline} {body : Bytes} {failed later : World}
    {episodes : List Episode} (interlude : pipeline.Interlude body failed episodes later)
    (forgotten : ¬failed.fingerprints.Has (bodyFingerprint body)) {text : String}
    {fields : EventFields} (readable : Receiver.readBody body = .ok (text, fields))
    (unstored : ¬later.events.Knows fields.eventId) :
    ¬later.fingerprints.Has (bodyFingerprint body) := by
  intro kept
  -- What is kept at the start may be without an event, but this fingerprint is not among it.
  have start : failed.Vouched (fun other => ∃ episode ∈ episodes, episode.body? = some other)
      (failed.fingerprints.entries.map Prod.fst) :=
    ⟨fun entry member => Or.inl (List.mem_map_of_mem member), interlude.truthful,
      interlude.releases⟩
  have vouched := start.serve interlude.completes
    (fun episode member other brought => ⟨episode, member, brought⟩) interlude.served
  have decided : bodyFingerprint body ∉ failed.fingerprints.entries.map Prod.fst := by
    intro waits
    obtain ⟨entry, member, same⟩ := List.mem_map.mp waits
    exact forgotten ⟨entry, member, same⟩
  refine unstored (vouched.knows_of_has readable kept decided ?_)
  rintro other ⟨episode, member, brought⟩ same
  exact interlude.apart episode member other brought same

/-- A request whose event the store does not take, although it is no duplicate, ends with an
internal error.  Where the release of its fingerprint succeeds, the stores, the audit trail and
the live fingerprints are as they were before the request.  Whatever comes between, a verified
request with the same body is then accepted, if its event is still not stored and no store fails,
and adds exactly one job, provided that the replay window of its mark ends within the range of
the clock; if it does not, the process ends. -/
theorem failed_persist_is_rolled_back (pipeline : Pipeline) {world failed : World}
    (unique : world.fingerprints.Unique) {request : Receiver.Request}
    {result : Except ReceiveError Receipt} {calls : List Answered}
    (attempt : (pipeline.receiver.receive request).outcome.record world =
      some (result, calls, failed))
    {event : Event} {error : StoreError} (other : ∀ key, error ≠ .duplicate key)
    (lost : ⟨.createEvent event, .error error⟩ ∈ calls) {key : String}
    (released : ⟨.unmark .fingerprints key, .ok ()⟩ ∈ calls) :
    result = .error (.internal error.message) ∧ world.Restored failed ∧
    ∀ (episodes : List Episode) (later : World) (again : Receiver.Request),
      pipeline.Interlude request.body failed episodes later → again.body = request.body →
      pipeline.receiver.Verifies again later → ¬later.events.Knows event.eventId →
      later.Reliable → later.jobs.find? (later.ids.draw .job).1 = none →
      (later.CanMark pipeline.receiver.replay.window → ∃ last text,
        (pipeline.receiver.receive again).outcome.run later =
          some (.ok (.accepted event.eventId (later.ids.draw .job).1), last) ∧
        Text.utf8 text = request.body ∧ last.jobs.jobs = later.jobs.jobs ++
          [.create (later.ids.draw .job).1 again.now event.eventId text]) ∧
      (¬later.CanMark pipeline.receiver.replay.window →
        (pipeline.receiver.receive again).outcome.run later = none) := by
  obtain ⟨ended, value, verified, verifies, takesBack⟩ :=
    Receiver.receive_takesBack attempt other lost released
  have verifying := Receiver.verify_restored verifies
  have stillUnique : verified.fingerprints.Unique := by
    have still := (pipeline.receiver.verifier.verify_idle ..).still verifies
    have same : verified.fingerprints = world.fingerprints := still.marks.same
    rw [same]
    exact unique
  refine ⟨ended, verifying.trans (takesBack.restored stillUnique other), ?_⟩
  intro episodes later again interlude sameBody verifiesAgain unstored reliable fresh
  have forgotten := takesBack.forgets
  obtain ⟨text, fields, _, _, _, readable, rfl, _⟩ := takesBack
  have unkept := interlude.unkept forgotten readable unstored
  rw [← sameBody] at readable unkept
  obtain ⟨accepts, aborts⟩ := Receiver.receive_unkept reliable readable verifiesAgain
    (Option.not_isSome_iff_eq_none.mp unstored) unkept fresh
  refine ⟨fun inRange => ?_, aborts⟩
  obtain ⟨last, run, jobs⟩ := accepts inRange
  exact ⟨last, text, run, sameBody ▸ Receiver.utf8_of_readBody readable, jobs⟩

def Answered.unstored? : Answered → Option (Event × StoreError)
  | ⟨.createEvent event, .error error⟩ => some (event, error)
  | _ => none

theorem Answered.unstored?_eq_some {made : Answered} {event : Event} {error : StoreError} :
    made.unstored? = some (event, error) ↔ made = ⟨.createEvent event, .error error⟩ := by
  constructor
  · intro unstored
    unfold unstored? at unstored
    split at unstored
    · cases unstored
      rfl
    · cases unstored
  · rintro rfl
    rfl

def Answered.released? : Answered → Option String
  | ⟨.unmark .fingerprints key, .ok ()⟩ => some key
  | _ => none

theorem Answered.released?_eq_some {made : Answered} {key : String} :
    made.released? = some key ↔ made = ⟨.unmark .fingerprints key, .ok ()⟩ := by
  constructor
  · intro released
    unfold released? at released
    split at released
    · cases released
      rfl
    · cases released
  · rintro rfl
    rfl

namespace Sample

def unwritable : World :=
  keyedWorld.refuse .createEvent [some (.store (.unavailable "down"))]

theorem unwritable_reliable {program : Program (Except ReceiveError Receipt)}
    {result : Except ReceiveError Receipt} {last : World}
    (run : program.run unwritable = some (result, last))
    (spent : last.refusals .createEvent = []) : last.Reliable := by
  intro site
  by_cases own : site = .createEvent
  · rw [own]
    exact spent
  · have suffix := Program.run_refusals run site
    have nothing : unwritable.refusals site = [] := by simp [unwritable, World.refuse, own]; rfl
    rw [nothing] at suffix
    exact List.suffix_nil.mp suffix

def repeatingPipeline : Pipeline := {}

def minute : List Episode :=
  [.change (.advance (.ofSeconds 60))]

set_option maxRecDepth 100000 in
theorem body_is_accepted_a_minute_later :
    ∃ failed later last,
      (repeatingPipeline.receiver.receive signedRequest).outcome.run unwritable =
        some (.error (.internal "Store unavailable: down"), failed) ∧
      unwritable.Restored failed ∧
      failed.serve repeatingPipeline minute = some later ∧
      (repeatingPipeline.receiver.receive signedRequest).outcome.run later =
        some (.ok (.accepted "e" (.ofNat 0)), last) ∧
      last.jobs.jobs.length = 1 := by
  obtain ⟨⟨result, calls, failed⟩, recorded, ⟨⟨event, error⟩, unstored, named, rfl⟩,
      ⟨key, taken, _⟩, spent, drawn, inRange, ⟨verdict, verified⟩, verifies, isOk⟩ :
      ∃ ended ∈ (repeatingPipeline.receiver.receive signedRequest).outcome.record unwritable,
        (∃ lost ∈ ended.2.1.findSome? Answered.unstored?,
          lost.1.eventId = "e" ∧ lost.2 = .unavailable "down") ∧
        (∃ key ∈ ended.2.1.findSome? Answered.released?, True) ∧
        ended.2.2.refusals .createEvent = [] ∧ (ended.2.2.ids.draw .job).1 = .ofNat 0 ∧
        (ended.2.2.advance (.ofSeconds 60)).CanMark repeatingPipeline.receiver.replay.window ∧
        ∃ verdict ∈ (repeatingPipeline.receiver.verifier.verify 0 signedRequest.claim
          body).outcome.run (ended.2.2.advance (.ofSeconds 60)),
          verdict.1.toOption.isSome = true := by
    decide +kernel
  obtain ⟨lost, lostMember, isLost⟩ := List.exists_of_findSome?_eq_some unstored
  obtain ⟨released, releasedMember, isReleased⟩ := List.exists_of_findSome?_eq_some taken
  obtain rfl := Answered.unstored?_eq_some.mp isLost
  obtain rfl := Answered.released?_eq_some.mp isReleased
  have unique : unwritable.fingerprints.Unique := List.nodup_nil
  have other (key : String) : StoreError.unavailable "down" ≠ .duplicate key := by simp
  obtain ⟨rfl, restored, accepts⟩ := failed_persist_is_rolled_back repeatingPipeline unique
    recorded other lostMember releasedMember
  have attempt := Program.run_of_record recorded
  have reliable := unwritable_reliable attempt spent
  have interlude : repeatingPipeline.Interlude signedRequest.body failed minute
      (failed.advance (.ofSeconds 60)) := {
    truthful := by simp [reliable .createEvent]
    releases := reliable _
    completes := by simp [minute, Episode.Completes, Circumstance.Truthful,
      Circumstance.Releasing]
    apart := by simp [minute, Episode.body?]
    served := rfl }
  have verifiesAgain : repeatingPipeline.receiver.Verifies signedRequest
      (failed.advance (.ofSeconds 60)) := by
    cases verdict with
    | error error => cases isOk
    | ok value => exact ⟨value, verified, verifies⟩
  have noEvent : ¬(failed.advance (.ofSeconds 60)).events.Knows event.eventId := by
    show ¬failed.events.Knows event.eventId
    rw [restored.stores.events]
    exact Bool.false_ne_true
  have noJobs : failed.jobs.jobs = [] := by
    rw [restored.stores.jobs]
    rfl
  have fresh : (failed.advance (.ofSeconds 60)).jobs.find?
      ((failed.advance (.ofSeconds 60)).ids.draw .job).1 = none := by
    show failed.jobs.find? _ = none
    simp [JobStore.find?, noJobs]
  obtain ⟨again, _⟩ := accepts minute (failed.advance (.ofSeconds 60)) signedRequest interlude
    rfl verifiesAgain noEvent reliable fresh
  obtain ⟨last, text, run, _, jobs⟩ := again inRange
  refine ⟨failed, _, last, attempt, restored, rfl, ?_, ?_⟩
  · rw [← named, ← drawn]
    exact run
  · rw [jobs]
    show (failed.jobs.jobs ++ _).length = 1
    rw [noJobs]
    rfl

/-- A pipeline without signatures, whose replay window leaves a billion seconds of the
clock. -/
def patientPipeline : Pipeline where
  receiver := {
    verifier := { skip := true }
    replay := { window := .ofSeconds 9223372035854775807 } }

def lifetime : List Episode :=
  [.change (.advance (.ofSeconds 1000000001))]

set_option maxRecDepth 100000 in
/-- The mark is taken back, and the same body ends the process when it comes too late. -/
theorem body_ends_the_process_a_lifetime_later :
    ∃ calls failed later,
      (patientPipeline.receiver.receive request).outcome.record unwritable =
        some (.error (.internal "Store unavailable: down"), calls, failed) ∧
      (calls.findSome? Answered.unstored?).map Prod.snd = some (.unavailable "down") ∧
      (calls.findSome? Answered.released?).isSome = true ∧
      failed.serve patientPipeline lifetime = some later ∧
      patientPipeline.receiver.Verifies request later ∧
      later.events.find? "e" = none ∧ later.Reliable ∧
      (patientPipeline.receiver.receive request).outcome.run later = none := by
  obtain ⟨⟨result, calls, failed⟩, recorded, rfl, unstored, released, spent, absent, aborts⟩ :
      ∃ ended ∈ (patientPipeline.receiver.receive request).outcome.record unwritable,
        ended.1 = .error (.internal "Store unavailable: down") ∧
        (ended.2.1.findSome? Answered.unstored?).map Prod.snd = some (.unavailable "down") ∧
        (ended.2.1.findSome? Answered.released?).isSome = true ∧
        ended.2.2.refusals .createEvent = [] ∧ ended.2.2.events.find? "e" = none ∧
        ((patientPipeline.receiver.receive request).outcome.run
          (ended.2.2.advance (.ofSeconds 1000000001))).isNone = true := by
    decide +kernel
  have attempt := Program.run_of_record recorded
  have reliable := unwritable_reliable attempt spent
  refine ⟨calls, failed, failed.advance (.ofSeconds 1000000001), recorded, unstored, released, rfl,
    ?_, absent, reliable, Option.isNone_iff_eq_none.mp aborts⟩
  rw [Receiver.Verifies, Verifier.verify_outcome_skipped rfl]
  exact ⟨_, _, rfl⟩

end Sample

end WebhookRelay
