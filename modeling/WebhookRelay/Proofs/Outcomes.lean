import Mathlib.Data.List.Forall2
import WebhookRelay.Proofs.Chronicle
import WebhookRelay.Proofs.Endings

/-!
# What requests are answered

Requests that come one after the other to stores that never fail.  Which answer a request
gets is decided by its signature, its body and the requests that were accepted before it,
whatever has expired meanwhile: an event id is looked up before the body is compared with
bodies that were seen, and every body that was seen belongs to an event that is known.
-/

set_option autoImplicit false

namespace WebhookRelay

def Episode.Requests : Episode → Prop
  | .run (.receive _) => True
  | .change circumstance => circumstance.Calm
  | _ => False

def Episode.Bodies (episodes : List Episode) (body : Bytes) : Prop :=
  ∃ request : Receiver.Request, .run (.receive request) ∈ episodes ∧ request.body = body

namespace Receiver

/-- The body is a JSON text with an event id, which is this one, and an order id. -/
def Request.Names (request : Request) (eventId : String) : Prop :=
  ∃ text value fields, Text.ofUtf8? request.body = some text ∧ Json.parse? text = some value ∧
    EventFields.ofJson? value = some fields ∧ fields.eventId = eventId

def Verifies (receiver : Receiver) (request : Request) (world : World) : Prop :=
  ∃ value after, (receiver.verifier.verify request.now.seconds request.claim
    request.body).outcome.run world = some (.ok value, after)

/-- The request would be verified, or its signature is one that was used before. -/
def Authenticates (receiver : Receiver) (request : Request) (world : World) : Prop :=
  ∃ verdict after, (receiver.verifier.verify request.now.seconds request.claim
    request.body).outcome.run world = some (verdict, after) ∧ Verifier.IsAuthentic verdict

theorem names_iff {request : Request} {eventId : String} :
    request.Names eventId ↔
      ∃ text fields, readBody request.body = .ok (text, fields) ∧ fields.eventId = eventId := by
  constructor
  · rintro ⟨text, value, fields, isText, isJson, hasFields, same⟩
    exact ⟨text, fields, by simp only [readBody, isText, isJson, hasFields], same⟩
  · rintro ⟨text, fields, readable, same⟩
    have known := knownFields_of_readBody readable
    simp only [knownFields?, bind, Option.bind_eq_some_iff] at known
    obtain ⟨read, isText, value, isJson, found, hasFields, result⟩ := known
    cases result
    exact ⟨text, value, fields, isText, isJson, hasFields, same⟩

theorem Request.Names.unique {one other : Request} {first second : String}
    (names : one.Names first) (otherNames : other.Names second)
    (same : one.body = other.body) : first = second := by
  obtain ⟨_, _, readable, rfl⟩ := names_iff.mp names
  obtain ⟨_, _, otherReadable, rfl⟩ := names_iff.mp otherNames
  rw [same, otherReadable] at readable
  cases readable
  rfl

end Receiver

namespace Chapter

/-- The chapter tells of a request that was accepted as the first one of its event. -/
def Accepts (chapter : Chapter) (eventId : String) : Prop :=
  ∃ jobId, chapter.outcome = .received (.ok (.accepted eventId jobId))

def Acknowledges (chapter : Chapter) (eventId : String) : Prop :=
  chapter.outcome = .received (.ok (.duplicate eventId))

def accepts (chapter : Chapter) : Bool :=
  match chapter.outcome.receipt? with
  | some (.accepted _ _) => true
  | _ => false

theorem accepts_iff {chapter : Chapter} :
    chapter.accepts = true ↔ ∃ eventId, chapter.Accepts eventId := by
  unfold accepts Accepts
  split
  · rename_i eventId jobId given
    exact ⟨fun _ => ⟨eventId, jobId, Outcome.receipt?_eq_some.mp given⟩, fun _ => rfl⟩
  · rename_i other
    refine ⟨nofun, fun ⟨eventId, jobId, ended⟩ => ?_⟩
    exact absurd (Outcome.receipt?_eq_some.mpr ended) (other eventId jobId)

/-- The job is the one that the accepted request of the chapter has put on the queue: it is
pending without any attempt, and it carries the body of the request. -/
def Enqueues (chapter : Chapter) (job : Job) : Prop :=
  ∃ request eventId jobId text, chapter.task = .receive request ∧
    chapter.outcome = .received (.ok (.accepted eventId jobId)) ∧
    Text.utf8 text = request.body ∧ job = .create jobId request.now eventId text

/-- The request of a chapter is answered as its signature, its body and the chapters before
it demand. -/
structure Lawful (receiver : Receiver) (earlier : List Chapter) (chapter : Chapter)
    (request : Receiver.Request) : Prop where
  accepts : ∀ eventId, chapter.Accepts eventId ↔
    receiver.Verifies request chapter.before ∧ request.Names eventId ∧
      ¬∃ former ∈ earlier, former.Accepts eventId
  acknowledges : ∀ eventId, chapter.Acknowledges eventId ↔
    receiver.Authenticates request chapter.before ∧ request.Names eventId ∧
      ∃ former ∈ earlier, former.Accepts eventId
  noReplay : chapter.outcome ≠ .received (.error .replayDetected)

end Chapter

namespace Chronicle

/-- What is stored tells the same as what is written down.  The bodies are those of the
run, and the ids are drawn from the given supply. -/
structure Consistent (receiver : Receiver) (bodies : Bytes → Prop) (ids : IdSupply)
    (chronicle : Chronicle) : Prop where
  reliable : chronicle.world.Reliable
  settled : chronicle.world.Settled
  knows : ∀ eventId, chronicle.world.events.Knows eventId ↔
    ∃ chapter ∈ chronicle.chapters, chapter.Accepts eventId
  seen : ∀ entry ∈ chronicle.world.fingerprints.entries, ∃ request : Receiver.Request, ∃ eventId,
    bodies request.body ∧ request.Names eventId ∧ chronicle.world.events.Knows eventId ∧
      entry.1 = bodyFingerprint request.body
  jobs : List.Forall₂ Chapter.Enqueues (chronicle.chapters.filter Chapter.accepts)
    chronicle.world.jobs.jobs
  numbered : chronicle.world.Numbered ids chronicle.chapters.length
  lawful : ∀ earlier chapter later request, chronicle.chapters = earlier ++ chapter :: later →
    chapter.task = .receive request → chapter.Lawful receiver earlier request

variable {pipeline : Pipeline} {receiver : Receiver} {bodies : Bytes → Prop} {ids : IdSupply}
  {chronicle after : Chronicle}

theorem consistent_opening {world : World} (blank : world.Blank)
    (unmarked : world.fingerprints.entries = []) (reliable : world.Reliable) :
    Consistent receiver bodies world.ids (opening world) where
  reliable := reliable
  settled := by simp [World.Settled, opening, blank.events]
  knows eventId := by simp [EventStore.knows_iff, opening, blank.events]
  seen := by simp [opening, unmarked]
  jobs := by simp [opening, blank.jobs]
  numbered := .opening blank.jobs
  lawful earlier chapter later request same := by simp [opening] at same

namespace Consistent

theorem knows_of_seen (consistent : chronicle.Consistent receiver bodies ids)
    (apart : ∀ one other, bodies one → bodies other →
      bodyFingerprint one = bodyFingerprint other → one = other)
    {request : Receiver.Request} {eventId : String} (own : bodies request.body)
    (names : request.Names eventId) (seen : chronicle.world.HasSeen request.body) :
    chronicle.world.events.Knows eventId := by
  obtain ⟨entry, member, sameKey⟩ := seen
  obtain ⟨former, formerId, formerBody, formerNames, known, key⟩ := consistent.seen entry member
  have same : former.body = request.body :=
    apart _ _ formerBody own (key.symm.trans sameKey)
  rw [← formerNames.unique names same]
  exact known

theorem lawful_snoc {chapters : List Chapter} {last : Chapter}
    (before : ∀ earlier chapter later request, chapters = earlier ++ chapter :: later →
      chapter.task = .receive request → chapter.Lawful receiver earlier request)
    (isLast : ∀ request, last.task = .receive request → last.Lawful receiver chapters request) :
    ∀ earlier chapter later request, chapters ++ [last] = earlier ++ chapter :: later →
      chapter.task = .receive request → chapter.Lawful receiver earlier request := by
  intro earlier chapter later request same isTask
  rcases List.eq_nil_or_concat later with rfl | ⟨later, final, rfl⟩
  · obtain ⟨rfl, single⟩ := List.append_inj' same rfl
    cases single
    exact isLast request isTask
  · rw [List.concat_eq_append, ← List.cons_append, ← List.append_assoc] at same
    obtain ⟨rfl, _⟩ := List.append_inj' same rfl
    exact before earlier chapter later request rfl isTask

/-- Every way in which a request can end is the one that the chapters before it demand. -/
theorem lawful_of_ends (consistent : chronicle.Consistent receiver bodies ids)
    (apart : ∀ one other, bodies one → bodies other →
      bodyFingerprint one = bodyFingerprint other → one = other)
    {request : Receiver.Request} (own : bodies request.body)
    {verdict : Except VerificationError Verified} {verified last : World}
    (verifies : (receiver.verifier.verify request.now.seconds request.claim
      request.body).outcome.run chronicle.world = some (verdict, verified))
    {result : Except ReceiveError Receipt}
    (ends : Receiver.Ends request verdict chronicle.world result last)
    (calls : List Answered) :
    Chapter.Lawful receiver chronicle.chapters
      ⟨.receive request, chronicle.world, calls, .received result⟩ request := by
  have verdictOf {other : Except VerificationError Verified} {world : World}
      (run : (receiver.verifier.verify request.now.seconds request.claim
        request.body).outcome.run chronicle.world = some (other, world)) : other = verdict := by
    rw [verifies] at run
    cases run
    rfl
  have former (eventId : String) := (consistent.knows eventId).symm
  cases ends with
  | accepted last text fields isVerified readable new settled knows jobs drawn seen =>
      have names : request.Names fields.eventId :=
        Receiver.names_iff.mpr ⟨text, fields, readable, rfl⟩
      obtain ⟨value, rfl⟩ := isVerified
      refine ⟨fun eventId => ⟨?_, ?_⟩, fun eventId => ⟨nofun, ?_⟩, nofun⟩
      · rintro ⟨jobId, same⟩
        cases same
        exact ⟨⟨value, verified, verifies⟩, names, fun known => new ((former _).mp known)⟩
      · rintro ⟨_, alsoNames, _⟩
        rw [← names.unique alsoNames rfl]
        exact ⟨_, rfl⟩
      · rintro ⟨_, alsoNames, known⟩
        rw [← names.unique alsoNames rfl] at known
        exact absurd ((former _).mp known) new
  | acknowledged last text fields authentic readable known unmoved =>
      have names : request.Names fields.eventId :=
        Receiver.names_iff.mpr ⟨text, fields, readable, rfl⟩
      refine ⟨fun eventId => ⟨nofun, ?_⟩, fun eventId => ⟨?_, ?_⟩, nofun⟩
      · rintro ⟨_, alsoNames, unknown⟩
        rw [← names.unique alsoNames rfl] at unknown
        exact absurd ((former _).mpr known) unknown
      · intro same
        cases same
        exact ⟨⟨verdict, verified, verifies, authentic⟩, names, (former _).mpr known⟩
      · rintro ⟨_, alsoNames, _⟩
        rw [← names.unique alsoNames rfl]
        rfl
  | refused last error unknown barred replayed unmoved =>
      refine ⟨fun eventId => ⟨nofun, ?_⟩, fun eventId => ⟨nofun, ?_⟩, ?_⟩
      · rintro ⟨⟨value, world, run⟩, names, notBefore⟩
        obtain ⟨text, fields, readable, rfl⟩ := Receiver.names_iff.mp names
        have seen := barred text fields readable ⟨value, (verdictOf run).symm⟩
        exact absurd ((former _).mpr (consistent.knows_of_seen apart own names seen)) notBefore
      · rintro ⟨⟨other, world, run, authentic⟩, names, known⟩
        obtain ⟨text, fields, readable, rfl⟩ := Receiver.names_iff.mp names
        rw [verdictOf run] at authentic
        exact absurd ((former _).mp known) (unknown text fields readable authentic)
      · intro same
        cases same
        obtain ⟨text, fields, readable, new, seen⟩ := replayed rfl
        have names : request.Names fields.eventId :=
          Receiver.names_iff.mpr ⟨text, fields, readable, rfl⟩
        exact new (consistent.knows_of_seen apart own names seen)

theorem lawful_empty {request : Receiver.Request} (empty : request.body = []) (world : World)
    (chapters : List Chapter) (calls : List Answered) :
    Chapter.Lawful receiver chapters
      ⟨.receive request, world, calls, .received (.error .invalidBody)⟩ request := by
  have nameless (eventId : String) : ¬request.Names eventId := by
    intro names
    obtain ⟨text, fields, readable, _⟩ := Receiver.names_iff.mp names
    exact Receiver.nonempty_of_readBody readable empty
  refine ⟨fun eventId => ⟨nofun, ?_⟩, fun eventId => ⟨nofun, ?_⟩, nofun⟩
  · rintro ⟨_, names, _⟩
    exact absurd names (nameless eventId)
  · rintro ⟨_, names, _⟩
    exact absurd names (nameless eventId)

theorem unmoved (consistent : chronicle.Consistent receiver bodies ids) {chapter : Chapter}
    {last : World} (isUnmoved : chronicle.world.Unmoved last) (reliable : last.Reliable)
    (acceptsNone : ∀ eventId, ¬chapter.Accepts eventId)
    (lawful : ∀ request, chapter.task = .receive request →
      chapter.Lawful receiver chronicle.chapters request) :
    Consistent receiver bodies ids
      { world := last, chapters := chronicle.chapters ++ [chapter] } := by
  have notAccepts : chapter.accepts = false := by
    rw [Bool.eq_false_iff]
    intro accepts
    obtain ⟨eventId, accepted⟩ := Chapter.accepts_iff.mp accepts
    exact acceptsNone eventId accepted
  refine ⟨reliable, ?_, fun eventId => ?_, ?_, ?_, ?_, ?_⟩
  · unfold World.Settled
    rw [isUnmoved.stores.events]
    exact consistent.settled
  · rw [isUnmoved.stores.events, consistent.knows eventId]
    constructor
    · rintro ⟨former, member, accepts⟩
      exact ⟨former, List.mem_append_left _ member, accepts⟩
    · rintro ⟨former, member, accepts⟩
      rcases List.mem_append.mp member with old | new
      · exact ⟨former, old, accepts⟩
      · obtain rfl := List.mem_singleton.mp new
        exact absurd accepts (acceptsNone eventId)
  · intro entry member
    obtain ⟨old, oldMember, same⟩ := isUnmoved.seen entry member
    rw [isUnmoved.stores.events, ← same]
    exact consistent.seen old oldMember
  · rw [List.filter_append, List.filter_cons, notAccepts, isUnmoved.stores.jobs]
    simpa using consistent.jobs
  · refine consistent.numbered.keep isUnmoved.ids isUnmoved.drawn ?_ ?_
    · rw [isUnmoved.stores.jobs]
    · rw [List.length_append]
      exact Nat.le_add_right _ _
  · exact lawful_snoc consistent.lawful lawful

theorem accepted (consistent : chronicle.Consistent receiver bodies ids)
    {request : Receiver.Request} (own : bodies request.body) {text : String}
    {fields : EventFields} {last : World} {calls : List Answered} (reliable : last.Reliable)
    (readable : Receiver.readBody request.body = .ok (text, fields))
    (settled : last.Settled)
    (knows : ∀ eventId, last.events.Knows eventId ↔
      chronicle.world.events.Knows eventId ∨ eventId = fields.eventId)
    (jobs : last.jobs.jobs = chronicle.world.jobs.jobs ++
      [.create (chronicle.world.ids.draw .job).1 request.now fields.eventId text])
    (drawn : last.ids = (chronicle.world.ids.draw .job).2)
    (seen : ∀ entry ∈ last.fingerprints.entries, entry.1 = bodyFingerprint request.body ∨
      entry ∈ chronicle.world.fingerprints.entries)
    (lawful : Chapter.Lawful receiver chronicle.chapters ⟨.receive request, chronicle.world,
      calls, .received (.ok (.accepted fields.eventId (chronicle.world.ids.draw .job).1))⟩
        request) :
    Consistent receiver bodies ids {
      world := last
      chapters := chronicle.chapters ++ [⟨.receive request, chronicle.world, calls,
        .received (.ok (.accepted fields.eventId (chronicle.world.ids.draw .job).1))⟩] } := by
  refine ⟨reliable, settled, fun eventId => ?_, ?_, ?_, ?_, ?_⟩
  · rw [knows eventId, consistent.knows eventId]
    constructor
    · rintro (⟨former, member, accepts⟩ | rfl)
      · exact ⟨former, List.mem_append_left _ member, accepts⟩
      · exact ⟨_, List.mem_append_right _ List.mem_cons_self, _, rfl⟩
    · rintro ⟨former, member, accepts⟩
      rcases List.mem_append.mp member with old | new
      · exact Or.inl ⟨former, old, accepts⟩
      · obtain rfl := List.mem_singleton.mp new
        obtain ⟨jobId, same⟩ := accepts
        cases same
        exact Or.inr rfl
  · intro entry member
    rcases seen entry member with key | old
    · exact ⟨request, fields.eventId, own, Receiver.names_iff.mpr ⟨text, fields, readable, rfl⟩,
        (knows _).mpr (Or.inr rfl), key⟩
    · obtain ⟨former, eventId, formerBody, names, known, key⟩ := consistent.seen entry old
      exact ⟨former, eventId, formerBody, names, (knows _).mpr (Or.inl known), key⟩
  · have enqueues : Chapter.Enqueues ⟨.receive request, chronicle.world, calls, .received
        (.ok (.accepted fields.eventId (chronicle.world.ids.draw .job).1))⟩
        (.create (chronicle.world.ids.draw .job).1 request.now fields.eventId text) :=
      ⟨request, _, _, text, rfl, rfl, Receiver.utf8_of_readBody readable, rfl⟩
    rw [List.filter_append, jobs]
    exact List.rel_append consistent.jobs (.cons enqueues .nil)
  · rw [List.length_append]
    exact consistent.numbered.create drawn rfl jobs
  · refine lawful_snoc consistent.lawful fun other same => ?_
    cases same
    exact lawful

theorem receive (consistent : chronicle.Consistent pipeline.receiver bodies ids)
    (apart : ∀ one other, bodies one → bodies other →
      bodyFingerprint one = bodyFingerprint other → one = other) {count : Nat}
    (varied : ids.Varied count) (room : chronicle.chapters.length < count)
    {request : Receiver.Request} (own : bodies request.body) {outcome : Outcome}
    {calls : List Answered} {last : World}
    (recorded : (pipeline.program (.receive request)).record chronicle.world =
      some (outcome, calls, last)) :
    Consistent pipeline.receiver bodies ids {
      world := last
      chapters := chronicle.chapters ++
        [⟨.receive request, chronicle.world, calls, outcome⟩] } := by
  have run := Program.run_of_record recorded
  have reliable := consistent.reliable.run run
  rw [Pipeline.program, Program.run_bind] at run
  obtain ⟨⟨result, final⟩, run, same⟩ := Option.bind_eq_some_iff.mp run
  cases same
  obtain ⟨empty, rfl, rfl⟩ | ⟨verdict, verified, verifies, ends⟩ :=
    Receiver.receive_ends consistent.reliable consistent.settled
      (consistent.numbered.fresh varied room) run
  · refine consistent.unmoved (.refl _) reliable ?_ fun other isTask => ?_
    · rintro _ ⟨_, accepted⟩
      cases accepted
    · cases isTask
      exact lawful_empty empty _ _ _
  · have lawful := consistent.lawful_of_ends apart own verifies ends calls
    cases ends with
    | accepted last text fields isVerified readable new settled knows jobs drawn seen =>
        exact consistent.accepted own reliable readable settled knows jobs drawn seen lawful
    | acknowledged last text fields authentic readable known unmoved =>
        refine consistent.unmoved unmoved reliable ?_ fun other isTask => ?_
        · rintro _ ⟨_, accepted⟩
          cases accepted
        · cases isTask
          exact lawful
    | refused last error unknown barred replayed unmoved =>
        refine consistent.unmoved unmoved reliable ?_ fun other isTask => ?_
        · rintro _ ⟨_, accepted⟩
          cases accepted
        · cases isTask
          exact lawful

theorem change (consistent : chronicle.Consistent receiver bodies ids)
    {circumstance : Circumstance} (calm : circumstance.Calm) :
    Consistent receiver bodies ids
      { chronicle with world := chronicle.world.under circumstance } := by
  have stores := chronicle.world.under_sameStores circumstance
  have marks : (chronicle.world.under circumstance).fingerprints =
      chronicle.world.fingerprints := chronicle.world.under_marks circumstance .fingerprints
  have supply : (chronicle.world.under circumstance).ids = chronicle.world.ids := by
    cases circumstance <;> rfl
  refine ⟨consistent.reliable.under calm, ?_, ?_, ?_, ?_, ?_, consistent.lawful⟩
  · unfold World.Settled
    rw [stores.events]
    exact consistent.settled
  · rw [stores.events]
    exact consistent.knows
  · rw [stores.events, marks]
    exact consistent.seen
  · rw [stores.jobs]
    exact consistent.jobs
  · refine consistent.numbered.keep ?_ ?_ ?_ (Nat.le_refl _)
    · rw [supply]
    · rw [supply]
    · rw [stores.jobs]

theorem write {episodes : List Episode} {count : Nat}
    (consistent : chronicle.Consistent pipeline.receiver bodies ids)
    (apart : ∀ one other, bodies one → bodies other →
      bodyFingerprint one = bodyFingerprint other → one = other)
    (varied : ids.Varied count) (room : chronicle.chapters.length + episodes.length ≤ count)
    (requests : ∀ episode ∈ episodes, episode.Requests)
    (own : ∀ request, Episode.run (.receive request) ∈ episodes → bodies request.body)
    (written : chronicle.write pipeline episodes = some after) :
    after.Consistent pipeline.receiver bodies ids := by
  induction episodes generalizing chronicle with
  | nil =>
      cases written
      exact consistent
  | cons episode rest ih =>
      simp only [Chronicle.write, bind, Option.bind_eq_some_iff] at written
      obtain ⟨middle, begun, written⟩ := written
      rw [List.length_cons] at room
      have isRequest := requests episode List.mem_cons_self
      obtain ⟨task, outcome, calls, world, rfl, recorded, rfl⟩ | ⟨circumstance, rfl, rfl⟩ :=
        next_cases begun
      · cases task with
        | receive request =>
            have next := consistent.receive apart varied (by omega)
              (own request List.mem_cons_self) recorded
            refine ih next ?_ (fun other member => requests other (List.mem_cons_of_mem _ member))
              (fun other member => own other (List.mem_cons_of_mem _ member)) written
            rw [List.length_append, List.length_singleton]
            omega
        | _ => exact isRequest.elim
      · refine ih (consistent.change isRequest) ?_
          (fun other member => requests other (List.mem_cons_of_mem _ member))
          (fun other member => own other (List.mem_cons_of_mem _ member)) written
        show chronicle.chapters.length + rest.length ≤ count
        omega

end Consistent

end Chronicle

/-- A request is answered, if the marks that it may set end within the range of the
clock. -/
theorem Receiver.answered {receiver : Receiver} {world : World}
    (inRange : ∀ marks, world.CanMark (receiver.lifetime marks)) (request : Request) :
    ∃ result last, (receiver.receive request).outcome.run world = some (result, last) := by
  refine (receiver.receive_asks request).answered fun call asks => ?_
  cases call with
  | mark marks key ttl =>
      obtain rfl : ttl = receiver.lifetime marks := asks
      exact inRange marks
  | tryMark marks key ttl =>
      obtain rfl : ttl = receiver.lifetime marks := asks
      exact inRange marks
  | _ => exact trivial

/-- Requests one after the other, from empty stores that do not fail, with any changes of
time, keys and network between them; digests of bodies do not collide, and ids do not come
twice.  A request is accepted exactly if it is verified, its body names an event and no
request of that event was accepted before; it is acknowledged as a duplicate exactly if its
signature is authentic, used before or not, its body names an event and a request of that
event was accepted before; and it is never taken for a replay of a body.  The jobs, in the
order of their creation, are one for each accepted request, as it was created.  Every further
request is answered as long as its marks end within the range of the clock. -/
theorem answers_follow_from_what_came_before (pipeline : Pipeline) {world : World}
    (blank : world.Blank) (unmarked : world.fingerprints.entries = [])
    (reliable : world.Reliable) {episodes : List Episode}
    (requests : ∀ episode ∈ episodes, episode.Requests)
    (varied : world.ids.Varied episodes.length)
    (apart : ∀ one other : Receiver.Request, Episode.run (.receive one) ∈ episodes →
      Episode.run (.receive other) ∈ episodes →
      bodyFingerprint one.body = bodyFingerprint other.body → one.body = other.body)
    {chronicle : Chronicle}
    (written : (Chronicle.opening world).write pipeline episodes = some chronicle) :
    (∀ earlier chapter later request, chronicle.chapters = earlier ++ chapter :: later →
      chapter.task = .receive request →
      chapter.Lawful pipeline.receiver earlier request) ∧
    List.Forall₂ Chapter.Enqueues (chronicle.chapters.filter Chapter.accepts)
      chronicle.world.jobs.jobs ∧
    ((∀ marks, chronicle.world.CanMark (pipeline.receiver.lifetime marks)) →
      ∀ request, ∃ next, chronicle.next pipeline (.run (.receive request)) = some next) := by
  have separate : ∀ one other, Episode.Bodies episodes one → Episode.Bodies episodes other →
      bodyFingerprint one = bodyFingerprint other → one = other := by
    rintro _ _ ⟨one, member, rfl⟩ ⟨other, otherMember, rfl⟩
    exact apart one other member otherMember
  have opening : (Chronicle.opening world).Consistent pipeline.receiver
      (Episode.Bodies episodes) world.ids :=
    Chronicle.consistent_opening blank unmarked reliable
  have consistent := opening.write separate varied (by simp [Chronicle.opening]) requests
    (fun request member => ⟨request, member, rfl⟩) written
  refine ⟨consistent.lawful, consistent.jobs, fun inRange request => ?_⟩
  obtain ⟨result, last, run⟩ := Receiver.answered inRange request
  have runs : (pipeline.program (.receive request)).run chronicle.world =
      some (.received result, last) := by
    rw [Pipeline.program, Program.run_bind, run]
    rfl
  obtain ⟨calls, recorded⟩ := Program.record_of_run runs
  exact ⟨_, by rw [Chronicle.next, recorded]; rfl⟩

namespace Sample

def resending : List Episode :=
  [.run (.receive signedRequest), .run (.receive signedRequest)]

set_option maxRecDepth 100000 in
theorem resend_is_acknowledged :
    ∃ chronicle first second,
      (Chronicle.opening keyedWorld).write strictPipeline resending = some chronicle ∧
      chronicle.chapters = [first, second] ∧ first.Accepts "e" ∧ second.Acknowledges "e" ∧
      ¬strictPipeline.receiver.Verifies signedRequest second.before ∧
      chronicle.world.jobs.jobs.length = 1 := by
  obtain ⟨⟨outcome, calls, between⟩, recorded, accepted, ⟨again, moreCalls, last⟩, recordedAgain,
      verdict, verifies, replayed⟩ :
      ∃ one ∈ (strictPipeline.program (.receive signedRequest)).record keyedWorld,
        one.1.receipt? = some (.accepted "e" (.ofNat 0)) ∧
        ∃ two ∈ (strictPipeline.program (.receive signedRequest)).record one.2.2,
        ∃ verdict ∈ (strictPipeline.receiver.verifier.verify 0 signedRequest.claim
          body).outcome.run one.2.2, verdict.1 = .error .signatureReplayed := by decide +kernel
  have written : (Chronicle.opening keyedWorld).write strictPipeline resending = some {
      world := last
      chapters := [⟨.receive signedRequest, keyedWorld, calls, outcome⟩,
        ⟨.receive signedRequest, between, moreCalls, again⟩] } := by
    simp only [resending, Chronicle.write, Chronicle.next, Chronicle.opening]
    rw [Option.mem_def.mp recorded]
    simp only [Option.map_some, bind, Option.bind_some]
    rw [Option.mem_def.mp recordedAgain]
    rfl
  have reliable : keyedWorld.Reliable := fun _ => rfl
  obtain ⟨lawful, jobs, _⟩ := answers_follow_from_what_came_before strictPipeline
    ⟨rfl, rfl, rfl⟩ rfl reliable (by simp [resending, Episode.Requests]) (by decide +kernel)
    (by simp [resending]) written
  have first : Chapter.Accepts ⟨.receive signedRequest, keyedWorld, calls, outcome⟩ "e" :=
    ⟨_, Outcome.receipt?_eq_some.mp accepted⟩
  have names : signedRequest.Names "e" := by
    obtain ⟨_, names, _⟩ := ((lawful [] _ [_] _ rfl rfl).accepts "e").mp first
    exact names
  have lawfulAgain := lawful [_] _ [] _ rfl rfl
  have second := (lawfulAgain.acknowledges "e").mpr
    ⟨⟨verdict.1, verdict.2, verifies, by rw [replayed]; rfl⟩, names,
      _, List.mem_cons_self, first⟩
  refine ⟨_, _, _, written, rfl, first, second, ?_, ?_⟩
  · rintro ⟨value, after, run⟩
    have same := run.symm.trans (Option.mem_def.mp verifies)
    cases same
    cases replayed
  · rw [← jobs.length_eq]
    have notAgain : Chapter.accepts ⟨.receive signedRequest, between, moreCalls, again⟩ =
        false := by
      rw [Chapter.accepts, show again = .received (.ok (.duplicate "e")) from second]
      rfl
    simp only [List.filter_cons, List.filter_nil, notAgain,
      Chapter.accepts_iff.mpr ⟨"e", first⟩]
    rfl

end Sample

end WebhookRelay
