import WebhookRelay.Proofs.Marks
import WebhookRelay.Proofs.Repertoire
import WebhookRelay.Proofs.Unhindered

/-!
# Stores that never fail

Where no call is refused and none will be, each call does what it is for.  Refused or not, a
call is answered, and a program runs to its end, unless a mark that it sets would last
beyond the range of the clock.
-/

set_option autoImplicit false

namespace WebhookRelay

def World.Reliable (world : World) : Prop :=
  ∀ site, world.refusals site = []

def Circumstance.Calm : Circumstance → Prop
  | .refuse _ _ => False
  | _ => True

namespace World.Reliable

variable {world after : World}

theorem performed (reliable : world.Reliable) {request : Call} {answer : request.Answer}
    (performed : world.perform request = some (answer, after)) : after.Reliable := by
  intro site
  have suffix := World.perform_refusals performed site
  rw [reliable site] at suffix
  exact List.suffix_nil.mp suffix

theorem under (reliable : world.Reliable) {circumstance : Circumstance}
    (calm : circumstance.Calm) : (world.under circumstance).Reliable := by
  cases circumstance with
  | refuse site plan => exact calm.elim
  | _ => exact reliable

theorem takeRefusal (reliable : world.Reliable) (site : Site) :
    world.takeRefusal site = (none, world) := by
  unfold World.takeRefusal
  rw [reliable site]

theorem unlessRefused (reliable : world.Reliable) {ε α : Type} (site : Site)
    (errorOf : Refusal → Option ε) (effect : World → Option (Except ε α × World)) :
    World.unlessRefused site errorOf world effect = effect world := by
  simp only [World.unlessRefused]
  rw [reliable.takeRefusal]
  rfl

theorem letsThrough (reliable : world.Reliable) (site : Site) : world.LetsThrough site := by
  rw [World.LetsThrough, reliable.takeRefusal]

/-! ## What calls answer -/

theorem findEvent (reliable : world.Reliable) (eventId : String) :
    world.perform (.findEvent eventId) = some (.ok (world.events.find? eventId), world) := by
  rw [World.perform, reliable.unlessRefused, World.reading]

theorem createEvent (reliable : world.Reliable) {event : Event}
    (unknown : world.events.find? event.eventId = none) :
    world.perform (.createEvent event) =
      some (.ok (), { world with events := ⟨world.events.events ++ [event]⟩ }) := by
  simp only [World.perform, World.createEvent, reliable.takeRefusal, World.changing,
    EventStore.create, unknown]
  rfl

theorem createJob (reliable : world.Reliable) {job : Job}
    (fresh : world.jobs.find? job.id = none) :
    world.perform (.createJob job) =
      some (.ok (), { world with jobs := ⟨world.jobs.jobs ++ [job]⟩ }) := by
  simp only [World.perform, reliable.unlessRefused, World.changing, JobStore.create, fresh]
  rfl

theorem markProcessed (reliable : world.Reliable) {eventId : String}
    (known : world.events.Knows eventId) (time : Timestamp) :
    world.perform (.markProcessed eventId time) = some (.ok (), { world with
      events := ⟨world.events.events.map fun event =>
        if event.eventId = eventId then EventStore.processedAt time event else event⟩ }) := by
  have found : (world.events.find? eventId).isSome = true := known
  simp only [World.perform, reliable.unlessRefused, World.changing, EventStore.markProcessed]
  rw [if_pos found]

theorem createEvent_known (reliable : world.Reliable) {event known : Event}
    (found : world.events.find? event.eventId = some known) :
    world.perform (.createEvent event) = some (.error (.duplicate event.eventId), world) := by
  simp only [World.perform, World.createEvent, reliable.takeRefusal, World.changing,
    EventStore.create, found]
  rfl

theorem markProcessed_unknown (reliable : world.Reliable) {eventId : String}
    (unknown : ¬world.events.Knows eventId) (time : Timestamp) :
    world.perform (.markProcessed eventId time) = some (.error (.notFound eventId), world) := by
  have absent : ¬(world.events.find? eventId).isSome = true := unknown
  simp only [World.perform, reliable.unlessRefused, World.changing, EventStore.markProcessed]
  rw [if_neg absent]

theorem jobsByEvent (reliable : world.Reliable) (eventId : String) :
    world.perform (.jobsByEvent eventId) = some (.ok (world.jobs.byEventId eventId), world) := by
  rw [World.perform, reliable.unlessRefused, World.reading]

theorem updateJob (reliable : world.Reliable) {job : Job}
    (known : (world.jobs.find? job.id).isSome = true) :
    world.perform (.updateJob job) = some (.ok (), { world with
      jobs := ⟨world.jobs.jobs.map fun other => if other.id = job.id then job else other⟩ }) := by
  simp only [World.perform, reliable.unlessRefused, World.changing, JobStore.update]
  rw [if_pos known]

theorem dueJobs (reliable : world.Reliable) (now : Timestamp) (limit : Nat) :
    world.perform (.dueJobs now limit) = some (.ok (world.jobs.due now limit), world) := by
  rw [World.perform, reliable.unlessRefused, World.reading]

theorem seen (reliable : world.Reliable) (marks : Marks) (key : String) :
    world.perform (.seen marks key) =
      some (.ok ((world.marks marks).contains world.clock key), world) := by
  rw [World.perform, reliable.unlessRefused, World.reading]

theorem tryMark (reliable : world.Reliable) (marks : Marks) (key : String) (ttl : Duration) :
    world.perform (.tryMark marks key ttl) = world.tryMarkKey marks key ttl := by
  rw [World.perform, reliable.unlessRefused]

end World.Reliable

/-! ## Totality -/

/-- A mark that the call sets now ends within the range of the clock. -/
def World.Fits (world : World) : Call → Prop
  | .mark _ _ ttl | .tryMark _ _ ttl => world.CanMark ttl
  | _ => True

theorem World.Fits.mono {world other : World} {request : Call} (fits : world.Fits request)
    (clock : other.clock = world.clock) : other.Fits request := by
  cases request with
  | mark | tryMark =>
      simp only [Fits, CanMark, clock] at fits ⊢
      exact fits
  | _ => exact trivial

theorem World.unlessRefused_answered {ε α : Type} {site : Site} {errorOf : Refusal → Option ε}
    {world : World} {effect : World → Option (Except ε α × World)}
    (answers : ∀ middle : World, middle.clock = world.clock →
      ∃ answer after, effect middle = some (answer, after)) :
    ∃ answer after, unlessRefused site errorOf world effect = some (answer, after) := by
  simp only [unlessRefused]
  split
  · exact ⟨_, _, rfl⟩
  · exact answers _ (takeRefusal_clock world site)

/-- A call is answered, be it with a refusal, unless it sets a mark beyond the range of the
clock. -/
theorem World.Fits.answered {world : World} {request : Call} (fits : world.Fits request) :
    ∃ answer after, world.perform request = some (answer, after) := by
  cases request with
  | mark marks key ttl =>
      refine unlessRefused_answered fun middle clock => ?_
      obtain ⟨expiresAt, dated⟩ := Option.isSome_iff_exists.mp (fits.mono clock)
      simp [markKey, ExpiringSet.insert?, dated]
  | tryMark marks key ttl =>
      refine unlessRefused_answered fun middle clock => ?_
      obtain ⟨expiresAt, dated⟩ := Option.isSome_iff_exists.mp (fits.mono clock)
      simp only [tryMarkKey, ExpiringSet.insertIfAbsent?, dated]
      split <;> exact ⟨_, _, rfl⟩
  | createEvent event =>
      simp only [perform, World.createEvent, changing]
      split
      · exact ⟨_, _, rfl⟩
      · exact ⟨_, _, rfl⟩
      · split <;> exact ⟨_, _, rfl⟩
  | markProcessed | createJob | updateJob | updateEntry =>
      refine unlessRefused_answered fun middle _ => ?_
      simp only [changing]
      split <;> exact ⟨_, _, rfl⟩
  | findEvent | seen | getJob | dueJobs | jobsByStatus | jobsByEvent | getEntry | containsJob
  | listEntries | recentAlert | unmark | createEntry | createAlert =>
      exact unlessRefused_answered fun middle _ => ⟨_, _, rfl⟩
  | createAudit | readKeys | refreshKeys | newId | deliver | exchange =>
      exact ⟨_, _, rfl⟩

theorem Program.run_clock {α : Type} {program : Program α} {world after : World} {value : α}
    (run : program.run world = some (value, after)) : after.clock = world.clock := by
  induction program generalizing world with
  | done result =>
      cases run
      rfl
  | call request next ih =>
      obtain ⟨answer, middle, performed, run⟩ := Program.run_call_eq_some.mp run
      exact (ih answer run).trans (World.perform_clock performed)

/-- Time does not pass within a run, so what fits at its start fits to its end. -/
theorem Program.Uses.answered {α : Type} {kind : Call → Prop} {program : Program α}
    (uses : program.Uses kind) {world : World}
    (fits : ∀ request, kind request → world.Fits request) :
    ∃ value after, program.run world = some (value, after) := by
  induction program generalizing world with
  | done value => exact ⟨value, world, rfl⟩
  | call request next ih =>
      obtain ⟨answer, middle, performed⟩ := (fits request uses.1).answered
      have clock : middle.clock = world.clock := World.perform_clock performed
      obtain ⟨value, after, run⟩ :=
        ih answer (uses.2 answer) fun other isKind => (fits other isKind).mono clock
      exact ⟨value, after, (Program.run_call performed).trans run⟩

/-! ## Runs that change nothing of note -/

theorem Program.Uses.run_preserves {α : Type} {kind : Call → Prop}
    {leads : World → World → Prop} (refl : ∀ world, leads world world)
    (trans : ∀ {first second third}, leads first second → leads second third →
      leads first third)
    (step : ∀ {request : Call} {answer : request.Answer} {world after : World}, kind request →
      world.perform request = some (answer, after) → leads world after)
    {program : Program α} (uses : program.Uses kind) {world after : World} {value : α}
    (run : program.run world = some (value, after)) : leads world after := by
  induction program generalizing world with
  | done result =>
      cases run
      exact refl _
  | call request next ih =>
      obtain ⟨answer, middle, performed, run⟩ := Program.run_call_eq_some.mp run
      exact trans (step uses.1 performed) (ih answer (uses.2 answer) run)

theorem Program.Aside.sameStores {α : Type} {program : Program α} (aside : program.Aside)
    {world after : World} {value : α} (run : program.run world = some (value, after)) :
    world.SameStores after := by
  refine Uses.run_preserves World.SameStores.refl World.SameStores.trans ?_ aside run
  intro request answer world after aside performed
  exact World.perform_sameStores (Call.writes_of_aside aside) performed

theorem World.Reliable.run {world after : World} (reliable : world.Reliable) {α : Type}
    {program : Program α} {value : α} (run : program.run world = some (value, after)) :
    after.Reliable := by
  induction program generalizing world with
  | done result =>
      cases run
      exact reliable
  | call request next ih =>
      obtain ⟨answer, middle, performed, run⟩ := Program.run_call_eq_some.mp run
      exact ih answer (reliable.performed performed) run

/-- A call that has to do neither with what is stored nor with fingerprints, and draws no
job id. -/
def Call.Idle (request : Call) : Prop :=
  request.writes = false ∧ request.touches .fingerprints = false ∧ request ≠ .newId .job

/-- Nothing has changed that taking in an event depends on. -/
structure World.Still (before after : World) : Prop where
  stores : before.SameStores after
  marks : before.Unmarked .fingerprints after
  ids : after.ids.ids = before.ids.ids
  drawn : after.ids.drawn .job = before.ids.drawn .job

namespace World

theorem Still.refl (world : World) : world.Still world :=
  ⟨.refl world, .refl world, rfl, rfl⟩

theorem Still.trans {first second third : World} (before : first.Still second)
    (after : second.Still third) : first.Still third :=
  ⟨before.stores.trans after.stores, before.marks.trans after.marks,
    after.ids.trans before.ids, after.drawn.trans before.drawn⟩

theorem perform_still {world after : World} {request : Call} {answer : request.Answer}
    (idle : request.Idle) (performed : world.perform request = some (answer, after)) :
    world.Still after := by
  obtain ⟨quiet, elsewhere, noJob⟩ := idle
  have ids : after.ids.ids = world.ids.ids ∧
      after.ids.drawn .job = world.ids.drawn .job := by
    cases request with
    | newId kind =>
        cases performed
        refine ⟨rfl, ?_⟩
        have other : ¬IdKind.job = kind := fun same => noJob (congrArg Call.newId same.symm)
        simp [IdSupply.setDrawn, other]
    | _ =>
        rw [perform_ids performed fun _ => nofun]
        exact ⟨rfl, rfl⟩
  exact ⟨perform_sameStores quiet performed, perform_unmarked elsewhere performed, ids.1, ids.2⟩

end World

theorem Program.Uses.still {α : Type} {program : Program α} (uses : program.Uses Call.Idle)
    {world after : World} {value : α} (run : program.run world = some (value, after)) :
    world.Still after :=
  uses.run_preserves World.Still.refl World.Still.trans World.perform_still run

theorem Verifier.verify_idle (verifier : Verifier) (now : Int) (claim : SignatureClaim)
    (body : Bytes) : (verifier.verify now claim body).outcome.Uses Call.Idle := by
  refine verify_uses (fun _ => ?_) (fun _ => ?_) (fun mode _ nonce => ?_) now claim body
  · exact ⟨rfl, rfl, nofun⟩
  · exact ⟨rfl, rfl, nofun⟩
  · refine markIfAbsent_uses ?_ ?_ ?_ mode <;> exact ⟨rfl, rfl, nofun⟩

theorem Receiver.auditRejection_idle (request : Request) (reason : String) :
    (auditRejection request reason).outcome.Uses Call.Idle :=
  ⟨⟨rfl, rfl, nofun⟩,
    fun _ => ⟨⟨rfl, rfl, nofun⟩, fun answer => by cases answer <;> exact trivial⟩⟩

/-! ## Marking -/

theorem World.Reliable.markIfAbsent {world after : World} (reliable : world.Reliable)
    {marks : Marks} {mode : MarkMode} {key : String} {ttl : Duration}
    {result : Except StoreError Bool}
    (run : (markIfAbsent marks mode key ttl).outcome.run world = some (result, after)) :
    ∃ fresh, result = .ok fresh ∧ (fresh = false → (world.marks marks).Has key) ∧
      ∀ entry ∈ (after.marks marks).entries,
        entry.1 = key ∨ entry ∈ (world.marks marks).entries := by
  rw [markIfAbsent_outcome] at run
  cases mode with
  | atomic =>
      obtain ⟨answer, middle, performed, run⟩ := Program.run_call_eq_some.mp run
      cases run
      rw [reliable.tryMark] at performed
      obtain ⟨⟨fresh, set⟩, inserted, same⟩ := Option.map_eq_some_iff.mp performed
      cases same
      rw [setMarks_marks]
      exact ⟨fresh, rfl, ExpiringSet.insertIfAbsent?_cases inserted⟩
  | stepwise =>
      rw [Program.run_call (reliable.seen marks key)] at run
      cases found : (world.marks marks).contains world.clock key with
      | true =>
          rw [found] at run
          cases run
          exact ⟨false, rfl, fun _ => ExpiringSet.has_of_contains found, fun _ => Or.inr⟩
      | false =>
          rw [found] at run
          obtain ⟨answer, middle, performed, run⟩ := Program.run_call_eq_some.mp run
          rw [World.perform, reliable.unlessRefused] at performed
          obtain ⟨set, inserted, same⟩ := Option.map_eq_some_iff.mp performed
          cases same
          cases run
          rw [setMarks_marks]
          exact ⟨true, rfl, Bool.noConfusion, fun _ => ExpiringSet.mem_insert? inserted⟩

end WebhookRelay
