import WebhookRelay.Key.Source
import WebhookRelay.Program

/-!
# The world

All state that calls read and change, and how each call changes it. For every store
method the world knows which of the next calls it will refuse, so that any pattern
of failures is a world of its own; a refused call has no effect. Expiry beyond the
range of the clock ends the process, and the call has no answer.
-/

set_option autoImplicit false

namespace WebhookRelay

/-- A delivery target with an outcome for each of the next deliveries. -/
structure Courier where
  /-- Outcomes by event id; the star stands for every other event. -/
  outcomes : List (String × List (Option QueueError)) := []
  /-- The deliveries made, with the number of the attempt. -/
  log : List (String × UInt32) := []

namespace Courier

instance : Inhabited Courier := ⟨{}⟩

def entryFor (courier : Courier) (eventId : String) : String :=
  if courier.outcomes.any fun entry => entry.1 = eventId then eventId else "*"

/-- Uses up one outcome, unless it is the last one. -/
def useUp (entry : String × List (Option QueueError)) : String × List (Option QueueError) :=
  match entry.2 with
  | _ :: next :: rest => (entry.1, next :: rest)
  | _ => entry

def deliver (courier : Courier) (job : Job) : Except QueueError Unit × Courier :=
  let name := courier.entryFor job.eventId
  let planned := courier.outcomes.find? fun entry => entry.1 = name
  let outcome : Except QueueError Unit :=
    match planned with
    | some (_, some error :: _) => .error error
    | _ => .ok ()
  (outcome,
    { outcomes := courier.outcomes.map fun entry => if entry.1 = name then useUp entry else entry
      log := courier.log ++ [(job.eventId, job.attempts)] })

end Courier

/-- New ids: the ids that are drawn for each purpose, and how many were drawn. -/
structure IdSupply where
  ids : IdKind → Nat → Uuid
  drawn : IdKind → Nat := fun _ => 0

instance : Inhabited IdSupply := ⟨{ ids := fun _ n => Uuid.ofNat n }⟩

def IdSupply.setDrawn (supply : IdSupply) (kind : IdKind) (count : Nat) : IdSupply :=
  { supply with drawn := fun other => if other = kind then count else supply.drawn other }

def IdSupply.draw (supply : IdSupply) (kind : IdKind) : Uuid × IdSupply :=
  (supply.ids kind (supply.drawn kind), supply.setDrawn kind (supply.drawn kind + 1))

structure World where
  clock : Instant := 0
  events : EventStore := {}
  fingerprints : ExpiringSet := {}
  nonces : ExpiringSet := {}
  keys : KeyCache := {}
  source : KeySource := default
  fetches : Nat := 0
  jobs : JobStore := {}
  deadLetters : DeadLetterStore := {}
  alerts : List Alert := []
  audit : AuditTrail := {}
  ids : IdSupply := default
  courier : Courier := {}
  network : Network := default
  /-- For each store method, whether and how each of the next calls is refused. -/
  refusals : Site → List (Option Refusal) := fun _ => []

namespace World

instance : Inhabited World := ⟨{}⟩

def marks (world : World) : Marks → ExpiringSet
  | .fingerprints => world.fingerprints
  | .nonces => world.nonces

def setMarks (world : World) (set : ExpiringSet) : Marks → World
  | .fingerprints => { world with fingerprints := set }
  | .nonces => { world with nonces := set }

def refuse (world : World) (site : Site) (plan : List (Option Refusal)) : World :=
  { world with refusals := fun other =>
      if other = site then world.refusals site ++ plan else world.refusals other }

def takeRefusal (world : World) (site : Site) : Option Refusal × World :=
  match world.refusals site with
  | [] => (none, world)
  | next :: rest =>
      (next, { world with refusals := fun other =>
        if other = site then rest else world.refusals other })

def storeError? : Refusal → Option StoreError
  | .store error => some error
  | _ => none

def queueError? : Refusal → Option QueueError
  | .queue error => some error
  | _ => none

def auditError? : Refusal → Option AuditError
  | .audit error => some error
  | _ => none

def unlessRefused {ε α : Type} (site : Site) (errorOf : Refusal → Option ε) (world : World)
    (effect : World → Option (Except ε α × World)) : Option (Except ε α × World) :=
  let (refusal, world) := world.takeRefusal site
  match refusal.bind errorOf with
  | some error => some (.error error, world)
  | none => effect world

def reading {ε α : Type} (value : World → α) (world : World) : Option (Except ε α × World) :=
  some (.ok (value world), world)

def changing {ε σ : Type} (change : World → Except ε σ) (put : World → σ → World)
    (world : World) : Option (Except ε Unit × World) :=
  match change world with
  | .ok state => some (.ok (), put world state)
  | .error error => some (.error error, world)

/-- Stores an event, or loses the race for it. -/
def createEvent (event : Event) (world : World) : Option (Except StoreError Unit × World) :=
  let (refusal, world) := world.takeRefusal .createEvent
  let put (world : World) (events : EventStore) : World := { world with events }
  match refusal with
  | some (.store error) => some (.error error, world)
  | some .race =>
      let events := match world.events.create event with
        | .ok events => events
        | .error _ => world.events
      some (.error (.duplicate event.eventId), put world events)
  | _ => changing (fun world => world.events.create event) put world

def markKey (marks : Marks) (key : String) (ttl : Duration) (world : World) :
    Option (Except StoreError Unit × World) :=
  ((world.marks marks).insert? world.clock key ttl).map fun set =>
    (.ok (), world.setMarks set marks)

def tryMarkKey (marks : Marks) (key : String) (ttl : Duration) (world : World) :
    Option (Except StoreError Bool × World) :=
  ((world.marks marks).insertIfAbsent? world.clock key ttl).map fun (fresh, set) =>
    (.ok fresh, world.setMarks set marks)

/-- Fetches the published keys and installs them; a failed fetch changes nothing. -/
def fetchKeys (world : World) : Except VerificationError KeySet × World :=
  let world := { world with fetches := world.fetches + 1 }
  match world.source.fetch world.network with
  | .error error => (.error (.keySetUnavailable error.message), world)
  | .ok published =>
      let keys := KeySet.ofJwks published
      (.ok keys, { world with keys := world.keys.install world.clock keys })

def refreshKeys (seenAt : Option Instant) (world : World) :
    Except VerificationError KeySet × World :=
  match world.keys.takeOver? world.clock seenAt with
  | some keys => (.ok keys, world)
  | none => world.fetchKeys

/-- The answer of a call and the world after it; none where the process ends. -/
def perform : (request : Call) → World → Option (request.Answer × World)
  | .findEvent eventId, world =>
      unlessRefused .findEvent storeError? world (reading fun w => w.events.find? eventId)
  | .createEvent event, world => createEvent event world
  | .markProcessed eventId time, world =>
      unlessRefused .markProcessed storeError? world
        (changing (fun w => w.events.markProcessed eventId time)
          fun w events => { w with events })
  | .seen marks key, world =>
      unlessRefused (.seen marks) storeError? world
        (reading fun w => (w.marks marks).contains w.clock key)
  | .mark marks key ttl, world =>
      unlessRefused (.mark marks) storeError? world (markKey marks key ttl)
  | .tryMark marks key ttl, world =>
      unlessRefused (.tryMark marks) storeError? world (tryMarkKey marks key ttl)
  | .unmark marks key, world =>
      unlessRefused (.unmark marks) storeError? world fun w =>
        some (.ok (), w.setMarks ((w.marks marks).erase key) marks)
  | .createJob job, world =>
      unlessRefused .createJob queueError? world
        (changing (fun w => w.jobs.create job) fun w jobs => { w with jobs })
  | .getJob id, world =>
      unlessRefused .getJob queueError? world (reading fun w => w.jobs.find? id)
  | .dueJobs now limit, world =>
      unlessRefused .dueJobs queueError? world (reading fun w => w.jobs.due now limit)
  | .updateJob job, world =>
      unlessRefused .updateJob queueError? world
        (changing (fun w => w.jobs.update job) fun w jobs => { w with jobs })
  | .jobsByStatus status, world =>
      unlessRefused .jobsByStatus queueError? world (reading fun w => w.jobs.byStatus status)
  | .jobsByEvent eventId, world =>
      unlessRefused .jobsByEvent queueError? world (reading fun w => w.jobs.byEventId eventId)
  | .createEntry entry, world =>
      unlessRefused .createEntry queueError? world fun w =>
        some (.ok (), { w with deadLetters := w.deadLetters.put entry })
  | .getEntry id, world =>
      unlessRefused .getEntry queueError? world (reading fun w => w.deadLetters.find? id)
  | .containsJob jobId, world =>
      unlessRefused .containsJob queueError? world
        (reading fun w => w.deadLetters.containsJob jobId)
  | .updateEntry entry, world =>
      unlessRefused .updateEntry queueError? world
        (changing (fun w => w.deadLetters.update entry)
          fun w deadLetters => { w with deadLetters })
  | .listEntries, world =>
      unlessRefused .listEntries queueError? world (reading fun w => w.deadLetters.all)
  | .createAlert alert, world =>
      unlessRefused .createAlert auditError? world fun w =>
        some (.ok (), { w with alerts := w.alerts ++ [alert] })
  | .recentAlert eventId reason since, world =>
      unlessRefused .recentAlert auditError? world
        (reading fun w => Alert.existsSince w.alerts eventId reason since)
  | .createAudit record, world =>
      let (result, audit) := world.audit.create record
      some (result, { world with audit })
  | .readKeys keyId, world => some (world.keys.read world.clock keyId, world)
  | .refreshKeys seenAt, world => some (refreshKeys seenAt world)
  | .newId kind, world =>
      let (id, ids) := world.ids.draw kind
      some (id, { world with ids })
  | .deliver job, world =>
      let (result, courier) := world.courier.deliver job
      some (result, { world with courier })
  | .exchange request, world => some (world.network.exchange request, world)

def advance (world : World) (d : Duration) : World :=
  { world with clock := world.clock + d.nanos }

end World

namespace Program

variable {α : Type}

def run : Program α → World → Option (α × World)
  | .done value, world => some (value, world)
  | .call request next, world =>
      match world.perform request with
      | none => none
      | some (answer, world) => (next answer).run world

def step : Program α → World → Option (Program α × World)
  | .done value, world => some (.done value, world)
  | .call request next, world =>
      (world.perform request).map fun (answer, world) => (next answer, world)

/-- Runs the first call of each program, one program after the other. -/
def stepAll : List (Program α) → World → Option (List (Program α) × World)
  | [], world => some ([], world)
  | program :: rest, world => do
      let (program, world) ← program.step world
      let (rest, world) ← stepAll rest world
      return (program :: rest, world)

def runAll : List (Program α) → World → Option (List α × World)
  | [], world => some ([], world)
  | program :: rest, world => do
      let (value, world) ← program.run world
      let (values, world) ← runAll rest world
      return (value :: values, world)

end Program

end WebhookRelay
