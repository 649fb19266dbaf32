import WebhookRelay.Delivery.Sender
import WebhookRelay.Proofs.Effects
import WebhookRelay.DeadLetter.Handling
import WebhookRelay.Receiver

/-!
# Activities side by side

Requests, passes of the processor, captures and replays of dead letters run at the same
time.  Each is a program whose calls are atomic, and a scene holds all that were started
with what is left of each.  A move starts one more activity, lets one of them make its
next call, or changes something outside the pipeline: time, published keys, the network,
or what the stores will refuse.  A list of moves is a schedule, so a statement about all
lists of moves is one about all interleavings.
-/

set_option autoImplicit false

namespace WebhookRelay

namespace Program

variable {α β : Type} {kind : Call → Prop}

/-- Every call that a program can make is of one kind. -/
def Uses (kind : Call → Prop) : Program α → Prop
  | .done _ => True
  | .call request next => kind request ∧ ∀ answer, (next answer).Uses kind

theorem Uses.bind {program : Program α} {after : α → Program β}
    (before : program.Uses kind) (rest : ∀ value, (after value).Uses kind) :
    (program.bind after).Uses kind := by
  induction program with
  | done value => exact rest value
  | call request next ih => exact ⟨before.1, fun answer => ih answer (before.2 answer)⟩

theorem Uses.imp {other : Call → Prop} {program : Program α} (uses : program.Uses kind)
    (implies : ∀ request, kind request → other request) : program.Uses other := by
  induction program with
  | done value => exact trivial
  | call request next ih =>
      exact ⟨implies request uses.1, fun answer => ih answer (uses.2 answer)⟩

theorem run_call_eq_some {request : Call} {next : request.Answer → Program α} {world : World}
    {result : α × World} : (call request next).run world = some result ↔
      ∃ answer middle, world.perform request = some (answer, middle) ∧
        (next answer).run middle = some result := by
  constructor
  · intro run
    simp only [Program.run] at run
    split at run
    · cases run
    · rename_i answer middle performed
      exact ⟨answer, middle, performed, run⟩
  · rintro ⟨answer, middle, performed, run⟩
    simp only [Program.run, performed]
    exact run

end Program

/-- A call by which a job leaves the pipeline. -/
def Call.delivers : Call → Prop
  | .deliver _ => True
  | .exchange _ => True
  | _ => False

theorem Deliverer.courier_delivers (job : Job) :
    (Deliverer.courier job).Uses Call.delivers :=
  ⟨trivial, fun _ => trivial⟩

theorem Sender.deliverer_delivers (sender : Sender) (job : Job) :
    (sender.deliverer job).Uses Call.delivers := by
  have sends : (sender.send job.eventId job.payload).outcome.Uses Call.delivers := by
    unfold send
    split
    · dsimp only
      split
      · exact trivial
      · refine ⟨trivial, fun exchange => ?_⟩
        cases exchange with
        | failed | timedOut => exact trivial
        | response status body =>
            show Program.Uses _ (ExceptT.run (if isSuccess status then _ else _))
            split <;> exact trivial
    · exact trivial
  refine sends.bind fun result => ?_
  cases result <;> exact trivial

/-- The parts of the pipeline that share one set of stores.  Jobs may be delivered in
any way that makes no other call. -/
structure Pipeline where
  receiver : Receiver := {}
  processor : Processor := {}
  deliver : Deliverer := Deliverer.courier
  delivers : ∀ job, (deliver job).Uses Call.delivers := by exact Deliverer.courier_delivers

instance : Inhabited Pipeline := ⟨{}⟩

inductive Task where
  | receive (request : Receiver.Request)
  | pass (now : Timestamp)
  | capture (now : Timestamp)
  | replay (now : Timestamp) (entryId : Uuid)

inductive Outcome where
  | received (result : Except ReceiveError Receipt)
  | passed (result : Except QueueError Nat)
  | captured (result : Except QueueError Nat)
  | replayed (result : Except QueueError Job)

def Pipeline.program (pipeline : Pipeline) : Task → Program Outcome
  | .receive request =>
      (pipeline.receiver.receive request).outcome.bind fun result => .done (.received result)
  | .pass now =>
      (pipeline.processor.pass pipeline.deliver now).outcome.bind fun result =>
        .done (.passed result)
  | .capture now => (DeadLetter.capture now).outcome.bind fun result => .done (.captured result)
  | .replay now entryId =>
      (DeadLetter.replay now entryId).outcome.bind fun result => .done (.replayed result)

/-- What has happened: a task was begun, or a call of an activity was answered. -/
inductive Occurrence where
  | begun (who : Nat) (task : Task)
  | answered (who : Nat) (request : Call) (answer : request.Answer)

/-- The world with all that has happened so far. -/
structure Ledger where
  world : World
  history : List Occurrence := []

def Ledger.answered (ledger : Ledger) (who : Nat) (request : Call) (answer : request.Answer)
    (world : World) : Ledger :=
  { world, history := ledger.history ++ [.answered who request answer] }

structure Activity where
  task : Task
  /-- What is left of the activity's program. -/
  rest : Program Outcome

structure Scene extends Ledger where
  activities : List Activity := []

inductive Circumstance where
  | advance (d : Duration)
  | publish (source : KeySource)
  | connect (network : Network)
  | invalidateKeys
  | direct (courier : Courier)
  | audit (trail : AuditTrail)
  | refuse (site : Site) (plan : List (Option Refusal))

def World.under (world : World) : Circumstance → World
  | .advance d => world.advance d
  | .publish source => { world with source }
  | .connect network => { world with network }
  | .invalidateKeys => { world with keys := world.keys.invalidate }
  | .direct courier => { world with courier }
  | .audit trail => { world with audit := trail }
  | .refuse site plan => world.refuse site plan

theorem World.under_sameStores (world : World) (circumstance : Circumstance) :
    world.SameStores (world.under circumstance) := by
  cases circumstance <;> exact ⟨rfl, rfl, rfl⟩

inductive Move where
  | start (task : Task)
  | proceed (who : Nat)
  | change (circumstance : Circumstance)

namespace Scene

/-- The scene after a move.  There is none where an activity that has ended is to
proceed, or where its call ends the process. -/
def move (pipeline : Pipeline) (scene : Scene) : Move → Option Scene
  | .start task => some {
      world := scene.world
      history := scene.history ++ [.begun scene.activities.length task]
      activities := scene.activities ++ [⟨task, pipeline.program task⟩] }
  | .proceed who =>
      match scene.activities[who]? with
      | some ⟨task, .call request next⟩ =>
          (scene.world.perform request).map fun (answer, world) => {
            toLedger := scene.toLedger.answered who request answer world
            activities := scene.activities.set who ⟨task, next answer⟩ }
      | _ => none
  | .change circumstance => some { scene with world := scene.world.under circumstance }

def play (pipeline : Pipeline) (scene : Scene) : List Move → Option Scene
  | [] => some scene
  | next :: rest => do
      let scene ← scene.move pipeline next
      scene.play pipeline rest

def outcome (scene : Scene) (who : Nat) : Option Outcome :=
  match scene.activities[who]? with
  | some ⟨_, .done outcome⟩ => some outcome
  | _ => none

def receipt? (scene : Scene) (who : Nat) : Option Receipt :=
  match scene.outcome who with
  | some (.received (.ok receipt)) => some receipt
  | _ => none

def opening (world : World) : Scene :=
  { world }

theorem receipt?_eq_some {scene : Scene} {who : Nat} {receipt : Receipt}
    (given : scene.receipt? who = some receipt) :
    scene.outcome who = some (.received (.ok receipt)) := by
  unfold receipt? at given
  split at given
  · rename_i ended
    cases given
    exact ended
  · cases given

/-! ## Schedules -/

variable {pipeline : Pipeline}

theorem play_preserves (kept : Scene → Prop) {moves : List Move} {scene last : Scene}
    (preserved : ∀ next ∈ moves, ∀ before after : Scene, kept before →
      before.move pipeline next = some after → kept after)
    (start : kept scene) (played : scene.play pipeline moves = some last) : kept last := by
  induction moves generalizing scene with
  | nil =>
      cases played
      exact start
  | cons next rest ih =>
      simp only [play, bind, Option.bind_eq_some_iff] at played
      obtain ⟨middle, moved, played⟩ := played
      refine ih (fun move member => preserved move (List.mem_cons_of_mem _ member)) ?_ played
      exact preserved next List.mem_cons_self scene middle start moved

theorem move_cases {scene after : Scene} {next : Move}
    (moved : scene.move pipeline next = some after) :
    (∃ task, next = .start task ∧ after = {
        world := scene.world
        history := scene.history ++ [.begun scene.activities.length task]
        activities := scene.activities ++ [⟨task, pipeline.program task⟩] }) ∨
      (∃ who task request rest answer world, next = .proceed who ∧
        scene.activities[who]? = some ⟨task, .call request rest⟩ ∧
        scene.world.perform request = some (answer, world) ∧
        after = {
          toLedger := scene.toLedger.answered who request answer world
          activities := scene.activities.set who ⟨task, rest answer⟩ }) ∨
      (∃ circumstance, next = .change circumstance ∧
        after = { scene with world := scene.world.under circumstance }) := by
  cases next with
  | start task => exact Or.inl ⟨task, rfl, (Option.some.inj moved).symm⟩
  | change circumstance =>
      exact Or.inr (Or.inr ⟨circumstance, rfl, (Option.some.inj moved).symm⟩)
  | proceed who =>
      simp only [move] at moved
      split at moved
      · rename_i task request rest found
        obtain ⟨⟨answer, world⟩, performed, same⟩ := Option.map_eq_some_iff.mp moved
        exact Or.inr (Or.inl ⟨who, task, request, rest, answer, world, rfl, found, performed,
          same.symm⟩)
      · cases moved

end Scene

/-! ## Places in a list -/

section Places

variable {α : Type} {list : List α} {added value : α} {place other : Nat}

theorem getElem?_added (found : (list ++ [added])[other]? = some value) :
    list[other]? = some value ∨ other = list.length ∧ value = added := by
  rw [List.getElem?_append] at found
  split at found
  · exact Or.inl found
  · rw [List.getElem?_singleton] at found
    split at found
    · cases found
      exact Or.inr ⟨by omega, rfl⟩
    · cases found

theorem getElem?_replaced (found : (list.set place added)[other]? = some value) :
    (other ≠ place ∧ list[other]? = some value) ∨ other = place ∧ value = added := by
  rw [List.getElem?_set] at found
  split at found
  · rename_i same
    split at found
    · cases found
      exact Or.inr ⟨same.symm, rfl⟩
    · cases found
  · rename_i distinct
    exact Or.inl ⟨fun same => distinct same.symm, found⟩

end Places

/-! ## A small pipeline -/

namespace Sample

def body : Bytes :=
  Text.utf8 "\x7b\"event_id\":\"e\",\"order\":\x7b\"id\":1\x7d\x7d"

def request : Receiver.Request where
  now := ⟨0, 0⟩
  claim := {}
  body

def pipeline : Pipeline where
  receiver := { verifier := { skip := true } }

/-- The request comes twice.  When the first one has stored the event, the second one
overtakes it, finds no job and makes up for it. -/
def overtaking : List Move :=
  [.start (.receive request), .start (.receive request), .proceed 0, .proceed 0, .proceed 0,
    .proceed 1, .proceed 1, .proceed 1, .proceed 1, .proceed 1]

end Sample

end WebhookRelay
