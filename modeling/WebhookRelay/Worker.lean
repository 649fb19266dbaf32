import WebhookRelay.World
import WebhookRelay.Processor

/-!
# The worker

A worker makes passes back to back while they find jobs. After a pass that found none
or failed it rests for an interval, unless it is woken earlier. Its course is a
function of what happens around it until it is stopped.
-/

set_option autoImplicit false

namespace WebhookRelay

structure Worker where
  processor : Processor
  deliver : Deliverer
  pollInterval : Duration := .ofSeconds 2

inductive Happening where
  | wake
  | arrival (job : Job)

/-- Happenings with their instants, the earliest first. -/
abbrev Schedule := List (Instant × Happening)

structure Turn where
  time : Instant
  /-- The number of jobs that were due, unless they could not be listed. -/
  found : Option Nat
  deliveries : List (String × UInt32)
  deriving Repr

namespace Worker

/-- One pass: how many jobs it found, and whether the worker rests after it. -/
def turn (worker : Worker) (now : Timestamp) : Program (Option Nat × Bool) := do
  match ← Program.ask (.dueJobs now worker.processor.batchSize) with
  | .error _ => return (none, true)
  | .ok jobs =>
      match ← (worker.processor.attemptAll worker.deliver now jobs).outcome with
      | .ok () => return (some jobs.length, jobs.isEmpty)
      | .error _ => return (some jobs.length, true)

def addJob (job : Job) (world : World) : World :=
  match world.jobs.create job with
  | .ok jobs => { world with jobs }
  | .error _ => world

def arrive (world : World) : Happening → World
  | .wake => world
  | .arrival job => addJob job world

/-- Lets time pass until a deadline or the next waking. Wakings at one instant are one. -/
def rest (deadline : Instant) : Schedule → World → Schedule × World
  | [], world => ([], { world with clock := deadline })
  | (time, happening) :: later, world =>
      if deadline < time then ((time, happening) :: later, { world with clock := deadline })
      else
        match happening with
        | .wake =>
            (later.dropWhile fun next => next.1 = time && next.2 matches .wake,
              { world with clock := Nat.max time world.clock })
        | .arrival job => rest deadline later (addJob job world)

def runWithin (worker : Worker) (now : Timestamp) (stop : Instant) :
    (turns : Nat) → Schedule → World → Option (List Turn × World)
  | 0, _, world => some ([], world)
  | turns + 1, schedule, world =>
      if stop ≤ world.clock then some ([], world)
      else do
        let ((found, resting), after) ← (worker.turn now).run world
        let made : Turn := {
          time := world.clock
          found
          deliveries := after.courier.log.drop world.courier.log.length }
        let (schedule, after) :=
          if resting then rest (after.clock + worker.pollInterval.nanos) schedule after
          else (schedule, after)
        let (later, final) ← runWithin worker now stop turns schedule after
        return (made :: later, final)

/-- How often a worker can turn: each pass that leaves no rest behind it raises the
attempts of some job, and every other one ends at a waking or a whole interval later. -/
def turnLimit (worker : Worker) (stop : Instant) (schedule : Schedule) (world : World) : Nat :=
  let jobs := world.jobs.size + schedule.length
  let attempts := jobs * (worker.processor.backoff.maxAttempts.toNat + 1)
  attempts + schedule.length + stop / max 1 worker.pollInterval.nanos + 2

/-- The passes that a worker makes until it is stopped, with the jobs that are there
when it starts. -/
def run (worker : Worker) (now : Timestamp) (stop : Instant) (schedule : Schedule)
    (world : World) : Option (List Turn × World) :=
  let before := schedule.filter fun happening => happening.1 < stop
  let (present, coming) := before.partition fun happening =>
    happening.1 ≤ world.clock && happening.2 matches .arrival _
  let world := present.foldl (fun world happening => arrive world happening.2) world
  runWithin worker now stop (worker.turnLimit stop coming world) coming world

end Worker

end WebhookRelay
