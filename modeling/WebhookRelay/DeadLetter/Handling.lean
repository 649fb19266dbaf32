import WebhookRelay.World

/-!
# Handling dead letters

Capturing makes an entry for every failed job that has none. Replaying an entry puts
a new job with its payload on the queue and notes it in the entry.
-/

set_option autoImplicit false

namespace WebhookRelay.DeadLetter

abbrev Handling := Attempt QueueError

def asking {α : Type} (request : Program (Except QueueError α)) : Handling α :=
  .mk request

/-- Captures one failed job unless it has an entry; the number of entries made. -/
def captureJob (now : Timestamp) (job : Job) : Handling Nat := do
  if ← asking (.ask (.containsJob job.id)) then return 0
  let id ← ExceptT.lift (Program.ask (.newId .deadLetter))
  asking (.ask (.createEntry (ofJob id job now)))
  return 1

def captureAll (now : Timestamp) : List Job → Handling Nat
  | [] => return 0
  | job :: rest => do
      let made ← captureJob now job
      let more ← captureAll now rest
      return made + more

def capture (now : Timestamp) : Handling Nat := do
  let failed ← asking (.ask (.jobsByStatus .failed))
  captureAll now failed

def replay (now : Timestamp) (id : Uuid) : Handling Job := do
  let some entry ← asking (.ask (.getEntry id)) | throw (.entryNotFound id.render)
  if entry.isReplayed then throw (.alreadyReplayed id.render)
  let jobId ← ExceptT.lift (Program.ask (.newId .job))
  let job := Job.create jobId now entry.eventId entry.payload
  asking (.ask (.createJob job))
  asking (.ask (.updateEntry { entry with replayedAt := some now, replayJobId := some jobId }))
  return job

end WebhookRelay.DeadLetter
