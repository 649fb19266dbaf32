import WebhookRelay.Alert.Raising

/-!
# Processing jobs

One pass takes the jobs that are due, up to the size of a batch, and attempts each
once in their order. The outcome of an attempt is stored before the next one; if that
fails the pass ends. A failed attempt is reported before it is stored.
-/

set_option autoImplicit false

namespace WebhookRelay

structure Processor where
  batchSize : Nat := 50
  backoff : Backoff := {}
  /-- When failed attempts raise alerts; none where nobody is told. -/
  alerts : Option AlertPolicy := none
  deriving DecidableEq, Repr

abbrev Deliverer := Job → Program (Except QueueError Unit)

def Deliverer.courier : Deliverer := fun job => .ask (.deliver job)

namespace Processor

instance : Inhabited Processor := ⟨{}⟩

def deliveryFailed : String := "delivery_failed"

def observe (processor : Processor) (now : Timestamp) (job : Job) (error : String) :
    Program Unit :=
  match processor.alerts with
  | none => return ()
  | some policy => do
      let _ ← policy.notify now {
        eventId := job.eventId
        reason := deliveryFailed
        details := error
        attemptCount := job.attempts }

def attempt (processor : Processor) (deliver : Deliverer) (now : Timestamp) (job : Job) :
    Program Job := do
  let job := job.beginAttempt
  match ← deliver job with
  | .ok () => return job.recordSuccess now
  | .error error =>
      let text := error.deliveryText
      let job := job.recordFailure now text processor.backoff
      processor.observe now job text
      return job

def attemptAll (processor : Processor) (deliver : Deliverer) (now : Timestamp) :
    List Job → Attempt QueueError Unit
  | [] => return ()
  | job :: rest => do
      let job ← ExceptT.lift (processor.attempt deliver now job)
      Attempt.asking (.ask (.updateJob job)) QueueError.asStoreError
      attemptAll processor deliver now rest

def pass (processor : Processor) (deliver : Deliverer) (now : Timestamp) :
    Attempt QueueError Nat := do
  let jobs ← Attempt.asking (.ask (.dueJobs now processor.batchSize)) QueueError.asStoreError
  processor.attemptAll deliver now jobs
  return jobs.length

end Processor

end WebhookRelay
