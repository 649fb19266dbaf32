import WebhookRelay.Job
import WebhookRelay.Job.Error

/-!
# The job store

Jobs in the order in which they were stored, at most one for each id. Every list
comes sorted: due jobs by the time of their next attempt and then by age, others by
age; the rest is decided by the id.
-/

set_option autoImplicit false

namespace WebhookRelay

structure JobStore where
  jobs : List Job := []
  deriving Repr

namespace JobStore

instance : Inhabited JobStore := ⟨{}⟩

/-- Order by age, then by id. -/
def olderOrSame (a b : Job) : Bool :=
  a.createdAt.before b.createdAt || (a.createdAt = b.createdAt && !b.id.before a.id)

/-- Order by the time of the next attempt, then by age. -/
def dueFirst (a b : Job) : Bool :=
  a.nextRetryAt.before b.nextRetryAt || (a.nextRetryAt = b.nextRetryAt && olderOrSame a b)

def find? (store : JobStore) (id : Uuid) : Option Job :=
  store.jobs.find? fun job => job.id = id

def create (store : JobStore) (job : Job) : Except QueueError JobStore :=
  if (store.find? job.id).isSome then .error (.duplicateJob job.id.render)
  else .ok ⟨store.jobs ++ [job]⟩

def update (store : JobStore) (job : Job) : Except QueueError JobStore :=
  if (store.find? job.id).isSome then
    .ok ⟨store.jobs.map fun other => if other.id = job.id then job else other⟩
  else .error (.jobNotFound job.id.render)

def due (store : JobStore) (now : Timestamp) (limit : Nat) : List Job :=
  ((store.jobs.filter fun job => job.isDue now).mergeSort dueFirst).take limit

def byStatus (store : JobStore) (status : JobStatus) : List Job :=
  (store.jobs.filter fun job => job.status = status).mergeSort olderOrSame

def byEventId (store : JobStore) (eventId : String) : List Job :=
  (store.jobs.filter fun job => job.eventId = eventId).mergeSort olderOrSame

def all (store : JobStore) : List Job :=
  store.jobs.mergeSort olderOrSame

def size (store : JobStore) : Nat :=
  store.jobs.length

end JobStore

end WebhookRelay
