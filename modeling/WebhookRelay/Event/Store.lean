import WebhookRelay.Event
import WebhookRelay.Store.Error

/-!
# The event store

Events in the order in which they were stored, at most one for each id.
-/

set_option autoImplicit false

namespace WebhookRelay

structure EventStore where
  events : List Event := []
  deriving Repr

namespace EventStore

instance : Inhabited EventStore := ⟨{}⟩

def find? (store : EventStore) (eventId : String) : Option Event :=
  store.events.find? fun event => event.eventId = eventId

def create (store : EventStore) (event : Event) : Except StoreError EventStore :=
  if (store.find? event.eventId).isSome then .error (.duplicate event.eventId)
  else .ok ⟨store.events ++ [event]⟩

def processedAt (time : Timestamp) (event : Event) : Event :=
  { event with status := .processed, processedAt := some time }

def markProcessed (store : EventStore) (eventId : String) (time : Timestamp) :
    Except StoreError EventStore :=
  if (store.find? eventId).isSome then
    .ok ⟨store.events.map fun event =>
      if event.eventId = eventId then processedAt time event else event⟩
  else .error (.notFound eventId)

def size (store : EventStore) : Nat :=
  store.events.length

end EventStore

end WebhookRelay
