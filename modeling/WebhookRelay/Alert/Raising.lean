import WebhookRelay.World

/-!
# Raising alerts

A notice raises an alert if it reports enough attempts and no alert of its kind was
raised within the window. Where the store fails, the notice is dropped: an alert
never holds up the processing of jobs.
-/

set_option autoImplicit false

namespace WebhookRelay.AlertPolicy

def windowStart (policy : AlertPolicy) (now : Timestamp) : Timestamp :=
  now.minusSaturating policy.dedupeWindow

def raise (notice : FailureNotice) (now : Timestamp) : Program AlertOutcome := do
  let id ← .ask (.newId .alert)
  let alert : Alert := {
    id := id.render
    eventId := notice.eventId
    reason := notice.reason
    details := notice.details
    attemptCount := notice.attemptCount
    createdAt := now }
  match ← Program.ask (.createAlert alert) with
  | .ok () => return .raised
  | .error _ => return .dropped

def notify (policy : AlertPolicy) (now : Timestamp) (notice : FailureNotice) :
    Program AlertOutcome := do
  if notice.attemptCount < policy.minAttempts then return .belowThreshold
  match ← Program.ask (.recentAlert notice.eventId notice.reason (policy.windowStart now)) with
  | .error _ => return .dropped
  | .ok true => return .deduplicated
  | .ok false => raise notice now

end WebhookRelay.AlertPolicy
