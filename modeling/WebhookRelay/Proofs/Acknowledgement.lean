import WebhookRelay.Proofs.Upkeep

/-!
# Acknowledged events

A sender that gets a receipt stops sending, so the event must not be lost afterwards.
There are four ways to a receipt: a new event, an event that is known already, a known
event under a signature that was used before, and a race that another request won.  All
of them end behind a job of the event, and jobs are never removed.
-/

set_option autoImplicit false

namespace WebhookRelay

/-- Every event that a receipt names has a job when the receipt is given and ever after,
however requests, passes, captures and replays are interleaved and whichever calls are
refused, as long as no store reports an event as known that it does not hold. -/
theorem acknowledged_event_keeps_a_job (pipeline : Pipeline) {world : World}
    (blank : world.Blank)
    (truthful : ∀ refusal ∈ world.refusals .createEvent, Refusal.Truthful refusal)
    {moves more : List Move} (fair : ∀ next ∈ moves ++ more, next.Fair Circumstance.Truthful)
    {scene last : Scene} (played : (Scene.opening world).play pipeline moves = some scene)
    {who : Nat} {receipt : Receipt} (given : scene.receipt? who = some receipt)
    (continued : scene.play pipeline more = some last) :
    last.world.jobs.HasJob receipt.eventId := by
  have shared := pipeline.shares True
  have fairMoves : ∀ next ∈ moves ++ more,
      next.Fair fun circumstance => True → circumstance.Truthful := by
    intro next member
    have isFair := fair next member
    cases next with
    | change circumstance => exact fun _ => isFair
    | _ => exact trivial
  have start : Scene.Governed (.ofStores pipeline.receiver.verifier True) (Outcome.Kept True)
      (Scene.opening world) :=
    Scene.governed_opening (blank.sound _ fun _ => truthful)
  obtain ⟨governed, _⟩ := start.play shared
    (fun next member => fairMoves next (List.mem_append_left _ member)) played
  have hasJob : scene.world.jobs.HasJob receipt.eventId :=
    governed.outcome (Scene.receipt?_eq_some given) receipt rfl trivial
  obtain ⟨_, grows⟩ := governed.play shared
    (fun next member => fairMoves next (List.mem_append_right _ member)) continued
  exact grows.hasJob hasJob

namespace Sample

def forgetfulWorld : World where
  refusals site := if site = .markProcessed then [some (.store (.unavailable "down"))] else []

def aftermath : List Move :=
  [.change (.refuse .createEntry [some (.queue (.store "full"))]), .proceed 0,
    .start (.pass ⟨1, 0⟩), .proceed 2, .proceed 0, .proceed 2, .proceed 0, .proceed 2,
    .start (.capture ⟨2, 0⟩), .proceed 3]

set_option maxRecDepth 100000 in
theorem overtaken_event_keeps_a_job :
    ∃ scene last, (Scene.opening forgetfulWorld).play pipeline overtaking = some scene ∧
      scene.receipt? 1 = some (.duplicate "e") ∧
      scene.play pipeline aftermath = some last ∧ last.world.jobs.HasJob "e" := by
  have given : ((Scene.opening forgetfulWorld).play pipeline overtaking).bind
      (fun scene => scene.receipt? 1) = some (.duplicate "e") := by decide +kernel
  have continues : (((Scene.opening forgetfulWorld).play pipeline overtaking).bind
      fun scene => scene.play pipeline aftermath).isSome := by decide +kernel
  obtain ⟨scene, played, given⟩ := Option.bind_eq_some_iff.mp given
  obtain ⟨last, continued⟩ := Option.isSome_iff_exists.mp continues
  rw [played] at continued
  refine ⟨scene, last, played, given, continued, ?_⟩
  refine acknowledged_event_keeps_a_job pipeline ⟨rfl, rfl, rfl⟩ ?_ ?_ played given continued
  · intro refusal member
    cases member
  · simp [overtaking, aftermath, Move.Fair, Circumstance.Truthful]

end Sample

end WebhookRelay
