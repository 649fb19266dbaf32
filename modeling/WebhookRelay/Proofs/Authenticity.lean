import WebhookRelay.Proofs.Upkeep

/-!
# Authenticity

Where signatures are checked, nothing is stored that was not signed: not the payload of
a job, whichever way it came to the queue, nor that of a dead letter, nor the body by
whose digest an event is remembered.
-/

set_option autoImplicit false

namespace WebhookRelay

/-- Every payload that is stored, and every body that an event remembers, was carried by
a request whose signature was recent and verified by a key that was looked up for it.
This holds at every point of every schedule, whatever is refused or rotated. -/
theorem stored_payloads_are_authentic (pipeline : Pipeline)
    (checks : pipeline.receiver.verifier.skip = false) {world : World} (blank : world.Blank)
    {moves : List Move} {scene : Scene}
    (played : (Scene.opening world).play pipeline moves = some scene) :
    (∀ job ∈ scene.world.jobs.jobs,
      Authentic pipeline.receiver.verifier.tolerance scene.history (Text.utf8 job.payload)) ∧
    (∀ entry ∈ scene.world.deadLetters.entries,
      Authentic pipeline.receiver.verifier.tolerance scene.history
        (Text.utf8 entry.payload)) ∧
    (∀ event ∈ scene.world.events.events, ∃ body,
      event.fingerprint = bodyFingerprint body ∧
        Authentic pipeline.receiver.verifier.tolerance scene.history body) := by
  have authentic {history : List Occurrence} {body : Bytes}
      (admits : pipeline.receiver.verifier.Admits history body) :
      Authentic pipeline.receiver.verifier.tolerance history body := by
    rcases admits with skips | authentic
    · rw [checks] at skips
      cases skips
    · exact authentic
  -- Stores may pretend what they like here, so no circumstance is excluded.
  have start : Scene.Governed (.ofStores pipeline.receiver.verifier False)
      (Outcome.Kept False) (Scene.opening world) :=
    Scene.governed_opening (blank.sound _ False.elim)
  have fair : ∀ next ∈ moves, next.Fair fun circumstance =>
      False → circumstance.Truthful := by
    intro next _
    cases next with
    | change circumstance => exact False.elim
    | _ => exact trivial
  obtain ⟨⟨sound, _⟩, _⟩ := start.play (pipeline.shares False) fair played
  refine ⟨?_, ?_, ?_⟩
  · exact fun job member => authentic (sound.jobs job member)
  · exact fun entry member => authentic (sound.entries entry member)
  · intro event member
    obtain ⟨body, fingerprint, admits⟩ := sound.events event member
    exact ⟨body, fingerprint, authentic admits⟩

namespace Sample

def signedRequest : Receiver.Request where
  now := ⟨0, 0⟩
  claim := {
    signature := some <| "t=0,v1=MEUCID0FVFQ_LZx3mn9RY_TnpDUngDFoa9hxuPsliP_OGi20" ++
      "AiEA8UPHzvW8dokyGlqR_tqecOqA8TFVBiD5doRgJpsasgY"
    keyId := some "k" }
  body

def publishedKey : Jwk where
  keyType := "EC"
  curve := some "P-256"
  x := some "HhhTL9R1TALzBB2cdc6zO4P_2BrHzk_ogsyxyYvFiW4"
  y := some "pGwxHE4v9A3ZajZT5uRURdMt_khuztdcepDGoYiBwKM"
  keyId := some "k"

def receiving : List Move :=
  .start (.receive signedRequest) :: List.replicate 8 (.proceed 0)

set_option maxRecDepth 100000 in
theorem received_payload_is_authentic :
    ∃ scene, (Scene.opening { source := .held ⟨[publishedKey]⟩ false }).play {} receiving =
        some scene ∧
      ∃ job ∈ scene.world.jobs.jobs,
        Authentic (.ofSeconds 300) scene.history (Text.utf8 job.payload) := by
  have received : ((Scene.opening { source := .held ⟨[publishedKey]⟩ false }).play {}
      receiving).bind (fun scene => scene.world.jobs.jobs.head?.map Job.eventId) =
        some "e" := by decide +kernel
  obtain ⟨scene, played, stored⟩ := Option.bind_eq_some_iff.mp received
  obtain ⟨job, first, _⟩ := Option.map_eq_some_iff.mp stored
  refine ⟨scene, played, job, List.mem_of_head? first, ?_⟩
  have authentic := stored_payloads_are_authentic {} rfl ⟨rfl, rfl, rfl⟩ played
  exact authentic.1 job (List.mem_of_head? first)

end Sample

end WebhookRelay
