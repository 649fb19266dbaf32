import WebhookRelay.Proofs.Courses
import WebhookRelay.Proofs.Effects

/-!
# Programs beside the stores

Verifying a request, recording a rejection, delivering a job and raising an alert have
nothing to do with the stores of events, jobs and dead letters.
-/

set_option autoImplicit false

namespace WebhookRelay

/-- A program that keeps away from the stores of events, jobs and dead letters. -/
abbrev Program.Aside {α : Type} (program : Program α) : Prop :=
  program.Uses fun request => request.aside = true

/-- A program that only looks up keys and marks what it has seen. -/
abbrev Program.Checks {α : Type} (program : Program α) : Prop :=
  program.Uses fun request => request.checks = true

theorem Program.Checks.aside {α : Type} {program : Program α} (checks : program.Checks) :
    program.Aside :=
  checks.imp fun _ => Call.aside_of_checks

/-! ## Verifying -/

section Verifying

variable {kind : Call → Prop}

theorem markIfAbsent_uses {marks : Marks} {key : String} {ttl : Duration}
    (seen : kind (.seen marks key)) (mark : kind (.mark marks key ttl))
    (tryMark : kind (.tryMark marks key ttl)) (mode : MarkMode) :
    (markIfAbsent marks mode key ttl).outcome.Uses kind := by
  rw [markIfAbsent_outcome]
  cases mode with
  | atomic => exact ⟨tryMark, fun _ => trivial⟩
  | stepwise =>
      refine ⟨seen, fun answer => ?_⟩
      match answer with
      | .error error => exact trivial
      | .ok true => exact trivial
      | .ok false => exact ⟨mark, fun answer => by cases answer <;> exact trivial⟩

theorem lookUpKey_uses (reads : ∀ keyId, kind (.readKeys keyId))
    (refreshes : ∀ seenAt, kind (.refreshKeys seenAt)) (keyId : String) :
    (lookUpKey keyId).outcome.Uses kind := by
  rw [lookUpKey_outcome]
  refine ⟨reads keyId, fun reading => ?_⟩
  cases reading with
  | found key => exact trivial
  | absent => exact trivial
  | stale seenAt =>
      refine ⟨refreshes seenAt, fun answer => ?_⟩
      cases answer with
      | error error => exact trivial
      | ok keys =>
          dsimp only
          split <;> exact trivial

theorem Verifier.checkNonce_uses {verifier : Verifier}
    (marks : ∀ mode, verifier.nonces = some mode → ∀ nonce,
      (markIfAbsent .nonces mode nonce verifier.nonceTtl).outcome.Uses kind)
    (signature keyId : String) : (verifier.checkNonce signature keyId).outcome.Uses kind := by
  rw [checkNonce_outcome]
  cases nonces : verifier.nonces with
  | none => exact trivial
  | some mode =>
      refine (marks mode nonces _).bind fun marked => ?_
      match marked with
      | .error error => exact trivial
      | .ok true => exact trivial
      | .ok false => exact trivial

theorem Verifier.verify_uses {verifier : Verifier} (reads : ∀ keyId, kind (.readKeys keyId))
    (refreshes : ∀ seenAt, kind (.refreshKeys seenAt))
    (marks : ∀ mode, verifier.nonces = some mode → ∀ nonce,
      (markIfAbsent .nonces mode nonce verifier.nonceTtl).outcome.Uses kind)
    (now : Int) (claim : SignatureClaim) (body : Bytes) :
    (verifier.verify now claim body).outcome.Uses kind := by
  cases skips : verifier.skip with
  | true =>
      rw [verify_outcome_skipped skips]
      exact trivial
  | false =>
      by_cases presented : ∃ signature keyId header,
          verifier.Presents now claim signature keyId header
      · obtain ⟨signature, keyId, header, presents⟩ := presented
        rw [verify_outcome skips presents]
        refine (lookUpKey_uses reads refreshes keyId).bind fun found => ?_
        cases found with
        | error error => exact trivial
        | ok key =>
            dsimp only
            split
            · refine (checkNonce_uses marks signature keyId).bind fun checked => ?_
              cases checked <;> exact trivial
            · exact trivial
      · obtain ⟨error, _, ended⟩ := verify_outcome_unpresented skips
          (fun signature keyId header presents =>
            presented ⟨signature, keyId, header, presents⟩) body
        rw [ended]
        exact trivial

theorem markIfAbsent_checks (marks : Marks) (mode : MarkMode) (key : String)
    (ttl : Duration) :
    (markIfAbsent marks mode key ttl).outcome.Checks := by
  refine markIfAbsent_uses ?_ ?_ ?_ mode <;> rfl

theorem Verifier.checkNonce_checks (verifier : Verifier) (signature keyId : String) :
    (verifier.checkNonce signature keyId).outcome.Checks :=
  checkNonce_uses (fun mode _ nonce => markIfAbsent_checks _ mode nonce _) signature keyId

theorem Verifier.verify_checks (verifier : Verifier) (now : Int) (claim : SignatureClaim)
    (body : Bytes) :
    (verifier.verify now claim body).outcome.Checks := by
  refine verify_uses (fun _ => ?_) (fun _ => ?_) (fun mode _ nonce => ?_) now claim body
  · rfl
  · rfl
  · exact markIfAbsent_checks _ mode nonce _

end Verifying

theorem Receiver.auditRejection_aside (request : Request) (reason : String) :
    (auditRejection request reason).outcome.Aside :=
  ⟨rfl, fun _ => ⟨rfl, fun answer => by cases answer <;> exact trivial⟩⟩

/-! ## Attempts at delivering -/

theorem Call.aside_of_delivers {request : Call} (delivers : request.delivers) :
    request.aside = true := by
  cases request <;> first | rfl | cases delivers

theorem Processor.observe_uses {kind : Call → Prop}
    (reads : ∀ eventId reason since, kind (.recentAlert eventId reason since))
    (draws : kind (.newId .alert)) (raises : ∀ alert, kind (.createAlert alert))
    (processor : Processor) (now : Timestamp) (job : Job) (error : String) :
    (processor.observe now job error).Uses kind := by
  unfold observe
  cases processor.alerts with
  | none => exact trivial
  | some policy =>
      refine Program.Uses.bind ?_ fun _ => trivial
      unfold AlertPolicy.notify
      split
      · exact trivial
      · refine ⟨reads _ _ _, fun answer => ?_⟩
        match answer with
        | .error error => exact trivial
        | .ok true => exact trivial
        | .ok false =>
            refine ⟨draws, fun id => ⟨raises _, fun answer => ?_⟩⟩
            cases answer <;> exact trivial

theorem Processor.observe_aside (processor : Processor) (now : Timestamp) (job : Job)
    (error : String) : (processor.observe now job error).Aside := by
  refine observe_uses (fun _ _ _ => ?_) ?_ (fun _ => ?_) processor now job error <;> rfl

end WebhookRelay
