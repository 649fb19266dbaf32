import WebhookRelay.Proofs.Asides
import WebhookRelay.Proofs.Contract
import WebhookRelay.Proofs.Stores

/-!
# Passes of the processor

A pass stores what becomes of jobs that it has read, so it needs little from a contract:
that jobs stay the jobs that they are, and that their states may be updated.
-/

set_option autoImplicit false

namespace WebhookRelay

/-- A contract under which a processor may do its work. -/
structure Contract.AllowsPasses (contract : Contract) : Prop where
  aside : ∀ {who ledger request}, request.aside = true → contract.allows who ledger request
  reads : ∀ {who ledger now limit}, contract.allows who ledger (.dueJobs now limit)
  updates : ∀ {who ledger job}, job.identity ∈ ledger.world.jobs.identities →
    contract.allows who ledger (.updateJob job)
  keepsJobs : ∀ {before after}, contract.later before after →
    before.world.jobs.identities <+: after.world.jobs.identities

variable {contract : Contract} {who : Nat} {ledger : Ledger}

theorem Contract.AllowsPasses.upholds (allows : contract.AllowsPasses) {α : Type}
    {program : Program α} (aside : program.Aside) :
    program.Upholds contract who (fun _ _ => True) ledger :=
  .of_uses aside fun aside _ => allows.aside aside

namespace Processor

theorem attempt_upholds (allows : contract.AllowsPasses) (processor : Processor)
    {deliver : Deliverer} (now : Timestamp) (job : Job)
    (delivers : (deliver job.beginAttempt).Uses Call.delivers)
    (sound : contract.sound ledger) :
    (processor.attempt deliver now job).Upholds contract who
      (fun after _ => after.identity = job.identity) ledger := by
  have aside := delivers.imp fun _ => Call.aside_of_delivers
  refine .bind sound (allows.upholds aside) fun delivered current currentSound _ _ => ?_
  cases delivered with
  | ok done => exact .done fun _ _ _ => rfl
  | error error =>
      refine .bind currentSound (allows.upholds (observe_aside ..)) fun _ _ _ _ _ => ?_
      exact .done fun _ _ _ => by simp

theorem attemptAll_upholds (allows : contract.AllowsPasses) (processor : Processor)
    {deliver : Deliverer} (delivers : ∀ job, (deliver job).Uses Call.delivers)
    (now : Timestamp) {jobs : List Job} (sound : contract.sound ledger)
    (known : ∀ job ∈ jobs, job.identity ∈ ledger.world.jobs.identities) :
    (processor.attemptAll deliver now jobs).outcome.Upholds contract who
      (fun _ _ => True) ledger := by
  induction jobs generalizing ledger with
  | nil => exact .done fun _ _ _ => trivial
  | cons job rest ih =>
      rw [attemptAll_outcome]
      refine .bind sound (attempt_upholds allows processor now job (delivers _) sound)
        fun attempted current currentSound later same => ?_
      have stored : attempted.identity ∈ current.world.jobs.identities := by
        rw [same]
        exact (allows.keepsJobs later).mem (known job List.mem_cons_self)
      refine .call fun middle between _ =>
        ⟨allows.updates ?_, fun answer world _ after reached => ?_⟩
      · exact (allows.keepsJobs (contract.later_of_between between)).mem stored
      · cases answer with
        | error error => exact .done fun _ _ _ => trivial
        | ok done =>
            refine ih reached fun other member => ?_
            have kept := allows.keepsJobs (contract.later_trans later after)
            exact kept.mem (known other (List.mem_cons_of_mem _ member))

theorem pass_upholds (allows : contract.AllowsPasses) (processor : Processor)
    {deliver : Deliverer} (delivers : ∀ job, (deliver job).Uses Call.delivers)
    (now : Timestamp) :
    (processor.pass deliver now).outcome.Upholds contract who (fun _ _ => True) ledger := by
  rw [pass_outcome]
  refine .call fun current _ sound =>
    ⟨allows.reads, fun answer world performed _ reached => ?_⟩
  cases answer with
  | error error => exact .done fun _ _ _ => trivial
  | ok jobs =>
      have allowed : contract.allows who current (.dueJobs now processor.batchSize) :=
        allows.reads
      have own := (contract.keeps sound allowed performed).2
      have known : ∀ job ∈ jobs, job.identity ∈ world.jobs.identities := by
        intro job member
        rw [World.perform_dueJobs performed] at member
        exact (allows.keepsJobs own).mem (List.mem_map_of_mem (JobStore.mem_due member))
      refine .bind reached (attemptAll_upholds allows processor delivers now reached known)
        fun attempted _ _ _ _ => ?_
      cases attempted <;> exact .done fun _ _ _ => trivial

end Processor

end WebhookRelay
