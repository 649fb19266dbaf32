import WebhookRelay.Proofs.Attempts
import WebhookRelay.Proofs.Sequence

/-!
# Contracts of activities that take turns

Under the contracts here nothing happens between two calls of an activity, so each call
finds the world as the last one left it.  What a pass makes of its batch then needs one
statement about a single attempt, and what the tasks of a pipeline uphold holds after any
list of episodes, wherever tasks are broken off.
-/

set_option autoImplicit false

namespace WebhookRelay

/-- Nothing happens between two calls of an activity. -/
def Contract.Undisturbed (contract : Contract) : Prop :=
  ∀ before after, contract.between before after → before = after

section Undisturbed

variable {α : Type} {contract : Contract} {who : Nat} {ledger : Ledger}
  {promise : α → Ledger → Prop}

namespace Program.Upholds

theorem ended (undisturbed : contract.Undisturbed) {value : α}
    (promised : contract.sound ledger → promise value ledger) :
    (Program.done value).Upholds contract who promise ledger := by
  intro current between sound
  have same : ledger = current := undisturbed ledger current between
  rw [← same]
  apply promised
  rw [same]
  exact sound

theorem asks (undisturbed : contract.Undisturbed) {request : Call}
    {next : request.Answer → Program α}
    (step : contract.sound ledger → contract.allows who ledger request ∧
      ∀ answer world, ledger.world.perform request = some (answer, world) →
        contract.sound (ledger.answered who request answer world) →
        (next answer).Upholds contract who promise
          (ledger.answered who request answer world)) :
    (Program.call request next).Upholds contract who promise ledger := by
  intro current between sound
  obtain rfl : ledger = current := undisturbed ledger current between
  obtain ⟨allowed, rest⟩ := step sound
  refine ⟨allowed, ?_⟩
  intro answer world performed
  have reached := (contract.keeps sound allowed performed).1
  exact rest answer world performed reached

/-- What becomes of the result makes no difference to the stores. -/
theorem told {β : Type} (undisturbed : contract.Undisturbed) (sound : contract.sound ledger)
    {program : Program α} (upholds : program.Upholds contract who promise ledger)
    (outcome : α → β) :
    (program.bind fun result => .done (outcome result)).Upholds contract who
      (fun _ _ => True) ledger := by
  refine .bind sound upholds ?_
  intro result last _ _ _
  exact .ended undisturbed fun _ => trivial

end Program.Upholds

theorem Program.Uses.upholds_preserved (undisturbed : contract.Undisturbed)
    {kind : Call → Prop} {leads : World → World → Prop} (refl : ∀ world, leads world world)
    (trans : ∀ {first second third}, leads first second → leads second third →
      leads first third)
    (allowed : ∀ {current request}, kind request → contract.sound current →
      contract.allows who current request)
    (step : ∀ {request : Call} {answer : request.Answer} {before after : World},
      kind request → before.perform request = some (answer, after) → leads before after)
    {program : Program α} (uses : program.Uses kind) :
    program.Upholds contract who (fun _ current => leads ledger.world current.world)
      ledger := by
  induction program generalizing ledger with
  | done value =>
      exact .ended undisturbed fun _ => refl ledger.world
  | call request next ih =>
      obtain ⟨own, rest⟩ := uses
      refine .asks undisturbed fun sound => ⟨allowed own sound, ?_⟩
      intro answer world performed _
      have first : leads ledger.world world := step own performed
      refine (ih answer (rest answer)).weaken ?_
      intro value current _ reached
      exact trans first reached

theorem Program.Aside.upholds_sameStores (undisturbed : contract.Undisturbed)
    (allowed : ∀ {current request}, request.aside = true → contract.sound current →
      contract.allows who current request)
    {program : Program α} (aside : program.Aside) :
    program.Upholds contract who
      (fun _ current => ledger.world.SameStores current.world) ledger := by
  refine Program.Uses.upholds_preserved undisturbed World.SameStores.refl
    World.SameStores.trans allowed ?_ aside
  intro request answer before after isAside performed
  exact World.perform_sameStores (Call.writes_of_aside isAside) performed

end Undisturbed

/-! ## Passes -/

section Passes

variable {contract : Contract} {processor : Processor} {deliver : Deliverer} {who : Nat}
  {ledger : Ledger}

/-- What one attempt at a stored job has to uphold: it leaves the job store alone, and
what it makes of the job may be stored. -/
def Contract.CoversAttempts (contract : Contract) (processor : Processor)
    (deliver : Deliverer) (who : Nat) : Prop :=
  ∀ (now : Timestamp) (job : Job) (ledger : Ledger), contract.sound ledger →
    job ∈ ledger.world.jobs.jobs → job.status.isActive = true →
    (processor.attempt deliver now job).Upholds contract who
      (fun after current => current.world.jobs = ledger.world.jobs ∧
        after.id = job.id ∧ contract.allows who current (.updateJob after)) ledger

namespace Processor

theorem attemptAll_covered (undisturbed : contract.Undisturbed)
    (covers : contract.CoversAttempts processor deliver who) (now : Timestamp)
    {jobs : List Job} (sound : contract.sound ledger)
    (stored : Current jobs ledger.world.jobs) (distinct : (jobs.map Job.id).Nodup) :
    (processor.attemptAll deliver now jobs).outcome.Upholds contract who
      (fun _ _ => True) ledger := by
  induction jobs generalizing ledger with
  | nil => exact .ended undisturbed fun _ => trivial
  | cons job rest ih =>
      obtain ⟨member, active⟩ := stored job List.mem_cons_self
      rw [attemptAll_outcome]
      refine .bind sound (covers now job ledger sound member active) ?_
      intro after current _ _ ⟨unchanged, sameId, allowed⟩
      refine .asks undisturbed fun _ => ⟨allowed, ?_⟩
      intro answer world performed reached
      cases answer with
      | error error => exact .ended undisturbed fun _ => trivial
      | ok done =>
          have replaced : world.jobs = ⟨current.world.jobs.jobs.map fun other =>
              if other.id = after.id then after else other⟩ := by
            obtain ⟨_, _, ⟨_, impossible, _⟩ | ⟨_, replaced⟩⟩ :=
              World.perform_updateJob performed
            · cases impossible
            · exact replaced
          -- Only this job is stored anew, so the rest of the batch is still as it was read.
          have others : Current rest world.jobs := by
            rw [replaced, unchanged]
            exact stored.replace distinct sameId
          exact ih reached others (List.nodup_cons.mp distinct).2

theorem pass_covered (undisturbed : contract.Undisturbed)
    (covers : contract.CoversAttempts processor deliver who)
    (reads : ∀ {current now limit}, contract.sound current →
      contract.allows who current (.dueJobs now limit))
    (distinct : ∀ {current}, contract.sound current → current.world.jobs.Distinct)
    (now : Timestamp) :
    (processor.pass deliver now).outcome.Upholds contract who (fun _ _ => True) ledger := by
  rw [pass_outcome]
  refine .asks undisturbed fun sound => ⟨reads sound, ?_⟩
  intro answer world performed reached
  cases answer with
  | error error => exact .ended undisturbed fun _ => trivial
  | ok jobs =>
      have read : jobs = world.jobs.due now processor.batchSize := by
        rw [(World.perform_sameStores rfl performed).jobs]
        exact World.perform_dueJobs performed
      have batch : Current jobs world.jobs := by
        rw [read]
        exact current_due world.jobs now processor.batchSize
      have once : (jobs.map Job.id).Nodup := by
        rw [read]
        exact (distinct reached).due now processor.batchSize
      refine .bind reached
        (attemptAll_covered undisturbed covers now reached batch once) ?_
      intro attempted current _ _ _
      cases attempted with
      | error error => exact .ended undisturbed fun _ => trivial
      | ok done => exact .ended undisturbed fun _ => trivial

end Processor

end Passes

/-! ## Episodes -/

def Episode.Fair (fair : Circumstance → Prop) : Episode → Prop
  | .change circumstance => fair circumstance
  | _ => True

/-- Every task of a pipeline upholds the contract, and so does what comes from outside. -/
structure Contract.Serves (contract : Contract) (pipeline : Pipeline)
    (fair : Circumstance → Prop) : Prop where
  upholds : ∀ {ledger : Ledger} (task : Task), contract.sound ledger →
    (pipeline.program task).Upholds contract 0 (fun _ _ => True) ledger
  changes : ∀ {ledger : Ledger} {circumstance}, contract.sound ledger → fair circumstance →
    let changed : Ledger := { ledger with world := ledger.world.under circumstance }
    contract.sound changed ∧ contract.later ledger changed

namespace Contract.Serves

variable {contract : Contract} {pipeline : Pipeline} {fair : Circumstance → Prop}
  {ledger : Ledger} {world : World}

theorem take (serves : contract.Serves pipeline fair) (sound : contract.sound ledger)
    {episode : Episode} (isFair : episode.Fair fair)
    (taken : ledger.world.take pipeline episode = some world) :
    ∃ last : Ledger, last.world = world ∧ contract.sound last ∧
      contract.later ledger last := by
  cases episode with
  | change circumstance =>
      cases taken
      obtain ⟨changed, later⟩ := serves.changes sound isFair
      exact ⟨_, rfl, changed, later⟩
  | run task =>
      obtain ⟨⟨outcome, final⟩, run, rfl⟩ := Option.map_eq_some_iff.mp taken
      obtain ⟨last, same, lastSound, later, _⟩ := (serves.upholds task sound).run sound run
      exact ⟨last, same, lastSound, later⟩
  | breakOff task calls => exact (serves.upholds task sound).runFor sound taken

theorem serve (serves : contract.Serves pipeline fair) (sound : contract.sound ledger)
    {episodes : List Episode} (areFair : ∀ episode ∈ episodes, episode.Fair fair)
    (served : ledger.world.serve pipeline episodes = some world) :
    ∃ last : Ledger, last.world = world ∧ contract.sound last ∧
      contract.later ledger last := by
  induction episodes generalizing ledger with
  | nil =>
      cases served
      exact ⟨ledger, rfl, sound, contract.later_refl ledger⟩
  | cons episode rest ih =>
      simp only [World.serve, bind, Option.bind_eq_some_iff] at served
      obtain ⟨reached, taken, served⟩ := served
      obtain ⟨middle, rfl, middleSound, before⟩ :=
        serves.take sound (areFair episode List.mem_cons_self) taken
      obtain ⟨last, same, lastSound, after⟩ := ih middleSound
        (fun other member => areFair other (List.mem_cons_of_mem _ member)) served
      exact ⟨last, same, lastSound, contract.later_trans before after⟩

end Contract.Serves

end WebhookRelay
