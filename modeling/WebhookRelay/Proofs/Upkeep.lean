import WebhookRelay.Proofs.Ingestion

/-!
# Handling dead letters keeps the contract of the stores

An entry is made of a stored job, and a replay takes the payload of an entry that it was
answered.  Together with receiving and with passes of the processor, these are all
activities of a pipeline.
-/

set_option autoImplicit false

namespace WebhookRelay

variable {verifier : Verifier} {truthful : Prop} {who : Nat} {ledger : Ledger}

/-! ## Dead letters -/

namespace DeadLetter

theorem captureJob_upholds (now : Timestamp) {job : Job}
    (admits : verifier.Admits ledger.history (Text.utf8 job.payload)) :
    (captureJob now job).outcome.Upholds (.ofStores verifier truthful) who
      (fun _ _ => True) ledger := by
  rw [captureJob_outcome]
  refine .call fun _ _ _ => ⟨trivial, fun answer _ _ later _ => ?_⟩
  match answer with
  | .error error => exact .done fun _ _ _ => trivial
  | .ok true => exact .done fun _ _ _ => trivial
  | .ok false =>
      refine .call fun _ _ _ => ⟨trivial, fun id _ _ drawn _ => ?_⟩
      have earlier := later.history.trans drawn.history
      refine .call fun _ between _ =>
        ⟨admits.mono (earlier.trans between.history), fun answer _ _ _ _ => ?_⟩
      cases answer <;> exact .done fun _ _ _ => trivial

theorem captureAll_upholds (now : Timestamp) {jobs : List Job}
    (sound : ledger.Sound verifier truthful)
    (admits : ∀ job ∈ jobs, verifier.Admits ledger.history (Text.utf8 job.payload)) :
    (captureAll now jobs).outcome.Upholds (.ofStores verifier truthful) who
      (fun _ _ => True) ledger := by
  induction jobs generalizing ledger with
  | nil => exact .done fun _ _ _ => trivial
  | cons job rest ih =>
      rw [captureAll_outcome]
      refine .bind sound (captureJob_upholds now (admits job List.mem_cons_self))
        fun made current currentSound later _ => ?_
      cases made with
      | error error => exact .done fun _ _ _ => trivial
      | ok made =>
          have restAdmits : ∀ other ∈ rest,
              verifier.Admits current.history (Text.utf8 other.payload) :=
            fun other member => (admits other (List.mem_cons_of_mem _ member)).mono later.history
          refine .bind currentSound (ih currentSound restAdmits) fun more _ _ _ _ => ?_
          cases more <;> exact .done fun _ _ _ => trivial

theorem capture_upholds (now : Timestamp) :
    (capture now).outcome.Upholds (.ofStores verifier truthful) who
      (fun _ _ => True) ledger := by
  rw [capture_outcome]
  refine .call fun current _ sound => ⟨trivial, fun answer world performed _ reached => ?_⟩
  cases answer with
  | error error => exact .done fun _ _ _ => trivial
  | ok failed =>
      refine captureAll_upholds now reached fun job member => ?_
      rw [World.perform_jobsByStatus performed] at member
      refine (sound.jobs job (JobStore.mem_byStatus member)).mono ?_
      exact current.answered_history ..

theorem replay_upholds (now : Timestamp) (id : Uuid) :
    (replay now id).outcome.Upholds (.ofStores verifier truthful) who
      (fun _ _ => True) ledger := by
  rw [replay_outcome]
  refine .call fun current _ sound => ⟨trivial, fun answer world performed _ _ => ?_⟩
  match answer with
  | .error error => exact .done fun _ _ _ => trivial
  | .ok none => exact .done fun _ _ _ => trivial
  | .ok (some entry) =>
      have found := (World.perform_getEntry performed).symm
      have admits : verifier.Admits current.history (Text.utf8 entry.payload) :=
        sound.entries entry (DeadLetterStore.find?_eq_some found)
      have answered := admits.mono
        (current.answered_history who (.getEntry id) (.ok (some entry)) world)
      dsimp only
      split
      · exact .done fun _ _ _ => trivial
      · refine .call fun _ _ _ => ⟨trivial, fun jobId _ _ drawn _ => ?_⟩
        have drawnAdmits := answered.mono drawn.history
        refine .call fun _ between _ =>
          ⟨drawnAdmits.mono between.history, fun answer _ _ created _ => ?_⟩
        cases answer with
        | error error => exact .done fun _ _ _ => trivial
        | ok done =>
            have createdAdmits := drawnAdmits.mono created.history
            refine .call fun _ between _ =>
              ⟨createdAdmits.mono between.history, fun answer _ _ _ _ => ?_⟩
            cases answer <;> exact .done fun _ _ _ => trivial

end DeadLetter

/-! ## All activities -/

/-- A circumstance under which the stores do not begin to pretend. -/
def Circumstance.Truthful : Circumstance → Prop
  | .refuse .createEvent plan => ∀ refusal ∈ plan, Refusal.Truthful refusal
  | _ => True

def Outcome.Kept (truthful : Prop) : Outcome → Ledger → Prop
  | .received result, ledger => Acknowledges truthful result ledger
  | _, _ => True

theorem Circumstance.planned {circumstance : Circumstance} (fair : circumstance.Truthful)
    {world : World}
    (planned : ∀ refusal ∈ world.refusals .createEvent, Refusal.Truthful refusal) :
    ∀ refusal ∈ (world.under circumstance).refusals .createEvent, Refusal.Truthful refusal := by
  cases circumstance with
  | refuse site plan =>
      intro refusal member
      simp only [World.under, World.refuse] at member
      split at member
      · rename_i same
        subst same
        rcases List.mem_append.mp member with old | added
        · exact planned refusal old
        · exact fair refusal added
      · exact planned refusal member
  | _ => exact planned

theorem Pipeline.program_upholds (pipeline : Pipeline) (task : Task)
    (begun : .begun who task ∈ ledger.history)
    (sound : ledger.Sound pipeline.receiver.verifier truthful) :
    (pipeline.program task).Upholds (.ofStores pipeline.receiver.verifier truthful) who
      (Outcome.Kept truthful) ledger := by
  cases task with
  | receive request =>
      refine .bind sound (pipeline.receiver.receive_upholds begun sound)
        fun result current _ _ acknowledges => ?_
      refine .done fun last later _ receipt same isTruthful => ?_
      exact later.hasJob (acknowledges receipt same isTruthful)
  | pass now =>
      have allows := Contract.ofStores_allowsPasses pipeline.receiver.verifier truthful
      exact .bind sound (Processor.pass_upholds allows pipeline.processor pipeline.delivers now)
        fun _ _ _ _ _ => .done fun _ _ _ => trivial
  | capture now =>
      exact .bind sound (DeadLetter.capture_upholds now)
        fun _ _ _ _ _ => .done fun _ _ _ => trivial
  | replay now id =>
      exact .bind sound (DeadLetter.replay_upholds now id)
        fun _ _ _ _ _ => .done fun _ _ _ => trivial

theorem Pipeline.shares (pipeline : Pipeline) (truthful : Prop) :
    (Contract.ofStores pipeline.receiver.verifier truthful).SharedBy pipeline
      (fun circumstance => truthful → circumstance.Truthful) (Outcome.Kept truthful) where
  between_of_later later := later
  begins {ledger} who task sound := by
    intro begun
    have framed : begun.Sound pipeline.receiver.verifier truthful ∧ ledger.Grows begun :=
      sound.frame (List.prefix_append _ _) (.refl _) sound.planned
    refine ⟨framed.1, framed.2, pipeline.program_upholds task ?_ framed.1⟩
    exact List.mem_append_right _ List.mem_cons_self
  changes sound fair :=
    sound.frame List.prefix_rfl (World.under_sameStores _ _)
      fun isTruthful => Circumstance.planned (fair isTruthful) (sound.planned isTruthful)

theorem World.Blank.sound {world : World} (blank : world.Blank) (verifier : Verifier)
    (planned : truthful → ∀ refusal ∈ world.refusals .createEvent, Refusal.Truthful refusal) :
    (Scene.opening world).toLedger.Sound verifier truthful where
  distinct := by simp [Scene.opening, JobStore.Distinct, blank.jobs]
  jobs := by simp [Scene.opening, blank.jobs]
  entries := by simp [Scene.opening, blank.deadLetters]
  events := by simp [Scene.opening, blank.events]
  processed := by simp [Scene.opening, blank.events]
  planned := planned

end WebhookRelay
