import WebhookRelay.Proofs.Scene

/-!
# Contracts between activities

A contract says which ledgers are sound, which calls an activity may make at a sound
ledger, and what may have happened between two of its calls.  A program upholds the
contract if each of its calls is allowed whatever others did before it, and what it
promises of its result holds whenever the result is looked at.  The programs are checked
one at a time; from that a whole schedule keeps the contract.
-/

set_option autoImplicit false

namespace WebhookRelay

structure Contract where
  sound : Ledger → Prop
  allows : Nat → Ledger → Call → Prop
  /-- One ledger can come after another. -/
  later : Ledger → Ledger → Prop
  /-- One ledger can come after another without a call of the activity itself. -/
  between : Ledger → Ledger → Prop
  later_refl : ∀ ledger, later ledger ledger
  later_trans : ∀ {first second third},
    later first second → later second third → later first third
  between_refl : ∀ ledger, between ledger ledger
  between_trans : ∀ {first second third},
    between first second → between second third → between first third
  later_of_between : ∀ {first second}, between first second → later first second
  keeps : ∀ {who ledger request answer world}, sound ledger → allows who ledger request →
    ledger.world.perform request = some (answer, world) →
    sound (ledger.answered who request answer world) ∧
      later ledger (ledger.answered who request answer world)

namespace Program

variable {α β : Type} {contract : Contract} {who : Nat} {ledger : Ledger}

/-- The calls of a program are allowed, whatever happens between them, and its result is
as promised. -/
def Upholds (contract : Contract) (who : Nat) (promise : α → Ledger → Prop) :
    Program α → Ledger → Prop
  | .done value, ledger =>
      ∀ current, contract.between ledger current → contract.sound current →
        promise value current
  | .call request next, ledger =>
      ∀ current, contract.between ledger current → contract.sound current →
        contract.allows who current request ∧
          ∀ answer world, current.world.perform request = some (answer, world) →
            (next answer).Upholds contract who promise
              (current.answered who request answer world)

namespace Upholds

variable {promise : α → Ledger → Prop} {program : Program α}

theorem mono {current : Ledger} (upholds : program.Upholds contract who promise ledger)
    (between : contract.between ledger current) :
    program.Upholds contract who promise current := by
  cases program with
  | done value =>
      intro last after sound
      exact upholds last (contract.between_trans between after) sound
  | call request next =>
      intro last after sound
      exact upholds last (contract.between_trans between after) sound

theorem weaken {weaker : α → Ledger → Prop}
    (upholds : program.Upholds contract who promise ledger)
    (implies : ∀ value current, contract.sound current → promise value current →
      weaker value current) :
    program.Upholds contract who weaker ledger := by
  induction program generalizing ledger with
  | done value =>
      intro current between sound
      exact implies value current sound (upholds current between sound)
  | call request next ih =>
      intro current between sound
      obtain ⟨allowed, rest⟩ := upholds current between sound
      exact ⟨allowed, fun answer world performed => ih answer (rest answer world performed)⟩

/-- A result is looked at later than the program was begun. -/
theorem since (upholds : program.Upholds contract who promise ledger) {first : Ledger}
    (before : contract.later first ledger) :
    program.Upholds contract who
      (fun value current => contract.later first current ∧ promise value current) ledger := by
  induction program generalizing ledger with
  | done value =>
      intro current between sound
      have after := contract.later_trans before (contract.later_of_between between)
      exact ⟨after, upholds current between sound⟩
  | call request next ih =>
      intro current between sound
      obtain ⟨allowed, rest⟩ := upholds current between sound
      refine ⟨allowed, fun answer world performed => ih answer (rest answer world performed) ?_⟩
      have own := (contract.keeps sound allowed performed).2
      exact contract.later_trans before
        (contract.later_trans (contract.later_of_between between) own)

/-- A program that promises that the rest of a longer one upholds the contract. -/
theorem proceed {after : α → Program β} {final : β → Ledger → Prop}
    (sound : contract.sound ledger)
    (upholds : program.Upholds contract who
      (fun value current => (after value).Upholds contract who final current) ledger) :
    (program.bind after).Upholds contract who final ledger := by
  induction program generalizing ledger with
  | done value => exact upholds ledger (contract.between_refl ledger) sound
  | call request next ih =>
      intro current between currentSound
      obtain ⟨allowed, rest⟩ := upholds current between currentSound
      refine ⟨allowed, fun answer world performed => ?_⟩
      exact ih answer (contract.keeps currentSound allowed performed).1
        (rest answer world performed)

theorem bind {after : α → Program β} {final : β → Ledger → Prop}
    (sound : contract.sound ledger)
    (upholds : program.Upholds contract who promise ledger)
    (rest : ∀ value current, contract.sound current → contract.later ledger current →
      promise value current → (after value).Upholds contract who final current) :
    (program.bind after).Upholds contract who final ledger := by
  refine proceed sound ((upholds.since (contract.later_refl ledger)).weaken ?_)
  intro value current currentSound ⟨later, promised⟩
  exact rest value current currentSound later promised

theorem done {value : α}
    (stable : ∀ current, contract.later ledger current → contract.sound current →
      promise value current) :
    (Program.done value).Upholds contract who promise ledger := by
  intro current between sound
  exact stable current (contract.later_of_between between) sound

/-- One call, with what is known at the ledger that its answer leads to. -/
theorem call {request : Call} {next : request.Answer → Program α}
    (step : ∀ current, contract.between ledger current → contract.sound current →
      contract.allows who current request ∧
        ∀ answer world, current.world.perform request = some (answer, world) →
          let reached := current.answered who request answer world
          contract.later ledger reached → contract.sound reached →
            (next answer).Upholds contract who promise reached) :
    (Program.call request next).Upholds contract who promise ledger := by
  intro current between sound
  obtain ⟨allowed, rest⟩ := step current between sound
  refine ⟨allowed, fun answer world performed => ?_⟩
  obtain ⟨reachedSound, own⟩ := contract.keeps sound allowed performed
  exact rest answer world performed
    (contract.later_trans (contract.later_of_between between) own) reachedSound

theorem of_uses {kind : Call → Prop} (uses : program.Uses kind)
    (allowed : ∀ {request current}, kind request → contract.sound current →
      contract.allows who current request) :
    program.Upholds contract who (fun _ _ => True) ledger := by
  induction program generalizing ledger with
  | done value => exact fun _ _ _ => trivial
  | call request next ih =>
      intro current _ sound
      exact ⟨allowed uses.1 sound, fun answer world _ => ih answer (uses.2 answer)⟩

end Upholds

theorem Upholds.run {promise : α → Ledger → Prop} {program : Program α} {value : α}
    {world : World} (upholds : program.Upholds contract who promise ledger)
    (sound : contract.sound ledger) (run : program.run ledger.world = some (value, world)) :
    ∃ last : Ledger, last.world = world ∧ contract.sound last ∧ contract.later ledger last ∧
      promise value last := by
  induction program generalizing ledger with
  | done result =>
      cases run
      exact ⟨ledger, rfl, sound, contract.later_refl ledger,
        upholds ledger (contract.between_refl ledger) sound⟩
  | call request next ih =>
      obtain ⟨allowed, rest⟩ := upholds ledger (contract.between_refl ledger) sound
      obtain ⟨answer, middle, performed, run⟩ := run_call_eq_some.mp run
      obtain ⟨middleSound, middleLater⟩ := contract.keeps sound allowed performed
      obtain ⟨last, same, lastSound, lastLater, promised⟩ :=
        ih answer (rest answer middle performed) middleSound run
      exact ⟨last, same, lastSound, contract.later_trans middleLater lastLater, promised⟩

/-- What the allowed calls of a kind preserve is preserved by a program of such calls that
runs alone. -/
theorem Upholds.run_preserves {promise : α → Ledger → Prop} {kind : Call → Prop}
    (kept : World → Prop) (step : ∀ {current : Ledger} {request : Call}
      {answer : request.Answer} {after : World}, contract.sound current →
      contract.allows who current request → kind request →
      current.world.perform request = some (answer, after) → kept current.world → kept after)
    {program : Program α} {value : α} {world : World} (uses : program.Uses kind)
    (upholds : program.Upholds contract who promise ledger) (sound : contract.sound ledger)
    (run : program.run ledger.world = some (value, world)) (start : kept ledger.world) :
    kept world := by
  induction program generalizing ledger with
  | done result =>
      cases run
      exact start
  | call request next ih =>
      obtain ⟨allowed, rest⟩ := upholds ledger (contract.between_refl ledger) sound
      obtain ⟨answer, middle, performed, run⟩ := run_call_eq_some.mp run
      exact ih answer (uses.2 answer) (rest answer middle performed)
        (contract.keeps sound allowed performed).1 run
        (step sound allowed uses.1 performed start)

end Program

/-! ## Whole schedules -/

/-- A contract that the activities of a pipeline share: what one of them does is among
what the others must expect, each task's program upholds it, and what comes from outside
is expected as well. -/
structure Contract.SharedBy (contract : Contract) (pipeline : Pipeline)
    (fair : Circumstance → Prop) (promise : Outcome → Ledger → Prop) : Prop where
  between_of_later : ∀ {first second}, contract.later first second →
    contract.between first second
  begins : ∀ {ledger : Ledger} (who : Nat) (task : Task), contract.sound ledger →
    let begun : Ledger := ⟨ledger.world, ledger.history ++ [.begun who task]⟩
    contract.sound begun ∧ contract.later ledger begun ∧
      (pipeline.program task).Upholds contract who promise begun
  changes : ∀ {ledger : Ledger} {circumstance}, contract.sound ledger → fair circumstance →
    let changed : Ledger := { ledger with world := ledger.world.under circumstance }
    contract.sound changed ∧ contract.later ledger changed

def Move.Fair (fair : Circumstance → Prop) : Move → Prop
  | .change circumstance => fair circumstance
  | _ => True

namespace Scene

variable {contract : Contract} {pipeline : Pipeline} {fair : Circumstance → Prop}
  {promise : Outcome → Ledger → Prop}

/-- The ledger is sound and every activity upholds the contract from here on. -/
structure Governed (contract : Contract) (promise : Outcome → Ledger → Prop)
    (scene : Scene) : Prop where
  sound : contract.sound scene.toLedger
  upholds : ∀ {who : Nat} {activity : Activity}, scene.activities[who]? = some activity →
    activity.rest.Upholds contract who promise scene.toLedger

theorem governed_opening {world : World} (sound : contract.sound (opening world).toLedger) :
    Governed contract promise (opening world) :=
  ⟨sound, fun found => by simp [opening] at found⟩

theorem Governed.outcome {scene : Scene} (governed : Governed contract promise scene)
    {who : Nat} {outcome : Outcome} (ended : scene.outcome who = some outcome) :
    promise outcome scene.toLedger := by
  unfold Scene.outcome at ended
  split at ended
  · rename_i task result found
    cases ended
    exact governed.upholds found scene.toLedger (contract.between_refl _) governed.sound
  · cases ended

theorem Governed.move (shared : contract.SharedBy pipeline fair promise)
    {scene after : Scene} (governed : Governed contract promise scene) {next : Move}
    (isFair : next.Fair fair) (moved : scene.move pipeline next = some after) :
    Governed contract promise after ∧ contract.later scene.toLedger after.toLedger := by
  obtain ⟨task, rfl, rfl⟩ | ⟨who, task, request, rest, answer, world, rfl, found, performed,
    rfl⟩ | ⟨circumstance, rfl, rfl⟩ := move_cases moved
  -- A new activity stands behind all others, which only see that it has begun.
  · obtain ⟨sound, later, begins⟩ :=
      shared.begins scene.activities.length task governed.sound
    refine ⟨⟨sound, fun {other activity} running => ?_⟩, later⟩
    obtain old | ⟨rfl, rfl⟩ := getElem?_added running
    · exact (governed.upholds old).mono (shared.between_of_later later)
    · exact begins
  -- The activity that made the call goes on with the rest of its program; for all others
  -- the call is something that happened in between.
  · obtain ⟨allowed, remaining⟩ :=
      governed.upholds found scene.toLedger (contract.between_refl _) governed.sound
    obtain ⟨sound, later⟩ := contract.keeps governed.sound allowed performed
    refine ⟨⟨sound, fun {other activity} running => ?_⟩, later⟩
    obtain ⟨_, old⟩ | ⟨rfl, rfl⟩ := getElem?_replaced running
    · exact (governed.upholds old).mono (shared.between_of_later later)
    · exact remaining answer world performed
  · obtain ⟨sound, later⟩ := shared.changes governed.sound isFair
    refine ⟨⟨sound, fun running => ?_⟩, later⟩
    exact (governed.upholds running).mono (shared.between_of_later later)

/-- A schedule keeps the contract, and its end comes after its start. -/
theorem Governed.play (shared : contract.SharedBy pipeline fair promise) {moves : List Move}
    {scene last : Scene} (governed : Governed contract promise scene)
    (areFair : ∀ next ∈ moves, next.Fair fair)
    (played : scene.play pipeline moves = some last) :
    Governed contract promise last ∧ contract.later scene.toLedger last.toLedger := by
  refine play_preserves (fun current => Governed contract promise current ∧
    contract.later scene.toLedger current.toLedger) ?_ ⟨governed, contract.later_refl _⟩ played
  intro next member before after ⟨governed, sofar⟩ moved
  obtain ⟨governed, later⟩ := governed.move shared (areFair next member) moved
  exact ⟨governed, contract.later_trans sofar later⟩

end Scene

end WebhookRelay
