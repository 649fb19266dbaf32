import WebhookRelay.Proofs.Reliable
import WebhookRelay.Proofs.Sequence

/-!
# Runs that are written down

A run of a program together with its calls and their answers, and a chronicle of tasks that
are run one after the other: what each of them found, which calls it made and how it ended.
-/

set_option autoImplicit false

namespace WebhookRelay

structure Answered where
  request : Call
  answer : request.Answer

namespace Program

variable {α β : Type}

/-- Runs a program alone to its end and writes down its calls. -/
def record : Program α → World → Option (α × List Answered × World)
  | .done value, world => some (value, [], world)
  | .call request next, world =>
      match world.perform request with
      | none => none
      | some (answer, world) =>
          ((next answer).record world).map fun (value, calls, world) =>
            (value, ⟨request, answer⟩ :: calls, world)

variable {world last : World} {calls : List Answered}

theorem record_call_eq_some {request : Call} {next : request.Answer → Program α} {value : α} :
    (call request next).record world = some (value, calls, last) ↔
      ∃ answer middle later, world.perform request = some (answer, middle) ∧
        (next answer).record middle = some (value, later, last) ∧
        calls = ⟨request, answer⟩ :: later := by
  constructor
  · intro recorded
    simp only [record] at recorded
    split at recorded
    · cases recorded
    · rename_i answer middle performed
      obtain ⟨⟨ended, later, final⟩, goesOn, same⟩ := Option.map_eq_some_iff.mp recorded
      cases same
      exact ⟨answer, middle, later, performed, goesOn, rfl⟩
  · rintro ⟨answer, middle, later, performed, goesOn, rfl⟩
    simp only [record, performed, goesOn]
    rfl

theorem record_bind {program : Program α} {next : α → Program β} {value : β}
    (recorded : (program.bind next).record world = some (value, calls, last)) :
    ∃ first early middle late, program.record world = some (first, early, middle) ∧
      (next first).record middle = some (value, late, last) ∧ calls = early ++ late := by
  induction program generalizing world calls with
  | done first => exact ⟨first, [], world, calls, rfl, recorded, rfl⟩
  | call request rest ih =>
      obtain ⟨answer, reached, later, performed, goesOn, rfl⟩ :=
        record_call_eq_some.mp recorded
      obtain ⟨first, early, middle, late, before, after, rfl⟩ := ih answer goesOn
      refine ⟨first, ⟨request, answer⟩ :: early, middle, late, ?_, after, rfl⟩
      exact record_call_eq_some.mpr ⟨answer, reached, early, performed, before, rfl⟩

theorem record_bind_eq {program : Program α} {next : α → Program β} {first : α} {value : β}
    {early late : List Answered} {middle : World}
    (before : program.record world = some (first, early, middle))
    (after : (next first).record middle = some (value, late, last)) :
    (program.bind next).record world = some (value, early ++ late, last) := by
  induction program generalizing world early with
  | done ended =>
      cases before
      exact after
  | call request rest ih =>
      obtain ⟨answer, reached, later, performed, goesOn, rfl⟩ := record_call_eq_some.mp before
      exact record_call_eq_some.mpr
        ⟨answer, reached, later ++ late, performed, ih answer goesOn, rfl⟩

theorem run_of_record {program : Program α} {value : α}
    (recorded : program.record world = some (value, calls, last)) :
    program.run world = some (value, last) := by
  induction program generalizing world calls with
  | done ended =>
      cases recorded
      rfl
  | call request next ih =>
      obtain ⟨answer, middle, later, performed, goesOn, _⟩ :=
        record_call_eq_some.mp recorded
      exact (run_call performed).trans (ih answer goesOn)

theorem record_of_run {program : Program α} {value : α}
    (run : program.run world = some (value, last)) :
    ∃ calls, program.record world = some (value, calls, last) := by
  induction program generalizing world with
  | done ended =>
      cases run
      exact ⟨[], rfl⟩
  | call request next ih =>
      obtain ⟨answer, middle, performed, run⟩ := run_call_eq_some.mp run
      obtain ⟨later, goesOn⟩ := ih answer run
      exact ⟨_, record_call_eq_some.mpr ⟨answer, middle, later, performed, goesOn, rfl⟩⟩

theorem Uses.record {kind : Call → Prop} {program : Program α} {value : α}
    (uses : program.Uses kind) (recorded : program.record world = some (value, calls, last)) :
    ∀ made ∈ calls, kind made.request := by
  induction program generalizing world calls with
  | done ended =>
      cases recorded
      intro made member
      cases member
  | call request next ih =>
      obtain ⟨answer, middle, later, performed, goesOn, rfl⟩ :=
        record_call_eq_some.mp recorded
      intro made member
      rcases List.mem_cons.mp member with rfl | after
      · exact uses.1
      · exact ih answer (uses.2 answer) goesOn made after

end Program

/-! ## Job ids -/

/-- The next so many job ids differ from each other. -/
def IdSupply.Varied (ids : IdSupply) (count : Nat) : Prop :=
  ∀ second < ids.drawn .job + count, ∀ first < second,
    ids.drawn .job ≤ first → ids.ids .job first ≠ ids.ids .job second

instance (ids : IdSupply) (count : Nat) : Decidable (ids.Varied count) :=
  inferInstanceAs (Decidable (∀ second < _, ∀ first < second, _ → _))

/-- Since the supply was as given, at most so many job ids were drawn, and the jobs were
created with ids that were drawn since then. -/
structure World.Numbered (ids : IdSupply) (count : Nat) (world : World) : Prop where
  supply : world.ids.ids = ids.ids
  since : ids.drawn .job ≤ world.ids.drawn .job
  atMost : world.ids.drawn .job ≤ ids.drawn .job + count
  created : ∀ identity ∈ world.jobs.identities, ∃ place, ids.drawn .job ≤ place ∧
    place < world.ids.drawn .job ∧ identity.id = ids.ids .job place

namespace World.Numbered

variable {ids : IdSupply} {count : Nat} {world last : World}

theorem opening (empty : world.jobs.jobs = []) : world.Numbered world.ids 0 where
  supply := rfl
  since := Nat.le_refl _
  atMost := Nat.le_refl _
  created := by simp [JobStore.identities, empty]

theorem fresh (numbered : world.Numbered ids count) {total : Nat} (varied : ids.Varied total)
    (room : count < total) : world.jobs.find? (world.ids.draw .job).1 = none := by
  have atMost := numbered.atMost
  rw [JobStore.find?_eq_none]
  intro member
  obtain ⟨job, jobMember, same⟩ := List.mem_map.mp member
  obtain ⟨place, since, before, isId⟩ :=
    numbered.created job.identity (List.mem_map_of_mem jobMember)
  refine varied (world.ids.drawn .job) (by omega) place before since ?_
  rw [← isId, ← numbered.supply]
  exact same

theorem keep (numbered : world.Numbered ids count) (supply : last.ids.ids = world.ids.ids)
    (drawn : last.ids.drawn .job = world.ids.drawn .job)
    (jobs : last.jobs.identities = world.jobs.identities) {more : Nat} (le : count ≤ more) :
    last.Numbered ids more where
  supply := supply.trans numbered.supply
  since := drawn ▸ numbered.since
  atMost := by
    rw [drawn]
    exact Nat.le_trans numbered.atMost (Nat.add_le_add_left le _)
  created := by
    rw [jobs, drawn]
    exact numbered.created

theorem create (numbered : world.Numbered ids count) (drawn : last.ids = (world.ids.draw .job).2)
    {job : Job} (isId : job.id = (world.ids.draw .job).1)
    (jobs : last.jobs.jobs = world.jobs.jobs ++ [job]) : last.Numbered ids (count + 1) := by
  have oneMore : last.ids.drawn .job = world.ids.drawn .job + 1 := by
    rw [drawn]
    simp [IdSupply.draw, IdSupply.setDrawn]
  have supply : last.ids.ids = world.ids.ids := by
    rw [drawn]
    rfl
  refine ⟨supply.trans numbered.supply, ?_, ?_, ?_⟩
  · rw [oneMore]
    exact Nat.le_succ_of_le numbered.since
  · rw [oneMore]
    exact Nat.succ_le_succ numbered.atMost
  · rw [JobStore.identities, jobs, List.map_append, oneMore]
    intro identity member
    rcases List.mem_append.mp member with old | new
    · obtain ⟨place, since, before, isOld⟩ := numbered.created identity old
      exact ⟨place, since, Nat.lt_succ_of_lt before, isOld⟩
    · obtain rfl := List.mem_singleton.mp new
      refine ⟨world.ids.drawn .job, numbered.since, Nat.lt_succ_self _, ?_⟩
      rw [← numbered.supply]
      exact isId

end World.Numbered

/-! ## Chronicles -/

def Outcome.receipt? : Outcome → Option Receipt
  | .received (.ok receipt) => some receipt
  | _ => none

theorem Outcome.receipt?_eq_some {outcome : Outcome} {receipt : Receipt} :
    outcome.receipt? = some receipt ↔ outcome = .received (.ok receipt) := by
  constructor
  · intro given
    unfold receipt? at given
    split at given
    · cases given
      rfl
    · cases given
  · rintro rfl
    rfl

structure Chapter where
  task : Task
  /-- The world that the task found. -/
  before : World
  calls : List Answered
  outcome : Outcome

structure Chronicle where
  world : World
  chapters : List Chapter := []

/-- An episode of a run in which no store fails: a task that is run to its end, or a change
outside after which no calls are refused. -/
def Episode.Smooth : Episode → Prop
  | .run task => task.Ingests
  | .breakOff _ _ => False
  | .change circumstance => circumstance.Calm

theorem Episode.Smooth.ingests {episode : Episode} (smooth : episode.Smooth) :
    episode.Ingests := by
  cases episode with
  | run task => exact smooth
  | breakOff task calls => exact smooth.elim
  | change circumstance => exact trivial

namespace Chronicle

/-- The chronicle after one more episode; what is broken off is not written down. -/
def next (pipeline : Pipeline) (chronicle : Chronicle) : Episode → Option Chronicle
  | .run task =>
      ((pipeline.program task).record chronicle.world).map fun (outcome, calls, world) => {
        world
        chapters := chronicle.chapters ++ [⟨task, chronicle.world, calls, outcome⟩] }
  | .breakOff _ _ => none
  | .change circumstance => some { chronicle with world := chronicle.world.under circumstance }

def write (pipeline : Pipeline) (chronicle : Chronicle) : List Episode → Option Chronicle
  | [] => some chronicle
  | episode :: rest => do
      let chronicle ← chronicle.next pipeline episode
      chronicle.write pipeline rest

def opening (world : World) : Chronicle :=
  { world }

variable {pipeline : Pipeline} {chronicle after : Chronicle}

theorem next_cases {episode : Episode}
    (written : chronicle.next pipeline episode = some after) :
    (∃ task outcome calls world, episode = .run task ∧
      (pipeline.program task).record chronicle.world = some (outcome, calls, world) ∧
      after = {
        world
        chapters := chronicle.chapters ++ [⟨task, chronicle.world, calls, outcome⟩] }) ∨
      ∃ circumstance, episode = .change circumstance ∧
        after = { chronicle with world := chronicle.world.under circumstance } := by
  cases episode with
  | run task =>
      obtain ⟨⟨outcome, calls, world⟩, recorded, same⟩ := Option.map_eq_some_iff.mp written
      exact Or.inl ⟨task, outcome, calls, world, rfl, recorded, same.symm⟩
  | breakOff task calls => cases written
  | change circumstance =>
      cases written
      exact Or.inr ⟨circumstance, rfl, rfl⟩

/-- What is written down has been taken, episode by episode. -/
theorem next_take {episode : Episode}
    (written : chronicle.next pipeline episode = some after) :
    chronicle.world.take pipeline episode = some after.world := by
  obtain ⟨task, outcome, calls, world, rfl, recorded, rfl⟩ | ⟨circumstance, rfl, rfl⟩ :=
    next_cases written
  · rw [World.take, Program.run_of_record recorded]
    rfl
  · rfl

theorem write_preserves (kept : Chronicle → Prop) {episodes : List Episode}
    (preserved : ∀ episode ∈ episodes, ∀ before after : Chronicle, kept before →
      before.next pipeline episode = some after → kept after)
    (start : kept chronicle) (written : chronicle.write pipeline episodes = some after) :
    kept after := by
  induction episodes generalizing chronicle with
  | nil =>
      cases written
      exact start
  | cons episode rest ih =>
      simp only [write, bind, Option.bind_eq_some_iff] at written
      obtain ⟨middle, begun, written⟩ := written
      refine ih (fun other member => preserved other (List.mem_cons_of_mem _ member)) ?_ written
      exact preserved episode List.mem_cons_self chronicle middle start begun

end Chronicle

end WebhookRelay
