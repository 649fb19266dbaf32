import WebhookRelay.World

/-!
# What each call can touch

The state that calls read and change falls into parts.  A call changes one of them at most,
which its name tells, and uses up the next entry of the plan for its method; time, the source
of keys and the network stay what they are.
-/

set_option autoImplicit false

namespace WebhookRelay

/-- The method whose plan decides whether a call is refused. -/
def Call.site? : Call → Option Site
  | .findEvent _ => some .findEvent
  | .createEvent _ => some .createEvent
  | .markProcessed _ _ => some .markProcessed
  | .seen marks _ => some (.seen marks)
  | .mark marks _ _ => some (.mark marks)
  | .tryMark marks _ _ => some (.tryMark marks)
  | .unmark marks _ => some (.unmark marks)
  | .createJob _ => some .createJob
  | .getJob _ => some .getJob
  | .dueJobs _ _ => some .dueJobs
  | .updateJob _ => some .updateJob
  | .jobsByStatus _ => some .jobsByStatus
  | .jobsByEvent _ => some .jobsByEvent
  | .createEntry _ => some .createEntry
  | .getEntry _ => some .getEntry
  | .containsJob _ => some .containsJob
  | .updateEntry _ => some .updateEntry
  | .listEntries => some .listEntries
  | .createAlert _ => some .createAlert
  | .recentAlert _ _ _ => some .recentAlert
  | _ => none

inductive Part where
  | events
  | marks (marks : Marks)
  | keys
  | jobs
  | deadLetters
  | alerts
  | audit
  | ids
  | courier
  deriving DecidableEq, Repr

def Call.part? : Call → Option Part
  | .createEvent _ | .markProcessed _ _ => some .events
  | .mark marks _ _ | .tryMark marks _ _ | .unmark marks _ => some (.marks marks)
  | .createJob _ | .updateJob _ => some .jobs
  | .createEntry _ | .updateEntry _ => some .deadLetters
  | .createAlert _ => some .alerts
  | .createAudit _ => some .audit
  | .refreshKeys _ => some .keys
  | .newId _ => some .ids
  | .deliver _ => some .courier
  | _ => none

namespace World

/-! ## Refusals -/

theorem takeRefusal_refusals (world : World) (site other : Site) :
    (world.takeRefusal site).2.refusals other =
      if other = site then (world.refusals site).tail else world.refusals other := by
  unfold takeRefusal
  split
  · rename_i plan
    split
    · rename_i same
      rw [same, plan]
      rfl
    · rfl
  · rename_i next rest plan
    simp only [plan, List.tail_cons]

theorem takeRefusal_planned {world : World} {site : Site} {refusal : Refusal}
    (taken : (world.takeRefusal site).1 = some refusal) :
    some refusal ∈ world.refusals site := by
  unfold takeRefusal at taken
  split at taken
  · cases taken
  · rename_i next rest plan
    obtain rfl : next = some refusal := taken
    simp [plan]

section Refusing

variable {ε α σ : Type} {site : Site} {errorOf : Refusal → Option ε} {world after : World}

theorem unlessRefused_cases {effect : World → Option (Except ε α × World)}
    {answer : Except ε α}
    (performed : unlessRefused site errorOf world effect = some (answer, after)) :
    (∃ error, answer = .error error ∧ after = (world.takeRefusal site).2) ∨
      effect (world.takeRefusal site).2 = some (answer, after) := by
  simp only [unlessRefused] at performed
  split at performed
  · rename_i error _
    obtain ⟨rfl, rfl⟩ : Except.error error = answer ∧ (world.takeRefusal site).2 = after := by
      simpa using performed
    exact Or.inl ⟨error, rfl, rfl⟩
  · exact Or.inr performed

theorem reading_eq_some {value : World → α} {answer : Except ε α} :
    reading value world = some (answer, after) ↔
      answer = .ok (value world) ∧ after = world := by
  simp only [reading, Option.some.injEq, Prod.mk.injEq]
  constructor <;> (rintro ⟨rfl, rfl⟩; exact ⟨rfl, rfl⟩)

theorem unlessRefused_reading {value : World → α} {result : α}
    (performed : unlessRefused site errorOf world (reading value) = some (.ok result, after)) :
    result = value (world.takeRefusal site).2 := by
  obtain ⟨_, impossible, _⟩ | read := unlessRefused_cases performed
  · cases impossible
  · exact Except.ok.inj (reading_eq_some.mp read).1

theorem unlessRefused_changing {change : World → Except ε σ} {put : World → σ → World}
    {answer : Except ε Unit}
    (performed : unlessRefused site errorOf world (changing change put) = some (answer, after)) :
    (∃ error, answer = .error error ∧ after = (world.takeRefusal site).2) ∨
      ∃ state, change (world.takeRefusal site).2 = .ok state ∧ answer = .ok () ∧
        after = put (world.takeRefusal site).2 state := by
  obtain refused | changed := unlessRefused_cases performed
  · exact Or.inl refused
  · simp only [changing] at changed
    cases result : change (world.takeRefusal site).2 with
    | ok state =>
        rw [result] at changed
        cases changed
        exact Or.inr ⟨state, rfl, rfl, rfl⟩
    | error error =>
        rw [result] at changed
        cases changed
        exact Or.inl ⟨error, rfl, rfl⟩

end Refusing

/-! ## Parts -/

/-- Two worlds that differ in one part at most, plans apart. -/
structure Differs (part : Option Part) (before after : World) : Prop where
  clock : after.clock = before.clock
  source : after.source = before.source
  network : after.network = before.network
  events : part ≠ some .events → after.events = before.events
  marks : ∀ marks, part ≠ some (.marks marks) → after.marks marks = before.marks marks
  keys : part ≠ some .keys → after.keys = before.keys
  jobs : part ≠ some .jobs → after.jobs = before.jobs
  deadLetters : part ≠ some .deadLetters → after.deadLetters = before.deadLetters
  alerts : part ≠ some .alerts → after.alerts = before.alerts
  audit : part ≠ some .audit → after.audit = before.audit
  ids : part ≠ some .ids → after.ids = before.ids
  courier : part ≠ some .courier → after.courier = before.courier

/-- Two worlds with the same plans that differ in one part at most. -/
structure Confined (part : Option Part) (before after : World) : Prop where
  differs : Differs part before after
  refusals : after.refusals = before.refusals

variable {part : Option Part} {world after : World}

theorem Differs.refl (part : Option Part) (world : World) : Differs part world world := by
  constructor <;> intros <;> rfl

theorem Confined.refl (part : Option Part) (world : World) : Confined part world world :=
  ⟨.refl part world, rfl⟩

theorem differs_takeRefusal (part : Option Part) (world : World) (site : Site) :
    Differs part world (world.takeRefusal site).2 := by
  unfold takeRefusal
  split <;> constructor <;> intros <;> rfl

theorem Differs.trans {first second third : World} (before : Differs part first second)
    (after : Differs part second third) : Differs part first third where
  clock := after.clock.trans before.clock
  source := after.source.trans before.source
  network := after.network.trans before.network
  events other := (after.events other).trans (before.events other)
  marks marks other := (after.marks marks other).trans (before.marks marks other)
  keys other := (after.keys other).trans (before.keys other)
  jobs other := (after.jobs other).trans (before.jobs other)
  deadLetters other := (after.deadLetters other).trans (before.deadLetters other)
  alerts other := (after.alerts other).trans (before.alerts other)
  audit other := (after.audit other).trans (before.audit other)
  ids other := (after.ids other).trans (before.ids other)
  courier other := (after.courier other).trans (before.courier other)

theorem confined_setMarks (world : World) (set : ExpiringSet) (marks : Marks) :
    Confined (some (.marks marks)) world (world.setMarks set marks) := by
  refine ⟨?_, by cases marks <;> rfl⟩
  cases marks <;> constructor <;> first
    | (intros; rfl)
    | (intro other unlike; cases other <;> first | rfl | exact absurd rfl unlike)

theorem confined_fetchKeys (world : World) : Confined (some .keys) world world.fetchKeys.2 := by
  unfold fetchKeys
  dsimp only
  split <;> refine ⟨?_, rfl⟩ <;> constructor <;> intros <;> first | rfl | contradiction

section Refusing

variable {ε α σ : Type} {site : Site} {errorOf : Refusal → Option ε}

theorem unlessRefused_confined {effect : World → Option (Except ε α × World)}
    {answer : Except ε α}
    (confined : ∀ middle, effect middle = some (answer, after) → Confined part middle after)
    (performed : unlessRefused site errorOf world effect = some (answer, after)) :
    Confined part (world.takeRefusal site).2 after := by
  obtain ⟨_, _, rfl⟩ | changed := unlessRefused_cases performed
  · exact .refl _ _
  · exact confined _ changed

theorem changing_confined {change : World → Except ε σ} {put : World → σ → World}
    {answer : Except ε Unit} (confined : ∀ middle state, Confined part middle (put middle state))
    (performed : unlessRefused site errorOf world (changing change put) = some (answer, after)) :
    Confined part (world.takeRefusal site).2 after := by
  obtain ⟨_, _, rfl⟩ | ⟨_, _, _, rfl⟩ := unlessRefused_changing performed
  · exact .refl _ _
  · exact confined _ _

end Refusing

/-! ## Calls -/

/-- The world without the next entry of the plan that decides about a call. -/
def spend (world : World) (call : Call) : World :=
  match call.site? with
  | some site => (world.takeRefusal site).2
  | none => world

theorem createEvent_confined {event : Event} {answer : Except StoreError Unit}
    (performed : createEvent event world = some (answer, after)) :
    Confined (some .events) (world.takeRefusal .createEvent).2 after := by
  have put (middle : World) (events : EventStore) :
      Confined (some .events) middle { middle with events } := by
    refine ⟨?_, rfl⟩
    constructor <;> intros <;> first | rfl | contradiction
  simp only [createEvent, changing] at performed
  split at performed
  · cases performed
    exact .refl _ _
  · cases performed
    exact put _ _
  · split at performed
    · cases performed
      exact put _ _
    · cases performed
      exact .refl _ _

theorem perform_confined {call : Call} {answer : call.Answer}
    (performed : world.perform call = some (answer, after)) :
    Confined call.part? (world.spend call) after := by
  cases call with
  | findEvent | seen | getJob | dueJobs | jobsByStatus | jobsByEvent | getEntry | containsJob
  | listEntries | recentAlert =>
      refine unlessRefused_confined (fun middle read => ?_) performed
      obtain ⟨_, rfl⟩ := reading_eq_some.mp read
      exact .refl _ _
  | markProcessed | createJob | updateJob | updateEntry =>
      refine changing_confined (fun middle state => ?_) performed
      refine ⟨?_, rfl⟩
      constructor <;> intros <;> first | rfl | contradiction
  | mark | tryMark =>
      refine unlessRefused_confined (fun middle changed => ?_) performed
      obtain ⟨set, _, same⟩ := Option.map_eq_some_iff.mp changed
      cases same
      exact confined_setMarks ..
  | unmark =>
      simp only [perform] at performed
      refine unlessRefused_confined (fun middle changed => ?_) performed
      cases changed
      exact confined_setMarks ..
  | createEntry | createAlert =>
      simp only [perform] at performed
      refine unlessRefused_confined (fun middle changed => ?_) performed
      cases changed
      refine ⟨?_, rfl⟩
      constructor <;> intros <;> first | rfl | contradiction
  | createAudit | newId | deliver =>
      cases performed
      refine ⟨?_, rfl⟩
      constructor <;> intros <;> first | rfl | contradiction
  | readKeys | exchange =>
      cases performed
      exact .refl _ _
  | refreshKeys seenAt =>
      obtain rfl : (world.refreshKeys seenAt).2 = after :=
        congrArg Prod.snd (Option.some.inj performed)
      unfold refreshKeys
      split
      · exact .refl _ _
      · exact confined_fetchKeys world
  | createEvent event => exact createEvent_confined performed

theorem perform_differs {call : Call} {answer : call.Answer}
    (performed : world.perform call = some (answer, after)) :
    Differs call.part? world after := by
  refine Differs.trans ?_ (perform_confined performed).differs
  unfold spend
  split
  · exact differs_takeRefusal ..
  · exact .refl _ world

theorem perform_clock {call : Call} {answer : call.Answer}
    (performed : world.perform call = some (answer, after)) : after.clock = world.clock :=
  (perform_differs performed).clock

/-! ## Plans -/

theorem perform_refusals {call : Call} {answer : call.Answer}
    (performed : world.perform call = some (answer, after)) (site : Site) :
    after.refusals site <:+ world.refusals site := by
  rw [(perform_confined performed).refusals, spend]
  split
  · rw [takeRefusal_refusals]
    split
    · rename_i same
      rw [same]
      exact List.tail_suffix _
    · exact List.suffix_rfl
  · exact List.suffix_rfl

theorem perform_refusals_other {call : Call} {answer : call.Answer}
    (performed : world.perform call = some (answer, after)) {site : Site}
    (other : call.site? ≠ some site) : after.refusals site = world.refusals site := by
  rw [(perform_confined performed).refusals, spend]
  split
  · rename_i own same
    rw [takeRefusal_refusals, if_neg]
    rintro rfl
    exact other same
  · rfl

end World

end WebhookRelay
