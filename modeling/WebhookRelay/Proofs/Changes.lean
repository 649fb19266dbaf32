import WebhookRelay.Proofs.Memory
import WebhookRelay.Proofs.Outcomes

/-!
# The changes that requests make

Whatever a request does to stores that never fail is a list of changes: it stores or dates an
event, enqueues a job, purges or sets marks, records a rejection.  Each change is described
by what it does to each store.  A request sees the event and the jobs of its own event id and
the marks of its own keys, so changes that are about others are out of its sight.
-/

set_option autoImplicit false

namespace WebhookRelay

/-! ## Changes -/

/-- One change to what is stored.  The ids of jobs and records are drawn when it is made. -/
inductive Change where
  | store (event : Event)
  | date (eventId : String) (time : Timestamp)
  | enqueue (now : Timestamp) (eventId payload : String)
  | purge (marks : Marks)
  | mark (marks : Marks) (key : String) (expiresAt : Instant)
  | record (request : Receiver.Request) (reason : String)

namespace World

def make (world : World) : Change → World
  | .store event => { world with events := ⟨world.events.events ++ [event]⟩ }
  | .date eventId time => { world with
      events := ⟨world.events.events.map fun event =>
        if event.eventId = eventId then EventStore.processedAt time event else event⟩ }
  | .enqueue now eventId payload => { world with
      ids := (world.ids.draw .job).2
      jobs := ⟨world.jobs.jobs ++ [.create (world.ids.draw .job).1 now eventId payload]⟩ }
  | .purge marks => world.setMarks ((world.marks marks).purge world.clock) marks
  | .mark marks key expiresAt =>
      world.setMarks (((world.marks marks).purge world.clock).put key expiresAt) marks
  | .record request reason => { world with
      ids := (world.ids.draw .audit).2
      audit := (world.audit.create
        (Receiver.rejection request reason (world.ids.draw .audit).1)).2 }

def makeAll (world : World) (changes : List Change) : World :=
  changes.foldl make world

theorem makeAll_append (world : World) (first second : List Change) :
    world.makeAll (first ++ second) = (world.makeAll first).makeAll second :=
  List.foldl_append

theorem makeAll_preserves (kept : World → Prop) {kind : Change → Prop}
    (step : ∀ world change, kind change → kept world → kept (world.make change))
    {changes : List Change} (kinds : ∀ change ∈ changes, kind change) {world : World}
    (start : kept world) : kept (world.makeAll changes) := by
  induction changes generalizing world with
  | nil => exact start
  | cons change rest ih =>
      have next := step world change (kinds change List.mem_cons_self) start
      exact ih (fun other member => kinds other (List.mem_cons_of_mem _ member)) next

variable {world : World}

theorem make_clock (world : World) (change : Change) : (world.make change).clock = world.clock := by
  cases change with
  | purge marks | mark marks => exact setMarks_clock ..
  | _ => rfl

theorem make_keys (world : World) (change : Change) : (world.make change).keys = world.keys := by
  cases change with
  | purge marks | mark marks => cases marks <;> rfl
  | _ => rfl

theorem Regular.setMarks (regular : world.Regular) {set : ExpiringSet} (unique : set.Unique)
    (own : Marks) : (world.setMarks set own).Regular where
  reliable := by cases own <;> exact regular.reliable
  works := by cases own <;> exact regular.works
  unique marks := by
    by_cases same : own = marks
    · subst same
      rw [setMarks_marks]
      exact unique
    · rw [setMarks_other world set same]
      exact regular.unique marks

theorem Regular.make (regular : world.Regular) (change : Change) :
    (world.make change).Regular := by
  cases change with
  | purge own => exact regular.setMarks ((regular.unique own).purge _) own
  | mark own key expiresAt =>
      exact regular.setMarks (((regular.unique own).purge _).put key expiresAt) own
  | record request reason =>
      obtain ⟨trail, created, _, works⟩ := regular.works.create_eq
        (Receiver.rejection request reason (world.ids.draw .audit).1)
      refine ⟨regular.reliable, ?_, regular.unique⟩
      simp only [World.make, created]
      exact works
  | store | date | enqueue => exact ⟨regular.reliable, regular.works, regular.unique⟩

theorem Regular.makeAll (regular : world.Regular) (changes : List Change) :
    (world.makeAll changes).Regular :=
  makeAll_preserves Regular (fun _ change _ regular => regular.make change)
    (fun _ _ => trivial) regular

/-! ## Job ids that are left -/

/-- The next so many job ids differ from each other and from those of all jobs. -/
structure Spare (world : World) (count : Nat) : Prop where
  varied : world.ids.Varied count
  fresh : ∀ place < world.ids.drawn .job + count, world.ids.drawn .job ≤ place →
    world.jobs.find? (world.ids.ids .job place) = none

instance (world : World) (count : Nat) : Decidable (world.Spare count) :=
  decidable_of_iff (world.ids.Varied count ∧
      ∀ place < world.ids.drawn .job + count, world.ids.drawn .job ≤ place →
        world.jobs.find? (world.ids.ids .job place) = none)
    ⟨fun spare => ⟨spare.1, spare.2⟩, fun spare => ⟨spare.varied, spare.fresh⟩⟩

end World

def Change.draws : Change → Nat
  | .enqueue _ _ _ => 1
  | _ => 0

def Change.drawsAll : List Change → Nat
  | [] => 0
  | change :: rest => change.draws + drawsAll rest

theorem Change.drawsAll_append (changes more : List Change) :
    drawsAll (changes ++ more) = drawsAll changes + drawsAll more := by
  induction changes with
  | nil => exact (Nat.zero_add _).symm
  | cons change rest ih =>
      rw [List.cons_append, drawsAll, drawsAll, ih, Nat.add_assoc]

namespace World

variable {world : World}

theorem Spare.fewer {many few : Nat} (spare : world.Spare many) (le : few ≤ many) :
    world.Spare few where
  varied second isSecond := spare.varied second (by omega)
  fresh place before since := spare.fresh place (by omega) since

theorem Spare.next {count : Nat} (spare : world.Spare (count + 1)) :
    world.jobs.find? (world.ids.draw .job).1 = none :=
  spare.fresh (world.ids.drawn .job) (by omega) (Nat.le_refl _)

theorem Spare.keep {last : World} {count : Nat} (spare : world.Spare count)
    (ids : last.ids.ids = world.ids.ids)
    (drawn : last.ids.drawn .job = world.ids.drawn .job) (jobs : last.jobs = world.jobs) :
    last.Spare count where
  varied := by
    unfold IdSupply.Varied
    rw [ids, drawn]
    exact spare.varied
  fresh := by
    rw [ids, drawn, jobs]
    exact spare.fresh

theorem Spare.make {count : Nat} {change : Change} (spare : world.Spare (change.draws + count)) :
    (world.make change).Spare count := by
  cases change with
  | store | date =>
      have left : world.Spare count := spare.fewer (by omega)
      exact left.keep rfl rfl rfl
  | purge marks | mark marks =>
      have left : world.Spare count := spare.fewer (by omega)
      cases marks <;> exact left.keep rfl rfl rfl
  | record request reason =>
      have left : world.Spare count := spare.fewer (by omega)
      exact left.keep rfl (by simp [World.make, IdSupply.draw, IdSupply.setDrawn]) rfl
  | enqueue now eventId payload =>
      obtain ⟨varied, fresh⟩ := spare
      have oneMore : (world.make (.enqueue now eventId payload)).ids.drawn .job =
          world.ids.drawn .job + 1 := by
        simp [World.make, IdSupply.draw, IdSupply.setDrawn]
      simp only [Change.draws] at varied fresh
      refine ⟨?_, ?_⟩
      · intro second isSecond first isFirst since
        rw [oneMore] at isSecond since
        exact varied second (by omega) first isFirst (by omega)
      · intro place before since
        rw [oneMore] at before since
        have old := fresh place (by omega) (by omega)
        have different : world.ids.ids .job (world.ids.drawn .job) ≠ world.ids.ids .job place :=
          varied place (by omega) (world.ids.drawn .job) (by omega) (Nat.le_refl _)
        rw [JobStore.find?_eq_none] at old ⊢
        simp only [World.make, List.map_append, List.map_cons, List.map_nil, List.mem_append,
          List.mem_singleton]
        rintro (known | same)
        · exact old known
        · exact different same.symm

theorem Spare.makeAll {count : Nat} {changes : List Change}
    (spare : world.Spare (Change.drawsAll changes + count)) :
    (world.makeAll changes).Spare count := by
  induction changes generalizing world with
  | nil =>
      have left : world.Spare count := by simpa [Change.drawsAll] using spare
      exact left
  | cons change rest ih =>
      have total : Change.drawsAll (change :: rest) + count =
          change.draws + (Change.drawsAll rest + count) :=
        Nat.add_assoc _ _ _
      rw [total] at spare
      exact ih spare.make

end World

/-! ## What a change does to each store -/

namespace Change

def events (change : Change) (before : List Event) : List Event :=
  match change with
  | .store event => before ++ [event]
  | .date eventId time => before.map fun event =>
      if event.eventId = eventId then EventStore.processedAt time event else event
  | _ => before

/-- The job that a change enqueues, whatever its id. -/
def jobs : Change → List Job
  | .enqueue now eventId payload => [.create default now eventId payload]
  | _ => []

def live (change : Change) (marks : Marks) (now : Instant) (before : List (String × Instant)) :
    List (String × Instant) :=
  match change with
  | .mark own key expiresAt =>
      if own = marks then
        ([(key, expiresAt)].filter (ExpiringSet.isLive now)) ++
          before.filter fun entry => entry.1 ≠ key
      else before
  | _ => before

end Change

def Job.unnumbered (job : Job) : Job :=
  { job with id := default }

def AuditRecord.unnumbered (record : AuditRecord) : AuditRecord :=
  { record with id := "" }

def Change.records : Change → List AuditRecord
  | .record request reason => [(Receiver.rejection request reason default).unnumbered]
  | _ => []

namespace World

variable {world : World}

theorem make_events (world : World) (change : Change) :
    (world.make change).events.events = change.events world.events.events := by
  cases change with
  | purge marks | mark marks => cases marks <;> rfl
  | _ => rfl

theorem make_jobs (world : World) (change : Change) :
    (world.make change).jobs.jobs.map Job.unnumbered =
      world.jobs.jobs.map Job.unnumbered ++ change.jobs := by
  cases change with
  | enqueue now eventId payload =>
      simp [World.make, Change.jobs, Job.unnumbered, Job.create]
  | purge marks | mark marks => cases marks <;> simp [World.make, World.setMarks, Change.jobs]
  | _ => simp [World.make, Change.jobs]

theorem make_records (works : world.audit.Works) (change : Change) :
    (world.make change).audit.records.map AuditRecord.unnumbered =
      world.audit.records.map AuditRecord.unnumbered ++ change.records := by
  cases change with
  | record request reason =>
      obtain ⟨trail, created, records, _⟩ := works.create_eq
        (Receiver.rejection request reason (world.ids.draw .audit).1)
      simp only [World.make, created, records, List.map_append, List.map_cons, List.map_nil,
        Change.records]
      simp only [AuditRecord.unnumbered, Receiver.rejection]
  | purge marks | mark marks => cases marks <;> simp [World.make, World.setMarks, Change.records]
  | _ => simp [World.make, Change.records]

theorem make_live (world : World) (change : Change) (marks : Marks) :
    (((world.make change).marks marks).purge world.clock).entries =
      change.live marks world.clock ((world.marks marks).purge world.clock).entries := by
  cases change with
  | purge own =>
      by_cases same : own = marks
      · subst same
        simp [World.make, setMarks_marks, ExpiringSet.purge_purge, Change.live]
      · simp [World.make, setMarks_other _ _ same, Change.live]
  | mark own key expiresAt =>
      by_cases same : own = marks
      · subst same
        simp only [World.make, setMarks_marks, Change.live, ExpiringSet.purge, ExpiringSet.put,
          if_true, List.filter_filter, List.filter_cons, List.filter_nil]
        have order (entry : String × Instant) :
            (ExpiringSet.isLive world.clock entry && (decide (entry.1 ≠ key) &&
              ExpiringSet.isLive world.clock entry)) =
              (decide (entry.1 ≠ key) && ExpiringSet.isLive world.clock entry) := by
          cases ExpiringSet.isLive world.clock entry <;> simp
        simp only [order]
        split <;> rfl
      · simp [World.make, setMarks_other _ _ same, Change.live, same]
  | _ => cases marks <;> rfl

/-! ## What a request sees -/

def Marked (world : World) (marks : Marks) (key : String) : Prop :=
  ((world.marks marks).purge world.clock).Has key

theorem make_hasJob {change : Change} {eventId : String} :
    (world.make change).jobs.HasJob eventId ↔
      world.jobs.HasJob eventId ∨ ∃ now payload, change = .enqueue now eventId payload := by
  cases change with
  | enqueue now own payload =>
      simp only [World.make, JobStore.HasJob, List.mem_append, List.mem_singleton]
      constructor
      · rintro ⟨job, old | rfl, rfl⟩
        · exact Or.inl ⟨job, old, rfl⟩
        · exact Or.inr ⟨now, payload, rfl⟩
      · rintro (⟨job, old, same⟩ | ⟨_, _, same⟩)
        · exact ⟨job, Or.inl old, same⟩
        · cases same
          exact ⟨_, Or.inr rfl, rfl⟩
  | purge marks | mark marks => cases marks <;> simp [World.make, World.setMarks]
  | _ => simp [World.make]

theorem marked_iff {marks : Marks} {key : String} : world.Marked marks key ↔
    ∃ expiresAt, (key, expiresAt) ∈ ((world.marks marks).purge world.clock).entries := by
  simp [Marked, ExpiringSet.Has]

theorem make_marked {change : Change} {marks : Marks} {key : String} :
    (world.make change).Marked marks key ↔ ∃ expiresAt, (key, expiresAt) ∈
      change.live marks world.clock ((world.marks marks).purge world.clock).entries := by
  rw [marked_iff, make_clock, make_live]

theorem make_marked_self {marks : Marks} {key : String} {expiresAt : Instant} :
    (world.make (.mark marks key expiresAt)).Marked marks key ↔ world.clock < expiresAt := by
  rw [make_marked]
  simp [Change.live, ExpiringSet.isLive]

theorem make_marked_other {change : Change} {marks : Marks} {key : String}
    (other : ∀ expiresAt, change ≠ .mark marks key expiresAt) :
    (world.make change).Marked marks key ↔ world.Marked marks key := by
  rw [make_marked, marked_iff]
  cases change with
  | mark own marked expiresAt =>
      by_cases same : own = marks
      · subst same
        have different : key ≠ marked := by
          rintro rfl
          exact other expiresAt rfl
        simp [Change.live, different]
      · simp [Change.live, same]
  | _ => rfl

end World

/-- The keys that a request may mark: the digest of its body, and its nonce. -/
def Receiver.Request.Owns (request : Receiver.Request) (marks : Marks) (key : String) : Prop :=
  match marks with
  | .fingerprints => key = bodyFingerprint request.body
  | .nonces => ∃ signature keyId, request.claim.signature = some signature ∧
      request.claim.keyId = some keyId ∧ key = signatureNonce signature keyId

/-- The requests are for different events, with different nonces and different digests of
their bodies. -/
structure Receiver.Request.Apart (one other : Receiver.Request) : Prop where
  events : ∀ eventId, one.Names eventId → ¬other.Names eventId
  keys : ∀ marks key, one.Owns marks key → ¬other.Owns marks key

theorem Receiver.Request.Apart.symm {one other : Receiver.Request} (apart : one.Apart other) :
    other.Apart one where
  events eventId names otherNames := apart.events eventId otherNames names
  keys marks key owns otherOwns := apart.keys marks key otherOwns owns

/-- The change is about the event that the request names, or about one of its keys. -/
def Change.Within (request : Receiver.Request) : Change → Prop
  | .store event => request.Names event.eventId
  | .date eventId _ => request.Names eventId
  | .enqueue _ eventId _ => request.Names eventId
  | .mark marks key _ => request.Owns marks key
  | .purge _ => True
  | .record _ _ => True

namespace World

variable {request one : Receiver.Request} {world other : World}

/-- To the request the two worlds look the same. -/
structure Alike (request : Receiver.Request) (world other : World) : Prop where
  clock : other.clock = world.clock
  keys : other.keys = world.keys
  event : ∀ eventId, request.Names eventId →
    other.events.find? eventId = world.events.find? eventId
  jobs : ∀ eventId, request.Names eventId →
    (other.jobs.HasJob eventId ↔ world.jobs.HasJob eventId)
  marked : ∀ marks key, request.Owns marks key →
    (other.Marked marks key ↔ world.Marked marks key)

theorem Alike.refl (request : Receiver.Request) (world : World) : world.Alike request world where
  clock := rfl
  keys := rfl
  event _ _ := rfl
  jobs _ _ := Iff.rfl
  marked _ _ _ := Iff.rfl

theorem Alike.trans {third : World} (before : world.Alike request other)
    (after : other.Alike request third) : world.Alike request third where
  clock := after.clock.trans before.clock
  keys := after.keys.trans before.keys
  event eventId names := (after.event eventId names).trans (before.event eventId names)
  jobs eventId names := (after.jobs eventId names).trans (before.jobs eventId names)
  marked marks key owns := (after.marked marks key owns).trans (before.marked marks key owns)

theorem find?_dated (events : List Event) (eventId own : String) (time : Timestamp) :
    ((Change.date own time).events events).find? (fun event => event.eventId = eventId) =
      (events.find? fun event => event.eventId = eventId).map fun event =>
        if event.eventId = own then EventStore.processedAt time event else event := by
  have keepsId (event : Event) : (if event.eventId = own then
      EventStore.processedAt time event else event).eventId = event.eventId := by
    split <;> rfl
  simp only [Change.events, List.find?_map, Function.comp_def, keepsId]

theorem make_find? {change : Change} {eventId : String} :
    (world.make change).events.find? eventId =
      (change.events world.events.events).find? fun event => event.eventId = eventId := by
  rw [EventStore.find?, make_events]

theorem Alike.make (alike : world.Alike request other) (change : Change) :
    (world.make change).Alike request (other.make change) where
  clock := by
    rw [make_clock, make_clock]
    exact alike.clock
  keys := by
    rw [make_keys, make_keys]
    exact alike.keys
  event eventId names := by
    have same := alike.event eventId names
    simp only [EventStore.find?] at same
    rw [make_find?, make_find?]
    cases change with
    | store event => simp only [Change.events, List.find?_append, same]
    | date own time => rw [find?_dated, find?_dated, same]
    | _ => exact same
  jobs eventId names := by
    rw [make_hasJob, make_hasJob, alike.jobs eventId names]
  marked marks key owns := by
    by_cases isMark : ∃ expiresAt, change = .mark marks key expiresAt
    · obtain ⟨expiresAt, rfl⟩ := isMark
      rw [make_marked_self, make_marked_self, alike.clock]
    · have unlike (expiresAt : Instant) : change ≠ .mark marks key expiresAt :=
        fun same => isMark ⟨expiresAt, same⟩
      rw [make_marked_other unlike, make_marked_other unlike]
      exact alike.marked marks key owns

theorem Alike.makeAll (alike : world.Alike request other) (changes : List Change) :
    (world.makeAll changes).Alike request (other.makeAll changes) := by
  induction changes generalizing world other with
  | nil => exact alike
  | cons change rest ih => exact ih (alike.make change)

/-- A change that is about another request is out of sight. -/
theorem alike_make (apart : one.Apart request) {change : Change} (within : change.Within one) :
    world.Alike request (world.make change) where
  clock := make_clock world change
  keys := make_keys world change
  event eventId names := by
    rw [make_find?]
    cases change with
    | store event =>
        have different : ¬event.eventId = eventId := by
          rintro rfl
          exact apart.events _ within names
        simp [Change.events, List.find?_append, different, EventStore.find?]
    | date own time =>
        rw [find?_dated]
        show _ = world.events.find? eventId
        cases found : world.events.find? eventId with
        | none =>
            rw [EventStore.find?] at found
            rw [found]
            rfl
        | some event =>
            have different : ¬event.eventId = own := by
              rw [(EventStore.find?_eq_some found).2]
              rintro rfl
              exact apart.events _ within names
            rw [EventStore.find?] at found
            rw [found, Option.map_some, if_neg different]
    | _ => rfl
  jobs eventId names := by
    rw [make_hasJob]
    constructor
    · rintro (known | ⟨now, payload, rfl⟩)
      · exact known
      · exact absurd names (apart.events eventId within)
    · exact Or.inl
  marked marks key owns := by
    apply make_marked_other
    rintro expiresAt rfl
    exact apart.keys marks key within owns

theorem alike_makeAll (apart : one.Apart request) {changes : List Change}
    (within : ∀ change ∈ changes, change.Within one) :
    world.Alike request (world.makeAll changes) := by
  apply makeAll_preserves (world.Alike request) _ within (Alike.refl request world)
  intro middle change isWithin alike
  exact alike.trans (alike_make apart isWithin)

end World

end WebhookRelay
