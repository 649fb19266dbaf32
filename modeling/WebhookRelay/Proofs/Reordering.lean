import WebhookRelay.Proofs.Changes

/-!
# Changes in either order

Two lists of changes that are about different events and different keys can be made in either
order.  What is left differs in the order of the entries and in the ids that were drawn.
-/

set_option autoImplicit false

namespace WebhookRelay

section Swapping

variable {ι α : Type} {step : List α → ι → List α}

theorem foldl_perm (respects : ∀ move {before after : List α}, before.Perm after →
    (step before move).Perm (step after move)) (moves : List ι) {before after : List α}
    (same : before.Perm after) : (moves.foldl step before).Perm (moves.foldl step after) := by
  induction moves generalizing before after with
  | nil => exact same
  | cons move rest ih => exact ih (respects move same)

theorem foldl_past (respects : ∀ move {before after : List α}, before.Perm after →
    (step before move).Perm (step after move)) {one : ι} {moves : List ι}
    (swap : ∀ other ∈ moves, ∀ list : List α,
      (step (step list one) other).Perm (step (step list other) one)) (list : List α) :
    (moves.foldl step (step list one)).Perm (step (moves.foldl step list) one) := by
  induction moves generalizing list with
  | nil => exact .refl _
  | cons other rest ih =>
      have head := swap other List.mem_cons_self list
      have tail := ih (fun move later => swap move (List.mem_cons_of_mem _ later))
        (step list other)
      exact (foldl_perm respects rest head).trans tail

/-- Steps of two lists that can be taken in either order one by one can be taken in either
order list by list. -/
theorem foldl_swap (respects : ∀ move {before after : List α}, before.Perm after →
    (step before move).Perm (step after move)) {first second : List ι}
    (swap : ∀ one ∈ first, ∀ other ∈ second, ∀ list : List α,
      (step (step list one) other).Perm (step (step list other) one)) (list : List α) :
    (second.foldl step (first.foldl step list)).Perm
      (first.foldl step (second.foldl step list)) := by
  induction first generalizing list with
  | nil => exact .refl _
  | cons one rest ih =>
      have others := ih (fun move member => swap move (List.mem_cons_of_mem _ member))
        (step list one)
      have past := foldl_past respects (swap one List.mem_cons_self) list
      exact others.trans (foldl_perm respects rest past)

end Swapping

namespace Change

variable {one other : Receiver.Request} {change second : Change}

theorem events_perm (change : Change) {before after : List Event} (same : before.Perm after) :
    (change.events before).Perm (change.events after) := by
  cases change with
  | store event => exact same.append_right [event]
  | date eventId time => exact same.map _
  | _ => exact same

theorem date_append (eventId : String) (time : Timestamp) {event : Event}
    (different : event.eventId ≠ eventId) (before : List Event) :
    (date eventId time).events ((store event).events before) =
      (store event).events ((date eventId time).events before) := by
  simp [events, different]

theorem date_date {eventId late : String} (time end_ : Timestamp) (different : eventId ≠ late)
    (before : List Event) :
    (date late end_).events ((date eventId time).events before) =
      (date eventId time).events ((date late end_).events before) := by
  simp only [events, List.map_map]
  apply List.map_congr_left
  intro event _
  simp only [Function.comp_apply]
  by_cases first : event.eventId = eventId
  · simp [first, EventStore.processedAt, different]
  · by_cases second : event.eventId = late
    · simp [second, EventStore.processedAt, different.symm]
    · simp [first, second]

theorem events_swap (apart : one.Apart other) (within : change.Within one)
    (isSecond : second.Within other) (before : List Event) :
    (second.events (change.events before)).Perm (change.events (second.events before)) := by
  cases change with
  | store event =>
      cases second with
      | store late =>
          simp only [events, List.append_assoc]
          exact (List.Perm.swap late event []).append_left before
      | date eventId time =>
          have different : event.eventId ≠ eventId := by
            rintro rfl
            exact apart.events _ within isSecond
          rw [date_append eventId time different]
      | _ => exact .refl _
  | date eventId time =>
      cases second with
      | store event =>
          have different : event.eventId ≠ eventId := by
            rintro rfl
            exact apart.events _ within isSecond
          rw [date_append eventId time different]
      | date late end_ =>
          have different : eventId ≠ late := by
            rintro rfl
            exact apart.events _ within isSecond
          rw [date_date time end_ different]
      | _ => exact .refl _
  | _ => exact .refl _

theorem live_perm (change : Change) (marks : Marks) (now : Instant)
    {before after : List (String × Instant)} (same : before.Perm after) :
    (change.live marks now before).Perm (change.live marks now after) := by
  cases change with
  | mark own key expiresAt =>
      simp only [live]
      split
      · exact (same.filter _).append_left _
      · exact same
  | _ => exact same

theorem filter_entry {key away : String} (different : key ≠ away) (expiresAt now : Instant) :
    ([(key, expiresAt)].filter (ExpiringSet.isLive now)).filter (fun entry => entry.1 ≠ away) =
      [(key, expiresAt)].filter (ExpiringSet.isLive now) := by
  rw [List.filter_eq_self]
  intro entry member
  rw [List.mem_singleton.mp (List.mem_filter.mp member).1]
  exact decide_eq_true different

theorem live_swap (apart : one.Apart other) (within : change.Within one)
    (isSecond : second.Within other) (marks : Marks) (now : Instant)
    (before : List (String × Instant)) :
    (second.live marks now (change.live marks now before)).Perm
      (change.live marks now (second.live marks now before)) := by
  cases change with
  | mark own key expiresAt =>
      cases second with
      | mark late lateKey end_ =>
          simp only [live]
          by_cases isOwn : own = marks
          · by_cases isLate : late = marks
            · subst isOwn isLate
              have different : key ≠ lateKey := by
                rintro rfl
                exact apart.keys _ _ within isSecond
              simp only [if_true, List.filter_append, filter_entry different,
                filter_entry different.symm]
              rw [List.filter_comm]
              exact List.perm_append_comm_assoc ..
            · simp [isLate]
          · simp [isOwn]
      | _ => exact .refl _
  | _ => exact .refl _

end Change

namespace World

variable {world : World}

theorem makeAll_clock (world : World) (changes : List Change) :
    (world.makeAll changes).clock = world.clock := by
  induction changes generalizing world with
  | nil => rfl
  | cons change rest ih => exact (ih (world.make change)).trans (make_clock world change)

theorem makeAll_events (world : World) (changes : List Change) :
    (world.makeAll changes).events.events =
      changes.foldl (fun list change => change.events list) world.events.events := by
  induction changes generalizing world with
  | nil => rfl
  | cons change rest ih =>
      have later := ih (world.make change)
      rw [make_events] at later
      exact later

theorem makeAll_live (world : World) (changes : List Change) (marks : Marks) :
    (((world.makeAll changes).marks marks).purge world.clock).entries =
      changes.foldl (fun list change => change.live marks world.clock list)
        ((world.marks marks).purge world.clock).entries := by
  induction changes generalizing world with
  | nil => rfl
  | cons change rest ih =>
      have later := ih (world.make change)
      rw [make_clock, make_live] at later
      exact later

theorem makeAll_jobs (world : World) (changes : List Change) :
    (world.makeAll changes).jobs.jobs.map Job.unnumbered =
      world.jobs.jobs.map Job.unnumbered ++ changes.flatMap Change.jobs := by
  induction changes generalizing world with
  | nil => simp [makeAll]
  | cons change rest ih =>
      have later := ih (world.make change)
      rw [make_jobs, List.append_assoc] at later
      exact later

theorem makeAll_records (regular : world.Regular) (changes : List Change) :
    (world.makeAll changes).audit.records.map AuditRecord.unnumbered =
      world.audit.records.map AuditRecord.unnumbered ++ changes.flatMap Change.records := by
  induction changes generalizing world with
  | nil => simp [makeAll]
  | cons change rest ih =>
      have later := ih (regular.make change)
      rw [make_records regular.works, List.append_assoc] at later
      exact later

/-- Nothing differs but the events, the marks, the jobs, the audit trail and the ids that were
drawn. -/
def Elsewhere (world other : World) : Prop :=
  other = { world with
    events := other.events, fingerprints := other.fingerprints, nonces := other.nonces,
    jobs := other.jobs, audit := other.audit, ids := other.ids }

theorem Elsewhere.symm {other : World} (elsewhere : world.Elsewhere other) :
    other.Elsewhere world := by
  unfold Elsewhere at *
  rw [elsewhere]

theorem Elsewhere.trans {other third : World} (before : world.Elsewhere other)
    (after : other.Elsewhere third) : world.Elsewhere third := by
  unfold Elsewhere at *
  rw [before] at after
  exact after

theorem makeAll_elsewhere (world : World) (changes : List Change) :
    world.Elsewhere (world.makeAll changes) := by
  have same : world.Elsewhere world := rfl
  apply makeAll_preserves world.Elsewhere _ (fun _ _ => trivial) same
  intro middle change _ elsewhere
  apply elsewhere.trans
  cases change with
  | purge marks | mark marks => cases marks <;> rfl
  | _ => rfl

/-- What is left is the same but for the order of the entries and the ids that were drawn: the
events, the jobs, the live marks and the audit records. -/
structure SameUpToIds (one other : World) : Prop where
  events : one.events.events.Perm other.events.events
  jobs : (one.jobs.jobs.map Job.unnumbered).Perm (other.jobs.jobs.map Job.unnumbered)
  live : ∀ marks, ((one.marks marks).purge one.clock).entries.Perm
    ((other.marks marks).purge other.clock).entries
  records : (one.audit.records.map AuditRecord.unnumbered).Perm
    (other.audit.records.map AuditRecord.unnumbered)
  elsewhere : one.Elsewhere other

theorem makeAll_swap (regular : world.Regular) {one other : Receiver.Request}
    (apart : one.Apart other) {first second : List Change}
    (isFirst : ∀ change ∈ first, change.Within one)
    (isSecond : ∀ change ∈ second, change.Within other) :
    ((world.makeAll first).makeAll second).SameUpToIds
      ((world.makeAll second).makeAll first) where
  events := by
    simp only [makeAll_events]
    apply foldl_swap Change.events_perm
    intro change member late lateMember
    exact Change.events_swap apart (isFirst change member) (isSecond late lateMember)
  jobs := by
    simp only [makeAll_jobs, List.append_assoc]
    exact List.perm_append_comm.append_left _
  live marks := by
    simp only [makeAll_clock]
    have clock (changes : List Change) := makeAll_clock world changes
    have late := makeAll_live (world.makeAll first) second marks
    have early := makeAll_live (world.makeAll second) first marks
    rw [clock, makeAll_live] at late early
    rw [late, early]
    apply foldl_swap fun change => change.live_perm marks world.clock
    intro change member late lateMember
    exact Change.live_swap apart (isFirst change member) (isSecond late lateMember) marks _
  records := by
    simp only [makeAll_records regular, makeAll_records (regular.makeAll _), List.append_assoc]
    exact List.perm_append_comm.append_left _
  elsewhere := by
    have inOrder := (makeAll_elsewhere world first).trans (makeAll_elsewhere _ second)
    have otherOrder := (makeAll_elsewhere world second).trans (makeAll_elsewhere _ first)
    exact inOrder.symm.trans otherOrder

end World

end WebhookRelay
