import WebhookRelay.Proofs.Effects
import WebhookRelay.Proofs.Ticks
import WebhookRelay.Proofs.Unhindered

/-!
# Alerts of one kind keep their distance

Notices come one after the other, at times in any order, and any call of the alert store may be
refused.  A notice raises an alert exactly where it reports enough attempts, nothing of its kind
was raised after the start of its window and both calls go through.  So an alert comes at least
a window after every other of its kind that was stored before it, also where the times of the
notices step back.
-/

set_option autoImplicit false

namespace WebhookRelay

open World (auditError?)

/-! ## One notice -/

def FailureNotice.alert (notice : FailureNotice) (id : Uuid) (now : Timestamp) : Alert := {
  id := id.render
  eventId := notice.eventId
  reason := notice.reason
  details := notice.details
  attemptCount := notice.attemptCount
  createdAt := now }

theorem Alert.existsSince_eq_false {alerts : List Alert} {eventId reason : String}
    {since : Timestamp} : existsSince alerts eventId reason since = false ↔
      ∀ alert ∈ alerts, alert.eventId = eventId → alert.reason = reason →
        since.before alert.createdAt = false := by
  simp only [existsSince, List.any_eq_false, Bool.and_eq_true, decide_eq_true_eq, not_and,
    Bool.not_eq_true, and_imp]

namespace World

variable {world after : World}

theorem takeRefusal_alerts (world : World) (site : Site) :
    (world.takeRefusal site).2.alerts = world.alerts := by
  unfold takeRefusal
  split <;> rfl

theorem perform_recentAlert (world : World) (eventId reason : String) (since : Timestamp) :
    ∃ answer, world.perform (.recentAlert eventId reason since) =
        some (answer, (world.takeRefusal .recentAlert).2) ∧
      if world.Admits auditError? .recentAlert then
        answer = .ok (Alert.existsSince world.alerts eventId reason since)
      else ∃ error, answer = .error error := by
  split
  · rename_i admits
    refine ⟨_, unlessRefused_of_admits admits _, ?_⟩
    dsimp only
    rw [takeRefusal_alerts]
  · rename_i refused
    obtain ⟨error, performed⟩ := unlessRefused_of_not_admits refused (reading fun w : World =>
      Alert.existsSince w.alerts eventId reason since)
    exact ⟨_, performed, error, rfl⟩

theorem perform_createAlert (world : World) (alert : Alert) :
    ∃ answer after, world.perform (.createAlert alert) = some (answer, after) ∧
      if world.Admits auditError? .createAlert then
        answer = .ok () ∧ after.alerts = world.alerts ++ [alert]
      else (∃ error, answer = .error error) ∧ after.alerts = world.alerts := by
  have kept := world.takeRefusal_alerts .createAlert
  split
  · rename_i admits
    refine ⟨_, _, unlessRefused_of_admits admits fun w : World =>
      some (.ok (), { w with alerts := w.alerts ++ [alert] }), rfl, ?_⟩
    exact congrArg (· ++ [alert]) kept
  · rename_i refused
    obtain ⟨error, performed⟩ := unlessRefused_of_not_admits refused fun w : World =>
      some (.ok (), { w with alerts := w.alerts ++ [alert] })
    exact ⟨_, _, performed, ⟨error, rfl⟩, kept⟩

end World

namespace AlertPolicy

variable {policy : AlertPolicy} {now : Timestamp} {notice : FailureNotice} {world after : World}

theorem notify_course (policy : AlertPolicy) (now : Timestamp) (notice : FailureNotice) :
    policy.notify now notice =
      if notice.attemptCount < policy.minAttempts then .done .belowThreshold
      else .call (.recentAlert notice.eventId notice.reason (policy.windowStart now)) fun
        | .error _ => .done .dropped
        | .ok true => .done .deduplicated
        | .ok false => .call (.newId .alert) fun id =>
            .call (.createAlert (notice.alert id now)) fun
              | .ok () => .done .raised
              | .error _ => .done .dropped := by
  unfold notify
  split
  · rfl
  · refine congrArg (Program.call _) (funext fun answer => ?_)
    match answer with
    | .error error => rfl
    | .ok true => rfl
    | .ok false =>
        refine congrArg (Program.call _) (funext fun id => ?_)
        refine congrArg (Program.call _) (funext fun answer => ?_)
        cases answer <;> rfl

structure Raises (policy : AlertPolicy) (now : Timestamp) (notice : FailureNotice)
    (world : World) : Prop where
  enough : policy.minAttempts ≤ notice.attemptCount
  looking : world.Admits auditError? .recentAlert
  none : Alert.existsSince world.alerts notice.eventId notice.reason (policy.windowStart now) =
    false
  raising : world.Admits auditError? .createAlert

/-- Once nothing recent was found, it is up to the store. -/
theorem raise_settles (now : Timestamp) (notice : FailureNotice) (world : World) :
    ∃ outcome after, (Program.call (.newId .alert) fun id =>
        .call (.createAlert (notice.alert id now)) fun
          | .ok () => .done AlertOutcome.raised
          | .error _ => .done .dropped).run world = some (outcome, after) ∧
      ((world.Admits auditError? .createAlert ∧ outcome = .raised ∧
        ∃ id, after.alerts = world.alerts ++ [notice.alert id now]) ∨
      (¬world.Admits auditError? .createAlert ∧ outcome ≠ .raised ∧
        after.alerts = world.alerts)) := by
  obtain ⟨id, drawn, draws, alerts, refusals⟩ : ∃ id drawn,
      world.perform (.newId .alert) = some (id, drawn) ∧ drawn.alerts = world.alerts ∧
        drawn.refusals = world.refusals := ⟨_, _, rfl, rfl, rfl⟩
  have same : drawn.Admits auditError? .createAlert ↔
      world.Admits auditError? .createAlert :=
    World.Admits.congr (congrFun refusals _)
  obtain ⟨answer, after, performed, settled⟩ := drawn.perform_createAlert (notice.alert id now)
  rw [alerts] at settled
  rw [Program.run_call draws, Program.run_call performed, ← same]
  split at settled
  · rename_i raising
    obtain ⟨rfl, stored⟩ := settled
    exact ⟨.raised, after, rfl, Or.inl ⟨raising, rfl, id, stored⟩⟩
  · rename_i refused
    obtain ⟨⟨error, rfl⟩, kept⟩ := settled
    exact ⟨.dropped, after, rfl, Or.inr ⟨refused, nofun, kept⟩⟩

/-- A notice that raises an alert stores it after the others, and any other changes none. -/
theorem notify_settles (policy : AlertPolicy) (now : Timestamp) (notice : FailureNotice)
    (world : World) : ∃ outcome after, (policy.notify now notice).run world =
      some (outcome, after) ∧
      ((policy.Raises now notice world ∧ outcome = .raised ∧
        ∃ id, after.alerts = world.alerts ++ [notice.alert id now]) ∨
      (¬policy.Raises now notice world ∧ outcome ≠ .raised ∧ after.alerts = world.alerts)) := by
  rw [notify_course]
  by_cases below : notice.attemptCount < policy.minAttempts
  · rw [if_pos below]
    refine ⟨.belowThreshold, world, rfl, Or.inr ⟨?_, nofun, rfl⟩⟩
    intro raises
    exact absurd raises.enough (UInt32.not_le.mpr below)
  rw [if_neg below]
  have enough := UInt32.not_lt.mp below
  have looked := world.takeRefusal_alerts .recentAlert
  obtain ⟨answer, performed, answered⟩ := world.perform_recentAlert notice.eventId notice.reason
    (policy.windowStart now)
  rw [Program.run_call performed]
  split at answered
  case isFalse refused =>
    obtain ⟨error, rfl⟩ := answered
    refine ⟨.dropped, _, rfl, Or.inr ⟨?_, nofun, looked⟩⟩
    exact fun raises => refused raises.looking
  rename_i looking
  subst answered
  cases recent : Alert.existsSince world.alerts notice.eventId notice.reason
    (policy.windowStart now) with
  | true =>
      refine ⟨.deduplicated, _, rfl, Or.inr ⟨?_, nofun, looked⟩⟩
      intro raises
      exact absurd raises.none (by simp [recent])
  | false =>
      obtain ⟨outcome, after, run, settled⟩ :=
        raise_settles now notice (world.takeRefusal .recentAlert).2
      have same : (world.takeRefusal .recentAlert).2.Admits auditError? .createAlert ↔
          world.Admits auditError? .createAlert :=
        World.Admits.taken nofun
      rw [same, looked] at settled
      refine ⟨outcome, after, run, ?_⟩
      rcases settled with ⟨raising, raised⟩ | ⟨refused, unchanged⟩
      · exact Or.inl ⟨⟨enough, looking, recent, raising⟩, raised⟩
      · exact Or.inr ⟨fun raises => refused raises.raising, unchanged⟩

/-! ## Notices one after the other -/

def notifyAll (policy : AlertPolicy) (notices : List (Timestamp × FailureNotice)) :
    List (Program AlertOutcome) :=
  notices.map fun entry => policy.notify entry.1 entry.2

/-- An alert was stored at least a window after every alert of its kind before it. -/
def Spaced (policy : AlertPolicy) (alerts : List Alert) : Prop :=
  alerts.Pairwise fun earlier later : Alert => earlier.eventId = later.eventId →
    earlier.reason = later.reason →
    earlier.createdAt.ticks + policy.dedupeWindow.nanos ≤ later.createdAt.ticks

/-- Alerts that were stored outside leap seconds, after the first of all times, at their
distances. -/
structure Orderly (policy : AlertPolicy) (alerts : List Alert) : Prop where
  times : ∀ alert ∈ alerts, alert.createdAt.Plain ∧
    Timestamp.earliest.ticks < alert.createdAt.ticks
  spaced : policy.Spaced alerts

theorem orderly_nil (policy : AlertPolicy) : policy.Orderly [] :=
  ⟨nofun, .nil⟩

/-- Nothing recent of a kind means nothing after the start of the window, be that cut off at
the first of all times or not. -/
theorem Orderly.existsSince_eq_false {alerts : List Alert} (orderly : policy.Orderly alerts)
    (plain : now.Plain) (eventId reason : String) :
    Alert.existsSince alerts eventId reason (policy.windowStart now) = false ↔
      ∀ alert ∈ alerts, alert.eventId = eventId → alert.reason = reason →
        ¬max (now.ticks - policy.dedupeWindow.nanos) Timestamp.earliest.ticks <
          alert.createdAt.ticks := by
  obtain ⟨startPlain, startTicks⟩ := plain.minusSaturating policy.dedupeWindow
  rw [Alert.existsSince_eq_false]
  refine forall₂_congr fun alert member => ?_
  rw [← Bool.not_eq_true, windowStart,
    startPlain.before_iff_ticks (orderly.times alert member).1, startTicks]

theorem Orderly.raises_iff (orderly : policy.Orderly world.alerts) (plain : now.Plain) :
    policy.Raises now notice world ↔ policy.minAttempts ≤ notice.attemptCount ∧
      (∀ alert ∈ world.alerts, alert.eventId = notice.eventId →
        alert.reason = notice.reason →
        ¬max (now.ticks - policy.dedupeWindow.nanos) Timestamp.earliest.ticks <
          alert.createdAt.ticks) ∧
      world.Admits auditError? .recentAlert ∧ world.Admits auditError? .createAlert := by
  rw [← orderly.existsSince_eq_false plain]
  constructor
  · intro raises
    exact ⟨raises.enough, raises.none, raises.looking, raises.raising⟩
  · rintro ⟨enough, none, looking, raising⟩
    exact ⟨enough, looking, none, raising⟩

theorem Orderly.raised (orderly : policy.Orderly world.alerts) (plain : now.Plain)
    (later : Timestamp.earliest.ticks < now.ticks) (raises : policy.Raises now notice world)
    (id : Uuid) : policy.Orderly (world.alerts ++ [notice.alert id now]) := by
  have none := (orderly.existsSince_eq_false plain notice.eventId notice.reason).mp raises.none
  refine ⟨?_, List.pairwise_append.mpr ⟨orderly.spaced, List.pairwise_singleton _ _, ?_⟩⟩
  · intro alert member
    rcases List.mem_append.mp member with earlier | new
    · exact orderly.times alert earlier
    · obtain rfl := List.mem_singleton.mp new
      exact ⟨plain, later⟩
  · intro alert earlier added new sameEvent sameReason
    obtain rfl := List.mem_singleton.mp new
    have before := none alert earlier sameEvent sameReason
    have since := (orderly.times alert earlier).2
    change alert.createdAt.ticks + policy.dedupeWindow.nanos ≤ now.ticks
    omega

theorem Orderly.notify (orderly : policy.Orderly world.alerts) (plain : now.Plain)
    (later : Timestamp.earliest.ticks < now.ticks) {outcome : AlertOutcome}
    (run : (policy.notify now notice).run world = some (outcome, after)) :
    policy.Orderly after.alerts := by
  obtain ⟨ended, reached, same, settled⟩ := policy.notify_settles now notice world
  rw [run] at same
  cases same
  rcases settled with ⟨raises, _, id, stored⟩ | ⟨_, _, unchanged⟩
  · rw [stored]
    exact orderly.raised plain later raises id
  · rw [unchanged]
    exact orderly

/-- Notices never get stuck, and they leave the alerts at their distances. -/
theorem Orderly.notifyAll {notices : List (Timestamp × FailureNotice)}
    (orderly : policy.Orderly world.alerts)
    (times : ∀ entry ∈ notices, entry.1.Plain ∧ Timestamp.earliest.ticks < entry.1.ticks) :
    ∃ outcomes reached, Program.runAll (policy.notifyAll notices) world =
      some (outcomes, reached) ∧ policy.Orderly reached.alerts := by
  induction notices generalizing world with
  | nil => exact ⟨[], world, rfl, orderly⟩
  | cons entry rest ih =>
      obtain ⟨plain, later⟩ := times entry List.mem_cons_self
      obtain ⟨outcome, after, run, _⟩ := policy.notify_settles entry.1 entry.2 world
      obtain ⟨outcomes, reached, goesOn, kept⟩ := ih (orderly.notify plain later run)
        fun other member => times other (List.mem_cons_of_mem _ member)
      refine ⟨outcome :: outcomes, reached, ?_, kept⟩
      change ((policy.notify entry.1 entry.2).run world).bind _ = _
      rw [run, Option.bind_some]
      change (Program.runAll (policy.notifyAll rest) after).bind _ = _
      rw [goesOn]
      rfl

end AlertPolicy

/-- Notices that come one after the other to a store without alerts, at times in any order,
each outside leap seconds and after the first of all times; the calls of the store may be
refused.  Any two alerts of one kind are at least the window apart.  One more notice stores an
alert exactly where it reports enough attempts, nothing of its kind was stored after the start
of its window, which is at the earliest the first of all times, and neither call is refused; any
other outcome leaves the store as it was. -/
theorem alerts_of_a_kind_keep_their_distance (policy : AlertPolicy) {world : World}
    (empty : world.alerts = []) {notices : List (Timestamp × FailureNotice)}
    (times : ∀ entry ∈ notices, entry.1.Plain ∧ Timestamp.earliest.ticks < entry.1.ticks) :
    ∃ outcomes reached, Program.runAll (policy.notifyAll notices) world =
        some (outcomes, reached) ∧ policy.Spaced reached.alerts ∧
      ∀ now notice, now.Plain → Timestamp.earliest.ticks < now.ticks →
        ∃ outcome after, (policy.notify now notice).run reached = some (outcome, after) ∧
          (outcome = .raised ↔ policy.minAttempts ≤ notice.attemptCount ∧
            (∀ alert ∈ reached.alerts, alert.eventId = notice.eventId →
              alert.reason = notice.reason →
              ¬max (now.ticks - policy.dedupeWindow.nanos) Timestamp.earliest.ticks <
                alert.createdAt.ticks) ∧
            reached.Admits auditError? .recentAlert ∧ reached.Admits auditError? .createAlert) ∧
          (outcome = .raised → ∃ id, after.alerts = reached.alerts ++ [notice.alert id now]) ∧
          (outcome ≠ .raised → after.alerts = reached.alerts) := by
  have start : policy.Orderly world.alerts := by
    rw [empty]
    exact policy.orderly_nil
  obtain ⟨outcomes, reached, run, orderly⟩ := start.notifyAll times
  refine ⟨outcomes, reached, run, orderly.spaced, fun now notice plain _ => ?_⟩
  obtain ⟨outcome, after, notified, settled⟩ := policy.notify_settles now notice reached
  refine ⟨outcome, after, notified, ?_⟩
  rw [← orderly.raises_iff plain]
  rcases settled with ⟨does, rfl, stored⟩ | ⟨doesNot, other, unchanged⟩
  · exact ⟨by simp [does], fun _ => stored, fun other => absurd rfl other⟩
  · exact ⟨by simp [doesNot, other], fun raised => absurd raised other, fun _ => unchanged⟩

namespace Sample

def failureNotice (eventId : String) : FailureNotice :=
  { eventId, reason := Processor.deliveryFailed, details := "down", attemptCount := 2 }

def failureNotices : List (Timestamp × FailureNotice) :=
  [(.ofSeconds 10000, failureNotice "a"), (.ofSeconds 9000, failureNotice "a"),
    (.ofSeconds 9000, failureNotice "b"), (.ofSeconds 13599, failureNotice "a")]

def refusingWorld : World :=
  World.refuse {} .createAlert [none, some (.audit (.store "down"))]

theorem alert_after_an_hour :
    refusingWorld.alerts = [] ∧
    (∀ entry ∈ failureNotices, entry.1.Plain ∧
      Timestamp.earliest.ticks < entry.1.ticks) ∧
    ∃ reached after id, Program.runAll (AlertPolicy.notifyAll {} failureNotices) refusingWorld =
        some ([.raised, .deduplicated, .dropped, .deduplicated], reached) ∧
      (AlertPolicy.notify {} (.ofSeconds 13600) (failureNotice "a")).run reached =
        some (.raised, after) ∧
      after.alerts = reached.alerts ++ [(failureNotice "a").alert id (.ofSeconds 13600)] := by
  have times : ∀ entry ∈ failureNotices, entry.1.Plain ∧
      Timestamp.earliest.ticks < entry.1.ticks := by
    decide +kernel
  obtain ⟨⟨outcomes, reached⟩, ran, rfl, older, looking, raising⟩ :
      ∃ one ∈ Program.runAll (AlertPolicy.notifyAll {} failureNotices) refusingWorld,
        one.1 = [.raised, .deduplicated, .dropped, .deduplicated] ∧
        (∀ alert ∈ one.2.alerts, ¬max ((Timestamp.ofSeconds 13600).ticks -
          (AlertPolicy.dedupeWindow {}).nanos) Timestamp.earliest.ticks <
            alert.createdAt.ticks) ∧
        one.2.Admits auditError? .recentAlert ∧ one.2.Admits auditError? .createAlert := by
    decide +kernel
  have empty : refusingWorld.alerts = [] := rfl
  obtain ⟨_, _, run, _, next⟩ := alerts_of_a_kind_keep_their_distance {} empty times
  cases ran.symm.trans run
  obtain ⟨outcome, after, notified, raises, stores, _⟩ := next (.ofSeconds 13600)
    (failureNotice "a") (by decide) (by decide)
  obtain rfl := raises.mpr ⟨by decide, fun alert member _ _ => older alert member, looking,
    raising⟩
  obtain ⟨id, stored⟩ := stores rfl
  exact ⟨empty, times, reached, after, id, ran, notified, stored⟩

end Sample

end WebhookRelay
