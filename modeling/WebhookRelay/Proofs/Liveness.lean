import WebhookRelay.Proofs.Memory

/-!
# Which keys are live

What purging, marking and unmarking do to the live keys, now and at every later instant.  A key
is marked as new exactly where it is not live, its mark ends within the range of the clock and
no call on the way is refused; then it is the only key that becomes live.  Where it is not
marked as new, nothing becomes live and nothing ceases to be.
-/

set_option autoImplicit false

namespace WebhookRelay

/-! ## Sets -/

namespace ExpiringSet

variable {set : ExpiringSet} {key other : String} {now time expiresAt : Instant}

theorem expiry?_eq_none : set.expiry? key = none ↔ ¬set.Has key := by
  simp only [expiry?, Option.map_eq_none_iff, List.find?_eq_none, Has, decide_eq_true_eq,
    not_exists, not_and]

theorem Unique.contains_purge (unique : set.Unique) (since : now ≤ time) (key : String) :
    (set.purge now).contains time key = set.contains time key := by
  rw [Bool.eq_iff_iff, (unique.purge now).contains_iff, unique.contains_iff, has_purge, has_purge]
  constructor
  · rintro ⟨expiresAt, member, live⟩
    exact ⟨expiresAt, mem_purge member, live⟩
  · rintro ⟨expiresAt, member, live⟩
    refine ⟨expiresAt, List.mem_filter.mpr ⟨member, ?_⟩, live⟩
    exact decide_eq_true (Nat.lt_of_le_of_lt since live)

theorem Unique.contains_later (unique : set.Unique) (since : now ≤ time)
    (absent : set.contains now key = false) : set.contains time key = false := by
  rw [← Bool.not_eq_true, unique.contains_iff, has_purge] at absent ⊢
  rintro ⟨ends, member, live⟩
  exact absent ⟨ends, member, Nat.lt_of_le_of_lt since live⟩

theorem contains_put_self (set : ExpiringSet) (key : String) (expiresAt : Instant) :
    (set.put key expiresAt).contains time key = decide (time < expiresAt) := by
  rw [contains, expiry?_put_self]

theorem contains_put_other (set : ExpiringSet) (expiresAt : Instant) (distinct : other ≠ key) :
    (set.put key expiresAt).contains time other = set.contains time other := by
  rw [contains, expiry?_put_other _ _ distinct, contains]

theorem Unique.contains_put (unique : set.Unique) (since : now ≤ time)
    (absent : set.contains now key = false) (expiresAt : Instant) (other : String) :
    ((set.purge now).put key expiresAt).contains time other =
      (set.contains time other || (other = key && time < expiresAt)) := by
  by_cases same : other = key
  · subst same
    rw [contains_put_self, unique.contains_later since absent]
    simp
  · rw [contains_put_other _ _ same, unique.contains_purge since]
    simp [same]

theorem not_has_erase (set : ExpiringSet) (key : String) : ¬(set.erase key).Has key := by
  rintro ⟨entry, member, same⟩
  have different := (List.mem_filter.mp member).2
  simp [same] at different

theorem contains_erase_self (set : ExpiringSet) (key : String) :
    (set.erase key).contains time key = false := by
  rw [contains, expiry?_eq_none.mpr (not_has_erase set key)]

theorem contains_erase_other (set : ExpiringSet) (distinct : other ≠ key) :
    (set.erase key).contains time other = set.contains time other := by
  have unlike : ¬key = other := fun same => distinct same.symm
  have same := expiry?_put_other set 0 distinct
  simp only [expiry?, put, List.find?_cons, unlike, decide_false] at same
  simp only [contains, expiry?, erase, same]

end ExpiringSet

/-! ## Marking as new -/

def World.AdmitsMarking (world : World) (marks : Marks) : MarkMode → Prop
  | .atomic => world.Admits World.storeError? (.tryMark marks)
  | .stepwise => world.Admits World.storeError? (.seen marks) ∧
      world.Admits World.storeError? (.mark marks)

/-- A key that is marked now is marked as new. -/
structure World.MarksNew (world : World) (marks : Marks) (mode : MarkMode) (key : String)
    (ttl : Duration) : Prop where
  absent : (world.marks marks).contains world.clock key = false
  inRange : world.CanMark ttl
  admits : world.AdmitsMarking marks mode

/-- No time passes, and the same keys are live at every instant from now on. -/
structure World.LiveAlike (marks : Marks) (before after : World) : Prop where
  clock : after.clock = before.clock
  live : ∀ time, before.clock ≤ time → ∀ key,
    (after.marks marks).contains time key = (before.marks marks).contains time key

/-- No time passes, and from now on one more key is live for a while. -/
structure World.OneMoreLive (marks : Marks) (key : String) (ttl : Duration)
    (before after : World) : Prop where
  clock : after.clock = before.clock
  live : ∀ time, before.clock ≤ time → ∀ other,
    (after.marks marks).contains time other = ((before.marks marks).contains time other ||
      (other = key && time < before.clock + ttl.nanos))

namespace World

variable {world after : World} {marks : Marks} {mode : MarkMode} {key : String}
  {ttl : Duration}

theorem Unmarked.liveAlike (unmarked : world.Unmarked marks after) :
    LiveAlike marks world after :=
  ⟨unmarked.clock, fun _ _ _ => by rw [unmarked.same]⟩

theorem MarksNew.congr (unmarked : world.Unmarked marks after)
    (plans : after.refusals = world.refusals) :
    after.MarksNew marks mode key ttl ↔ world.MarksNew marks mode key ttl := by
  have admits : after.AdmitsMarking marks mode ↔ world.AdmitsMarking marks mode := by
    cases mode with
    | atomic => exact Admits.congr (congrFun plans _)
    | stepwise =>
        exact and_congr (Admits.congr (congrFun plans _)) (Admits.congr (congrFun plans _))
  constructor
  · rintro ⟨absent, inRange, admitted⟩
    rw [unmarked.same, unmarked.clock] at absent
    rw [CanMark, unmarked.clock] at inRange
    exact ⟨absent, inRange, admits.mp admitted⟩
  · rintro ⟨absent, inRange, admitted⟩
    refine ⟨?_, ?_, admits.mpr admitted⟩
    · rw [unmarked.same, unmarked.clock]
      exact absent
    · rw [CanMark, unmarked.clock]
      exact inRange

theorem LiveAlike.trans {first second third : World} (before : LiveAlike marks first second)
    (after : LiveAlike marks second third) : LiveAlike marks first third where
  clock := after.clock.trans before.clock
  live time since key := by
    rw [after.live time (before.clock ▸ since), before.live time since]

theorem Unmarked.oneMoreLive (unmarked : world.Unmarked marks after) {last : World}
    (oneMore : OneMoreLive marks key ttl after last) : OneMoreLive marks key ttl world last where
  clock := oneMore.clock.trans unmarked.clock
  live time since other := by
    rw [oneMore.live time (unmarked.clock ▸ since), unmarked.same, unmarked.clock]

theorem oneMoreLive_of_insert? (clock : after.clock = world.clock)
    (unique : (world.marks marks).Unique)
    (absent : (world.marks marks).contains world.clock key = false)
    (inserted : (world.marks marks).insert? world.clock key ttl = some (after.marks marks)) :
    OneMoreLive marks key ttl world after := by
  refine ⟨clock, fun time since other => ?_⟩
  rw [(ExpiringSet.insert?_eq_some inserted).2]
  exact unique.contains_put since absent _ other

/-- A call that marks a key atomically marks it as new, or the live keys stay the same. -/
theorem tryMark_settles (unique : (world.marks marks).Unique)
    {answer : Except StoreError Bool}
    (performed : world.perform (.tryMark marks key ttl) = some (answer, after)) :
    (world.MarksNew marks .atomic key ttl ∧ answer = .ok true ∧
        OneMoreLive marks key ttl world after) ∨
      (¬world.MarksNew marks .atomic key ttl ∧ answer ≠ .ok true ∧
        LiveAlike marks world after) := by
  have clock := perform_clock performed
  cases answer with
  | error error =>
      refine Or.inr ⟨?_, by simp, (perform_tryMark_error performed).liveAlike⟩
      intro new
      have effect := unlessRefused_of_admits new.admits (tryMarkKey marks key ttl)
      rw [perform, effect] at performed
      obtain ⟨_, _, impossible⟩ := Option.map_eq_some_iff.mp performed
      cases impossible
  | ok fresh =>
      have admits := admits_of_answered performed
      have inserted := perform_tryMark_inserts performed
      cases fresh with
      | true =>
          obtain ⟨_, put⟩ := ExpiringSet.insertIfAbsent?_fresh inserted
          have absent : (world.marks marks).contains world.clock key = false := by
            rw [← Bool.not_eq_true, unique.contains_iff]
            intro live
            rw [ExpiringSet.insertIfAbsent?_live live] at inserted
            cases inserted
          have inRange : world.CanMark ttl := by
            rw [CanMark, (ExpiringSet.insert?_eq_some put).1]
            rfl
          exact Or.inl ⟨⟨absent, inRange, admits⟩, rfl,
            oneMoreLive_of_insert? clock unique absent put⟩
      | false =>
          obtain ⟨purged, live⟩ := ExpiringSet.insertIfAbsent?_known inserted
          refine Or.inr ⟨?_, by simp, clock, fun time since other => ?_⟩
          · intro new
            have absent := new.absent
            rw [unique.contains_iff.mpr live] at absent
            cases absent
          · rw [purged, unique.contains_purge since]

theorem tryMark_new (unique : (world.marks marks).Unique)
    (new : world.MarksNew marks .atomic key ttl) :
    ∃ after, world.perform (.tryMark marks key ttl) = some (.ok true, after) := by
  obtain ⟨expiresAt, dated⟩ := Option.isSome_iff_exists.mp new.inRange
  have taken := world.takeRefusal_unmarked (.tryMark marks) marks
  have absent : ¬((world.marks marks).purge world.clock).Has key := by
    rw [← unique.contains_iff, Bool.not_eq_true]
    exact new.absent
  rw [perform, unlessRefused_of_admits new.admits, tryMarkKey, taken.same, taken.clock,
    ExpiringSet.insertIfAbsent?_absent absent, dated]
  exact ⟨_, rfl⟩

theorem mark_admitted (admits : world.Admits storeError? (.mark marks))
    (inRange : world.CanMark ttl) (key : String) :
    ∃ after, world.perform (.mark marks key ttl) = some (.ok (), after) := by
  obtain ⟨expiresAt, dated⟩ := Option.isSome_iff_exists.mp inRange
  rw [perform, unlessRefused_of_admits admits, markKey, ExpiringSet.insert?,
    takeRefusal_clock, dated]
  exact ⟨_, rfl⟩

theorem seen_admitted (admits : world.Admits storeError? (.seen marks)) (key : String) :
    world.perform (.seen marks key) = some (.ok ((world.marks marks).contains world.clock key),
      (world.takeRefusal (.seen marks)).2) := by
  have taken := world.takeRefusal_unmarked (.seen marks) marks
  rw [perform, unlessRefused_of_admits admits, reading, taken.same, taken.clock]

end World

theorem markIfAbsent_settles {world after : World} {marks : Marks} {mode : MarkMode}
    {key : String} {ttl : Duration} (unique : (world.marks marks).Unique)
    {answer : Except StoreError Bool}
    (run : (markIfAbsent marks mode key ttl).outcome.run world = some (answer, after)) :
    (world.MarksNew marks mode key ttl ∧ answer = .ok true ∧
        World.OneMoreLive marks key ttl world after) ∨
      (¬world.MarksNew marks mode key ttl ∧ answer ≠ .ok true ∧
        World.LiveAlike marks world after) := by
  rw [markIfAbsent_outcome] at run
  cases mode with
  | atomic =>
      obtain ⟨ended, middle, performed, goesOn⟩ := Program.run_call_eq_some.mp run
      cases goesOn
      exact World.tryMark_settles unique performed
  | stepwise =>
      obtain ⟨found, looked, performed, goesOn⟩ := Program.run_call_eq_some.mp run
      have still : world.Unmarked marks looked := World.perform_unmarked rfl performed
      match found with
      | .error error =>
          cases goesOn
          refine Or.inr ⟨?_, nofun, still.liveAlike⟩
          intro new
          rw [World.seen_admitted new.admits.1] at performed
          cases performed
      | .ok true =>
          cases goesOn
          refine Or.inr ⟨?_, nofun, still.liveAlike⟩
          intro new
          have live := World.perform_seen performed
          rw [new.absent] at live
          cases live
      | .ok false =>
          have absent := (World.perform_seen performed).symm
          have looks := World.admits_of_answered performed
          have admits : looked.Admits World.storeError? (.mark marks) ↔
              world.Admits World.storeError? (.mark marks) :=
            World.Admits.congr (World.perform_refusals_other performed nofun)
          obtain ⟨marked, last, marking, ends⟩ := Program.run_call_eq_some.mp goesOn
          cases marked with
          | error error =>
              cases ends
              have same := still.liveAlike.trans (World.perform_mark_error marking).liveAlike
              refine Or.inr ⟨?_, nofun, same⟩
              intro new
              have inRange : looked.CanMark ttl := by
                rw [World.CanMark, still.clock]
                exact new.inRange
              obtain ⟨_, marks⟩ := World.mark_admitted (admits.mpr new.admits.2) inRange key
              rw [marks] at marking
              cases marking
          | ok done =>
              cases ends
              have inserted := World.perform_mark marking
              rw [still.same, still.clock] at inserted
              have inRange : world.CanMark ttl := by
                rw [World.CanMark, (ExpiringSet.insert?_eq_some inserted).1]
                rfl
              have clock := (World.perform_clock marking).trans still.clock
              exact Or.inl ⟨⟨absent, inRange, looks, admits.mp (World.admits_of_answered marking)⟩,
                rfl, World.oneMoreLive_of_insert? clock unique absent inserted⟩

theorem markIfAbsent_new {world : World} {marks : Marks} {mode : MarkMode} {key : String}
    {ttl : Duration} (unique : (world.marks marks).Unique)
    (new : world.MarksNew marks mode key ttl) :
    ∃ after, (markIfAbsent marks mode key ttl).outcome.run world = some (.ok true, after) := by
  rw [markIfAbsent_outcome]
  cases mode with
  | atomic =>
      obtain ⟨after, performed⟩ := World.tryMark_new unique new
      exact ⟨after, Program.run_call performed⟩
  | stepwise =>
      have looks := World.seen_admitted new.admits.1 key
      rw [new.absent] at looks
      have taken := world.takeRefusal_unmarked (.seen marks) marks
      have inRange : (world.takeRefusal (.seen marks)).2.CanMark ttl := by
        rw [World.CanMark, taken.clock]
        exact new.inRange
      have admits : (world.takeRefusal (.seen marks)).2.Admits World.storeError? (.mark marks) :=
        (World.Admits.taken (by simp)).mpr new.admits.2
      obtain ⟨after, performed⟩ := World.mark_admitted admits inRange key
      exact ⟨after, (Program.run_call looks).trans (Program.run_call performed)⟩

end WebhookRelay
