import WebhookRelay.Proofs.Asides
import WebhookRelay.Proofs.Scene

/-!
# Marks and the clock

A call never lets time pass, and only three calls change a store of marks.  A key that
is marked as new stays live for its whole time, as long as nobody unmarks it or marks it
again unasked: purging takes what has expired and nothing else.
-/

set_option autoImplicit false

namespace WebhookRelay

/-! ## Expiring sets -/

namespace ExpiringSet

variable {set : ExpiringSet} {key other : String} {now expiresAt : Instant}

theorem expiry?_put_self (set : ExpiringSet) (key : String) (expiresAt : Instant) :
    (set.put key expiresAt).expiry? key = some expiresAt := by
  simp [expiry?, put]

theorem expiry?_put_other (set : ExpiringSet) (expiresAt : Instant) (distinct : other ≠ key) :
    (set.put key expiresAt).expiry? other = set.expiry? other := by
  have unlike : ¬key = other := fun same => distinct same.symm
  have kept : (set.entries.filter fun entry => entry.1 ≠ key).find?
      (fun entry => entry.1 = other) = set.entries.find? fun entry => entry.1 = other := by
    rw [List.find?_filter]
    congr 1
    funext entry
    by_cases same : entry.1 = other
    · simp [same, distinct]
    · simp [same]
  simp only [expiry?, put, List.find?_cons, unlike, decide_false]
  rw [kept]

theorem expiry?_purge (found : set.expiry? key = some expiresAt) (live : now < expiresAt) :
    (set.purge now).expiry? key = some expiresAt := by
  obtain ⟨entries⟩ := set
  simp only [expiry?, purge] at found ⊢
  induction entries with
  | nil => simp at found
  | cons entry rest ih =>
      by_cases same : entry.1 = key
      · have first : entry.2 = expiresAt := by simpa [same] using found
        have isLive : ExpiringSet.isLive now entry = true := by simp [ExpiringSet.isLive, first, live]
        simp [isLive, same, first]
      · have later : (rest.find? fun entry => entry.1 = key).map Prod.snd = some expiresAt := by
          simpa [same] using found
        by_cases isLive : ExpiringSet.isLive now entry = true
        · simpa [isLive, same] using ih later
        · simpa [isLive] using ih later

theorem mem_put {entry : String × Instant}
    (member : entry ∈ (set.put key expiresAt).entries) :
    entry = (key, expiresAt) ∨ entry ∈ set.entries := by
  rcases List.mem_cons.mp member with rfl | kept
  · exact Or.inl rfl
  · exact Or.inr (List.mem_filter.mp kept).1

theorem mem_purge {entry : String × Instant} (member : entry ∈ (set.purge now).entries) :
    entry ∈ set.entries :=
  (List.mem_filter.mp member).1

/-- The set has an entry for the key, live or not. -/
def Has (set : ExpiringSet) (key : String) : Prop :=
  ∃ entry ∈ set.entries, entry.1 = key

theorem has_of_expiry? (found : set.expiry? key = some expiresAt) : set.Has key := by
  obtain ⟨entry, found, _⟩ := Option.map_eq_some_iff.mp found
  have same := List.find?_some found
  exact ⟨entry, List.mem_of_find?_eq_some found, of_decide_eq_true same⟩

theorem has_of_contains (contained : set.contains now key = true) : set.Has key := by
  unfold contains at contained
  split at contained
  · rename_i found
    exact has_of_expiry? found
  · cases contained

theorem live_of_contains (contained : set.contains now key = true) :
    (set.purge now).Has key := by
  unfold contains at contained
  split at contained
  · rename_i expiresAt found
    have live : now < expiresAt := of_decide_eq_true contained
    exact has_of_expiry? (expiry?_purge found live)
  · cases contained

variable {after : ExpiringSet} {ttl : Duration}

theorem mem_insert? (inserted : set.insert? now key ttl = some after)
    {entry : String × Instant} (member : entry ∈ after.entries) :
    entry.1 = key ∨ entry ∈ set.entries := by
  obtain ⟨expiresAt, _, rfl⟩ := Option.map_eq_some_iff.mp inserted
  rcases mem_put member with rfl | old
  · exact Or.inl rfl
  · exact Or.inr (mem_purge old)

theorem insert?_eq_some (inserted : set.insert? now key ttl = some after) :
    now.plus? ttl = some (now + ttl.nanos) ∧
      after = (set.purge now).put key (now + ttl.nanos) := by
  obtain ⟨expiresAt, dated, rfl⟩ := Option.map_eq_some_iff.mp inserted
  have exactly : expiresAt = now + ttl.nanos := by
    unfold Instant.plus? at dated
    split at dated
    · exact (Option.some.inj dated).symm
    · cases dated
  subst exactly
  exact ⟨dated, rfl⟩

theorem insertIfAbsent?_known
    (inserted : set.insertIfAbsent? now key ttl = some (false, after)) :
    after = set.purge now ∧ (set.purge now).Has key := by
  unfold insertIfAbsent? at inserted
  dsimp only at inserted
  split at inserted
  · rename_i found
    cases inserted
    exact ⟨rfl, has_of_expiry? found⟩
  · obtain ⟨_, _, impossible⟩ := Option.map_eq_some_iff.mp inserted
    cases impossible

theorem insertIfAbsent?_fresh
    (inserted : set.insertIfAbsent? now key ttl = some (true, after)) :
    (∀ expiresAt, set.expiry? key = some expiresAt → expiresAt ≤ now) ∧
      set.insert? now key ttl = some after := by
  unfold insertIfAbsent? at inserted
  dsimp only at inserted
  split at inserted
  · cases inserted
  · rename_i absent
    obtain ⟨expiresAt, dated, same⟩ := Option.map_eq_some_iff.mp inserted
    cases same
    refine ⟨fun former found => ?_, ?_⟩
    · rcases Nat.lt_or_ge now former with live | past
      · rw [expiry?_purge found live] at absent
        cases absent
      · exact past
    · rw [insert?, dated]
      rfl

/-- A key that is refused has an entry, and no other key gets one. -/
theorem insertIfAbsent?_cases {fresh : Bool}
    (inserted : set.insertIfAbsent? now key ttl = some (fresh, after)) :
    (fresh = false → set.Has key) ∧
      ∀ entry ∈ after.entries, entry.1 = key ∨ entry ∈ set.entries := by
  cases fresh with
  | false =>
      obtain ⟨rfl, entry, member, same⟩ := insertIfAbsent?_known inserted
      exact ⟨fun _ => ⟨entry, mem_purge member, same⟩, fun _ kept => Or.inr (mem_purge kept)⟩
  | true =>
      obtain ⟨_, put⟩ := insertIfAbsent?_fresh inserted
      exact ⟨nofun, fun _ => mem_insert? put⟩

end ExpiringSet

/-! ## Calls -/

def Call.touches (marks : Marks) : Call → Bool
  | .mark own _ _ => own = marks
  | .tryMark own _ _ => own = marks
  | .unmark own _ => own = marks
  | _ => false

theorem lookUpKey_unmarking (keyId : String) (marks : Marks) :
    (lookUpKey keyId).outcome.Uses fun request => request.touches marks = false := by
  refine lookUpKey_uses (fun _ => ?_) (fun _ => ?_) keyId <;> rfl

namespace World

variable {world after : World}

theorem setMarks_marks (world : World) (set : ExpiringSet) (own : Marks) :
    (world.setMarks set own).marks own = set := by
  cases own <;> rfl

theorem setMarks_other (world : World) (set : ExpiringSet) {own marks : Marks}
    (distinct : own ≠ marks) : (world.setMarks set own).marks marks = world.marks marks := by
  cases own <;> cases marks <;> first | rfl | exact absurd rfl distinct

theorem setMarks_clock (world : World) (set : ExpiringSet) (own : Marks) :
    (world.setMarks set own).clock = world.clock := by
  cases own <;> rfl

structure Unmarked (marks : Marks) (before after : World) : Prop where
  clock : after.clock = before.clock
  same : after.marks marks = before.marks marks

namespace Unmarked

variable {marks : Marks}

theorem refl (world : World) : world.Unmarked marks world := ⟨rfl, rfl⟩

theorem trans {first second third : World} (before : first.Unmarked marks second)
    (after : second.Unmarked marks third) : first.Unmarked marks third :=
  ⟨after.clock.trans before.clock, after.same.trans before.same⟩

end Unmarked

theorem takeRefusal_unmarked (world : World) (site : Site) (marks : Marks) :
    world.Unmarked marks (world.takeRefusal site).2 :=
  have taken := differs_takeRefusal none world site
  ⟨taken.clock, taken.marks marks (by simp)⟩

theorem perform_unmarked {marks : Marks} {call : Call} {answer : call.Answer}
    (elsewhere : call.touches marks = false)
    (performed : world.perform call = some (answer, after)) : world.Unmarked marks after := by
  have differs := perform_differs performed
  refine ⟨differs.clock, differs.marks marks ?_⟩
  cases call with
  | mark own | tryMark own | unmark own =>
      rintro same
      cases same
      simp [Call.touches] at elsewhere
  | _ => simp [Call.part?]

/-! ## Keys that stay marked -/

/-- A key is marked until an instant, which may be over. -/
def Holds (world : World) (marks : Marks) (key : String) (deadline : Instant) : Prop :=
  deadline ≤ world.clock ∨ ∃ expiresAt, (world.marks marks).expiry? key = some expiresAt ∧
    deadline ≤ expiresAt

section Holding

variable {marks : Marks} {key other : String} {ttl : Duration} {deadline : Instant}

theorem Holds.of_unmarked (holds : world.Holds marks key deadline)
    (same : world.Unmarked marks after) : after.Holds marks key deadline := by
  unfold Holds
  rw [same.clock, same.same]
  exact holds

theorem perform_seen {found : Bool}
    (performed : world.perform (.seen marks key) = some (.ok found, after)) :
    found = (world.marks marks).contains world.clock key := by
  have taken := world.takeRefusal_unmarked (.seen marks) marks
  rw [unlessRefused_reading performed, taken.same, taken.clock]

theorem perform_mark
    (performed : world.perform (.mark marks key ttl) = some (.ok (), after)) :
    (world.marks marks).insert? world.clock key ttl = some (after.marks marks) := by
  have taken := world.takeRefusal_unmarked (.mark marks) marks
  obtain ⟨_, impossible, _⟩ | changed := unlessRefused_cases performed
  · cases impossible
  · obtain ⟨set, inserted, same⟩ := Option.map_eq_some_iff.mp changed
    cases same
    rw [taken.same, taken.clock] at inserted
    rw [setMarks_marks]
    exact inserted

theorem perform_tryMark_inserts {fresh : Bool}
    (performed : world.perform (.tryMark marks key ttl) = some (.ok fresh, after)) :
    (world.marks marks).insertIfAbsent? world.clock key ttl =
      some (fresh, after.marks marks) := by
  have taken := world.takeRefusal_unmarked (.tryMark marks) marks
  obtain ⟨_, impossible, _⟩ | changed := unlessRefused_cases performed
  · cases impossible
  · obtain ⟨⟨isNew, set⟩, inserted, same⟩ := Option.map_eq_some_iff.mp changed
    cases same
    rw [taken.same, taken.clock] at inserted
    rw [setMarks_marks]
    exact inserted

theorem perform_mark_error {error : StoreError}
    (performed : world.perform (.mark marks key ttl) = some (.error error, after)) :
    world.Unmarked marks after := by
  obtain ⟨_, _, rfl⟩ | changed := unlessRefused_cases performed
  · exact world.takeRefusal_unmarked _ marks
  · obtain ⟨_, _, impossible⟩ := Option.map_eq_some_iff.mp changed
    cases impossible

theorem perform_tryMark_error {error : StoreError}
    (performed : world.perform (.tryMark marks key ttl) = some (.error error, after)) :
    world.Unmarked marks after := by
  obtain ⟨_, _, rfl⟩ | changed := unlessRefused_cases performed
  · exact world.takeRefusal_unmarked _ marks
  · obtain ⟨_, _, impossible⟩ := Option.map_eq_some_iff.mp changed
    cases impossible

theorem perform_tryMark {fresh : Bool}
    (performed : world.perform (.tryMark marks key ttl) = some (.ok fresh, after)) :
    (fresh = true →
      (∀ expiresAt, (world.marks marks).expiry? key = some expiresAt →
        expiresAt ≤ world.clock) ∧
      (after.marks marks).expiry? key = some (world.clock + ttl.nanos)) ∧
    ∀ other expiresAt, (world.marks marks).expiry? other = some expiresAt →
      world.clock < expiresAt → (after.marks marks).expiry? other = some expiresAt := by
  have inserted := perform_tryMark_inserts performed
  cases fresh with
  | false =>
      obtain ⟨purged, _⟩ := ExpiringSet.insertIfAbsent?_known inserted
      rw [purged]
      exact ⟨nofun, fun other expiresAt marked live => ExpiringSet.expiry?_purge marked live⟩
  | true =>
      obtain ⟨expired, put⟩ := ExpiringSet.insertIfAbsent?_fresh inserted
      rw [(ExpiringSet.insert?_eq_some put).2]
      refine ⟨fun _ => ⟨expired, ExpiringSet.expiry?_put_self ..⟩,
        fun other expiresAt marked live => ?_⟩
      have distinct : other ≠ key := by
        rintro rfl
        exact Nat.not_lt.mpr (expired expiresAt marked) live
      rw [ExpiringSet.expiry?_put_other _ _ distinct]
      exact ExpiringSet.expiry?_purge marked live

theorem Holds.tryMark (holds : world.Holds marks other deadline)
    {answer : Except StoreError Bool}
    (performed : world.perform (.tryMark marks key ttl) = some (answer, after)) :
    after.Holds marks other deadline := by
  cases answer with
  | error error => exact holds.of_unmarked (perform_tryMark_error performed)
  | ok fresh =>
      have clock := perform_clock performed
      have kept := (perform_tryMark performed).2
      unfold Holds at *
      rw [clock]
      rcases holds with past | ⟨expiresAt, marked, reaches⟩
      · exact Or.inl past
      · rcases Nat.lt_or_ge world.clock expiresAt with live | past
        · exact Or.inr ⟨expiresAt, kept other expiresAt marked live, reaches⟩
        · exact Or.inl (Nat.le_trans reaches past)

/-- A key that is answered as new had no mark that lasts. -/
theorem Holds.over_of_fresh (holds : world.Holds marks key deadline)
    (performed : world.perform (.tryMark marks key ttl) = some (.ok true, after)) :
    deadline ≤ world.clock := by
  obtain ⟨expired, _⟩ := (perform_tryMark performed).1 rfl
  rcases holds with past | ⟨expiresAt, marked, reaches⟩
  · exact past
  · exact Nat.le_trans reaches (expired expiresAt marked)

theorem holds_of_fresh
    (performed : world.perform (.tryMark marks key ttl) = some (.ok true, after)) :
    after.Holds marks key (world.clock + ttl.nanos) := by
  obtain ⟨_, marked⟩ := (perform_tryMark performed).1 rfl
  exact Or.inr ⟨_, marked, Nat.le_refl _⟩

theorem clock_le_under (world : World) (circumstance : Circumstance) :
    world.clock ≤ (world.under circumstance).clock := by
  cases circumstance with
  | advance d => exact Nat.le_add_right _ _
  | _ => exact Nat.le_refl _

theorem under_marks (world : World) (circumstance : Circumstance) (marks : Marks) :
    (world.under circumstance).marks marks = world.marks marks := by
  cases circumstance <;> cases marks <;> rfl

/-- Time that passes ends marks and changes nothing else about them. -/
theorem Holds.under (holds : world.Holds marks key deadline) (circumstance : Circumstance) :
    (world.under circumstance).Holds marks key deadline := by
  rcases holds with past | marked
  · exact Or.inl (Nat.le_trans past (world.clock_le_under circumstance))
  · refine Or.inr ?_
    rw [under_marks]
    exact marked

end Holding

end World

end WebhookRelay
