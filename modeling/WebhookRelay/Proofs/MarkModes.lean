import WebhookRelay.Proofs.Commuting
import WebhookRelay.Proofs.TimedMap

/-!
# Both ways of marking

A store of marks in memory is an expiring set behind calls.  Whether it marks a key in one call,
or looks it up and marks it in a second one, it answers as the set does, as long as one caller
waits for the other; what it holds apart from that has expired.
-/

set_option autoImplicit false

namespace WebhookRelay

open ExpiringSet (Ask Reply Note)

/-! ## What has expired does not matter -/

namespace ExpiringSet

variable {set : ExpiringSet} {now time : Instant}

theorem purge_purge_of_le (set : ExpiringSet) (since : now ≤ time) :
    (set.purge now).purge time = set.purge time := by
  simp only [purge, List.filter_filter]
  congr 1
  refine List.filter_congr fun entry _ => ?_
  have older : isLive time entry = true → isLive now entry = true := by
    simp only [isLive, decide_eq_true_eq]
    exact Nat.lt_of_le_of_lt since
  cases live : isLive time entry with
  | false => rfl
  | true => rw [older live]; rfl

theorem purge_erase (set : ExpiringSet) (key : String) (now : Instant) :
    (set.erase key).purge now = (set.purge now).erase key := by
  simp only [purge, erase, List.filter_filter, Bool.and_comm]

end ExpiringSet

/-! ## Stores that are asked -/

namespace World

/-- The answer of a store of marks, and the world from then on.  Its size is what it holds
that is live. -/
def reply? (marks : Marks) (mode : MarkMode) (world : World) :
    Ask → Option (Except StoreError Reply × World)
  | .insert key ttl => (world.perform (.mark marks key ttl)).map fun (answer, after) =>
      (Except.map (fun _ => Reply.done) answer, after)
  | .insertIfAbsent key ttl =>
      ((markIfAbsent marks mode key ttl).outcome.run world).map fun (answer, after) =>
        (answer.map Reply.whether, after)
  | .remove key => (world.perform (.unmark marks key)).map fun (answer, after) =>
      (Except.map (fun _ => Reply.done) answer, after)
  | .contains key => (world.perform (.seen marks key)).map fun (answer, after) =>
      (Except.map Reply.whether answer, after)
  | .size => some (.ok (.count ((world.marks marks).size world.clock)), world)

def replies? (marks : Marks) (mode : MarkMode) (world : World) :
    List (Instant × Ask) → Option (List (Except StoreError Reply) × World)
  | [] => some ([], world)
  | (now, ask) :: rest => do
      let (reply, after) ← reply? marks mode { world with clock := now } ask
      let (replies, last) ← after.replies? marks mode rest
      return (reply :: replies, last)

/-- The store never fails, and from now on it has the same live keys as the set. -/
structure Mirrors (marks : Marks) (world : World) (set : ExpiringSet) : Prop where
  reliable : world.Reliable
  unique : (world.marks marks).Unique
  alsoUnique : set.Unique
  live : ∀ time, world.clock ≤ time → (world.marks marks).purge time = set.purge time

def LoggedAs (marks : Marks) (logged : List Note × ExpiringSet)
    (replied : List (Except StoreError Reply) × World) : Prop :=
  replied.1 = logged.1.map (fun note => .ok note.reply) ∧ replied.2.Mirrors marks logged.2

def SameMarks (marks : Marks) (one other : List (Except StoreError Reply) × World) : Prop :=
  one.1 = other.1 ∧ one.2.clock = other.2.clock ∧
    ∀ time, one.2.clock ≤ time →
      (one.2.marks marks).purge time = (other.2.marks marks).purge time

namespace Mirrors

variable {world after : World} {marks : Marks} {set next : ExpiringSet} {key : String}
  {now : Instant} {ttl : Duration}

theorem at_ (mirrors : world.Mirrors marks set) (since : world.clock ≤ now) :
    Mirrors marks { world with clock := now } set where
  reliable := mirrors.reliable
  unique := by cases marks <;> exact mirrors.unique
  alsoUnique := mirrors.alsoUnique
  live time from_ := by
    have same := mirrors.live time (Nat.le_trans since from_)
    cases marks <;> exact same

/-- Whatever the store and the set hold now, they may hold the same live keys next. -/
theorem setMarks (mirrors : world.Mirrors marks set) {held : ExpiringSet}
    (unique : held.Unique) (alsoUnique : next.Unique)
    (live : ∀ time, world.clock ≤ time → held.purge time = next.purge time) :
    Mirrors marks (world.setMarks held marks) next where
  reliable := by cases marks <;> exact mirrors.reliable
  unique := by rw [setMarks_marks]; exact unique
  alsoUnique := alsoUnique
  live := by rw [setMarks_marks, setMarks_clock]; exact live

theorem contains (mirrors : world.Mirrors marks set) (key : String) :
    (world.marks marks).contains world.clock key = set.contains world.clock key := by
  rw [Bool.eq_iff_iff, mirrors.unique.contains_iff, mirrors.alsoUnique.contains_iff,
    mirrors.live _ (Nat.le_refl _)]

theorem put (mirrors : world.Mirrors marks set) (key : String) (expiresAt : Instant) :
    Mirrors marks
      (world.setMarks (((world.marks marks).purge world.clock).put key expiresAt) marks)
      ((set.purge world.clock).put key expiresAt) := by
  refine mirrors.setMarks ((mirrors.unique.purge _).put ..) ((mirrors.alsoUnique.purge _).put ..) ?_
  rw [mirrors.live _ (Nat.le_refl _)]
  exact fun _ _ => rfl

theorem purge (mirrors : world.Mirrors marks set) :
    Mirrors marks (world.setMarks ((world.marks marks).purge world.clock) marks)
      (set.purge world.clock) := by
  refine mirrors.setMarks (mirrors.unique.purge _) (mirrors.alsoUnique.purge _) ?_
  rw [mirrors.live _ (Nat.le_refl _)]
  exact fun _ _ => rfl

/-- The set may be rid of what has expired while the store is not. -/
theorem purge_right (mirrors : world.Mirrors marks set) :
    world.Mirrors marks (set.purge world.clock) where
  reliable := mirrors.reliable
  unique := mirrors.unique
  alsoUnique := mirrors.alsoUnique.purge _
  live time from_ := by
    rw [ExpiringSet.purge_purge_of_le set from_]
    exact mirrors.live time from_

theorem erase (mirrors : world.Mirrors marks set) (key : String) :
    Mirrors marks (world.setMarks ((world.marks marks).erase key) marks) (set.erase key) := by
  refine mirrors.setMarks (mirrors.unique.erase key) (mirrors.alsoUnique.erase key) ?_
  intro time from_
  rw [ExpiringSet.purge_erase, ExpiringSet.purge_erase, mirrors.live time from_]

def Answers (marks : Marks) (replied : Reply × ExpiringSet)
    (answered : Except StoreError Reply × World) : Prop :=
  answered.1 = .ok replied.1 ∧ answered.2.Mirrors marks replied.2

theorem insert (mirrors : world.Mirrors marks set) (mode : MarkMode) :
    Option.Rel (Answers marks) (set.reply? world.clock (.insert key ttl))
      (world.reply? marks mode (.insert key ttl)) := by
  have marked : world.perform (.mark marks key ttl) = world.markKey marks key ttl :=
    mirrors.reliable.unlessRefused ..
  rw [reply?, marked, markKey, ExpiringSet.reply?, ExpiringSet.insert?, ExpiringSet.insert?]
  cases world.clock.plus? ttl with
  | none => exact .none
  | some expiresAt => exact .some ⟨rfl, mirrors.put key expiresAt⟩

/-- A key that is live is found in either mode, though only marking in one call drops what has
expired. -/
theorem markIfAbsent_live (mirrors : world.Mirrors marks set) (mode : MarkMode)
    (live : (set.purge world.clock).Has key) : ∃ after,
      (markIfAbsent marks mode key ttl).outcome.run world = some (.ok false, after) ∧
        after.Mirrors marks (set.purge world.clock) := by
  have alsoLive : ((world.marks marks).purge world.clock).Has key :=
    mirrors.live _ (Nat.le_refl _) ▸ live
  rw [markIfAbsent_outcome]
  cases mode with
  | atomic =>
      have tried := mirrors.reliable.tryMark marks key ttl
      rw [tryMarkKey, ExpiringSet.insertIfAbsent?_live alsoLive, Option.map_some] at tried
      exact ⟨_, Program.run_call tried, mirrors.purge⟩
  | stepwise =>
      have seen := mirrors.reliable.seen marks key
      rw [mirrors.unique.contains_iff.mpr alsoLive] at seen
      exact ⟨_, Program.run_call seen, mirrors.purge_right⟩

theorem markIfAbsent_absent (mirrors : world.Mirrors marks set) (mode : MarkMode)
    (absent : ¬(set.purge world.clock).Has key) :
    (markIfAbsent marks mode key ttl).outcome.run world =
      (world.clock.plus? ttl).map fun expiresAt =>
        (.ok true,
          world.setMarks (((world.marks marks).purge world.clock).put key expiresAt) marks) := by
  have alsoAbsent : ¬((world.marks marks).purge world.clock).Has key :=
    mirrors.live _ (Nat.le_refl _) ▸ absent
  rw [markIfAbsent_outcome]
  cases mode with
  | atomic =>
      have tried := mirrors.reliable.tryMark marks key ttl
      rw [tryMarkKey, ExpiringSet.insertIfAbsent?_absent alsoAbsent] at tried
      simp only [Program.run, tried]
      cases world.clock.plus? ttl <;> rfl
  | stepwise =>
      have marked : world.perform (.mark marks key ttl) = world.markKey marks key ttl :=
        mirrors.reliable.unlessRefused ..
      have unseen : (world.marks marks).contains world.clock key = false := by
        rw [← Bool.not_eq_true, mirrors.unique.contains_iff]
        exact alsoAbsent
      have seen := mirrors.reliable.seen marks key
      rw [unseen] at seen
      rw [Program.run_call seen]
      rw [markKey, ExpiringSet.insert?] at marked
      simp only [Program.run, marked]
      cases world.clock.plus? ttl <;> rfl

theorem insertIfAbsent (mirrors : world.Mirrors marks set) (mode : MarkMode) :
    Option.Rel (Answers marks) (set.reply? world.clock (.insertIfAbsent key ttl))
      (world.reply? marks mode (.insertIfAbsent key ttl)) := by
  rw [reply?, ExpiringSet.reply?]
  by_cases live : (set.purge world.clock).Has key
  · obtain ⟨after, run, alike⟩ := mirrors.markIfAbsent_live mode live
    rw [run, ExpiringSet.insertIfAbsent?_live live]
    exact .some ⟨rfl, alike⟩
  · rw [mirrors.markIfAbsent_absent mode live, ExpiringSet.insertIfAbsent?_absent live]
    cases world.clock.plus? ttl with
    | none => exact .none
    | some expiresAt => exact .some ⟨rfl, mirrors.put key expiresAt⟩

theorem step (mirrors : world.Mirrors marks set) (mode : MarkMode) (ask : Ask) :
    Option.Rel (Answers marks) (set.reply? world.clock ask) (world.reply? marks mode ask) := by
  cases ask with
  | insert key ttl => exact mirrors.insert mode
  | insertIfAbsent key ttl => exact mirrors.insertIfAbsent mode
  | remove key =>
      have erased : world.perform (.unmark marks key) =
          some (.ok (), world.setMarks ((world.marks marks).erase key) marks) := by
        rw [perform, mirrors.reliable.unlessRefused]
      rw [reply?, erased]
      exact .some ⟨rfl, mirrors.erase key⟩
  | contains key =>
      rw [reply?, mirrors.reliable.seen, mirrors.contains key]
      exact .some ⟨rfl, mirrors⟩
  | size =>
      have counted : (world.marks marks).size world.clock = set.size world.clock :=
        congrArg (fun live => live.entries.length) (mirrors.live _ (Nat.le_refl _))
      rw [reply?, counted]
      exact .some ⟨rfl, mirrors⟩

end Mirrors

/-! ## Runs -/

section Related

variable {α β γ α' β' : Type} {R : α → β → Prop} {S : α' → β' → Prop}

theorem rel_bind {one : Option α} {other : Option β} {f : α → Option α'} {g : β → Option β'}
    (related : Option.Rel R one other)
    (next : ∀ a b, other = some b → R a b → Option.Rel S (f a) (g b)) :
    Option.Rel S (one.bind f) (other.bind g) := by
  cases related with
  | none => exact .none
  | some related => exact next _ _ rfl related

/-- What two runs have to do with a third one, they have to do with each other. -/
theorem rel_join {T : β → β' → Prop} {R' : α → β' → Prop} {middle : Option α} {one : Option β}
    {other : Option β'} (related : Option.Rel R middle one) (also : Option.Rel R' middle other)
    (joined : ∀ a b c, one = some b → other = some c → R a b → R' a c → T b c) :
    Option.Rel T one other := by
  cases related with
  | none =>
      cases also
      exact .none
  | some related =>
      cases also with
      | some also => exact .some (joined _ _ _ rfl rfl related also)

end Related

section Runs

variable {world after : World} {marks : Marks} {mode : MarkMode} {set : ExpiringSet} {ask : Ask}
  {calls : List (Instant × Ask)}

theorem reply?_clock {reply : Except StoreError Reply}
    (replied : world.reply? marks mode ask = some (reply, after)) :
    after.clock = world.clock := by
  cases ask with
  | insertIfAbsent key ttl =>
      obtain ⟨⟨answer, last⟩, run, same⟩ := Option.map_eq_some_iff.mp replied
      cases same
      exact Program.run_clock run
  | insert | remove | contains =>
      obtain ⟨⟨answer, last⟩, performed, same⟩ := Option.map_eq_some_iff.mp replied
      cases same
      exact perform_clock performed
  | size =>
      cases replied
      rfl

theorem replies?_clock {replies : List (Except StoreError Reply)}
    (replied : world.replies? marks mode calls = some (replies, after)) :
    after.clock = calls.foldl (fun _ call => call.1) world.clock := by
  induction calls generalizing world replies with
  | nil =>
      cases replied
      rfl
  | cons call rest ih =>
      obtain ⟨⟨reply, next⟩, first, replied⟩ := Option.bind_eq_some_iff.mp replied
      obtain ⟨⟨later, last⟩, others, same⟩ := Option.bind_eq_some_iff.mp replied
      cases same
      rw [ih others, reply?_clock first]
      rfl

theorem Mirrors.run (mirrors : world.Mirrors marks set) (mode : MarkMode)
    (late : ∀ call ∈ calls, world.clock ≤ call.1)
    (ordered : calls.Pairwise fun early late => early.1 ≤ late.1) :
    Option.Rel (LoggedAs marks) (set.log? calls) (world.replies? marks mode calls) := by
  induction calls generalizing world set with
  | nil => exact .some ⟨rfl, mirrors⟩
  | cons call rest ih =>
      obtain ⟨since, ordered⟩ := List.pairwise_cons.mp ordered
      have step := (mirrors.at_ (late call List.mem_cons_self)).step mode call.2
      refine rel_bind step fun replied answered performed alike => ?_
      have clock : answered.2.clock = call.1 := reply?_clock performed
      refine rel_bind (ih alike.2 (clock.symm ▸ since) ordered) fun logged others _ rest_ => ?_
      refine .some ⟨?_, rest_.2⟩
      rw [List.map_cons, ← rest_.1, alike.1]

/-- In a run of calls that wait for each other, it does not show how a store marks. -/
theorem sameMarks_of_modes (reliable : world.Reliable) (unique : (world.marks marks).Unique)
    (late : ∀ call ∈ calls, world.clock ≤ call.1)
    (ordered : calls.Pairwise fun early late => early.1 ≤ late.1) (mode other : MarkMode) :
    Option.Rel (SameMarks marks) (world.replies? marks mode calls)
      (world.replies? marks other calls) := by
  have itself : world.Mirrors marks (world.marks marks) :=
    ⟨reliable, unique, unique, fun _ _ => rfl⟩
  refine rel_join (itself.run mode late ordered) (itself.run other late ordered) ?_
  intro logged one two replied alsoReplied matches_ alsoMatches
  have clock : one.2.clock = two.2.clock :=
    (replies?_clock replied).trans (replies?_clock alsoReplied).symm
  refine ⟨matches_.1.trans alsoMatches.1.symm, clock, fun time from_ => ?_⟩
  exact (matches_.2.live time from_).trans (alsoMatches.2.live time (clock ▸ from_)).symm

end Runs

end World

/-- An expiring set that was empty is asked at instants that never go back, for insertions that
end within the range of the clock.  Every call is answered, and in its log every answer follows
from the log before it as from a timed map: a key is live while the duration of its most recent
insertion that took effect is not over, unless the key was removed since; lookups and the size
are about the live keys; an insertion of a key if it is absent is answered by whether it was
not live, and where it was, the insertion that it goes back to stays the same.  Two such
insertions of one key that found nothing, with no removal and no other insertion of it in
between, are at least the time of the first one apart.  And a store of marks in memory, where
it starts out with what it may hold, answers calls and comes to have live keys in the same way
whether it marks in one call or looks up and marks in two. -/
theorem expiring_sets_are_timed_maps {calls : List (Instant × Ask)}
    (ordered : calls.Pairwise fun early late => early.1 ≤ late.1)
    (fits : ∀ call ∈ calls, ExpiringSet.Fits call) :
    ∃ log last, ExpiringSet.log? {} calls = some (log, last) ∧
      log.map (fun note => (note.time, note.ask)) = calls ∧
      (∀ before note after, log = before ++ note :: after → note.Follows before) ∧
      (∀ key ttl span before first between second after,
        log = before ++ first :: (between ++ second :: after) →
        first.Adds key ttl → second.Adds key span →
        (∀ note ∈ between, note.ask ≠ .remove key ∧ ∀ span, note.ask ≠ .insert key span) →
        first.time + ttl.nanos ≤ second.time) ∧
      (∀ (world : World) marks, world.Reliable → world.marks marks = {} →
        (∀ call ∈ calls, world.clock ≤ call.1) → ∀ mode,
          ∃ after, world.replies? marks mode calls =
              some (log.map (fun note => .ok note.reply), after) ∧
            ∀ time, after.clock ≤ time → (after.marks marks).purge time = last.purge time) ∧
      ∀ (world : World) marks, world.Reliable → (world.marks marks).Unique →
        (∀ call ∈ calls, world.clock ≤ call.1) → ∀ mode other,
          Option.Rel (World.SameMarks marks) (world.replies? marks mode calls)
            (world.replies? marks other calls) := by
  obtain ⟨log, last, logged⟩ := ExpiringSet.log?_of_fits fits {}
  have isLog := ExpiringSet.calls_of_log? logged
  have follows : ∀ before note after, log = before ++ note :: after → note.Follows before := by
    intro before note after shape
    have start := ExpiringSet.tracks_empty 0
    have from_ := start.follow (fun _ _ => Nat.zero_le _) ordered logged shape
    rwa [List.nil_append] at from_
  have times : log.Pairwise fun early late => early.time ≤ late.time := by
    rw [← isLog, List.pairwise_map] at ordered
    exact ordered
  refine ⟨log, last, logged, isLog, follows, ?_, ?_, ?_⟩
  · intro key ttl span before first between second after shape one other undisturbed
    exact ExpiringSet.adds_apart follows times shape one other undisturbed
  · intro world marks reliable empty late mode
    have mirrors : world.Mirrors marks {} :=
      ⟨reliable, by rw [empty]; exact List.nodup_nil, List.nodup_nil, fun _ _ => by rw [empty]⟩
    have run := mirrors.run mode late ordered
    rw [logged] at run
    generalize replied : world.replies? marks mode calls = result at run ⊢
    cases run with
    | some matches_ => exact ⟨_, congrArg some (Prod.ext matches_.1 rfl), matches_.2.live⟩
  · intro world marks reliable unique late mode other
    exact World.sameMarks_of_modes reliable unique late ordered mode other

namespace Sample

def markingCalls : List (Instant × Ask) :=
  [(0, .insertIfAbsent "a" (.ofSeconds 10)), (9999999999, .insertIfAbsent "a" (.ofSeconds 10)),
    (9999999999, .contains "a"), (10000000000, .contains "a"), (10000000000, .size),
    (10000000000, .insertIfAbsent "a" (.ofSeconds 1)), (10000000000, .size)]

theorem a_key_is_marked_again_at_its_end :
    ∃ log last, ExpiringSet.log? {} markingCalls = some (log, last) ∧
      (∀ before note after, log = before ++ note :: after → note.Follows before) ∧
      log.map (fun note => note.reply) = [.whether true, .whether false, .whether true,
        .whether false, .count 0, .whether true, .count 1] ∧
      ∀ mode, ∃ after, World.replies? .nonces mode {} markingCalls =
        some (log.map (fun note => .ok note.reply), after) := by
  have ordered : markingCalls.Pairwise fun early late => early.1 ≤ late.1 := by decide
  have fits : ∀ call ∈ markingCalls, ExpiringSet.Fits call := by decide
  obtain ⟨log, last, logged, _, follows, _, answered, _⟩ :=
    expiring_sets_are_timed_maps ordered fits
  refine ⟨log, last, logged, follows, ?_, fun mode => ?_⟩
  · have evaluated : (ExpiringSet.log? {} markingCalls).map
        (fun ended => ended.1.map fun note => note.reply) = some [.whether true, .whether false,
          .whether true, .whether false, .count 0, .whether true, .count 1] := by decide +kernel
    rw [logged] at evaluated
    exact Option.some.inj evaluated
  · obtain ⟨after, replied, _⟩ := answered {} .nonces (fun _ => rfl) rfl
      (fun _ _ => Nat.zero_le _) mode
    exact ⟨after, replied⟩

end Sample

end WebhookRelay
