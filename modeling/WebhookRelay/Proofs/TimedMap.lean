import WebhookRelay.Proofs.Liveness

/-!
# Expiring sets as timed maps

What a set has been asked and has answered is a log.  In a log, a key was last inserted at an
instant for a duration if an insertion of it took effect then, and since then neither another
one did nor was the key removed.  The key is live until that duration is over.  A set holds
more than the keys that are live, since only insertions drop what has expired, but what it
answers does not show that: at every instant from the last call on, it contains the keys that
its log makes live, and no others.
-/

set_option autoImplicit false

namespace WebhookRelay

namespace ExpiringSet

/-! ## Calls and their log -/

/-- What a set can be asked. -/
inductive Ask where
  | insert (key : String) (ttl : Duration)
  | insertIfAbsent (key : String) (ttl : Duration)
  | remove (key : String)
  | contains (key : String)
  | size
  deriving DecidableEq, Repr

/-- What it answers: nothing, whether something is so, or a number. -/
inductive Reply where
  | done
  | whether (so : Bool)
  | count (n : Nat)
  deriving DecidableEq, Repr

def reply? (set : ExpiringSet) (now : Instant) : Ask → Option (Reply × ExpiringSet)
  | .insert key ttl => (set.insert? now key ttl).map fun after => (.done, after)
  | .insertIfAbsent key ttl =>
      (set.insertIfAbsent? now key ttl).map fun (fresh, after) => (.whether fresh, after)
  | .remove key => some (.done, set.erase key)
  | .contains key => some (.whether (set.contains now key), set)
  | .size => some (.count (set.size now), set)

structure Note where
  time : Instant
  ask : Ask
  reply : Reply
  deriving DecidableEq, Repr

def log? (set : ExpiringSet) : List (Instant × Ask) → Option (List Note × ExpiringSet)
  | [] => some ([], set)
  | (now, ask) :: rest => do
      let (reply, after) ← set.reply? now ask
      let (log, last) ← after.log? rest
      return (⟨now, ask, reply⟩ :: log, last)

/-! ## What a log makes live -/

/-- The key that a call inserted, and for how long, if it took effect. -/
def Note.insertion? : Note → Option (String × Duration)
  | ⟨_, .insert key ttl, _⟩ => some (key, ttl)
  | ⟨_, .insertIfAbsent key ttl, .whether true⟩ => some (key, ttl)
  | _ => none

def Note.Settles (note : Note) (key : String) : Prop :=
  (∃ ttl, note.insertion? = some (key, ttl)) ∨ note.ask = .remove key

/-- The most recent insertion of a key that took effect and was followed by no removal. -/
def LastInserted (log : List Note) (key : String) (since : Instant) (ttl : Duration) : Prop :=
  ∃ before note after, log = before ++ note :: after ∧ note.time = since ∧
    note.insertion? = some (key, ttl) ∧ ∀ later ∈ after, ¬later.Settles key

def LiveAfter (log : List Note) (now : Instant) (key : String) : Prop :=
  ∃ since ttl, LastInserted log key since ttl ∧ now < since + ttl.nanos

/-- A call is answered as the timed map of the log before it says.  An insertion of a key that
is live leaves it as it was inserted. -/
def Note.Follows (note : Note) (log : List Note) : Prop :=
  match note.ask with
  | .insert _ _ | .remove _ => note.reply = .done
  | .contains key => ∃ so, note.reply = .whether so ∧ (so = true ↔ LiveAfter log note.time key)
  | .insertIfAbsent key _ =>
      ∃ fresh, note.reply = .whether fresh ∧ (fresh = true ↔ ¬LiveAfter log note.time key) ∧
        (fresh = false → ∀ since ttl,
          LastInserted (log ++ [note]) key since ttl ↔ LastInserted log key since ttl)
  | .size => ∃ keys : List String, keys.Nodup ∧
      (∀ key, key ∈ keys ↔ LiveAfter log note.time key) ∧ note.reply = .count keys.length

variable {log : List Note} {note : Note} {key other : String} {now since time : Instant}
  {ttl : Duration}

theorem not_lastInserted_nil : ¬LastInserted [] key since ttl := by
  rintro ⟨before, note, after, shape, _⟩
  cases before <;> cases shape

/-- The last call of a log decides about the keys that it inserted or removed, and about no
others. -/
theorem lastInserted_snoc : LastInserted (log ++ [note]) key since ttl ↔
    (note.insertion? = some (key, ttl) ∧ note.time = since) ∨
      (¬note.Settles key ∧ LastInserted log key since ttl) := by
  constructor
  · rintro ⟨before, first, after, shape, at_, inserted, unsettled⟩
    rcases List.eq_nil_or_concat after with rfl | ⟨front, last, rfl⟩
    · obtain ⟨rfl, same⟩ := List.append_inj' shape rfl
      cases same
      exact Or.inl ⟨inserted, at_⟩
    · rw [List.concat_eq_append, ← List.cons_append, ← List.append_assoc] at shape
      obtain ⟨rfl, same⟩ := List.append_inj' shape rfl
      cases same
      have unsettled : ∀ later ∈ front ++ [note], ¬later.Settles key := by
        simpa [List.concat_eq_append] using unsettled
      refine Or.inr ⟨unsettled note (by simp), before, first, front, rfl, at_, inserted, ?_⟩
      exact fun later member => unsettled later (List.mem_append_left _ member)
  · rintro (⟨inserted, at_⟩ | ⟨unsettled, before, first, after, rfl, at_, inserted, others⟩)
    · exact ⟨log, note, [], rfl, at_, inserted, nofun⟩
    · refine ⟨before, first, after ++ [note], by simp, at_, inserted, ?_⟩
      intro later member
      rcases List.mem_append.mp member with old | new
      · exact others later old
      · rw [List.mem_singleton.mp new]
        exact unsettled

theorem liveAfter_inserted (inserted : note.insertion? = some (key, ttl)) :
    LiveAfter (log ++ [note]) now key ↔ now < note.time + ttl.nanos := by
  constructor
  · rintro ⟨since, span, latest, live⟩
    rcases lastInserted_snoc.mp latest with ⟨also, rfl⟩ | ⟨unsettled, _⟩
    · rw [inserted] at also
      cases also
      exact live
    · exact absurd (Or.inl ⟨ttl, inserted⟩) unsettled
  · intro live
    exact ⟨note.time, ttl, lastInserted_snoc.mpr (Or.inl ⟨inserted, rfl⟩), live⟩

theorem lastInserted_unsettled (unsettled : ¬note.Settles key) :
    LastInserted (log ++ [note]) key since ttl ↔ LastInserted log key since ttl := by
  rw [lastInserted_snoc]
  constructor
  · rintro (⟨inserted, _⟩ | ⟨_, latest⟩)
    · exact absurd (Or.inl ⟨ttl, inserted⟩) unsettled
    · exact latest
  · exact fun latest => Or.inr ⟨unsettled, latest⟩

theorem liveAfter_unsettled (unsettled : ¬note.Settles key) :
    LiveAfter (log ++ [note]) now key ↔ LiveAfter log now key := by
  simp only [LiveAfter, lastInserted_unsettled unsettled]

theorem Note.not_settles (nothing : note.insertion? = none) (asked : ∀ key, note.ask ≠ .remove key)
    (key : String) : ¬note.Settles key := by
  rintro (⟨ttl, inserted⟩ | removed)
  · rw [nothing] at inserted
    cases inserted
  · exact asked key removed

theorem not_liveAfter_removed (removed : note.ask = .remove key) :
    ¬LiveAfter (log ++ [note]) now key := by
  rintro ⟨since, ttl, latest, _⟩
  rcases lastInserted_snoc.mp latest with ⟨inserted, _⟩ | ⟨unsettled, _⟩
  · obtain ⟨time, ask, reply⟩ := note
    cases removed
    cases inserted
  · exact unsettled (Or.inr removed)

/-! ## The set of a log -/

/-- From an instant on the set contains the keys that are live after a log.  What else it
holds has expired. -/
structure Tracks (set : ExpiringSet) (log : List Note) (now : Instant) : Prop where
  unique : set.Unique
  live : ∀ time, now ≤ time → ∀ key, set.contains time key = true ↔ LiveAfter log time key

theorem tracks_empty (now : Instant) : Tracks {} [] now where
  unique := List.nodup_nil
  live time _ key := by
    constructor
    · exact nofun
    · rintro ⟨_, _, latest, _⟩
      exact absurd latest not_lastInserted_nil

variable {set after : ExpiringSet} {reply : Reply}

theorem Unique.size_eq (unique : set.Unique) (now : Instant) :
    ∃ keys : List String, keys.Nodup ∧ (∀ key, key ∈ keys ↔ set.contains now key = true) ∧
      set.size now = keys.length := by
  refine ⟨(set.purge now).entries.map Prod.fst, unique.purge now, fun key => ?_, ?_⟩
  · rw [unique.contains_iff, List.mem_map]
    rfl
  · rw [List.length_map]
    rfl

namespace Tracks

theorem later (tracks : Tracks set log now) (since : now ≤ time) : Tracks set log time where
  unique := tracks.unique
  live moment from_ := tracks.live moment (Nat.le_trans since from_)

theorem unsettled (tracks : Tracks set log now) (unique : after.Unique)
    (same : ∀ time, now ≤ time → ∀ key, after.contains time key = set.contains time key)
    (unsettled : ∀ key, ¬note.Settles key) : Tracks after (log ++ [note]) now where
  unique := unique
  live time from_ key := by
    rw [same time from_, tracks.live time from_, liveAfter_unsettled (unsettled key)]

theorem inserted (tracks : Tracks set log now) (at_ : note.time = now)
    (inserted : note.insertion? = some (key, ttl)) (asked : ∀ key, note.ask ≠ .remove key) :
    Tracks ((set.purge now).put key (now + ttl.nanos)) (log ++ [note]) now where
  unique := (tracks.unique.purge now).put ..
  live time from_ other := by
    by_cases same : other = key
    · rw [same, contains_put_self, decide_eq_true_eq, liveAfter_inserted inserted, at_]
    · have unsettled : ¬note.Settles other := by
        rintro (⟨_, also⟩ | removed)
        · rw [inserted] at also
          cases also
          exact same rfl
        · exact asked other removed
      rw [contains_put_other _ _ same, tracks.unique.contains_purge from_,
        tracks.live time from_, liveAfter_unsettled unsettled]

theorem removed (tracks : Tracks set log now) (asked : note.ask = .remove key)
    (nothing : note.insertion? = none) : Tracks (set.erase key) (log ++ [note]) now where
  unique := tracks.unique.erase key
  live time from_ other := by
    by_cases same : other = key
    · subst same
      rw [contains_erase_self]
      exact iff_of_false Bool.false_ne_true (not_liveAfter_removed asked)
    · have unsettled : ¬note.Settles other := by
        rintro (⟨_, inserted⟩ | also)
        · rw [nothing] at inserted
          cases inserted
        · rw [asked] at also
          cases also
          exact same rfl
      rw [contains_erase_other _ same, tracks.live time from_, liveAfter_unsettled unsettled]

theorem step (tracks : Tracks set log now) {ask : Ask}
    (replied : set.reply? now ask = some (reply, after)) :
    Note.Follows ⟨now, ask, reply⟩ log ∧ Tracks after (log ++ [⟨now, ask, reply⟩]) now := by
  have current : ∀ key, set.contains now key = true ↔ LiveAfter log now key :=
    tracks.live now (Nat.le_refl now)
  cases ask with
  | insert key ttl =>
      obtain ⟨set, stored, same⟩ := Option.map_eq_some_iff.mp replied
      cases same
      rw [(insert?_eq_some stored).2]
      exact ⟨rfl, tracks.inserted rfl rfl nofun⟩
  | insertIfAbsent key ttl =>
      obtain ⟨⟨fresh, set'⟩, stored, same⟩ := Option.map_eq_some_iff.mp replied
      cases same
      cases fresh with
      | false =>
          obtain ⟨rfl, live⟩ := insertIfAbsent?_known stored
          have live := (current key).mp (tracks.unique.contains_iff.mpr live)
          have unsettled : ∀ other,
              ¬Note.Settles ⟨now, .insertIfAbsent key ttl, .whether false⟩ other :=
            Note.not_settles rfl nofun
          refine ⟨⟨false, rfl, iff_of_false Bool.false_ne_true (not_not_intro live),
            fun _ _ _ => lastInserted_unsettled (unsettled key)⟩, ?_⟩
          exact tracks.unsettled (tracks.unique.purge now)
            (fun time from_ => tracks.unique.contains_purge from_) unsettled
      | true =>
          obtain ⟨_, put⟩ := insertIfAbsent?_fresh stored
          have absent : ¬LiveAfter log now key := by
            rw [← current key, tracks.unique.contains_iff]
            intro live
            rw [insertIfAbsent?_live live] at stored
            cases stored
          rw [(insert?_eq_some put).2]
          exact ⟨⟨true, rfl, iff_of_true rfl absent, nofun⟩, tracks.inserted rfl rfl nofun⟩
  | remove key =>
      cases replied
      exact ⟨rfl, tracks.removed rfl rfl⟩
  | contains key =>
      cases replied
      exact ⟨⟨_, rfl, current key⟩, tracks.unsettled tracks.unique (fun _ _ _ => rfl)
        (Note.not_settles rfl nofun)⟩
  | size =>
      cases replied
      obtain ⟨keys, nodup, members, counted⟩ := tracks.unique.size_eq now
      exact ⟨⟨keys, nodup, fun key => (members key).trans (current key),
        congrArg Reply.count counted⟩, tracks.unsettled tracks.unique (fun _ _ _ => rfl)
          (Note.not_settles rfl nofun)⟩

end Tracks

/-! ## Runs -/

/-- What a call is to insert now ends within the range of the clock. -/
def Fits (call : Instant × Ask) : Prop :=
  match call.2 with
  | .insert _ ttl | .insertIfAbsent _ ttl => (call.1.plus? ttl).isSome = true
  | _ => True

instance (call : Instant × Ask) : Decidable (Fits call) :=
  match call with
  | (now, .insert _ ttl) | (now, .insertIfAbsent _ ttl) =>
      inferInstanceAs (Decidable ((now.plus? ttl).isSome = true))
  | (_, .remove _) | (_, .contains _) | (_, .size) => inferInstanceAs (Decidable True)

theorem reply?_of_fits {ask : Ask} (fits : Fits (now, ask)) (set : ExpiringSet) :
    ∃ reply after, set.reply? now ask = some (reply, after) := by
  cases ask with
  | insert key ttl =>
      obtain ⟨expiresAt, dated⟩ := Option.isSome_iff_exists.mp fits
      rw [reply?, insert?, dated]
      exact ⟨_, _, rfl⟩
  | insertIfAbsent key ttl =>
      obtain ⟨expiresAt, dated⟩ := Option.isSome_iff_exists.mp fits
      rw [reply?, insertIfAbsent?, dated]
      dsimp only
      split <;> exact ⟨_, _, rfl⟩
  | remove | contains | size => exact ⟨_, _, rfl⟩

variable {calls : List (Instant × Ask)} {past : List Note} {last : ExpiringSet}

theorem log?_cons {ask : Ask} {rest : List (Instant × Ask)}
    (logged : set.log? ((now, ask) :: rest) = some (log, last)) :
    ∃ reply after later, set.reply? now ask = some (reply, after) ∧
      after.log? rest = some (later, last) ∧ log = ⟨now, ask, reply⟩ :: later := by
  obtain ⟨⟨reply, after⟩, replied, logged⟩ := Option.bind_eq_some_iff.mp logged
  obtain ⟨⟨later, final⟩, rest, same⟩ := Option.bind_eq_some_iff.mp logged
  cases same
  exact ⟨reply, after, later, replied, rest, rfl⟩

theorem log?_of_fits (fits : ∀ call ∈ calls, Fits call) (set : ExpiringSet) :
    ∃ log last, set.log? calls = some (log, last) := by
  induction calls generalizing set with
  | nil => exact ⟨[], set, rfl⟩
  | cons call rest ih =>
      obtain ⟨reply, after, replied⟩ := reply?_of_fits (fits call List.mem_cons_self) set
      obtain ⟨log, last, logged⟩ := ih (fun later member =>
        fits later (List.mem_cons_of_mem _ member)) after
      refine ⟨⟨call.1, call.2, reply⟩ :: log, last, ?_⟩
      rw [log?, replied]
      dsimp only [Option.bind_eq_bind, Option.bind_some]
      rw [logged]
      rfl

theorem calls_of_log? (logged : set.log? calls = some (log, last)) :
    log.map (fun note => (note.time, note.ask)) = calls := by
  induction calls generalizing set log with
  | nil =>
      cases logged
      rfl
  | cons call rest ih =>
      obtain ⟨reply, after, later, _, others, rfl⟩ := log?_cons logged
      rw [List.map_cons, ih others]

theorem Tracks.follow (tracks : Tracks set past now) (late : ∀ call ∈ calls, now ≤ call.1)
    (ordered : calls.Pairwise fun early late => early.1 ≤ late.1)
    (logged : set.log? calls = some (log, last)) {before after : List Note}
    (shape : log = before ++ note :: after) : note.Follows (past ++ before) := by
  induction calls generalizing set past now log before with
  | nil =>
      cases logged
      cases before <;> cases shape
  | cons call rest ih =>
      obtain ⟨since, ordered⟩ := List.pairwise_cons.mp ordered
      obtain ⟨reply, next, later, replied, goesOn, rfl⟩ := log?_cons logged
      obtain ⟨follows, tracked⟩ := (tracks.later (late call List.mem_cons_self)).step replied
      cases before with
      | nil =>
          obtain ⟨rfl, rfl⟩ := List.cons.inj shape
          rw [List.append_nil]
          exact follows
      | cons first before =>
          obtain ⟨rfl, rest_⟩ := List.cons.inj shape
          have others := ih tracked since ordered goesOn rest_
          rwa [List.append_assoc, List.singleton_append] at others

/-! ## Insertions that find nothing -/

def Note.Adds (note : Note) (key : String) (ttl : Duration) : Prop :=
  note.ask = .insertIfAbsent key ttl ∧ note.reply = .whether true

theorem Note.Adds.insertion? (adds : note.Adds key ttl) : note.insertion? = some (key, ttl) := by
  obtain ⟨time, ask, reply⟩ := note
  obtain ⟨rfl, rfl⟩ := adds
  rfl

/-- An insertion that took effect and was not asked for whatever is there, found nothing. -/
theorem Note.adds_of_insertion? (inserted : note.insertion? = some (key, ttl))
    (asked : note.ask ≠ .insert key ttl) : note.Adds key ttl := by
  unfold Note.insertion? at inserted
  split at inserted
  · cases inserted
    exact absurd rfl asked
  · cases inserted
    exact ⟨rfl, rfl⟩
  · cases inserted

theorem Note.Adds.not_live (adds : note.Adds key ttl) (follows : note.Follows log) :
    ¬LiveAfter log note.time key := by
  obtain ⟨asked, replied⟩ := adds
  unfold Note.Follows at follows
  rw [asked] at follows
  obtain ⟨fresh, also, absent, _⟩ := follows
  rw [replied] at also
  cases also
  exact absent.mp rfl

theorem first_insertion {last : Note} (inserted : last.insertion? = some (key, ttl))
    (between : List Note) : ∃ front next length rest,
      between ++ [last] = front ++ next :: rest ∧ next.insertion? = some (key, length) ∧
      (next ∈ between ∨ next = last) ∧
      ∀ note ∈ front, note ∈ between ∧ ∀ span, note.insertion? ≠ some (key, span) := by
  induction between with
  | nil => exact ⟨[], last, ttl, [], rfl, inserted, Or.inr rfl, nofun⟩
  | cons note rest ih =>
      by_cases first : ∃ span, note.insertion? = some (key, span)
      · obtain ⟨span, inserts⟩ := first
        exact ⟨[], note, span, rest ++ [last], rfl, inserts, Or.inl List.mem_cons_self, nofun⟩
      · obtain ⟨front, next, length, later, shape, inserts, place, others⟩ := ih
        refine ⟨note :: front, next, length, later, congrArg (note :: ·) shape, inserts,
          place.imp_left (List.mem_cons_of_mem _), ?_⟩
        rintro other (_ | ⟨_, member⟩)
        · exact ⟨List.mem_cons_self, not_exists.mp first⟩
        · exact (others other member).imp_left (List.mem_cons_of_mem _)

/-- Two insertions of a key that found nothing are at least the time of the first one apart,
unless the key was removed or inserted otherwise in between. -/
theorem adds_apart (follows : ∀ before note after, log = before ++ note :: after →
      note.Follows before) (ordered : log.Pairwise fun early late => early.time ≤ late.time)
    {before between after : List Note} {first second : Note} {span : Duration}
    (shape : log = before ++ first :: (between ++ second :: after)) (one : first.Adds key ttl)
    (other : second.Adds key span)
    (undisturbed : ∀ note ∈ between, note.ask ≠ .remove key ∧ ∀ span, note.ask ≠ .insert key span) :
    first.time + ttl.nanos ≤ second.time := by
  -- The next insertion of the key that took effect is the second one at the latest.
  obtain ⟨front, next, length, rest, split, inserted, place, others⟩ :=
    first_insertion other.insertion? between
  have adds : next.Adds key length := by
    refine Note.adds_of_insertion? inserted ?_
    rcases place with inside | rfl
    · exact (undisturbed next inside).2 length
    · rw [other.1]
      exact nofun
  -- Until then the first insertion is the last one.
  have unsettled : ∀ note ∈ front, ¬note.Settles key := by
    rintro note member (⟨span, inserts⟩ | removed)
    · exact (others note member).2 span inserts
    · exact (undisturbed note (others note member).1).1 removed
  have latest : LastInserted (before ++ first :: front) key first.time ttl :=
    ⟨before, first, front, rfl, rfl, one.insertion?, unsettled⟩
  have whole : log = (before ++ first :: front) ++ next :: (rest ++ after) := by
    have regrouped : between ++ second :: after = (between ++ [second]) ++ after := by simp
    rw [shape, regrouped, split]
    simp
  have absent := adds.not_live (follows _ _ _ whole)
  have apart : first.time + ttl.nanos ≤ next.time := by
    by_contra live
    exact absent ⟨first.time, ttl, latest, Nat.lt_of_not_le live⟩
  have inOrder : next.time ≤ second.time := by
    rcases place with inside | rfl
    · rw [shape] at ordered
      have later := (List.pairwise_cons.mp (List.pairwise_append.mp ordered).2.1).2
      exact (List.pairwise_append.mp later).2.2 next inside second List.mem_cons_self
    · exact Nat.le_refl _
  exact Nat.le_trans apart inOrder

end ExpiringSet

end WebhookRelay
