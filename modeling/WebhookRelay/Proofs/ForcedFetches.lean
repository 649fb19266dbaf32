import WebhookRelay.Proofs.Authenticity
import WebhookRelay.Proofs.KeySteps

/-!
# Fetches for unknown key ids

Look-ups are made one after the other here.  A key id that an unexpired set lacks forces a
fetch, unless the set is too young for that.  What is compared with the refresh interval is
the age of the set, so a fetch that brings a set is followed by a pause, and a fetch that
fails is not: until a set comes or the old one expires, each look-up of such a key id fetches
again.
-/

set_option autoImplicit false

namespace WebhookRelay

namespace KeyCache

variable {cache : KeyCache} {now : Instant} {keyId : String} {seenAt : Option Instant}

/-- Whether an unexpired set is held that lacks the key id. -/
def lacks (cache : KeyCache) (now : Instant) (keyId : String) : Bool :=
  match cache.cached with
  | none => false
  | some entry => !cache.isExpired now entry && (entry.keys.find? keyId).isNone

theorem lacks_iff : cache.lacks now keyId = true ↔ ∃ entry, cache.cached = some entry ∧
    cache.isExpired now entry = false ∧ entry.keys.find? keyId = none := by
  unfold lacks
  cases cache.cached with
  | none => simp
  | some entry => simp

theorem fetchDue_of_lacking (lacking : cache.lacks now keyId = true)
    (old : ∀ entry, cache.cached = some entry →
      entry.fetchedAt + cache.config.minRefreshInterval.nanos ≤ now) :
    cache.FetchDue now keyId := by
  obtain ⟨held, isHeld, _, unknown⟩ := lacks_iff.mp lacking
  intro entry cached
  obtain rfl : held = entry := Option.some.inj (isHeld.symm.trans cached)
  exact Or.inr ⟨unknown, Nat.le_sub_of_add_le' (old held isHeld)⟩

theorem old_of_lacking (lacking : cache.lacks now keyId = true)
    (due : cache.FetchDue now keyId)
    (past : ∀ entry, cache.cached = some entry → entry.fetchedAt ≤ now) :
    ∃ entry, cache.cached = some entry ∧
      entry.fetchedAt + cache.config.minRefreshInterval.nanos ≤ now := by
  obtain ⟨entry, held, young, _⟩ := lacks_iff.mp lacking
  refine ⟨entry, held, ?_⟩
  rcases due entry held with expired | ⟨_, old⟩
  · rw [young] at expired
    cases expired
  · exact Nat.add_le_of_le_sub' (past entry held) old

/-- There is nothing to take over where nobody has installed a set. -/
theorem takeOver?_of_seen {before : KeyCache} {earlier : Instant}
    (read : before.read earlier keyId = .stale seenAt)
    (same : ∀ entry, cache.cached = some entry → before.cached = some entry) :
    cache.takeOver? now seenAt = none := by
  unfold takeOver?
  cases held : cache.cached with
  | none => rfl
  | some entry =>
      have also := same entry held
      obtain ⟨nothing, _⟩ | ⟨seen, isSeen, rfl, _⟩ := read_stale read
      · rw [nothing] at also
        cases also
      · obtain rfl : seen = entry := Option.some.inj (isSeen.symm.trans also)
        simp

end KeyCache

/-! ## What happens around a look-up -/

def World.through (world : World) (changes : List Circumstance) : World :=
  changes.foldl World.under world

/-- What of a cache stays while nobody fetches. -/
structure World.Elapses (world after : World) : Prop where
  config : after.keys.config = world.keys.config
  clock : world.clock ≤ after.clock
  cached : ∀ entry, after.keys.cached = some entry → world.keys.cached = some entry

namespace World.Elapses

variable {world middle after : World}

theorem refl (world : World) : world.Elapses world :=
  ⟨rfl, Nat.le_refl _, fun _ held => held⟩

theorem trans (first : world.Elapses middle) (second : middle.Elapses after) :
    world.Elapses after where
  config := second.config.trans first.config
  clock := Nat.le_trans first.clock second.clock
  cached entry held := first.cached entry (second.cached entry held)

theorem under (world : World) (circumstance : Circumstance) :
    world.Elapses (world.under circumstance) := by
  cases circumstance with
  | advance d => exact ⟨rfl, Nat.le_add_right _ _, fun _ held => held⟩
  | invalidateKeys => exact ⟨rfl, Nat.le_refl _, nofun⟩
  | _ => exact ⟨rfl, Nat.le_refl _, fun _ held => held⟩

theorem through (world : World) (changes : List Circumstance) :
    world.Elapses (world.through changes) := by
  induction changes generalizing world with
  | nil => exact refl world
  | cons circumstance rest ih => exact (under world circumstance).trans (ih _)

end World.Elapses

/-- A look-up that is made alone: what happens before it, between its two steps, and while
its fetch lasts if it makes one. -/
structure Visit where
  keyId : String
  before : List Circumstance := []
  between : List Circumstance := []
  during : List Circumstance := []

namespace Visit

def reading (visit : Visit) (world : World) : World :=
  world.through visit.before

def starting (visit : Visit) (world : World) : World :=
  (visit.reading world).through visit.between

def ending (visit : Visit) (world : World) : World :=
  (visit.starting world).through visit.during

end Visit

structure Fetch where
  startedAt : Instant
  /-- Whether it was made because an unexpired set lacked the key id. -/
  forced : Bool
  /-- Whether it brought a set. -/
  arrived : Bool
  deriving DecidableEq, Repr

namespace Desk

/-- The second step of a look-up that has missed, and the fetch if it comes to one. -/
def conclude (desk : Desk) (who : Nat) (forced : Bool) (visit : Visit) :
    Option (Desk × Option Fetch) := do
  let starting ← desk.play (visit.between.map .change)
  let waiting ← starting.move (.proceed who)
  if waiting.fetching = none then return (waiting, none)
  let ending ← waiting.play (visit.during.map .change)
  let last ← ending.move .arrive
  return (last, some ⟨starting.world.clock, forced, ending.world.fetchKeys.1.isOk⟩)

def visit (desk : Desk) (visit : Visit) : Option (Desk × Option Fetch) := do
  let who := desk.lookups.length
  let now ← desk.play (visit.before.map .change)
  let first ← now.play [.ask visit.keyId, .proceed who]
  if (first.result? who).isSome then return (first, none)
  first.conclude who (now.world.keys.lacks now.world.clock visit.keyId) visit

/-- Look-ups that are made one after the other, and all the fetches that they make. -/
def visits (desk : Desk) : List Visit → Option (Desk × List Fetch)
  | [] => some (desk, [])
  | visit :: rest => do
      let (desk, fetch) ← desk.visit visit
      let (last, log) ← desk.visits rest
      return (last, fetch.toList ++ log)

variable {desk : Desk}

theorem move_change (desk : Desk) {circumstance : Circumstance}
    (allowed : circumstance = .invalidateKeys → desk.fetching = none) :
    desk.move (.change circumstance) =
      some { desk with world := desk.world.under circumstance } := by
  cases circumstance with
  | invalidateKeys => exact if_pos (allowed rfl)
  | _ => rfl

theorem play_changes (desk : Desk) {changes : List Circumstance}
    (allowed : .invalidateKeys ∈ changes → desk.fetching = none) :
    desk.play (changes.map .change) = some { desk with world := desk.world.through changes } := by
  induction changes generalizing desk with
  | nil => rfl
  | cons circumstance rest ih =>
      have first := desk.move_change fun drops : circumstance = .invalidateKeys =>
        allowed (drops ▸ List.mem_cons_self)
      refine (play_cons first).trans (ih _ ?_)
      exact fun member => allowed (List.mem_cons_of_mem _ member)

/-! ## How a look-up goes that is made alone -/

/-- What comes of a look-up that is made alone: it is decided by what it reads, or it
fetches. -/
inductive Visited (world : World) (visit : Visit) : World → Option Fetch → Prop where
  | decided
      (read : ∀ seenAt, (visit.reading world).keys.read (visit.reading world).clock
        visit.keyId ≠ .stale seenAt) :
      Visited world visit (visit.reading world) none
  | fetched {seenAt : Option Instant}
      (read : (visit.reading world).keys.read (visit.reading world).clock visit.keyId =
        .stale seenAt) :
      Visited world visit (visit.ending world).fetchKeys.2 <| some {
        startedAt := (visit.starting world).clock
        forced := (visit.reading world).keys.lacks (visit.reading world).clock visit.keyId
        arrived := (visit.ending world).fetchKeys.1.isOk }

theorem conclude_missing (free : desk.fetching = none) {who : Nat} {keyId : String}
    {seenAt : Option Instant} (waits : desk.lookups[who]? = some (.missing keyId seenAt))
    {forced : Bool} {visit : Visit} {starting ending : World}
    (starts : desk.world.through visit.between = starting)
    (ends : starting.through visit.during = ending)
    (allowed : .invalidateKeys ∉ visit.during)
    (nothing : starting.keys.takeOver? starting.clock seenAt = none) :
    ∃ after, desk.conclude who forced visit =
        some (after, some ⟨starting.clock, forced, ending.fetchKeys.1.isOk⟩) ∧
      after.fetching = none ∧ after.world = ending.fetchKeys.2 := by
  have passed : desk.play (visit.between.map .change) = some { desk with world := starting } :=
    starts ▸ desk.play_changes fun _ => free
  have second : move { desk with world := starting } (.proceed who) = _ :=
    proceed_missing free waits
  rw [nothing] at second
  let waiting (world : World) : Desk := { desk with world, fetching := some (.lookup who) }
  have lasted : (waiting starting).play (visit.during.map .change) = some (waiting ending) :=
    ends ▸ (waiting starting).play_changes fun drops => absurd drops allowed
  have arrives : (waiting ending).move .arrive = _ := move_arrive rfl
  refine ⟨{
    world := ending.fetchKeys.2
    lookups := (waiting ending).told ending.fetchKeys.1 (.lookup who)
    installed := desk.installed ++ (waiting ending).fetched }, ?_, rfl, rfl⟩
  simp only [conclude, passed, bind, Option.bind_some, second]
  rw [if_neg (Option.some_ne_none _), lasted, Option.bind_some, arrives]
  rfl

theorem play_reading (desk : Desk) (free : desk.fetching = none) (keyId : String) :
    desk.play [.ask keyId, .proceed desk.lookups.length] = some { desk with
      lookups := desk.lookups ++
        [.afterReading keyId (desk.world.keys.read desk.world.clock keyId)] } := by
  let asked : Desk := { desk with lookups := desk.lookups ++ [.begun keyId] }
  have waits : asked.lookups[desk.lookups.length]? = some (.begun keyId) :=
    List.getElem?_concat_length
  have second : asked.move (.proceed desk.lookups.length) = _ := proceed_begun free waits
  refine (play_cons rfl).trans ((play_cons second).trans ?_)
  simp [play, asked, List.set_append_right]

/-- The desk at which a look-up that is made alone has read the cache. -/
def having (desk : Desk) (world : World) (lookup : Lookup) : Desk :=
  { desk with world, lookups := desk.lookups ++ [lookup] }

theorem visit_eq (free : desk.fetching = none) {visit : Visit} {now : World}
    (reads : visit.reading desk.world = now) {first : Desk}
    (goes : desk.having now (.afterReading visit.keyId (now.keys.read now.clock visit.keyId)) =
      first) :
    desk.visit visit = if (first.result? desk.lookups.length).isSome then some (first, none)
      else first.conclude desk.lookups.length (now.keys.lacks now.clock visit.keyId) visit := by
  have passed : desk.play (visit.before.map .change) = some { desk with world := now } :=
    reads ▸ desk.play_changes fun _ => free
  have read := play_reading { desk with world := now } free visit.keyId
  simp only [Desk.visit, bind, passed, Option.bind_some]
  exact goes ▸ congrArg (Option.bind · _) read

theorem visit_visited (free : desk.fetching = none) {visit : Visit}
    (allowed : .invalidateKeys ∉ visit.during) :
    ∃ after fetch, desk.visit visit = some (after, fetch) ∧ after.fetching = none ∧
      Visited desk.world visit after.world fetch := by
  let now := visit.reading desk.world
  let starting := visit.starting desk.world
  have still (lookup : Lookup) : (desk.having now lookup).fetching = none := free
  have there (lookup : Lookup) :
      (desk.having now lookup).lookups[desk.lookups.length]? = some lookup :=
    List.getElem?_concat_length
  have decided {result : Except VerificationError VerifyingKey}
      (ended : Lookup.afterReading visit.keyId (now.keys.read now.clock visit.keyId) =
        .ended visit.keyId none result)
      (read : ∀ seenAt, now.keys.read now.clock visit.keyId ≠ .stale seenAt) :
      ∃ after fetch, desk.visit visit = some (after, fetch) ∧ after.fetching = none ∧
        Visited desk.world visit after.world fetch := by
    have told := result?_eq_some.mpr ⟨none, there (.ended visit.keyId none result)⟩
    refine ⟨_, none, (visit_eq free rfl (congrArg _ ended)).trans (if_pos ?_), free,
      .decided read⟩
    rw [told]
    rfl
  cases read : now.keys.read now.clock visit.keyId with
  | found key => exact decided (congrArg _ read) (by simp [read])
  | absent => exact decided (congrArg _ read) (by simp [read])
  | stale seenAt =>
      have waits := there (.missing visit.keyId seenAt)
      have running : ¬((desk.having now (.missing visit.keyId seenAt)).result?
          desk.lookups.length).isSome := by
        rw [result?, waits]
        exact Bool.false_ne_true
      have goes := (visit_eq free rfl (congrArg _ (congrArg _ read))).trans (if_neg running)
      have nothing : starting.keys.takeOver? starting.clock seenAt = none :=
        KeyCache.takeOver?_of_seen read (World.Elapses.through now visit.between).cached
      obtain ⟨after, concludes, ended, same⟩ :=
        conclude_missing (still _) waits rfl rfl allowed nothing
      exact ⟨after, _, goes.trans concludes, ended, same ▸ .fetched read⟩

end Desk

/-! ## Pauses between fetches -/

/-- What the fetches so far say about the world after them.  The cached set is no older than
the last fetch that brought one, and a forced fetch that failed found it old enough. -/
structure Logged (interval : Nat) (log : List Fetch) (world : World) : Prop where
  config : world.keys.config.minRefreshInterval.nanos = interval
  past : ∀ entry, world.keys.cached = some entry → entry.fetchedAt ≤ world.clock
  begun : ∀ fetch ∈ log, fetch.startedAt ≤ world.clock
  since : ∀ fetch ∈ log, fetch.arrived = true → ∀ entry, world.keys.cached = some entry →
    fetch.startedAt ≤ entry.fetchedAt
  apart : log.Pairwise fun early late => early.startedAt ≤ late.startedAt ∧
    (early.arrived = true → late.forced = true → early.startedAt + interval ≤ late.startedAt)
  spent : ∀ fetch, log.getLast? = some fetch → fetch.forced = true → fetch.arrived = false →
    ∀ entry, world.keys.cached = some entry → entry.fetchedAt + interval ≤ world.clock

namespace Logged

variable {interval : Nat} {log : List Fetch} {world after : World}

theorem elapse (logged : Logged interval log world) (elapses : world.Elapses after) :
    Logged interval log after where
  config := by rw [elapses.config, logged.config]
  past entry held := Nat.le_trans (logged.past entry (elapses.cached entry held)) elapses.clock
  begun fetch member := Nat.le_trans (logged.begun fetch member) elapses.clock
  since fetch member arrived entry held :=
    logged.since fetch member arrived entry (elapses.cached entry held)
  apart := logged.apart
  spent fetch last forced failed entry held :=
    Nat.le_trans (logged.spent fetch last forced failed entry (elapses.cached entry held))
      elapses.clock

theorem due (logged : Logged interval log world) {keyId : String} {seenAt : Option Instant}
    (lacking : world.keys.lacks world.clock keyId = true)
    (read : world.keys.read world.clock keyId = .stale seenAt) :
    ∃ entry, world.keys.cached = some entry ∧ entry.fetchedAt + interval ≤ world.clock := by
  rw [← logged.config]
  exact KeyCache.old_of_lacking lacking (KeyCache.fetchDue_of_read read) logged.past

theorem fetched (logged : Logged interval log world) {fetch : Fetch}
    (begins : fetch.startedAt ≤ world.clock)
    (arrived : fetch.arrived = world.fetchKeys.1.isOk)
    (apart : ∀ early ∈ log, early.startedAt ≤ fetch.startedAt ∧
      (early.arrived = true → fetch.forced = true →
        early.startedAt + interval ≤ fetch.startedAt))
    (due : fetch.forced = true → ∀ entry, world.keys.cached = some entry →
      entry.fetchedAt + interval ≤ world.clock) :
    Logged interval (log ++ [fetch]) world.fetchKeys.2 := by
  have begun : ∀ each ∈ log ++ [fetch], each.startedAt ≤ world.clock := by
    intro each member
    rcases List.mem_append.mp member with old | new
    · exact logged.begun each old
    · exact List.mem_singleton.mp new ▸ begins
  have apart : (log ++ [fetch]).Pairwise fun early late => early.startedAt ≤ late.startedAt ∧
      (early.arrived = true → late.forced = true →
        early.startedAt + interval ≤ late.startedAt) := by
    refine List.pairwise_append.mpr ⟨logged.apart, List.pairwise_singleton _ _, ?_⟩
    intro early member late new
    exact List.mem_singleton.mp new ▸ apart early member
  have last {each : Fetch} (isLast : (log ++ [fetch]).getLast? = some each) : fetch = each := by
    rw [List.getLast?_concat] at isLast
    exact Option.some.inj isLast
  cases answer : world.source.fetch world.network with
  | ok published =>
      rw [World.fetchKeys_ok answer] at arrived ⊢
      refine ⟨logged.config, ?_, begun, ?_, apart, ?_⟩
      · rintro _ ⟨⟩
        exact Nat.le_refl _
      · rintro each member _ _ ⟨⟩
        exact begun each member
      · intro each isLast _ failed
        rw [← last isLast, arrived] at failed
        cases failed
  | error error =>
      rw [World.fetchKeys_error answer] at arrived ⊢
      refine ⟨logged.config, logged.past, begun, ?_, apart, ?_⟩
      · intro each member brought
        rcases List.mem_append.mp member with old | new
        · exact logged.since each old brought
        · rw [List.mem_singleton.mp new, arrived] at brought
          cases brought
      · intro each isLast forced _
        exact due (last isLast ▸ forced)

theorem visited (logged : Logged interval log world) {visit : Visit} {fetch : Option Fetch}
    (visited : Desk.Visited world visit after fetch) :
    Logged interval (log ++ fetch.toList) after := by
  have reads : world.Elapses (visit.reading world) := .through _ _
  have starts : (visit.reading world).Elapses (visit.starting world) := .through _ _
  have ends : (visit.starting world).Elapses (visit.ending world) := .through _ _
  cases visited with
  | decided read =>
      rw [Option.toList_none, List.append_nil]
      exact logged.elapse reads
  | fetched read =>
      have atReading := logged.elapse reads
      have atStart := atReading.elapse starts
      refine (atStart.elapse ends).fetched ends.clock rfl ?_ ?_
      · intro early member
        refine ⟨atStart.begun early member, ?_⟩
        intro brought lacking
        -- The set that lacks the key id is the one that the earlier fetch brought, or newer.
        obtain ⟨entry, held, due⟩ := atReading.due lacking read
        have newer := atReading.since early member brought entry held
        exact Nat.le_trans (Nat.add_le_add_right newer _) (Nat.le_trans due starts.clock)
      · intro lacking entry held
        obtain ⟨seen, also, due⟩ := atReading.due lacking read
        have before := (starts.trans ends).cached entry held
        obtain rfl : entry = seen := Option.some.inj (before.symm.trans also)
        exact Nat.le_trans due (starts.trans ends).clock

theorem visits {desk : Desk} (logged : Logged interval log desk.world)
    (free : desk.fetching = none) {visits : List Visit}
    (allowed : ∀ visit ∈ visits, .invalidateKeys ∉ visit.during) :
    ∃ last more, desk.visits visits = some (last, more) ∧ last.fetching = none ∧
      Logged interval (log ++ more) last.world := by
  induction visits generalizing desk log with
  | nil =>
      refine ⟨desk, [], rfl, free, ?_⟩
      rw [List.append_nil]
      exact logged
  | cons visit rest ih =>
      obtain ⟨middle, fetch, goes, still, visited⟩ :=
        Desk.visit_visited free (allowed visit List.mem_cons_self)
      obtain ⟨last, more, went, ended, logged⟩ := ih (logged.visited visited) still
        fun other member => allowed other (List.mem_cons_of_mem _ member)
      refine ⟨last, fetch.toList ++ more, ?_, ended, ?_⟩
      · simp only [Desk.visits, goes, went, bind, Option.bind_some]
        rfl
      · rw [← List.append_assoc]
        exact logged

/-- A forced fetch comes no sooner than the interval after an earlier fetch, if one of the
fetches from that one on has brought a set. -/
theorem pauses (logged : Logged interval log world) {early middle late : List Fetch}
    {first forced : Fetch} (split : log = early ++ first :: (middle ++ forced :: late))
    (isForced : forced.forced = true)
    (brought : ∃ fetch ∈ first :: middle, fetch.arrived = true) :
    first.startedAt + interval ≤ forced.startedAt := by
  have apart := logged.apart
  rw [split] at apart
  obtain ⟨fromFirst, afterwards⟩ :=
    List.pairwise_cons.mp (List.pairwise_append.mp apart).2.1
  obtain ⟨fetch, member, arrived⟩ := brought
  rcases List.mem_cons.mp member with rfl | between
  · exact (fromFirst forced (by simp)).2 arrived isForced
  · have begins := (fromFirst fetch (List.mem_append_left _ between)).1
    have ends := (List.pairwise_append.mp afterwards).2.2 fetch between forced
      List.mem_cons_self
    exact Nat.le_trans (Nat.add_le_add_right begins _) (ends.2 arrived isForced)

/-- After a forced fetch that has failed, the next look-up of a key id that the set lacks
fetches at once. -/
theorem fetches_again {desk : Desk} (logged : Logged interval log desk.world)
    (free : desk.fetching = none) {failed : Fetch} (last : log.getLast? = some failed)
    (forced : failed.forced = true) (fails : failed.arrived = false) {next : Visit}
    (allowed : .invalidateKeys ∉ next.during)
    (lacking : (next.reading desk.world).keys.lacks (next.reading desk.world).clock
      next.keyId = true) :
    ∃ after fetch, desk.visit next = some (after, some fetch) ∧ fetch.forced = true ∧
      fetch.startedAt = (next.starting desk.world).clock := by
  have reads : desk.world.Elapses (next.reading desk.world) := .through _ _
  have atReading := logged.elapse reads
  have due : (next.reading desk.world).keys.FetchDue (next.reading desk.world).clock
      next.keyId := by
    apply KeyCache.fetchDue_of_lacking lacking
    rw [atReading.config]
    exact atReading.spent failed last forced fails
  obtain ⟨seenAt, read⟩ := KeyCache.read_of_fetchDue due
  obtain ⟨after, fetch, goes, _, visited⟩ := Desk.visit_visited free allowed
  generalize after.world = ending at visited
  cases visited with
  | decided decided => exact absurd read (decided seenAt)
  | fetched _ => exact ⟨after, _, goes, lacking, rfl⟩

end Logged

/-- Look-ups are made one after the other, with any key ids, while anything happens between
and during them.  A fetch that is forced by a key id that the unexpired set lacks starts at
least the refresh interval after each earlier fetch, provided that this one or one since has
brought a set.  The condition cannot be dropped: if the last fetch was forced and has failed,
then the next look-up of a key id that the set still lacks fetches without a pause. -/
theorem forced_fetches_pause_after_a_set {world : World}
    (past : ∀ entry, world.keys.cached = some entry → entry.fetchedAt ≤ world.clock)
    {visits : List Visit} (allowed : ∀ visit ∈ visits, .invalidateKeys ∉ visit.during) :
    ∃ last log, (Desk.opening world).visits visits = some (last, log) ∧
      (∀ early first middle forced late,
        log = early ++ first :: (middle ++ forced :: late) → forced.forced = true →
        (∃ fetch ∈ first :: middle, fetch.arrived = true) →
        first.startedAt + world.keys.config.minRefreshInterval.nanos ≤ forced.startedAt) ∧
      ∀ failed, log.getLast? = some failed → failed.forced = true → failed.arrived = false →
        ∀ next : Visit, .invalidateKeys ∉ next.during →
        (next.reading last.world).keys.lacks (next.reading last.world).clock
          next.keyId = true →
        ∃ after fetch, last.visit next = some (after, some fetch) ∧ fetch.forced = true ∧
          fetch.startedAt = (next.starting last.world).clock := by
  have start : Logged world.keys.config.minRefreshInterval.nanos [] world :=
    ⟨rfl, past, nofun, nofun, List.Pairwise.nil, nofun⟩
  obtain ⟨last, log, went, free, logged⟩ :=
    start.visits (rfl : (Desk.opening world).fetching = none) allowed
  refine ⟨last, log, went, ?_, ?_⟩
  · intro early first middle forced late split isForced brought
    exact logged.pauses split isForced brought
  · intro failed isLast forced fails next allowed lacking
    exact logged.fetches_again free isLast forced fails allowed lacking

namespace Sample

def worldWithKeys (failing : Bool) : World where
  clock := (Duration.ofSeconds 31).nanos
  keys := { cached := some ⟨.ofJwks ⟨[publishedKey]⟩, 0⟩ }
  source := .held ⟨[publishedKey]⟩ failing

/-- Three look-ups of a key id that is never published, each 15 seconds after the last. -/
def ghosts : List Visit :=
  [⟨"ghost", [], [], []⟩, ⟨"ghost", [.advance (.ofSeconds 15)], [], []⟩,
    ⟨"ghost", [.advance (.ofSeconds 15)], [], []⟩]

set_option maxRecDepth 100000 in
theorem third_ghost_waits_for_the_pause :
    (∀ entry, (worldWithKeys false).keys.cached = some entry →
      entry.fetchedAt ≤ (worldWithKeys false).clock) ∧
    (∀ visit ∈ ghosts, .invalidateKeys ∉ visit.during) ∧
    ∃ last first second, (Desk.opening (worldWithKeys false)).visits ghosts =
        some (last, [first, second]) ∧
      first.forced = true ∧ second.forced = true ∧
      first.startedAt + (Duration.ofSeconds 30).nanos ≤ second.startedAt := by
  have past : ∀ entry, (worldWithKeys false).keys.cached = some entry →
      entry.fetchedAt ≤ (worldWithKeys false).clock := by
    rintro _ ⟨⟩
    exact Nat.zero_le _
  have allowed : ∀ visit ∈ ghosts, .invalidateKeys ∉ visit.during := by simp [ghosts]
  have ran : ∃ result ∈ (Desk.opening (worldWithKeys false)).visits ghosts,
      result.2.map Fetch.forced = [true, true] ∧ result.2.map Fetch.arrived = [true, true] := by
    decide +kernel
  obtain ⟨last, log, went, pauses, _⟩ := forced_fetches_pause_after_a_set past allowed
  obtain ⟨result, also, forced, arrived⟩ := ran
  obtain rfl := Option.some.inj (went.symm.trans also)
  obtain ⟨first, _, rfl, isForced, rest⟩ := List.map_eq_cons_iff.mp forced
  obtain ⟨second, _, rfl, alsoForced, rest⟩ := List.map_eq_cons_iff.mp rest
  obtain rfl := List.map_eq_nil_iff.mp rest
  have brought : first.arrived = true := (List.cons.inj arrived).1
  refine ⟨past, allowed, last, first, second, went, isForced, alsoForced, ?_⟩
  exact pauses [] first [] second [] rfl alsoForced ⟨first, List.mem_cons_self, brought⟩

set_option maxRecDepth 100000 in
/-- While the fetches fail, two look-ups at the same time fetch twice. -/
theorem two_ghosts_fetch_twice_at_once :
    ¬∀ (world : World) (visits : List Visit) (last : Desk) (log : List Fetch),
      (∃ entry, world.keys.cached = some entry ∧ entry.fetchedAt ≤ world.clock ∧
        world.keys.isExpired world.clock entry = false) →
      (Desk.opening world).visits visits = some (last, log) →
      log.Pairwise fun first second => first.forced = true → second.forced = true →
        first.startedAt + world.keys.config.minRefreshInterval.nanos ≤ second.startedAt := by
  intro claim
  obtain ⟨⟨last, log⟩, went, fetches⟩ :
      ∃ result ∈ (Desk.opening (worldWithKeys true)).visits
          [⟨"ghost", [], [], []⟩, ⟨"ghost", [], [], []⟩],
        result.2 = List.replicate 2 ⟨(worldWithKeys true).clock, true, false⟩ := by
    decide +kernel
  have apart := claim _ _ last log ⟨_, rfl, Nat.zero_le _, by decide +kernel⟩ went
  simp only at fetches
  subst fetches
  have pause := (List.pairwise_cons.mp apart).1 _ List.mem_cons_self rfl rfl
  exact absurd pause (by decide)

end Sample

end WebhookRelay
