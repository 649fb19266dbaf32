import WebhookRelay.Proofs.Courses

/-!
# Key look-ups side by side

Many look-ups share one key cache.  A look-up reads the cache in its first step.  If that
does not decide it, it waits until it has the cache for itself; then it takes over a set
that was installed meanwhile, or it fetches and keeps everybody else from the cache until
the fetch has ended.  Time may pass while it does.  Besides the look-ups, somebody may ask
for a fetch at once, or drop what is cached.

A move starts a look-up, lets one take its next step, or is one of the things that happen
around them.  What a look-up does between its steps is its program, so a list of moves is
an interleaving of look-ups.
-/

set_option autoImplicit false

namespace WebhookRelay

/-! ## What the cache says -/

namespace KeyCache

variable {cache : KeyCache} {now : Instant} {keyId : String} {seenAt : Option Instant}

theorem isExpired_iff {entry : CachedKeys} : cache.isExpired now entry = true ↔
    cache.config.ttl.nanos ≤ now - entry.fetchedAt :=
  decide_eq_true_iff

theorem read_found {key : VerifyingKey} (read : cache.read now keyId = .found key) :
    ∃ entry, cache.cached = some entry ∧ cache.isExpired now entry = false ∧
      entry.keys.find? keyId = some key := by
  unfold KeyCache.read at read
  split at read
  · cases read
  · rename_i entry held
    split at read
    · cases read
    · rename_i young
      split at read
      · rename_i found
        cases read
        exact ⟨entry, held, by simpa using young, found⟩
      · split at read <;> cases read

theorem read_absent (read : cache.read now keyId = .absent) :
    ∃ entry, cache.cached = some entry ∧ cache.isExpired now entry = false ∧
      entry.keys.find? keyId = none := by
  unfold KeyCache.read at read
  split at read
  · cases read
  · rename_i entry held
    split at read
    · cases read
    · rename_i young
      split at read
      · cases read
      · rename_i unknown
        exact ⟨entry, held, by simpa using young, unknown⟩

theorem read_stale (read : cache.read now keyId = .stale seenAt) :
    (cache.cached = none ∧ seenAt = none) ∨
      ∃ entry, cache.cached = some entry ∧ seenAt = some entry.fetchedAt ∧
        (cache.isExpired now entry = true ∨ entry.keys.find? keyId = none ∧
          cache.config.minRefreshInterval.nanos ≤ now - entry.fetchedAt) := by
  unfold KeyCache.read at read
  split at read
  · rename_i nothing
    cases read
    exact Or.inl ⟨nothing, rfl⟩
  · rename_i entry held
    split at read
    · rename_i expired
      cases read
      exact Or.inr ⟨entry, held, rfl, Or.inl expired⟩
    · split at read
      · cases read
      · rename_i unknown
        split at read
        · cases read
        · rename_i due
          cases read
          exact Or.inr ⟨entry, held, rfl, Or.inr ⟨unknown, Nat.le_of_not_lt due⟩⟩

/-- A look-up of a key id must fetch: nothing is cached, or what is cached has expired, or it
lacks the key id and is old enough. -/
def FetchDue (cache : KeyCache) (now : Instant) (keyId : String) : Prop :=
  ∀ entry, cache.cached = some entry → cache.isExpired now entry = true ∨
    entry.keys.find? keyId = none ∧
      cache.config.minRefreshInterval.nanos ≤ now - entry.fetchedAt

theorem read_of_fetchDue (due : cache.FetchDue now keyId) :
    ∃ seenAt, cache.read now keyId = .stale seenAt := by
  unfold KeyCache.read
  cases held : cache.cached with
  | none => exact ⟨none, rfl⟩
  | some entry =>
      refine ⟨some entry.fetchedAt, ?_⟩
      rcases due entry held with expired | ⟨unknown, old⟩
      · simp only [expired, if_true]
      · have notYoung : ¬now.since entry.fetchedAt < cache.config.minRefreshInterval.nanos :=
          Nat.not_lt.mpr old
        simp only [unknown, notYoung, if_false, ite_self]

theorem fetchDue_of_read (read : cache.read now keyId = .stale seenAt) :
    cache.FetchDue now keyId := by
  intro entry cached
  obtain ⟨nothing, _⟩ | ⟨held, isHeld, _, due⟩ := read_stale read
  · rw [nothing] at cached
    cases cached
  · rw [isHeld] at cached
    cases cached
    exact due

theorem read_of_known {entry : CachedKeys} {key : VerifyingKey}
    (held : cache.cached = some entry) (young : cache.isExpired now entry = false)
    (found : entry.keys.find? keyId = some key) : cache.read now keyId = .found key := by
  simp [KeyCache.read, held, young, found]

theorem takeOver?_eq_some {keys : KeySet} (taken : cache.takeOver? now seenAt = some keys) :
    ∃ entry, cache.cached = some entry ∧ entry.keys = keys ∧ some entry.fetchedAt ≠ seenAt ∧
      cache.isExpired now entry = false := by
  unfold takeOver? at taken
  split at taken
  · cases taken
  · rename_i entry held
    split at taken
    · rename_i new
      cases taken
      exact ⟨entry, held, rfl, new.1, by simpa using new.2⟩
    · cases taken

/-- What is cached where nothing is taken over is expired, or it is what was seen. -/
theorem takeOver?_eq_none {entry : CachedKeys} (nothing : cache.takeOver? now seenAt = none)
    (held : cache.cached = some entry) :
    some entry.fetchedAt = seenAt ∨ cache.isExpired now entry = true := by
  simp only [takeOver?, held] at nothing
  split at nothing
  · cases nothing
  · rename_i old
    by_cases seen : some entry.fetchedAt = seenAt
    · exact Or.inl seen
    · exact Or.inr (by simpa [seen] using old)

end KeyCache

/-! ## What a fetch comes to -/

namespace World

variable {world : World}

def fetched (world : World) (published : JwkSet) : World :=
  { world with
    fetches := world.fetches + 1
    keys := world.keys.install world.clock (.ofJwks published) }

theorem fetchKeys_ok {published : JwkSet}
    (answered : world.source.fetch world.network = .ok published) :
    world.fetchKeys = (.ok (.ofJwks published), world.fetched published) := by
  simp only [World.fetchKeys, answered]
  rfl

theorem fetchKeys_error {error : WebhookError}
    (refused : world.source.fetch world.network = .error error) :
    world.fetchKeys =
      (.error (.keySetUnavailable error.message), { world with fetches := world.fetches + 1 }) := by
  simp only [World.fetchKeys, refused]

end World

/-! ## Look-ups -/

def KeySet.answer (keys : KeySet) (keyId : String) : Except VerificationError VerifyingKey :=
  match keys.find? keyId with
  | some key => .ok key
  | none => .error (.keyNotFound keyId)

/-- The instant of the set that a look-up saw when it missed, if there was a set. -/
def KeyReading.missed : KeyReading → Option (Option Instant)
  | .stale seenAt => some seenAt
  | _ => none

/-- A look-up that was begun, and what it saw in case it missed. -/
structure Lookup where
  keyId : String
  missed : Option (Option Instant) := none
  rest : Program (Except VerificationError VerifyingKey)

namespace Lookup

def begun (keyId : String) : Lookup where
  keyId
  rest := (lookUpKey keyId).outcome

def verdict (keyId : String) : Except VerificationError KeySet →
    Except VerificationError VerifyingKey
  | .ok keys => keys.answer keyId
  | .error error => .error error

/-- A look-up between its first step and its second one. -/
def missing (keyId : String) (seenAt : Option Instant) : Lookup where
  keyId
  missed := some seenAt
  rest := .call (.refreshKeys seenAt) fun answer => .done (verdict keyId answer)

def ended (keyId : String) (missed : Option (Option Instant))
    (result : Except VerificationError VerifyingKey) : Lookup where
  keyId
  missed
  rest := .done result

def afterReading (keyId : String) : KeyReading → Lookup
  | .found key => ended keyId none (.ok key)
  | .absent => ended keyId none (.error (.keyNotFound keyId))
  | .stale seenAt => missing keyId seenAt

/-- The places of its program that a look-up can be in. -/
inductive Placed : Lookup → Prop where
  | begun (keyId : String) : Placed (.begun keyId)
  | missing (keyId : String) (seenAt : Option Instant) : Placed (.missing keyId seenAt)
  | ended (keyId : String) (missed : Option (Option Instant))
      (result : Except VerificationError VerifyingKey) : Placed (.ended keyId missed result)

theorem Placed.afterReading (keyId : String) (reading : KeyReading) :
    (Lookup.afterReading keyId reading).Placed := by
  cases reading with
  | found key => exact .ended keyId none _
  | absent => exact .ended keyId none _
  | stale seenAt => exact .missing keyId seenAt

theorem begun_rest (keyId : String) :
    (begun keyId).rest = .call (.readKeys keyId) fun reading =>
      (afterReading keyId reading).rest := by
  refine Eq.trans (lookUpKey_outcome keyId) ?_
  refine congrArg (Program.call _) (funext fun reading => ?_)
  cases reading with
  | found key => rfl
  | absent => rfl
  | stale seenAt =>
      refine congrArg (Program.call _) (funext fun answer => ?_)
      cases answer with
      | error error => rfl
      | ok keys =>
          show _ = Program.done (keys.answer keyId)
          unfold KeySet.answer
          dsimp only
          cases keys.find? keyId <;> rfl

end Lookup

/-- Whom a fetch is made for: a look-up, or somebody who wants a new set at once. -/
inductive Errand where
  | lookup (who : Nat)
  | renewal
  deriving DecidableEq, Repr

structure Desk where
  world : World
  lookups : List Lookup := []
  /-- The fetch that is under way, if there is one; until it ends, nobody else gets at the
  cache. -/
  fetching : Option Errand := none
  /-- The sets that were installed so far, the last one at the end. -/
  installed : List CachedKeys := []

namespace Desk

inductive Move where
  | ask (keyId : String)
  | proceed (who : Nat)
  /-- Somebody asks for a fetch, whatever is cached. -/
  | renew
  /-- The fetch that is under way ends. -/
  | arrive
  | change (circumstance : Circumstance)

/-- The next step of a look-up, while no fetch is under way. -/
def advance (desk : Desk) (who : Nat) : Option Desk :=
  match desk.lookups[who]? with
  | some ⟨keyId, _, .call (.readKeys asked) next⟩ =>
      let reading := desk.world.keys.read desk.world.clock asked
      some { desk with
        lookups := desk.lookups.set who ⟨keyId, reading.missed, next reading⟩ }
  | some ⟨keyId, missed, .call (.refreshKeys seenAt) next⟩ =>
      match desk.world.keys.takeOver? desk.world.clock seenAt with
      | some keys =>
          some { desk with lookups := desk.lookups.set who ⟨keyId, missed, next (.ok keys)⟩ }
      | none => some { desk with fetching := some (.lookup who) }
  | _ => none

def told (desk : Desk) (answer : Except VerificationError KeySet) : Errand → List Lookup
  | .renewal => desk.lookups
  | .lookup who =>
      match desk.lookups[who]? with
      | some ⟨keyId, missed, .call (.refreshKeys _) next⟩ =>
          desk.lookups.set who ⟨keyId, missed, next answer⟩
      | _ => desk.lookups

def fetched (desk : Desk) : List CachedKeys :=
  match desk.world.fetchKeys.1 with
  | .ok keys => [⟨keys, desk.world.clock⟩]
  | .error _ => []

/-- The desk after a move.  There is none where a look-up that has ended is to proceed, or
where a fetch under way keeps the move from the cache. -/
def move (desk : Desk) : Move → Option Desk
  | .ask keyId => some { desk with lookups := desk.lookups ++ [.begun keyId] }
  | .proceed who => if desk.fetching = none then desk.advance who else none
  | .renew =>
      if desk.fetching = none then some { desk with fetching := some .renewal } else none
  | .arrive =>
      desk.fetching.map fun errand => {
        world := desk.world.fetchKeys.2
        lookups := desk.told desk.world.fetchKeys.1 errand
        installed := desk.installed ++ desk.fetched }
  | .change .invalidateKeys =>
      if desk.fetching = none then
        some { desk with world := desk.world.under .invalidateKeys }
      else none
  | .change circumstance => some { desk with world := desk.world.under circumstance }

def play (desk : Desk) : List Move → Option Desk
  | [] => some desk
  | next :: rest => do
      let desk ← desk.move next
      desk.play rest

def opening (world : World) : Desk :=
  { world }

/-! ## Steps -/

/-- Every look-up is in a place of its program, and a fetch that is under way for a look-up
is for one that has missed. -/
structure Formed (desk : Desk) : Prop where
  lookups : ∀ lookup ∈ desk.lookups, lookup.Placed
  errand : ∀ who, desk.fetching = some (.lookup who) →
    ∃ keyId seenAt, desk.lookups[who]? = some (.missing keyId seenAt)

inductive Step (desk : Desk) : Move → Desk → Prop where
  | asked (keyId : String) :
      Step desk (.ask keyId) { desk with lookups := desk.lookups ++ [.begun keyId] }
  | read {who : Nat} {keyId : String} (free : desk.fetching = none)
      (waits : desk.lookups[who]? = some (.begun keyId)) :
      Step desk (.proceed who) { desk with
        lookups := desk.lookups.set who
          (.afterReading keyId (desk.world.keys.read desk.world.clock keyId)) }
  | tookOver {who : Nat} {keyId : String} {seenAt : Option Instant} {keys : KeySet}
      (free : desk.fetching = none)
      (waits : desk.lookups[who]? = some (.missing keyId seenAt))
      (taken : desk.world.keys.takeOver? desk.world.clock seenAt = some keys) :
      Step desk (.proceed who) { desk with
        lookups := desk.lookups.set who (.ended keyId (some seenAt) (keys.answer keyId)) }
  | began {who : Nat} {keyId : String} {seenAt : Option Instant}
      (free : desk.fetching = none)
      (waits : desk.lookups[who]? = some (.missing keyId seenAt))
      (nothing : desk.world.keys.takeOver? desk.world.clock seenAt = none) :
      Step desk (.proceed who) { desk with fetching := some (.lookup who) }
  | renewed (free : desk.fetching = none) :
      Step desk .renew { desk with fetching := some .renewal }
  | failed {errand : Errand} {error : WebhookError} (underWay : desk.fetching = some errand)
      (refused : desk.world.source.fetch desk.world.network = .error error) :
      Step desk .arrive {
        world := { desk.world with fetches := desk.world.fetches + 1 }
        lookups := desk.told (.error (.keySetUnavailable error.message)) errand
        installed := desk.installed }
  | arrived {errand : Errand} {published : JwkSet} (underWay : desk.fetching = some errand)
      (answered : desk.world.source.fetch desk.world.network = .ok published) :
      Step desk .arrive {
        world := { desk.world with
          fetches := desk.world.fetches + 1
          keys := desk.world.keys.install desk.world.clock (.ofJwks published) }
        lookups := desk.told (.ok (.ofJwks published)) errand
        installed := desk.installed ++ [⟨.ofJwks published, desk.world.clock⟩] }
  | changed {circumstance : Circumstance}
      (free : circumstance = .invalidateKeys → desk.fetching = none) :
      Step desk (.change circumstance) { desk with world := desk.world.under circumstance }

variable {desk after : Desk}

theorem formed_opening (world : World) : (opening world).Formed where
  lookups lookup member := by cases member
  errand who busy := by cases busy

theorem told_lookup {who : Nat} {keyId : String} {seenAt : Option Instant}
    (waits : desk.lookups[who]? = some (.missing keyId seenAt))
    (answer : Except VerificationError KeySet) :
    desk.told answer (.lookup who) =
      desk.lookups.set who (.ended keyId (some seenAt) (Lookup.verdict keyId answer)) := by
  simp only [told]
  rw [waits]
  rfl

theorem advance_begun {who : Nat} {keyId : String}
    (waits : desk.lookups[who]? = some (.begun keyId)) :
    desk.advance who = some { desk with
      lookups := desk.lookups.set who
        (.afterReading keyId (desk.world.keys.read desk.world.clock keyId)) } := by
  have program : Lookup.begun keyId = ⟨keyId, none, .call (.readKeys keyId) fun reading =>
      (Lookup.afterReading keyId reading).rest⟩ := by
    rw [← Lookup.begun_rest]
    rfl
  rw [program] at waits
  simp only [advance, waits]
  cases desk.world.keys.read desk.world.clock keyId <;> rfl

theorem advance_missing {who : Nat} {keyId : String} {seenAt : Option Instant}
    (waits : desk.lookups[who]? = some (.missing keyId seenAt)) :
    desk.advance who =
      match desk.world.keys.takeOver? desk.world.clock seenAt with
      | some keys => some { desk with
          lookups := desk.lookups.set who (.ended keyId (some seenAt) (keys.answer keyId)) }
      | none => some { desk with fetching := some (.lookup who) } := by
  unfold advance
  rw [waits]
  rfl

theorem proceed_begun {who : Nat} {keyId : String} (free : desk.fetching = none)
    (waits : desk.lookups[who]? = some (.begun keyId)) :
    desk.move (.proceed who) = some { desk with
      lookups := desk.lookups.set who
        (.afterReading keyId (desk.world.keys.read desk.world.clock keyId)) } := by
  rw [move, if_pos free]
  exact advance_begun waits

theorem proceed_missing {who : Nat} {keyId : String} {seenAt : Option Instant}
    (free : desk.fetching = none) (waits : desk.lookups[who]? = some (.missing keyId seenAt)) :
    desk.move (.proceed who) =
      match desk.world.keys.takeOver? desk.world.clock seenAt with
      | some keys => some { desk with
          lookups := desk.lookups.set who (.ended keyId (some seenAt) (keys.answer keyId)) }
      | none => some { desk with fetching := some (.lookup who) } := by
  rw [move, if_pos free]
  exact advance_missing waits

theorem move_arrive {errand : Errand} (underWay : desk.fetching = some errand) :
    desk.move .arrive = some {
      world := desk.world.fetchKeys.2
      lookups := desk.told desk.world.fetchKeys.1 errand
      installed := desk.installed ++ desk.fetched } :=
  congrArg (Option.map _) underWay

theorem arrive_told {who : Nat} {keyId : String} {seenAt : Option Instant}
    (underWay : desk.fetching = some (.lookup who))
    (waits : desk.lookups[who]? = some (.missing keyId seenAt)) :
    desk.move .arrive = some {
      world := desk.world.fetchKeys.2
      lookups := desk.lookups.set who
        (.ended keyId (some seenAt) (Lookup.verdict keyId desk.world.fetchKeys.1))
      installed := desk.installed ++ desk.fetched } := by
  rw [← told_lookup waits]
  exact move_arrive underWay

theorem Formed.step (formed : desk.Formed) {next : Move} (moved : desk.move next = some after) :
    desk.Step next after := by
  cases next with
  | ask keyId =>
      cases moved
      exact .asked keyId
  | renew =>
      simp only [move] at moved
      split at moved
      · rename_i free
        cases moved
        exact .renewed free
      · cases moved
  | arrive =>
      obtain ⟨errand, underWay, rfl⟩ := Option.map_eq_some_iff.mp moved
      cases answer : desk.world.source.fetch desk.world.network with
      | error error =>
          simp only [fetched, World.fetchKeys, answer, List.append_nil]
          exact .failed underWay answer
      | ok published =>
          simp only [fetched, World.fetchKeys, answer]
          exact .arrived underWay answer
  | change circumstance =>
      cases circumstance with
      | invalidateKeys =>
          simp only [move] at moved
          split at moved
          · rename_i free
            cases moved
            exact .changed fun _ => free
          · cases moved
      | _ =>
          cases moved
          exact .changed nofun
  | proceed who =>
      simp only [move] at moved
      split at moved
      · rename_i free
        cases found : desk.lookups[who]? with
        | none =>
            rw [advance, found] at moved
            cases moved
        | some lookup =>
            -- The look-up is in a place of its program, and that decides what its call is.
            cases formed.lookups lookup (List.mem_of_getElem? found) with
            | begun keyId =>
                rw [advance_begun found] at moved
                cases moved
                exact .read free found
            | missing keyId seenAt =>
                rw [advance_missing found] at moved
                split at moved
                · rename_i taken
                  cases moved
                  exact .tookOver free found taken
                · rename_i nothing
                  cases moved
                  exact .began free found nothing
            | ended keyId missed result =>
                rw [advance, found] at moved
                cases moved
      · cases moved

theorem Formed.replace (formed : desk.Formed) (free : desk.fetching = none) {who : Nat}
    {lookup : Lookup} (placed : lookup.Placed) :
    Formed { desk with lookups := desk.lookups.set who lookup } where
  lookups other member := by
    rcases List.mem_or_eq_of_mem_set member with old | rfl
    · exact formed.lookups other old
    · exact placed
  errand who busy := by
    rw [free] at busy
    cases busy

theorem Formed.told (formed : desk.Formed) {errand : Errand}
    (underWay : desk.fetching = some errand) (answer : Except VerificationError KeySet) :
    ∀ lookup ∈ desk.told answer errand, lookup.Placed := by
  cases errand with
  | renewal => exact formed.lookups
  | lookup who =>
      obtain ⟨keyId, seenAt, waits⟩ := formed.errand who underWay
      rw [told_lookup waits]
      intro lookup member
      rcases List.mem_or_eq_of_mem_set member with old | rfl
      · exact formed.lookups lookup old
      · exact .ended keyId (some seenAt) _

theorem Formed.move (formed : desk.Formed) {next : Move}
    (moved : desk.move next = some after) : after.Formed := by
  cases formed.step moved with
  | asked keyId =>
      refine ⟨fun lookup member => ?_, fun who busy => ?_⟩
      · rcases List.mem_append.mp member with old | new
        · exact formed.lookups lookup old
        · obtain rfl := List.mem_singleton.mp new
          exact .begun keyId
      · obtain ⟨keyId, seenAt, waits⟩ := formed.errand who busy
        refine ⟨keyId, seenAt, ?_⟩
        have inside := (List.getElem?_eq_some_iff.mp waits).1
        rw [List.getElem?_append_left inside]
        exact waits
  | read free waits => exact formed.replace free (.afterReading _ _)
  | tookOver free waits taken => exact formed.replace free (.ended _ _ _)
  | @began who keyId seenAt free waits nothing =>
      refine ⟨formed.lookups, fun other busy => ?_⟩
      cases busy
      exact ⟨keyId, seenAt, waits⟩
  | renewed free => exact ⟨formed.lookups, nofun⟩
  | failed underWay refused => exact ⟨formed.told underWay _, nofun⟩
  | arrived underWay answered => exact ⟨formed.told underWay _, nofun⟩
  | changed free => exact ⟨formed.lookups, formed.errand⟩

theorem play_cons {next : Move} {rest : List Move} {middle : Desk}
    (moved : desk.move next = some middle) : desk.play (next :: rest) = middle.play rest := by
  simp only [play, moved, bind, Option.bind_some]

/-- What every move of a play preserves, from desks that are well formed, holds at its
end. -/
theorem play_preserves (kept : Desk → Prop) {moves : List Move} {last : Desk}
    (preserved : ∀ next ∈ moves, ∀ before after : Desk, before.Formed → kept before →
      before.Step next after → kept after)
    (formed : desk.Formed) (start : kept desk) (played : desk.play moves = some last) :
    last.Formed ∧ kept last := by
  induction moves generalizing desk with
  | nil =>
      cases played
      exact ⟨formed, start⟩
  | cons next rest ih =>
      simp only [play, bind, Option.bind_eq_some_iff] at played
      obtain ⟨middle, moved, played⟩ := played
      -- Only from a well-formed desk is a move one of the steps, so both go along.
      refine ih (fun other member => preserved other (List.mem_cons_of_mem _ member))
        (formed.move moved) ?_ played
      exact preserved next List.mem_cons_self desk middle formed start (formed.step moved)

end Desk

end WebhookRelay
